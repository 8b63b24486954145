import ShardedLedger.Json.Error
import ShardedLedger.Settings.Files
import ShardedLedger.Settings.Numeral
import ShardedLedger.Settings.SocketAddress

namespace ShardedLedger

-- Why a flag does not take a value.
inductive ValueError where
  | notAnAddress
  | numeral (error : NumeralError)
  | notPositive
  deriving DecidableEq

def ValueError.message : ValueError → String
  | .notAnAddress => "invalid socket address syntax"
  | .numeral error => error.message
  | .notPositive => "must be greater than zero"

inductive SettingsError where
  | missingValue (flag : String)
  | invalidValue (flag value : String) (reason : ValueError)
  | unknownStore (name : String)
  | unreadable (path : String) (reason : FileError)
  | malformed (path : String) (error : Json.Error)
  | noShards
  deriving DecidableEq

def SettingsError.message : SettingsError → String
  | .missingValue flag => "missing value for " ++ flag
  | .invalidValue flag value reason =>
      "invalid value " ++ Text.quoted value ++ " for " ++ flag ++ ": " ++ reason.message
  | .unknownStore name => "unknown store " ++ Text.quoted name ++ " (expected memory or redis)"
  | .unreadable path reason => "failed to read " ++ path ++ ": " ++ reason.message
  | .malformed path error => "failed to parse " ++ path ++ ": " ++ error.message
  | .noShards => "shard table is empty"

-- A flag of the command line and what its value does to the settings.
structure Flag (σ : Type) where
  name : String
  apply : σ → String → Except ValueError σ

namespace Flag

variable {σ : Type}

def text (name : String) (set : σ → String → σ) : Flag σ :=
  ⟨name, fun settings value => .ok (set settings value)⟩

def address (name : String) (set : σ → SocketAddress → σ) : Flag σ :=
  ⟨name, fun settings value =>
    match SocketAddress.parse? value with
    | some address => .ok (set settings address)
    | none => .error .notAnAddress⟩

def number (name : String) (greatest : Nat) (set : σ → Nat → σ) : Flag σ :=
  ⟨name, fun settings value =>
    match Numeral.parse greatest value with
    | .ok number => .ok (set settings number)
    | .error error => .error (.numeral error)⟩

def positive (name : String) (greatest : Nat) (set : σ → Nat → σ) : Flag σ :=
  ⟨name, fun settings value =>
    match Numeral.parse greatest value with
    | .ok 0 => .error .notPositive
    | .ok number => .ok (set settings number)
    | .error error => .error (.numeral error)⟩

def set (flag : Flag σ) (value : String) (settings : σ) : Except SettingsError σ :=
  (flag.apply settings value).mapError (.invalidValue flag.name value)

-- A known flag takes the next argument for its value, whatever it looks like. Other arguments
-- are passed over one by one.
def scan (flags : List (Flag σ)) : List String → σ → Except SettingsError σ
  | [], settings => .ok settings
  | [argument], settings =>
      if (flags.find? (·.name = argument)).isSome then .error (.missingValue argument)
      else .ok settings
  | argument :: value :: rest, settings =>
      match flags.find? (·.name = argument) with
      | none => scan flags (value :: rest) settings
      | some flag =>
          match flag.set value settings with
          | .ok settings => scan flags rest settings
          | .error error => .error error

end Flag

def greatestWord : Nat := 0xFFFFFFFFFFFFFFFF

end ShardedLedger
