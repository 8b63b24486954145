import ShardedLedger.Json.Error
import ShardedLedger.Ledger.Account

namespace ShardedLedger

-- Why a ledger refuses a request.
inductive LedgerError where
  | notFound (key : Key)
  | closed (key : Key)
  | invalidKey (text : String)
  | unknownType (name : String)
  | underSpend (parent child : Key)
  | typeMismatch (key : Key)
  | notAnObject
  | badRecord (name : String) (error : Json.Error)
  | misnamed (key name : Key)
  deriving DecidableEq

def LedgerError.message : LedgerError → String
  | .notFound key => "account not found: " ++ key.text
  | .closed key => "account is closed: " ++ key.text
  | .invalidKey text => "invalid account name: " ++ Text.quoted text
  | .unknownType name => "unknown account type: " ++ name
  | .underSpend parent child =>
      "account " ++ child.text ++ " cannot be created under spend account " ++ parent.text
  | .typeMismatch key => "account " ++ key.text ++ " already exists with a different type"
  | .notAnObject => "invalid ledger json: expected an object"
  | .badRecord name error => "invalid ledger json: " ++ name ++ ": " ++ error.message
  | .misnamed key name =>
      "invalid ledger json: record for " ++ key.text ++ " is named " ++ name.text

def Key.parse (text : String) : Except LedgerError Key :=
  match Key.parse? text with
  | some key => .ok key
  | none => .error (.invalidKey text)

def AccountType.parse (name : String) : Except LedgerError AccountType :=
  match AccountType.ofName? name with
  | some type => .ok type
  | none => .error (.unknownType name)

-- An operation ends with an answer, with a refusal, or halfway with an overflow.
inductive Failure (ε : Type) where
  | refused (error : ε)
  | overflow (overflow : Overflow)
  deriving DecidableEq

def Failure.map {ε δ : Type} (change : ε → δ) : Failure ε → Failure δ
  | .refused error => .refused (change error)
  | .overflow cause => .overflow cause

end ShardedLedger
