namespace ShardedLedger.Utf8

-- A character under way: the bits gathered, the bytes read and still owed, and the range
-- into which the next byte must fall.
structure Pending where
  bits : Nat
  read : Nat
  owed : Nat
  low : Nat
  high : Nat

inductive Progress where
  | char (c : Char)
  | pending (p : Pending)
  | refused

-- The narrower ranges behind E0, ED, F0 and F4 keep out long forms, surrogates and code
-- points above the last one.
def lead (byte : Nat) : Progress :=
  if byte < 0x80 then .char (.ofNat byte)
  else if 0xC2 ≤ byte ∧ byte ≤ 0xDF then .pending ⟨byte - 0xC0, 1, 1, 0x80, 0xBF⟩
  else if byte = 0xE0 then .pending ⟨0x0, 1, 2, 0xA0, 0xBF⟩
  else if byte = 0xED then .pending ⟨0xD, 1, 2, 0x80, 0x9F⟩
  else if 0xE1 ≤ byte ∧ byte ≤ 0xEF then .pending ⟨byte - 0xE0, 1, 2, 0x80, 0xBF⟩
  else if byte = 0xF0 then .pending ⟨0, 1, 3, 0x90, 0xBF⟩
  else if 0xF1 ≤ byte ∧ byte ≤ 0xF3 then .pending ⟨byte - 0xF0, 1, 3, 0x80, 0xBF⟩
  else if byte = 0xF4 then .pending ⟨4, 1, 3, 0x80, 0x8F⟩
  else .refused

def Pending.next (p : Pending) (byte : Nat) : Progress :=
  if p.low ≤ byte ∧ byte ≤ p.high then
    let bits := p.bits * 64 + (byte - 0x80)
    if p.owed ≤ 1 then .char (.ofNat bits)
    else .pending ⟨bits, p.read + 1, p.owed - 1, 0x80, 0xBF⟩
  else .refused

-- Bytes that are no text: `width` of them begin a character that the next byte cannot go on
-- with, or the input ends inside a character.
inductive Flaw where
  | malformed (width : Nat)
  | truncated
  deriving DecidableEq

inductive Piece where
  | char (c : Char)
  | flawed (flaw : Flaw)
  deriving DecidableEq

-- A byte that breaks a character off is read again as the start of the next one.
def pieces : Option Pending → List UInt8 → List Piece
  | none, [] => []
  | some _, [] => [.flawed .truncated]
  | none, byte :: rest =>
      match lead byte.toNat with
      | .char c => .char c :: pieces none rest
      | .pending p => pieces (some p) rest
      | .refused => .flawed (.malformed 1) :: pieces none rest
  | some p, byte :: rest =>
      match p.next byte.toNat with
      | .char c => .char c :: pieces none rest
      | .pending p => pieces (some p) rest
      | .refused =>
          .flawed (.malformed p.read) ::
            match lead byte.toNat with
            | .char c => .char c :: pieces none rest
            | .pending p => pieces (some p) rest
            | .refused => .flawed (.malformed 1) :: pieces none rest

def firstFlaw (offset : Nat) : List Piece → Option (Nat × Flaw)
  | [] => none
  | .char c :: rest => firstFlaw (offset + c.utf8Size) rest
  | .flawed flaw :: _ => some (offset, flaw)

-- Where the bytes first fail to be text, and how.
def flaw? (bytes : List UInt8) : Option (Nat × Flaw) := firstFlaw 0 (pieces none bytes)

-- Every run of bytes that is no character becomes one replacement character.
def lossy (bytes : List UInt8) : String :=
  .ofList ((pieces none bytes).map fun
    | .char c => c
    | .flawed _ => '\ufffd')

def decode? (bytes : List UInt8) : Option String :=
  if (flaw? bytes).isNone then some (lossy bytes) else none

def encode (text : List Char) : List UInt8 := text.flatMap String.utf8EncodeChar

def Flaw.message (flaw : Flaw) (offset : Nat) : String :=
  match flaw with
  | .malformed width =>
      "invalid utf-8 sequence of " ++ toString width ++ " bytes from index " ++ toString offset
  | .truncated => "incomplete utf-8 byte sequence from index " ++ toString offset

end ShardedLedger.Utf8
