import ShardedLedger.Json.Basic
import ShardedLedger.Number.Shortest

namespace ShardedLedger

-- How a number that is no integer is laid out: positional for decimal points between the two
-- bounds, outside of them with the given mark and a power of ten that always has its sign. A
-- whole number keeps one zero behind its point.
structure FloatLayout where
  leastPoint : Int
  greatestPoint : Int
  mark : Char

def Json.floatLayout : FloatLayout := ⟨-4, 16, 'e'⟩

namespace FloatLayout

def zeros (count : Int) : List Char := List.replicate count.toNat '0'

def signed (power : Int) : List Char :=
  (if power < 0 then '-' else '+') :: (toString power.natAbs).toList

-- `point` counts the digits in front of the decimal point.
def place (layout : FloatLayout) (digits : List Char) (point : Int) : List Char :=
  let count : Int := digits.length
  if layout.leastPoint ≤ point ∧ point ≤ layout.greatestPoint then
    if count ≤ point then digits ++ zeros (point - count) ++ ['.', '0']
    else if 0 < point then digits.take point.toNat ++ ['.'] ++ digits.drop point.toNat
    else ['0', '.'] ++ zeros (-point) ++ digits
  else
    let fraction := if digits.length ≤ 1 then [] else '.' :: digits.drop 1
    digits.take 1 ++ fraction ++ layout.mark :: signed (point - 1)

def dropZeros (digits : List Char) : List Char :=
  (digits.reverse.dropWhile (· = '0')).reverse

def write (layout : FloatLayout) (x : Binary64) : List Char :=
  let decimal := x.shortest
  let all := Nat.toDigits 10 decimal.digits
  let body :=
    if decimal.digits = 0 then ['0', '.', '0']
    else layout.place (dropZeros all) (all.length + decimal.exponent)
  if x.negative then '-' :: body else body

end FloatLayout

namespace Json

def hexDigit (n : Nat) : Char := Nat.digitChar (n % 16)

-- Only what the grammar forbids inside a string is escaped.
def escape (c : Char) : List Char :=
  match c with
  | '\"' => ['\\', '\"']
  | '\\' => ['\\', '\\']
  | '\x08' => ['\\', 'b']
  | '\x0c' => ['\\', 'f']
  | '\n' => ['\\', 'n']
  | '\r' => ['\\', 'r']
  | '\t' => ['\\', 't']
  | c =>
      if c.toNat < 0x20 then
        ['\\', 'u', '0', '0', hexDigit (c.toNat / 16), hexDigit c.toNat]
      else [c]

def writeString (s : String) : List Char :=
  '\"' :: s.toList.flatMap escape ++ ['\"']

mutual

def write : Json → List Char
  | .null => ['n', 'u', 'l', 'l']
  | .bool true => ['t', 'r', 'u', 'e']
  | .bool false => ['f', 'a', 'l', 's', 'e']
  | .int value => (toString value).toList
  | .float value => floatLayout.write value
  | .str value => writeString value
  | .arr items => '[' :: writeItems items ++ [']']
  | .obj members => '\x7b' :: writeMembers members ++ ['\x7d']

def writeItems : List Json → List Char
  | [] => []
  | [item] => write item
  | item :: rest => write item ++ ',' :: writeItems rest

def writeMembers : List (String × Json) → List Char
  | [] => []
  | [(name, value)] => writeString name ++ ':' :: write value
  | (name, value) :: rest => writeString name ++ ':' :: write value ++ ',' :: writeMembers rest

end

-- The compact text, without any white space between tokens.
def print (json : Json) : String := .ofList json.write

end Json

end ShardedLedger
