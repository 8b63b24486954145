import ShardedLedger.Json.Basic
import ShardedLedger.Json.Error

namespace ShardedLedger.Json

-- Takes a value off the front of a text and leaves what follows it.
abbrev Reader (α : Type) := List Char → Except Error (α × List Char)

def isBlank (c : Char) : Bool := c = ' ' || c = '\t' || c = '\n' || c = '\r'

def skipBlanks (text : List Char) : List Char := text.dropWhile isBlank

-- The rest of a word whose first letter has decided for it.
def readWord : List Char → List Char → Except Error (List Char)
  | [], text => .ok text
  | _ :: _, [] => .error .endInValue
  | letter :: word, c :: text => if c = letter then readWord word text else .error .badLiteral

section Strings

def hexValue (c : Char) : Option Nat :=
  if c.isDigit then some (c.toNat - '0'.toNat)
  else if 'a' ≤ c ∧ c ≤ 'f' then some (c.toNat - 'a'.toNat + 10)
  else if 'A' ≤ c ∧ c ≤ 'F' then some (c.toNat - 'A'.toNat + 10)
  else none

-- Four digits are looked for in the next four bytes, so too short a rest is told apart from
-- wrong digits by its size in bytes.
def readHex : Reader Nat
  | a :: b :: c :: d :: rest =>
      match hexValue a, hexValue b, hexValue c, hexValue d with
      | some a, some b, some c, some d => .ok (((a * 16 + b) * 16 + c) * 16 + d, rest)
      | _, _, _, _ => .error .badEscape
  | short =>
      if 4 ≤ (String.ofList short).utf8ByteSize then .error .badEscape else .error .endInString

-- A high surrogate counts only together with the low one escaped right behind it.
def readUnicode (text : List Char) : Except Error (Char × List Char) := do
  let (unit, rest) ← readHex text
  if 0xDC00 ≤ unit ∧ unit ≤ 0xDFFF then .error .loneSurrogate
  else if 0xD800 ≤ unit ∧ unit ≤ 0xDBFF then
    match rest with
    | [] => .error .endInString
    | ['\\'] => .error .endInString
    | '\\' :: 'u' :: rest =>
        let (low, rest) ← readHex rest
        if 0xDC00 ≤ low ∧ low ≤ 0xDFFF then
          .ok (.ofNat (0x10000 + (unit - 0xD800) * 0x400 + (low - 0xDC00)), rest)
        else .error .loneSurrogate
    | _ => .error .unfinishedPair
  else .ok (.ofNat unit, rest)

def simpleEscape : Char → Option Char
  | '\"' => some '\"'
  | '\\' => some '\\'
  | '/' => some '/'
  | 'b' => some '\x08'
  | 'f' => some '\x0c'
  | 'n' => some '\n'
  | 'r' => some '\r'
  | 't' => some '\t'
  | _ => none

def readEscape : Reader Char
  | [] => .error .endInString
  | 'u' :: rest => readUnicode rest
  | c :: rest =>
      match simpleEscape c with
      | some c => .ok (c, rest)
      | none => .error .badEscape

-- The characters up to the closing quote. The count only bounds the recursion: every
-- character takes at least one off the text.
def readChars : Nat → Reader (List Char)
  | 0, _ => .error .endInString
  | _ + 1, [] => .error .endInString
  | count + 1, c :: rest => do
      if c = '\"' then return ([], rest)
      let (c, rest) ←
        if c = '\\' then readEscape rest
        else if c.toNat < 0x20 then .error .controlCharacter
        else .ok (c, rest)
      let (chars, rest) ← readChars count rest
      return (c :: chars, rest)

-- A string behind its opening quote.
def readString (text : List Char) : Except Error (String × List Char) := do
  let (chars, rest) ← readChars (text.length + 1) text
  return (.ofList chars, rest)

end Strings

section Numbers

def digitValue (c : Char) : Nat := c.toNat - '0'.toNat

def greatestInteger : Nat := 0xFFFFFFFFFFFFFFFF

-- Digits are gathered until the next one would not fit 64 bits; also how many were taken.
def gather (value : Nat) : List Char → Nat × Nat
  | [] => (value, 0)
  | digit :: rest =>
      let next := value * 10 + digitValue digit
      if greatestInteger < next then (value, 0)
      else
        let (value, taken) := gather next rest
        (value, taken + 1)

def floatOf (negative : Bool) (digits : Nat) (power : Int) : Except Error Json :=
  match Binary64.ofDecimal negative digits power with
  | some value => .ok (.float value)
  | none => .error .numberTooBig

-- An exponent beyond 31 bits makes any number but zero too big, or nothing at all.
def withExponent (negative : Bool) (digits : Nat) (power : Int) (text : List Char) :
    Except Error (Json × List Char) := do
  let (below, text) :=
    match text with
    | '+' :: text => (false, text)
    | '-' :: text => (true, text)
    | text => (false, text)
  let exponent := text.takeWhile Char.isDigit
  let rest := text.dropWhile Char.isDigit
  if exponent.isEmpty then
    throw (if rest.isEmpty then .endInValue else .badNumber)
  let size := exponent.foldl (fun value digit => value * 10 + digitValue digit) 0
  if 0x80000000 ≤ size then
    if digits ≠ 0 && !below then throw .numberTooBig
    return (.float (.zero negative), rest)
  return (← floatOf negative digits (if below then power - size else power + size), rest)

def afterDigits (negative : Bool) (digits : Nat) (power : Int) :
    List Char → Except Error (Json × List Char)
  | 'e' :: rest => withExponent negative digits power rest
  | 'E' :: rest => withExponent negative digits power rest
  | rest => do return (← floatOf negative digits power, rest)

def afterPoint (negative : Bool) (digits : Nat) (power : Int) (text : List Char) :
    Except Error (Json × List Char) :=
  let fraction := text.takeWhile Char.isDigit
  let rest := text.dropWhile Char.isDigit
  if fraction.isEmpty then .error (if rest.isEmpty then .endInValue else .badNumber)
  else
    let (digits, taken) := gather digits fraction
    afterDigits negative digits (power - taken) rest

-- Negative zero and what lies below the least 64-bit integer are no integers.
def wholeNumber (negative : Bool) (digits : Nat) : Except Error Json :=
  if !negative then .ok (.int digits)
  else if 0 < digits ∧ digits ≤ 0x8000000000000000 then .ok (.int (-digits))
  else floatOf true digits 0

-- A number behind its sign.
def readNumber (negative : Bool) (text : List Char) : Except Error (Json × List Char) :=
  let whole := text.takeWhile Char.isDigit
  let rest := text.dropWhile Char.isDigit
  match whole with
  | [] => .error (if rest.isEmpty then .endInValue else .badNumber)
  | '0' :: _ :: _ => .error .badNumber
  | whole =>
      let (digits, taken) := gather 0 whole
      let dropped := whole.length - taken
      match rest with
      | '.' :: rest => afterPoint negative digits dropped rest
      | rest =>
          if dropped = 0 ∧ rest.head? ≠ some 'e' ∧ rest.head? ≠ some 'E' then do
            return (← wholeNumber negative digits, rest)
          else afterDigits negative digits dropped rest

end Numbers

-- A value that holds no others, at the front of the text.
def readScalar : Reader Json
  | [] => .error .endInValue
  | 'n' :: rest => do return (.null, ← readWord ['u', 'l', 'l'] rest)
  | 't' :: rest => do return (.bool true, ← readWord ['r', 'u', 'e'] rest)
  | 'f' :: rest => do return (.bool false, ← readWord ['a', 'l', 's', 'e'] rest)
  | '\"' :: rest => do
      let (value, rest) ← readString rest
      return (.str value, rest)
  | '-' :: rest => readNumber true rest
  | c :: rest => if c.isDigit then readNumber false (c :: rest) else .error .noValue

section Nesting

-- Stands in front of the next element, or in front of the closing bracket.
def nextItem (first : Bool) (text : List Char) : Except Error (Option (List Char)) :=
  match skipBlanks text with
  | [] => .error .endInList
  | ']' :: _ => .ok none
  | c :: rest =>
      if c = ',' && !first then
        match skipBlanks rest with
        | [] => .error .endInValue
        | ']' :: _ => .error .trailingComma
        | rest => .ok (some rest)
      else if first then .ok (some (c :: rest))
      else .error .noListEnd

def closeList (text : List Char) : Except Error (List Char) :=
  match skipBlanks text with
  | [] => .error .endInList
  | ']' :: rest => .ok rest
  | ',' :: rest =>
      match skipBlanks rest with
      | ']' :: _ => .error .trailingComma
      | _ => .error .trailingCharacters
  | _ => .error .trailingCharacters

-- The elements of a list behind its opening bracket. The count bounds their number.
def readItems {α : Type} (item : Reader α) : Nat → Bool → Reader (List α)
  | 0, _, _ => .error .endInList
  | count + 1, first, text => do
      match ← nextItem first text with
      | none => return ([], text)
      | some rest =>
          let (value, rest) ← item rest
          let (values, rest) ← readItems item count false rest
          return (value :: values, rest)

def readList {α : Type} (item : Reader α) (text : List Char) :
    Except Error (List α × List Char) := do
  let (values, rest) ← readItems item (text.length + 1) true text
  return (values, ← closeList rest)

-- Stands behind the opening quote of the next name, or in front of the closing brace.
def nextName (first : Bool) (text : List Char) : Except Error (Option (List Char)) :=
  match skipBlanks text with
  | [] => .error .endInObject
  | '\x7d' :: _ => .ok none
  | c :: rest =>
      if c = ',' && !first then
        match skipBlanks rest with
        | [] => .error .endInValue
        | '\"' :: rest => .ok (some rest)
        | '\x7d' :: _ => .error .trailingComma
        | _ => .error .keyNotString
      else if first then
        if c = '\"' then .ok (some rest) else .error .keyNotString
      else .error .noObjectEnd

def readColon (text : List Char) : Except Error (List Char) :=
  match skipBlanks text with
  | [] => .error .endInObject
  | ':' :: rest => .ok rest
  | _ => .error .noColon

def closeObject (text : List Char) : Except Error (List Char) :=
  match skipBlanks text with
  | '\x7d' :: rest => .ok rest
  | _ => .error .endInObject

-- The members of an object behind its opening brace, each handed on with its name and the
-- text behind the name.
def readMembers {σ : Type} (member : String → σ → Reader σ) : Nat → Bool → σ → Reader σ
  | 0, _, _, _ => .error .endInObject
  | count + 1, first, state, text => do
      match ← nextName first text with
      | none => return (state, text)
      | some rest =>
          let (name, rest) ← readString rest
          let (state, rest) ← member name state rest
          readMembers member count false state rest

def readObject {σ : Type} (member : String → σ → Reader σ) (start : σ) (text : List Char) :
    Except Error (σ × List Char) := do
  let (state, rest) ← readMembers member (text.length + 1) true start text
  return (state, ← closeObject rest)

end Nesting

def finish {α : Type} (value : α) (rest : List Char) : Except Error α :=
  if (skipBlanks rest).isEmpty then .ok value else .error .trailingCharacters

end ShardedLedger.Json
