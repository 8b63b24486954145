import ShardedLedger.Json.Scan

namespace ShardedLedger.Json

-- Lists and objects may stand this deep in each other.
def depthLimit : Nat := 127

-- Of two members with one name the later one stays.
def readValue : Nat → Reader Json
  | depth, text =>
      match skipBlanks text with
      | '[' :: rest =>
          match depth with
          | 0 => .error .tooDeep
          | depth + 1 => do
              let (items, rest) ← readList (readValue depth) rest
              return (.arr items, rest)
      | '\x7b' :: rest =>
          match depth with
          | 0 => .error .tooDeep
          | depth + 1 => do
              let member (name : String) (members : List (String × Json)) (text : List Char) :=
                do
                  let (value, rest) ← readValue depth (← readColon text)
                  return (SortedMap.insertEntry name value members, rest)
              let (members, rest) ← readObject member [] rest
              return (.obj members, rest)
      | text => readScalar text

def parse (text : String) : Except Error Json := do
  let (value, rest) ← readValue depthLimit text.toList
  finish value rest

def parse? (text : String) : Option Json := (parse text).toOption

section Skipping

-- Passing over a value nobody asked for checks its form, but neither the size of its numbers
-- nor the pairing of its surrogates nor its depth.
def skipChars : Nat → List Char → Except Error (List Char)
  | 0, _ => .error .endInString
  | _ + 1, [] => .error .endInString
  | count + 1, c :: rest =>
      if c = '\"' then .ok rest
      else if c = '\\' then
        match rest with
        | [] => .error .endInString
        | 'u' :: rest => do skipChars count (← readHex rest).2
        | c :: rest =>
            if (simpleEscape c).isSome then skipChars count rest else .error .badEscape
      else if c.toNat < 0x20 then .error .controlCharacter
      else skipChars count rest

def skipString (text : List Char) : Except Error (List Char) := skipChars (text.length + 1) text

def skipDigits (text : List Char) : Except Error (List Char) :=
  match text with
  | c :: _ => if c.isDigit then .ok (text.dropWhile Char.isDigit) else .error .badNumber
  | [] => .error .badNumber

def skipExponent : List Char → Except Error (List Char)
  | 'e' :: '+' :: rest => skipDigits rest
  | 'e' :: '-' :: rest => skipDigits rest
  | 'e' :: rest => skipDigits rest
  | 'E' :: '+' :: rest => skipDigits rest
  | 'E' :: '-' :: rest => skipDigits rest
  | 'E' :: rest => skipDigits rest
  | rest => .ok rest

-- A number behind its sign.
def skipNumber (text : List Char) : Except Error (List Char) := do
  let rest ← skipDigits text
  if text.head? = some '0' ∧ rest.length + 1 < text.length then throw .badNumber
  match rest with
  | '.' :: rest => skipExponent (← skipDigits rest)
  | rest => skipExponent rest

def skipScalar : List Char → Except Error (List Char)
  | [] => .error .endInValue
  | 'n' :: rest => readWord ['u', 'l', 'l'] rest
  | 't' :: rest => readWord ['r', 'u', 'e'] rest
  | 'f' :: rest => readWord ['a', 'l', 's', 'e'] rest
  | '\"' :: rest => skipString rest
  | '-' :: rest => skipNumber rest
  | c :: rest => if c.isDigit then skipNumber (c :: rest) else .error .noValue

def skipName (text : List Char) : Except Error (List Char) :=
  match skipBlanks text with
  | [] => .error .endInObject
  | '\"' :: rest => do readColon (← skipString rest)
  | _ => .error .keyNotString

mutual

def skipNested : Nat → List Char → Except Error (List Char)
  | 0, _ => .error .endInValue
  | count + 1, text =>
      match skipBlanks text with
      | '[' :: rest => skipItems count true rest
      | '\x7b' :: rest => skipMembers count true rest
      | text => skipScalar text

def skipItems : Nat → Bool → List Char → Except Error (List Char)
  | 0, _, _ => .error .endInList
  | count + 1, first, text =>
      match skipBlanks text with
      | [] => .error .endInList
      | ']' :: rest => .ok rest
      | c :: rest =>
          if c = ',' && !first then do
            skipItems count false (← skipNested count rest)
          else if first then do
            skipItems count false (← skipNested count (c :: rest))
          else .error .noListEnd

def skipMembers : Nat → Bool → List Char → Except Error (List Char)
  | 0, _, _ => .error .endInObject
  | count + 1, first, text =>
      match skipBlanks text with
      | [] => .error .endInObject
      | '\x7d' :: rest => .ok rest
      | c :: rest =>
          if c = ',' && !first then do
            skipMembers count false (← skipNested count (← skipName rest))
          else if first then do
            skipMembers count false (← skipNested count (← skipName (c :: rest)))
          else .error .noObjectEnd

end

def skipValue (text : List Char) : Except Error (List Char) :=
  skipNested (2 * text.length + 2) text

end Skipping

end ShardedLedger.Json
