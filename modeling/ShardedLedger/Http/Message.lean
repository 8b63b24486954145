import ShardedLedger.SortedMap
import ShardedLedger.Text.Split
import ShardedLedger.Text.Utf8

namespace ShardedLedger.FormData

def hexValue (byte : UInt8) : Option Nat :=
  let n := byte.toNat
  if 48 ≤ n ∧ n ≤ 57 then some (n - 48)
  else if 65 ≤ n ∧ n ≤ 70 then some (n - 55)
  else if 97 ≤ n ∧ n ≤ 102 then some (n - 87)
  else none

-- A percent sign without two hexadecimal digits behind it stands for itself.
def unescape : List UInt8 → List UInt8
  | 37 :: a :: b :: rest =>
      match hexValue a, hexValue b with
      | some high, some low => UInt8.ofNat (high * 16 + low) :: unescape rest
      | _, _ => 37 :: unescape (a :: b :: rest)
  | byte :: rest => byte :: unescape rest
  | [] => []

-- A plus sign is a space only where it stands unescaped, so it goes first.
def decodePart (part : List Char) : String :=
  Utf8.lossy (unescape (Utf8.encode (part.map fun c => if c = '+' then ' ' else c)))

def pairs (query : String) : List (String × String) :=
  ((Text.splitOn '&' query.toList).filter (· ≠ [])).map fun piece =>
    let (name, value) := Text.splitFirst '=' piece
    (decodePart name, decodePart (value.getD []))

-- Of a name given twice the last value counts.
def parse (query : String) : SortedMap String String := .ofList (pairs query)

end ShardedLedger.FormData

namespace ShardedLedger.Http

-- The content of a message: a text, or bytes that are none.
inductive Body where
  | text (s : String)
  | binary (bytes : List UInt8)
  deriving DecidableEq

namespace Body

def empty : Body := .text ""

def ofBytes (bytes : List UInt8) : Body :=
  match Utf8.decode? bytes with
  | some s => .text s
  | none => .binary bytes

def text? : Body → Option String
  | .text s => some s
  | .binary _ => none

def isEmpty : Body → Bool
  | .text s => s.isEmpty
  | .binary bytes => bytes.isEmpty

-- The content for display, a replacement character for what is no text.
def shown : Body → String
  | .text s => s
  | .binary bytes => Utf8.lossy bytes

end Body

-- Header names are in lower case; a name may stand several times.
abbrev Headers := List (String × String)

-- What a request line addresses: its path as it stands, and the query behind the first
-- question mark, if there is one.
structure Target where
  path : String
  rawQuery : Option String
  deriving DecidableEq

namespace Target

-- What stands behind the scheme and the host of an absolute address; nothing else may come
-- in front of the path.
def afterAuthority (text : List Char) : List Char :=
  match text with
  | '/' :: _ => text
  | '*' :: _ => text
  | _ =>
      match text.dropWhile (· ≠ ':') with
      | ':' :: '/' :: '/' :: rest =>
          let rest := rest.dropWhile fun c => c ≠ '/' && c ≠ '?'
          if rest.head? = some '/' then rest else '/' :: rest
      | _ => []

-- A fragment belongs to the client and is dropped.
def parse (text : String) : Target :=
  let text := afterAuthority (text.toList.takeWhile (· ≠ '#'))
  let (path, query) := Text.splitFirst '?' text
  ⟨.ofList path, query.map .ofList⟩

def query (target : Target) : SortedMap String String :=
  FormData.parse (target.rawQuery.getD "")

-- An empty query is left out together with its question mark.
def print (target : Target) : String :=
  match target.rawQuery with
  | none => target.path
  | some query => if query.isEmpty then target.path else target.path ++ "?" ++ query

end Target

structure Request where
  method : String
  target : Target
  headers : Headers
  body : Body
  deriving DecidableEq

structure Response where
  status : Nat
  contentType : Option String
  body : Body
  deriving DecidableEq

namespace Response

def bare (status : Nat) : Response := ⟨status, none, .empty⟩

def json (status : Nat) (body : Body) : Response := ⟨status, some "application/json", body⟩

def plainText (status : Nat) (text : String) : Response :=
  ⟨status, some "text/plain; charset=utf-8", .text text⟩

end Response

def isTokenChar (c : Char) : Bool :=
  c.isAlphanum ||
    ['!', '#', '$', '%', '&', '\x27', '*', '+', '-', '.', '^', '_', '\x60', '|', '~'].contains c

-- A request method is a token: at least one character, none of them a separator.
def isMethod (text : String) : Bool := !text.isEmpty && text.toList.all isTokenChar

def isHeaderText (text : String) : Bool :=
  text.toList.all fun c => c = '\t' || (0x20 ≤ c.toNat && c.toNat < 0x7F)

end ShardedLedger.Http
