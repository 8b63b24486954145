import ShardedLedger.Settings.SocketAddress

namespace ShardedLedger

inductive Url.Host where
  | name (text : String)
  | v6 (host : IPv6)
  deriving DecidableEq

-- Who asks, at which host, and at which number on that host.
structure Url.Authority where
  user : List Char
  password : List Char
  host : Option Url.Host
  number : Option UInt16
  deriving DecidableEq

-- An address of a scheme that has no rules of its own for hosts and paths. Escapes in it are
-- kept as they stand. Only without an authority may the path begin without a slash.
structure Url where
  scheme : String
  authority : Url.Authority
  path : List Char
  query : List Char
  deriving DecidableEq

namespace Url

def Authority.absent : Authority := ⟨[], [], none, none⟩

open SocketAddress (Taker takeNumber takeIPv6)

-- Blanks and control characters around an address do not count, nor do tabs and line ends
-- anywhere in it.
def trim (text : List Char) : List Char :=
  let inner := ((text.dropWhile (· ≤ ' ')).reverse.dropWhile (· ≤ ' ')).reverse
  inner.filter fun c => c ≠ '\t' ∧ c ≠ '\n' ∧ c ≠ '\r'

def takeScheme : Taker String := fun text =>
  match Text.splitFirst ':' text with
  | (name, some rest) =>
      if name.head?.any Char.isAlpha ∧ name.all (fun c => c.isAlphanum ∨ c ∈ ['+', '-', '.']) then
        some (.ofList (name.map Char.toLower), rest)
      else none
  | (_, none) => none

def notInHost : List Char :=
  ['\x00', '\t', '\n', '\r', ' ', '#', '/', ':', '<', '>', '?', '@', '[', '\\', ']', '^', '|']

-- The outer result is whether the host is well formed, the inner one whether there is a host.
def readHost : List Char → Option (Option Host)
  | [] => some none
  | '[' :: text =>
      match takeIPv6 text with
      | some (host, [']']) => some (some (.v6 host))
      | _ => none
  | text => if text.any (· ∈ notInHost) then none else some (some (.name (.ofList text)))

-- A colon between brackets belongs to the host, any other one ends it.
def splitHost (inside : Bool) : List Char → List Char × List Char
  | [] => ([], [])
  | c :: text =>
      if c = ':' ∧ !inside then ([], c :: text)
      else
        let (host, rest) := splitHost (c = '[' ∨ inside ∧ c ≠ ']') text
        (c :: host, rest)

-- The number behind the colon may be left out. Nothing but a backslash may follow it.
def takePortNumber : Taker (Option UInt16)
  | ':' :: text =>
      let digits := text.takeWhile Char.isDigit
      let rest := text.drop digits.length
      if rest.head?.any (· ≠ '\\') then none
      else if digits.isEmpty then some (none, rest)
      else (takeNumber 10 none 0xFFFF digits).map fun (number, _) => (some (.ofNat number), rest)
  | text => some (none, text)

def endsAuthority (c : Char) : Bool := c = '/' ∨ c = '?' ∨ c = '#'

-- A host may be missing, but then also a user, a password and a number; and a lone sign for a
-- user must be the end of the address.
def takeAuthority : Taker Authority := fun text => do
  let front := text.takeWhile fun c => !endsAuthority c
  let behind := text.drop front.length
  let login := (Text.beforeLast '@' front).map fun login => (login, front.drop (login.length + 1))
  let (login, place) := login.getD ([], front)
  let (user, password) := Text.splitFirst ':' login
  let password := password.getD []
  let (name, rest) := splitHost false place
  let host ← readHost name
  let isBare := user = [] ∧ password = [] ∧ rest = [] ∧ (front = ['@'] → behind = [])
  if host = none ∧ ¬isBare then none
  else
    let (number, rest) ← takePortNumber rest
    return (⟨user, password, host, number⟩, rest ++ behind)

-- The path, and the text behind a question mark. What follows a number sign does not count.
def splitQuery (text : List Char) : List Char × List Char :=
  let address := text.takeWhile (· ≠ '#')
  let (path, query) := Text.splitFirst '?' address
  (path, query.getD [])

-- How many dots a segment of a path consists of, if of nothing else. Dots may be escaped.
def dots? : List Char → Option Nat
  | [] => some 0
  | '.' :: rest => (dots? rest).map (· + 1)
  | '%' :: '2' :: 'e' :: rest => (dots? rest).map (· + 1)
  | '%' :: '2' :: 'E' :: rest => (dots? rest).map (· + 1)
  | _ => none

def isDriveLetter : List Char → Bool
  | [letter, sign] => letter.isAlpha ∧ (sign = ':' ∨ sign = '|')
  | _ => false

-- Whatever the scheme, the letter of a drive is not left again.
def leave : List (List Char) → List (List Char)
  | [] => []
  | segment :: passed => if isDriveLetter segment then segment :: passed else passed

-- One dot stays at the segments passed so far, last one first; two dots leave the last of them.
def walk (passed : List (List Char)) : List (List Char) → List (List Char)
  | [] => passed.reverse
  | segment :: rest =>
      let stay (passed : List (List Char)) := if rest.isEmpty then [] :: passed else passed
      match dots? segment with
      | some 1 => walk (stay passed) rest
      | some 2 => walk (stay (leave passed)) rest
      | _ => walk (segment :: passed) rest

def resolveDots : List Char → List Char
  | '/' :: path => '/' :: ['/'].intercalate (walk [] (Text.splitOn '/' path))
  | path => path

def rooted : List Char → List Char
  | '\\' :: path => '/' :: '\\' :: path
  | path => path

def parse? (text : String) : Option Url := do
  let (scheme, rest) ← takeScheme (trim text.toList)
  match Text.behind ['/', '/'] rest with
  | some rest =>
      let (authority, rest) ← takeAuthority rest
      let (path, query) := splitQuery rest
      return ⟨scheme, authority, resolveDots (rooted path), query⟩
  | none =>
      let (path, query) := splitQuery rest
      return ⟨scheme, .absent, resolveDots path, query⟩

end Url

end ShardedLedger
