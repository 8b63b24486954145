import ShardedLedger.Text.Split

namespace ShardedLedger

structure IPv4 where
  a : UInt8
  b : UInt8
  c : UInt8
  d : UInt8
  deriving DecidableEq

structure IPv6 where
  groups : Vector UInt16 8
  deriving DecidableEq

-- Where to listen: a host address and a number on that host, for the longer form also the scope
-- in which the address is valid, zero if it is valid everywhere.
inductive SocketAddress where
  | v4 (host : IPv4) (number : UInt16)
  | v6 (host : IPv6) (scope : UInt32) (number : UInt16)
  deriving DecidableEq

namespace SocketAddress

section Reading

-- Takes something off the front of a text, if it stands there.
abbrev Taker (α : Type) := List Char → Option (α × List Char)

def digitOf? (radix : Nat) (c : Char) : Option Nat :=
  let value :=
    if c.isDigit then c.toNat - '0'.toNat
    else if 'a' ≤ c ∧ c ≤ 'z' then c.toNat - 'a'.toNat + 10
    else if 'A' ≤ c ∧ c ≤ 'Z' then c.toNat - 'A'.toNat + 10
    else radix
  if value < radix then some value else none

-- All digits that stand there, up to a number of them if one is given, and to a greatest value.
def takeNumber (radix : Nat) (most : Option Nat) (greatest : Nat) : Taker Nat := fun text =>
  let digits := text.takeWhile fun c => (digitOf? radix c).isSome
  let value := digits.foldl (fun value c => value * radix + (digitOf? radix c).getD 0) 0
  if digits.isEmpty || most.any (· < digits.length) || greatest < value then none
  else some (value, text.drop digits.length)

def takeChar (c : Char) : Taker Unit := fun text =>
  (Text.behind [c] text).map fun rest => ((), rest)

-- A number of an address in dotted form has no leading zero.
def takeOctet : Taker UInt8 := fun text => do
  let (value, rest) ← takeNumber 10 (some 3) 255 text
  if text.head? = some '0' ∧ rest.length + 1 < text.length then none
  else some (.ofNat value, rest)

def takeIPv4 : Taker IPv4 := fun text => do
  let (a, rest) ← takeOctet text
  let (b, rest) ← takeOctet (← takeChar '.' rest).2
  let (c, rest) ← takeOctet (← takeChar '.' rest).2
  let (d, rest) ← takeOctet (← takeChar '.' rest).2
  return (⟨a, b, c, d⟩, rest)

def takeGroup : Taker UInt16 := fun text => do
  let (value, rest) ← takeNumber 16 (some 4) 0xFFFF text
  return (.ofNat value, rest)

-- All but the first of a row stand behind a colon.
def takeNext {α : Type} (first : Bool) (take : Taker α) : Taker α := fun text =>
  if first then take text else do take (← takeChar ':' text).2

def IPv4.groups (host : IPv4) : List UInt16 :=
  [host.a.toUInt16 * 256 + host.b.toUInt16, host.c.toUInt16 * 256 + host.d.toUInt16]

-- As many groups as stand there, within the room for them. A dotted address counts for two and
-- ends the row, which the second result tells.
def takeGroups : Nat → Bool → List Char → List UInt16 × Bool × List Char
  | 0, _, text => ([], false, text)
  | room + 1, first, text =>
      match if room = 0 then none else takeNext first takeIPv4 text with
      | some (host, rest) => (IPv4.groups host, true, rest)
      | none =>
          match takeNext first takeGroup text with
          | none => ([], false, text)
          | some (group, rest) =>
              let (groups, dotted, rest) := takeGroups room false rest
              (group :: groups, dotted, rest)

def ofGroups? (groups : List UInt16) : Option IPv6 :=
  if h : groups.length = 8 then some ⟨⟨groups.toArray, by simpa using h⟩⟩ else none

-- Two colons stand for at least one group of zeros, and a dotted part for nothing before them.
def takeIPv6 : Taker IPv6 := fun text => do
  let (front, dotted, rest) := takeGroups 8 true text
  if front.length = 8 then return (← ofGroups? front, rest)
  if dotted then none
  else
    let (_, rest) ← takeChar ':' rest
    let (_, rest) ← takeChar ':' rest
    let (back, _, rest) := takeGroups (7 - front.length) true rest
    let zeros := List.replicate (8 - front.length - back.length) 0
    return (← ofGroups? (front ++ zeros ++ back), rest)

def takePortNumber : Taker UInt16 := fun text => do
  let (number, rest) ← takeNumber 10 none 0xFFFF (← takeChar ':' text).2
  return (.ofNat number, rest)

def takeScope : Taker UInt32 := fun text => do
  let (scope, rest) ← takeNumber 10 none 0xFFFFFFFF (← takeChar '%' text).2
  return (.ofNat scope, rest)

def takeV4 : Taker SocketAddress := fun text => do
  let (host, rest) ← takeIPv4 text
  let (number, rest) ← takePortNumber rest
  return (.v4 host number, rest)

def takeV6 : Taker SocketAddress := fun text => do
  let (host, rest) ← takeIPv6 (← takeChar '[' text).2
  let (scope, rest) := (takeScope rest).getD (0, rest)
  let (number, rest) ← takePortNumber (← takeChar ']' rest).2
  return (.v6 host scope number, rest)

def parse? (text : String) : Option SocketAddress := do
  let (address, rest) ← (takeV4 text.toList).or (takeV6 text.toList)
  if rest.isEmpty then some address else none

end Reading

section Printing

def IPv4.print (host : IPv4) : String :=
  ".".intercalate ([host.a, host.b, host.c, host.d].map fun octet => toString octet.toNat)

def printGroups (groups : List UInt16) : String :=
  ":".intercalate (groups.map fun group => .ofList (Nat.toDigits 16 group.toNat))

def zerosAt (groups : List UInt16) (start : Nat) : Nat :=
  ((groups.drop start).takeWhile (· = 0)).length

-- Where the longest row of zeros starts, the leftmost of several, and how long it is.
def longestZeros (groups : List UInt16) : Nat × Nat :=
  (List.range groups.length).foldl
    (fun best start =>
      if best.2 < zerosAt groups start then (start, zerosAt groups start) else best) (0, 0)

def printCompressed (groups : List UInt16) : String :=
  let (start, count) := longestZeros groups
  if 1 < count then
    printGroups (groups.take start) ++ "::" ++ printGroups (groups.drop (start + count))
  else printGroups groups

-- An address that stands for one of the shorter form is written with that one dotted.
def IPv6.print (host : IPv6) : String :=
  match host.groups.toList with
  | [0, 0, 0, 0, 0, 0xFFFF, x, y] =>
      "::ffff:" ++ IPv4.print ⟨(x / 256).toUInt8, x.toUInt8, (y / 256).toUInt8, y.toUInt8⟩
  | groups => printCompressed groups

def print : SocketAddress → String
  | .v4 host number => IPv4.print host ++ ":" ++ toString number.toNat
  | .v6 host scope number =>
      let scope := if scope = 0 then "" else "%" ++ toString scope.toNat
      "[" ++ IPv6.print host ++ scope ++ "]:" ++ toString number.toNat

end Printing

-- Every address of the machine.
def anywhere (number : UInt16) : SocketAddress := .v4 ⟨0, 0, 0, 0⟩ number

end SocketAddress

end ShardedLedger
