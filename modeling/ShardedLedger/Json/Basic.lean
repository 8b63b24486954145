import ShardedLedger.Number.Binary64
import ShardedLedger.SortedMap

namespace ShardedLedger

-- A JSON value. An object lists its members in the order in which they are written; what
-- was read lists them in ascending order of their names, each name once.
inductive Json where
  | null
  | bool (value : Bool)
  | int (value : Int)
  | float (value : Binary64)
  | str (value : String)
  | arr (items : List Json)
  | obj (members : List (String × Json))
  deriving Inhabited

namespace Json

mutual

def equal : Json → Json → Bool
  | .null, .null => true
  | .bool a, .bool b => a == b
  | .int a, .int b => a == b
  | .float a, .float b => a == b || (a.significand == 0 && b.significand == 0)
  | .str a, .str b => a == b
  | .arr a, .arr b => equalItems a b
  | .obj a, .obj b => equalMembers a b
  | _, _ => false

def equalItems : List Json → List Json → Bool
  | [], [] => true
  | a :: restA, b :: restB => equal a b && equalItems restA restB
  | _, _ => false

def equalMembers : List (String × Json) → List (String × Json) → Bool
  | [], [] => true
  | (nameA, a) :: restA, (nameB, b) :: restB =>
      nameA == nameB && equal a b && equalMembers restA restB
  | _, _ => false

end

-- Values are compared as numbers are: the two zeros are equal.
instance : BEq Json := ⟨equal⟩

-- An object as it stands after reading.
def object (members : List (String × Json)) : Json :=
  .obj (SortedMap.ofList members).entries

def ofMap {ν : Type} (encode : ν → Json) (map : SortedMap String ν) : Json :=
  .obj (map.mapValues fun _ => encode).entries

def strings (list : List String) : Json := .arr (list.map .str)

def member? (name : String) : Json → Option Json
  | .obj members => SortedMap.lookupEntry name members
  | _ => none

end Json

end ShardedLedger
