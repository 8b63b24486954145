import ShardedLedger.Text.Split

namespace ShardedLedger

-- The path of an account in the tree, from the root down, such as `east:campaign:ad`. The text
-- is its identity and gives its order.
structure Key where
  text : String
  deriving DecidableEq

namespace Key

instance : Ord Key := ⟨fun a b => compare a.text b.text⟩

instance : Std.TransOrd Key where
  eq_swap {a b} :=
    show compare a.text b.text = (compare b.text a.text).swap from Std.OrientedCmp.eq_swap
  isLE_trans {a b c} hab hbc :=
    show (compare a.text c.text).isLE from Std.TransCmp.isLE_trans (b := b.text) hab hbc

instance : Std.LawfulEqOrd Key where
  eq_of_compare {a b} h := by
    obtain ⟨a⟩ := a
    obtain ⟨b⟩ := b
    have h : compare a b = .eq := h
    exact congrArg Key.mk (Std.LawfulEqCmp.eq_of_compare h)

def separator : Char := ':'

def segments (key : Key) : List (List Char) := Text.splitOn separator key.text.toList

-- Keys are valid if every segment has text and none contains the slash that separates the
-- parts of a request path.
def IsValid (key : Key) : Prop := '/' ∉ key.text.toList ∧ [] ∉ key.segments

instance (key : Key) : Decidable key.IsValid := inferInstanceAs (Decidable (_ ∧ _))

def parse? (text : String) : Option Key :=
  let key : Key := ⟨text⟩
  if key.IsValid then some key else none

-- The first segment, which decides on the shard.
def rootOf (text : String) : String := .ofList (text.toList.takeWhile (· ≠ separator))

def root (key : Key) : String := rootOf key.text

def parent? (key : Key) : Option Key :=
  (Text.beforeLast separator key.text.toList).map fun text => ⟨.ofList text⟩

-- The texts in front of each separator, the shortest first.
def properPrefixes : List Char → List (List Char)
  | [] => []
  | c :: rest =>
      let longer := (properPrefixes rest).map (c :: ·)
      if c = separator then [] :: longer else longer

-- Every key above this one, the root first.
def ancestors (key : Key) : List Key :=
  (properPrefixes key.text.toList).map fun text => ⟨.ofList text⟩

-- Holds for the key itself and for every key below it.
def contains (key other : Key) : Bool :=
  match Text.behind key.text.toList other.text.toList with
  | none => false
  | some [] => true
  | some (c :: _) => c = separator

def startsWith (key other : Key) : Bool :=
  (Text.behind other.text.toList key.text.toList).isSome

def isChildOf (key other : Key) : Bool := key.parent? = some other

end Key

end ShardedLedger
