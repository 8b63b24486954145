namespace ShardedLedger

universe u v w

-- Entries in strictly ascending key order. Two maps with the same lookups are
-- therefore the same value, and every listing comes out in key order.
structure SortedMap (κ : Type u) (ν : Type v) [Ord κ] where
  entries : List (κ × ν)
  sorted : entries.Pairwise fun a b => compare a.1 b.1 = .lt
  deriving DecidableEq

namespace SortedMap

variable {κ : Type u} {ν : Type v} {ω : Type w}

section Entries

-- The list operations stand alone because a tree whose nodes are such lists
-- cannot carry the ordering proof inside its own definition.
def lookupEntry [Ord κ] (key : κ) : List (κ × ν) → Option ν
  | [] => none
  | (k, value) :: rest => if compare key k = .eq then some value else lookupEntry key rest

def insertEntry [Ord κ] (key : κ) (value : ν) : List (κ × ν) → List (κ × ν)
  | [] => [(key, value)]
  | (k, old) :: rest =>
      match compare key k with
      | .lt => (key, value) :: (k, old) :: rest
      | .eq => (key, value) :: rest
      | .gt => (k, old) :: insertEntry key value rest

-- Changes the entries in key order and stops behind the first one whose
-- change reports a failure; that entry keeps what the change left of it.
def visitEntries {ε : Type} (change : κ → ν → ν × Option ε) :
    List (κ × ν) → List (κ × ν) × Option ε
  | [] => ([], none)
  | (key, value) :: rest =>
      match change key value with
      | (value, some failure) => ((key, value) :: rest, some failure)
      | (value, none) =>
          let (rest, failure) := visitEntries change rest
          ((key, value) :: rest, failure)

theorem mem_insertEntry [Ord κ] {key : κ} {value : ν} {entry : κ × ν} {list : List (κ × ν)}
    (h : entry ∈ insertEntry key value list) : entry = (key, value) ∨ entry ∈ list := by
  induction list with
  | nil => simpa [insertEntry] using h
  | cons head rest ih =>
      obtain ⟨k, old⟩ := head
      simp only [insertEntry] at h
      split at h
      · simpa using h
      · rcases List.mem_cons.mp h with h | h
        · exact .inl h
        · exact .inr (List.mem_cons_of_mem _ h)
      · rcases List.mem_cons.mp h with h | h
        · exact .inr (by simp [h])
        · rcases ih h with h | h
          · exact .inl h
          · exact .inr (List.mem_cons_of_mem _ h)

theorem sorted_insertEntry [Ord κ] [Std.TransOrd κ] [Std.LawfulEqOrd κ] (key : κ) (value : ν)
    {list : List (κ × ν)} (h : list.Pairwise fun a b => compare a.1 b.1 = .lt) :
    (insertEntry key value list).Pairwise fun a b => compare a.1 b.1 = .lt := by
  induction list with
  | nil => simp [insertEntry]
  | cons head rest ih =>
      obtain ⟨k, old⟩ := head
      obtain ⟨hhead, hrest⟩ := List.pairwise_cons.mp h
      simp only [insertEntry]
      split
      next hlt =>
        refine List.pairwise_cons.mpr ⟨fun entry hmem => ?_, h⟩
        rcases List.mem_cons.mp hmem with rfl | hmem
        · exact hlt
        · exact Std.TransCmp.lt_trans hlt (hhead entry hmem)
      next heq =>
        have hk : key = k := Std.LawfulEqCmp.eq_of_compare heq
        subst hk
        exact List.pairwise_cons.mpr ⟨hhead, hrest⟩
      next hgt =>
        refine List.pairwise_cons.mpr ⟨fun entry hmem => ?_, ih hrest⟩
        rcases mem_insertEntry hmem with rfl | hmem
        · exact Std.OrientedCmp.lt_of_gt hgt
        · exact hhead entry hmem

theorem lookupEntry_insertEntry [Ord κ] [Std.LawfulEqOrd κ] [DecidableEq κ] (key : κ) (value : ν)
    (other : κ) (list : List (κ × ν)) :
    lookupEntry other (insertEntry key value list) =
      if other = key then some value else lookupEntry other list := by
  induction list with
  | nil => simp [insertEntry, lookupEntry, Std.LawfulEqCmp.compare_eq_iff_eq]
  | cons head rest ih =>
      obtain ⟨k, old⟩ := head
      simp only [insertEntry]
      split
      · simp [lookupEntry, Std.LawfulEqCmp.compare_eq_iff_eq]
      next heq =>
        have hk : key = k := Std.LawfulEqCmp.eq_of_compare heq
        subst hk
        by_cases ho : other = key <;>
          simp [lookupEntry, Std.LawfulEqCmp.compare_eq_iff_eq, ho]
      next hgt =>
        have hk : k ≠ key := by
          rintro rfl
          simp [Std.ReflCmp.compare_self] at hgt
        by_cases ho : other = k
        · subst ho
          simp [lookupEntry, Std.ReflCmp.compare_self, hk]
        · simp [lookupEntry, Std.LawfulEqCmp.compare_eq_iff_eq, ho, ih]

theorem map_fst_visitEntries {ε : Type} (change : κ → ν → ν × Option ε) (list : List (κ × ν)) :
    (visitEntries change list).1.map (·.1) = list.map (·.1) := by
  induction list with
  | nil => rfl
  | cons head rest ih =>
      obtain ⟨key, value⟩ := head
      simp only [visitEntries]
      split <;> simp [ih]

theorem sorted_of_map_fst_eq [Ord κ] {a b : List (κ × ν)} (h : a.map (·.1) = b.map (·.1))
    (hb : b.Pairwise fun x y => compare x.1 y.1 = .lt) :
    a.Pairwise fun x y => compare x.1 y.1 = .lt := by
  have hk : (b.map (·.1)).Pairwise fun x y => compare x y = .lt := List.pairwise_map.mpr hb
  rw [← h] at hk
  exact List.pairwise_map.mp hk

end Entries

section Map

variable [Ord κ]

def empty : SortedMap κ ν := ⟨[], .nil⟩

instance : Inhabited (SortedMap κ ν) := ⟨empty⟩

instance : EmptyCollection (SortedMap κ ν) := ⟨empty⟩

def get? (map : SortedMap κ ν) (key : κ) : Option ν := lookupEntry key map.entries

def contains (map : SortedMap κ ν) (key : κ) : Bool := (map.get? key).isSome

def keys (map : SortedMap κ ν) : List κ := map.entries.map (·.1)

def values (map : SortedMap κ ν) : List ν := map.entries.map (·.2)

def size (map : SortedMap κ ν) : Nat := map.entries.length

def isEmpty (map : SortedMap κ ν) : Bool := map.entries.isEmpty

def filter (keep : κ → ν → Bool) (map : SortedMap κ ν) : SortedMap κ ν :=
  ⟨map.entries.filter fun entry => keep entry.1 entry.2, map.sorted.filter _⟩

def erase (map : SortedMap κ ν) (key : κ) : SortedMap κ ν :=
  map.filter fun k _ => compare k key != .eq

def mapValues (change : κ → ν → ω) (map : SortedMap κ ν) : SortedMap κ ω :=
  ⟨map.entries.map fun entry => (entry.1, change entry.1 entry.2),
    List.pairwise_map.mpr map.sorted⟩

def visit {ε : Type} (change : κ → ν → ν × Option ε) (map : SortedMap κ ν) :
    SortedMap κ ν × Option ε :=
  let result := visitEntries change map.entries
  (⟨result.1, sorted_of_map_fst_eq (map_fst_visitEntries change map.entries) map.sorted⟩, result.2)

@[simp] theorem get?_empty (key : κ) : (empty : SortedMap κ ν).get? key = none := rfl

variable [Std.TransOrd κ] [Std.LawfulEqOrd κ]

def insert (map : SortedMap κ ν) (key : κ) (value : ν) : SortedMap κ ν :=
  ⟨insertEntry key value map.entries, sorted_insertEntry key value map.sorted⟩

-- Later entries win over earlier ones with the same key.
def insertAll (map : SortedMap κ ν) (list : List (κ × ν)) : SortedMap κ ν :=
  list.foldl (fun map entry => map.insert entry.1 entry.2) map

def ofList (list : List (κ × ν)) : SortedMap κ ν := insertAll empty list

theorem get?_insert [DecidableEq κ] (map : SortedMap κ ν) (key : κ) (value : ν) (other : κ) :
    (map.insert key value).get? other = if other = key then some value else map.get? other :=
  lookupEntry_insertEntry key value other map.entries

end Map

end SortedMap

-- A set lists its members in ascending order.
abbrev SortedSet (κ : Type u) [Ord κ] := SortedMap κ Unit

namespace SortedSet

variable {κ : Type u} [Ord κ] [Std.TransOrd κ] [Std.LawfulEqOrd κ]

def add (set : SortedSet κ) (member : κ) : SortedSet κ := SortedMap.insert set member ()

def ofMembers (members : List κ) : SortedSet κ := members.foldl add SortedMap.empty

end SortedSet

end ShardedLedger
