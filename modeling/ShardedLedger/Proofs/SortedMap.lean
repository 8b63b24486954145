import Mathlib.Data.List.Basic
import Mathlib.Data.List.Induction
import ShardedLedger.SortedMap

namespace ShardedLedger

universe u v w

namespace SortedMap

variable {κ : Type u} {ν : Type v} {ω : Type w}

section Entries

variable [Ord κ]

def Ascending (list : List (κ × ν)) : Prop := list.Pairwise fun a b => compare a.1 b.1 = .lt

theorem lookupEntry_eq_none_of_forall_ne [Std.LawfulEqOrd κ] (key : κ) (list : List (κ × ν))
    (h : ∀ entry ∈ list, key ≠ entry.1) : lookupEntry key list = none := by
  induction list with
  | nil => rfl
  | cons head rest ih =>
      have hne := h head (by simp)
      simp only [lookupEntry, Std.LawfulEqCmp.compare_eq_iff_eq, hne, ite_false]
      exact ih fun entry hentry => h entry (List.mem_cons_of_mem _ hentry)

theorem lookupEntry_eq_some_iff [Std.TransOrd κ] [Std.LawfulEqOrd κ] (key : κ) (value : ν)
    {list : List (κ × ν)} (h : Ascending list) :
    lookupEntry key list = some value ↔ (key, value) ∈ list := by
  induction list with
  | nil => simp [lookupEntry]
  | cons head rest ih =>
      obtain ⟨first, old⟩ := head
      obtain ⟨hhead, hrest⟩ := List.pairwise_cons.mp h
      have hnot : (first, value) ∉ rest := by
        intro hmem
        have hlt := hhead _ hmem
        simp [Std.ReflCmp.compare_self] at hlt
      simp only [lookupEntry, Std.LawfulEqCmp.compare_eq_iff_eq, List.mem_cons, Prod.mk.injEq]
      by_cases he : key = first
      · subst he
        simp [hnot, eq_comm]
      · simp [he, ih hrest]

-- The first keys of the two lists agree, because neither can stand behind the other one.
theorem eq_of_lookupEntry_eq [Std.TransOrd κ] [Std.LawfulEqOrd κ] {a b : List (κ × ν)}
    (ha : Ascending a) (hb : Ascending b)
    (h : ∀ key, lookupEntry key a = lookupEntry key b) : a = b := by
  have hmem : ∀ entry, entry ∈ a ↔ entry ∈ b := by
    intro entry
    rw [← lookupEntry_eq_some_iff entry.1 entry.2 ha, h, lookupEntry_eq_some_iff _ _ hb]
  have hnodup : ∀ list : List (κ × ν), Ascending list → list.Nodup := by
    intro list hlist
    refine hlist.imp ?_
    rintro x _ hlt rfl
    simp [Std.ReflCmp.compare_self] at hlt
  refine List.Perm.eq_of_pairwise ?_ ha hb
    ((List.perm_ext_iff_of_nodup (hnodup a ha) (hnodup b hb)).mpr hmem)
  intro x y _ _ hxy hyx
  have hgt := Std.OrientedCmp.gt_of_lt hxy
  simp [hgt] at hyx

end Entries

section Map

variable [Ord κ]

theorem ascending_entries (map : SortedMap κ ν) : Ascending map.entries := map.sorted

theorem eq_of_entries_eq {a b : SortedMap κ ν} (h : a.entries = b.entries) : a = b := by
  cases a
  cases b
  cases h
  rfl

variable [Std.TransOrd κ] [Std.LawfulEqOrd κ]

theorem get?_eq_some_iff (map : SortedMap κ ν) (key : κ) (value : ν) :
    map.get? key = some value ↔ (key, value) ∈ map.entries :=
  lookupEntry_eq_some_iff key value map.ascending_entries

theorem eq_of_get?_eq {a b : SortedMap κ ν} (h : ∀ key, a.get? key = b.get? key) : a = b :=
  eq_of_entries_eq (eq_of_lookupEntry_eq a.ascending_entries b.ascending_entries h)

theorem get?_filter (map : SortedMap κ ν) (keep : κ → ν → Bool) (key : κ) :
    (map.filter keep).get? key = (map.get? key).filter (keep key) := by
  ext value
  rw [get?_eq_some_iff, Option.filter_eq_some_iff, get?_eq_some_iff]
  simp [filter]

theorem get?_mapValues (map : SortedMap κ ν) (change : κ → ν → ω) (key : κ) :
    (map.mapValues change).get? key = (map.get? key).map (change key) := by
  ext value
  rw [get?_eq_some_iff, Option.map_eq_some_iff]
  simp only [mapValues, List.mem_map, get?_eq_some_iff, Prod.mk.injEq]
  constructor
  · rintro ⟨⟨_, old⟩, hmem, rfl, rfl⟩
    exact ⟨old, hmem, rfl⟩
  · rintro ⟨old, hmem, rfl⟩
    exact ⟨(key, old), hmem, rfl, rfl⟩

theorem get?_erase [DecidableEq κ] (map : SortedMap κ ν) (key other : κ) :
    (map.erase key).get? other = if other = key then none else map.get? other := by
  rw [erase, get?_filter]
  by_cases he : other = key
  · subst he
    simp [Std.ReflCmp.compare_self]
  · have hne : (compare other key != .eq) = true := by
      simpa [Std.LawfulEqCmp.compare_eq_iff_eq] using he
    cases map.get? other <;> simp [he, hne]

theorem filter_insert_of_keep [DecidableEq κ] (map : SortedMap κ ν) {keep : κ → ν → Bool} {key : κ}
    {value : ν} (h : keep key value = true) :
    (map.insert key value).filter keep = (map.filter keep).insert key value := by
  refine eq_of_get?_eq fun other => ?_
  rw [get?_filter, get?_insert, get?_insert, get?_filter]
  by_cases he : other = key
  · simp [he, h, Option.filter]
  · simp [he]

theorem filter_insert_of_drop [DecidableEq κ] (map : SortedMap κ ν) {keep : κ → ν → Bool} {key : κ}
    (h : ∀ value, keep key value = false) (value : ν) :
    (map.insert key value).filter keep = map.filter keep := by
  refine eq_of_get?_eq fun other => ?_
  rw [get?_filter, get?_insert, get?_filter]
  by_cases he : other = key
  · subst he
    cases map.get? other <;> simp [h, Option.filter]
  · simp [he]

omit [Std.TransOrd κ] [Std.LawfulEqOrd κ] in
theorem contains_iff (map : SortedMap κ ν) (key : κ) :
    map.contains key = true ↔ ∃ value, map.get? key = some value :=
  Option.isSome_iff_exists

theorem mem_keys_iff (map : SortedMap κ ν) (key : κ) :
    key ∈ map.keys ↔ map.contains key = true := by
  rw [contains_iff]
  simp only [keys, List.mem_map, get?_eq_some_iff]
  constructor
  · rintro ⟨⟨_, value⟩, hmem, rfl⟩
    exact ⟨value, hmem⟩
  · rintro ⟨value, hmem⟩
    exact ⟨(key, value), hmem, rfl⟩

omit [Std.TransOrd κ] in
theorem nodup_keys (map : SortedMap κ ν) : map.keys.Nodup := by
  refine List.pairwise_map.mpr (map.sorted.imp ?_)
  intro a b hlt he
  simp [he, Std.ReflCmp.compare_self] at hlt

section InsertAll

variable [DecidableEq κ]

-- In an ascending list no key stands twice, so no entry is overwritten by a later one.
theorem get?_insertAll (map : SortedMap κ ν) {list : List (κ × ν)} (hlist : Ascending list)
    (key : κ) : (map.insertAll list).get? key = (lookupEntry key list).or (map.get? key) := by
  induction list generalizing map with
  | nil => simp [insertAll, lookupEntry]
  | cons head rest ih =>
      obtain ⟨hhead, hrest⟩ := List.pairwise_cons.mp hlist
      have hstep := ih (map.insert head.1 head.2) hrest
      have hunfold : map.insertAll (head :: rest) = (map.insert head.1 head.2).insertAll rest := rfl
      rw [hunfold, hstep, get?_insert]
      by_cases he : key = head.1
      · have hnone : lookupEntry key rest = none := by
          refine lookupEntry_eq_none_of_forall_ne key rest ?_
          rintro entry hentry rfl
          have hlt := hhead entry hentry
          simp [← he, Std.ReflCmp.compare_self] at hlt
        simp [lookupEntry, he ▸ hnone, he, Std.ReflCmp.compare_self]
      · simp [lookupEntry, he, Std.LawfulEqCmp.compare_eq_iff_eq]

theorem get?_insertAll_entries (map more : SortedMap κ ν) (key : κ) :
    (map.insertAll more.entries).get? key = (more.get? key).or (map.get? key) :=
  get?_insertAll map more.ascending_entries key

@[simp] theorem ofList_entries (map : SortedMap κ ν) : ofList map.entries = map := by
  refine eq_of_get?_eq fun key => ?_
  rw [ofList, get?_insertAll_entries]
  simp

theorem entries_ofList {list : List (κ × ν)} (hlist : Ascending list) :
    (ofList list).entries = list :=
  congrArg entries (ofList_entries ⟨list, hlist⟩)

end InsertAll

section Union

-- The entries of all the maps, of those with one key that of the last map.
def union (maps : List (SortedMap κ ν)) : SortedMap κ ν :=
  maps.foldl (fun map more => map.insertAll more.entries) .empty

theorem union_concat (maps : List (SortedMap κ ν)) (map : SortedMap κ ν) :
    union (maps ++ [map]) = (union maps).insertAll map.entries := by
  simp [union]

variable [DecidableEq κ]

-- Whether or not a key comes twice in the list.
theorem get?_insertAll_list (map : SortedMap κ ν) (list : List (κ × ν)) (key : κ) :
    (map.insertAll list).get? key = ((ofList list).get? key).or (map.get? key) := by
  induction list generalizing map with
  | nil => simp [insertAll, ofList]
  | cons head rest ih =>
      have hunfold (map : SortedMap κ ν) :
          map.insertAll (head :: rest) = (map.insert head.1 head.2).insertAll rest := rfl
      rw [ofList, hunfold, hunfold, ih, ih, get?_insert, get?_insert, Option.or_assoc]
      by_cases he : key = head.1 <;> simp [he]

theorem insertAll_entries_ofList (map : SortedMap κ ν) (list : List (κ × ν)) :
    map.insertAll (ofList list).entries = map.insertAll list := by
  refine eq_of_get?_eq fun key => ?_
  rw [get?_insertAll_entries, get?_insertAll_list]

theorem union_singleton (map : SortedMap κ ν) : union [map] = map := ofList_entries map

theorem get?_union (maps : List (SortedMap κ ν)) (key : κ) :
    (union maps).get? key = maps.reverse.findSome? (·.get? key) := by
  induction maps using List.reverseRecOn with
  | nil => rfl
  | append_singleton maps map ih =>
      rw [union_concat, get?_insertAll_entries, ih, List.reverse_append, List.reverse_singleton,
        List.findSome?_append]
      simp

-- Maps that agree with the whole one on their keys and that together have all of its keys.
theorem union_eq {maps : List (SortedMap κ ν)} {whole : SortedMap κ ν}
    (h : ∀ key value, whole.get? key = some value ↔ ∃ map ∈ maps, map.get? key = some value) :
    union maps = whole := by
  refine eq_of_get?_eq fun key => ?_
  rw [get?_union]
  cases hfind : maps.reverse.findSome? (·.get? key) with
  | none =>
      rw [List.findSome?_eq_none_iff] at hfind
      cases hwhole : whole.get? key with
      | none => rfl
      | some value =>
          obtain ⟨map, hmap, hget⟩ := (h key value).mp hwhole
          rw [hfind map (List.mem_reverse.mpr hmap)] at hget
          cases hget
  | some value =>
      obtain ⟨map, hmap, hget⟩ := List.exists_of_findSome?_eq_some hfind
      exact ((h key value).mpr ⟨map, List.mem_reverse.mp hmap, hget⟩).symm

-- No key is in both.
def Apart (a b : SortedMap κ ν) : Prop := ∀ key ∈ a.keys, key ∉ b.keys

instance (a b : SortedMap κ ν) : Decidable (a.Apart b) :=
  inferInstanceAs (Decidable (∀ key ∈ a.keys, key ∉ b.keys))

omit [DecidableEq κ] in
theorem Apart.get?_eq_none {a b : SortedMap κ ν} (h : a.Apart b) {key : κ} {value : ν}
    (hget : a.get? key = some value) : b.get? key = none := by
  have hkey := h key ((mem_keys_iff a key).mpr ((contains_iff a key).mpr ⟨value, hget⟩))
  rw [mem_keys_iff, contains_iff, not_exists] at hkey
  exact Option.eq_none_iff_forall_ne_some.mpr hkey

theorem get?_union_eq_some_iff {maps : List (SortedMap κ ν)} (h : maps.Pairwise Apart) (key : κ)
    (value : ν) :
    (union maps).get? key = some value ↔ ∃ map ∈ maps, map.get? key = some value := by
  rw [get?_union]
  constructor
  · intro hfind
    obtain ⟨map, hmap, hget⟩ := List.exists_of_findSome?_eq_some hfind
    exact ⟨map, List.mem_reverse.mp hmap, hget⟩
  · induction maps with
    | nil => simp
    | cons first maps ih =>
        obtain ⟨hfirst, hmaps⟩ := List.pairwise_cons.mp h
        rintro ⟨map, hmap, hget⟩
        rw [List.reverse_cons, List.findSome?_append]
        rcases List.mem_cons.mp hmap with rfl | hmap
        · have hnone : maps.reverse.findSome? (·.get? key) = none := by
            refine List.findSome?_eq_none_iff.mpr fun other hother => ?_
            exact (hfirst other (List.mem_reverse.mp hother)).get?_eq_none hget
          simp [hnone, hget]
        · rw [ih hmaps ⟨map, hmap, hget⟩, Option.some_or]

theorem union_perm {maps others : List (SortedMap κ ν)} (hperm : maps.Perm others)
    (h : maps.Pairwise Apart) : union others = union maps := by
  refine union_eq fun key value => ?_
  rw [get?_union_eq_some_iff h]
  simp only [hperm.mem_iff]

end Union

section Permutations

omit [Std.TransOrd κ] in
theorem perm_insertEntry {key : κ} (value : ν) {list : List (κ × ν)}
    (h : ∀ entry ∈ list, entry.1 ≠ key) :
    (insertEntry key value list).Perm ((key, value) :: list) := by
  induction list with
  | nil => exact .refl _
  | cons head rest ih =>
      rw [insertEntry]
      split
      next => exact .refl _
      next heq => exact absurd (Std.LawfulEqCmp.eq_of_compare heq).symm (h head (by simp))
      next =>
        have hrest := ih fun entry hentry => h entry (List.mem_cons_of_mem _ hentry)
        exact (hrest.cons head).trans (.swap _ _ _)

-- As long as no key comes twice, a map has exactly the entries that went into it.
theorem perm_entries_insertAll {list : List (κ × ν)} (hnodup : (list.map (·.1)).Nodup)
    (map : SortedMap κ ν) (h : ∀ entry ∈ map.entries, entry.1 ∉ list.map (·.1)) :
    (map.insertAll list).entries.Perm (list ++ map.entries) := by
  induction list generalizing map with
  | nil => exact .refl _
  | cons head rest ih =>
      rw [List.map_cons] at hnodup h
      obtain ⟨hhead, hrest⟩ := List.nodup_cons.mp hnodup
      have hinsert : (map.insert head.1 head.2).entries.Perm (head :: map.entries) := by
        refine perm_insertEntry head.2 fun entry hentry heq => h entry hentry ?_
        rw [heq]
        exact List.mem_cons_self
      have hstep := ih hrest (map.insert head.1 head.2) fun entry hentry hmem => by
        rcases List.mem_cons.mp (hinsert.mem_iff.mp hentry) with rfl | hentry
        · exact hhead hmem
        · exact h entry hentry (List.mem_cons_of_mem _ hmem)
      exact hstep.trans ((hinsert.append_left rest).trans List.perm_middle)

theorem perm_entries_ofList {list : List (κ × ν)} (hnodup : (list.map (·.1)).Nodup) :
    (ofList list).entries.Perm list := by
  have hperm := perm_entries_insertAll hnodup (empty : SortedMap κ ν) (by simp [empty])
  rwa [show (empty : SortedMap κ ν).entries = [] from rfl, List.append_nil] at hperm

end Permutations

section Visit

variable {ε : Type}

omit [Ord κ] [Std.TransOrd κ] [Std.LawfulEqOrd κ] in
-- A visit that reports no failure has changed every entry.
theorem visitEntries_fst (change : κ → ν → ν × Option ε) (list : List (κ × ν))
    (h : (visitEntries change list).2 = none) :
    (visitEntries change list).1 =
      list.map fun entry => (entry.1, (change entry.1 entry.2).1) := by
  induction list with
  | nil => rfl
  | cons head rest ih =>
      obtain ⟨key, old⟩ := head
      simp only [visitEntries] at h ⊢
      split at h
      · simp at h
      · next value hchange =>
          simp [hchange, ih h]

omit [Ord κ] [Std.TransOrd κ] [Std.LawfulEqOrd κ] in
-- Entries that a visit would leave alone may as well be dropped before it.
theorem visitEntries_filter (change : κ → ν → ν × Option ε) (keep : κ → Bool)
    (hdropped : ∀ key value, keep key = false → change key value = (value, none))
    (list : List (κ × ν)) :
    visitEntries change (list.filter fun entry => keep entry.1) =
      ((visitEntries change list).1.filter (fun entry => keep entry.1),
        (visitEntries change list).2) := by
  induction list with
  | nil => rfl
  | cons head rest ih =>
      obtain ⟨key, old⟩ := head
      by_cases hkeep : keep key = true
      · simp only [List.filter_cons, hkeep, ite_true, visitEntries]
        split
        next => simp [hkeep]
        next => simp [hkeep, ih]
      · have hkeep : keep key = false := by simpa using hkeep
        simp [visitEntries, hkeep, hdropped key old hkeep, ih]

omit [Ord κ] [Std.TransOrd κ] [Std.LawfulEqOrd κ] in
theorem filter_visitEntries (change : κ → ν → ν × Option ε) (keep : κ → Bool)
    (hkept : ∀ key value, keep key = true → change key value = (value, none))
    (list : List (κ × ν)) :
    (visitEntries change list).1.filter (fun entry => keep entry.1) =
      list.filter fun entry => keep entry.1 := by
  induction list with
  | nil => rfl
  | cons head rest ih =>
      obtain ⟨key, old⟩ := head
      by_cases hkeep : keep key = true
      · simp [visitEntries, hkept key old hkeep, hkeep, ih]
      · simp only [visitEntries]
        split
        next => simp [hkeep]
        next => simp [hkeep, ih]

omit [Ord κ] [Std.TransOrd κ] [Std.LawfulEqOrd κ] in
theorem change_snd_of_visitEntries (change : κ → ν → ν × Option ε) (list : List (κ × ν))
    (h : (visitEntries change list).2 = none) :
    ∀ entry ∈ list, (change entry.1 entry.2).2 = none := by
  induction list with
  | nil => simp
  | cons head rest ih =>
      obtain ⟨key, old⟩ := head
      simp only [visitEntries] at h
      split at h
      · simp at h
      · next value hchange =>
          intro entry hentry
          rcases List.mem_cons.mp hentry with rfl | hentry
          · rw [hchange]
          · exact ih h entry hentry

omit [Ord κ] [Std.TransOrd κ] [Std.LawfulEqOrd κ] in
theorem visitEntries_snd_of_forall (change : κ → ν → ν × Option ε) (list : List (κ × ν))
    (h : ∀ entry ∈ list, (change entry.1 entry.2).2 = none) :
    (visitEntries change list).2 = none := by
  induction list with
  | nil => rfl
  | cons head rest ih =>
      obtain ⟨key, old⟩ := head
      have hhead : (change key old).2 = none := h (key, old) (by simp)
      have hrest := ih fun entry hentry => h entry (List.mem_cons_of_mem _ hentry)
      simp only [visitEntries]
      split
      next hchange =>
        rw [hchange] at hhead
        cases hhead
      next => exact hrest

theorem change_snd_of_visit (change : κ → ν → ν × Option ε) (map : SortedMap κ ν)
    (h : (map.visit change).2 = none) (key : κ) (value : ν) (hvalue : map.get? key = some value) :
    (change key value).2 = none :=
  change_snd_of_visitEntries change map.entries h (key, value)
    ((get?_eq_some_iff map key value).mp hvalue)

theorem get?_visit (change : κ → ν → ν × Option ε) (map : SortedMap κ ν)
    (h : (map.visit change).2 = none) (key : κ) :
    (map.visit change).1.get? key = (map.get? key).map fun value => (change key value).1 := by
  rw [← get?_mapValues map (fun key value => (change key value).1) key]
  exact congrArg (lookupEntry key) (visitEntries_fst change map.entries h)

theorem visit_snd_of_forall (change : κ → ν → ν × Option ε) (map : SortedMap κ ν)
    (h : ∀ key value, map.get? key = some value → (change key value).2 = none) :
    (map.visit change).2 = none :=
  visitEntries_snd_of_forall change map.entries fun entry hentry =>
    h entry.1 entry.2 ((get?_eq_some_iff map entry.1 entry.2).mpr hentry)

theorem visit_of_unchanged (change : κ → ν → ν × Option ε) (map : SortedMap κ ν)
    (h : ∀ key value, map.get? key = some value → change key value = (value, none)) :
    map.visit change = (map, none) := by
  have hend := visit_snd_of_forall change map fun key value hvalue => by rw [h key value hvalue]
  refine Prod.ext (eq_of_get?_eq fun key => ?_) hend
  rw [get?_visit change map hend]
  cases hvalue : map.get? key with
  | none => rfl
  | some value => rw [Option.map_some, h key value hvalue]

omit [Std.TransOrd κ] in
-- A visit that stops has changed the entries up to there and none behind.
theorem lookupEntry_visitEntries (change : κ → ν → ν × Option ε) (list : List (κ × ν)) (key : κ) :
    lookupEntry key (visitEntries change list).1 = lookupEntry key list ∨
      lookupEntry key (visitEntries change list).1 =
        (lookupEntry key list).map fun value => (change key value).1 := by
  induction list with
  | nil => exact .inl rfl
  | cons head rest ih =>
      obtain ⟨first, old⟩ := head
      by_cases he : key = first
      · subst he
        refine .inr ?_
        simp only [visitEntries]
        split
        next hchange => simp [lookupEntry, Std.ReflCmp.compare_self, hchange]
        next hchange => simp [lookupEntry, Std.ReflCmp.compare_self, hchange]
      · simp only [visitEntries]
        split
        next => exact .inl (by simp [lookupEntry, Std.LawfulEqCmp.compare_eq_iff_eq, he])
        next => simpa [lookupEntry, Std.LawfulEqCmp.compare_eq_iff_eq, he] using ih

omit [Std.TransOrd κ] in
theorem get?_visit_cases (change : κ → ν → ν × Option ε) (map : SortedMap κ ν) (key : κ) :
    (map.visit change).1.get? key = map.get? key ∨
      (map.visit change).1.get? key = (map.get? key).map fun value => (change key value).1 :=
  lookupEntry_visitEntries change map.entries key

end Visit

end Map

end SortedMap

namespace SortedSet

open SortedMap

variable {κ : Type u} [Ord κ] [Std.TransOrd κ] [Std.LawfulEqOrd κ] [DecidableEq κ]

theorem mem_keys_add (set : SortedSet κ) (member other : κ) :
    other ∈ SortedMap.keys (set.add member) ↔ other = member ∨ other ∈ SortedMap.keys set := by
  rw [mem_keys_iff, mem_keys_iff, add, SortedMap.contains, get?_insert]
  by_cases he : other = member <;> simp [he, SortedMap.contains]

theorem mem_keys_erase (set : SortedSet κ) (member other : κ) :
    other ∈ SortedMap.keys (SortedMap.erase set member) ↔
      other ≠ member ∧ other ∈ SortedMap.keys set := by
  rw [mem_keys_iff, mem_keys_iff, SortedMap.contains, get?_erase]
  by_cases he : other = member <;> simp [he, SortedMap.contains]

theorem mem_keys_ofMembers (members : List κ) (member : κ) :
    member ∈ SortedMap.keys (ofMembers members) ↔ member ∈ members := by
  have hfold : ∀ (list : List κ) (set : SortedSet κ),
      member ∈ SortedMap.keys (list.foldl add set) ↔
        member ∈ list ∨ member ∈ SortedMap.keys set := by
    intro list
    induction list with
    | nil => simp
    | cons head rest ih =>
        intro set
        rw [List.foldl_cons, ih, mem_keys_add, List.mem_cons]
        tauto
  rw [ofMembers, hfold]
  simp [SortedMap.keys, SortedMap.empty]

end SortedSet

end ShardedLedger
