import Mathlib.Data.List.FinRange
import Mathlib.Data.List.Nodup
import ShardedLedger.Proofs.Except
import ShardedLedger.Proofs.Ledger.Locality

namespace ShardedLedger

theorem perm_flatMap_filter {α : Type} {slots : Nat} (slotOf : α → Fin slots) {list : List α}
    (hnodup : list.Nodup) :
    ((List.finRange slots).flatMap fun slot => list.filter (slotOf · = slot)).Perm list := by
  refine (List.perm_ext_iff_of_nodup ?_ hnodup).mpr fun item => by simp
  refine List.nodup_flatMap.mpr ⟨fun slot _ => hnodup.filter _, ?_⟩
  refine (List.nodup_finRange slots).imp fun {a b} hne => ?_
  intro item ha hb
  simp only [List.mem_filter, decide_eq_true_eq] at ha hb
  exact hne (ha.2.symm.trans hb.2)

namespace Ledger

-- Ledgers without a common key that together hold what the whole one holds.
structure IsUnion (whole : Ledger) (parts : List Ledger) : Prop where
  disjoint : parts.Pairwise fun a b => ∀ key, ¬(a.contains key = true ∧ b.contains key = true)
  get?_iff : ∀ key account,
    whole.get? key = some account ↔ ∃ part ∈ parts, part.get? key = some account

section Split

variable {slots : Nat} (slotOf : String → Fin slots) (ledger : Ledger)

-- The part of each slot, with everything below the roots that belong to it.
def split : List Ledger :=
  (List.finRange slots).map fun slot => ledger.within fun root => slotOf root = slot

@[simp] theorem length_split : (ledger.split slotOf).length = slots := by simp [split]

theorem getElem?_split (slot : Fin slots) :
    (ledger.split slotOf)[slot.val]? = some (ledger.within fun root => slotOf root = slot) := by
  simp [split]

theorem isUnion_split : ledger.IsUnion (ledger.split slotOf) where
  disjoint := by
    refine List.pairwise_map.mpr ((List.nodup_finRange slots).imp fun {a b} hne key => ?_)
    rintro ⟨ha, hb⟩
    have hin {slot : Fin slots}
        (h : (ledger.within fun root => slotOf root = slot).contains key = true) :
        slotOf key.root = slot := by
      by_contra hnot
      obtain ⟨account, haccount⟩ := (SortedMap.contains_iff _ key).mp h
      have hget := get?_within (fun root => slotOf root = slot) ledger key
      simp only [hnot, decide_false, Bool.false_eq_true, ite_false] at hget
      exact Option.some_ne_none account (haccount.symm.trans hget)
    exact hne ((hin ha).symm.trans (hin hb))
  get?_iff key account := by
    simp only [split, List.mem_map, List.mem_finRange, true_and, exists_exists_eq_and, get?_within]
    constructor
    · intro h
      exact ⟨slotOf key.root, by simpa using h⟩
    · rintro ⟨slot, h⟩
      split at h
      next => exact h
      next => cases h

-- What is done below one root changes the part with that root only.
theorem set_split_of_isLocal {α : Type} {root : String} {run : Ledger → Ledger × α}
    (h : IsLocal root run) :
    (ledger.split slotOf).set (slotOf root)
        (run (ledger.within fun other => slotOf other = slotOf root)).1 =
      (run ledger).1.split slotOf := by
  refine List.ext_getElem? fun index => ?_
  by_cases hindex : index < slots
  · have hpart (ledger : Ledger) := getElem?_split slotOf ledger ⟨index, hindex⟩
    by_cases hslot : (slotOf root).val = index
    · subst hslot
      rw [List.getElem?_set_self (by simp), hpart, h.inside _ ledger (by simp)]
    · have hne : slotOf root ≠ ⟨index, hindex⟩ := fun he => hslot (congrArg Fin.val he)
      rw [List.getElem?_set_ne hslot, hpart, hpart, h.outside _ ledger (by simpa using hne)]
  · rw [List.getElem?_eq_none (by simpa using hindex),
      List.getElem?_eq_none (by simpa using hindex)]

theorem split_of_eq_one (h : slots = 1) : ledger.split slotOf = [ledger] := by
  subst h
  have hwhole : (ledger.within fun root => slotOf root = 0) = ledger := by
    refine eq_of_get?_eq fun key => ?_
    rw [get?_within, if_pos (by simpa using Subsingleton.elim _ _)]
  simp only [split, List.finRange_succ, List.finRange_zero, List.map_cons, List.map_nil, hwhole]

end Split

section Listings

variable (ledger : Ledger)

theorem nodup_keys : ledger.keys.Nodup := SortedMap.nodup_keys _

theorem nodup_activeKeys : ledger.activeKeys.Nodup := SortedMap.nodup_keys _

theorem keys_within (keep : String → Bool) :
    (ledger.within keep).keys = ledger.keys.filter fun key => keep key.root := by
  simp only [keys, within, SortedMap.keys, SortedMap.filter, List.filter_map, Function.comp_def]

theorem activeKeys_within (keep : String → Bool) :
    (ledger.within keep).activeKeys = ledger.activeKeys.filter fun key => keep key.root := by
  simp only [activeKeys, within, SortedMap.keys, SortedMap.filter, List.filter_map,
    List.filter_filter, Function.comp_def, Bool.and_comm]

variable {slots : Nat} (slotOf : String → Fin slots)

theorem flatMap_keys_split : ((ledger.split slotOf).flatMap keys).Perm ledger.keys := by
  simp only [split, List.flatMap_map, keys_within]
  exact perm_flatMap_filter (fun key : Key => slotOf key.root) ledger.nodup_keys

theorem flatMap_activeKeys_split :
    ((ledger.split slotOf).flatMap activeKeys).Perm ledger.activeKeys := by
  simp only [split, List.flatMap_map, activeKeys_within]
  exact perm_flatMap_filter (fun key : Key => slotOf key.root) ledger.nodup_activeKeys

end Listings

section Summaries

theorem addToRoot_eq_ok_iff {summaries result : SortedMap String Summary} {entry : Key × Account} :
    addToRoot summaries entry = .ok result ↔
      ∃ summary, ((summaries.get? entry.1.root).getD .empty).add entry.2 = .ok summary ∧
        summaries.insert entry.1.root summary = result := by
  simp only [addToRoot, bind_eq_ok_iff, pure_eq_ok_iff]

-- Each account counts for its own root only.
theorem foldlM_addToRoot_filter (keep : String → Bool) (entries : List (Key × Account))
    {summaries result : SortedMap String Summary}
    (h : entries.foldlM addToRoot summaries = .ok result) :
    (entries.filter fun entry => keep entry.1.root).foldlM addToRoot
        (summaries.filter fun root _ => keep root) =
      .ok (result.filter fun root _ => keep root) := by
  induction entries generalizing summaries with
  | nil =>
      cases h
      rfl
  | cons entry entries ih =>
      obtain ⟨next, hstep, hrest⟩ := bind_eq_ok_iff.mp (List.foldlM_cons.symm.trans h)
      obtain ⟨summary, hsummary, rfl⟩ := addToRoot_eq_ok_iff.mp hstep
      have hrest := ih hrest
      by_cases hkeep : keep entry.1.root = true
      · have hget : (summaries.filter fun root _ => keep root).get? entry.1.root =
            summaries.get? entry.1.root := by
          rw [SortedMap.get?_filter]
          cases summaries.get? entry.1.root <;> simp [hkeep]
        have hadd := addToRoot_eq_ok_iff.mpr ⟨summary, hget ▸ hsummary, rfl⟩
        rw [← SortedMap.filter_insert_of_keep summaries hkeep] at hadd
        rw [List.filter_cons_of_pos (by exact hkeep), List.foldlM_cons, hadd]
        exact hrest
      · have hdrop : ∀ summary : Summary, keep entry.1.root = false :=
          fun _ => by simpa using hkeep
        rw [SortedMap.filter_insert_of_drop summaries hdrop] at hrest
        rw [List.filter_cons_of_neg (by exact hkeep)]
        exact hrest

theorem globalSummary_within (keep : String → Bool) {ledger : Ledger}
    {summaries : SortedMap String Summary} (h : ledger.globalSummary = .ok summaries) :
    (ledger.within keep).globalSummary = .ok (summaries.filter fun root _ => keep root) :=
  foldlM_addToRoot_filter keep ledger.accounts.entries h

end Summaries

end Ledger

end ShardedLedger
