import ShardedLedger.Ledger.Basic
import ShardedLedger.Proofs.Ledger.Hierarchy
import ShardedLedger.Proofs.SortedMap

namespace ShardedLedger

section Order

-- What stands between a text and a text that begins with it begins with it as well.
theorem prefix_of_between {start middle last : List Char} (hlow : ¬middle < start)
    (hhigh : ¬last < middle) (hlast : start <+: last) : start <+: middle := by
  induction start generalizing middle last with
  | nil => exact List.nil_prefix
  | cons c start ih =>
      obtain ⟨rest, rfl⟩ := hlast
      cases middle with
      | nil => exact absurd (List.nil_lt_cons c start) hlow
      | cons d middle =>
          rw [List.cons_lt_cons_iff, not_or, not_and] at hlow
          rw [List.cons_append, List.cons_lt_cons_iff, not_or, not_and] at hhigh
          have he : d = c := Char.le_antisymm (Char.not_lt.mp hhigh.1) (Char.not_lt.mp hlow.1)
          have hstart := ih (hlow.2 he) (hhigh.2 he.symm) (List.prefix_append start rest)
          exact he ▸ List.cons_prefix_cons.mpr ⟨rfl, hstart⟩

theorem filter_dropWhile_eq {α : Type} (skip keep : α → Bool) (list : List α)
    (h : ∀ item ∈ list, keep item = true → skip item = false) :
    (list.dropWhile skip).filter keep = list.filter keep := by
  induction list with
  | nil => rfl
  | cons item list ih =>
      by_cases hskip : skip item
      · have hkeep : keep item = false := by
          by_contra hkeep
          have hfalse := h item (by simp) (by simpa using hkeep)
          simp [hskip] at hfalse
        simp only [List.dropWhile_cons, hskip, ite_true, List.filter_cons, hkeep]
        exact ih fun other hother => h other (List.mem_cons_of_mem _ hother)
      · simp [hskip]

-- Behind the first item that the scan stops at there is nothing left to keep.
theorem filter_takeWhile_eq {α : Type} (go keep : α → Bool) (list : List α)
    (hkeep : ∀ item ∈ list, keep item = true → go item = true)
    (hstop : list.Pairwise fun a b => go a = false → keep b = false) :
    (list.takeWhile go).filter keep = list.filter keep := by
  induction list with
  | nil => rfl
  | cons item list ih =>
      obtain ⟨hhead, hrest⟩ := List.pairwise_cons.mp hstop
      by_cases hgo : go item
      · have hih := ih (fun other hother => hkeep other (List.mem_cons_of_mem _ hother)) hrest
        simp only [List.takeWhile_cons, hgo, ite_true, List.filter_cons, hih]
      · have hnone : ∀ other ∈ item :: list, ¬keep other = true := by
          intro other hother
          rcases List.mem_cons.mp hother with rfl | hother
          · exact fun h => hgo (hkeep other (by simp) h)
          · simp [hhead other hother (by simpa using hgo)]
        simp [hgo, List.filter_eq_nil_iff.mpr hnone]

end Order

namespace Key

theorem compare_eq_lt_iff (a b : Key) : compare a b = .lt ↔ a.text.toList < b.text.toList :=
  compareOfLessAndEq_eq_lt

theorem prefix_of_contains {key other : Key} (h : key.contains other = true) :
    key.text.toList <+: other.text.toList := by
  rcases (contains_iff key other).mp h with rfl | hmem
  · exact List.prefix_rfl
  · obtain ⟨rest, hrest⟩ := (mem_ancestors_iff key other).mp hmem
    exact ⟨separator :: rest, hrest.symm⟩

theorem startsWith_iff (key other : Key) :
    key.startsWith other = true ↔ other.text.toList <+: key.text.toList := by
  rw [startsWith, Option.isSome_iff_exists]
  constructor
  · rintro ⟨rest, hrest⟩
    exact ⟨rest, ((Text.behind_eq_some_iff _ _ _).mp hrest).symm⟩
  · rintro ⟨rest, hrest⟩
    exact ⟨rest, (Text.behind_eq_some_iff _ _ _).mpr hrest.symm⟩

theorem not_lt_of_prefix {start text : List Char} (h : start <+: text) : ¬text < start := by
  obtain ⟨rest, rfl⟩ := h
  exact List.not_lt.mpr List.le_append_left

end Key

namespace Ledger

theorem not_lt_of_mem_dropWhile {key : Key} {entries : List (Key × Account)}
    (hsorted : entries.Pairwise fun a b => compare a.1 b.1 = .lt) :
    ∀ entry ∈ entries.dropWhile (fun entry => compare entry.1 key = .lt),
      compare entry.1 key ≠ .lt := by
  induction entries with
  | nil => simp
  | cons head rest ih =>
      obtain ⟨hhead, hrest⟩ := List.pairwise_cons.mp hsorted
      by_cases hlt : compare head.1 key = .lt
      · simpa [hlt] using ih hrest
      · intro entry hentry
        simp only [List.dropWhile_cons, hlt, decide_false, Bool.false_eq_true, ite_false] at hentry
        rcases List.mem_cons.mp hentry with rfl | hmem
        · exact hlt
        · exact fun h => hlt (Std.TransCmp.lt_trans (hhead entry hmem) h)

-- The scan from the key on finds every account below it and stops behind the last.
theorem subtreeEntries_eq_filter (ledger : Ledger) (key : Key) :
    ledger.subtreeEntries key =
      ledger.accounts.entries.filter fun entry => key.contains entry.1 := by
  have hsorted := ledger.accounts.sorted
  have hbegins {entry : Key × Account} (h : key.contains entry.1 = true) :=
    Key.prefix_of_contains h
  unfold subtreeEntries
  rw [filter_takeWhile_eq, filter_dropWhile_eq]
  · intro entry _ hentry
    simpa [Key.compare_eq_lt_iff] using Key.not_lt_of_prefix (hbegins hentry)
  · intro entry _ hentry
    exact (Key.startsWith_iff entry.1 key).mpr (hbegins hentry)
  · have hafter := @not_lt_of_mem_dropWhile key _ hsorted
    refine (hsorted.sublist (List.dropWhile_sublist _)).imp_of_mem ?_
    intro a b ha hb hlt hstop
    by_contra hcontains
    have hbetween := prefix_of_between (mt (Key.compare_eq_lt_iff a.1 key).mpr (hafter a ha))
      (List.lt_asymm ((Key.compare_eq_lt_iff a.1 b.1).mp hlt))
      (hbegins (by simpa using hcontains))
    rw [(Key.startsWith_iff a.1 key).mpr hbetween] at hstop
    cases hstop

end Ledger

end ShardedLedger
