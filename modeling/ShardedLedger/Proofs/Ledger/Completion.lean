import ShardedLedger.Proofs.Ledger.Traversal

namespace ShardedLedger

namespace Ledger

-- A ledger with all that is missing above the accounts of the other one, and with no more than
-- every such ledger has.
structure Completes (before after : Ledger) : Prop where
  kept : ∀ key account, before.get? key = some account → after.get? key = some account
  complete : after.IsComplete
  least : ∀ other : Ledger, other.IsComplete →
    (∀ key, before.contains key = true → other.contains key = true) →
      ∀ key, after.contains key = true → other.contains key = true

section Missing

variable {ledger : Ledger}

theorem get?_eq_none_iff (ledger : Ledger) (key : Key) :
    ledger.get? key = none ↔ ¬ledger.contains key = true := by
  rw [contains_iff, Option.eq_none_iff_forall_ne_some, not_exists]

theorem mem_missingAncestors_iff_contains (ledger : Ledger) (key : Key) :
    key ∈ ledger.missingAncestors ↔ ¬ledger.contains key = true ∧
      ∃ below, ledger.contains below = true ∧ key ∈ below.ancestors := by
  simp only [mem_missingAncestors_iff, get?_eq_none_iff, contains_iff ledger, exists_and_right]

theorem isComplete_iff_missingAncestors (ledger : Ledger) :
    ledger.IsComplete ↔ ledger.missingAncestors = [] := by
  simp only [List.eq_nil_iff_forall_not_mem, mem_missingAncestors_iff_contains, IsComplete]
  constructor
  · rintro hcomplete key ⟨hmissing, below, hbelow, habove⟩
    exact hmissing (hcomplete below hbelow key habove)
  · intro hnone below hbelow key habove
    by_contra hmissing
    exact hnone key ⟨hmissing, below, hbelow, habove⟩

theorem repair_snd_iff (ledger : Ledger) : ledger.repair.2 = true ↔ ledger.IsComplete := by
  rw [isComplete_iff_missingAncestors]
  exact List.isEmpty_iff

theorem repair_of_isComplete (h : ledger.IsComplete) : ledger.repair = (ledger, true) := by
  rw [repair, (isComplete_iff_missingAncestors ledger).mp h]
  rfl

theorem contains_repair_iff (ledger : Ledger) (key : Key) :
    ledger.repair.1.contains key = true ↔ ledger.contains key = true ∨
      ∃ below, ledger.contains below = true ∧ key ∈ below.ancestors := by
  have hrepair : ledger.repair.1.contains key = true ↔
      key ∈ ledger.missingAncestors ∨ ledger.contains key = true := by
    rw [contains_iff, get?_repair]
    split
    next hmissing => exact iff_of_true ⟨_, rfl⟩ (.inl hmissing)
    next hthere => rw [← contains_iff, or_iff_right hthere]
  rw [hrepair, mem_missingAncestors_iff_contains]
  by_cases hold : ledger.contains key = true <;> simp [hold]

-- What is above an added account is above the account that it was added for, so it is among the
-- missing ones that were looked up before anything was added.
theorem isComplete_repair (ledger : Ledger) : ledger.repair.1.IsComplete := by
  intro key hkey above habove
  rw [contains_repair_iff] at hkey ⊢
  rcases hkey with hold | ⟨below, hbelow, hkey⟩
  · exact .inr ⟨key, hold, habove⟩
  · exact .inr ⟨below, hbelow, Key.mem_ancestors_trans habove hkey⟩

theorem completes_repair (ledger : Ledger) : ledger.Completes ledger.repair.1 where
  kept _ _ h := get?_repair_of_some h
  complete := ledger.isComplete_repair
  least other hcomplete hkeys key hkey := by
    rcases (contains_repair_iff ledger key).mp hkey with hold | ⟨below, hbelow, habove⟩
    · exact hkeys key hold
    · exact hcomplete below (hkeys below hbelow) key habove

end Missing

-- Whatever its keys are, a repaired ledger has the keys that it had and those above them, and
-- nothing of what it had is changed. One pass is enough.
theorem repair_is_least (ledger : Ledger) :
    (∀ key, ledger.repair.1.contains key = true ↔ ledger.contains key = true ∨
        ∃ below, ledger.contains below = true ∧ key ∈ below.ancestors) ∧
      ledger.Completes ledger.repair.1 ∧
      (∀ key account, ledger.get? key = none → ledger.repair.1.get? key = some account →
        account =
          { name := key, type := .budget, status := .closed, version := 1, budget := .empty,
            balance := .empty, spent := .empty, adjustments := .empty, outOfSync := false }) ∧
      (ledger.repair.2 = true ↔
        ∀ key, ledger.repair.1.contains key = true → ledger.contains key = true) ∧
      (ledger.repair.2 = true ↔ ledger.repair.1 = ledger) ∧
      ledger.repair.1.repair = (ledger.repair.1, true) := by
  have hcompletes := ledger.completes_repair
  refine ⟨ledger.contains_repair_iff, hcompletes, ?_, ?_, ?_,
    repair_of_isComplete hcompletes.complete⟩
  · intro key account hnone hadded
    obtain ⟨-, rfl⟩ := ledger.moves_repair.added key account hnone hadded
    rfl
  · rw [repair_snd_iff]
    constructor
    · intro hcomplete key hkey
      rwa [repair_of_isComplete hcomplete] at hkey
    · exact fun hnothing key hkey above habove => hnothing above
        ((ledger.contains_repair_iff above).mpr (.inr ⟨key, hkey, habove⟩))
  · rw [repair_snd_iff]
    constructor
    · exact fun hcomplete => congrArg Prod.fst (repair_of_isComplete hcomplete)
    · intro hsame
      rw [← hsame]
      exact hcompletes.complete

-- Two accounts below a missing one.
def scattered : Ledger :=
  (empty.set ⟨"a:b:c"⟩ (.new ⟨"a:b:c"⟩ .spend)).set ⟨"a:b:d"⟩ (.new ⟨"a:b:d"⟩ .spend)

-- What is above both is looked up for each of them and added once.
theorem repair_is_least_scattered :
    scattered.missingAncestors = [⟨"a"⟩, ⟨"a:b"⟩, ⟨"a"⟩, ⟨"a:b"⟩] ∧
      scattered.repair.1.contains ⟨"a"⟩ = true ∧
      scattered.repair.1.get? ⟨"a:b"⟩ = some (.placeholder ⟨"a:b"⟩) ∧
      scattered.repair.2 = false ∧ scattered.repair.1.repair = (scattered.repair.1, true) := by
  obtain ⟨hkeys, -, hadded, hclean, -, hagain⟩ := repair_is_least scattered
  have hroot : scattered.repair.1.contains ⟨"a"⟩ = true :=
    (hkeys ⟨"a"⟩).mpr (.inr ⟨⟨"a:b:c"⟩, by decide +kernel, by decide⟩)
  have hmissing : scattered.contains ⟨"a"⟩ = false := by decide +kernel
  obtain ⟨account, haccount⟩ := (contains_iff _ _).mp
    ((hkeys ⟨"a:b"⟩).mpr (.inr ⟨⟨"a:b:d"⟩, by decide +kernel, by decide⟩))
  refine ⟨by decide +kernel, hroot, ?_, ?_, hagain⟩
  · rw [haccount, hadded ⟨"a:b"⟩ account (by decide +kernel) haccount]
    rfl
  · by_contra hnothing
    rw [Bool.not_eq_false, hclean] at hnothing
    rw [hnothing ⟨"a"⟩ hroot] at hmissing
    cases hmissing

end Ledger

end ShardedLedger
