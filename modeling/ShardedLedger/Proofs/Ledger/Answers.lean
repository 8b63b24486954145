import ShardedLedger.Proofs.Ledger.Creation
import ShardedLedger.Proofs.Ledger.Refusal

namespace ShardedLedger

-- The accounts that a refusal speaks of.
def LedgerError.keys : LedgerError → List Key
  | .notFound key => [key]
  | .closed key => [key]
  | .typeMismatch key => [key]
  | .underSpend parent child => [parent, child]
  | .misnamed key name => [key, name]
  | .invalidKey _ => []
  | .unknownType _ => []
  | .notAnObject => []
  | .badRecord _ _ => []

namespace Ledger

section Answers

variable {ledger : Ledger} {key : Key} {account : Account}

theorem get?_changeActive_of_ok {change : Account → Account × Option Overflow}
    (h : (ledger.changeActive key change).2 = .ok account) :
    (ledger.changeActive key change).1.get? key = some account := by
  obtain ⟨old, hold, hactive, hchange⟩ := changeActive_eq_ok_iff.mp h
  rw [get?_changeActive, hold, Option.map_some, if_pos ⟨rfl, hactive⟩, hchange]

theorem get?_close_of_ok (h : (ledger.close key).2 = .ok account) :
    (ledger.close key).1.get? key = some account := by
  by_cases hkey : ledger.contains key = true
  · rcases close_cases hkey with ⟨_, _, -, hstop⟩ | ⟨accounts, found, -, hfound, hclose⟩
    · rw [hstop] at h
      cases h
    · rw [hclose] at h ⊢
      cases h
      exact hfound
  · rw [close_of_not_contains hkey] at h
    cases h

-- What an operation answers with is what stands under its key from then on.
theorem get?_apply_of_ok {operation : Operation} (h : (operation.apply ledger).2 = .ok account) :
    (operation.apply ledger).1.get? operation.key = some account := by
  cases operation with
  | create key type => exact get?_create_of_ok h
  | setBudget key budget => exact get?_changeActive_of_ok h
  | setBalance key balance => exact get?_changeActive_of_ok h
  | addAdjustment key adjustment => exact get?_changeActive_of_ok h
  | reportSpend key spent => exact get?_changeActive_of_ok h
  | close key => exact get?_close_of_ok h
  | reactivate key => exact get?_reactivate_of_ok h

end Answers

section Refusals

variable {ledger : Ledger} {key : Key} {error : LedgerError}

theorem changeActive_refused {change : Account → Account × Option Overflow}
    (h : (ledger.changeActive key change).2 = .error (.refused error)) :
    error = .notFound key ∨ error = .closed key := by
  unfold changeActive at h
  split at h
  next =>
    cases h
    exact .inl rfl
  next =>
    split at h
    next => exact absurd h (settle_ne_refused _)
    next =>
      cases h
      exact .inr rfl

theorem create_refused {type : AccountType}
    (h : (ledger.create key type).2 = .error (.refused error)) :
    error = .typeMismatch key ∨ ∃ parent ∈ key.ancestors, error = .underSpend parent key := by
  unfold create at h
  split at h
  next account haccount =>
    split at h
    next =>
      exact absurd h (reactivate_ne_refused ((contains_iff ledger key).mpr ⟨account, haccount⟩))
    next =>
      split at h
      next => cases h
      next =>
        cases h
        exact .inl rfl
  next =>
    split at h
    next parent hspend =>
      cases h
      exact .inr ⟨parent, List.mem_of_find?_eq_some hspend, rfl⟩
    next => split at h <;> cases h

theorem close_refused (h : (ledger.close key).2 = .error (.refused error)) :
    error = .notFound key := by
  by_cases hkey : ledger.contains key = true
  · rcases close_cases hkey with ⟨_, _, -, hclose⟩ | ⟨_, _, -, -, hclose⟩
    · rw [hclose] at h
      cases h
    · rw [hclose] at h
      cases h
  · rw [close_of_not_contains hkey] at h
    cases h
    rfl

-- A refusal speaks of the account that the operation is about, and perhaps of one above it.
theorem root_of_apply_refused {operation : Operation}
    (h : (operation.apply ledger).2 = .error (.refused error)) :
    ∀ key ∈ error.keys, key.root = operation.key.root := by
  have hchange {key : Key} {change : Account → Account × Option Overflow}
      (h : (ledger.changeActive key change).2 = .error (.refused error)) :
      ∀ other ∈ error.keys, other.root = key.root := by
    rcases changeActive_refused h with rfl | rfl <;> simp [LedgerError.keys]
  cases operation with
  | create key type =>
      rcases create_refused h with rfl | ⟨parent, hparent, rfl⟩
      · simp [LedgerError.keys, Operation.key]
      · simp [LedgerError.keys, Operation.key, Key.root_of_mem_ancestors hparent]
  | setBudget key budget => exact hchange h
  | setBalance key balance => exact hchange h
  | addAdjustment key adjustment => exact hchange h
  | reportSpend key spent => exact hchange h
  | close key =>
      rw [close_refused h]
      simp [LedgerError.keys, Operation.key]
  | reactivate key =>
      rw [(missing_of_reactivate_refused h).1]
      simp [LedgerError.keys, Operation.key]

end Refusals

end Ledger

end ShardedLedger
