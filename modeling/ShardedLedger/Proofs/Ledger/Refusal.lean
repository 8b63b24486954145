import ShardedLedger.Proofs.Ledger.Effect

namespace ShardedLedger

namespace Account

theorem opened_eq_iff (account : Account) : account.opened = account ↔ account.isActive = true := by
  constructor
  · intro hsame
    rw [← hsame]
    exact account.isActive_opened
  · exact opened_of_isActive

end Account

namespace Ledger

section Refusals

variable {ledger : Ledger} {key : Key} {error : LedgerError}

theorem settle_ne_refused (changed : Account × Option Overflow) :
    (ledger.settle key changed).2 ≠ .error (.refused error) := by
  rcases changed with ⟨account, _ | overflow⟩ <;> intro h <;> cases h

theorem changeActive_fst_of_refused {change : Account → Account × Option Overflow}
    (h : (ledger.changeActive key change).2 = .error (.refused error)) :
    (ledger.changeActive key change).1 = ledger := by
  unfold changeActive at h ⊢
  split at h
  next => rfl
  next account haccount =>
    split at h
    next => exact absurd h (settle_ne_refused _)
    next hclosed => rw [if_neg hclosed]; rfl

-- Opening what is above an account does not make it appear, so only a missing one is refused.
theorem missing_of_reactivate_refused
    (h : (ledger.reactivate key).2 = .error (.refused error)) :
    error = .notFound key ∧ ledger.get? key = none := by
  have hkept := get?_openEach_of_notMem false key.ancestors ledger key key.not_mem_ancestors
  unfold reactivate at h
  split at h
  next => cases h
  next opened hopened =>
    rw [hopened] at hkept
    split at h
    next hnone =>
      cases h
      exact ⟨rfl, hkept.symm.trans hnone⟩
    next account haccount =>
      split at h
      next => cases h
      next => exact absurd h (settle_ne_refused _)

theorem reactivate_ne_refused (hkey : ledger.contains key = true) :
    (ledger.reactivate key).2 ≠ .error (.refused error) := by
  intro h
  obtain ⟨account, haccount⟩ := (contains_iff ledger key).mp hkey
  rw [(missing_of_reactivate_refused h).2] at haccount
  cases haccount

-- A creation is refused before anything above the account is opened or created.
theorem create_fst_of_refused {type : AccountType}
    (h : (ledger.create key type).2 = .error (.refused error)) :
    (ledger.create key type).1 = ledger := by
  unfold create at h ⊢
  split at h
  next account haccount =>
    split at h
    next =>
      exact absurd h (reactivate_ne_refused ((contains_iff ledger key).mpr ⟨account, haccount⟩))
    next hopen =>
      rw [if_neg hopen]
      split at h
      next => cases h
      next htype => rw [if_neg htype]; rfl
  next hnone =>
    split at h
    next parent hspend => rfl
    next hspend => split at h <;> cases h

theorem close_fst_of_refused (h : (ledger.close key).2 = .error (.refused error)) :
    (ledger.close key).1 = ledger := by
  by_cases hkey : ledger.contains key = true
  · rcases close_cases hkey with ⟨_, _, -, hclose⟩ | ⟨_, _, -, -, hclose⟩
    · rw [hclose] at h
      cases h
    · rw [hclose] at h
      cases h
  · rw [close_of_not_contains hkey]
    rfl

-- Only a reactivation can be refused after it has changed something.
theorem apply_fst_of_refused {operation : Operation}
    (hoperation : ∀ key, operation ≠ .reactivate key)
    (h : (operation.apply ledger).2 = .error (.refused error)) :
    (operation.apply ledger).1 = ledger := by
  cases operation with
  | create key type => exact create_fst_of_refused h
  | setBudget key budget => exact changeActive_fst_of_refused h
  | setBalance key balance => exact changeActive_fst_of_refused h
  | addAdjustment key adjustment => exact changeActive_fst_of_refused h
  | reportSpend key spent => exact changeActive_fst_of_refused h
  | close key => exact close_fst_of_refused h
  | reactivate key => exact absurd rfl (hoperation key)

theorem get?_reactivate_of_refused (h : (ledger.reactivate key).2 = .error (.refused error))
    (other : Key) : (ledger.reactivate key).1.get? other =
      if other ∈ key.ancestors then (ledger.get? other).map Account.opened
      else ledger.get? other := by
  have hnone := (missing_of_reactivate_refused h).2
  rw [get?_reactivate fun _ hstop => nomatch h.symm.trans hstop]
  by_cases he : other = key
  · subst he
    simp [hnone]
  · rw [if_congr ((Key.contains_iff other key).trans (or_iff_right he)) rfl rfl]

-- A closed account above the missing one is open afterwards, and nothing else can have changed.
theorem reactivate_fst_ne_iff (h : (ledger.reactivate key).2 = .error (.refused error)) :
    (ledger.reactivate key).1 ≠ ledger ↔ ∃ above ∈ key.ancestors, ∃ account,
      ledger.get? above = some account ∧ account.isActive = false := by
  have hget := get?_reactivate_of_refused h
  constructor
  · intro hchanged
    by_contra hnone
    refine hchanged (eq_of_get?_eq fun other => ?_)
    rw [hget]
    split
    next habove =>
      cases haccount : ledger.get? other with
      | none => rfl
      | some account =>
          have hactive : account.isActive = true := by
            by_contra hclosed
            exact hnone ⟨other, habove, account, haccount, by simpa using hclosed⟩
          rw [Option.map_some, Account.opened_of_isActive hactive]
    next => rfl
  · rintro ⟨above, habove, account, haccount, hclosed⟩ hsame
    have hopened := hget above
    rw [hsame, if_pos habove, haccount, Option.map_some, Option.some.injEq] at hopened
    rw [(Account.opened_eq_iff account).mp hopened.symm] at hclosed
    cases hclosed

end Refusals

-- A refusal leaves the ledger as it was, unless it answers the reactivation of a missing account
-- with a closed one above it. By then all that is above the missing account has been opened.
theorem refusal_changes_iff {ledger : Ledger} {operation : Operation} {error : LedgerError}
    (hrefused : (operation.apply ledger).2 = .error (.refused error)) :
    ((operation.apply ledger).1 ≠ ledger ↔ ∃ key, operation = .reactivate key ∧
        ∃ above ∈ key.ancestors, ∃ account,
          ledger.get? above = some account ∧ account.isActive = false) ∧
      ∀ key, operation = .reactivate key →
        error = .notFound key ∧ ledger.get? key = none ∧
          ∀ other, (operation.apply ledger).1.get? other =
            if other ∈ key.ancestors then (ledger.get? other).map Account.opened
            else ledger.get? other := by
  by_cases hreactivate : ∃ key, operation = .reactivate key
  · obtain ⟨key, rfl⟩ := hreactivate
    obtain ⟨herror, hnone⟩ := missing_of_reactivate_refused hrefused
    constructor
    · rw [show (Operation.reactivate key).apply ledger = ledger.reactivate key from rfl,
        reactivate_fst_ne_iff hrefused]
      constructor
      · exact fun habove => ⟨key, rfl, habove⟩
      · rintro ⟨_, ⟨⟩, habove⟩
        exact habove
    · rintro _ ⟨⟩
      exact ⟨herror, hnone, get?_reactivate_of_refused hrefused⟩
  · have hsame := apply_fst_of_refused (not_exists.mp hreactivate) hrefused
    refine ⟨⟨fun hchanged => absurd hsame hchanged, ?_⟩, ?_⟩
    · rintro ⟨key, hoperation, -⟩
      exact absurd ⟨key, hoperation⟩ hreactivate
    · intro key hoperation
      exact absurd ⟨key, hoperation⟩ hreactivate

-- A campaign that is closed as a whole.
def suspended : Ledger :=
  let created := (empty.create ⟨"a:b"⟩ .budget).1
  (created.close ⟨"a"⟩).1

-- Nothing stands at the name asked for, and the refusal opens the campaign.
theorem refusal_changes_suspended :
    (suspended.reactivate ⟨"a:c"⟩).2 = .error (.refused (.notFound ⟨"a:c"⟩)) ∧
      suspended.isActive ⟨"a"⟩ = false ∧ (suspended.reactivate ⟨"a:c"⟩).1 ≠ suspended ∧
      (suspended.reactivate ⟨"a:c"⟩).1.get? ⟨"a"⟩ = (suspended.get? ⟨"a"⟩).map Account.opened := by
  have hrefused : ((Operation.reactivate ⟨"a:c"⟩).apply suspended).2 =
      .error (.refused (.notFound ⟨"a:c"⟩)) := by decide +kernel
  have hclosed : suspended.isActive ⟨"a"⟩ = false := by decide +kernel
  obtain ⟨account, haccount⟩ : ∃ account, suspended.get? ⟨"a"⟩ = some account :=
    Option.isSome_iff_exists.mp (by decide +kernel)
  have habove : (⟨"a"⟩ : Key) ∈ (⟨"a:c"⟩ : Key).ancestors := by decide
  obtain ⟨hchanges, hopens⟩ := refusal_changes_iff hrefused
  obtain ⟨-, -, hget⟩ := hopens ⟨"a:c"⟩ rfl
  refine ⟨hrefused, hclosed, hchanges.mpr ⟨_, rfl, ⟨"a"⟩, habove, account, haccount, ?_⟩, ?_⟩
  · rwa [isActive, haccount] at hclosed
  · exact (hget ⟨"a"⟩).trans (if_pos habove)

end Ledger

end ShardedLedger
