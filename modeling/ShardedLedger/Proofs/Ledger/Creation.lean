import ShardedLedger.Proofs.Ledger.Tree

namespace ShardedLedger

namespace Ledger

section Answers

variable {ledger : Ledger} {key : Key} {account : Account} {type : AccountType}

theorem get?_settle_of_ok {changed : Account × Option Overflow}
    (h : (ledger.settle key changed).2 = .ok account) :
    (ledger.settle key changed).1.get? key = some account := by
  rcases changed with ⟨changed, _ | overflow⟩
  · cases h
    exact (get?_set ledger key key account).trans (if_pos rfl)
  · cases h

theorem get?_reactivate_of_ok (h : (ledger.reactivate key).2 = .ok account) :
    (ledger.reactivate key).1.get? key = some account := by
  unfold reactivate at h ⊢
  split at h
  next => cases h
  next opened hopened =>
    split at h
    next => cases h
    next found hfound =>
      split at h
      next hactive =>
        cases h
        rw [if_pos hactive]
        exact hfound
      next hclosed =>
        rw [if_neg hclosed]
        exact get?_settle_of_ok h

-- The account that a reactivation answers with is the one that it found, opened.
theorem eq_opened_of_reactivate_ok (h : (ledger.reactivate key).2 = .ok account) :
    ∃ old, ledger.get? key = some old ∧ account = old.opened := by
  have hget := get?_reactivate_of_ok h
  have hself := (Key.contains_iff key key).mpr (.inl rfl)
  rw [get?_reactivate (completes_of_ok h), if_pos hself] at hget
  obtain ⟨old, hold, hopened⟩ := Option.map_eq_some_iff.mp hget
  exact ⟨old, hold, hopened.symm⟩

-- The three ways to an answer, by what a creation finds under the key. Only an account that is
-- open already is compared with the type asked for.
theorem create_ok_cases (h : (ledger.create key type).2 = .ok account) :
    (ledger.get? key = some account ∧ account.isActive = true ∧ account.type = type ∧
        (ledger.create key type).1 = ledger) ∨
      (∃ old, ledger.get? key = some old ∧ old.isActive = false ∧
        ledger.create key type = ledger.reactivate key) ∨
      (ledger.get? key = none ∧ account = .new key type ∧
        (ledger.create key type).1.get? key = some account) := by
  cases hfound : ledger.get? key with
  | some old =>
      simp only [create, hfound] at h ⊢
      cases hactive : old.isActive with
      | true =>
          simp only [hactive, Bool.not_true, Bool.false_eq_true, ite_false] at h ⊢
          split at h
          next htype =>
            cases h
            exact .inl ⟨rfl, hactive, htype, by rw [if_pos htype]⟩
          next => cases h
      | false => exact .inr (.inl ⟨old, rfl, hactive, rfl⟩)
  | none =>
      simp only [create, hfound] at h ⊢
      split at h
      next => cases h
      next =>
        split at h
        next => cases h
        next opened hopened =>
          cases h
          exact .inr (.inr ⟨trivial, rfl, (get?_set opened key key _).trans (if_pos rfl)⟩)

theorem get?_create_of_ok (h : (ledger.create key type).2 = .ok account) :
    (ledger.create key type).1.get? key = some account := by
  rcases create_ok_cases h with ⟨hstays, -, -, hsame⟩ | ⟨old, -, -, hopens⟩ | ⟨-, -, hnew⟩
  · rw [hsame]
    exact hstays
  · rw [hopens] at h ⊢
    exact get?_reactivate_of_ok h
  · exact hnew

end Answers

-- The account that a creation answers with stands in the ledger, open, and below open budget
-- accounts. It is of another type than asked for exactly if it was there, closed and of that type.
theorem created_otherwise_iff {ledger : Ledger} {key : Key} {type : AccountType}
    {account : Account} (htree : ledger.IsTree) (hkey : key.IsValid)
    (hanswer : (ledger.create key type).2 = .ok account) :
    (ledger.create key type).1.get? key = some account ∧ account.isActive = true ∧
      (account.type ≠ type ↔ ∃ old, ledger.get? key = some old ∧ old.isActive = false ∧
        old.type ≠ type) ∧
      ∀ above ∈ key.ancestors, ∃ parent, (ledger.create key type).1.get? above = some parent ∧
        parent.isActive = true ∧ parent.type = .budget := by
  have hstored := get?_create_of_ok hanswer
  have hopen : account.isActive = true ∧ (account.type ≠ type ↔ ∃ old,
      ledger.get? key = some old ∧ old.isActive = false ∧ old.type ≠ type) := by
    rcases create_ok_cases hanswer with
      ⟨hfound, hactive, htype, -⟩ | ⟨old, hfound, hclosed, hopens⟩ | ⟨hnone, rfl, -⟩
    · refine ⟨hactive, fun hother => absurd htype hother, ?_⟩
      rintro ⟨old, hold, hclosed, -⟩
      rw [hfound, Option.some.injEq] at hold
      rw [← hold, hactive] at hclosed
      cases hclosed
    · rw [hopens] at hanswer
      obtain ⟨found, hsame, rfl⟩ := eq_opened_of_reactivate_ok hanswer
      rw [hfound, Option.some.injEq] at hsame
      subst hsame
      rw [Account.type_opened]
      refine ⟨old.isActive_opened, fun hother => ⟨old, hfound, hclosed, hother⟩, ?_⟩
      rintro ⟨other, hother, -, htype⟩
      rw [hfound, Option.some.injEq] at hother
      rwa [hother]
    · refine ⟨rfl, fun hother => absurd rfl hother, ?_⟩
      rintro ⟨old, hold, -⟩
      rw [hnone] at hold
      cases hold
  refine ⟨hstored, hopen.1, hopen.2, fun above habove => ?_⟩
  have hafter := htree.create hkey fun _ hstop => nomatch hanswer.symm.trans hstop
  obtain ⟨parent, hparent, htype, hactive⟩ := hafter.supported key account hstored above habove
  exact ⟨parent, hparent, hactive hopen.1, htype⟩

-- A spend account that has been closed, with what was created above it.
def retired : Ledger :=
  let created := (empty.create ⟨"a:b"⟩ .spend).1
  (created.close ⟨"a"⟩).1

theorem reachable_retired : Reachable retired := by
  refine .step (.step .empty (.operate (.create ⟨"a:b"⟩ .spend) ?_ ?_))
    (.operate (.close ⟨"a"⟩) ?_ ?_)
  · decide
  · exact fun overflow h => by cases h
  · decide
  · exact fun overflow h => by cases h

-- Who asks for a budget account of that name gets the spend account, opened again.
theorem created_otherwise_retired :
    ∃ account, (retired.create ⟨"a:b"⟩ .budget).2 = .ok account ∧ account.type ≠ .budget ∧
      (retired.create ⟨"a:b"⟩ .budget).1.get? ⟨"a:b"⟩ = some account ∧
      ∃ parent, (retired.create ⟨"a:b"⟩ .budget).1.get? ⟨"a"⟩ = some parent ∧
        parent.isActive = true ∧ parent.type = .budget := by
  have hold : retired.get? ⟨"a:b"⟩ =
      some { Account.new ⟨"a:b"⟩ .spend with status := .closed, version := 2 } := by
    decide +kernel
  have hanswer : (retired.create ⟨"a:b"⟩ .budget).2 =
      .ok { Account.new ⟨"a:b"⟩ .spend with version := 3 } := by decide +kernel
  obtain ⟨hstored, -, htype, habove⟩ :=
    created_otherwise_iff reachable_retired.isTree (by decide) hanswer
  exact ⟨_, hanswer, htype.mpr ⟨_, hold, rfl, by decide⟩, hstored, habove ⟨"a"⟩ (by decide)⟩

end Ledger

end ShardedLedger
