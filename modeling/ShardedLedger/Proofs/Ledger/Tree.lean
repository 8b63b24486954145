import ShardedLedger.Proofs.Ledger.Completion

namespace ShardedLedger

namespace Ledger

-- An account may stand below another one if that is a budget account and is open as long as the
-- account itself is.
def Supports (parent account : Account) : Prop :=
  parent.type = .budget ∧ (account.isActive = true → parent.isActive = true)

-- Accounts stand under their own names and count their changes from one, and all that is above
-- an account is there and supports it.
structure IsTree (ledger : Ledger) : Prop where
  named : ledger.WellNamed
  counted : ∀ key account, ledger.get? key = some account → 1 ≤ account.version
  supported : ∀ key account, ledger.get? key = some account → ∀ above ∈ key.ancestors,
    ∃ parent, ledger.get? above = some parent ∧ Supports parent account

theorem isTree_empty : IsTree empty where
  named := wellNamed_empty
  counted key account h := by simp at h
  supported key account h := by simp at h

section Changes

variable {ledger after : Ledger} {key : Key}

-- Accounts that were there before have not gone back to an earlier version.
theorem IsTree.counted_of_extends (h : ledger.IsTree) (hext : ledger.Extends after)
    (hnew : ∀ key account, ledger.get? key = none → after.get? key = some account →
      1 ≤ account.version) (key : Key) (account : Account) (haccount : after.get? key = some account) :
    1 ≤ account.version := by
  cases hold : ledger.get? key with
  | none => exact hnew key account hold haccount
  | some old =>
      obtain ⟨new, hget, hbehind⟩ := hext.kept key old hold
      rw [haccount] at hget
      cases hget
      exact UInt64.le_trans (h.counted key old hold) hbehind.version_le

-- A change to every account by itself leaves a tree if no type changes and each account still
-- has the support of those above it.
theorem IsTree.of_map (h : ledger.IsTree) (hext : ledger.Extends after)
    (change : Key → Account → Account)
    (hget : ∀ key, after.get? key = (ledger.get? key).map (change key))
    (htype : ∀ key account, (change key account).type = account.type)
    (hactive : ∀ key account above parent, above ∈ key.ancestors → Supports parent account →
      (change key account).isActive = true → (change above parent).isActive = true) :
    after.IsTree where
  named := hext.named h.named
  counted := h.counted_of_extends hext fun key account hnone haccount => by
    rw [hget, hnone] at haccount
    cases haccount
  supported key account haccount above habove := by
    rw [hget] at haccount
    obtain ⟨old, hold, rfl⟩ := Option.map_eq_some_iff.mp haccount
    obtain ⟨parent, hparent, hsupports⟩ := h.supported key old hold above habove
    refine ⟨change above parent, by rw [hget, hparent, Option.map_some], ?_, ?_⟩
    · exact (htype above parent).trans hsupports.1
    · exact hactive key old above parent habove hsupports

theorem IsTree.changeActive (h : ledger.IsTree) {change : Account → Account × Option Overflow}
    (hext : ledger.Extends (ledger.changeActive key change).1)
    (hplace : Account.KeepsPlace change) : (ledger.changeActive key change).1.IsTree := by
  have hstays (other : Key) (account : Account) :
      (if other = key ∧ account.isActive = true then (change account).1 else account).type =
        account.type ∧
      (if other = key ∧ account.isActive = true then (change account).1 else account).isActive =
        account.isActive := by
    split
    next => exact hplace account
    next => exact ⟨rfl, rfl⟩
  refine h.of_map hext _ (get?_changeActive ledger key change) (fun other account =>
    (hstays other account).1) ?_
  intro other account above parent _ hsupports
  rw [(hstays other account).2, (hstays above parent).2]
  exact hsupports.2

-- All that contains the key opens, so what opens is supported by what opens with it.
theorem IsTree.reactivate (h : ledger.IsTree) (hkey : key.IsValid)
    (hfits : (ledger.reactivate key).Completes) : (ledger.reactivate key).1.IsTree := by
  refine h.of_map (reactivate_extends hkey hfits)
    (fun other account => if other.contains key = true then account.opened else account)
    (fun other => ?_) (fun other account => ?_) ?_
  · rw [get?_reactivate hfits]
    by_cases hcontains : other.contains key = true <;> simp [hcontains]
  · split
    next => exact account.type_opened
    next => rfl
  · intro other account above parent habove hsupports hactive
    by_cases hcontains : above.contains key = true
    · rw [if_pos hcontains]
      exact parent.isActive_opened
    · have hother : ¬other.contains key = true := fun hother =>
        hcontains (Key.contains_of_contains habove hother)
      rw [if_neg hother] at hactive
      rw [if_neg hcontains]
      exact hsupports.2 hactive

-- All below the key closes, so nothing stays open below what closes.
theorem IsTree.close (h : ledger.IsTree) (hfits : (ledger.close key).Completes) :
    (ledger.close key).1.IsTree := by
  by_cases hkey : ledger.contains key = true
  · refine h.of_map (close_extends hfits)
      (fun other account => if key.contains other = true then account.shut else account)
      (fun other => ?_) (fun other account => ?_) ?_
    · rw [get?_close hkey hfits]
      by_cases hcontains : key.contains other = true <;> simp [hcontains]
    · split
      next => exact account.type_shut
      next => rfl
    · intro other account above parent habove hsupports hactive
      by_cases hcontains : key.contains other = true
      · rw [if_pos hcontains, Account.isActive_shut] at hactive
        cases hactive
      · have hnot : ¬key.contains above = true := fun hcontained =>
          hcontains (Key.contains_of_mem_ancestors hcontained habove)
        rw [if_neg hcontains] at hactive
        rw [if_neg hnot]
        exact hsupports.2 hactive
  · rw [close_of_not_contains hkey]
    exact h

-- A new account stands below open budget accounts, old ones and new ones. Nothing can have stood
-- below it, so its own type does not matter.
theorem IsTree.created (h : ledger.IsTree) {type : AccountType} (hext : ledger.Extends after)
    (hnone : ledger.get? key = none)
    (hbudget : ∀ above ∈ key.ancestors, ∀ account, ledger.get? above = some account →
      account.type = .budget)
    (hget : ∀ other, after.get? other =
      if other = key then some (.new key type)
      else if other ∈ key.ancestors then Account.openedAt true other (ledger.get? other)
      else ledger.get? other) : after.IsTree := by
  have hopen : ∀ above ∈ key.ancestors, ∃ parent, after.get? above = some parent ∧
      parent.type = .budget ∧ parent.isActive = true := by
    intro above habove
    have hne : above ≠ key := fun he => key.not_mem_ancestors (he ▸ habove)
    rw [hget, if_neg hne, if_pos habove]
    cases hold : ledger.get? above with
    | none => exact ⟨.new above .budget, rfl, rfl, rfl⟩
    | some account =>
        exact ⟨account.opened, rfl, account.type_opened.trans (hbudget above habove account hold),
          account.isActive_opened⟩
  refine ⟨hext.named h.named, h.counted_of_extends hext ?_, ?_⟩
  · intro other account hmissing haccount
    rw [hget, hmissing] at haccount
    split at haccount
    next =>
      cases haccount
      exact UInt64.le_refl 1
    next =>
      split at haccount
      next =>
        cases haccount
        exact UInt64.le_refl 1
      next => cases haccount
  · intro other account haccount above habove
    by_cases hover : above ∈ key.ancestors
    · obtain ⟨parent, hparent, htype, hactive⟩ := hopen above hover
      exact ⟨parent, hparent, htype, fun _ => hactive⟩
    · have hother : other ≠ key := fun he => hover (he ▸ habove)
      have hbelow : other ∉ key.ancestors := fun hmem =>
        hover (Key.mem_ancestors_trans habove hmem)
      rw [hget, if_neg hother, if_neg hbelow] at haccount
      obtain ⟨parent, hparent, hsupports⟩ := h.supported other account haccount above habove
      have hne := ne_of_get?_eq_none hnone hparent
      exact ⟨parent, by rw [hget, if_neg hne, if_neg hover, hparent], hsupports⟩

theorem IsTree.create (h : ledger.IsTree) {type : AccountType} (hkey : key.IsValid)
    (hfits : (ledger.create key type).Completes) : (ledger.create key type).1.IsTree := by
  have hext := create_extends hkey hfits
  rcases create_cases hfits with hsame | hopened | ⟨hnone, hbudget, hget⟩
  · rw [hsame]
    exact h
  · rw [hopened] at hfits ⊢
    exact h.reactivate hkey hfits
  · exact h.created hext hnone hbudget hget

theorem IsTree.apply (h : ledger.IsTree) {operation : Operation} (hkey : operation.key.IsValid)
    (hfits : (operation.apply ledger).Completes) : (operation.apply ledger).1.IsTree := by
  have hext := apply_extends hkey hfits
  cases operation with
  | create key type => exact h.create hkey hfits
  | setBudget key budget => exact h.changeActive hext (Account.keepsPlace_setBudget budget)
  | setBalance key balance => exact h.changeActive hext (Account.keepsPlace_setBalance balance)
  | addAdjustment key adjustment =>
      exact h.changeActive hext (Account.keepsPlace_addAdjustment adjustment)
  | reportSpend key spent => exact h.changeActive hext (Account.keepsPlace_reportSpend spent)
  | close key => exact h.close hfits
  | reactivate key => exact h.reactivate hkey hfits

theorem IsTree.isComplete (h : ledger.IsTree) : ledger.IsComplete := by
  intro key hkey above habove
  obtain ⟨account, haccount⟩ := (contains_iff ledger key).mp hkey
  obtain ⟨parent, hparent, -⟩ := h.supported key account haccount above habove
  exact (contains_iff ledger above).mpr ⟨parent, hparent⟩

-- In a tree there is nothing to repair.
theorem IsTree.repair_eq (h : ledger.IsTree) : ledger.repair = (ledger, true) :=
  repair_of_isComplete h.isComplete

end Changes

section Runs

-- What can happen to a ledger: an operation on a valid key that does not overflow, whatever its
-- answer, or the search for missing ancestors.
inductive Step (ledger : Ledger) : Ledger → Prop where
  | operate (operation : Operation) (hkey : operation.key.IsValid)
      (hfits : (operation.apply ledger).Completes) : Step ledger (operation.apply ledger).1
  | repair : Step ledger ledger.repair.1

inductive Reachable : Ledger → Prop where
  | empty : Reachable empty
  | step {ledger after : Ledger} (hrun : Reachable ledger) (hstep : Step ledger after) :
      Reachable after

theorem IsTree.step {ledger after : Ledger} (h : ledger.IsTree) (hstep : Step ledger after) :
    after.IsTree := by
  cases hstep with
  | operate operation hkey hfits => exact h.apply hkey hfits
  | repair =>
      rw [h.repair_eq]
      exact h

theorem Reachable.isTree {ledger : Ledger} (hrun : Reachable ledger) : ledger.IsTree := by
  induction hrun with
  | empty => exact isTree_empty
  | step _ hstep ih => exact ih.step hstep

-- Whatever was done to it, a ledger is a tree: all that is above an account is there, as a budget
-- account, and open if the account is open.
theorem ancestors_support_accounts {ledger : Ledger} (hrun : Reachable ledger) {key : Key}
    {account : Account} (haccount : ledger.get? key = some account) :
    key.IsValid ∧ account.name = key ∧ 1 ≤ account.version ∧
      ∀ above ∈ key.ancestors, ∃ parent, ledger.get? above = some parent ∧
        parent.type = .budget ∧ (account.isActive = true → parent.isActive = true) := by
  have htree := hrun.isTree
  obtain ⟨hvalid, hname⟩ := htree.named key account haccount
  exact ⟨hvalid, hname, htree.counted key account haccount,
    htree.supported key account haccount⟩

-- A spend account below two budget accounts is closed with the one above it. Opening a missing
-- account beside it is refused and opens what is above both.
def reopened : Ledger :=
  let created := (empty.create ⟨"a:b:c"⟩ .spend).1
  let closed := (created.close ⟨"a:b"⟩).1
  ((closed.reactivate ⟨"a:b:d"⟩).1).repair.1

theorem reachable_reopened : Reachable reopened := by
  refine .step (.step (.step (.step .empty (.operate (.create ⟨"a:b:c"⟩ .spend) ?_ ?_))
    (.operate (.close ⟨"a:b"⟩) ?_ ?_)) (.operate (.reactivate ⟨"a:b:d"⟩) ?_ ?_)) .repair
  · decide
  · exact fun overflow h => by cases h
  · decide
  · exact fun overflow h => by cases h
  · decide
  · exact fun overflow h => by cases h

theorem ancestors_support_accounts_reopened :
    reopened.isActive ⟨"a:b"⟩ = true ∧ reopened.isActive ⟨"a:b:c"⟩ = false ∧
      ∃ account, reopened.get? ⟨"a:b:c"⟩ = some account ∧
        (⟨"a:b:c"⟩ : Key).IsValid ∧ account.name = ⟨"a:b:c"⟩ ∧ 1 ≤ account.version ∧
        ∃ parent, reopened.get? ⟨"a:b"⟩ = some parent ∧ parent.type = .budget := by
  have hthere : (reopened.get? ⟨"a:b:c"⟩).isSome = true := by decide +kernel
  obtain ⟨account, haccount⟩ := Option.isSome_iff_exists.mp hthere
  obtain ⟨hvalid, hname, hversion, hsupport⟩ :=
    ancestors_support_accounts reachable_reopened haccount
  obtain ⟨parent, hparent, htype, -⟩ := hsupport ⟨"a:b"⟩ (by decide)
  exact ⟨by decide +kernel, by decide +kernel, account, haccount, hvalid, hname, hversion, parent,
    hparent, htype⟩

end Runs

end Ledger

end ShardedLedger
