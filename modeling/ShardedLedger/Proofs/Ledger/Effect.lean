import ShardedLedger.Proofs.Ledger.Versions

namespace ShardedLedger

namespace Account

-- The account once it is open, or once it is closed. If it was not so before, that counts as a
-- change.
def opened (account : Account) : Account :=
  if account.isActive then account
  else { account with status := .active, version := account.version + 1 }

def shut (account : Account) : Account :=
  if account.isActive then { account with status := .closed, version := account.version + 1 }
  else account

-- A missing account is created only if it is asked for.
def openedAt (create : Bool) (key : Key) : Option Account → Option Account
  | none => if create then some (.new key .budget) else none
  | some account => some account.opened

theorem isActive_opened (account : Account) : account.opened.isActive = true := by
  unfold opened
  split
  next hactive => exact hactive
  next => rfl

theorem type_opened (account : Account) : account.opened.type = account.type := by
  unfold opened
  split <;> rfl

theorem type_shut (account : Account) : account.shut.type = account.type := by
  unfold shut
  split <;> rfl

theorem isActive_shut (account : Account) : account.shut.isActive = false := by
  unfold shut
  split
  next => rfl
  next hclosed => simpa using hclosed

theorem opened_of_isActive {account : Account} (h : account.isActive = true) :
    account.opened = account := if_pos h

theorem opened_opened (account : Account) : account.opened.opened = account.opened :=
  opened_of_isActive account.isActive_opened

theorem setStatus_eq {account after : Account} {status : AccountStatus}
    (h : account.setStatus status = (after, none)) :
    after = { account with status, version := account.version + 1 } := by
  have htouch := @touch_eq_of_snd_eq_none { account with status } (congrArg Prod.snd h)
  exact (congrArg Prod.fst h).symm.trans htouch.1

theorem opened_of_setStatus {account after : Account} (hclosed : ¬account.isActive = true)
    (h : account.setStatus .active = (after, none)) : account.opened = after := by
  rw [setStatus_eq h, opened, if_neg hclosed]

-- A change to the pools of an account: its type and its status stay.
def KeepsPlace (change : Account → Account × Option Overflow) : Prop :=
  ∀ account, (change account).1.type = account.type ∧
    (change account).1.isActive = account.isActive

theorem keepsPlace_touch (account : Account) :
    account.touch.1.type = account.type ∧ account.touch.1.isActive = account.isActive := by
  unfold touch
  split <;> exact ⟨rfl, rfl⟩

theorem keepsPlace_resync : KeepsPlace resync := by
  intro account
  unfold resync
  split
  next => exact keepsPlace_touch _
  next => exact ⟨rfl, rfl⟩

theorem keepsPlace_setBudget (budget : Pool) : KeepsPlace (setBudget budget) :=
  fun account => keepsPlace_resync { account with budget }

theorem keepsPlace_setBalance (balance : Pool) : KeepsPlace (setBalance balance) :=
  fun account => keepsPlace_resync { account with balance }

theorem keepsPlace_addAdjustment (adjustment : Pool) : KeepsPlace (addAdjustment adjustment) := by
  intro account
  unfold addAdjustment
  split
  next => exact keepsPlace_touch _
  next => exact ⟨rfl, rfl⟩

theorem keepsPlace_reportSpend (spent : Pool) : KeepsPlace (reportSpend spent) := by
  intro account
  unfold reportSpend
  split
  next => exact keepsPlace_touch _
  next => exact ⟨rfl, rfl⟩

end Account

namespace Ledger

-- What each operation that comes to its end makes of every account.

theorem get?_changeActive (ledger : Ledger) (key : Key)
    (change : Account → Account × Option Overflow) (other : Key) :
    (ledger.changeActive key change).1.get? other = (ledger.get? other).map fun account =>
      if other = key ∧ account.isActive = true then (change account).1 else account := by
  unfold changeActive
  split
  next hnone =>
    by_cases he : other = key
    · subst he
      simp [refuse, hnone]
    · simp [refuse, he]
  next account haccount =>
    split
    next hactive =>
      rw [settle_fst, get?_set]
      by_cases he : other = key
      · subst he
        simp [haccount, hactive]
      · simp [he]
    next hclosed =>
      by_cases he : other = key
      · subst he
        simp [refuse, haccount, hclosed]
      · simp [refuse, he]

theorem changeActive_eq_ok_iff {ledger : Ledger} {key : Key}
    {change : Account → Account × Option Overflow} {account : Account} :
    (ledger.changeActive key change).2 = .ok account ↔
      ∃ old, ledger.get? key = some old ∧ old.isActive = true ∧ change old = (account, none) := by
  unfold changeActive
  cases hold : ledger.get? key with
  | none => exact iff_of_false nofun fun ⟨_, h, _⟩ => nomatch h
  | some old =>
      simp only [Option.some.injEq, exists_eq_left']
      by_cases hactive : old.isActive = true
      · rw [if_pos hactive]
        rcases hchange : change old with ⟨changed, _ | overflow⟩ <;> simp [settle, stop, hactive]
      · rw [if_neg hactive]
        exact iff_of_false nofun fun h => hactive h.1

-- A key that stands in the list twice is opened once, so the second time it stays as it is.
theorem get?_openEach {create : Bool} {keys : List Key} {ledger : Ledger}
    (hfits : (openEach create keys ledger).2 = none) (other : Key) :
    (openEach create keys ledger).1.get? other =
      if other ∈ keys then Account.openedAt create other (ledger.get? other)
      else ledger.get? other := by
  fun_induction openEach create keys ledger with
  | case1 => simp
  | case2 key keys ledger hnone hcreate ih =>
      rw [ih hfits, get?_set]
      by_cases he : other = key
      · subst he
        have hnew : (Account.new other .budget).opened = .new other .budget :=
          Account.opened_of_isActive rfl
        simp [hnone, hcreate, Account.openedAt, hnew]
      · simp [he]
  | case3 key keys ledger hnone hcreate ih =>
      rw [ih hfits]
      by_cases he : other = key
      · subst he
        simp [hnone, hcreate, Account.openedAt]
      · simp [he]
  | case4 key keys ledger account haccount hactive ih =>
      rw [ih hfits]
      by_cases he : other = key
      · subst he
        simp [haccount, Account.openedAt, Account.opened_of_isActive hactive]
      · simp [he]
  | case5 key keys ledger account haccount hclosed after hafter ih =>
      rw [ih hfits, get?_set]
      by_cases he : other = key
      · subst he
        have hopened := Account.opened_of_setStatus hclosed hafter
        simp [haccount, Account.openedAt, ← hopened, Account.opened_opened]
      · simp [he]
  | case6 => simp at hfits

-- Whether the account is there or not, what contains its key is open in the end.
theorem get?_reactivate {ledger : Ledger} {key : Key}
    (hfits : (ledger.reactivate key).Completes) (other : Key) :
    (ledger.reactivate key).1.get? other =
      if other.contains key = true then (ledger.get? other).map Account.opened
      else ledger.get? other := by
  have hopenedAt (found : Option Account) :
      Account.openedAt false other found = found.map Account.opened := by cases found <;> rfl
  have hcontains : other.contains key = true ↔ other = key ∨ other ∈ key.ancestors :=
    Key.contains_iff other key
  unfold reactivate at hfits ⊢
  split
  next after overflow hopen =>
    rw [hopen] at hfits
    exact absurd hfits (not_completes_stop _ _)
  next after hopen =>
    have hget := get?_openEach (congrArg Prod.snd hopen)
    rw [hopen] at hget hfits
    have hkey : after.get? key = ledger.get? key := by
      rw [hget, if_neg key.not_mem_ancestors]
    have hother : after.get? other =
        if other ∈ key.ancestors then (ledger.get? other).map Account.opened
        else ledger.get? other := by
      rw [hget, hopenedAt]
    have hrest (hne : other ≠ key) : after.get? other =
        if other.contains key = true then (ledger.get? other).map Account.opened
        else ledger.get? other := by
      rw [hother, if_congr (hcontains.trans (or_iff_right hne)) rfl rfl]
    split
    next hnone =>
      by_cases he : other = key
      · subst he
        simp [refuse, hnone, ← hkey]
      · exact hrest he
    next account haccount =>
      split
      next hactive =>
        by_cases he : other = key
        · subst he
          simp [haccount, ← hkey, Account.opened_of_isActive hactive]
        · exact hrest he
      next hclosed =>
        simp only [haccount, hclosed, Bool.false_eq_true, ite_false] at hfits
        rw [settle_fst, get?_set]
        by_cases he : other = key
        · subst he
          rcases hset : account.setStatus .active with ⟨opened, _ | overflow⟩
          · simp [hcontains, ← hkey, haccount, Account.opened_of_setStatus hclosed hset]
          · rw [hset] at hfits
            exact absurd hfits (not_completes_stop _ _)
        · rw [if_neg he]
          exact hrest he

theorem get?_close {ledger : Ledger} {key : Key} (hkey : ledger.contains key = true)
    (hfits : (ledger.close key).Completes) (other : Key) :
    (ledger.close key).1.get? other =
      if key.contains other = true then (ledger.get? other).map Account.shut
      else ledger.get? other := by
  rcases close_cases hkey with ⟨accounts, overflow, -, hstop⟩ | ⟨accounts, account, hvisit, -, hclose⟩
  · rw [hstop] at hfits
    exact absurd hfits (not_completes_stop _ _)
  · have hend : (ledger.accounts.visit (closeWithin key)).2 = none := congrArg Prod.snd hvisit
    have hget := SortedMap.get?_visit (closeWithin key) ledger.accounts hend other
    have hchange := SortedMap.change_snd_of_visit (closeWithin key) ledger.accounts hend other
    have hafter : get? ⟨accounts⟩ other =
        (ledger.get? other).map fun account => (closeWithin key other account).1 := by
      rw [hvisit] at hget
      exact hget
    rw [hclose, hafter]
    cases hold : ledger.get? other with
    | none => simp
    | some account =>
        have hfit := hchange account hold
        unfold closeWithin at hfit ⊢
        by_cases hcontains : key.contains other = true
        · by_cases hactive : account.isActive = true
          · simp only [hcontains, hactive, Bool.and_self, ite_true] at hfit ⊢
            have hset := Account.setStatus_eq (Prod.ext rfl hfit)
            simp [hset, Account.shut, hactive]
          · simp [hcontains, hactive, Account.shut]
        · simp [hcontains]

-- Neither adds an account, also if an overflow stops it.
theorem contains_changeActive {ledger : Ledger} {key other : Key}
    {change : Account → Account × Option Overflow}
    (h : (ledger.changeActive key change).1.contains other = true) :
    ledger.contains other = true := by
  obtain ⟨after, hafter⟩ := (contains_iff _ _).mp h
  rw [get?_changeActive] at hafter
  obtain ⟨account, haccount, -⟩ := Option.map_eq_some_iff.mp hafter
  exact (contains_iff _ _).mpr ⟨account, haccount⟩

theorem contains_close {ledger : Ledger} {key other : Key}
    (h : (ledger.close key).1.contains other = true) : ledger.contains other = true := by
  obtain ⟨after, hafter⟩ := (contains_iff _ _).mp h
  rcases ledger.get?_close_cases key other with hsame | hchanged
  · exact (contains_iff _ _).mpr ⟨after, hsame.symm.trans hafter⟩
  · obtain ⟨account, haccount, -⟩ := Option.map_eq_some_iff.mp (hchanged.symm.trans hafter)
    exact (contains_iff _ _).mpr ⟨account, haccount⟩

-- A creation leaves the ledger as it is, opens a closed account, or opens what is above a missing
-- one before it makes that.
theorem create_steps {ledger : Ledger} {key : Key} {type : AccountType}
    (hfits : (ledger.create key type).Completes) :
    (ledger.create key type).1 = ledger ∨ ledger.create key type = ledger.reactivate key ∨
      ledger.get? key = none ∧ ledger.spendAncestor? key = none ∧
        ∃ opened, openEach true key.ancestors ledger = (opened, none) ∧
          (ledger.create key type).1 = opened.set key (.new key type) := by
  unfold create at hfits ⊢
  split
  next account haccount =>
    split
    next => exact .inr (.inl rfl)
    next => split <;> exact .inl rfl
  next hnone =>
    simp only [hnone] at hfits
    split
    next => exact .inl rfl
    next hspend =>
      simp only [hspend] at hfits
      split
      next opened overflow hopen =>
        rw [hopen] at hfits
        exact absurd hfits (not_completes_stop _ _)
      next opened hopen => exact .inr (.inr ⟨hnone, hspend, opened, hopen, rfl⟩)

-- What a creation makes of every account. A new one comes with all that is missing above it.
theorem create_cases {ledger : Ledger} {key : Key} {type : AccountType}
    (hfits : (ledger.create key type).Completes) :
    (ledger.create key type).1 = ledger ∨ ledger.create key type = ledger.reactivate key ∨
      ledger.get? key = none ∧
        (∀ above ∈ key.ancestors, ∀ account, ledger.get? above = some account →
          account.type = .budget) ∧
        ∀ other, (ledger.create key type).1.get? other =
          if other = key then some (.new key type)
          else if other ∈ key.ancestors then Account.openedAt true other (ledger.get? other)
          else ledger.get? other := by
  rcases create_steps hfits with hsame | hopened | ⟨hnone, hspend, opened, hopen, hafter⟩
  · exact .inl hsame
  · exact .inr (.inl hopened)
  · refine .inr (.inr ⟨hnone, fun above habove account haccount => ?_, fun other => ?_⟩)
    · have hnot := List.find?_eq_none.mp hspend above habove
      rw [haccount] at hnot
      cases htype : account.type with
      | budget => rfl
      | spend => simp [htype] at hnot
    · have hget := get?_openEach (congrArg Prod.snd hopen) other
      rw [hopen] at hget
      rw [hafter, get?_set, hget]

section Opening

-- The operations that may open an account: they create or reactivate it or one below it.
def Operation.mayOpen (key : Key) : Operation → Bool
  | .create other _ => key.contains other
  | .reactivate other => key.contains other
  | _ => false

variable (ledger : Ledger) {key other : Key}

theorem get?_openAncestors (h : key.contains other = false) (create : Bool) :
    (openEach create other.ancestors ledger).1.get? key = ledger.get? key :=
  get?_openEach_of_notMem create other.ancestors ledger key
    ((Key.contains_eq_false_iff key other).mp h).2

-- An account that does not contain the key is left alone, also if an overflow stops the operation.
theorem get?_reactivate_of_not_contains (h : key.contains other = false) :
    (ledger.reactivate other).1.get? key = ledger.get? key := by
  have hopened := ledger.get?_openAncestors h false
  have hne := ((Key.contains_eq_false_iff key other).mp h).1
  unfold reactivate
  split
  next after overflow hopen => exact (congrArg (·.1.get? key) hopen).symm.trans hopened
  next after hopen =>
    rw [hopen] at hopened
    split
    next => exact hopened
    next account haccount =>
      split
      next => exact hopened
      next => rw [settle_fst, get?_set, if_neg hne, hopened]

theorem get?_create_of_not_contains (h : key.contains other = false) (type : AccountType) :
    (ledger.create other type).1.get? key = ledger.get? key := by
  have hopened := ledger.get?_openAncestors h true
  have hne := ((Key.contains_eq_false_iff key other).mp h).1
  unfold create
  split
  next account haccount =>
    split
    next => exact ledger.get?_reactivate_of_not_contains h
    next => split <;> rfl
  next hnone =>
    split
    next => rfl
    next hspend =>
      split
      next after overflow hopen => exact (congrArg (·.1.get? key) hopen).symm.trans hopened
      next after hopen =>
        rw [hopen] at hopened
        rw [get?_set, if_neg hne, hopened]

variable {ledger}

theorem isActive_changeActive {change : Account → Account × Option Overflow}
    (hchange : Account.KeepsPlace change) :
    (ledger.changeActive other change).1.isActive key = ledger.isActive key := by
  unfold isActive
  rw [get?_changeActive, Option.any_map]
  refine congrArg (Option.any · _) (funext fun account => ?_)
  by_cases h : key = other ∧ account.isActive = true
  · simp only [if_pos h, (hchange account).2]
  · simp only [if_neg h]

theorem isActive_closeWithin (account : Account)
    (h : (closeWithin other key account).1.isActive = true) : account.isActive = true := by
  unfold closeWithin at h
  split at h
  next hboth => exact (Bool.and_eq_true_iff.mp hboth).2
  next => exact h

theorem isActive_close (h : (ledger.close other).1.isActive key = true) :
    ledger.isActive key = true := by
  unfold isActive at h ⊢
  rcases ledger.get?_close_cases other key with hsame | hchanged
  · rwa [hsame] at h
  · rw [hchanged, Option.any_map] at h
    cases hold : ledger.get? key with
    | none => simp [hold] at h
    | some account =>
        rw [hold] at h
        exact isActive_closeWithin account h

-- None of the others opens an account.
theorem isActive_of_apply {operation : Operation} (hnot : operation.mayOpen key = false)
    (h : (operation.apply ledger).1.isActive key = true) : ledger.isActive key = true := by
  cases operation with
  | create other type =>
      have hget := ledger.get?_create_of_not_contains hnot type
      exact (congrArg (Option.any _) hget).symm.trans h
  | setBudget other budget =>
      exact (isActive_changeActive (Account.keepsPlace_setBudget budget)).symm.trans h
  | setBalance other balance =>
      exact (isActive_changeActive (Account.keepsPlace_setBalance balance)).symm.trans h
  | addAdjustment other adjustment =>
      exact (isActive_changeActive (Account.keepsPlace_addAdjustment adjustment)).symm.trans h
  | reportSpend other spent =>
      exact (isActive_changeActive (Account.keepsPlace_reportSpend spent)).symm.trans h
  | close other => exact isActive_close h
  | reactivate other =>
      have hget := ledger.get?_reactivate_of_not_contains hnot
      exact (congrArg (Option.any _) hget).symm.trans h

end Opening

end Ledger

end ShardedLedger
