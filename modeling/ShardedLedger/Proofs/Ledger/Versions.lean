import ShardedLedger.Proofs.Ledger.Evolution

namespace ShardedLedger

namespace Account

-- However a change ends, it counts once at most.
def CountsOnce (change : Account → Account × Option Overflow) : Prop :=
  ∀ account, (change account).1.version.toNat ≤ account.version.toNat + 1

theorem version_touch_le (account : Account) :
    account.touch.1.version.toNat ≤ account.version.toNat + 1 := by
  unfold touch
  split
  · simp only [UInt64.toNat_add, UInt64.toNat_one]
    omega
  · simp

theorem countsOnce_setStatus (status : AccountStatus) : CountsOnce (setStatus status) :=
  fun account => version_touch_le { account with status }

theorem countsOnce_resync : CountsOnce resync := by
  intro account
  unfold resync
  split
  · exact version_touch_le _
  · simp

theorem countsOnce_setBudget (budget : Pool) : CountsOnce (setBudget budget) :=
  fun account => countsOnce_resync { account with budget }

theorem countsOnce_setBalance (balance : Pool) : CountsOnce (setBalance balance) :=
  fun account => countsOnce_resync { account with balance }

theorem countsOnce_addAdjustment (adjustment : Pool) : CountsOnce (addAdjustment adjustment) := by
  intro account
  unfold addAdjustment
  split
  · exact version_touch_le _
  · simp

theorem countsOnce_reportSpend (spent : Pool) : CountsOnce (reportSpend spent) := by
  intro account
  unfold reportSpend
  split
  · exact version_touch_le _
  · simp

end Account

namespace Ledger

-- The version of the account, zero where there is none.
def versionAt (ledger : Ledger) (key : Key) : Nat :=
  (ledger.get? key).elim 0 fun account => account.version.toNat

theorem versionAt_of_some {ledger : Ledger} {key : Key} {account : Account}
    (h : ledger.get? key = some account) : ledger.versionAt key = account.version.toNat := by
  rw [versionAt, h, Option.elim_some]

theorem versionAt_set (ledger : Ledger) (key other : Key) (account : Account) :
    (ledger.set key account).versionAt other =
      if other = key then account.version.toNat else ledger.versionAt other := by
  unfold versionAt
  rw [get?_set]
  split <;> rfl

theorem settle_fst (ledger : Ledger) (key : Key) (changed : Account × Option Overflow) :
    (ledger.settle key changed).1 = ledger.set key changed.1 := by
  rcases changed with ⟨account, _ | overflow⟩ <;> rfl

theorem versionAt_settle_le {ledger : Ledger} {key : Key} {account : Account}
    {change : Account → Account × Option Overflow} (h : ledger.get? key = some account)
    (honce : Account.CountsOnce change) (other : Key) :
    (ledger.settle key (change account)).1.versionAt other ≤ ledger.versionAt other + 1 := by
  rw [settle_fst, versionAt_set]
  split
  next he =>
    rw [he, versionAt_of_some h]
    exact honce account
  next => omega

theorem versionAt_changeActive_le (ledger : Ledger) (key : Key)
    {change : Account → Account × Option Overflow} (honce : Account.CountsOnce change)
    (other : Key) : (ledger.changeActive key change).1.versionAt other ≤
      ledger.versionAt other + 1 := by
  unfold changeActive
  split
  next => exact Nat.le_succ _
  next account haccount =>
    split
    next => exact versionAt_settle_le haccount honce other
    next => exact Nat.le_succ _

theorem versionAt_openEach_of_notMem (create : Bool) (keys : List Key) (ledger : Ledger)
    {key : Key} (hkey : key ∉ keys) :
    (openEach create keys ledger).1.versionAt key = ledger.versionAt key := by
  rw [versionAt, get?_openEach_of_notMem create keys ledger key hkey, versionAt]

-- No key stands twice in the list, so what was opened is not opened again.
theorem versionAt_openEach_le (create : Bool) (keys : List Key) (ledger : Ledger)
    (hnodup : keys.Nodup) (other : Key) :
    (openEach create keys ledger).1.versionAt other ≤ ledger.versionAt other + 1 := by
  have hset {key : Key} {keys : List Key} {ledger : Ledger} {account : Account}
      (hkey : key ∉ keys) (hversion : account.version.toNat ≤ ledger.versionAt key + 1)
      (ih : (openEach create keys (ledger.set key account)).1.versionAt other ≤
        (ledger.set key account).versionAt other + 1) :
      (openEach create keys (ledger.set key account)).1.versionAt other ≤
        ledger.versionAt other + 1 := by
    by_cases he : other = key
    · subst he
      rw [versionAt_openEach_of_notMem create keys _ hkey, versionAt_set, if_pos rfl]
      exact hversion
    · rwa [versionAt_set ledger key other, if_neg he] at ih
  fun_induction openEach create keys ledger with
  | case1 => exact Nat.le_succ _
  | case2 key keys ledger hnone _ ih =>
      obtain ⟨hkey, hrest⟩ := List.nodup_cons.mp hnodup
      exact hset hkey (Nat.le_add_left _ _) (ih hrest)
  | case3 key keys ledger _ _ ih => exact ih (List.nodup_cons.mp hnodup).2
  | case4 key keys ledger _ _ _ ih => exact ih (List.nodup_cons.mp hnodup).2
  | case5 key keys ledger account haccount _ opened hopened ih =>
      obtain ⟨hkey, hrest⟩ := List.nodup_cons.mp hnodup
      have honce := Account.countsOnce_setStatus .active account
      rw [hopened, ← versionAt_of_some haccount] at honce
      exact hset hkey honce (ih hrest)
  | case6 key keys ledger account haccount _ stopped overflow hstopped =>
      have honce := Account.countsOnce_setStatus .active account
      rw [hstopped, ← versionAt_of_some haccount] at honce
      rw [versionAt_set]
      split
      next he => exact he ▸ honce
      next => exact Nat.le_succ _

theorem versionAt_openAncestors_le {create : Bool} {ledger opened : Ledger} {key : Key}
    {stopped : Option Overflow} (h : openEach create key.ancestors ledger = (opened, stopped))
    (other : Key) : opened.versionAt other ≤ ledger.versionAt other + 1 ∧
      opened.get? key = ledger.get? key := by
  have hother := versionAt_openEach_le create key.ancestors ledger key.nodup_ancestors other
  have hkey := get?_openEach_of_notMem create key.ancestors ledger key key.not_mem_ancestors
  rw [h] at hother hkey
  exact ⟨hother, hkey⟩

-- The account itself is not among those that were opened above it.
theorem versionAt_set_opened_le {create : Bool} {ledger opened : Ledger} {key : Key}
    {account : Account} (h : openEach create key.ancestors ledger = (opened, none))
    (hversion : account.version.toNat ≤ ledger.versionAt key + 1) (other : Key) :
    (opened.set key account).versionAt other ≤ ledger.versionAt other + 1 := by
  rw [versionAt_set]
  split
  next he => exact he ▸ hversion
  next => exact (versionAt_openAncestors_le h other).1

theorem versionAt_reactivate_le (ledger : Ledger) (key other : Key) :
    (ledger.reactivate key).1.versionAt other ≤ ledger.versionAt other + 1 := by
  unfold reactivate
  split
  next opened overflow hopened => exact (versionAt_openAncestors_le hopened other).1
  next opened hopened =>
    obtain ⟨hother, hkey⟩ := versionAt_openAncestors_le hopened other
    split
    next => exact hother
    next account haccount =>
      split
      next => exact hother
      next =>
        have honce := Account.countsOnce_setStatus .active account
        rw [hkey] at haccount
        rw [← versionAt_of_some haccount] at honce
        rw [settle_fst]
        exact versionAt_set_opened_le hopened honce other

theorem versionAt_create_le (ledger : Ledger) (key : Key) (type : AccountType) (other : Key) :
    (ledger.create key type).1.versionAt other ≤ ledger.versionAt other + 1 := by
  unfold create
  split
  next =>
    split
    next => exact versionAt_reactivate_le ledger key other
    next => split <;> exact Nat.le_succ _
  next =>
    split
    next => exact Nat.le_succ _
    next =>
      split
      next opened overflow hopened => exact (versionAt_openAncestors_le hopened other).1
      next opened hopened => exact versionAt_set_opened_le hopened (Nat.le_add_left _ _) other

theorem versionAt_close_le (ledger : Ledger) (key other : Key) :
    (ledger.close key).1.versionAt other ≤ ledger.versionAt other + 1 := by
  have hclosed (account : Account) :
      (closeWithin key other account).1.version.toNat ≤ account.version.toNat + 1 := by
    unfold closeWithin
    split
    · exact Account.countsOnce_setStatus .closed account
    · simp
  rcases ledger.get?_close_cases key other with hkept | hchanged
  · rw [versionAt, hkept]
    exact Nat.le_succ _
  · rw [versionAt, hchanged, versionAt]
    cases ledger.get? other with
    | none => simp
    | some account => exact hclosed account

-- No operation changes an account more than once, also if it stops halfway.
theorem versionAt_apply_le (ledger : Ledger) (operation : Operation) (other : Key) :
    (operation.apply ledger).1.versionAt other ≤ ledger.versionAt other + 1 := by
  cases operation with
  | create key type => exact versionAt_create_le ledger key type other
  | setBudget key budget =>
      exact versionAt_changeActive_le ledger key (Account.countsOnce_setBudget budget) other
  | setBalance key balance =>
      exact versionAt_changeActive_le ledger key (Account.countsOnce_setBalance balance) other
  | addAdjustment key adjustment =>
      exact versionAt_changeActive_le ledger key (Account.countsOnce_addAdjustment adjustment) other
  | reportSpend key spent =>
      exact versionAt_changeActive_le ledger key (Account.countsOnce_reportSpend spent) other
  | close key => exact versionAt_close_le ledger key other
  | reactivate key => exact versionAt_reactivate_le ledger key other

end Ledger

end ShardedLedger
