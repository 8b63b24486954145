import ShardedLedger.Proofs.Ledger.Effect
import ShardedLedger.Proofs.Ledger.Repair

namespace ShardedLedger

namespace Account

section Changes

variable {account after : Account} {change : Account → Account × Option Overflow}

-- A change that comes to its end counts exactly once.
theorem version_eq_succ (hraises : Raises change) (honce : CountsOnce change)
    (h : change account = (after, none)) :
    after.version.toNat = account.version.toNat + 1 := by
  have hchanged : (change account).1 = after := congrArg Prod.fst h
  have hraised := (hraises account (congrArg Prod.snd h)).1
  have hcounted := honce account
  rw [hchanged] at hraised hcounted
  have hlt := UInt64.lt_iff_toNat_lt.mp hraised
  omega

theorem eq_of_touch (h : account.touch = (after, none)) :
    after = { account with version := after.version } := by
  have htouch := (touch_eq_of_snd_eq_none (congrArg Prod.snd h)).1
  obtain rfl := (congrArg Prod.fst h).symm.trans htouch
  rfl

theorem eq_of_resync (h : account.resync = (after, none)) :
    after = { account with outOfSync := after.outOfSync, version := after.version } := by
  unfold resync at h
  split at h
  next =>
    have htouch := eq_of_touch h
    rw [htouch]
  next => cases h

section Edits

variable {pool : Pool}

theorem eq_of_setBudget (h : account.setBudget pool = (after, none)) :
    after = { account with
      budget := pool, outOfSync := after.outOfSync, version := after.version } :=
  eq_of_resync h

theorem eq_of_setBalance (h : account.setBalance pool = (after, none)) :
    after = { account with
      balance := pool, outOfSync := after.outOfSync, version := after.version } :=
  eq_of_resync h

theorem eq_of_addAdjustment (h : account.addAdjustment pool = (after, none)) :
    after = { account with adjustments := after.adjustments, version := after.version } := by
  unfold addAdjustment at h
  split at h
  next =>
    have htouch := eq_of_touch h
    rw [htouch]
  next => cases h

theorem eq_of_reportSpend (h : account.reportSpend pool = (after, none)) :
    after = { account with
      spent := pool, outOfSync := after.outOfSync, version := after.version } := by
  unfold reportSpend at h
  split at h
  next =>
    have htouch := eq_of_touch h
    rw [htouch]
  next => cases h

end Edits

theorem eq_of_setStatus {status : AccountStatus} (h : account.setStatus status = (after, none)) :
    after = { account with status, version := after.version } :=
  eq_of_touch h

-- An account that there was room to open is open already or has been opened as its next version.
theorem opened_cases (hfits : account.isActive = false → (account.setStatus .active).2 = none) :
    account.opened = account ∨ account.opened.version.toNat = account.version.toNat + 1 ∧
      account.isActive = false ∧
      account.opened = { account with status := .active, version := account.opened.version } := by
  cases hactive : account.isActive with
  | true => exact .inl (opened_of_isActive hactive)
  | false =>
      have hset : account.setStatus .active = (account.opened, none) := by
        rw [opened_of_setStatus (by simp [hactive]) (Prod.ext rfl (hfits hactive))]
        exact Prod.ext rfl (hfits hactive)
      exact .inr ⟨version_eq_succ (raises_setStatus .active) (countsOnce_setStatus .active) hset,
        rfl, eq_of_setStatus hset⟩

end Changes

end Account

namespace Ledger

-- What may become of a ledger: no account is lost, each stays as it is or becomes its next version
-- by such an edit, and there are no others but those that may be added.
structure Moves (edits : Key → Account → Account → Prop) (adds : Key → Account → Prop)
    (before after : Ledger) : Prop where
  kept : ∀ key old, before.get? key = some old → ∃ new, after.get? key = some new ∧
    (new = old ∨ new.version.toNat = old.version.toNat + 1 ∧ edits key old new)
  added : ∀ key new, before.get? key = none → after.get? key = some new → adds key new

section Moves

variable {edits : Key → Account → Account → Prop} {adds : Key → Account → Prop}
  {ledger after : Ledger}

theorem Moves.refl (ledger : Ledger) : ledger.Moves edits adds ledger where
  kept _ old hold := ⟨old, hold, .inl rfl⟩
  added _ new hnone hnew := by
    rw [hnone] at hnew
    cases hnew

theorem Moves.of_map (change : Key → Account → Account)
    (hget : ∀ key, after.get? key = (ledger.get? key).map (change key))
    (hchange : ∀ key old, ledger.get? key = some old → change key old = old ∨
      (change key old).version.toNat = old.version.toNat + 1 ∧ edits key old (change key old)) :
    ledger.Moves edits adds after where
  kept key old hold := ⟨change key old, by rw [hget, hold, Option.map_some], hchange key old hold⟩
  added key new hnone hnew := by
    rw [hget, hnone] at hnew
    cases hnew

end Moves

section Room

-- What an operation that came to its end has changed had room for another version.

variable {ledger : Ledger} {key other : Key} {account : Account}

theorem change_snd_of_changeActive {change : Account → Account × Option Overflow}
    (hfits : (ledger.changeActive key change).Completes) (haccount : ledger.get? key = some account)
    (hactive : account.isActive = true) : (change account).2 = none := by
  simp only [changeActive, haccount, hactive, ite_true] at hfits
  rcases hchange : change account with ⟨changed, _ | overflow⟩
  · rfl
  · rw [hchange] at hfits
    exact absurd hfits (not_completes_stop _ _)

-- By induction on the keys that are left: the account is as it was until its own key comes.
theorem setStatus_snd_of_openEach {create : Bool} {keys : List Key}
    (hfits : (openEach create keys ledger).2 = none) (hmem : other ∈ keys)
    (haccount : ledger.get? other = some account) (hclosed : account.isActive = false) :
    (account.setStatus .active).2 = none := by
  fun_induction openEach create keys ledger with
  | case1 => cases hmem
  | case2 first keys ledger hnone _ ih =>
      have hne := ne_of_get?_eq_none hnone haccount
      exact ih hfits (List.mem_of_ne_of_mem hne hmem) (by rw [get?_set, if_neg hne, haccount])
  | case3 first keys ledger hnone _ ih =>
      have hne := ne_of_get?_eq_none hnone haccount
      exact ih hfits (List.mem_of_ne_of_mem hne hmem) haccount
  | case4 first keys ledger found hfound hactive ih =>
      have hne : other ≠ first := by
        rintro rfl
        rw [hfound, Option.some.injEq] at haccount
        rw [haccount, hclosed] at hactive
        cases hactive
      exact ih hfits (List.mem_of_ne_of_mem hne hmem) haccount
  | case5 first keys ledger found hfound _ opened hopened ih =>
      by_cases he : other = first
      · rw [he, hfound, Option.some.injEq] at haccount
        rw [← haccount, hopened]
      · exact ih hfits (List.mem_of_ne_of_mem he hmem) (by rw [get?_set, if_neg he, haccount])
  | case6 => cases hfits

theorem setStatus_snd_of_reactivate (hfits : (ledger.reactivate key).Completes)
    (hcontains : other.contains key = true) (haccount : ledger.get? other = some account)
    (hclosed : account.isActive = false) : (account.setStatus .active).2 = none := by
  unfold reactivate at hfits
  split at hfits
  next => exact absurd hfits (not_completes_stop _ _)
  next opened hopen =>
    rcases (Key.contains_iff other key).mp hcontains with rfl | habove
    · have hkept := get?_openEach_of_notMem false other.ancestors ledger other
        other.not_mem_ancestors
      rw [hopen, haccount] at hkept
      simp only [hkept, hclosed, Bool.false_eq_true, ite_false] at hfits
      rcases hset : account.setStatus .active with ⟨changed, _ | overflow⟩
      · rfl
      · rw [hset] at hfits
        exact absurd hfits (not_completes_stop _ _)
    · exact setStatus_snd_of_openEach (congrArg Prod.snd hopen) habove haccount hclosed

theorem setStatus_snd_of_close (hkey : ledger.contains key = true)
    (hfits : (ledger.close key).Completes) (hcontains : key.contains other = true)
    (haccount : ledger.get? other = some account) (hactive : account.isActive = true) :
    (account.setStatus .closed).2 = none := by
  rcases close_cases hkey with ⟨accounts, overflow, -, hstop⟩ | ⟨accounts, _, hvisit, -, -⟩
  · rw [hstop] at hfits
    exact absurd hfits (not_completes_stop _ _)
  · have hchange := SortedMap.change_snd_of_visit (closeWithin key) ledger.accounts
      (congrArg Prod.snd hvisit) other account haccount
    rwa [closeWithin, hcontains, hactive, Bool.and_self, if_pos rfl] at hchange

end Room

-- Which accounts an operation may change, and what of them besides the version.
def Operation.Edits (operation : Operation) (key : Key) (old new : Account) : Prop :=
  match operation with
  | .create other _ | .reactivate other =>
      key.contains other = true ∧ old.isActive = false ∧
        new = { old with status := .active, version := new.version }
  | .close other =>
      other.contains key = true ∧ old.isActive = true ∧
        new = { old with status := .closed, version := new.version }
  | .setBudget other budget =>
      key = other ∧ old.isActive = true ∧
        new = { old with budget, outOfSync := new.outOfSync, version := new.version }
  | .setBalance other balance =>
      key = other ∧ old.isActive = true ∧
        new = { old with balance, outOfSync := new.outOfSync, version := new.version }
  | .addAdjustment other _ =>
      key = other ∧ old.isActive = true ∧
        new = { old with adjustments := new.adjustments, version := new.version }
  | .reportSpend other spent =>
      key = other ∧ old.isActive = true ∧
        new = { old with spent, outOfSync := new.outOfSync, version := new.version }

-- Which accounts an operation may add.
def Operation.Adds (operation : Operation) (key : Key) (new : Account) : Prop :=
  match operation with
  | .create other type =>
      key = other ∧ new = .new key type ∨ key ∈ other.ancestors ∧ new = .new key .budget
  | _ => False

-- The repair of a ledger adds what is missing above an account.
def Restores (ledger : Ledger) (key : Key) (new : Account) : Prop :=
  (∃ below, ledger.contains below = true ∧ key ∈ below.ancestors) ∧ new = .placeholder key

section Operations

variable {ledger : Ledger} {key : Key} {edits : Key → Account → Account → Prop}
  {adds : Key → Account → Prop}

theorem moves_changeActive {change : Account → Account × Option Overflow}
    (hraises : Account.Raises change) (honce : Account.CountsOnce change)
    (hedits : ∀ old new, old.isActive = true → change old = (new, none) → edits key old new)
    (hfits : (ledger.changeActive key change).Completes) :
    ledger.Moves edits adds (ledger.changeActive key change).1 := by
  refine .of_map (fun other account =>
    if other = key ∧ account.isActive = true then (change account).1 else account)
    (get?_changeActive ledger key change) fun other old hold => ?_
  split
  next hchanged =>
    obtain ⟨rfl, hactive⟩ := hchanged
    have hroom := change_snd_of_changeActive hfits hold hactive
    have hchange : change old = ((change old).1, none) := Prod.ext rfl hroom
    exact .inr ⟨Account.version_eq_succ hraises honce hchange, hedits old _ hactive hchange⟩
  next => exact .inl rfl

theorem moves_reactivate
    (hedits : ∀ other old new, other.contains key = true → old.isActive = false →
      new = { old with status := .active, version := new.version } → edits other old new)
    (hfits : (ledger.reactivate key).Completes) :
    ledger.Moves edits adds (ledger.reactivate key).1 := by
  refine .of_map (fun other account =>
    if other.contains key = true then account.opened else account) (fun other => ?_)
    fun other old hold => ?_
  · rw [get?_reactivate hfits]
    by_cases hcontains : other.contains key = true <;> simp [hcontains]
  · split
    next hcontains =>
      rcases Account.opened_cases (setStatus_snd_of_reactivate hfits hcontains hold) with
        hsame | ⟨hversion, hclosed, hopened⟩
      · exact .inl hsame
      · exact .inr ⟨hversion, hedits other old _ hcontains hclosed hopened⟩
    next => exact .inl rfl

theorem moves_close
    (hedits : ∀ other old new, key.contains other = true → old.isActive = true →
      new = { old with status := .closed, version := new.version } → edits other old new)
    (hfits : (ledger.close key).Completes) : ledger.Moves edits adds (ledger.close key).1 := by
  by_cases hkey : ledger.contains key = true
  · refine .of_map (fun other account =>
      if key.contains other = true then account.shut else account) (fun other => ?_)
      fun other old hold => ?_
    · rw [get?_close hkey hfits]
      by_cases hcontains : key.contains other = true <;> simp [hcontains]
    · split
      next hcontains =>
        rw [Account.shut]
        split
        next hactive =>
          have hroom := setStatus_snd_of_close hkey hfits hcontains hold hactive
          have hset : old.setStatus .closed = ((old.setStatus .closed).1, none) :=
            Prod.ext rfl hroom
          rw [← Account.setStatus_eq hset]
          exact .inr ⟨Account.version_eq_succ (Account.raises_setStatus .closed)
            (Account.countsOnce_setStatus .closed) hset,
            hedits other old _ hcontains hactive (Account.eq_of_setStatus hset)⟩
        next => exact .inl rfl
      next => exact .inl rfl
  · rw [close_of_not_contains hkey]
    exact .refl ledger

theorem moves_create {type : AccountType}
    (hedits : ∀ other old new, other.contains key = true → old.isActive = false →
      new = { old with status := .active, version := new.version } → edits other old new)
    (hadds : ∀ other new, other = key ∧ new = .new other type ∨
      other ∈ key.ancestors ∧ new = .new other .budget → adds other new)
    (hfits : (ledger.create key type).Completes) :
    ledger.Moves edits adds (ledger.create key type).1 := by
  rcases create_steps hfits with hsame | hopened | ⟨hnone, -, opened, hopen, hafter⟩
  · rw [hsame]
    exact .refl ledger
  · rw [hopened] at hfits ⊢
    exact moves_reactivate hedits hfits
  · have hend : (openEach true key.ancestors ledger).2 = none := congrArg Prod.snd hopen
    have hget (other : Key) : (ledger.create key type).1.get? other =
        if other = key then some (.new key type)
        else if other ∈ key.ancestors then Account.openedAt true other (ledger.get? other)
        else ledger.get? other := by
      rw [hafter, get?_set, ← get?_openEach hend other, hopen]
    refine ⟨fun other old hold => ?_, fun other new hmissing hnew => ?_⟩
    · have hne := ne_of_get?_eq_none hnone hold
      rw [hget, if_neg hne, hold]
      by_cases habove : other ∈ key.ancestors
      · rw [if_pos habove]
        refine ⟨old.opened, rfl, ?_⟩
        have hcontains := (Key.contains_iff other key).mpr (.inr habove)
        rcases Account.opened_cases (setStatus_snd_of_openEach hend habove hold) with
          hsame | ⟨hversion, hclosed, hstatus⟩
        · exact .inl hsame
        · exact .inr ⟨hversion, hedits other old _ hcontains hclosed hstatus⟩
      · rw [if_neg habove]
        exact ⟨old, rfl, .inl rfl⟩
    · rw [hget, hmissing] at hnew
      split at hnew
      next he =>
        obtain rfl := Option.some.inj hnew
        exact hadds other _ (.inl ⟨he, he ▸ rfl⟩)
      next =>
        split at hnew
        next habove => exact hadds other new (.inr ⟨habove, (Option.some.inj hnew).symm⟩)
        next => cases hnew

theorem moves_repair (ledger : Ledger) :
    ledger.Moves (fun _ _ _ => False) ledger.Restores ledger.repair.1 where
  kept key old hold := ⟨old, get?_repair_of_some hold, .inl rfl⟩
  added key new hnone hnew := by
    rw [get?_repair] at hnew
    split at hnew
    next hmissing =>
      obtain ⟨-, below, account, hbelow, hmem⟩ := (mem_missingAncestors_iff ledger key).mp hmissing
      exact ⟨⟨below, (contains_iff _ _).mpr ⟨account, hbelow⟩, hmem⟩, (Option.some.inj hnew).symm⟩
    next =>
      rw [hnone] at hnew
      cases hnew

theorem moves_apply (operation : Operation) (hfits : (operation.apply ledger).Completes) :
    ledger.Moves operation.Edits operation.Adds (operation.apply ledger).1 := by
  cases operation with
  | create key type =>
      exact moves_create (fun _ _ _ hcontains hclosed hnew => ⟨hcontains, hclosed, hnew⟩)
        (fun _ _ hnew => hnew) hfits
  | setBudget key budget =>
      exact moves_changeActive (Account.raises_setBudget budget)
        (Account.countsOnce_setBudget budget)
        (fun _ _ hactive hset => ⟨rfl, hactive, Account.eq_of_setBudget hset⟩) hfits
  | setBalance key balance =>
      exact moves_changeActive (Account.raises_setBalance balance)
        (Account.countsOnce_setBalance balance)
        (fun _ _ hactive hset => ⟨rfl, hactive, Account.eq_of_setBalance hset⟩) hfits
  | addAdjustment key adjustment =>
      exact moves_changeActive (Account.raises_addAdjustment adjustment)
        (Account.countsOnce_addAdjustment adjustment)
        (fun _ _ hactive hadd => ⟨rfl, hactive, Account.eq_of_addAdjustment hadd⟩) hfits
  | reportSpend key spent =>
      exact moves_changeActive (Account.raises_reportSpend spent)
        (Account.countsOnce_reportSpend spent)
        (fun _ _ hactive hreport => ⟨rfl, hactive, Account.eq_of_reportSpend hreport⟩) hfits
  | close key =>
      exact moves_close (fun _ _ _ hcontains hactive hnew => ⟨hcontains, hactive, hnew⟩) hfits
  | reactivate key =>
      exact moves_reactivate (fun _ _ _ hcontains hclosed hnew => ⟨hcontains, hclosed, hnew⟩) hfits

end Operations

-- Of any ledger, also of one that no operation could have made, an operation keeps every account
-- and changes it only as its next version, whatever the answer.
theorem changes_count_once (ledger : Ledger) :
    (∀ operation : Operation, (operation.apply ledger).Completes →
      ledger.Moves operation.Edits operation.Adds (operation.apply ledger).1) ∧
      ledger.Moves (fun _ _ _ => False) ledger.Restores ledger.repair.1 :=
  ⟨moves_apply, moves_repair ledger⟩

-- A closed account with nothing above it.
def orphaned : Ledger := empty.set ⟨"a:b"⟩ (.placeholder ⟨"a:b"⟩)

-- Opening a missing account below it is refused and opens it. The repair adds what it stands under.
theorem changes_count_once_orphaned :
    (orphaned.reactivate ⟨"a:b:c"⟩).2 = .error (.refused (.notFound ⟨"a:b:c"⟩)) ∧
      (∃ new, (orphaned.reactivate ⟨"a:b:c"⟩).1.get? ⟨"a:b"⟩ = some new ∧
        new.version.toNat = (Account.placeholder ⟨"a:b"⟩).version.toNat + 1 ∧
        new = { Account.placeholder ⟨"a:b"⟩ with status := .active, version := new.version }) ∧
      orphaned.repair.1.get? ⟨"a"⟩ = some (.placeholder ⟨"a"⟩) := by
  obtain ⟨hoperation, hrepair⟩ := changes_count_once orphaned
  have hrefused : (orphaned.reactivate ⟨"a:b:c"⟩).2 =
      .error (.refused (.notFound ⟨"a:b:c"⟩)) := by decide +kernel
  have hold : orphaned.get? ⟨"a:b"⟩ = some (.placeholder ⟨"a:b"⟩) := by decide +kernel
  have hopen : (orphaned.reactivate ⟨"a:b:c"⟩).1.isActive ⟨"a:b"⟩ = true := by decide +kernel
  refine ⟨hrefused, ?_, ?_⟩
  · have hmoves := hoperation (.reactivate ⟨"a:b:c"⟩) fun overflow h => by
      rw [Operation.apply, hrefused] at h
      cases h
    obtain ⟨new, hnew, rfl | ⟨hversion, -, -, hstatus⟩⟩ := hmoves.kept ⟨"a:b"⟩ _ hold
    · have hclosed : (Account.placeholder ⟨"a:b"⟩).isActive = false := rfl
      rw [isActive, show (orphaned.reactivate ⟨"a:b:c"⟩).1.get? ⟨"a:b"⟩ = _ from hnew] at hopen
      simp [hclosed] at hopen
    · exact ⟨new, hnew, hversion, hstatus⟩
  · have hthere : (orphaned.repair.1.get? ⟨"a"⟩).isSome = true := by decide +kernel
    obtain ⟨new, hnew⟩ := Option.isSome_iff_exists.mp hthere
    obtain ⟨-, rfl⟩ := hrepair.added ⟨"a"⟩ new (by decide +kernel) hnew
    exact hnew

end Ledger

end ShardedLedger
