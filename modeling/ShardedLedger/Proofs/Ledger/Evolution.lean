import ShardedLedger.Ledger.Operations
import ShardedLedger.Proofs.Ledger.Hierarchy
import ShardedLedger.Proofs.Ledger.Record

namespace ShardedLedger

namespace Account

-- An account is behind another one if it is of an earlier version or has the same record. At
-- one version there is only one record.
def IsBehind (older newer : Account) : Prop :=
  older.version < newer.version ∨ older.asRecorded = newer.asRecorded

theorem IsBehind.refl (account : Account) : account.IsBehind account := .inr rfl

theorem version_eq_of_asRecorded_eq {a b : Account} (h : a.asRecorded = b.asRecorded) :
    a.version = b.version :=
  show a.asRecorded.version = b.asRecorded.version from congrArg version h

theorem IsBehind.version_le {older newer : Account} (h : older.IsBehind newer) :
    older.version ≤ newer.version := by
  rcases h with h | h
  · exact UInt64.le_of_lt h
  · exact UInt64.le_of_eq (version_eq_of_asRecorded_eq h)

theorem IsBehind.trans {a b c : Account} (hab : a.IsBehind b) (hbc : b.IsBehind c) :
    a.IsBehind c := by
  rcases hab with hab | hab
  · exact .inl (UInt64.lt_of_lt_of_le hab hbc.version_le)
  · have hversion := version_eq_of_asRecorded_eq hab
    rcases hbc with hbc | hbc
    · exact .inl (hversion ▸ hbc)
    · exact .inr (hab.trans hbc)

theorem IsBehind.eq_of_version {older newer : Account} (h : older.IsBehind newer)
    (hversion : older.version = newer.version) : older.asRecorded = newer.asRecorded := by
  rcases h with h | h
  · exact absurd (hversion ▸ h) (UInt64.lt_irrefl _)
  · exact h

section Changes

theorem touch_eq_of_snd_eq_none {account : Account} (h : account.touch.2 = none) :
    account.touch.1 = { account with version := account.version + 1 } ∧
      account.version < account.version + 1 := by
  unfold touch at h ⊢
  split at h
  next hfits =>
    have hnext : (account.version + 1).toNat = account.version.toNat + 1 := by
      rw [UInt64.toNat_add]
      exact Nat.mod_eq_of_lt hfits
    refine ⟨by rw [if_pos hfits], ?_⟩
    rw [UInt64.lt_iff_toNat_lt]
    omega
  · simp at h

-- A change raises the version and leaves the name alone.
def Raises (change : Account → Account × Option Overflow) : Prop :=
  ∀ account, (change account).2 = none →
    account.version < (change account).1.version ∧ (change account).1.name = account.name

theorem raises_touch (edit : Account → Account) (hversion : ∀ account, (edit account).version =
    account.version) (hname : ∀ account, (edit account).name = account.name) :
    Raises fun account => (edit account).touch := by
  intro account h
  obtain ⟨htouch, hlt⟩ := touch_eq_of_snd_eq_none h
  rw [hversion] at hlt
  simp only [htouch, hversion, hname]
  exact ⟨hlt, trivial⟩

theorem raises_setStatus (status : AccountStatus) : Raises (setStatus status) :=
  raises_touch (fun account => { account with status }) (fun _ => rfl) fun _ => rfl

theorem raises_resync : Raises resync := by
  intro account h
  unfold resync at h ⊢
  split at h
  next funds _ =>
    exact raises_touch (fun account => { account with outOfSync := account.spent.exceeds funds })
      (fun _ => rfl) (fun _ => rfl) account h
  · simp at h

theorem raises_setBudget (budget : Pool) : Raises (setBudget budget) := fun account h =>
  raises_resync { account with budget } h

theorem raises_setBalance (balance : Pool) : Raises (setBalance balance) := fun account h =>
  raises_resync { account with balance } h

theorem raises_addAdjustment (adjustment : Pool) : Raises (addAdjustment adjustment) := by
  intro account h
  unfold addAdjustment at h ⊢
  split at h
  next adjustments _ =>
    exact raises_touch (fun account => { account with adjustments }) (fun _ => rfl) (fun _ => rfl)
      account h
  · simp at h

theorem raises_reportSpend (spent : Pool) : Raises (reportSpend spent) := by
  intro account h
  unfold reportSpend at h ⊢
  split at h
  next funds _ =>
    exact raises_touch (fun account => { account with outOfSync := spent.exceeds funds, spent })
      (fun _ => rfl) (fun _ => rfl) account h
  · simp at h

end Changes

end Account

namespace Ledger

@[simp] theorem get?_empty (key : Key) : empty.get? key = none := rfl

theorem get?_set (ledger : Ledger) (key other : Key) (account : Account) :
    (ledger.set key account).get? other = if other = key then some account else ledger.get? other :=
  SortedMap.get?_insert ledger.accounts key account other

theorem contains_iff (ledger : Ledger) (key : Key) :
    ledger.contains key = true ↔ ∃ account, ledger.get? key = some account :=
  SortedMap.contains_iff ledger.accounts key

theorem ne_of_get?_eq_none {ledger : Ledger} {key other : Key} {account : Account}
    (hnone : ledger.get? key = none) (haccount : ledger.get? other = some account) :
    other ≠ key := by
  rintro rfl
  rw [hnone] at haccount
  cases haccount

theorem eq_of_get?_eq {a b : Ledger} (h : ∀ key, a.get? key = b.get? key) : a = b := by
  obtain ⟨a⟩ := a
  obtain ⟨b⟩ := b
  exact congrArg Ledger.mk (SortedMap.eq_of_get?_eq h)

-- Every account stands under its own, valid name.
def WellNamed (ledger : Ledger) : Prop :=
  ∀ key account, ledger.get? key = some account → key.IsValid ∧ account.name = key

theorem wellNamed_empty : WellNamed empty := by
  intro key account h
  simp at h

-- What a ledger may become: no account is lost, each stays as it is or moves on to a later
-- version, and new ones stand under their own names.
structure Extends (before after : Ledger) : Prop where
  kept : ∀ key old, before.get? key = some old →
    ∃ new, after.get? key = some new ∧ old.IsBehind new
  named : WellNamed before → WellNamed after

namespace Extends

theorem refl (ledger : Ledger) : ledger.Extends ledger where
  kept _ old h := ⟨old, h, .refl old⟩
  named := id

theorem trans {a b c : Ledger} (hab : a.Extends b) (hbc : b.Extends c) : a.Extends c where
  kept key old h := by
    obtain ⟨middle, hmiddle, hbehind⟩ := hab.kept key old h
    obtain ⟨new, hnew, hbehind'⟩ := hbc.kept key middle hmiddle
    exact ⟨new, hnew, hbehind.trans hbehind'⟩
  named h := hbc.named (hab.named h)

theorem set_new {ledger : Ledger} {key : Key} (h : ledger.get? key = none) (hkey : key.IsValid)
    {account : Account} (hname : account.name = key) : ledger.Extends (ledger.set key account) where
  kept other old hold := by
    have hne := ne_of_get?_eq_none h hold
    exact ⟨old, by rw [get?_set]; simp [hne, hold], .refl old⟩
  named hnamed other found hfound := by
    rw [get?_set] at hfound
    split at hfound
    next he =>
      cases hfound
      exact he ▸ ⟨hkey, hname⟩
    next => exact hnamed other found hfound

theorem set_raised {ledger : Ledger} {key : Key} {old new : Account}
    (h : ledger.get? key = some old) (hversion : old.version < new.version)
    (hname : new.name = old.name) : ledger.Extends (ledger.set key new) where
  kept other found hfound := by
    rw [get?_set]
    by_cases he : other = key
    · subst he
      rw [h] at hfound
      cases hfound
      exact ⟨new, by simp, .inl hversion⟩
    · exact ⟨found, by simp [he, hfound], .refl found⟩
  named hnamed other found hfound := by
    rw [get?_set] at hfound
    split at hfound
    next he =>
      cases hfound
      obtain ⟨hvalid, hold⟩ := hnamed key old h
      exact he ▸ ⟨hvalid, hname.trans hold⟩
    next => exact hnamed other found hfound

end Extends

section Operations

-- What a client can do to one account.
inductive Operation where
  | create (key : Key) (type : AccountType)
  | setBudget (key : Key) (budget : Pool)
  | setBalance (key : Key) (balance : Pool)
  | addAdjustment (key : Key) (adjustment : Pool)
  | reportSpend (key : Key) (spent : Pool)
  | close (key : Key)
  | reactivate (key : Key)

namespace Operation

def key : Operation → Key
  | create key _ => key
  | setBudget key _ => key
  | setBalance key _ => key
  | addAdjustment key _ => key
  | reportSpend key _ => key
  | close key => key
  | reactivate key => key

def apply (ledger : Ledger) : Operation → Outcome Account
  | create key type => ledger.create key type
  | setBudget key budget => ledger.setBudget key budget
  | setBalance key balance => ledger.setBalance key balance
  | addAdjustment key adjustment => ledger.addAdjustment key adjustment
  | reportSpend key spent => ledger.reportSpend key spent
  | close key => ledger.close key
  | reactivate key => ledger.reactivate key

end Operation

-- The operation came to its end, with an answer or with a refusal.
def Outcome.Completes {α : Type} (outcome : Outcome α) : Prop :=
  ∀ overflow, outcome.2 ≠ .error (.overflow overflow)

instance {α : Type} : (outcome : Outcome α) → Decidable outcome.Completes
  | (_, .ok _) => .isTrue nofun
  | (_, .error (.refused _)) => .isTrue nofun
  | (_, .error (.overflow overflow)) => .isFalse fun h => h overflow rfl

theorem not_completes_stop {α : Type} (ledger : Ledger) (overflow : Overflow) :
    ¬(ledger.stop overflow : Outcome α).Completes := fun h => h overflow rfl

theorem completes_of_ok {α : Type} {outcome : Outcome α} {answer : α}
    (h : outcome.2 = .ok answer) : outcome.Completes := fun _ hstop => nomatch h.symm.trans hstop

theorem settle_extends {ledger : Ledger} {key : Key} {account : Account}
    {change : Account → Account × Option Overflow} (h : ledger.get? key = some account)
    (hraises : Account.Raises change) (hfits : (ledger.settle key (change account)).Completes) :
    ledger.Extends (ledger.settle key (change account)).1 := by
  have hchange := hraises account
  revert hchange hfits
  rcases change account with ⟨changed, _ | overflow⟩ <;> intro hfits hchange
  · obtain ⟨hversion, hname⟩ := hchange rfl
    exact .set_raised h hversion hname
  · exact absurd hfits (not_completes_stop _ overflow)

theorem changeActive_extends {ledger : Ledger} {key : Key}
    {change : Account → Account × Option Overflow} (hraises : Account.Raises change)
    (hfits : (ledger.changeActive key change).Completes) :
    ledger.Extends (ledger.changeActive key change).1 := by
  unfold changeActive at hfits ⊢
  split
  next => exact .refl ledger
  next account haccount =>
    split
    next hactive =>
      simp only [haccount, hactive, ite_true] at hfits
      exact settle_extends haccount hraises hfits
    next => exact .refl ledger

-- Each of the keys is valid, so it may be created where it is missing.
theorem openEach_extends (create : Bool) (keys : List Key) (ledger : Ledger)
    (hvalid : ∀ key ∈ keys, key.IsValid) (hfits : (openEach create keys ledger).2 = none) :
    ledger.Extends (openEach create keys ledger).1 := by
  fun_induction openEach create keys ledger with
  | case1 ledger => exact .refl ledger
  | case2 key keys ledger hnone _ ih =>
      have hrest := ih (fun other hother => hvalid other (List.mem_cons_of_mem key hother)) hfits
      exact (Extends.set_new hnone (hvalid key (by simp)) rfl).trans hrest
  | case3 key keys ledger hnone _ ih =>
      exact ih (fun other hother => hvalid other (List.mem_cons_of_mem key hother)) hfits
  | case4 key keys ledger account haccount hactive ih =>
      exact ih (fun other hother => hvalid other (List.mem_cons_of_mem key hother)) hfits
  | case5 key keys ledger account haccount hactive opened hopened ih =>
      have hrest := ih (fun other hother => hvalid other (List.mem_cons_of_mem key hother)) hfits
      obtain ⟨hversion, hname⟩ := Account.raises_setStatus .active account (by rw [hopened])
      rw [hopened] at hversion hname
      exact (Extends.set_raised haccount hversion hname).trans hrest
  | case6 => simp at hfits

theorem get?_openEach_of_notMem (create : Bool) (keys : List Key) (ledger : Ledger) (key : Key)
    (hkey : key ∉ keys) : (openEach create keys ledger).1.get? key = ledger.get? key := by
  fun_induction openEach create keys ledger with
  | case1 => rfl
  | case2 other keys ledger _ _ ih =>
      rw [List.mem_cons, not_or] at hkey
      rw [ih hkey.2, get?_set]
      simp [hkey.1]
  | case3 other keys ledger _ _ ih => exact ih fun h => hkey (List.mem_cons_of_mem other h)
  | case4 other keys ledger _ _ _ ih => exact ih fun h => hkey (List.mem_cons_of_mem other h)
  | case5 other keys ledger _ _ _ opened _ ih =>
      rw [List.mem_cons, not_or] at hkey
      rw [ih hkey.2, get?_set]
      simp [hkey.1]
  | case6 other keys ledger _ _ _ stopped overflow _ =>
      rw [List.mem_cons, not_or] at hkey
      rw [get?_set]
      simp [hkey.1]

theorem openAncestors_extends {create : Bool} {ledger opened : Ledger} {key : Key}
    (hkey : key.IsValid) (h : openEach create key.ancestors ledger = (opened, none)) :
    ledger.Extends opened := by
  have hopen := openEach_extends create key.ancestors ledger
    (fun other hother => Key.isValid_of_mem_ancestors hkey hother) (by rw [h])
  rwa [h] at hopen

theorem reactivate_extends {ledger : Ledger} {key : Key} (hkey : key.IsValid)
    (hfits : (ledger.reactivate key).Completes) : ledger.Extends (ledger.reactivate key).1 := by
  revert hfits
  unfold reactivate
  split
  next => exact fun hfits => absurd hfits (not_completes_stop _ _)
  next opened hopened =>
    have hopen := openAncestors_extends hkey hopened
    split
    next => exact fun _ => hopen
    next account haccount =>
      split
      next => exact fun _ => hopen
      next =>
        exact fun hfits =>
          hopen.trans (settle_extends haccount (Account.raises_setStatus .active) hfits)

-- No key is an ancestor of itself, so opening the ancestors leaves a missing key missing.
theorem create_extends {ledger : Ledger} {key : Key} {type : AccountType} (hkey : key.IsValid)
    (hfits : (ledger.create key type).Completes) : ledger.Extends (ledger.create key type).1 := by
  revert hfits
  unfold create
  split
  next account haccount =>
    split
    next => exact reactivate_extends hkey
    next => split <;> exact fun _ => .refl ledger
  next hnone =>
    split
    next => exact fun _ => .refl ledger
    next =>
      split <;> intro hfits
      next => exact absurd hfits (not_completes_stop _ _)
      next opened hopened =>
        have hopen := openAncestors_extends hkey hopened
        have hmissing : opened.get? key = none := by
          have hkept := get?_openEach_of_notMem true key.ancestors ledger key key.not_mem_ancestors
          rw [hopened] at hkept
          exact hkept.trans hnone
        exact hopen.trans (.set_new hmissing hkey rfl)

theorem close_of_not_contains {ledger : Ledger} {key : Key} (hkey : ¬ledger.contains key = true) :
    ledger.close key = ledger.refuse (.notFound key) := by
  rw [close, if_neg hkey]

-- A closing visits all accounts. The visit keeps all keys, so if it comes to its end the account to
-- close is still there.
theorem close_cases {ledger : Ledger} {key : Key} (hkey : ledger.contains key = true) :
    (∃ accounts overflow, ledger.accounts.visit (closeWithin key) = (accounts, some overflow) ∧
        ledger.close key = stop ⟨accounts⟩ overflow) ∨
      ∃ accounts account, ledger.accounts.visit (closeWithin key) = (accounts, none) ∧
        accounts.get? key = some account ∧ ledger.close key = (⟨accounts⟩, .ok account) := by
  rcases hvisit : ledger.accounts.visit (closeWithin key) with ⟨accounts, _ | overflow⟩
  · have hget := SortedMap.get?_visit (closeWithin key) ledger.accounts (congrArg Prod.snd hvisit) key
    obtain ⟨old, hold⟩ := (SortedMap.contains_iff ledger.accounts key).mp hkey
    rw [hvisit, hold, Option.map_some] at hget
    exact .inr ⟨accounts, _, rfl, hget, by simp only [close, hkey, hvisit, hget, ite_true]⟩
  · exact .inl ⟨accounts, overflow, rfl, by simp only [close, hkey, hvisit, ite_true]⟩

-- The visit that closes what is below a key may be stopped on its way.
theorem get?_close_cases (ledger : Ledger) (key other : Key) :
    (ledger.close key).1.get? other = ledger.get? other ∨
      (ledger.close key).1.get? other =
        (ledger.get? other).map fun account => (closeWithin key other account).1 := by
  by_cases hkey : ledger.contains key = true
  · have hvisit := SortedMap.get?_visit_cases (closeWithin key) ledger.accounts other
    rcases close_cases hkey with ⟨_, _, hstop, hclose⟩ | ⟨_, _, hend, -, hclose⟩
    · rw [hstop] at hvisit
      rw [hclose]
      exact hvisit
    · rw [hend] at hvisit
      rw [hclose]
      exact hvisit
  · rw [close_of_not_contains hkey]
    exact .inl rfl

-- Each account that the visit changes is raised by the change to its status.
theorem visit_closeWithin_extends {ledger : Ledger} {key : Key}
    (h : (ledger.accounts.visit (closeWithin key)).2 = none) :
    ledger.Extends ⟨(ledger.accounts.visit (closeWithin key)).1⟩ := by
  have hget (other : Key) := SortedMap.get?_visit (closeWithin key) ledger.accounts h other
  have hclosed {other : Key} {old : Account} (hold : ledger.get? other = some old) :
      old.IsBehind (closeWithin key other old).1 ∧
        (closeWithin key other old).1.name = old.name := by
    have hfits := SortedMap.change_snd_of_visit (closeWithin key) ledger.accounts h other old hold
    unfold closeWithin at hfits ⊢
    split
    next hwithin =>
      simp only [hwithin, ite_true] at hfits
      obtain ⟨hversion, hname⟩ := Account.raises_setStatus .closed old hfits
      exact ⟨.inl hversion, hname⟩
    next => exact ⟨.refl old, rfl⟩
  constructor
  · intro other old hold
    refine ⟨(closeWithin key other old).1, ?_, (hclosed hold).1⟩
    exact (hget other).trans (by rw [show ledger.accounts.get? other = some old from hold]; rfl)
  · intro hnamed other new hnew
    obtain ⟨old, hold, rfl⟩ := Option.map_eq_some_iff.mp ((hget other).symm.trans hnew)
    obtain ⟨hvalid, hname⟩ := hnamed other old hold
    exact ⟨hvalid, (hclosed hold).2.trans hname⟩

theorem close_extends {ledger : Ledger} {key : Key} (hfits : (ledger.close key).Completes) :
    ledger.Extends (ledger.close key).1 := by
  by_cases hkey : ledger.contains key = true
  · rcases close_cases hkey with ⟨_, _, -, hstop⟩ | ⟨accounts, account, hend, -, hclose⟩
    · rw [hstop] at hfits
      exact absurd hfits (not_completes_stop _ _)
    · have hvisit := visit_closeWithin_extends (congrArg Prod.snd hend)
      rw [hend] at hvisit
      rw [hclose]
      exact hvisit
  · rw [close_of_not_contains hkey]
    exact .refl ledger

theorem apply_extends {ledger : Ledger} {operation : Operation} (hkey : operation.key.IsValid)
    (hfits : (operation.apply ledger).Completes) : ledger.Extends (operation.apply ledger).1 := by
  cases operation with
  | create key type => exact create_extends hkey hfits
  | setBudget key budget => exact changeActive_extends (Account.raises_setBudget budget) hfits
  | setBalance key balance => exact changeActive_extends (Account.raises_setBalance balance) hfits
  | addAdjustment key adjustment =>
      exact changeActive_extends (Account.raises_addAdjustment adjustment) hfits
  | reportSpend key spent => exact changeActive_extends (Account.raises_reportSpend spent) hfits
  | close key => exact close_extends hfits
  | reactivate key => exact reactivate_extends hkey hfits

end Operations

end Ledger

end ShardedLedger
