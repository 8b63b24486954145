import ShardedLedger.Proofs.Ledger.Answers
import ShardedLedger.Proofs.Ledger.PoolWrites
import ShardedLedger.Proofs.Persistence.Load

namespace ShardedLedger

-- Nothing of the account is another than before but its status, version and adjustments.
def Account.Retains (old new : Account) : Prop :=
  new = { old with
    status := new.status, version := new.version, adjustments := new.adjustments }

namespace Account

variable {a b c : Account}

theorem Retains.refl (account : Account) : account.Retains account := rfl

theorem Retains.trans (hab : a.Retains b) (hbc : b.Retains c) : a.Retains c := by
  rw [Retains] at hab hbc ⊢
  rw [hbc, hab]

theorem Retains.outOfSync_eq (h : a.Retains b) : b.outOfSync = a.outOfSync := by rw [h]

theorem Retains.spent_eq (h : a.Retains b) : b.spent = a.spent := by rw [h]

theorem Retains.funds_eq (h : a.Retains b) (hadjustments : b.adjustments = a.adjustments) :
    b.funds = a.funds := by
  rw [h, funds, funds, hadjustments]

end Account

namespace Ledger

namespace Operation

-- The operations that compare the spend of their account with its funds.
def compares : Operation → Bool
  | setBudget _ _ => true
  | setBalance _ _ => true
  | reportSpend _ _ => true
  | _ => false

def adjusts : Operation → Bool
  | addAdjustment _ _ => true
  | _ => false

end Operation

-- What is done to a ledger: an operation, or the search for missing ancestors.
inductive Deed where
  | operate (operation : Operation)
  | repair

namespace Deed

variable (key : Key) (ledger : Ledger)

def after : Deed → Ledger
  | operate operation => (operation.apply ledger).1
  | repair => ledger.repair.1

def Fits : Deed → Prop
  | operate operation => (operation.apply ledger).Completes
  | repair => True

-- The account under the key right after the deed has compared it, if it has.
def compared? : Deed → Option Account
  | operate operation =>
      if operation.compares = true ∧ operation.key = key ∧ (operation.apply ledger).2.isOk = true
      then (operation.apply ledger).1.get? key
      else none
  | repair => none

def Adjusts : Deed → Prop
  | operate operation => operation.adjusts = true ∧ operation.key = key ∧
      (operation.apply ledger).2.isOk = true
  | repair => False

instance : (deed : Deed) → Decidable (deed.Fits ledger)
  | operate operation => inferInstanceAs (Decidable (operation.apply ledger).Completes)
  | repair => .isTrue trivial

instance : (deed : Deed) → Decidable (deed.Adjusts key ledger)
  | operate _ => inferInstanceAs (Decidable (_ ∧ _ ∧ _))
  | repair => .isFalse id

end Deed

-- What has been done to a ledger, the last deed first.
abbrev History := List Deed

namespace History

variable (start : Ledger) (key : Key)

def ledger : History → Ledger
  | [] => start
  | deed :: earlier => deed.after (ledger earlier)

-- Nothing has overflowed.
def Fits : History → Prop
  | [] => True
  | deed :: earlier => Fits earlier ∧ deed.Fits (ledger start earlier)

-- The account right after it was last compared.
def compared? : History → Option Account
  | [] => none
  | deed :: earlier => (deed.compared? key (ledger start earlier)).or (compared? earlier)

-- It has been adjusted since.
def IsAdjusted : History → Prop
  | [] => False
  | deed :: earlier => deed.Adjusts key (ledger start earlier) ∨
      deed.compared? key (ledger start earlier) = none ∧ IsAdjusted earlier

instance decidableFits : (history : History) → Decidable (history.Fits start)
  | [] => .isTrue trivial
  | deed :: earlier =>
      have := decidableFits earlier
      inferInstanceAs (Decidable (Fits start earlier ∧ deed.Fits (ledger start earlier)))

instance decidableIsAdjusted : (history : History) → Decidable (history.IsAdjusted start key)
  | [] => .isFalse id
  | deed :: earlier =>
      have := decidableIsAdjusted earlier
      inferInstanceAs (Decidable (deed.Adjusts key (ledger start earlier) ∨
        deed.compared? key (ledger start earlier) = none ∧ IsAdjusted start key earlier))

end History

section Deeds

variable {ledger : Ledger} {key : Key} {old new : Account} {operation : Operation} {deed : Deed}

theorem flagged_of_compares (h : operation.compares = true)
    (hok : (operation.apply ledger).2 = .ok new) :
    ∃ funds, new.funds = .ok funds ∧ new.outOfSync = new.spent.exceeds funds := by
  cases operation with
  | setBudget key budget =>
      obtain ⟨old, funds, -, -, hfunds, -, rfl⟩ :=
        (PoolWrite.budget budget).apply_eq_ok_iff.mp hok
      exact ⟨funds, hfunds, rfl⟩
  | setBalance key balance =>
      obtain ⟨old, funds, -, -, hfunds, -, rfl⟩ :=
        (PoolWrite.balance balance).apply_eq_ok_iff.mp hok
      exact ⟨funds, hfunds, rfl⟩
  | reportSpend key spent =>
      obtain ⟨old, funds, -, -, hfunds, -, rfl⟩ :=
        (PoolWrite.spend spent).apply_eq_ok_iff.mp hok
      exact ⟨funds, hfunds, rfl⟩
  | _ => cases h

theorem Deed.compared?_eq_some_iff : deed.compared? key ledger = some new ↔
    ∃ operation : Operation, deed = .operate operation ∧ operation.compares = true ∧
      operation.key = key ∧ (operation.apply ledger).2 = .ok new := by
  cases deed with
  | repair => exact iff_of_false nofun fun ⟨_, h, _⟩ => nomatch h
  | operate operation =>
      simp only [compared?, Option.ite_none_right_eq_some, Deed.operate.injEq, exists_eq_left',
        and_assoc]
      refine and_congr_right fun _ => and_congr_right ?_
      rintro rfl
      cases houtcome : (operation.apply ledger).2 with
      | error stop => exact iff_of_false (fun h => nomatch h.1) nofun
      | ok account =>
          rw [get?_apply_of_ok houtcome, Option.some.injEq, Except.ok.injEq]
          exact and_iff_right rfl

-- A write that comes to its end without an answer has been refused.
theorem ok_or_same (hfits : (operation.apply ledger).Completes)
    (hwrites : operation.compares = true ∨ operation.adjusts = true) :
    (∃ account, (operation.apply ledger).2 = .ok account) ∨
      (operation.apply ledger).1 = ledger := by
  rcases houtcome : (operation.apply ledger).2 with (error | overflow) | account
  · refine .inr (apply_fst_of_refused (fun key => ?_) houtcome)
    rintro rfl
    simp [Operation.compares, Operation.adjusts] at hwrites
  · exact absurd houtcome (hfits overflow)
  · exact .inl ⟨account, rfl⟩

theorem retains_of_edits (hedits : operation.Edits key old new)
    (hnot : ¬(operation.compares = true ∧ operation.key = key)) :
    old.Retains new ∧ (new.adjustments = old.adjustments ∨
      operation.adjusts = true ∧ operation.key = key) := by
  cases operation with
  | create other type =>
      obtain ⟨-, -, hnew⟩ := hedits
      rw [hnew]
      exact ⟨rfl, .inl rfl⟩
  | addAdjustment other adjustment =>
      obtain ⟨rfl, -, hnew⟩ := hedits
      refine ⟨?_, .inr ⟨rfl, rfl⟩⟩
      rw [hnew]
      rfl
  | close other =>
      obtain ⟨-, -, hnew⟩ := hedits
      rw [hnew]
      exact ⟨rfl, .inl rfl⟩
  | reactivate other =>
      obtain ⟨-, -, hnew⟩ := hedits
      rw [hnew]
      exact ⟨rfl, .inl rfl⟩
  | _ => exact absurd ⟨rfl, hedits.1.symm⟩ hnot

-- Whatever a deed does to an account, also to one below or above its own, it leaves the flag alone
-- if it does not compare it.
theorem Deed.keeps (hfits : deed.Fits ledger) (hnot : deed.compared? key ledger = none)
    (hold : ledger.get? key = some old) :
    ∃ new, (deed.after ledger).get? key = some new ∧ old.Retains new ∧
      (new.adjustments = old.adjustments ∨ deed.Adjusts key ledger) := by
  cases deed with
  | repair => exact ⟨old, get?_repair_of_some hold, .refl old, .inl rfl⟩
  | operate operation =>
      obtain ⟨new, hnew, rfl | ⟨hversion, hedits⟩⟩ := (moves_apply operation hfits).kept key old hold
      · exact ⟨new, hnew, .refl new, .inl rfl⟩
      · have hok (hwrites : operation.compares = true ∨ operation.adjusts = true) :
            ∃ account, (operation.apply ledger).2 = .ok account := by
          refine (ok_or_same hfits hwrites).resolve_right fun hsame => ?_
          rw [hsame, hold, Option.some.injEq] at hnew
          rw [hnew] at hversion
          omega
        have huncompared : ¬(operation.compares = true ∧ operation.key = key) := by
          rintro ⟨hcompares, hkey⟩
          obtain ⟨account, hanswer⟩ := hok (.inl hcompares)
          have hcompared := Deed.compared?_eq_some_iff.mpr ⟨operation, rfl, hcompares, hkey, hanswer⟩
          rw [hnot] at hcompared
          cases hcompared
        obtain ⟨hretains, hadjustments⟩ := retains_of_edits hedits huncompared
        refine ⟨new, hnew, hretains, hadjustments.imp_right fun ⟨hadjusts, hkey⟩ => ?_⟩
        obtain ⟨account, hanswer⟩ := hok (.inr hadjusts)
        exact ⟨hadjusts, hkey, by rw [hanswer]; rfl⟩

theorem Deed.outOfSync_of_added (hfits : deed.Fits ledger) (hnone : ledger.get? key = none)
    (hnew : (deed.after ledger).get? key = some new) : new.outOfSync = false := by
  cases deed with
  | repair =>
      obtain ⟨-, rfl⟩ := ledger.moves_repair.added key new hnone hnew
      rfl
  | operate operation =>
      have hadds := (moves_apply operation hfits).added key new hnone hnew
      cases operation with
      | create other type =>
          rcases hadds with ⟨-, rfl⟩ | ⟨-, rfl⟩ <;> rfl
      | _ => cases hadds

end Deeds

namespace History

variable {start : Ledger} {key : Key} {account checked : Account} {history : History}

-- By induction on the history: what has been compared stays, and of all that enters into the
-- comparison only the adjustments can have changed since.
theorem retained (hfits : history.Fits start)
    (hchecked : history.compared? start key = some checked) :
    ∃ account, (history.ledger start).get? key = some account ∧ checked.Retains account ∧
      (¬history.IsAdjusted start key → account.adjustments = checked.adjustments) := by
  induction history with
  | nil => cases hchecked
  | cons deed earlier ih =>
      obtain ⟨hearlier, hdeed⟩ := hfits
      cases hcompared : deed.compared? key (ledger start earlier) with
      | some account =>
          rw [compared?, hcompared, Option.some_or, Option.some.injEq] at hchecked
          obtain rfl := hchecked
          obtain ⟨operation, rfl, -, rfl, hok⟩ := Deed.compared?_eq_some_iff.mp hcompared
          exact ⟨account, get?_apply_of_ok hok, .refl account, fun _ => rfl⟩
      | none =>
          rw [compared?, hcompared, Option.none_or] at hchecked
          obtain ⟨old, hold, hretains, hsame⟩ := ih hearlier hchecked
          obtain ⟨new, hnew, hkeeps, hadjustments⟩ := Deed.keeps hdeed hcompared hold
          refine ⟨new, hnew, hretains.trans hkeeps, fun hnot => ?_⟩
          obtain ⟨hunadjusted, hbefore⟩ := not_or.mp hnot
          exact (hadjustments.resolve_right hunadjusted).trans
            (hsame fun hadjusted => hbefore ⟨hcompared, hadjusted⟩)

theorem flagged (hchecked : history.compared? start key = some checked) :
    ∃ funds, checked.funds = .ok funds ∧ checked.outOfSync = checked.spent.exceeds funds := by
  induction history with
  | nil => cases hchecked
  | cons deed earlier ih =>
      rcases Option.or_eq_some_iff.mp hchecked with hcompared | ⟨-, hbefore⟩
      · obtain ⟨operation, -, hcompares, -, hok⟩ := Deed.compared?_eq_some_iff.mp hcompared
        exact flagged_of_compares hcompares hok
      · exact ih hbefore

theorem unflagged (hstart : ∀ account, start.get? key = some account → account.outOfSync = false)
    (hfits : history.Fits start) (hnone : history.compared? start key = none)
    (haccount : (history.ledger start).get? key = some account) : account.outOfSync = false := by
  induction history generalizing account with
  | nil => exact hstart account haccount
  | cons deed earlier ih =>
      obtain ⟨hearlier, hdeed⟩ := hfits
      obtain ⟨hcompared, hbefore⟩ := Option.or_eq_none_iff.mp hnone
      cases hold : (ledger start earlier).get? key with
      | none => exact Deed.outOfSync_of_added hdeed hold haccount
      | some old =>
          obtain ⟨new, hnew, hkeeps, -⟩ := Deed.keeps hdeed hcompared hold
          obtain rfl := Option.some.inj (haccount.symm.trans hnew)
          rw [hkeeps.outOfSync_eq, ih hearlier hbefore hold]

end History

-- Nothing that a ledger starts with is out of sync, whatever is recorded of its spend.
theorem outOfSync_of_start {start : Ledger}
    (hstart : start = empty ∨ ∃ json, ofJson json = .ok start) {key : Key} {account : Account}
    (haccount : start.get? key = some account) : account.outOfSync = false := by
  rcases hstart with rfl | ⟨json, hjson⟩
  · cases haccount
  · obtain ⟨-, -, record, hdecode⟩ := Load.decoded_of_ofJson hjson haccount
    exact Account.outOfSync_of_decode hdecode

theorem notMem_keys_saved_iff {ledger : Ledger} {key : Key} {account : Account}
    (haccount : ledger.get? key = some account) :
    key ∉ ledger.saved.map (·.1) ↔ account.outOfSync = true := by
  rw [← Bool.not_eq_false, not_iff_not]
  simp only [List.mem_map, Prod.exists, exists_and_right, exists_eq_right, mem_saved_iff, haccount,
    Option.some.injEq, exists_eq_left']

-- Whatever has been done to a ledger, the flag of an account says how its last comparison came
-- out. What does not compare the account leaves it alone. An account that has not been adjusted
-- since is left out of a save exactly if it has spent more than its funds.
theorem flag_keeps_comparison {start : Ledger} {history : History} {key : Key} {account : Account}
    (hstart : start = empty ∨ ∃ json, ofJson json = .ok start) (hfits : history.Fits start)
    (haccount : (history.ledger start).get? key = some account) :
    (history.compared? start key = none → account.outOfSync = false) ∧
      (∀ checked, history.compared? start key = some checked →
        ∃ funds, checked.funds = .ok funds ∧ account.outOfSync = checked.spent.exceeds funds ∧
          (¬history.IsAdjusted start key →
            account.funds = .ok funds ∧ account.spent = checked.spent ∧
              (key ∉ (history.ledger start).saved.map (·.1) ↔
                account.spent.exceeds funds = true))) ∧
      ∀ deed : Deed, deed.Fits (history.ledger start) →
        deed.compared? key (history.ledger start) = none →
          ∃ new, (deed.after (history.ledger start)).get? key = some new ∧
            new.outOfSync = account.outOfSync := by
  refine ⟨fun hnone => ?_, fun checked hchecked => ?_, fun deed hdeed hnot => ?_⟩
  · exact History.unflagged (fun _ => outOfSync_of_start hstart) hfits hnone haccount
  · obtain ⟨funds, hfunds, hflag⟩ := History.flagged hchecked
    obtain ⟨found, hfound, hretains, hadjustments⟩ := History.retained hfits hchecked
    obtain rfl := Option.some.inj (haccount.symm.trans hfound)
    have hkept : account.outOfSync = checked.spent.exceeds funds :=
      hretains.outOfSync_eq.trans hflag
    refine ⟨funds, hfunds, hkept, fun hnot => ⟨?_, hretains.spent_eq, ?_⟩⟩
    · rw [hretains.funds_eq (hadjustments hnot), hfunds]
    · rw [notMem_keys_saved_iff haccount, hkept, hretains.spent_eq]
  · obtain ⟨new, hnew, hkeeps, -⟩ := Deed.keeps hdeed hnot haccount
    exact ⟨new, hnew, hkeeps.outOfSync_eq⟩

-- An account spends more than it was given, even with its adjustment. After that the one above it
-- is adjusted and closed, and the account is created once more.
def overspent : History :=
  [.repair, .operate (.create ⟨"a:b"⟩ .spend), .operate (.close ⟨"a"⟩),
    .operate (.addAdjustment ⟨"a"⟩ ⟨.ofList [("U", 50)]⟩),
    .operate (.reportSpend ⟨"a:b"⟩ ⟨.ofList [("U", 20)]⟩),
    .operate (.addAdjustment ⟨"a:b"⟩ ⟨.ofList [("U", 5)]⟩),
    .operate (.setBudget ⟨"a:b"⟩ ⟨.ofList [("U", 10)]⟩),
    .operate (.create ⟨"a:b"⟩ .spend)]

-- The account right after its spend was reported.
def overspender : Account :=
  { Account.new ⟨"a:b"⟩ .spend with
    version := 4, budget := ⟨.ofList [("U", 10)]⟩, adjustments := ⟨.ofList [("U", 5)]⟩,
    spent := ⟨.ofList [("U", 20)]⟩, outOfSync := true }

-- It is left out of a save, and not even funds that would cover it change that if they come as
-- another adjustment.
theorem flag_keeps_comparison_overspent :
    overspent.Fits empty ∧
      (⟨"a:b"⟩ : Key) ∉ (overspent.ledger empty).saved.map (·.1) ∧
      ∃ new, ((overspent.ledger empty).addAdjustment ⟨"a:b"⟩ ⟨.ofList [("U", 50)]⟩).1.get?
        ⟨"a:b"⟩ = some new ∧ new.outOfSync = true := by
  have hfits : overspent.Fits empty := by decide +kernel
  obtain ⟨account, haccount⟩ : ∃ account, (overspent.ledger empty).get? ⟨"a:b"⟩ = some account :=
    Option.isSome_iff_exists.mp (by decide +kernel)
  have hchecked : overspent.compared? empty ⟨"a:b"⟩ = some overspender := by decide +kernel
  have hfunds : overspender.funds = .ok ⟨.ofList [("U", 15)]⟩ := by decide +kernel
  have hexceeds : overspender.spent.exceeds ⟨.ofList [("U", 15)]⟩ = true := by decide +kernel
  obtain ⟨-, hcompared, hothers⟩ := flag_keeps_comparison (.inl rfl) hfits haccount
  obtain ⟨funds, hsum, hflag, hunadjusted⟩ := hcompared overspender hchecked
  obtain rfl := Except.ok.inj (hsum.symm.trans hfunds)
  obtain ⟨-, hspent, hskipped⟩ := hunadjusted (by decide +kernel)
  obtain ⟨new, hnew, hkept⟩ :=
    hothers (.operate (.addAdjustment ⟨"a:b"⟩ ⟨.ofList [("U", 50)]⟩)) (by decide +kernel)
      (by decide +kernel)
  exact ⟨hfits, hskipped.mpr (hspent ▸ hexceeds), new, hnew, hkept.trans (hflag.trans hexceeds)⟩

end Ledger

end ShardedLedger
