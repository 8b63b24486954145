import ShardedLedger.Proofs.Ledger.Framing
import ShardedLedger.Proofs.Ledger.Pool

namespace ShardedLedger

namespace Pool

-- Whether an entry can be added to the pool's amount.
def fits (pool : Pool) (entry : String × Amount) : Bool :=
  (Amount.plus (pool.amount entry.1) entry.2).isOk

-- What is added before the first amount that does not fit.
def added (pool other : Pool) : List (String × Amount) :=
  other.amounts.entries.takeWhile pool.fits

theorem set_of_listed {pool : Pool} {currency : String} {amount : Amount}
    (hlisted : pool.amounts.get? currency = some amount) : pool.set currency amount = pool := by
  refine congrArg Pool.mk (SortedMap.eq_of_get?_eq fun other => ?_)
  refine (get?_set pool currency other amount).trans ?_
  split
  next he => rw [he, hlisted]
  next => rfl

-- Only an amount of zero for a currency that is listed leaves the pool as it is.
theorem set_sum_eq_iff {pool : Pool} {currency : String} {amount sum : Amount}
    (hsum : (pool.amount currency).plus amount = .ok sum) :
    pool.amounts.get? currency = some sum ↔
      amount = 0 ∧ pool.amounts.get? currency ≠ none := by
  rw [Amount.plus_eq_ok_iff] at hsum
  cases hlisted : pool.amounts.get? currency with
  | none => simp
  | some old =>
      rw [amount_of_listed hlisted] at hsum
      rw [Option.some.injEq, ← Int64.toInt_inj, ← Int64.toInt_inj, hsum, Int64.toInt_zero]
      simp only [ne_eq, reduceCtorEq, not_false_eq_true, and_true]
      omega

-- By induction on the entries: once one of them has changed the pool, no later one, which is of
-- another currency, makes up for it.
theorem combineEach_fst_eq_iff {changes : List (String × Amount)}
    (hnodup : (changes.map (·.1)).Nodup) (pool : Pool) :
    (combineEach Amount.plus changes pool).1 = pool ↔
      ∀ entry ∈ changes.takeWhile pool.fits, entry.2 = 0 ∧ pool.amounts.get? entry.1 ≠ none := by
  induction changes with
  | nil => simp [combineEach]
  | cons first rest ih =>
      obtain ⟨currency, amount⟩ := first
      obtain ⟨hcurrency, hrest⟩ := List.nodup_cons.mp hnodup
      simp only [combineEach]
      split
      next sum hsum =>
        have hfits : pool.fits (currency, amount) = true := by
          rw [fits, hsum, Except.isOk]
          rfl
        rw [List.takeWhile_cons, if_pos hfits, List.forall_mem_cons, ← set_sum_eq_iff hsum]
        constructor
        · intro hsame
          have hlisted : pool.amounts.get? currency = some sum := by
            rw [← hsame, get?_combineEach_of_notMem hcurrency, get?_set, if_pos rfl]
          rw [set_of_listed hlisted] at hsame
          exact ⟨hlisted, (ih hrest).mp hsame⟩
        · rintro ⟨hlisted, hbehind⟩
          rw [set_of_listed hlisted]
          exact (ih hrest).mpr hbehind
      next overflow hoverflow =>
        have hfits : pool.fits (currency, amount) = false := by
          rw [fits, hoverflow, Except.isOk]
          rfl
        simp [hfits]

theorem accumulate_fst_ne_iff (pool other : Pool) :
    (pool.accumulate other).1 ≠ pool ↔
      ∃ entry ∈ pool.added other, entry.2 ≠ 0 ∨ pool.amounts.get? entry.1 = none := by
  rw [accumulate, ne_eq, combineEach_fst_eq_iff other.amounts.nodup_keys, added]
  simp only [not_forall, not_and_or, not_not, exists_prop, ne_eq]

end Pool

namespace Account

variable {account : Account} {funds : Pool} {overflow : Overflow}

theorem resync_of_funds_eq_ok (h : account.funds = .ok funds) :
    account.resync = { account with outOfSync := account.spent.exceeds funds }.touch := by
  rw [resync, h]

theorem resync_of_funds_eq_error (h : account.funds = .error overflow) :
    account.resync = (account, some overflow) := by
  rw [resync, h]

theorem touch_eq_iff {after : Account} : account.touch = (after, none) ↔
    account.version.toNat + 1 < 0x10000000000000000 ∧
      after = { account with version := account.version + 1 } := by
  unfold touch
  split
  next hroom => simp only [Prod.mk.injEq, and_true, hroom, true_and, eq_comm]
  next hfull => exact iff_of_false (fun h => nomatch congrArg Prod.snd h) fun h => hfull h.1

end Account

-- A write of one of an account's pools.
inductive PoolWrite where
  | budget (pool : Pool)
  | balance (pool : Pool)
  | adjustment (pool : Pool)
  | spend (pool : Pool)

namespace PoolWrite

section Accounts

variable (account : Account)

def change : PoolWrite → Account → Account × Option Overflow
  | .budget pool => Account.setBudget pool
  | .balance pool => Account.setBalance pool
  | .adjustment pool => Account.addAdjustment pool
  | .spend pool => Account.reportSpend pool

-- What the write adds up before it counts.
def sum : PoolWrite → Except Overflow Pool
  | .budget pool => { account with budget := pool }.funds
  | .balance pool => { account with balance := pool }.funds
  | .adjustment pool => account.adjustments.plus pool
  | .spend _ => account.funds

-- The account with a sum that fits, before the write counts.
def written (sum : Pool) : PoolWrite → Account
  | .budget pool =>
      { account with budget := pool, outOfSync := account.spent.exceeds sum }
  | .balance pool =>
      { account with balance := pool, outOfSync := account.spent.exceeds sum }
  | .adjustment _ => { account with adjustments := sum }
  | .spend pool => { account with spent := pool, outOfSync := pool.exceeds sum }

-- The account as a sum that does not fit leaves it.
def halted : PoolWrite → Account
  | .budget pool => { account with budget := pool }
  | .balance pool => { account with balance := pool }
  | .adjustment pool =>
      { account with adjustments := (account.adjustments.accumulate pool).1 }
  | .spend _ => account

-- The sum or the version does not fit its word.
def Overflows (write : PoolWrite) : Prop :=
  (∃ overflow, write.sum account = .error overflow) ∨ account.version.toNat + 1 = 0x10000000000000000

-- The comparison with the funds, if they can be added up, comes out otherwise than recorded.
def Reflags (spent : Pool) (sum : Except Overflow Pool) : Prop :=
  ∃ funds, sum = .ok funds ∧ spent.exceeds funds ≠ account.outOfSync

-- The write changes the account before it can overflow. New spend alone is taken over only once
-- the funds are added up.
def Tears (write : PoolWrite) : Prop :=
  match write with
  | .budget pool => pool ≠ account.budget ∨ Reflags account account.spent (write.sum account)
  | .balance pool => pool ≠ account.balance ∨ Reflags account account.spent (write.sum account)
  | .adjustment pool => ∃ entry ∈ account.adjustments.added pool,
      entry.2 ≠ 0 ∨ account.adjustments.amounts.get? entry.1 = none
  | .spend pool => (∃ funds, write.sum account = .ok funds) ∧ pool ≠ account.spent ∨
      Reflags account pool (write.sum account)

variable {account} {write : PoolWrite}

theorem change_of_sum_eq_ok {sum : Pool} (h : write.sum account = .ok sum) :
    write.change account = (write.written account sum).touch := by
  cases write with
  | budget pool => exact Account.resync_of_funds_eq_ok h
  | balance pool => exact Account.resync_of_funds_eq_ok h
  | adjustment pool =>
      have hsum : account.adjustments.accumulate pool = (sum, none) :=
        Pool.complete_eq_ok_iff.mp h
      simp only [change, Account.addAdjustment, hsum, written]
  | spend pool =>
      have hsum : account.funds = .ok sum := h
      simp only [change, Account.reportSpend, hsum, written]

theorem change_of_sum_eq_error {overflow : Overflow} (h : write.sum account = .error overflow) :
    write.change account = (write.halted account, some overflow) := by
  cases write with
  | budget pool => exact Account.resync_of_funds_eq_error h
  | balance pool => exact Account.resync_of_funds_eq_error h
  | adjustment pool =>
      have hsum : account.adjustments.accumulate pool =
          ((account.adjustments.accumulate pool).1, some overflow) :=
        Prod.ext rfl (Pool.complete_eq_error_iff.mp h)
      rw [change, Account.addAdjustment, hsum, halted]
  | spend pool =>
      have hsum : account.funds = .error overflow := h
      simp only [change, Account.reportSpend, hsum, halted]

theorem reflags_iff {spent sum : Pool} :
    Reflags account spent (.ok sum) ↔ spent.exceeds sum ≠ account.outOfSync := by
  simp [Reflags]

-- Whichever overflow stops it, in the sum or in the version, it leaves the account changed exactly
-- if the write tears it.
theorem halted_ne_iff {overflow : Overflow} (h : write.sum account = .error overflow) :
    write.halted account ≠ account ↔ write.Tears account := by
  have hflag (spent : Pool) : ¬Reflags account spent (write.sum account) := by
    rintro ⟨funds, hfunds, -⟩
    rw [h] at hfunds
    cases hfunds
  cases write with
  | budget pool =>
      rw [Tears, or_iff_left (hflag account.spent), not_iff_not, halted]
      exact ⟨fun hsame => congrArg Account.budget hsame, fun hsame => by rw [hsame]⟩
  | balance pool =>
      rw [Tears, or_iff_left (hflag account.spent), not_iff_not, halted]
      exact ⟨fun hsame => congrArg Account.balance hsame, fun hsame => by rw [hsame]⟩
  | adjustment pool =>
      rw [Tears, ← Pool.accumulate_fst_ne_iff, not_iff_not, halted]
      exact ⟨fun hsame => congrArg Account.adjustments hsame, fun hsame => by rw [hsame]⟩
  | spend pool =>
      rw [Tears, or_iff_left (hflag pool), halted]
      simp [h]

theorem written_ne_iff {sum : Pool} (h : write.sum account = .ok sum) :
    write.written account sum ≠ account ↔ write.Tears account := by
  cases write with
  | budget pool =>
      rw [Tears, h, reflags_iff, ← not_and_or, not_iff_not, written]
      constructor
      · exact fun hsame => ⟨congrArg Account.budget hsame, congrArg Account.outOfSync hsame⟩
      · rintro ⟨rfl, hflag⟩
        rw [hflag]
  | balance pool =>
      rw [Tears, h, reflags_iff, ← not_and_or, not_iff_not, written]
      constructor
      · exact fun hsame => ⟨congrArg Account.balance hsame, congrArg Account.outOfSync hsame⟩
      · rintro ⟨rfl, hflag⟩
        rw [hflag]
  | adjustment pool =>
      have hsum : account.adjustments.accumulate pool = (sum, none) :=
        Pool.complete_eq_ok_iff.mp h
      rw [Tears, ← Pool.accumulate_fst_ne_iff, not_iff_not, written, hsum]
      constructor
      · exact fun hsame => congrArg Account.adjustments hsame
      · rintro rfl
        rfl
  | spend pool =>
      rw [Tears, h, reflags_iff, and_iff_right ⟨sum, rfl⟩, ← not_and_or, not_iff_not, written]
      constructor
      · exact fun hsame => ⟨congrArg Account.spent hsame, congrArg Account.outOfSync hsame⟩
      · rintro ⟨rfl, hflag⟩
        rw [hflag]

-- A write counts, or it overflows and may leave the account changed all the same.
theorem change_cases (write : PoolWrite) (account : Account) :
    (∃ new, write.change account = (new, none) ∧ ¬write.Overflows account ∧
        new.version.toNat = account.version.toNat + 1) ∨
      ∃ left overflow, write.change account = (left, some overflow) ∧ write.Overflows account ∧
        left.version = account.version ∧ (left ≠ account ↔ write.Tears account) := by
  have hword := account.version.toNat_lt
  cases hsum : write.sum account with
  | error overflow =>
      have hversion : (write.halted account).version = account.version := by cases write <;> rfl
      exact .inr ⟨write.halted account, overflow, change_of_sum_eq_error hsum,
        .inl ⟨overflow, hsum⟩, hversion, halted_ne_iff hsum⟩
  | ok sum =>
      have hversion : (write.written account sum).version = account.version := by
        cases write <;> rfl
      rw [change_of_sum_eq_ok hsum, Account.touch, hversion, Overflows, hsum]
      split
      next hroom =>
        refine .inl ⟨_, rfl, ?_, ?_⟩
        · rintro (⟨overflow, hoverflow⟩ | hfull)
          · cases hoverflow
          · omega
        · rw [UInt64.toNat_add]
          exact Nat.mod_eq_of_lt hroom
      next hfull =>
        exact .inr ⟨_, _, rfl, .inr (by omega), hversion, written_ne_iff hsum⟩

end Accounts

def apply (ledger : Ledger) (key : Key) : PoolWrite → Ledger.Outcome Account
  | .budget pool => ledger.setBudget key pool
  | .balance pool => ledger.setBalance key pool
  | .adjustment pool => ledger.addAdjustment key pool
  | .spend pool => ledger.reportSpend key pool

theorem apply_eq (write : PoolWrite) (ledger : Ledger) (key : Key) :
    write.apply ledger key = ledger.changeActive key write.change := by
  cases write <;> rfl

-- A write is answered with the account as its next version, if there is one.
theorem apply_eq_ok_iff (write : PoolWrite) {ledger : Ledger} {key : Key} {new : Account} :
    (write.apply ledger key).2 = .ok new ↔ ∃ old sum, ledger.get? key = some old ∧
      old.isActive = true ∧ write.sum old = .ok sum ∧
      old.version.toNat + 1 < 0x10000000000000000 ∧
      new = { write.written old sum with version := old.version + 1 } := by
  rw [apply_eq, Ledger.changeActive_eq_ok_iff]
  refine exists_congr fun old => ?_
  have hversion (sum : Pool) : (write.written old sum).version = old.version := by
    cases write <;> rfl
  cases hsum : write.sum old with
  | error overflow =>
      rw [change_of_sum_eq_error hsum]
      exact iff_of_false (fun h => nomatch congrArg Prod.snd h.2.2) fun ⟨_, _, _, h, _⟩ => nomatch h
  | ok sum =>
      rw [change_of_sum_eq_ok hsum, Account.touch_eq_iff, hversion]
      constructor
      · rintro ⟨hold, hactive, hroom, hnew⟩
        exact ⟨sum, hold, hactive, rfl, hroom, hnew⟩
      · rintro ⟨_, hold, hactive, ⟨⟩, hroom, hnew⟩
        exact ⟨hold, hactive, hroom, hnew⟩

-- Anything but an open account is refused before the write begins.
theorem apply_cases (write : PoolWrite) (ledger : Ledger) (key : Key) :
    (∃ error, write.apply ledger key = ledger.refuse error ∧
        ∀ old, ledger.get? key = some old → ¬old.isActive = true) ∨
      ∃ old, ledger.get? key = some old ∧ old.isActive = true ∧
        ((∃ new, write.apply ledger key = (ledger.set key new, .ok new) ∧
            ¬write.Overflows old ∧ new.version.toNat = old.version.toNat + 1) ∨
          ∃ left overflow, write.apply ledger key = (ledger.set key left).stop overflow ∧
            write.Overflows old ∧ left.version = old.version ∧
            (left ≠ old ↔ write.Tears old)) := by
  rw [apply_eq]
  unfold Ledger.changeActive
  cases hold : ledger.get? key with
  | none => exact .inl ⟨.notFound key, rfl, nofun⟩
  | some old =>
      by_cases hactive : old.isActive = true
      · refine .inr ⟨old, rfl, hactive, ?_⟩
        simp only [hactive, ite_true]
        rcases write.change_cases old with
          ⟨new, hchange, hfits, hversion⟩ | ⟨left, overflow, hchange, hstops, hversion, htears⟩
        · rw [hchange]
          exact .inl ⟨new, rfl, hfits, hversion⟩
        · rw [hchange]
          exact .inr ⟨left, overflow, rfl, hstops, hversion, htears⟩
      · refine .inl ⟨.closed key, if_neg hactive, fun found hfound => ?_⟩
        rwa [← Option.some.inj hfound]

end PoolWrite

namespace Ledger

theorem set_ne_iff {ledger : Ledger} {key : Key} {old left : Account}
    (hold : ledger.get? key = some old) : ledger.set key left ≠ ledger ↔ left ≠ old := by
  rw [not_iff_not]
  constructor
  · intro hsame
    have hget := congrArg (·.get? key) hsame
    rw [get?_set, if_pos rfl, hold] at hget
    exact Option.some.inj hget
  · rintro rfl
    refine eq_of_get?_eq fun other => ?_
    rw [get?_set]
    split
    next he => rw [he, hold]
    next => rfl

-- A write stops if it overflows on an open account, and then the account keeps its version. It
-- leaves another ledger behind without coming to its end exactly if it has changed the account
-- by then.
theorem pool_write_tears_iff (ledger : Ledger) (key : Key) (write : PoolWrite) :
    (∀ new, (write.apply ledger key).2 = .ok new → ∃ old, ledger.get? key = some old ∧
        new.version.toNat = old.version.toNat + 1 ∧
        (write.apply ledger key).1 = ledger.set key new) ∧
      (∀ error, (write.apply ledger key).2 = .error (.refused error) →
        (write.apply ledger key).1 = ledger) ∧
      ((∃ overflow, (write.apply ledger key).2 = .error (.overflow overflow)) ↔
        ∃ old, ledger.get? key = some old ∧ old.isActive = true ∧ write.Overflows old) ∧
      (∀ overflow, (write.apply ledger key).2 = .error (.overflow overflow) →
        ∃ old left, ledger.get? key = some old ∧ left.version = old.version ∧
          (write.apply ledger key).1 = ledger.set key left) ∧
      ((∀ new, (write.apply ledger key).2 ≠ .ok new) ∧ (write.apply ledger key).1 ≠ ledger ↔
        ∃ old, ledger.get? key = some old ∧ old.isActive = true ∧ write.Overflows old ∧
          write.Tears old) := by
  rcases write.apply_cases ledger key with ⟨error, happly, hclosed⟩ | ⟨old, hold, hactive, hrest⟩
  · rw [happly]
    refine ⟨nofun, fun _ _ => rfl, ⟨nofun, ?_⟩, nofun, fun h => absurd rfl h.2, ?_⟩
    · rintro ⟨old, hold, hactive, -⟩
      exact absurd hactive (hclosed old hold)
    · rintro ⟨old, hold, hactive, -⟩
      exact absurd hactive (hclosed old hold)
  · have honly {found : Account} (hfound : ledger.get? key = some found) : found = old := by
      rw [hold, Option.some.injEq] at hfound
      exact hfound.symm
    rcases hrest with
      ⟨new, happly, hfits, hversion⟩ | ⟨left, overflow, happly, hstops, hversion, htears⟩
    · rw [happly]
      refine ⟨?_, nofun, ⟨nofun, ?_⟩, nofun, fun h => absurd rfl (h.1 new), ?_⟩
      · rintro _ ⟨⟩
        exact ⟨old, hold, hversion, rfl⟩
      · rintro ⟨found, hfound, -, hstops⟩
        exact absurd (honly hfound ▸ hstops) hfits
      · rintro ⟨found, hfound, -, hstops, -⟩
        exact absurd (honly hfound ▸ hstops) hfits
    · rw [happly]
      refine ⟨nofun, nofun, ⟨fun _ => ⟨old, hold, hactive, hstops⟩, fun _ => ⟨overflow, rfl⟩⟩,
        fun _ _ => ⟨old, left, hold, hversion, rfl⟩, ?_⟩
      have hne : ((ledger.set key left).stop overflow : Outcome Account).1 ≠ ledger ↔
          write.Tears old := (set_ne_iff hold).trans htears
      constructor
      · exact fun h => ⟨old, hold, hactive, hstops, hne.mp h.2⟩
      · rintro ⟨found, hfound, -, -, htorn⟩
        exact ⟨nofun, hne.mpr (honly hfound ▸ htorn)⟩

-- An account with as much budget as an amount can hold.
def brimmed : Account :=
  { Account.new ⟨"m"⟩ .budget with version := 2, budget := ⟨.ofList [("U", 0x7FFFFFFFFFFFFFFF)]⟩ }

def brimful : Ledger :=
  ((empty.create ⟨"m"⟩ .budget).1.setBudget ⟨"m"⟩ brimmed.budget).1

-- One unit of balance more stops halfway: it is recorded, and the version stays.
theorem pool_write_tears_brimful :
    (brimful.setBalance ⟨"m"⟩ ⟨.ofList [("U", 1)]⟩).2 = .error (.overflow .addition) ∧
      (brimful.setBalance ⟨"m"⟩ ⟨.ofList [("U", 1)]⟩).1 ≠ brimful ∧
      ∃ old left, brimful.get? ⟨"m"⟩ = some old ∧ left.version = old.version ∧
        (brimful.setBalance ⟨"m"⟩ ⟨.ofList [("U", 1)]⟩).1 = brimful.set ⟨"m"⟩ left := by
  obtain ⟨-, -, -, hstopped, htears⟩ :=
    pool_write_tears_iff brimful ⟨"m"⟩ (.balance ⟨.ofList [("U", 1)]⟩)
  have hanswer : (brimful.setBalance ⟨"m"⟩ ⟨.ofList [("U", 1)]⟩).2 =
      .error (.overflow .addition) := by decide +kernel
  have hold : brimful.get? ⟨"m"⟩ = some brimmed := by decide +kernel
  have hsum : (PoolWrite.balance ⟨.ofList [("U", 1)]⟩).sum brimmed = .error .addition := by
    decide +kernel
  have htorn : (PoolWrite.balance ⟨.ofList [("U", 1)]⟩).Tears brimmed :=
    .inl (by decide +kernel)
  have hne := (htears.mpr ⟨brimmed, hold, rfl, .inl ⟨.addition, hsum⟩, htorn⟩).2
  exact ⟨hanswer, hne, hstopped .addition hanswer⟩

end Ledger

end ShardedLedger
