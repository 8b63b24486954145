import ShardedLedger.Ledger.Account
import ShardedLedger.Proofs.Except
import ShardedLedger.Proofs.SortedMap

namespace ShardedLedger

namespace Amount

def InRange (value : Int) : Prop := least ≤ value ∧ value ≤ greatest

theorem inRange_toInt (amount : Amount) : InRange amount.toInt := by
  have hlow := amount.le_toInt
  have hhigh := amount.toInt_lt
  unfold InRange least greatest
  omega

theorem ofInt?_eq_some_iff {value : Int} {amount : Amount} :
    ofInt? value = some amount ↔ amount.toInt = value := by
  have hlow := amount.le_toInt
  have hhigh := amount.toInt_lt
  unfold ofInt? least greatest
  split
  next hfits =>
    have hvalue := Int64.toInt_ofInt_of_le (show -2 ^ 63 ≤ value by omega) (by omega)
    rw [Option.some.injEq, ← Int64.toInt_inj, hvalue, eq_comm]
  next hnot => exact ⟨nofun, fun h => absurd (by omega) hnot⟩

theorem plus_eq_ok_iff {a b sum : Amount} :
    a.plus b = .ok sum ↔ sum.toInt = a.toInt + b.toInt := by
  rw [← ofInt?_eq_some_iff, plus]
  split
  next result hresult => rw [hresult, Except.ok.injEq, Option.some.injEq]
  next hnone => simp [hnone]

theorem minus_eq_ok_iff {a b difference : Amount} :
    a.minus b = .ok difference ↔ difference.toInt = a.toInt - b.toInt := by
  rw [← ofInt?_eq_some_iff, minus]
  split
  next result hresult => rw [hresult, Except.ok.injEq, Option.some.injEq]
  next hnone => simp [hnone]

theorem exists_ofInt?_iff {value : Int} :
    (∃ amount, ofInt? value = some amount) ↔ InRange value := by
  unfold ofInt? InRange
  split
  next hfits => exact iff_of_true ⟨_, rfl⟩ hfits
  next hnot => exact iff_of_false (fun ⟨_, h⟩ => nomatch h) hnot

theorem exists_plus_iff {a b : Amount} :
    (∃ sum, a.plus b = .ok sum) ↔ InRange (a.toInt + b.toInt) := by
  simp only [plus_eq_ok_iff, ← ofInt?_eq_some_iff, exists_ofInt?_iff]

theorem exists_minus_iff {a b : Amount} :
    (∃ difference, a.minus b = .ok difference) ↔ InRange (a.toInt - b.toInt) := by
  simp only [minus_eq_ok_iff, ← ofInt?_eq_some_iff, exists_ofInt?_iff]

theorem plus_zero (amount : Amount) : amount.plus 0 = .ok amount := by
  rw [plus_eq_ok_iff, Int64.toInt_zero, Int.add_zero]

theorem minus_zero (amount : Amount) : amount.minus 0 = .ok amount := by
  rw [minus_eq_ok_iff, Int64.toInt_zero, Int.sub_zero]

end Amount

namespace Pool

theorem get?_set (pool : Pool) (currency other : String) (amount : Amount) :
    (pool.set currency amount).amounts.get? other =
      if other = currency then some amount else pool.amounts.get? other :=
  SortedMap.get?_insert pool.amounts currency amount other

theorem amount_of_listed {pool : Pool} {currency : String} {amount : Amount}
    (h : pool.amounts.get? currency = some amount) : pool.amount currency = amount := by
  rw [Pool.amount, h, Option.getD_some]

theorem complete_eq_ok_iff {result : Pool × Option Overflow} {pool : Pool} :
    complete result = .ok pool ↔ result = (pool, none) := by
  obtain ⟨left, _ | overflow⟩ := result <;> simp [complete]

theorem complete_eq_error_iff {result : Pool × Option Overflow} {overflow : Overflow} :
    complete result = .error overflow ↔ result.2 = some overflow := by
  obtain ⟨left, _ | overflow⟩ := result <;> simp [complete]

theorem amount_set (pool : Pool) (currency other : String) (amount : Amount) :
    (pool.set currency amount).amount other =
      if other = currency then amount else pool.amount other := by
  rw [Pool.amount, get?_set]
  split
  next => rfl
  next => rfl

theorem get?_combineEach_of_notMem {combine : Amount → Amount → Except Overflow Amount}
    {changes : List (String × Amount)} {currency : String}
    (hcurrency : currency ∉ changes.map (·.1)) (pool : Pool) :
    (combineEach combine changes pool).1.amounts.get? currency = pool.amounts.get? currency := by
  fun_induction combineEach combine changes pool with
  | case1 => rfl
  | case2 pool first amount rest result _ ih =>
      obtain ⟨hne, hrest⟩ := not_or.mp (List.mem_cons.not.mp hcurrency)
      rw [ih hrest, get?_set, if_neg hne]
  | case3 => rfl

section Combining

variable {combine : Amount → Amount → Except Overflow Amount} {currency : String}

theorem combineEach_cons_eq_iff {first : String × Amount} {rest : List (String × Amount)}
    {pool result : Pool} : combineEach combine (first :: rest) pool = (result, none) ↔
      ∃ changed, combine (pool.amount first.1) first.2 = .ok changed ∧
        combineEach combine rest (pool.set first.1 changed) = (result, none) := by
  rw [combineEach]
  split
  next changed hchanged => simp [hchanged]
  next overflow hoverflow => simp [hoverflow]

-- By induction on the entries. No currency comes twice, so each amount is combined once at most;
-- with a currency that is not among the entries it is as if zero were combined.
theorem combine_amount_of_combineEach (hzero : ∀ amount, combine amount 0 = .ok amount)
    {changes : List (String × Amount)} (hnodup : (changes.map (·.1)).Nodup) {pool result : Pool}
    (h : combineEach combine changes pool = (result, none)) :
    combine (pool.amount currency) ((SortedMap.lookupEntry currency changes).getD 0) =
      .ok (result.amount currency) := by
  induction changes generalizing pool with
  | nil =>
      cases h
      exact hzero _
  | cons first rest ih =>
      obtain ⟨hfirst, hrest⟩ := List.nodup_cons.mp hnodup
      obtain ⟨changed, hchanged, hbehind⟩ := combineEach_cons_eq_iff.mp h
      by_cases he : currency = first.1
      · have hkept : (combineEach combine rest (pool.set first.1 changed)).1.amounts.get? currency =
            some changed := by
          rw [get?_combineEach_of_notMem (he ▸ hfirst), get?_set, if_pos he]
        rw [hbehind] at hkept
        rw [SortedMap.lookupEntry, if_pos (Std.LawfulEqCmp.compare_eq_iff_eq.mpr he),
          amount.eq_def result, hkept, he]
        exact hchanged
      · have hrun := ih hrest hbehind
        rw [amount_set, if_neg he] at hrun
        rwa [SortedMap.lookupEntry, if_neg (Std.LawfulEqCmp.compare_eq_iff_eq.not.mpr he)]

-- It comes to its end if no amount stops it, the entries having no currency in common.
theorem exists_combineEach_iff (hzero : ∀ amount, combine amount 0 = .ok amount)
    {changes : List (String × Amount)} (hnodup : (changes.map (·.1)).Nodup) {pool : Pool} :
    (∃ result, combineEach combine changes pool = (result, none)) ↔ ∀ currency, ∃ changed,
      combine (pool.amount currency) ((SortedMap.lookupEntry currency changes).getD 0) =
        .ok changed := by
  constructor
  · rintro ⟨result, hresult⟩ currency
    exact ⟨_, combine_amount_of_combineEach hzero hnodup hresult⟩
  · intro hfits
    induction changes generalizing pool with
    | nil => exact ⟨pool, rfl⟩
    | cons first rest ih =>
        obtain ⟨hfirst, hrest⟩ := List.nodup_cons.mp hnodup
        obtain ⟨changed, hchanged⟩ := hfits first.1
        rw [SortedMap.lookupEntry, if_pos Std.ReflCmp.compare_self, Option.getD_some] at hchanged
        have hbehind : ∃ result, combineEach combine rest (pool.set first.1 changed) =
            (result, none) := by
          refine ih hrest fun currency => ?_
          rw [amount_set]
          by_cases he : currency = first.1
          · rw [SortedMap.lookupEntry_eq_none_of_forall_ne currency rest]
            · exact ⟨_, hzero _⟩
            · rintro entry hentry rfl
              exact hfirst (List.mem_map.mpr ⟨entry, hentry, he⟩)
          · have hother := hfits currency
            rw [SortedMap.lookupEntry, if_neg (Std.LawfulEqCmp.compare_eq_iff_eq.not.mpr he)] at hother
            rwa [if_neg he]
        obtain ⟨result, hresult⟩ := hbehind
        exact ⟨result, combineEach_cons_eq_iff.mpr ⟨changed, hchanged, hresult⟩⟩

variable {pool other result : Pool}

-- The amount of a currency as a number without a bound.
def toInt (pool : Pool) (currency : String) : Int := (pool.amount currency).toInt

theorem inRange_toInt (pool : Pool) (currency : String) : Amount.InRange (pool.toInt currency) :=
  (pool.amount currency).inRange_toInt

theorem toInt_of_plus (h : pool.plus other = .ok result) (currency : String) :
    result.toInt currency = pool.toInt currency + other.toInt currency :=
  Amount.plus_eq_ok_iff.mp (combine_amount_of_combineEach Amount.plus_zero
    other.amounts.nodup_keys (complete_eq_ok_iff.mp h))

theorem toInt_of_minus (h : pool.minus other = .ok result) (currency : String) :
    result.toInt currency = pool.toInt currency - other.toInt currency :=
  Amount.minus_eq_ok_iff.mp (combine_amount_of_combineEach Amount.minus_zero
    other.amounts.nodup_keys (complete_eq_ok_iff.mp h))

theorem exists_plus_iff : (∃ sum, pool.plus other = .ok sum) ↔
    ∀ currency, Amount.InRange (pool.toInt currency + other.toInt currency) := by
  simp only [plus, accumulate, complete_eq_ok_iff,
    exists_combineEach_iff Amount.plus_zero other.amounts.nodup_keys, Amount.exists_plus_iff]
  rfl

theorem exists_minus_iff : (∃ difference, pool.minus other = .ok difference) ↔
    ∀ currency, Amount.InRange (pool.toInt currency - other.toInt currency) := by
  simp only [minus, complete_eq_ok_iff,
    exists_combineEach_iff Amount.minus_zero other.amounts.nodup_keys, Amount.exists_minus_iff]
  rfl

end Combining

end Pool

namespace Account

variable {account : Account} {available : Pool}

-- What the account has left of a currency, as if amounts had no bound.
def left (account : Account) (currency : String) : Int :=
  account.budget.toInt currency + account.balance.toInt currency +
    account.adjustments.toInt currency - account.spent.toInt currency

-- No number on the way to what is left is out of range.
def Fits (account : Account) : Prop := ∀ currency,
  Amount.InRange (account.budget.toInt currency + account.balance.toInt currency) ∧
  Amount.InRange (account.budget.toInt currency + account.balance.toInt currency +
    account.adjustments.toInt currency) ∧
  Amount.InRange (account.left currency)

theorem available_eq_ok_iff : account.available = .ok available ↔
    ∃ held funds, account.budget.plus account.balance = .ok held ∧
      held.plus account.adjustments = .ok funds ∧ funds.minus account.spent = .ok available := by
  simp only [Account.available, funds, bind_eq_ok_iff]
  constructor
  · rintro ⟨funds, ⟨held, hheld, hfunds⟩, havailable⟩
    exact ⟨held, funds, hheld, hfunds, havailable⟩
  · rintro ⟨held, funds, hheld, hfunds, havailable⟩
    exact ⟨funds, ⟨held, hheld, hfunds⟩, havailable⟩

theorem toInt_of_available (h : account.available = .ok available) (currency : String) :
    available.toInt currency = account.left currency := by
  obtain ⟨held, funds, hheld, hfunds, havailable⟩ := available_eq_ok_iff.mp h
  rw [Pool.toInt_of_minus havailable, Pool.toInt_of_plus hfunds, Pool.toInt_of_plus hheld, left]

theorem exists_available_iff (account : Account) :
    (∃ available, account.available = .ok available) ↔ account.Fits := by
  constructor
  · rintro ⟨available, h⟩ currency
    rw [← toInt_of_available h]
    obtain ⟨held, funds, hheld, hfunds, -⟩ := available_eq_ok_iff.mp h
    rw [← Pool.toInt_of_plus hheld, ← Pool.toInt_of_plus hfunds]
    exact ⟨held.inRange_toInt currency, funds.inRange_toInt currency,
      available.inRange_toInt currency⟩
  · intro hfits
    obtain ⟨held, hheld⟩ := Pool.exists_plus_iff.mpr fun currency => (hfits currency).1
    have hadjusted (currency : String) :
        Amount.InRange (held.toInt currency + account.adjustments.toInt currency) := by
      rw [Pool.toInt_of_plus hheld]
      exact (hfits currency).2.1
    obtain ⟨funds, hfunds⟩ := Pool.exists_plus_iff.mpr hadjusted
    have hspent (currency : String) :
        Amount.InRange (funds.toInt currency - account.spent.toInt currency) := by
      rw [Pool.toInt_of_plus hfunds, Pool.toInt_of_plus hheld]
      exact (hfits currency).2.2
    obtain ⟨available, havailable⟩ := Pool.exists_minus_iff.mpr hspent
    exact ⟨available, available_eq_ok_iff.mpr ⟨held, funds, hheld, hfunds, havailable⟩⟩

end Account

end ShardedLedger
