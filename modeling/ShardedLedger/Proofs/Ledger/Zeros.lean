import ShardedLedger.Proofs.Ledger.PoolWrites

namespace ShardedLedger

namespace Pool

-- Both give every currency the same amount. A zero may be listed in the one and not in the other.
def IsAlike (a b : Pool) : Prop := ∀ currency, a.amount currency = b.amount currency

-- Two sums that are alike, or none on either side.
inductive EndsAlike : Except Overflow Pool → Except Overflow Pool → Prop where
  | fits {a b : Pool} (h : a.IsAlike b) : EndsAlike (.ok a) (.ok b)
  | stops (a b : Overflow) : EndsAlike (.error a) (.error b)

-- A currency that is listed with zero is above a limit that is less.
def ListsZeroAbove (pool limit : Pool) : Prop :=
  ∃ currency, pool.amounts.get? currency = some 0 ∧ limit.amount currency < 0

-- No amount but zero is above the limit.
def KeepsTo (pool limit : Pool) : Prop :=
  ∀ currency, pool.amount currency ≠ 0 → pool.amount currency ≤ limit.amount currency

section Alike

variable {a a' b b' : Pool}

theorem isEmpty_iff (pool : Pool) : pool.isEmpty = true ↔ ∀ currency, pool.amount currency = 0 := by
  simp only [isEmpty, SortedMap.values, List.all_map, List.all_eq_true, Function.comp_apply,
    beq_iff_eq]
  constructor
  · intro hzeros currency
    rw [amount]
    cases hlisted : pool.amounts.get? currency with
    | none => rfl
    | some amount =>
        exact hzeros (currency, amount) ((SortedMap.get?_eq_some_iff _ _ _).mp hlisted)
  · rintro hzeros ⟨currency, amount⟩ hentry
    have hlisted := (SortedMap.get?_eq_some_iff _ _ _).mpr hentry
    have hzero := hzeros currency
    rwa [Pool.amount, hlisted] at hzero

theorem IsAlike.isEmpty_eq (h : a.IsAlike b) : a.isEmpty = b.isEmpty := by
  rw [Bool.eq_iff_iff, isEmpty_iff, isEmpty_iff]
  exact forall_congr' fun currency => by rw [h currency]

theorem isAlike_of_isEmpty (ha : a.isEmpty = true) (hb : b.isEmpty = true) : a.IsAlike b :=
  fun currency => ((isEmpty_iff a).mp ha currency).trans ((isEmpty_iff b).mp hb currency).symm

theorem isAlike_of_toInt (h : ∀ currency, a.toInt currency = b.toInt currency) : a.IsAlike b :=
  fun currency => Int64.toInt_inj.mp (h currency)

theorem IsAlike.toInt_eq (h : a.IsAlike b) (currency : String) :
    a.toInt currency = b.toInt currency := congrArg Int64.toInt (h currency)

-- The sum depends on the amounts alone, and so does whether there is one.
theorem endsAlike_of {first second : Except Overflow Pool}
    (hfits : (∃ sum, first = .ok sum) ↔ ∃ sum, second = .ok sum)
    (hsums : ∀ a b, first = .ok a → second = .ok b →
      ∀ currency, a.toInt currency = b.toInt currency) : EndsAlike first second := by
  rcases first with overflow | a <;> rcases second with overflow' | b
  · exact .stops overflow overflow'
  · obtain ⟨_, h⟩ := hfits.mpr ⟨b, rfl⟩
    cases h
  · obtain ⟨_, h⟩ := hfits.mp ⟨a, rfl⟩
    cases h
  · exact .fits (isAlike_of_toInt (hsums a b rfl rfl))

theorem IsAlike.plus (ha : a.IsAlike a') (hb : b.IsAlike b') :
    EndsAlike (a.plus b) (a'.plus b') := by
  refine endsAlike_of ?_ fun sum sum' hsum hsum' currency => ?_
  · simp only [exists_plus_iff, ha.toInt_eq, hb.toInt_eq]
  · rw [toInt_of_plus hsum, toInt_of_plus hsum', ha.toInt_eq, hb.toInt_eq]

theorem IsAlike.minus (ha : a.IsAlike a') (hb : b.IsAlike b') :
    EndsAlike (a.minus b) (a'.minus b') := by
  refine endsAlike_of ?_ fun difference difference' hleft hleft' currency => ?_
  · simp only [exists_minus_iff, ha.toInt_eq, hb.toInt_eq]
  · rw [toInt_of_minus hleft, toInt_of_minus hleft', ha.toInt_eq, hb.toInt_eq]

-- An amount other than zero is listed in any case, so it makes no difference where it is compared.
theorem exceeds_iff (pool limit : Pool) :
    pool.exceeds limit = true ↔ ¬pool.KeepsTo limit ∨ pool.ListsZeroAbove limit := by
  have hany : pool.exceeds limit = true ↔ ∃ currency amount,
      pool.amounts.get? currency = some amount ∧ limit.amount currency < amount := by
    simp only [exceeds, List.any_eq_true, Prod.exists, SortedMap.get?_eq_some_iff,
      decide_eq_true_eq]
  rw [hany]
  simp only [KeepsTo, not_forall, Int64.not_le, ListsZeroAbove]
  constructor
  · rintro ⟨currency, amount, hlisted, habove⟩
    have hamount := amount_of_listed hlisted
    by_cases hzero : amount = 0
    · subst hzero
      exact .inr ⟨currency, hlisted, habove⟩
    · exact .inl ⟨currency, hamount ▸ hzero, hamount ▸ habove⟩
  · rintro (⟨currency, hne, habove⟩ | ⟨currency, hlisted, hbelow⟩)
    · cases hlisted : pool.amounts.get? currency with
      | none => exact absurd (by rw [Pool.amount, hlisted, Option.getD_none]) hne
      | some amount =>
          rw [amount_of_listed hlisted] at habove
          exact ⟨currency, amount, hlisted, habove⟩
    · exact ⟨currency, 0, hlisted, hbelow⟩

theorem IsAlike.keepsTo_iff (ha : a.IsAlike a') (hb : b.IsAlike b') :
    a.KeepsTo b ↔ a'.KeepsTo b' :=
  forall_congr' fun currency => by rw [ha currency, hb currency]

theorem IsAlike.listsZeroAbove_iff (hb : b.IsAlike b') :
    a.ListsZeroAbove b ↔ a.ListsZeroAbove b' :=
  exists_congr fun currency => by rw [hb currency]

theorem IsAlike.exceeds_ne_iff (ha : a.IsAlike a') (hb : b.IsAlike b') :
    a.exceeds b ≠ a'.exceeds b' ↔
      a.KeepsTo b ∧ ¬(a.ListsZeroAbove b ↔ a'.ListsZeroAbove b) := by
  rw [ne_eq, Bool.eq_iff_iff, exceeds_iff, exceeds_iff, ← ha.keepsTo_iff hb,
    ← hb.listsZeroAbove_iff]
  tauto

end Alike

end Pool

namespace Ledger

section Reports

variable {ledger : Ledger} {key : Key} {spent : Pool} {account : Account}

-- Whether a report of spend is taken over does not depend on the spend, and what is recorded of it
-- is the spend and how it compares with the funds.
theorem reportSpend_ok (h : (ledger.reportSpend key spent).2 = .ok account) (other : Pool) :
    ∃ funds, account.funds = .ok funds ∧ account.outOfSync = spent.exceeds funds ∧
      (ledger.reportSpend key other).2 =
        .ok { account with spent := other, outOfSync := other.exceeds funds } := by
  obtain ⟨old, funds, hold, hactive, hfunds, hroom, rfl⟩ :=
    (PoolWrite.spend spent).apply_eq_ok_iff.mp h
  exact ⟨funds, hfunds, rfl, (PoolWrite.spend other).apply_eq_ok_iff.mpr
    ⟨old, funds, hold, hactive, hfunds, hroom, rfl⟩⟩

end Reports

end Ledger

namespace Pool

-- Sums and differences of pools that are alike are alike, and the pools are empty or not alike.
-- They compare otherwise with a limit exactly if all else keeps to it and one of them alone lists
-- a zero where the limit is negative, and then the flags that reports of them set differ.
theorem listed_zeros_show_iff {a a' b b' : Pool} (ha : a.IsAlike a') (hb : b.IsAlike b') :
    EndsAlike (a.plus b) (a'.plus b') ∧ EndsAlike (a.minus b) (a'.minus b') ∧
      a.isEmpty = a'.isEmpty ∧
      (a.exceeds b ≠ a'.exceeds b' ↔
        a.KeepsTo b ∧ ¬(a.ListsZeroAbove b ↔ a'.ListsZeroAbove b)) ∧
      ∀ (ledger : Ledger) (key : Key) (account : Account),
        (ledger.reportSpend key a).2 = .ok account →
          ∃ funds account', account.funds = .ok funds ∧
            (ledger.reportSpend key a').2 = .ok account' ∧
            account' = { account with spent := a', outOfSync := account'.outOfSync } ∧
            (account.outOfSync ≠ account'.outOfSync ↔
              a.KeepsTo funds ∧ ¬(a.ListsZeroAbove funds ↔ a'.ListsZeroAbove funds)) := by
  refine ⟨ha.plus hb, ha.minus hb, ha.isEmpty_eq, ha.exceeds_ne_iff hb, ?_⟩
  intro ledger key account hreport
  obtain ⟨funds, hfunds, hflag, hother⟩ := Ledger.reportSpend_ok hreport a'
  refine ⟨funds, _, hfunds, hother, rfl, ?_⟩
  rw [hflag]
  exact ha.exceeds_ne_iff fun _ => rfl

-- An account with five units less than nothing.
def overdrawn : Ledger :=
  let created := (Ledger.empty.create ⟨"m"⟩ .spend).1
  (created.setBudget ⟨"m"⟩ ⟨.ofList [("U", -5)]⟩).1

-- No spend at all is above that if it is reported as a zero, and not if it is left out.
theorem listed_zeros_show_overdrawn :
    IsAlike ⟨.ofList [("U", 0)]⟩ empty ∧
      exceeds ⟨.ofList [("U", 0)]⟩ ⟨.ofList [("U", -5)]⟩ ≠ exceeds empty ⟨.ofList [("U", -5)]⟩ ∧
      ∃ account account', (overdrawn.reportSpend ⟨"m"⟩ ⟨.ofList [("U", 0)]⟩).2 = .ok account ∧
        (overdrawn.reportSpend ⟨"m"⟩ empty).2 = .ok account' ∧
        account.outOfSync ≠ account'.outOfSync := by
  have halike : IsAlike ⟨.ofList [("U", 0)]⟩ empty :=
    isAlike_of_isEmpty (by decide) (by decide)
  have hlimit : IsAlike ⟨.ofList [("U", -5)]⟩ ⟨.ofList [("U", -5)]⟩ := fun _ => rfl
  have hkeeps : KeepsTo ⟨.ofList [("U", 0)]⟩ ⟨.ofList [("U", -5)]⟩ := fun currency hne =>
    absurd ((isEmpty_iff _).mp (by decide) currency) hne
  have hlists : ListsZeroAbove ⟨.ofList [("U", 0)]⟩ ⟨.ofList [("U", -5)]⟩ :=
    ⟨"U", by decide, by decide⟩
  have hnone : ¬ListsZeroAbove empty ⟨.ofList [("U", -5)]⟩ := fun ⟨_, hlisted, _⟩ => nomatch hlisted
  have hdiffer : ¬(ListsZeroAbove ⟨.ofList [("U", 0)]⟩ ⟨.ofList [("U", -5)]⟩ ↔
      ListsZeroAbove empty ⟨.ofList [("U", -5)]⟩) := fun hsame => hnone (hsame.mp hlists)
  obtain ⟨-, -, -, hexceeds, hreports⟩ := listed_zeros_show_iff halike hlimit
  obtain ⟨account, hreport, hfunds⟩ : ∃ account,
      (overdrawn.reportSpend ⟨"m"⟩ ⟨.ofList [("U", 0)]⟩).2 = .ok account ∧
        account.funds = .ok ⟨.ofList [("U", -5)]⟩ :=
    ⟨{ Account.new ⟨"m"⟩ .spend with
        version := 3, budget := ⟨.ofList [("U", -5)]⟩,
        spent := ⟨.ofList [("U", 0)]⟩, outOfSync := true }, by decide +kernel, by decide +kernel⟩
  obtain ⟨funds, account', hsum, hreport', -, hflags⟩ := hreports _ _ _ hreport
  obtain rfl := Except.ok.inj (hsum.symm.trans hfunds)
  exact ⟨halike, hexceeds.mpr ⟨hkeeps, hdiffer⟩, account, account', hreport, hreport',
    hflags.mpr ⟨hkeeps, hdiffer⟩⟩

end Pool

end ShardedLedger
