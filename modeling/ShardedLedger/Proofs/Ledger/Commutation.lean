import ShardedLedger.Proofs.Ledger.Creation

namespace ShardedLedger

-- What a creation makes of the account that it finds under another key: at and above its own key
-- a missing one is added and one that is there opens.
def Account.planted (key : Key) (type : AccountType) (other : Key) (found : Option Account) :
    Option Account :=
  if other.contains key = true then
    match found with
    | none => some (.new other (if other = key then type else .budget))
    | some account => some account.opened
  else found

namespace Account

variable {key other : Key} {type : AccountType}

theorem planted_none (h : other.contains key = true) :
    planted key type other none = some (.new other (if other = key then type else .budget)) :=
  if_pos h

theorem planted_of_isActive {account : Account} (h : account.isActive = true) :
    planted key type other (some account) = some account := by
  unfold planted
  split
  next => exact congrArg some (opened_of_isActive h)
  next => rfl

-- The order makes no difference to an account that is there. A missing one is added by whichever
-- comes first, so both have to add the same.
theorem planted_comm {first second : Key} {type otherType : AccountType} (found : Option Account)
    (h : found = none → other.contains first = true → other.contains second = true →
      (if other = first then type else .budget) =
        if other = second then otherType else AccountType.budget) :
    planted second otherType other (planted first type other found) =
      planted first type other (planted second otherType other found) := by
  by_cases hfirst : other.contains first = true
  · by_cases hsecond : other.contains second = true
    · cases found with
      | none =>
          have hnew (type : AccountType) : (Account.new other type).isActive = true := rfl
          rw [planted_none hfirst, planted_none hsecond, planted_of_isActive (hnew _),
            planted_of_isActive (hnew _), h rfl hfirst hsecond]
      | some account => simp only [planted, hfirst, hsecond, ite_true, opened_opened]
    · simp only [planted, hsecond, Bool.false_eq_true, ite_false]
  · simp only [planted, hfirst, Bool.false_eq_true, ite_false]

end Account

namespace Ledger

section Planted

variable {ledger : Ledger} {key other : Key} {type : AccountType} {account : Account}

theorem IsTree.exists_of_contains (htree : ledger.IsTree) (hget : ledger.get? key = some account)
    (hcontains : other.contains key = true) :
    ∃ above, ledger.get? other = some above ∧
      (account.isActive = true → above.isActive = true) := by
  rcases (Key.contains_iff other key).mp hcontains with rfl | habove
  · exact ⟨account, hget, id⟩
  · obtain ⟨parent, hparent, -, hactive⟩ := htree.supported key account hget other habove
    exact ⟨parent, hparent, hactive⟩

theorem isActive_of_create_ok (h : (ledger.create key type).2 = .ok account) :
    account.isActive = true := by
  rcases create_ok_cases h with ⟨-, hactive, -, -⟩ | ⟨old, -, -, hopens⟩ | ⟨-, rfl, -⟩
  · exact hactive
  · rw [hopens] at h
    obtain ⟨found, -, rfl⟩ := eq_opened_of_reactivate_ok h
    exact found.isActive_opened
  · rfl

-- In a tree all three ways to an answer come to the same: what stands above an open account is
-- open already, and what stands above a closed one is there.
theorem IsTree.get?_create (htree : ledger.IsTree)
    (h : (ledger.create key type).2 = .ok account) (other : Key) :
    (ledger.create key type).1.get? other =
      Account.planted key type other (ledger.get? other) := by
  have hfits := completes_of_ok h
  have hstored := get?_create_of_ok h
  have hactive := isActive_of_create_ok h
  rcases create_cases hfits with hsame | hopens | ⟨hnone, -, hget⟩
  · rw [hsame] at hstored ⊢
    by_cases hcontains : other.contains key = true
    · obtain ⟨above, habove, hopen⟩ := htree.exists_of_contains hstored hcontains
      rw [habove, Account.planted_of_isActive (hopen hactive)]
    · exact (if_neg hcontains).symm
  · rw [hopens] at h hfits ⊢
    obtain ⟨old, hold, -⟩ := eq_opened_of_reactivate_ok h
    rw [get?_reactivate hfits]
    by_cases hcontains : other.contains key = true
    · obtain ⟨above, habove, -⟩ := htree.exists_of_contains hold hcontains
      simp only [Account.planted, hcontains, habove, ite_true, Option.map_some]
    · simp only [Account.planted, hcontains, Bool.false_eq_true, ite_false]
  · rw [hget]
    by_cases hkey : other = key
    · subst hkey
      have hself := (Key.contains_iff other other).mpr (.inl rfl)
      rw [hnone, Account.planted_none hself, if_pos rfl, if_pos rfl]
    · rw [if_neg hkey]
      by_cases habove : other ∈ key.ancestors
      · have hcontains := (Key.contains_iff other key).mpr (.inr habove)
        rw [if_pos habove]
        cases ledger.get? other with
        | none => rw [Account.planted_none hcontains, if_neg hkey]; rfl
        | some found => exact (if_pos hcontains).symm
      · have hcontains : ¬other.contains key = true := fun hcontains =>
          ((Key.contains_iff other key).mp hcontains).elim hkey habove
        rw [if_neg habove]
        exact (if_neg hcontains).symm

-- An open account is answered only to who asks for its type.
theorem type_eq_of_create_ok (h : (ledger.create key type).2 = .ok account)
    {found : Account} (hfound : ledger.get? key = some found) (hactive : found.isActive = true) :
    found.type = type := by
  rcases create_ok_cases h with ⟨hget, -, htype, -⟩ | ⟨old, hold, hclosed, -⟩ | ⟨hnone, -, -⟩
  · rw [hfound] at hget
    cases hget
    exact htype
  · rw [hfound] at hold
    cases hold
    rw [hactive] at hclosed
    cases hclosed
  · rw [hfound] at hnone
    cases hnone

end Planted

section Orders

variable {ledger : Ledger} {first second : Key} {type otherType : AccountType}
  {account other account' other' : Account}

-- A missing account that another creation adds on its way is of the type then asked for.
theorem IsTree.type_eq_of_planted (htree : ledger.IsTree)
    (hother : (ledger.create second otherType).2 = .ok other)
    (hthen : ((ledger.create second otherType).1.create first type).2 = .ok account)
    (hnone : ledger.get? first = none) (hcontains : first.contains second = true) :
    (if first = second then otherType else .budget) = type := by
  have hplanted := htree.get?_create hother first
  rw [hnone, Account.planted_none hcontains] at hplanted
  exact type_eq_of_create_ok hthen hplanted rfl

-- The account that a creation has answered with stays as it is in the next creation.
theorem IsTree.get?_create_create (htree : ledger.IsTree) (hkey : first.IsValid)
    (hfirst : (ledger.create first type).2 = .ok account)
    (hthen : ((ledger.create first type).1.create second otherType).2 = .ok other) :
    ((ledger.create first type).1.create second otherType).1.get? first = some account := by
  have hafter := htree.create hkey (completes_of_ok hfirst)
  rw [hafter.get?_create hthen, get?_create_of_ok hfirst,
    Account.planted_of_isActive (isActive_of_create_ok hfirst)]

-- Two creations that are both answered in either order lead to the same ledger and to the same
-- answers, whatever they have above them in common.
theorem creations_commute (htree : ledger.IsTree) (hfirst : first.IsValid)
    (hsecond : second.IsValid) (hanswer : (ledger.create first type).2 = .ok account)
    (hthen : ((ledger.create first type).1.create second otherType).2 = .ok other)
    (hanswer' : (ledger.create second otherType).2 = .ok other')
    (hthen' : ((ledger.create second otherType).1.create first type).2 = .ok account') :
    ((ledger.create first type).1.create second otherType).1 =
        ((ledger.create second otherType).1.create first type).1 ∧
      account = account' ∧ other = other' := by
  have hafter := htree.create hfirst (completes_of_ok hanswer)
  have hafter' := htree.create hsecond (completes_of_ok hanswer')
  have hends : ((ledger.create first type).1.create second otherType).1 =
      ((ledger.create second otherType).1.create first type).1 := by
    refine eq_of_get?_eq fun key => ?_
    rw [hafter.get?_create hthen, htree.get?_create hanswer, hafter'.get?_create hthen',
      htree.get?_create hanswer']
    refine Account.planted_comm _ fun hnone hcontains hcontains' => ?_
    -- Only at one of the two keys may they ask for another type than that of what stands above.
    by_cases hatFirst : key = first
    · subst hatFirst
      rw [htree.type_eq_of_planted hanswer' hthen' hnone hcontains', if_pos rfl]
    · by_cases hatSecond : key = second
      · subst hatSecond
        rw [htree.type_eq_of_planted hanswer hthen hnone hcontains, if_pos rfl]
      · rw [if_neg hatFirst, if_neg hatSecond]
  refine ⟨hends, ?_, ?_⟩
  · have hstays := htree.get?_create_create hfirst hanswer hthen
    rw [hends, get?_create_of_ok hthen'] at hstays
    exact (Option.some.inj hstays).symm
  · have hstays := htree.get?_create_create hsecond hanswer' hthen'
    rw [← hends, get?_create_of_ok hthen] at hstays
    exact Option.some.inj hstays

-- Below the closed root, which either of them opens, one creation makes the account that the
-- other one asks for.
theorem creations_commute_retired :
    ((retired.create ⟨"a:c:d"⟩ .spend).1.create ⟨"a:c"⟩ .budget).1 =
        ((retired.create ⟨"a:c"⟩ .budget).1.create ⟨"a:c:d"⟩ .spend).1 ∧
      ((retired.create ⟨"a:c:d"⟩ .spend).1.create ⟨"a:c"⟩ .budget).1.get? ⟨"a"⟩ =
        some { Account.new ⟨"a"⟩ .budget with version := 3 } := by
  have hanswer : (retired.create ⟨"a:c:d"⟩ .spend).2 = .ok (.new ⟨"a:c:d"⟩ .spend) := by
    decide +kernel
  have hthen : ((retired.create ⟨"a:c:d"⟩ .spend).1.create ⟨"a:c"⟩ .budget).2 =
      .ok (.new ⟨"a:c"⟩ .budget) := by decide +kernel
  have hanswer' : (retired.create ⟨"a:c"⟩ .budget).2 = .ok (.new ⟨"a:c"⟩ .budget) := by
    decide +kernel
  have hthen' : ((retired.create ⟨"a:c"⟩ .budget).1.create ⟨"a:c:d"⟩ .spend).2 =
      .ok (.new ⟨"a:c:d"⟩ .spend) := by decide +kernel
  obtain ⟨hends, -, -⟩ := creations_commute reachable_retired.isTree (by decide) (by decide)
    hanswer hthen hanswer' hthen'
  exact ⟨hends, by decide +kernel⟩

end Orders

end Ledger

end ShardedLedger
