import Mathlib.Data.List.Dedup
import ShardedLedger.Proofs.Ledger.Framing
import ShardedLedger.Proofs.Ledger.Subtree

namespace ShardedLedger

namespace Account

-- There is no next version for the last one that fits the word.
theorem setStatus_snd_eq_none_iff (account : Account) (status : AccountStatus) :
    (account.setStatus status).2 = none ↔ account.version.toNat + 1 ≠ 0x10000000000000000 := by
  have hword : { account with status }.version.toNat < 2 ^ 64 := account.version.toNat_lt
  unfold setStatus touch
  split
  next hfits => exact ⟨fun _ => Nat.ne_of_lt hfits, fun _ => rfl⟩
  next hfull => exact ⟨nofun, fun hne => absurd (Nat.lt_of_le_of_ne hword hne) hfull⟩

end Account

namespace Ledger

-- The account under a key and all accounts below it.
def below (ledger : Ledger) (key : Key) : SortedMap Key Account :=
  ledger.accounts.filter fun other _ => key.contains other

-- The first segments of all keys, each of them once.
def roots (ledger : Ledger) : List String := (ledger.keys.map Key.root).dedup

-- All that is above an account is there.
def IsComplete (ledger : Ledger) : Prop :=
  ∀ key, ledger.contains key = true → ∀ above ∈ key.ancestors, ledger.contains above = true

theorem isComplete_iff (ledger : Ledger) : ledger.IsComplete ↔
    ∀ key ∈ ledger.keys, ∀ above ∈ key.ancestors, ledger.contains above = true :=
  forall_congr' fun key => imp_congr_left (SortedMap.mem_keys_iff ledger.accounts key).symm

instance (ledger : Ledger) : Decidable ledger.IsComplete :=
  decidable_of_iff' _ ledger.isComplete_iff

-- Some open account at or below the key is at the last version that there is.
def IsExhausted (ledger : Ledger) (key : Key) : Prop :=
  ∃ other account, (ledger.below key).get? other = some account ∧ account.isActive = true ∧
    account.version.toNat + 1 = 0x10000000000000000

section Below

variable {ledger : Ledger} {key other : Key} {account : Account}

theorem get?_below_eq_some_iff : (ledger.below key).get? other = some account ↔
    key.contains other = true ∧ ledger.get? other = some account := by
  rw [below, SortedMap.get?_filter, Option.filter_eq_some_iff]
  exact And.comm

theorem mem_keys_below_iff :
    other ∈ (ledger.below key).keys ↔ key.contains other = true ∧ ledger.contains other = true := by
  rw [SortedMap.mem_keys_iff, SortedMap.contains_iff, contains_iff]
  simp only [get?_below_eq_some_iff, exists_and_left]

theorem subtree_eq (hkey : ledger.contains key = true) :
    ledger.subtree key = .ok (ledger.below key).entries := by
  rw [subtree, if_pos hkey, subtreeEntries_eq_filter]
  rfl

-- All children of a key are below it, so it does not matter that the search goes over all keys.
theorem children_eq (hkey : ledger.contains key = true) :
    ledger.children key =
      .ok ((ledger.below key).keys.filter fun other => other.parent? = some key) := by
  have hkeys : (ledger.below key).keys = ledger.keys.filter (key.contains ·) := by
    simp only [below, SortedMap.filter, SortedMap.keys, keys, List.filter_map, Function.comp_def]
  rw [children, if_pos hkey, hkeys, List.filter_filter]
  refine congrArg Except.ok (List.filter_congr fun other _ => ?_)
  cases hchild : other.isChildOf key with
  | false =>
      rw [Key.isChildOf] at hchild
      rw [hchild, Bool.false_and]
  | true =>
      have habove := Key.mem_ancestors_of_isChildOf hchild
      rw [Key.isChildOf] at hchild
      rw [hchild, (Key.contains_iff key other).mpr (.inr habove), Bool.and_self]

end Below

section Closing

variable {ledger : Ledger} {key : Key}

-- The visit stops if and only if some account that it would close has no next version.
theorem close_overflows_iff (hkey : ledger.contains key = true) :
    (∃ overflow, (ledger.close key).2 = .error (.overflow overflow)) ↔ ledger.IsExhausted key := by
  constructor
  · rintro ⟨overflow, hstop⟩
    by_contra hroom
    have hend : (ledger.accounts.visit (closeWithin key)).2 = none := by
      refine SortedMap.visit_snd_of_forall _ _ fun other account haccount => ?_
      unfold closeWithin
      split
      next hwithin =>
        obtain ⟨hcontains, hactive⟩ := Bool.and_eq_true_iff.mp hwithin
        refine (account.setStatus_snd_eq_none_iff .closed).mpr fun hlast => hroom ?_
        exact ⟨other, account, get?_below_eq_some_iff.mpr ⟨hcontains, haccount⟩, hactive, hlast⟩
      next => rfl
    rcases close_cases hkey with ⟨_, _, hvisit, -⟩ | ⟨_, _, -, -, hclose⟩
    · rw [hvisit] at hend
      cases hend
    · rw [hclose] at hstop
      cases hstop
  · rintro ⟨other, account, hbelow, hactive, hlast⟩
    obtain ⟨hcontains, haccount⟩ := get?_below_eq_some_iff.mp hbelow
    by_contra hfits
    have hroom := setStatus_snd_of_close hkey (not_exists.mp hfits) hcontains haccount hactive
    exact (account.setStatus_snd_eq_none_iff .closed).mp hroom hlast

-- Where all is closed already there is nothing left to close.
theorem close_of_closed {account : Account} (haccount : ledger.get? key = some account)
    (hclosed : ∀ other found, ledger.get? other = some found → key.contains other = true →
      found.isActive = false) : ledger.close key = (ledger, .ok account) := by
  have hkept : ledger.accounts.visit (closeWithin key) = (ledger.accounts, none) := by
    refine SortedMap.visit_of_unchanged _ _ fun other found hfound => if_neg fun hwithin => ?_
    obtain ⟨hcontains, hactive⟩ := Bool.and_eq_true_iff.mp hwithin
    rw [hclosed other found hfound hcontains] at hactive
    cases hactive
  rcases close_cases ((contains_iff ledger key).mpr ⟨account, haccount⟩) with
    ⟨_, _, hvisit, -⟩ | ⟨_, found, hvisit, hfound, hclose⟩
  · cases hkept.symm.trans hvisit
  · cases hkept.symm.trans hvisit
    cases (show ledger.accounts.get? key = some account from haccount).symm.trans hfound
    exact hclose

theorem close_of_not_isExhausted (hkey : ledger.contains key = true)
    (hroom : ¬ledger.IsExhausted key) :
    ∃ account, (ledger.close key).2 = .ok account ∧
      (∀ other, (ledger.close key).1.get? other =
        if (ledger.below key).contains other = true then (ledger.get? other).map Account.shut
        else ledger.get? other) ∧
      (ledger.close key).1.close key = ((ledger.close key).1, .ok account) := by
  have hfits : (ledger.close key).Completes := fun overflow hstop =>
    hroom ((close_overflows_iff hkey).mp ⟨overflow, hstop⟩)
  have hget := get?_close hkey hfits
  rcases close_cases hkey with ⟨_, overflow, -, hstop⟩ | ⟨accounts, account, -, hthere, hclose⟩
  · exact absurd (congrArg Prod.snd hstop) (hfits overflow)
  · refine ⟨account, congrArg Prod.snd hclose, fun other => ?_, close_of_closed ?_ ?_⟩
    · have hthose : (ledger.below key).contains other = true ↔
          key.contains other = true ∧ ledger.contains other = true :=
        (SortedMap.mem_keys_iff _ other).symm.trans mem_keys_below_iff
      rw [hget, if_congr hthose rfl rfl]
      cases hfound : ledger.get? other with
      | none => simp
      | some found =>
          rw [if_congr (and_iff_left ((contains_iff ledger other).mpr ⟨found, hfound⟩)) rfl rfl]
    · rw [hclose]
      exact hthere
    · intro other found hfound hcontains
      rw [hget, if_pos hcontains] at hfound
      obtain ⟨old, -, rfl⟩ := Option.map_eq_some_iff.mp hfound
      exact old.isActive_shut

end Closing

section Parts

variable {ledger : Ledger} {root : String}

theorem mem_roots_iff :
    root ∈ ledger.roots ↔ ∃ key, ledger.contains key = true ∧ key.root = root := by
  have hkeys (key : Key) : key ∈ ledger.keys ↔ ledger.contains key = true :=
    SortedMap.mem_keys_iff ledger.accounts key
  simp only [roots, List.mem_dedup, List.mem_map, hkeys]

-- Below a first segment are the accounts with that first segment.
theorem contains_iff_of_mem_roots (hroot : root ∈ ledger.roots) (other : Key) :
    (⟨root⟩ : Key).contains other = true ↔ other.root = root := by
  obtain ⟨key, -, rfl⟩ := mem_roots_iff.mp hroot
  exact key.contains_root_iff other

theorem IsComplete.contains_root (h : ledger.IsComplete) (hroot : root ∈ ledger.roots) :
    ledger.contains ⟨root⟩ = true := by
  obtain ⟨key, hkey, rfl⟩ := mem_roots_iff.mp hroot
  rcases (Key.contains_iff _ key).mp key.contains_root with hself | habove
  · rw [hself]
    exact hkey
  · exact h key hkey _ habove

end Parts

-- What is found from a key on, and what closing it does, in terms of the accounts that it contains.
structure IsTraversed (ledger : Ledger) (key : Key) : Prop where
  subtree : ledger.subtree key = .ok (ledger.below key).entries
  children : ledger.children key =
    .ok ((ledger.below key).keys.filter fun other => other.parent? = some key)
  ascending : ((ledger.below key).keys.filter fun other => other.parent? = some key).Pairwise
    fun a b => compare a b = .lt
  overflows : (∃ overflow, (ledger.close key).2 = .error (.overflow overflow)) ↔
    ledger.IsExhausted key
  closes : ¬ledger.IsExhausted key → ∃ account, (ledger.close key).2 = .ok account ∧
    (∀ other, (ledger.close key).1.get? other =
      if (ledger.below key).contains other = true then (ledger.get? other).map Account.shut
      else ledger.get? other) ∧
    (ledger.close key).1.close key = ((ledger.close key).1, .ok account)

-- The first segments stand for parts of the tree of which each account is in exactly one.
structure IsParted (ledger : Ledger) : Prop where
  nonempty : ∀ root ∈ ledger.roots, ∃ part, ledger.subtree ⟨root⟩ = .ok part ∧ part ≠ []
  unique : ∀ key, ledger.contains key = true → ∃! root, root ∈ ledger.roots ∧
    ∃ part, ledger.subtree ⟨root⟩ = .ok part ∧ key ∈ part.map (·.1)

theorem isTraversed {ledger : Ledger} {key : Key} (hkey : ledger.contains key = true) :
    ledger.IsTraversed key where
  subtree := subtree_eq hkey
  children := children_eq hkey
  ascending := (List.pairwise_map.mpr (ledger.below key).sorted).filter _
  overflows := close_overflows_iff hkey
  closes := close_of_not_isExhausted hkey

theorem IsComplete.isParted {ledger : Ledger} (h : ledger.IsComplete) : ledger.IsParted where
  nonempty root hroot := by
    have hthere := h.contains_root hroot
    have hself : (⟨root⟩ : Key) ∈ (ledger.below ⟨root⟩).keys :=
      mem_keys_below_iff.mpr ⟨(Key.contains_iff _ _).mpr (.inl rfl), hthere⟩
    refine ⟨_, subtree_eq hthere, fun hnil => ?_⟩
    rw [SortedMap.keys, hnil] at hself
    cases hself
  unique key hkey := by
    have hroot : key.root ∈ ledger.roots := mem_roots_iff.mpr ⟨key, hkey, rfl⟩
    refine ⟨key.root, ⟨hroot, _, subtree_eq (h.contains_root hroot), ?_⟩, ?_⟩
    · exact mem_keys_below_iff.mpr ⟨key.contains_root, hkey⟩
    · rintro root ⟨hother, part, hpart, hmem⟩
      rw [subtree_eq (h.contains_root hother), Except.ok.injEq] at hpart
      rw [← hpart] at hmem
      exact ((contains_iff_of_mem_roots hother key).mp (mem_keys_below_iff.mp hmem).1).symm

-- The scan of a range of keys, the search for children and the closing of a subtree all keep to
-- the accounts that the key contains, and the parts below the first segments make up the ledger.
-- A closing stops only if an open account has used up its versions.
theorem traversals_agree (ledger : Ledger) :
    (∀ key, ledger.contains key = true → ledger.IsTraversed key) ∧
      (ledger.IsComplete → ledger.IsParted) :=
  ⟨fun _ => isTraversed, IsComplete.isParted⟩

-- In key order, `a!x` stands between `a` and what is below it, and `ab` behind that.
def crowded : Ledger :=
  let created := (empty.create ⟨"a:b"⟩ .budget).1
  ((created.create ⟨"a!x"⟩ .budget).1.create ⟨"ab"⟩ .spend).1

theorem traversals_agree_crowded :
    crowded.keys = [⟨"a"⟩, ⟨"a!x"⟩, ⟨"a:b"⟩, ⟨"ab"⟩] ∧
      crowded.subtree ⟨"a"⟩ = .ok (crowded.below ⟨"a"⟩).entries ∧
      (crowded.below ⟨"a"⟩).keys = [⟨"a"⟩, ⟨"a:b"⟩] ∧
      (∃ account, (crowded.close ⟨"a"⟩).2 = .ok account ∧
        (crowded.close ⟨"a"⟩).1.close ⟨"a"⟩ = ((crowded.close ⟨"a"⟩).1, .ok account)) ∧
      ∃! root, root ∈ crowded.roots ∧
        ∃ part, crowded.subtree ⟨root⟩ = .ok part ∧ (⟨"a:b"⟩ : Key) ∈ part.map (·.1) := by
  obtain ⟨hkeys, hparts⟩ := traversals_agree crowded
  have htraversed := hkeys ⟨"a"⟩ (by decide +kernel)
  have hroom : ¬crowded.IsExhausted ⟨"a"⟩ := by
    rw [← htraversed.overflows]
    rintro ⟨overflow, hstop⟩
    have hanswer : (crowded.close ⟨"a"⟩).2.isOk = true := by decide +kernel
    rw [hstop] at hanswer
    cases hanswer
  obtain ⟨account, hanswer, -, hagain⟩ := htraversed.closes hroom
  exact ⟨by decide +kernel, htraversed.subtree, by decide +kernel, ⟨account, hanswer, hagain⟩,
    (hparts (by decide +kernel)).unique ⟨"a:b"⟩ (by decide +kernel)⟩

-- The account between two others has used up its versions.
def worn : Ledger :=
  let around := (empty.set ⟨"a"⟩ (.new ⟨"a"⟩ .budget)).set ⟨"a:c"⟩ (.new ⟨"a:c"⟩ .budget)
  around.set ⟨"a:b"⟩ { Account.new ⟨"a:b"⟩ .budget with version := 0xFFFFFFFFFFFFFFFF }

-- The closing stops there and leaves the last one open for a second closing.
theorem closing_stops_worn :
    worn.contains ⟨"a"⟩ = true ∧ (worn.below ⟨"a"⟩).contains ⟨"a:c"⟩ = true ∧
      (worn.close ⟨"a"⟩).1.isActive ⟨"a:c"⟩ = true ∧
      ((worn.close ⟨"a"⟩).1.close ⟨"a"⟩).1 ≠ (worn.close ⟨"a"⟩).1 := by
  decide +kernel

end Ledger

end ShardedLedger
