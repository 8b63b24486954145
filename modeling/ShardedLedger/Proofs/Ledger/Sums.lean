import Mathlib.Algebra.BigOperators.Group.List.Lemmas
import Mathlib.Algebra.GroupWithZero.Nat
import Mathlib.Algebra.Ring.Int.Defs
import ShardedLedger.Proofs.Ledger.Parts
import ShardedLedger.Proofs.Ledger.Pool
import ShardedLedger.Proofs.Ledger.Traversal

namespace ShardedLedger

section Totals

variable {part : Account → String → Int} {accounts : List Account} {account : Account}
  {pool more result : Pool}

-- What a part of each account comes to in all of them.
def total (part : Account → String → Int) (accounts : List Account) (currency : String) : Int :=
  (accounts.map fun account => part account currency).sum

def Pool.IsSumOf (pool : Pool) (part : Account → String → Int) (accounts : List Account) : Prop :=
  ∀ currency, pool.toInt currency = total part accounts currency

-- Who takes the accounts one by one meets no total that is out of range.
def TotalsFit (part : Account → String → Int) (accounts : List Account) : Prop :=
  ∀ first, first <+: accounts → ∀ currency, Amount.InRange (total part first currency)

theorem total_concat (part : Account → String → Int) (accounts : List Account) (account : Account)
    (currency : String) :
    total part (accounts ++ [account]) currency =
      total part accounts currency + part account currency := by
  rw [total, total, List.map_append, List.sum_append, List.map_singleton, List.sum_singleton]

theorem total_left (accounts : List Account) (currency : String) :
    total Account.left accounts currency =
      total (·.budget.toInt) accounts currency + total (·.balance.toInt) accounts currency +
        total (·.adjustments.toInt) accounts currency - total (·.spent.toInt) accounts currency := by
  induction accounts with
  | nil => rfl
  | cons account accounts ih =>
      simp only [total, List.map_cons, List.sum_cons, Account.left] at ih ⊢
      omega

theorem TotalsFit.of_concat (h : TotalsFit part (accounts ++ [account])) :
    TotalsFit part accounts :=
  fun first hfirst => h first (hfirst.trans (List.prefix_append accounts [account]))

theorem TotalsFit.concat (h : TotalsFit part accounts)
    (hsum : pool.IsSumOf part (accounts ++ [account])) : TotalsFit part (accounts ++ [account]) := by
  intro first hfirst currency
  rcases List.prefix_concat_iff.mp hfirst with rfl | hfirst
  · rw [← hsum currency]
    exact pool.inRange_toInt currency
  · exact h first hfirst currency

theorem Pool.IsSumOf.plus (h : pool.IsSumOf part accounts)
    (hmore : ∀ currency, more.toInt currency = part account currency)
    (hplus : pool.plus more = .ok result) : result.IsSumOf part (accounts ++ [account]) := by
  intro currency
  rw [toInt_of_plus hplus, h currency, hmore currency, total_concat]

theorem Pool.IsSumOf.exists_plus (h : pool.IsSumOf part accounts)
    (hmore : ∀ currency, more.toInt currency = part account currency)
    (hfits : TotalsFit part (accounts ++ [account])) : ∃ sum, pool.plus more = .ok sum := by
  refine exists_plus_iff.mpr fun currency => ?_
  rw [h currency, hmore currency, ← total_concat]
  exact hfits _ (List.prefix_refl _) currency

end Totals

namespace Summary

-- What is left over is added up by account, and yet it is what the other four sums leave over.
structure IsSumOf (summary : Summary) (accounts : List Account) : Prop where
  count : summary.accounts.toNat = accounts.length
  budget : summary.budget.IsSumOf (·.budget.toInt) accounts
  balance : summary.balance.IsSumOf (·.balance.toInt) accounts
  spent : summary.spent.IsSumOf (·.spent.toInt) accounts
  adjustments : summary.adjustments.IsSumOf (·.adjustments.toInt) accounts
  available : ∀ currency, summary.available.toInt currency =
    summary.budget.toInt currency + summary.balance.toInt currency +
      summary.adjustments.toInt currency - summary.spent.toInt currency

-- No number that comes up when the accounts are taken one by one is out of range.
structure Fits (accounts : List Account) : Prop where
  count : accounts.length < 0x10000000000000000
  budget : TotalsFit (·.budget.toInt) accounts
  balance : TotalsFit (·.balance.toInt) accounts
  spent : TotalsFit (·.spent.toInt) accounts
  adjustments : TotalsFit (·.adjustments.toInt) accounts
  each : ∀ account ∈ accounts, account.Fits
  left : TotalsFit Account.left accounts

variable {summary result : Summary} {account : Account} {accounts : List Account}

section Steps

theorem countOne_eq_ok_iff {count counted : UInt64} : countOne count = .ok counted ↔
    count.toNat + 1 < 0x10000000000000000 ∧ counted.toNat = count.toNat + 1 := by
  unfold countOne
  split
  next hfits =>
    have hnext : (count + 1).toNat = count.toNat + 1 := by
      rw [UInt64.toNat_add]
      exact Nat.mod_eq_of_lt hfits
    rw [Except.ok.injEq, and_iff_right hfits, ← hnext, UInt64.toNat_inj, eq_comm]
  next hfull => exact iff_of_false (fun h => nomatch h) fun h => hfull h.1

theorem add_eq_ok_iff : summary.add account = .ok result ↔
    countOne summary.accounts = .ok result.accounts ∧
      summary.budget.plus account.budget = .ok result.budget ∧
      summary.balance.plus account.balance = .ok result.balance ∧
      summary.spent.plus account.spent = .ok result.spent ∧
      summary.adjustments.plus account.adjustments = .ok result.adjustments ∧
      ∃ left, account.available = .ok left ∧ summary.available.plus left = .ok result.available := by
  simp only [Summary.add, bind_eq_ok_iff, pure_eq_ok_iff]
  constructor
  · rintro ⟨_, hcount, _, hbudget, _, hbalance, _, hspent, _, hadjustments, left, hleft, _,
      havailable, rfl⟩
    exact ⟨hcount, hbudget, hbalance, hspent, hadjustments, left, hleft, havailable⟩
  · rintro ⟨hcount, hbudget, hbalance, hspent, hadjustments, left, hleft, havailable⟩
    exact ⟨_, hcount, _, hbudget, _, hbalance, _, hspent, _, hadjustments, left, hleft, _,
      havailable, rfl⟩

theorem isSumOf_empty : empty.IsSumOf [] where
  count := rfl
  budget _ := rfl
  balance _ := rfl
  spent _ := rfl
  adjustments _ := rfl
  available _ := rfl

-- The two ways to what is left come to the same.
theorem IsSumOf.left (h : summary.IsSumOf accounts) :
    summary.available.IsSumOf Account.left accounts := by
  intro currency
  rw [h.available, h.budget, h.balance, h.adjustments, h.spent, total_left]

theorem IsSumOf.add (h : summary.IsSumOf accounts) (hadd : summary.add account = .ok result) :
    result.IsSumOf (accounts ++ [account]) := by
  obtain ⟨hcount, hbudget, hbalance, hspent, hadjustments, left, hleft, havailable⟩ :=
    add_eq_ok_iff.mp hadd
  have hbudget := h.budget.plus (fun _ => rfl) hbudget
  have hbalance := h.balance.plus (fun _ => rfl) hbalance
  have hspent := h.spent.plus (fun _ => rfl) hspent
  have hadjustments := h.adjustments.plus (fun _ => rfl) hadjustments
  have hleft := h.left.plus (Account.toInt_of_available hleft) havailable
  refine ⟨?_, hbudget, hbalance, hspent, hadjustments, fun currency => ?_⟩
  · rw [(countOne_eq_ok_iff.mp hcount).2, h.count, List.length_append, List.length_singleton]
  · rw [hleft, hbudget, hbalance, hadjustments, hspent, total_left]

theorem Fits.of_concat (h : Fits (accounts ++ [account])) : Fits accounts where
  count := by
    have hcount := h.count
    rw [List.length_append] at hcount
    exact Nat.lt_of_le_of_lt (Nat.le_add_right _ _) hcount
  budget := h.budget.of_concat
  balance := h.balance.of_concat
  spent := h.spent.of_concat
  adjustments := h.adjustments.of_concat
  each other hother := h.each other (List.mem_append_left _ hother)
  left := h.left.of_concat

-- One more account can be added exactly if that brings up no number that is out of range.
theorem IsSumOf.exists_add_iff (h : summary.IsSumOf accounts) (hfits : Fits accounts) :
    (∃ result, summary.add account = .ok result) ↔ Fits (accounts ++ [account]) := by
  constructor
  · rintro ⟨result, hadd⟩
    have hsum := h.add hadd
    obtain ⟨hcount, -, -, -, -, left, hleft, -⟩ := add_eq_ok_iff.mp hadd
    refine ⟨?_, hfits.budget.concat hsum.budget, hfits.balance.concat hsum.balance,
      hfits.spent.concat hsum.spent, hfits.adjustments.concat hsum.adjustments, ?_,
      hfits.left.concat hsum.left⟩
    · rw [List.length_append, List.length_singleton, ← h.count]
      exact (countOne_eq_ok_iff.mp hcount).1
    · refine List.forall_mem_append.mpr ⟨hfits.each, List.forall_mem_singleton.mpr ?_⟩
      exact account.exists_available_iff.mp ⟨left, hleft⟩
  · intro hmore
    have hcount := hmore.count
    rw [List.length_append, List.length_singleton, ← h.count] at hcount
    obtain ⟨budget, hbudget⟩ := h.budget.exists_plus (fun _ => rfl) hmore.budget
    obtain ⟨balance, hbalance⟩ := h.balance.exists_plus (fun _ => rfl) hmore.balance
    obtain ⟨spent, hspent⟩ := h.spent.exists_plus (fun _ => rfl) hmore.spent
    obtain ⟨adjustments, hadjustments⟩ := h.adjustments.exists_plus (fun _ => rfl) hmore.adjustments
    obtain ⟨left, hleft⟩ := account.exists_available_iff.mpr (hmore.each account (by simp))
    obtain ⟨available, havailable⟩ :=
      h.left.exists_plus (Account.toInt_of_available hleft) hmore.left
    exact ⟨⟨summary.accounts + 1, budget, balance, spent, adjustments, available⟩,
      add_eq_ok_iff.mpr ⟨if_pos hcount, hbudget, hbalance, hspent, hadjustments, left, hleft,
        havailable⟩⟩

end Steps

section Runs

theorem ofAccounts_concat_eq_ok_iff : ofAccounts (accounts ++ [account]) = .ok result ↔
    ∃ summary, ofAccounts accounts = .ok summary ∧ summary.add account = .ok result := by
  rw [ofAccounts, List.foldlM_append, bind_eq_ok_iff]
  simp only [List.foldlM_cons, List.foldlM_nil, bind_pure]
  rfl

theorem isSumOf_of_ofAccounts (h : ofAccounts accounts = .ok summary) :
    summary.IsSumOf accounts := by
  induction accounts using List.reverseRecOn generalizing summary with
  | nil =>
      cases h
      exact isSumOf_empty
  | append_singleton accounts account ih =>
      obtain ⟨before, hbefore, hadd⟩ := ofAccounts_concat_eq_ok_iff.mp h
      exact (ih hbefore).add hadd

theorem fits_nil : Fits [] := by
  have htotals (part : Account → String → Int) : TotalsFit part [] := by
    intro first hfirst currency
    rw [List.prefix_nil.mp hfirst]
    exact Amount.inRange_toInt 0
  exact ⟨by decide, htotals _, htotals _, htotals _, htotals _, nofun, htotals _⟩

theorem exists_ofAccounts_iff : (∃ summary, ofAccounts accounts = .ok summary) ↔ Fits accounts := by
  induction accounts using List.reverseRecOn with
  | nil => exact iff_of_true ⟨empty, rfl⟩ fits_nil
  | append_singleton accounts account ih =>
      simp only [ofAccounts_concat_eq_ok_iff]
      constructor
      · rintro ⟨result, summary, hsummary, hadd⟩
        have hfits := ih.mp ⟨summary, hsummary⟩
        exact ((isSumOf_of_ofAccounts hsummary).exists_add_iff hfits).mp ⟨result, hadd⟩
      · intro hmore
        obtain ⟨summary, hsummary⟩ := ih.mpr hmore.of_concat
        have hsum := isSumOf_of_ofAccounts hsummary
        obtain ⟨result, hadd⟩ := (hsum.exists_add_iff hmore.of_concat).mpr hmore
        exact ⟨result, summary, hsummary, hadd⟩

end Runs

end Summary

namespace Ledger

section Roots

variable {ledger : Ledger} {summaries : SortedMap String Summary}

-- The summary of a first segment with those of the accounts that belong to it.
def tally (root : String) (entries : List (Key × Account)) (summaries : SortedMap String Summary) :
    Except Overflow Summary :=
  ((entries.filter fun entry => entry.1.root = root).map (·.2)).foldlM Summary.add
    ((summaries.get? root).getD .empty)

-- Each account is added to the summary of its own first segment and to no other.
theorem tally_cons {entry : Key × Account} {summary : Summary}
    (hadd : ((summaries.get? entry.1.root).getD .empty).add entry.2 = .ok summary)
    (entries : List (Key × Account)) (root : String) :
    tally root (entry :: entries) summaries =
      tally root entries (summaries.insert entry.1.root summary) := by
  unfold tally
  rw [SortedMap.get?_insert]
  by_cases he : entry.1.root = root
  · subst he
    rw [if_pos rfl, Option.getD_some, List.filter_cons_of_pos (by simp), List.map_cons,
      List.foldlM_cons, hadd]
    rfl
  · rw [if_neg (Ne.symm he), List.filter_cons_of_neg (by simpa using he)]

theorem tally_of_foldlM {entries : List (Key × Account)} {result : SortedMap String Summary}
    (h : entries.foldlM addToRoot summaries = .ok result) (root : String) :
    tally root entries summaries = .ok ((result.get? root).getD .empty) := by
  induction entries generalizing summaries with
  | nil =>
      cases h
      rfl
  | cons entry entries ih =>
      obtain ⟨next, hstep, hrest⟩ := bind_eq_ok_iff.mp (List.foldlM_cons.symm.trans h)
      obtain ⟨summary, hadd, rfl⟩ := addToRoot_eq_ok_iff.mp hstep
      rw [tally_cons hadd]
      exact ih hrest

-- No summary stands in the way of the others.
theorem exists_foldlM_addToRoot_iff {entries : List (Key × Account)} :
    (∃ result, entries.foldlM addToRoot summaries = .ok result) ↔
      ∀ root, ∃ summary, tally root entries summaries = .ok summary := by
  constructor
  · rintro ⟨result, hresult⟩ root
    exact ⟨_, tally_of_foldlM hresult root⟩
  · intro hroots
    induction entries generalizing summaries with
    | nil => exact ⟨summaries, rfl⟩
    | cons entry entries ih =>
        obtain ⟨last, hlast⟩ := hroots entry.1.root
        rw [tally, List.filter_cons_of_pos (by simp), List.map_cons, List.foldlM_cons] at hlast
        obtain ⟨summary, hadd, -⟩ := bind_eq_ok_iff.mp hlast
        have hrest (root : String) : ∃ later, tally root entries
            (summaries.insert entry.1.root summary) = .ok later := by
          rw [← tally_cons hadd]
          exact hroots root
        obtain ⟨result, hresult⟩ := ih hrest
        refine ⟨result, List.foldlM_cons.trans (bind_eq_ok_iff.mpr ⟨_, ?_, hresult⟩)⟩
        exact addToRoot_eq_ok_iff.mpr ⟨summary, hadd, rfl⟩

theorem contains_foldlM_addToRoot {entries : List (Key × Account)}
    {summaries result : SortedMap String Summary}
    (h : entries.foldlM addToRoot summaries = .ok result) (root : String) :
    result.contains root = true ↔
      summaries.contains root = true ∨ root ∈ entries.map (·.1.root) := by
  induction entries generalizing summaries with
  | nil =>
      cases h
      simp
  | cons entry entries ih =>
      obtain ⟨next, hstep, hrest⟩ := bind_eq_ok_iff.mp (List.foldlM_cons.symm.trans h)
      obtain ⟨summary, -, rfl⟩ := addToRoot_eq_ok_iff.mp hstep
      rw [ih hrest, List.map_cons, List.mem_cons, SortedMap.contains, SortedMap.get?_insert]
      by_cases he : root = entry.1.root
      · simp [he]
      · simp [he, SortedMap.contains]

theorem contains_globalSummary_iff (h : ledger.globalSummary = .ok summaries) (root : String) :
    summaries.contains root = true ↔ root ∈ ledger.roots := by
  rw [contains_foldlM_addToRoot h, roots, List.mem_dedup, keys, SortedMap.keys, List.map_map]
  exact or_iff_right (by simp [SortedMap.contains])

theorem mem_roots_of_get?_globalSummary (h : ledger.globalSummary = .ok summaries) {root : String}
    {summary : Summary} (hsummary : summaries.get? root = some summary) : root ∈ ledger.roots :=
  (contains_globalSummary_iff h root).mp
    ((SortedMap.contains_iff summaries root).mpr ⟨summary, hsummary⟩)

theorem values_below_root {root : String} (hroot : root ∈ ledger.roots) :
    (ledger.below ⟨root⟩).values =
      (ledger.accounts.entries.filter fun entry => entry.1.root = root).map (·.2) := by
  refine congrArg (List.map _) (List.filter_congr fun entry _ => ?_)
  rw [Bool.eq_iff_iff, decide_eq_true_eq]
  exact contains_iff_of_mem_roots hroot entry.1

theorem tally_eq_ofAccounts {root : String} (hroot : root ∈ ledger.roots) :
    tally root ledger.accounts.entries .empty =
      Summary.ofAccounts (ledger.below ⟨root⟩).values := by
  rw [values_below_root hroot]
  rfl

theorem ofAccounts_below_root (h : ledger.globalSummary = .ok summaries) {root : String}
    {summary : Summary} (hsummary : summaries.get? root = some summary) :
    Summary.ofAccounts (ledger.below ⟨root⟩).values = .ok summary := by
  rw [← tally_eq_ofAccounts (mem_roots_of_get?_globalSummary h hsummary), tally_of_foldlM h root,
    hsummary, Option.getD_some]

theorem exists_globalSummary_iff : (∃ summaries, ledger.globalSummary = .ok summaries) ↔
    ∀ root ∈ ledger.roots, Summary.Fits (ledger.below ⟨root⟩).values := by
  rw [globalSummary, exists_foldlM_addToRoot_iff]
  constructor
  · intro hroots root hroot
    rw [← Summary.exists_ofAccounts_iff, ← tally_eq_ofAccounts hroot]
    exact hroots root
  · intro hfits root
    by_cases hroot : root ∈ ledger.roots
    · rw [tally_eq_ofAccounts hroot, Summary.exists_ofAccounts_iff]
      exact hfits root hroot
    · have hnone : (ledger.accounts.entries.filter fun entry => entry.1.root = root) = [] := by
        refine List.filter_eq_nil_iff.mpr fun entry hentry he => hroot ?_
        rw [decide_eq_true_eq] at he
        rw [roots, List.mem_dedup, ← he]
        exact List.mem_map_of_mem (List.mem_map_of_mem hentry)
      rw [tally, hnone]
      exact ⟨_, rfl⟩

theorem summary_eq {key : Key} (hkey : ledger.contains key = true) :
    ledger.summary key = (Summary.ofAccounts (ledger.below key).values).mapError .overflow := by
  rw [summary, subtree_eq hkey]
  rfl

-- As many accounts as there are with the first segment.
theorem length_values_below_root {root : String} (hroot : root ∈ ledger.roots) :
    (ledger.below ⟨root⟩).values.length = (ledger.keys.map Key.root).count root := by
  rw [values_below_root hroot, List.length_map, List.count_eq_countP, keys, SortedMap.keys,
    List.map_map, List.countP_map, List.countP_eq_length_filter]
  rfl

end Roots

-- The summaries by first segment, each of them over the accounts below it.
structure IsSummedUp (ledger : Ledger) (summaries : SortedMap String Summary) : Prop where
  keys : ∀ root, summaries.contains root = true ↔ root ∈ ledger.roots
  sums : ∀ root summary, summaries.get? root = some summary →
    summary.IsSumOf (ledger.below ⟨root⟩).values
  count : (summaries.values.map (·.accounts.toNat)).sum = ledger.size
  agrees : ledger.IsComplete → ∀ root summary, summaries.get? root = some summary →
    ledger.summary ⟨root⟩ = .ok summary

-- The numbers of accounts with one first segment add up over the first segments.
theorem sum_accounts_globalSummary {ledger : Ledger} {summaries : SortedMap String Summary}
    (h : ledger.globalSummary = .ok summaries) :
    (summaries.values.map (·.accounts.toNat)).sum = ledger.size := by
  have hcounts : summaries.values.map (·.accounts.toNat) =
      summaries.keys.map fun root => (ledger.keys.map Key.root).count root := by
    rw [SortedMap.values, SortedMap.keys, List.map_map, List.map_map]
    refine List.map_congr_left fun entry hentry => ?_
    have hget := (SortedMap.get?_eq_some_iff summaries entry.1 entry.2).mpr hentry
    have hroot := mem_roots_of_get?_globalSummary h hget
    have hsum := Summary.isSumOf_of_ofAccounts (ofAccounts_below_root h hget)
    exact hsum.count.trans (length_values_below_root hroot)
  have hperm : summaries.keys.Perm ledger.roots := by
    refine (List.perm_ext_iff_of_nodup summaries.nodup_keys (List.nodup_dedup _)).mpr fun root => ?_
    exact (SortedMap.mem_keys_iff summaries root).trans (contains_globalSummary_iff h root)
  calc (summaries.values.map (·.accounts.toNat)).sum
      = (ledger.roots.map fun root => (ledger.keys.map Key.root).count root).sum := by
        rw [hcounts, (hperm.map _).sum_eq]
    _ = (ledger.keys.map Key.root).length := List.sum_map_count_dedup_eq_length _
    _ = ledger.size := by
        rw [List.length_map, Ledger.keys, SortedMap.keys, List.length_map]
        rfl

theorem isSummedUp {ledger : Ledger} {summaries : SortedMap String Summary}
    (h : ledger.globalSummary = .ok summaries) : ledger.IsSummedUp summaries where
  keys := contains_globalSummary_iff h
  sums _ _ hsummary := Summary.isSumOf_of_ofAccounts (ofAccounts_below_root h hsummary)
  count := sum_accounts_globalSummary h
  agrees hcomplete root summary hsummary := by
    have hroot := mem_roots_of_get?_globalSummary h hsummary
    rw [summary_eq (hcomplete.contains_root hroot), ofAccounts_below_root h hsummary]
    rfl

theorem exists_summary_iff {ledger : Ledger} {key : Key} (hkey : ledger.contains key = true) :
    (∃ summary, ledger.summary key = .ok summary) ↔ Summary.Fits (ledger.below key).values := by
  simp only [summary_eq hkey, mapError_eq_ok_iff, Summary.exists_ofAccounts_iff]

theorem summary_overflows_iff {ledger : Ledger} {key : Key} (hkey : ledger.contains key = true) :
    (∃ overflow, ledger.summary key = .error (.overflow overflow)) ↔
      ¬Summary.Fits (ledger.below key).values := by
  rw [← exists_summary_iff hkey, ← exists_error_iff, summary_eq hkey]
  cases Summary.ofAccounts (ledger.below key).values with
  | error overflow => exact iff_of_true ⟨overflow, rfl⟩ ⟨_, rfl⟩
  | ok summary => exact iff_of_false (fun ⟨_, h⟩ => nomatch h) fun ⟨_, h⟩ => nomatch h

-- The summary of a subtree gives the sums that there are without any bound, unless some number on
-- the way to them is out of range. The summaries by first segment do so for the accounts that
-- stand there, each of them counted once.
theorem summaries_add_up (ledger : Ledger) :
    (∀ key, ledger.contains key = true →
      ((∃ overflow, ledger.summary key = .error (.overflow overflow)) ↔
        ¬Summary.Fits (ledger.below key).values) ∧
      ((∀ overflow, ledger.summary key ≠ .error (.overflow overflow)) →
        ∃ summary, ledger.summary key = .ok summary ∧
          summary.IsSumOf (ledger.below key).values)) ∧
    ((∃ overflow, ledger.globalSummary = .error overflow) ↔
      ∃ root ∈ ledger.roots, ¬Summary.Fits (ledger.below ⟨root⟩).values) ∧
    ((∀ overflow, ledger.globalSummary ≠ .error overflow) →
      ∃ summaries, ledger.globalSummary = .ok summaries ∧ ledger.IsSummedUp summaries) := by
  refine ⟨fun key hkey => ⟨summary_overflows_iff hkey, fun hfits => ?_⟩, ?_, fun hfits => ?_⟩
  · rw [← not_exists, summary_overflows_iff hkey, not_not, ← exists_summary_iff hkey] at hfits
    obtain ⟨summary, hsummary⟩ := hfits
    refine ⟨summary, hsummary, Summary.isSumOf_of_ofAccounts ?_⟩
    rwa [summary_eq hkey, mapError_eq_ok_iff] at hsummary
  · rw [exists_error_iff, exists_globalSummary_iff]
    simp only [not_forall, exists_prop]
  · rw [← not_exists, exists_error_iff, not_not] at hfits
    obtain ⟨summaries, hsummaries⟩ := hfits
    exact ⟨summaries, hsummaries, isSummedUp hsummaries⟩

-- Budget above, spend and a negative adjustment below it, each with currencies of its own.
def mixed : Ledger :=
  let created := ((empty.create ⟨"a:b"⟩ .spend).1.create ⟨"c"⟩ .budget).1
  let funded := (created.setBudget ⟨"a"⟩ ⟨.ofList [("EUR", 70), ("USD", 5)]⟩).1
  let adjusted := (funded.addAdjustment ⟨"a:b"⟩ ⟨.ofList [("CHF", -3), ("EUR", 10)]⟩).1
  (adjusted.reportSpend ⟨"a:b"⟩ ⟨.ofList [("EUR", 20), ("USD", 8)]⟩).1

theorem summaries_add_up_mixed :
    (∃ summary, mixed.summary ⟨"a"⟩ = .ok summary ∧
      summary.IsSumOf (mixed.below ⟨"a"⟩).values) ∧
    (mixed.below ⟨"a"⟩).keys = [⟨"a"⟩, ⟨"a:b"⟩] ∧
    (mixed.summary ⟨"a"⟩).toOption.map (·.available) =
      some ⟨.ofList [("CHF", -3), ("EUR", 60), ("USD", -3)]⟩ ∧
    mixed.roots = ["a", "c"] ∧ mixed.IsComplete ∧
    ∃ summaries, mixed.globalSummary = .ok summaries ∧ mixed.IsSummedUp summaries := by
  obtain ⟨hsummary, -, hglobal⟩ := summaries_add_up mixed
  refine ⟨(hsummary ⟨"a"⟩ (by decide +kernel)).2 fun overflow hstop => ?_, by decide +kernel,
    by decide +kernel, by decide +kernel, by decide +kernel, hglobal fun overflow hstop => ?_⟩
  · have hanswer : (mixed.summary ⟨"a"⟩).isOk = true := by decide +kernel
    rw [hstop] at hanswer
    cases hanswer
  · have hanswer : mixed.globalSummary.isOk = true := by decide +kernel
    rw [hstop] at hanswer
    cases hanswer

end Ledger

end ShardedLedger
