import ShardedLedger.Proofs.Ledger.Evolution

namespace ShardedLedger

namespace Ledger

theorem get?_foldl_set (value : Key → Account) (keys : List Key) (ledger : Ledger) (key : Key) :
    (keys.foldl (fun ledger key => ledger.set key (value key)) ledger).get? key =
      if key ∈ keys then some (value key) else ledger.get? key := by
  induction keys generalizing ledger with
  | nil => simp
  | cons first keys ih =>
      rw [List.foldl_cons, ih, get?_set]
      by_cases he : key = first
      · subst he
        simp
      · simp [he]

theorem mem_missingAncestors_iff (ledger : Ledger) (key : Key) :
    key ∈ ledger.missingAncestors ↔
      ledger.get? key = none ∧ ∃ below account, ledger.get? below = some account ∧
        key ∈ below.ancestors := by
  have hkeys (below : Key) : below ∈ ledger.keys ↔ ∃ account, ledger.get? below = some account := by
    rw [← contains_iff]
    exact SortedMap.mem_keys_iff ledger.accounts below
  have hcontains : (!ledger.contains key) = true ↔ ledger.get? key = none := by
    simp [contains, SortedMap.contains, get?]
  simp only [missingAncestors, List.mem_filter, List.mem_flatMap, hkeys, hcontains]
  constructor
  · rintro ⟨⟨below, ⟨account, haccount⟩, hmem⟩, hnone⟩
    exact ⟨hnone, below, account, haccount, hmem⟩
  · rintro ⟨hnone, below, account, haccount, hmem⟩
    exact ⟨⟨below, ⟨account, haccount⟩, hmem⟩, hnone⟩

theorem get?_repair (ledger : Ledger) (key : Key) :
    ledger.repair.1.get? key =
      if key ∈ ledger.missingAncestors then some (.placeholder key) else ledger.get? key :=
  get?_foldl_set Account.placeholder ledger.missingAncestors ledger key

theorem get?_repair_of_some {ledger : Ledger} {key : Key} {account : Account}
    (h : ledger.get? key = some account) : ledger.repair.1.get? key = some account := by
  rw [get?_repair, if_neg, h]
  rw [mem_missingAncestors_iff, h]
  rintro ⟨hnone, -⟩
  cases hnone

theorem wellNamed_repair {ledger : Ledger} (h : ledger.WellNamed) : ledger.repair.1.WellNamed := by
  intro key account haccount
  rw [get?_repair] at haccount
  split at haccount
  next hmissing =>
    obtain ⟨-, below, old, hold, hmem⟩ := (mem_missingAncestors_iff ledger key).mp hmissing
    cases haccount
    exact ⟨Key.isValid_of_mem_ancestors (h below old hold).1 hmem, rfl⟩
  next => exact h key account haccount

end Ledger

end ShardedLedger
