import ShardedLedger.Ledger.Operations
import ShardedLedger.Proofs.Ledger.Evolution
import ShardedLedger.Proofs.Ledger.Subtree

namespace ShardedLedger

namespace Ledger

section Parts

-- The part of a ledger below the roots to keep.
def within (keep : String → Bool) (ledger : Ledger) : Ledger :=
  ⟨ledger.accounts.filter fun key _ => keep key.root⟩

variable (keep : String → Bool) (ledger : Ledger)

theorem get?_within (key : Key) :
    (ledger.within keep).get? key = if keep key.root then ledger.get? key else none := by
  unfold within get?
  rw [SortedMap.get?_filter]
  by_cases h : keep key.root <;> cases ledger.accounts.get? key <;> simp [h]

theorem get?_within_of_keep {root : String} {key : Key} (hkey : key.root = root)
    (hkeep : keep root = true) : (ledger.within keep).get? key = ledger.get? key := by
  rw [get?_within, if_pos (hkey ▸ hkeep)]

@[simp] theorem within_empty : empty.within keep = empty := rfl

theorem within_set_of_keep {key : Key} (h : keep key.root = true) (account : Account) :
    (ledger.set key account).within keep = (ledger.within keep).set key account :=
  congrArg Ledger.mk (SortedMap.filter_insert_of_keep ledger.accounts h)

theorem within_set_of_drop {key : Key} (h : keep key.root = false) (account : Account) :
    (ledger.set key account).within keep = ledger.within keep :=
  congrArg Ledger.mk (SortedMap.filter_insert_of_drop ledger.accounts (fun _ => h) account)

end Parts

-- What is done below one root: a part of the ledger with that root gives the same answer and is
-- left as the part of the whole, and a part without it is left alone.
structure IsLocal {α : Type} (root : String) (run : Ledger → Ledger × α) : Prop where
  inside : ∀ (keep : String → Bool) ledger, keep root = true →
    run (ledger.within keep) = ((run ledger).1.within keep, (run ledger).2)
  outside : ∀ (keep : String → Bool) ledger, keep root = false →
    (run ledger).1.within keep = ledger.within keep

-- What can be read off any part with the root.
def IsLocalQuery {α : Type} (root : String) (query : Ledger → α) : Prop :=
  ∀ (keep : String → Bool) ledger, keep root = true → query (ledger.within keep) = query ledger

theorem IsLocalQuery.prod {α β : Type} {root : String} {query : Ledger → α} {other : Ledger → β}
    (hquery : IsLocalQuery root query) (hother : IsLocalQuery root other) :
    IsLocalQuery root fun ledger => (query ledger, other ledger) :=
  fun keep ledger hkeep => Prod.ext (hquery keep ledger hkeep) (hother keep ledger hkeep)

namespace IsLocal

variable {α β : Type} {root : String}

theorem pure (answer : α) : IsLocal root fun ledger => (ledger, answer) :=
  ⟨fun _ _ _ => rfl, fun _ _ _ => rfl⟩

theorem set {key : Key} (hkey : key.root = root) (account : Account) {run : Ledger → Ledger × α}
    (h : IsLocal root run) : IsLocal root fun ledger => run (ledger.set key account) where
  inside keep ledger hkeep := by
    rw [← h.inside keep _ hkeep, within_set_of_keep keep ledger (hkey ▸ hkeep)]
  outside keep ledger hkeep := by
    rw [h.outside keep _ hkeep, within_set_of_drop keep ledger (hkey ▸ hkeep)]

theorem read {query : Ledger → α} (hquery : IsLocalQuery root query) :
    IsLocal root fun ledger => (ledger, query ledger) :=
  ⟨fun keep ledger hkeep => by rw [hquery keep ledger hkeep], fun _ _ _ => rfl⟩

theorem map {run : Ledger → Ledger × β} (h : IsLocal root run) (change : β → α) :
    IsLocal root fun ledger => ((run ledger).1, change (run ledger).2) :=
  ⟨fun keep ledger hkeep => by rw [h.inside keep ledger hkeep], h.outside⟩

-- After a first local step, in each of its cases what is done next has to be local.
theorem andThen {first : Ledger → Ledger × α} {run : Ledger → Ledger × β}
    (hfirst : IsLocal root first)
    (h : ∀ answer, ∃ next, IsLocal root next ∧
      ∀ ledger after, first ledger = (after, answer) → run ledger = next after) :
    IsLocal root run where
  inside keep ledger hkeep := by
    obtain ⟨next, hnext, hrun⟩ := h (first ledger).2
    rw [hrun _ _ (hfirst.inside keep ledger hkeep), hrun ledger (first ledger).1 rfl]
    exact hnext.inside keep (first ledger).1 hkeep
  outside keep ledger hkeep := by
    obtain ⟨next, hnext, hrun⟩ := h (first ledger).2
    rw [hrun ledger (first ledger).1 rfl, hnext.outside keep (first ledger).1 hkeep]
    exact hfirst.outside keep ledger hkeep

theorem of_query {query : Ledger → α} {run : Ledger → Ledger × β}
    (hquery : IsLocalQuery root query)
    (h : ∀ answer, ∃ next, IsLocal root next ∧
      ∀ ledger, query ledger = answer → run ledger = next ledger) : IsLocal root run := by
  refine (IsLocal.read hquery).andThen fun answer => ?_
  obtain ⟨next, hnext, hrun⟩ := h answer
  refine ⟨next, hnext, fun ledger after hread => ?_⟩
  obtain ⟨rfl, hanswer⟩ := Prod.mk.inj hread
  exact hrun ledger hanswer

end IsLocal

section Queries

variable {root : String} {key : Key}

theorem isLocalQuery_get? (hkey : key.root = root) : IsLocalQuery root (·.get? key) :=
  fun keep ledger hkeep => get?_within_of_keep keep ledger hkey hkeep

theorem isLocalQuery_contains (hkey : key.root = root) : IsLocalQuery root (·.contains key) :=
  fun keep ledger hkeep => congrArg Option.isSome (isLocalQuery_get? hkey keep ledger hkeep)

theorem isLocalQuery_spendAncestor? (hkey : key.root = root) :
    IsLocalQuery root (·.spendAncestor? key) := by
  intro keep ledger hkeep
  have hancestors : ∀ ancestor ∈ key.ancestors,
      (ledger.within keep).get? ancestor = ledger.get? ancestor := by
    intro ancestor hancestor
    have hroot := (Key.root_of_mem_ancestors hancestor).trans hkey
    exact get?_within_of_keep keep ledger hroot hkeep
  unfold spendAncestor?
  generalize key.ancestors = ancestors at hancestors
  induction ancestors with
  | nil => rfl
  | cons ancestor ancestors ih =>
      simp only [List.find?_cons, hancestors ancestor (by simp),
        ih fun other hother => hancestors other (List.mem_cons_of_mem _ hother)]

-- Whatever is selected from the ledger by a test that only keys of the root pass.
theorem filter_entries_within {root : String} {select : Key × Account → Bool}
    (hselect : ∀ entry, select entry = true → entry.1.root = root) (keep : String → Bool)
    (ledger : Ledger) (hkeep : keep root = true) :
    (ledger.within keep).accounts.entries.filter select =
      ledger.accounts.entries.filter select := by
  unfold within SortedMap.filter
  rw [List.filter_filter]
  refine List.filter_congr fun entry _ => ?_
  by_cases h : select entry
  · simp [h, hselect entry h, hkeep]
  · simp [h]

theorem isLocalQuery_subtree (hkey : key.root = root) : IsLocalQuery root (·.subtree key) := by
  intro keep ledger hkeep
  have hentries := filter_entries_within
    (fun (entry : Key × Account) (h : key.contains entry.1 = true) =>
      (Key.root_of_contains h).symm.trans hkey) keep ledger hkeep
  simp only [subtree, subtreeEntries_eq_filter, hentries,
    isLocalQuery_contains hkey keep ledger hkeep]

theorem isLocalQuery_children (hkey : key.root = root) : IsLocalQuery root (·.children key) := by
  intro keep ledger hkeep
  have hentries := filter_entries_within
    (fun (entry : Key × Account) (h : entry.1.isChildOf key = true) =>
      (Key.root_of_isChildOf h).trans hkey) keep ledger hkeep
  have hkeys (ledger : Ledger) : ledger.keys.filter (·.isChildOf key) =
      (ledger.accounts.entries.filter fun entry => entry.1.isChildOf key).map (·.1) :=
    List.filter_map
  simp only [children, hkeys, hentries, isLocalQuery_contains hkey keep ledger hkeep]

theorem isLocalQuery_summary (hkey : key.root = root) : IsLocalQuery root (·.summary key) := by
  intro keep ledger hkeep
  simp only [summary, isLocalQuery_subtree hkey keep ledger hkeep]

end Queries

section Operations

variable {root : String} {key : Key}

theorem isLocal_settle (hkey : key.root = root) (changed : Account × Option Overflow) :
    IsLocal root fun ledger => ledger.settle key changed := by
  rcases changed with ⟨account, _ | overflow⟩
  · exact .set hkey account (.pure _)
  · exact .set hkey account (.pure _)

theorem isLocal_changeActive (hkey : key.root = root)
    (change : Account → Account × Option Overflow) :
    IsLocal root fun ledger => ledger.changeActive key change := by
  refine .of_query (isLocalQuery_get? hkey) fun found => ?_
  cases found with
  | none =>
      refine ⟨_, .pure (.error (.refused (.notFound key))), fun ledger hget => ?_⟩
      simp only [changeActive, hget, refuse]
  | some account =>
      by_cases hactive : account.isActive
      · refine ⟨_, isLocal_settle hkey (change account), fun ledger hget => ?_⟩
        simp only [changeActive, hget, hactive, ite_true]
      · refine ⟨_, .pure (.error (.refused (.closed key))), fun ledger hget => ?_⟩
        simp only [changeActive, hget, hactive, Bool.false_eq_true, ite_false, refuse]

theorem isLocal_openEach (create : Bool) {keys : List Key} (hkeys : ∀ key ∈ keys, key.root = root) :
    IsLocal root (openEach create keys) := by
  induction keys with
  | nil => exact .pure none
  | cons key keys ih =>
      have hkey := hkeys key (by simp)
      have hrest := ih fun other hother => hkeys other (List.mem_cons_of_mem _ hother)
      refine .of_query (isLocalQuery_get? hkey) fun found => ?_
      cases found with
      | none =>
          cases create with
          | true =>
              refine ⟨_, hrest.set hkey (.new key .budget), fun ledger hget => ?_⟩
              simp only [openEach, hget, ite_true]
          | false =>
              refine ⟨_, hrest, fun ledger hget => ?_⟩
              simp only [openEach, hget, Bool.false_eq_true, ite_false]
      | some account =>
          by_cases hactive : account.isActive
          · refine ⟨_, hrest, fun ledger hget => ?_⟩
            simp only [openEach, hget, hactive, ite_true]
          · rcases hopened : account.setStatus .active with ⟨opened, _ | overflow⟩
            · refine ⟨_, hrest.set hkey opened, fun ledger hget => ?_⟩
              simp only [openEach, hget, hactive, hopened, Bool.false_eq_true, ite_false]
            · refine ⟨_, IsLocal.set hkey opened (.pure (some overflow)), fun ledger hget => ?_⟩
              simp only [openEach, hget, hactive, hopened, Bool.false_eq_true, ite_false]

theorem isLocal_openAncestors (hkey : key.root = root) (create : Bool) :
    IsLocal root (openEach create key.ancestors) :=
  isLocal_openEach create fun _ hancestor => (Key.root_of_mem_ancestors hancestor).trans hkey

theorem isLocal_reactivate (hkey : key.root = root) :
    IsLocal root fun ledger => ledger.reactivate key := by
  refine (isLocal_openAncestors hkey false).andThen fun overflow => ?_
  cases overflow with
  | some overflow =>
      refine ⟨_, .pure (.error (.overflow overflow)), fun ledger opened hopen => ?_⟩
      simp only [reactivate, hopen, stop]
  | none =>
      refine ⟨fun opened => (opened.get? key).elim (opened.refuse (.notFound key)) fun account =>
        if account.isActive then (opened, .ok account)
        else opened.settle key (account.setStatus .active), ?_, fun ledger opened hopen => ?_⟩
      · refine .of_query (isLocalQuery_get? hkey) fun found => ?_
        cases found with
        | none =>
            refine ⟨_, .pure (.error (.refused (.notFound key))), fun opened hget => ?_⟩
            simp only [hget, Option.elim_none, refuse]
        | some account =>
            by_cases hactive : account.isActive
            · refine ⟨_, .pure (.ok account), fun opened hget => ?_⟩
              simp only [hget, Option.elim_some, hactive, ite_true]
            · refine ⟨_, isLocal_settle hkey (account.setStatus .active), fun opened hget => ?_⟩
              simp only [hget, Option.elim_some, hactive, Bool.false_eq_true, ite_false]
      · simp only [reactivate, hopen]
        cases opened.get? key <;> rfl

theorem isLocal_create (hkey : key.root = root) (type : AccountType) :
    IsLocal root fun ledger => ledger.create key type := by
  have hqueries := (isLocalQuery_get? hkey).prod (isLocalQuery_spendAncestor? hkey)
  refine .of_query hqueries fun ⟨found, ancestor⟩ => ?_
  cases found with
  | some account =>
      by_cases hactive : account.isActive
      · by_cases htype : account.type = type
        · refine ⟨_, .pure (.ok account), fun ledger h => ?_⟩
          simp only [create, (Prod.mk.inj h).1, hactive, htype, Bool.not_true, Bool.false_eq_true,
            ite_false, ite_true]
        · refine ⟨_, .pure (.error (.refused (.typeMismatch key))), fun ledger h => ?_⟩
          simp only [create, (Prod.mk.inj h).1, hactive, htype, Bool.not_true, Bool.false_eq_true,
            ite_false, refuse]
      · refine ⟨_, isLocal_reactivate hkey, fun ledger h => ?_⟩
        simp only [create, (Prod.mk.inj h).1, hactive, Bool.not_false, ite_true]
  | none =>
      cases ancestor with
      | some parent =>
          refine ⟨_, .pure (.error (.refused (.underSpend parent key))), fun ledger h => ?_⟩
          simp only [create, (Prod.mk.inj h).1, (Prod.mk.inj h).2, refuse]
      | none =>
          refine ⟨fun ledger =>
            let opened := openEach true key.ancestors ledger
            opened.2.elim (opened.1.set key (.new key type), .ok (.new key type)) opened.1.stop,
            (isLocal_openAncestors hkey true).andThen fun overflow => ?_, fun ledger h => ?_⟩
          · cases overflow with
            | some overflow =>
                refine ⟨_, .pure (.error (.overflow overflow)), fun ledger opened hopen => ?_⟩
                simp only [hopen, Option.elim_some, stop]
            | none =>
                refine ⟨_, .set hkey (.new key type) (.pure (.ok (.new key type))),
                  fun ledger opened hopen => ?_⟩
                simp only [hopen, Option.elim_none]
          · obtain ⟨hget, hspend⟩ := Prod.mk.inj h
            simp only [create, hget, hspend]
            rcases openEach true key.ancestors ledger with ⟨opened, _ | overflow⟩ <;> rfl

theorem closeWithin_of_root_ne {candidate : Key} (hkey : key.root = root)
    (h : candidate.root ≠ root) (account : Account) :
    closeWithin key candidate account = (account, none) := by
  have hnot : key.contains candidate = false := by
    by_contra hcontains
    exact h ((Key.root_of_contains (by simpa using hcontains)).symm.trans hkey)
  simp [closeWithin, hnot]

-- The visit of all accounts changes only those below the key.
theorem isLocal_visit (hkey : key.root = root) : IsLocal root fun ledger =>
    (⟨(ledger.accounts.visit (closeWithin key)).1⟩,
      (ledger.accounts.visit (closeWithin key)).2) where
  inside keep ledger hkeep := by
    have hentries := SortedMap.visitEntries_filter (closeWithin key) (fun key => keep key.root)
      (fun candidate account h => closeWithin_of_root_ne hkey
        (fun he => by simp [he, hkeep] at h) account) ledger.accounts.entries
    exact Prod.ext (congrArg Ledger.mk (SortedMap.eq_of_entries_eq (congrArg Prod.fst hentries)))
      (congrArg Prod.snd hentries :)
  outside keep ledger hkeep := by
    have hentries := SortedMap.filter_visitEntries (closeWithin key) (fun key => keep key.root)
      (fun candidate account h => closeWithin_of_root_ne hkey
        (fun he => by simp [he, hkeep] at h) account) ledger.accounts.entries
    exact congrArg Ledger.mk (SortedMap.eq_of_entries_eq hentries)

theorem isLocal_close (hkey : key.root = root) : IsLocal root fun ledger => ledger.close key := by
  refine .of_query (isLocalQuery_contains hkey) fun isThere => ?_
  cases isThere with
  | false =>
      refine ⟨_, .pure (.error (.refused (.notFound key))), fun ledger h => ?_⟩
      simp only [close, h, Bool.false_eq_true, ite_false, refuse]
  | true =>
      have hfound : IsLocal root fun closed : Ledger =>
          (closed.get? key).elim (closed.refuse (.notFound key)) fun account =>
            (closed, .ok account) := by
        refine .of_query (isLocalQuery_get? hkey) fun found => ?_
        cases found with
        | some account =>
            refine ⟨_, .pure (.ok account), fun closed hget => ?_⟩
            simp only [hget, Option.elim_some]
        | none =>
            refine ⟨_, .pure (.error (.refused (.notFound key))), fun closed hget => ?_⟩
            simp only [hget, Option.elim_none, refuse]
      refine ⟨fun ledger =>
        let visited := ledger.accounts.visit (closeWithin key)
        visited.2.elim
          ((get? ⟨visited.1⟩ key).elim (refuse ⟨visited.1⟩ (.notFound key)) fun account =>
            (⟨visited.1⟩, .ok account))
          (stop ⟨visited.1⟩),
        (isLocal_visit hkey).andThen fun overflow => ?_, fun ledger h => ?_⟩
      · cases overflow with
        | some overflow =>
            refine ⟨_, .pure (.error (.overflow overflow)), fun ledger closed hvisit => ?_⟩
            obtain ⟨rfl, hoverflow⟩ := Prod.mk.inj hvisit
            simp only [hoverflow, Option.elim_some, stop]
        | none =>
            refine ⟨_, hfound, fun ledger closed hvisit => ?_⟩
            obtain ⟨rfl, hoverflow⟩ := Prod.mk.inj hvisit
            simp only [hoverflow, Option.elim_none]
      · simp only [close, h, ite_true, get?]
        rcases ledger.accounts.visit (closeWithin key) with ⟨accounts, _ | overflow⟩
        · dsimp only
          cases accounts.get? key <;> rfl
        · rfl

theorem isLocal_apply (operation : Operation) :
    IsLocal operation.key.root fun ledger => operation.apply ledger := by
  cases operation with
  | create key type => exact isLocal_create rfl type
  | setBudget key budget => exact isLocal_changeActive rfl _
  | setBalance key balance => exact isLocal_changeActive rfl _
  | addAdjustment key adjustment => exact isLocal_changeActive rfl _
  | reportSpend key spent => exact isLocal_changeActive rfl _
  | close key => exact isLocal_close rfl
  | reactivate key => exact isLocal_reactivate rfl

section Elsewhere

variable {ledger : Ledger} {key other : Key}

theorem IsLocal.get?_eq {α : Type} {run : Ledger → Ledger × α} (h : IsLocal root run)
    (hother : other.root ≠ root) : (run ledger).1.get? other = ledger.get? other := by
  have houtside := h.outside (· ≠ root) ledger (by simp)
  have hkeep (part : Ledger) : (part.within (· ≠ root)).get? other = part.get? other :=
    get?_within_of_keep (· ≠ root) part rfl (by simpa using hother)
  rw [← hkeep, houtside, hkeep]

-- Also an overflow that stops a creation leaves nothing below another root.
theorem contains_create {type : AccountType}
    (h : (ledger.create key type).1.contains other = true) :
    ledger.contains other = true ∨ other.root = key.root := by
  by_cases hroot : other.root = key.root
  · exact .inr hroot
  · have hget : (ledger.create key type).1.get? other = ledger.get? other :=
      (isLocal_create rfl type).get?_eq hroot
    rw [contains_iff, hget, ← contains_iff] at h
    exact .inl h

end Elsewhere

end Operations

end Ledger

end ShardedLedger
