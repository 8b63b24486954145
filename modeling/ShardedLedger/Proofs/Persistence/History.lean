import ShardedLedger.Proofs.Persistence.Saving

namespace ShardedLedger

-- The saves that were made to a store, the last one first: each ledger with what came of it.
abbrev SaveHistory := List (Ledger × SaveResult)

namespace SaveHistory

-- The account as it was saved last under the key.
def last? (key : Key) : SaveHistory → Option Account
  | [] => none
  | (ledger, result) :: earlier =>
      if result.isSuccess then
        ((ledger.get? key).filter fun account => !account.outOfSync).or (last? key earlier)
      else last? key earlier

-- Saves of any services with the same names in the store, one after another from nothing on.
-- Each ledger has its accounts under their own, valid keys.
inductive Leads (layout : Layout) : SaveHistory → Store → Prop where
  | start : Leads layout [] .empty
  | save {history : SaveHistory} {store : Store} (hrun : Leads layout history store)
      (service : Service) (now : Nat) (first second : Meanwhile) {after : Service}
      {result : SaveResult} (hlayout : service.layout = layout)
      (hstore : service.backend.store = store) (hfree : service.turnstile.saving = false)
      (hnamed : service.ledger.WellNamed)
      (hsave : service.saveThrough now first second = (after, .finished result)) :
      Leads layout ((service.ledger, result) :: history) after.backend.store

-- What is stored is what was saved last, each account under its key and in one of the two sets.
structure IsStored (layout : Layout) (history : SaveHistory) (store : Store) : Prop where
  stored : ∀ key : Key, store.value? (layout.valueKey key.text) =
    (history.last? key).map (·.storedText)
  named : ∀ key account, history.last? key = some account →
    key.IsValid ∧ account.name = key ∧ account.outOfSync = false
  indexed : ∀ member, store.IsIndexed layout member ↔
    ∃ text, store.value? (layout.valueKey member) = some text
  once : ∀ member, ¬store.IsListedTwice layout member

section Steps

variable {layout : Layout} {history : SaveHistory} {store : Store} {ledger : Ledger}
  {result : SaveResult} {key : Key} {account : Account}

theorem last?_cons_of_failed (h : result.status ≠ .success) :
    last? key ((ledger, result) :: history) = last? key history := by
  have hfailed : result.isSuccess = false := decide_eq_false h
  simp [last?, hfailed]

theorem last?_cons_of_mem (h : result.status = .success) (hmem : (key, account) ∈ ledger.saved) :
    last? key ((ledger, result) :: history) = some account := by
  have hsuccess : result.isSuccess = true := decide_eq_true h
  obtain ⟨hlive, hinSync⟩ := (ledger.mem_saved_iff key account).mp hmem
  simp [last?, hsuccess, hlive, hinSync]

theorem last?_cons_of_notMem (h : ∀ account, (key, account) ∉ ledger.saved) :
    last? key ((ledger, result) :: history) = last? key history := by
  have hnone : ((ledger.get? key).filter fun account => !account.outOfSync) = none := by
    rw [Option.filter_eq_none_iff]
    intro account hlive hinSync
    refine h account ((ledger.mem_saved_iff key account).mpr ⟨hlive, ?_⟩)
    simpa using hinSync
  simp [last?, hnone]

theorem isStored_start : IsStored layout [] .empty where
  stored key := rfl
  named key account h := by cases h
  indexed member := by
    constructor
    · rintro (hactive | harchive)
      · cases hactive
      · cases harchive
    · rintro ⟨text, htext⟩
      cases htext
  once member h := by cases h.1

theorem IsStored.of_failed (h : IsStored layout history store) (hstatus : result.status ≠ .success) :
    IsStored layout ((ledger, result) :: history) store where
  stored key := by rw [last?_cons_of_failed hstatus, h.stored]
  named key account hlast := h.named key account (last?_cons_of_failed hstatus ▸ hlast)
  indexed := h.indexed
  once := h.once

-- What did not have to be written is stored already, as the same text.
theorem IsStored.stored_committed (h : IsStored layout history store)
    (hbad : (Plan.against layout store ledger.saved).badKeys = [])
    (hstatus : result.status = .success) (key : Key) :
    (store.applyAll (Plan.against layout store ledger.saved).commands).value?
        (layout.valueKey key.text) =
      (last? key ((ledger, result) :: history)).map (·.storedText) := by
  by_cases hentry : ∃ account, (key, account) ∈ ledger.saved
  · obtain ⟨account, hmem⟩ := hentry
    have hforbids :=
      (Plan.badKeys_against_eq_nil_iff layout store ledger.saved).mp hbad key account hmem
    rw [Plan.value?_against layout store store ledger.nodup_saved hmem,
      last?_cons_of_mem hstatus hmem]
    split
    next => rfl
    next hrewrites =>
      obtain ⟨text, htext, hread⟩ := Plan.readStored_of_not_rewrites hforbids hrewrites
      rw [htext]
      rw [h.stored] at htext
      obtain ⟨old, -, rfl⟩ := Option.map_eq_some_iff.mp htext
      rw [old.readStored_storedText, Option.some.injEq, Prod.mk.injEq] at hread
      exact congrArg (some ∘ Json.print) hread.1
  · have hother := not_exists.mp hentry
    rw [Plan.value?_against_of_notEntry layout store store hother, h.stored,
      last?_cons_of_notMem hother]

theorem IsStored.committed (h : IsStored layout history store) (hnamed : ledger.WellNamed)
    (hbad : (Plan.against layout store ledger.saved).badKeys = [])
    (hstatus : result.status = .success) :
    IsStored layout ((ledger, result) :: history)
      (store.applyAll (Plan.against layout store ledger.saved).commands) where
  stored := h.stored_committed hbad hstatus
  named key account hlast := by
    by_cases hentry : ∃ live, (key, live) ∈ ledger.saved
    · obtain ⟨live, hmem⟩ := hentry
      rw [last?_cons_of_mem hstatus hmem] at hlast
      obtain rfl : live = account := Option.some.inj hlast
      obtain ⟨hlive, hinSync⟩ := (ledger.mem_saved_iff key live).mp hmem
      obtain ⟨hvalid, hname⟩ := hnamed key live hlive
      exact ⟨hvalid, hname, hinSync⟩
    · rw [last?_cons_of_notMem (not_exists.mp hentry)] at hlast
      exact h.named key account hlast
  indexed := Plan.isIndexed_against_iff layout store ledger.nodup_saved h.indexed
  once member htwice := by
    refine h.once member (Plan.isListedTwice_against ledger.nodup_saved ?_ htwice)
    intro entry _ hnone hindexed
    obtain ⟨text, htext⟩ := (h.indexed _).mp hindexed
    rw [hnone] at htext
    cases htext

theorem Leads.isStored (hrun : Leads layout history store) : IsStored layout history store := by
  induction hrun with
  | start => exact isStored_start
  | save hrun service now first second hlayout hstore hfree hnamed hsave ih =>
      obtain ⟨ended, outcome, hrun, hends⟩ := service.saveThrough_ends hfree now first second
      obtain ⟨hafter, hresult⟩ := Prod.mk.inj (hrun.symm.trans hsave)
      cases hresult
      rw [← hafter]
      rw [hlayout, hstore] at hends
      generalize ended.backend.store = final at hends ⊢
      cases hends with
      | unread _ _ hstatus => exact ih.of_failed (by rw [hstatus]; nofun)
      | refused _ _ hstatus => exact ih.of_failed (by rw [hstatus]; nofun)
      | unwritten _ _ _ hstatus => exact ih.of_failed (by rw [hstatus]; nofun)
      | done _ hbad hstatus => exact ih.committed hnamed hbad hstatus

end Steps

section Loading

variable {layout : Layout} {history : SaveHistory} {store : Store}

theorem IsStored.record? (h : IsStored layout history store) (key : Key) :
    store.record? layout key = history.last? key := by
  rw [Store.record?, h.stored]
  cases hlast : history.last? key with
  | none => rfl
  | some account =>
      have hrecorded : account.asRecorded = account := by
        obtain ⟨-, -, hinSync⟩ := h.named key account hlast
        rw [Account.asRecorded, ← hinSync]
      rw [Option.map_some, Option.bind_some, account.readStored_storedText]
      exact congrArg some hrecorded

theorem IsStored.isGood (h : IsStored layout history store) {member : String}
    (hmember : store.IsIndexed layout member) : Load.IsGood layout store member := by
  obtain ⟨text, htext⟩ := (h.indexed member).mp hmember
  have hstored : (history.last? ⟨member⟩).map (·.storedText) = some text :=
    (h.stored ⟨member⟩).symm.trans htext
  obtain ⟨account, hlast, rfl⟩ := Option.map_eq_some_iff.mp hstored
  obtain ⟨hvalid, hname, -⟩ := h.named ⟨member⟩ account hlast
  exact Load.isGood_of_storedText htext hvalid hname

-- The ledger that a load makes of accounts: what is missing above them is added, closed, and
-- nothing else.
structure IsRestored (stored : Key → Option Account) (ledger : Ledger) : Prop where
  kept : ∀ key account, stored key = some account → ledger.get? key = some account
  filled : ∀ key below account, stored key = none → stored below = some account →
    key ∈ below.ancestors → ledger.get? key = some (.placeholder key)
  nothingElse : ∀ key, stored key = none →
    (∀ below account, stored below = some account → key ∉ below.ancestors) →
      ledger.get? key = none

theorem isRestored_repair {stored : Key → Option Account} {records : Ledger}
    (hget : ∀ key, records.get? key = stored key) : IsRestored stored records.repair.1 where
  kept key account hstored := Ledger.get?_repair_of_some ((hget key).trans hstored)
  filled key below account hnone hstored habove := by
    have hmissing := (records.mem_missingAncestors_iff key).mpr
      ⟨(hget key).trans hnone, below, account, (hget below).trans hstored, habove⟩
    rw [Ledger.get?_repair, if_pos hmissing]
  nothingElse key hnone hbelow := by
    have hmissing : key ∉ records.missingAncestors := by
      rw [Ledger.mem_missingAncestors_iff]
      rintro ⟨-, below, account, haccount, habove⟩
      exact hbelow below account ((hget below).symm.trans haccount) habove
    rw [Ledger.get?_repair, if_neg hmissing, hget, hnone]

theorem IsStored.outcome (h : IsStored layout history store) :
    ∃ ledger, Load.outcome layout store = .ok ledger ∧ IsRestored (history.last? ·) ledger := by
  obtain ⟨records, houtcome, hindexed, hunindexed⟩ := Load.outcome_eq_ok fun _ => h.isGood
  have hget (key : Key) : records.get? key = history.last? key := by
    by_cases hkey : store.IsIndexed layout key.text
    · rw [hindexed key hkey, h.record?]
    · rw [hunindexed key hkey]
      cases hlast : history.last? key with
      | none => rfl
      | some account =>
          have htext := h.stored key
          rw [hlast] at htext
          exact absurd ((h.indexed key.text).mpr ⟨_, htext⟩) hkey
  exact ⟨records.repair.1, houtcome, isRestored_repair hget⟩

-- Whatever saves have led to a store, it holds what was saved last, each account in exactly one
-- of the two sets. If the last of them succeeded with nothing out of sync, a load brings its
-- ledger back, with what is stored besides and what is missing above that.
theorem load_brings_back_saves (hrun : Leads layout history store) :
    (∀ key : Key, store.value? (layout.valueKey key.text) =
        (history.last? key).map (·.storedText)) ∧
      (∀ member text, store.value? (layout.valueKey member) = some text →
        store.IsIndexed layout member ∧ ¬store.IsListedTwice layout member) ∧
      (∀ member, store.IsIndexed layout member →
        ∃ text, store.value? (layout.valueKey member) = some text) ∧
      ∀ ledger result earlier, history = (ledger, result) :: earlier → result.status = .success →
        (∀ key account, ledger.get? key = some account → account.outOfSync = false) →
          ∀ service : Service, service.layout = layout → service.backend.store = store →
            service.IsPrompt → ∃ after outcome, service.load = (after, outcome) ∧
              outcome.status = .success ∧
              (∀ key account, ledger.get? key = some account →
                after.ledger.get? key = some account) ∧
              (∀ key account, ledger.get? key = none → last? key earlier = some account →
                after.ledger.get? key = some account) ∧
              IsRestored (history.last? ·) after.ledger := by
  have hstored := hrun.isStored
  refine ⟨hstored.stored, fun member text htext => ?_, fun member => (hstored.indexed member).mp, ?_⟩
  · exact ⟨(hstored.indexed member).mpr ⟨text, htext⟩, hstored.once member⟩
  · rintro ledger result earlier rfl hstatus hinSync service rfl rfl hprompt
    obtain ⟨loaded, houtcome, hrestored⟩ := hstored.outcome
    obtain ⟨backend, hload⟩ := Service.load_of_isPrompt hprompt houtcome
    refine ⟨_, _, hload, rfl, fun key account hlive => ?_, fun key account hnone hearlier => ?_,
      hrestored⟩
    · have hmem := (ledger.mem_saved_iff key account).mpr ⟨hlive, hinSync key account hlive⟩
      exact hrestored.kept key account (last?_cons_of_mem hstatus hmem)
    · have hlast : last? key ((ledger, result) :: earlier) = last? key earlier :=
        last?_cons_of_notMem (Ledger.notMem_saved_of_none hnone)
      exact hrestored.kept key account (hlast.trans hearlier)

-- One service saves a single account, and another one saves a single one besides, below an
-- account that it does not have.
def lone (key : Key) (type : AccountType) (store : Store) : Service where
  settings := .default
  ledger := Ledger.empty.set key (.new key type)
  backend := { Backend.empty with store }
  turnstile := .free

def opening : Service := lone ⟨"a"⟩ .budget .empty

def followUp : Service :=
  lone ⟨"c:d"⟩ .spend
    (Store.empty.applyAll (Plan.against opening.layout .empty opening.ledger.saved).commands)

theorem wellNamed_lone {key : Key} (hkey : key.IsValid) (type : AccountType) (store : Store) :
    (lone key type store).ledger.WellNamed :=
  (Ledger.Extends.set_new (Ledger.get?_empty key) hkey rfl).named Ledger.wellNamed_empty

theorem load_brings_back_saves_filled :
    ∃ store after outcome,
      (Service.new .default { Backend.empty with store }).load = (after, outcome) ∧
        outcome.status = .success ∧
        after.ledger.get? ⟨"a"⟩ = some (.new ⟨"a"⟩ .budget) ∧
        after.ledger.get? ⟨"c:d"⟩ = some (.new ⟨"c:d"⟩ .spend) ∧
        after.ledger.get? ⟨"c"⟩ = some (.placeholder ⟨"c"⟩) := by
  obtain ⟨opened, first, hopened, hfirst, hstore⟩ :=
    opening.saveThrough_succeeds rfl 0 opening.still opening.still
      (by decide +kernel) (by decide +kernel) (by decide +kernel)
  obtain ⟨followed, second, hfollowed, hsecond, -⟩ :=
    followUp.saveThrough_succeeds rfl 0 followUp.still followUp.still
      (by decide +kernel) (by decide +kernel) (by decide +kernel)
  have hopening : Leads opening.layout [(opening.ledger, first)] opened.backend.store :=
    .save .start opening 0 _ _ rfl rfl rfl (wellNamed_lone (by decide) .budget .empty) hopened
  have hboth : Leads opening.layout [(followUp.ledger, second), (opening.ledger, first)]
      followed.backend.store :=
    .save hopening followUp 0 _ _ rfl hstore.symm rfl
      (wellNamed_lone (by decide) .spend _) hfollowed
  have hlive : followUp.ledger.get? ⟨"c:d"⟩ = some (.new ⟨"c:d"⟩ .spend) := by decide +kernel
  have hsaved : (⟨"a"⟩, .new ⟨"a"⟩ .budget) ∈ opening.ledger.saved := by decide +kernel
  have hbelow : (⟨"c:d"⟩, .new ⟨"c:d"⟩ .spend) ∈ followUp.ledger.saved := by decide +kernel
  have hinSync : ∀ key account, followUp.ledger.get? key = some account →
      account.outOfSync = false := by
    intro key account haccount
    rw [followUp, lone, Ledger.get?_set] at haccount
    split at haccount
    · cases haccount
      rfl
    · cases haccount
  have hmissing : last? ⟨"c"⟩ [(followUp.ledger, second), (opening.ledger, first)] = none := by
    have hfollowUp : followUp.ledger.get? ⟨"c"⟩ = none := by decide +kernel
    have hopening : opening.ledger.get? ⟨"c"⟩ = none := by decide +kernel
    rw [last?_cons_of_notMem (Ledger.notMem_saved_of_none hfollowUp),
      last?_cons_of_notMem (Ledger.notMem_saved_of_none hopening), last?]
  obtain ⟨-, -, -, hloads⟩ := load_brings_back_saves hboth
  obtain ⟨after, outcome, hload, hstatus, hkept, hearlier, hrestored⟩ :=
    hloads _ _ _ rfl hsecond hinSync
      (Service.new .default { Backend.empty with store := followed.backend.store }) rfl rfl
      ⟨rfl, Nat.zero_le _⟩
  refine ⟨_, after, outcome, hload, hstatus, ?_, hkept _ _ hlive, ?_⟩
  · exact hearlier _ _ (by decide +kernel) (last?_cons_of_mem hfirst hsaved)
  · exact hrestored.filled _ ⟨"c:d"⟩ _ hmissing (last?_cons_of_mem hsecond hbelow) (by decide)

end Loading

end SaveHistory

end ShardedLedger
