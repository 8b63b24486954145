import ShardedLedger.Proofs.Except
import ShardedLedger.Proofs.Ledger.Repair
import ShardedLedger.Proofs.Persistence.Plan
import ShardedLedger.Service.Timing

namespace ShardedLedger

namespace Backend

theorem answer_eq_error_or_ok {α : Type} (backend : Backend) (value : α) :
    (∃ error, backend.answer value = .error error) ∨ backend.answer value = .ok value := by
  unfold answer
  split
  · exact .inl ⟨.unavailable, rfl⟩
  · exact .inr rfl

end Backend

namespace Load

-- The accounts that the two index sets list.
def indexed (layout : Layout) (store : Store) : List String :=
  members (store.members layout.activeSet) (store.members layout.archiveSet)

theorem mem_members_iff (active archived : List String) (member : String) :
    member ∈ members active archived ↔ member ∈ active ∨ member ∈ archived := by
  rw [members, SortedSet.mem_keys_ofMembers, List.mem_append]

theorem sorted_members (active archived : List String) :
    (members active archived).Pairwise fun a b => compare a b = .lt :=
  List.pairwise_map.mpr (SortedMap.sorted _)

theorem mem_indexed_iff (layout : Layout) (store : Store) (member : String) :
    member ∈ indexed layout store ↔ store.IsIndexed layout member :=
  mem_members_iff _ _ member

-- What a load comes to that finds these accounts listed and then their values in the store.
def gathered (layout : Layout) (members : List String) (store : Store) : Except SaveResult Ledger :=
  if members.isEmpty then .ok .empty
  else ofValues members (members.map fun member => store.value? (layout.valueKey member))

-- What a load comes to that the store answers.
def outcome (layout : Layout) (store : Store) : Except SaveResult Ledger :=
  gathered layout (indexed layout store) store

section Records

theorem zip_map_self {α β : Type} (list : List α) (f : α → β) :
    list.zip (list.map f) = list.map fun item => (item, f item) := by
  rw [List.zip_eq_zipWith, List.zipWith_map_right, List.zipWith_self]

variable (value? : String → Option String)

theorem missing_eq_filter (members : List String) :
    missing (members.map fun member => (member, value? member)) =
      members.filter fun member => (value? member).isNone := by
  induction members with
  | nil => rfl
  | cons member members ih =>
      rw [List.map_cons, List.filter_cons]
      cases hvalue : value? member with
      | none => simp [missing, ih]
      | some text => simp [missing, ih]

theorem unreadable_eq_filter (members : List String) :
    unreadable (members.map fun member => (member, value? member)) =
      members.filter fun member => (value? member).any fun text => (Json.parse? text).isNone := by
  induction members with
  | nil => rfl
  | cons member members ih =>
      rw [List.map_cons, List.filter_cons]
      cases hvalue : value? member with
      | none => simp [unreadable, ih]
      | some text =>
          rw [unreadable, ih]
          rfl

theorem missing_eq_nil_iff (members : List String) :
    missing (members.map fun member => (member, value? member)) = [] ↔
      ∀ member ∈ members, (value? member).isSome := by
  rw [missing_eq_filter, List.filter_eq_nil_iff]
  simp only [Option.isNone_iff_eq_none, Option.isSome_iff_ne_none, ne_eq]

theorem unreadable_eq_nil_iff (members : List String) :
    unreadable (members.map fun member => (member, value? member)) = [] ↔
      ∀ member ∈ members, ∀ text, value? member = some text → (Json.parse? text).isSome := by
  rw [unreadable_eq_filter, List.filter_eq_nil_iff]
  refine forall₂_congr fun member _ => ?_
  cases value? member <;> simp [Option.isSome_iff_ne_none]

theorem parsed_sublist (found : List (String × Option String)) :
    ((parsed found).map (·.1)).Sublist (found.map (·.1)) := by
  fun_induction parsed found with
  | case1 => exact .slnil
  | case2 member rest ih => exact ih.cons member
  | case3 member rest text _ ih => exact ih.cons member
  | case4 member rest text value _ ih => exact ih.cons_cons member

theorem ascending_parsed {members : List String}
    (h : members.Pairwise fun a b => compare a b = .lt) :
    SortedMap.Ascending (parsed (members.map fun member => (member, value? member))) := by
  refine List.pairwise_map.mp (h.sublist ?_)
  have hsub := parsed_sublist (members.map fun member => (member, value? member))
  rwa [List.map_map, show (fun pair : String × Option String => pair.1) ∘
    (fun member => (member, value? member)) = id from rfl, List.map_id] at hsub

end Records

-- The stored record is one that a load takes up.
def IsGood (layout : Layout) (store : Store) (member : String) : Prop :=
  ∃ account, store.record? layout ⟨member⟩ = some account ∧ (⟨member⟩ : Key).IsValid ∧
    account.name = ⟨member⟩

theorem isGood_of_storedText {layout : Layout} {store : Store} {member : String}
    {account : Account}
    (htext : store.value? (layout.valueKey member) = some account.storedText)
    (hvalid : (⟨member⟩ : Key).IsValid) (hname : account.name = ⟨member⟩) :
    IsGood layout store member :=
  ⟨account.asRecorded, @Plan.record?_of_storedText layout store ⟨member⟩ account htext, hvalid,
    hname⟩

theorem exists_text_of_isGood {layout : Layout} {store : Store} {member : String}
    (h : IsGood layout store member) :
    ∃ text json account, store.value? (layout.valueKey member) = some text ∧
      Json.parse? text = some json ∧ Account.form.decode json = .ok account ∧
      store.record? layout ⟨member⟩ = some account ∧ (⟨member⟩ : Key).IsValid ∧
      account.name = ⟨member⟩ := by
  obtain ⟨account, hrecord, hvalid, hname⟩ := h
  obtain ⟨text, htext, hread⟩ := Option.bind_eq_some_iff.mp hrecord
  obtain ⟨⟨json, stored⟩, hstored, rfl⟩ := Option.map_eq_some_iff.mp hread
  obtain ⟨hparse, hdecode⟩ := Plan.readStored_eq_some_iff.mp hstored
  exact ⟨text, json, stored, htext, hparse, hdecode, hrecord, hvalid, hname⟩

theorem readEntry_eq_ok_iff {ledger after : Ledger} {member : String} {json : Json} :
    ledger.readEntry (member, json) = .ok after ↔ ∃ account, (⟨member⟩ : Key).IsValid ∧
      Account.form.decode json = .ok account ∧ account.name = ⟨member⟩ ∧
      after = ledger.set ⟨member⟩ account := by
  simp only [Ledger.readEntry, bind_eq_ok_iff, mapError_eq_ok_iff, Key.parse_eq_ok_iff]
  constructor
  · rintro ⟨key, ⟨rfl, hvalid⟩, account, hdecode, hset⟩
    by_cases hname : account.name = ⟨member⟩
    · rw [if_pos hname, Except.ok.injEq] at hset
      exact ⟨account, hvalid, hdecode, hname, hset.symm⟩
    · rw [if_neg hname] at hset
      cases hset
  · rintro ⟨account, hvalid, hdecode, hname, rfl⟩
    exact ⟨⟨member⟩, ⟨rfl, hvalid⟩, account, hdecode, if_pos hname⟩

-- By induction on the entries: each puts an account under its own, valid name that it has decoded.
theorem decoded_of_readEntries {members : List (String × Json)} {before ledger : Ledger}
    (h : members.foldlM Ledger.readEntry before = .ok ledger) {key : Key} {account : Account}
    (haccount : ledger.get? key = some account) : before.get? key = some account ∨
      key.IsValid ∧ account.name = key ∧ ∃ json, Account.form.decode json = .ok account := by
  induction members generalizing before with
  | nil => exact .inl (Except.ok.inj h ▸ haccount)
  | cons member members ih =>
      rw [List.foldlM_cons, bind_eq_ok_iff] at h
      obtain ⟨next, hentry, hrest⟩ := h
      obtain ⟨read, hvalid, hdecode, hname, rfl⟩ := readEntry_eq_ok_iff.mp hentry
      rcases ih hrest with hset | hdecoded
      · rw [Ledger.get?_set] at hset
        split at hset
        next heq =>
          obtain rfl := Option.some.inj hset
          exact .inr (heq ▸ ⟨hvalid, hname, member.2, hdecode⟩)
        next => exact .inl hset
      · exact .inr hdecoded

theorem decoded_of_ofJson {json : Json} {ledger : Ledger} (h : Ledger.ofJson json = .ok ledger)
    {key : Key} {account : Account} (haccount : ledger.get? key = some account) :
    key.IsValid ∧ account.name = key ∧ ∃ record, Account.form.decode record = .ok account := by
  cases json with
  | obj members => exact (decoded_of_readEntries h haccount).resolve_left nofun
  | _ => cases h

variable {layout : Layout} {store : Store}

-- Each good record is put under its key. What is put there depends on the key alone.
theorem readEntries_eq_ok {members : List String}
    (h : ∀ member ∈ members, IsGood layout store member) (ledger : Ledger) :
    ∃ after, (parsed (members.map fun member => (member, store.value? (layout.valueKey member)))
        ).foldlM Ledger.readEntry ledger = .ok after ∧
      ∀ key, after.get? key =
        if key.text ∈ members then store.record? layout key else ledger.get? key := by
  induction members generalizing ledger with
  | nil => exact ⟨ledger, rfl, fun key => by simp⟩
  | cons member members ih =>
      obtain ⟨text, json, account, htext, hparse, hdecode, hrecord, hvalid, hname⟩ :=
        exists_text_of_isGood (h member (by simp))
      obtain ⟨after, hafter, hget⟩ :=
        ih (fun other hother => h other (List.mem_cons_of_mem _ hother))
        (ledger.set ⟨member⟩ account)
      have hentry : ledger.readEntry (member, json) = .ok (ledger.set ⟨member⟩ account) :=
        readEntry_eq_ok_iff.mpr ⟨account, hvalid, hdecode, hname, rfl⟩
      refine ⟨after, ?_, ?_⟩
      · simp only [List.map_cons, htext, parsed, hparse, List.foldlM_cons, hentry]
        exact hafter
      · intro key
        rw [hget, Ledger.get?_set]
        by_cases he : key = ⟨member⟩
        · subst he
          simp [hrecord]
        · have hne : key.text ≠ member := fun htext => he (congrArg Key.mk htext)
          simp [he, hne]

theorem isGood_of_readEntries {members : List String} {ledger after : Ledger}
    (hfound : ∀ member ∈ members, (store.value? (layout.valueKey member)).isSome)
    (hreadable : ∀ member ∈ members, ∀ text, store.value? (layout.valueKey member) = some text →
      (Json.parse? text).isSome)
    (h : (parsed (members.map fun member => (member, store.value? (layout.valueKey member)))
      ).foldlM Ledger.readEntry ledger = .ok after) :
    ∀ member ∈ members, IsGood layout store member := by
  induction members generalizing ledger with
  | nil => nofun
  | cons member members ih =>
      rw [List.forall_mem_cons] at hfound hreadable ⊢
      obtain ⟨text, htext⟩ := Option.isSome_iff_exists.mp hfound.1
      obtain ⟨json, hparse⟩ := Option.isSome_iff_exists.mp (hreadable.1 text htext)
      rw [List.map_cons, htext, parsed, hparse, List.foldlM_cons, bind_eq_ok_iff] at h
      obtain ⟨next, hentry, hrest⟩ := h
      obtain ⟨account, hvalid, hdecode, hname, -⟩ := readEntry_eq_ok_iff.mp hentry
      have hread : Plan.readStored text = some (json, account) :=
        Plan.readStored_eq_some_iff.mpr ⟨hparse, hdecode⟩
      have hrecord : store.record? layout ⟨member⟩ = some account := by
        rw [Store.record?, htext, Option.bind_some, hread]
        rfl
      exact ⟨⟨account, hrecord, hvalid, hname⟩, ih hfound.2 hreadable.2 hrest⟩

theorem ofValues_eq_ok_iff {members : List String} {values : List (Option String)}
    {ledger : Ledger} :
    ofValues members values = .ok ledger ↔ missing (members.zip values) = [] ∧
      unreadable (members.zip values) = [] ∧ ∃ records,
        Ledger.ofJson (.object (parsed (members.zip values))) = .ok records ∧
        ledger = records.repair.1 := by
  unfold ofValues
  by_cases hmissing : missing (members.zip values) = []
  · by_cases hunreadable : unreadable (members.zip values) = []
    · rcases hread : Ledger.ofJson (.object (parsed (members.zip values))) with error | records
      · simp [hmissing, hunreadable, hread]
      · simp [hmissing, hunreadable, hread, eq_comm]
    · simp [hmissing, hunreadable]
  · simp [hmissing]

theorem status_of_ofValues_eq_error {members : List String} {values : List (Option String)}
    {result : SaveResult} (h : ofValues members values = .error result) :
    result.status = .dataInconsistency := by
  unfold ofValues at h
  dsimp only at h
  split at h
  · cases h
    rfl
  · split at h
    · cases h
      rfl
    · split at h
      · cases h
        rfl
      · cases h

theorem status_of_gathered_eq_error {members : List String} {result : SaveResult}
    (h : gathered layout members store = .error result) : result.status = .dataInconsistency := by
  unfold gathered at h
  split at h
  · cases h
  · exact status_of_ofValues_eq_error h

-- A load succeeds exactly if each listed account has a good record. It brings back these records,
-- and then what is missing above them.
theorem gathered_eq_ok_iff {members : List String}
    (hsorted : members.Pairwise fun a b => compare a b = .lt) {ledger : Ledger} :
    gathered layout members store = .ok ledger ↔
      (∀ member ∈ members, IsGood layout store member) ∧ ∃ records : Ledger,
        ledger = records.repair.1 ∧
        (∀ key : Key, key.text ∈ members → records.get? key = store.record? layout key) ∧
        ∀ key : Key, key.text ∉ members → records.get? key = none := by
  have hascending := ascending_parsed (fun member => store.value? (layout.valueKey member)) hsorted
  have hgathered : gathered layout members store = .ok ledger ↔
      ofValues members (members.map fun member => store.value? (layout.valueKey member)) =
        .ok ledger := by
    unfold gathered
    split
    next hempty =>
      rw [List.isEmpty_iff.mp hempty]
      rfl
    next => rfl
  rw [hgathered, ofValues_eq_ok_iff, zip_map_self, missing_eq_nil_iff, unreadable_eq_nil_iff,
    Json.object, SortedMap.entries_ofList hascending, Ledger.ofJson]
  constructor
  · rintro ⟨hfound, hreadable, records, hrecords, rfl⟩
    have hgood := isGood_of_readEntries hfound hreadable hrecords
    obtain ⟨after, hafter, hget⟩ := readEntries_eq_ok hgood .empty
    obtain rfl : after = records := Except.ok.inj (hafter.symm.trans hrecords)
    exact ⟨hgood, after, rfl, fun key hkey => (hget key).trans (if_pos hkey),
      fun key hkey => (hget key).trans (if_neg hkey)⟩
  · rintro ⟨hgood, records, rfl, hlisted, hother⟩
    obtain ⟨after, hafter, hget⟩ := readEntries_eq_ok hgood .empty
    have hrecords : after = records := Ledger.eq_of_get?_eq fun key => by
      by_cases hkey : key.text ∈ members
      · rw [hget, if_pos hkey, hlisted key hkey]
      · rw [hget, if_neg hkey, hother key hkey]
        rfl
    subst hrecords
    refine ⟨fun member hmember => ?_, fun member hmember text htext => ?_, after, hafter, rfl⟩
    · obtain ⟨text, _, _, htext, -⟩ := exists_text_of_isGood (hgood member hmember)
      exact Option.isSome_iff_exists.mpr ⟨text, htext⟩
    · obtain ⟨text', json, _, htext', hparse, -⟩ := exists_text_of_isGood (hgood member hmember)
      rw [htext, Option.some.injEq] at htext'
      exact Option.isSome_iff_exists.mpr ⟨json, htext' ▸ hparse⟩

section Gathered

variable {members : List String} {ledger : Ledger} {key : Key}
  (hsorted : members.Pairwise fun a b => compare a b = .lt)
  (h : gathered layout members store = .ok ledger)

include hsorted h

theorem get?_of_mem_gathered (hkey : key.text ∈ members) :
    ∃ account, store.record? layout key = some account ∧ ledger.get? key = some account := by
  obtain ⟨hgood, records, rfl, hlisted, -⟩ := (gathered_eq_ok_iff hsorted).mp h
  obtain ⟨account, hrecord, -⟩ := hgood key.text hkey
  exact ⟨account, hrecord, Ledger.get?_repair_of_some ((hlisted key hkey).trans hrecord)⟩

-- There is nothing under a key that is not listed, unless it has to be there for another one.
theorem get?_of_notMem_gathered (hkey : key.text ∉ members) :
    ledger.get? key = none ∨ ledger.get? key = some (.placeholder key) := by
  obtain ⟨-, records, rfl, -, hother⟩ := (gathered_eq_ok_iff hsorted).mp h
  rw [Ledger.get?_repair]
  split
  next => exact .inr rfl
  next => exact .inl (hother key hkey)

-- An open account was stored as one.
theorem exists_record?_of_isActive (hactive : ledger.isActive key = true) :
    ∃ stored, store.record? layout key = some stored ∧ stored.isActive = true := by
  rw [Ledger.isActive] at hactive
  by_cases hkey : key.text ∈ members
  · obtain ⟨account, hrecord, hget⟩ := get?_of_mem_gathered hsorted h hkey
    rw [hget] at hactive
    exact ⟨account, hrecord, hactive⟩
  · rcases get?_of_notMem_gathered hsorted h hkey with hnone | hplaceholder
    · rw [hnone] at hactive
      cases hactive
    · rw [hplaceholder] at hactive
      cases hactive

end Gathered

theorem outcome_eq_ok_iff {ledger : Ledger} :
    outcome layout store = .ok ledger ↔
      (∀ member, store.IsIndexed layout member → IsGood layout store member) ∧ ∃ records : Ledger,
        ledger = records.repair.1 ∧
        (∀ key, store.IsIndexed layout key.text → records.get? key = store.record? layout key) ∧
        ∀ key, ¬store.IsIndexed layout key.text → records.get? key = none := by
  have hgathered :=
    @gathered_eq_ok_iff layout store (indexed layout store) (sorted_members _ _) ledger
  simp only [mem_indexed_iff] at hgathered
  exact hgathered

-- A load brings back exactly the stored records, and then what is missing above them.
theorem outcome_eq_ok (h : ∀ member, store.IsIndexed layout member → IsGood layout store member) :
    ∃ ledger : Ledger, outcome layout store = .ok ledger.repair.1 ∧
      (∀ key, store.IsIndexed layout key.text → ledger.get? key = store.record? layout key) ∧
      ∀ key, ¬store.IsIndexed layout key.text → ledger.get? key = none := by
  have hmem (key : Key) := mem_indexed_iff layout store key.text
  obtain ⟨records, -, hget⟩ := readEntries_eq_ok
    (fun member hmember => h member ((mem_indexed_iff layout store member).mp hmember)) .empty
  have hlisted (key : Key) (hkey : store.IsIndexed layout key.text) :
      records.get? key = store.record? layout key :=
    (hget key).trans (if_pos ((hmem key).mpr hkey))
  have hother (key : Key) (hkey : ¬store.IsIndexed layout key.text) : records.get? key = none :=
    (hget key).trans (if_neg fun hmember => hkey ((hmem key).mp hmember))
  exact ⟨records, outcome_eq_ok_iff.mpr ⟨h, records, rfl, hlisted, hother⟩, hlisted, hother⟩

end Load

namespace Service

-- A load gets no answer from the store, or none in time, or it ends with what is stored. Only
-- the last can change the ledger.
inductive Loads (service : Service) : Service × SaveResult → Prop where
  | unreached (backend : Backend) (result : SaveResult)
      (hstore : backend.store = service.backend.store)
      (hstatus : result.status = .persistenceError) :
      Loads service ({ service with backend }, result)
  | refused (backend : Backend) (result : SaveResult)
      (hstore : backend.store = service.backend.store)
      (houtcome : Load.outcome service.layout service.backend.store = .error result) :
      Loads service ({ service with backend }, result.record Latency.total)
  | filled (backend : Backend) (ledger : Ledger) (hstore : backend.store = service.backend.store)
      (houtcome : Load.outcome service.layout service.backend.store = .ok ledger) :
      Loads service ({ service with backend, ledger }, SaveResult.success.record Latency.total)

-- Goes on with a load that waits. It finds the store as it is by then.
def wakeLoad (backend : Backend) : Service × LoadProgress → Service × LoadProgress
  | (service, .waiting load wait) => { service with backend }.resumeLoad load wait
  | ended => ended

-- A load from its beginning on, with what it finds at each of its three reads.
def loadThrough (service : Service) (now : Nat) (active archive values : Backend) :
    Service × LoadProgress :=
  wakeLoad values (wakeLoad archive (wakeLoad active (service.beginLoad now)))

-- The load has ended, without any answer or with what the listed accounts come to.
inductive LoadEnds (service : Service) (backends : List Backend)
    (outcome : Except SaveResult Ledger) : Service × LoadProgress → Prop where
  | unreached (backend : Backend) (result : SaveResult) (hbackend : backend ∈ backends)
      (hstatus : result.status = .persistenceError) :
      LoadEnds service backends outcome ({ service with backend }, .finished result)
  | refused (backend : Backend) (result : SaveResult) (hbackend : backend ∈ backends)
      (houtcome : outcome = .error result) :
      LoadEnds service backends outcome
        ({ service with backend }, .finished (result.record Latency.total))
  | filled (backend : Backend) (ledger : Ledger) (hbackend : backend ∈ backends)
      (houtcome : outcome = .ok ledger) :
      LoadEnds service backends outcome
        ({ service with backend, ledger }, .finished (SaveResult.success.record Latency.total))

section Stages

variable (service : Service) (backend : Backend) {backends : List Backend}
  {outcome : Except SaveResult Ledger} {ended : Service × LoadProgress}

theorem LoadEnds.wakeLoad {service : Service} (h : service.LoadEnds backends outcome ended) :
    service.LoadEnds backends outcome (wakeLoad backend ended) := by
  cases h with
  | unreached backend result hbackend hstatus => exact .unreached backend result hbackend hstatus
  | refused backend result hbackend houtcome => exact .refused backend result hbackend houtcome
  | filled backend ledger hbackend houtcome => exact .filled backend ledger hbackend houtcome

theorem loadEnds_done (now deadline : Nat) (hbackend : backend ∈ backends) :
    service.LoadEnds backends outcome
      ({ service with backend }.continueLoad now deadline (.done outcome)) := by
  cases outcome with
  | error result => exact .refused backend result hbackend rfl
  | ok ledger => exact .filled backend ledger hbackend rfl

theorem loadEnds_readingValues (found : Backend) (members : List String) (wait : Wait)
    (hsome : members.isEmpty = false) (hbackend : backend ∈ backends) :
    service.LoadEnds backends (Load.gathered service.layout members backend.store)
      (wakeLoad backend
        ({ service with backend := found }, .waiting (.readingValues members) wait)) := by
  rw [wakeLoad, resumeLoad]
  split
  next => exact .unreached backend _ hbackend rfl
  next =>
    simp only [Load.next, Backend.values]
    rcases backend.answer_eq_error_or_ok
      ((members.map service.layout.valueKey).map backend.store.value?) with ⟨error, herror⟩ | hok
    · simp only [layout] at herror ⊢
      rw [herror]
      exact .unreached backend _ hbackend rfl
    · simp only [layout] at hok ⊢
      rw [hok, List.map_map, Load.gathered, hsome]
      exact service.loadEnds_done backend _ _ hbackend

theorem loadEnds_readingArchive (found values : Backend) (active : List String) (wait : Wait)
    (hbackend : backend ∈ backends) (hvalues : values ∈ backends) :
    service.LoadEnds backends
      (Load.gathered service.layout
        (Load.members active (backend.store.members service.layout.archiveSet)) values.store)
      (wakeLoad values (wakeLoad backend
        ({ service with backend := found }, .waiting (.readingArchive active) wait))) := by
  rw [wakeLoad.eq_1 backend, resumeLoad]
  split
  next => exact (LoadEnds.unreached backend _ hbackend rfl).wakeLoad values
  next =>
    simp only [Load.next, Backend.members]
    rcases backend.answer_eq_error_or_ok (backend.store.members service.layout.archiveSet) with
      ⟨error, herror⟩ | hok
    · simp only [layout] at herror ⊢
      rw [herror]
      exact (LoadEnds.unreached backend _ hbackend rfl).wakeLoad values
    · simp only [layout] at hok ⊢
      rw [hok, Load.afterArchive]
      split
      next hempty =>
        rw [Load.gathered, if_pos hempty]
        exact (service.loadEnds_done backend _ _ hbackend).wakeLoad values
      next hsome =>
        exact service.loadEnds_readingValues values _ _ _ (Bool.eq_false_iff.mpr hsome) hvalues

theorem loadThrough_ends (now : Nat) (active archive values : Backend) :
    service.LoadEnds [active, archive, values]
      (Load.gathered service.layout (Load.members
        (active.store.members service.layout.activeSet)
        (archive.store.members service.layout.archiveSet)) values.store)
      (service.loadThrough now active archive values) := by
  rw [loadThrough, beginLoad, continueLoad, wakeLoad.eq_1 active, resumeLoad]
  split
  next => exact ((LoadEnds.unreached active _ (by simp) rfl).wakeLoad archive).wakeLoad values
  next =>
    simp only [Load.next, Backend.members]
    rcases active.answer_eq_error_or_ok (active.store.members service.layout.activeSet) with
      ⟨error, herror⟩ | hok
    · simp only [layout] at herror ⊢
      rw [herror]
      exact ((LoadEnds.unreached active _ (by simp) rfl).wakeLoad archive).wakeLoad values
    · simp only [layout] at hok ⊢
      rw [hok]
      exact service.loadEnds_readingArchive archive active values _ _ (by simp) (by simp)

theorem finishLoad_finished (calls : Nat) (result : SaveResult) :
    finishLoad calls (service, .finished result) = (service, result) := by
  cases calls <;> rfl

theorem finishLoad_succ (calls : Nat) (pending : Service × LoadProgress) :
    finishLoad (calls + 1) pending = finishLoad calls (wakeLoad pending.1.backend pending) := by
  obtain ⟨service, result | ⟨load, wait⟩⟩ := pending
  · rw [finishLoad_finished]
    exact (service.finishLoad_finished calls result).symm
  · rfl

theorem store_continueLoad (now deadline : Nat) (next : Load.Next) :
    (service.continueLoad now deadline next).1.backend.store = service.backend.store := by
  rcases next with (error | ledger) | load
  · rfl
  · rfl
  · cases load <;> rfl

theorem store_wakeLoad (pending : Service × LoadProgress) :
    (wakeLoad pending.1.backend pending).1.backend.store = pending.1.backend.store := by
  obtain ⟨service, result | ⟨load, wait⟩⟩ := pending
  · rfl
  · rw [wakeLoad, resumeLoad]
    split
    next => rfl
    next => exact store_continueLoad _ _ _ _

-- A load with nothing else going on finds the same store at each read.
theorem exists_loadThrough : ∃ active archive values, active.store = service.backend.store ∧
    archive.store = service.backend.store ∧ values.store = service.backend.store ∧
    service.load = finishLoad 0 (service.loadThrough 0 active archive values) := by
  have hbegun : (service.beginLoad 0).1.backend.store = service.backend.store :=
    service.store_continueLoad _ _ _
  have hactive := store_wakeLoad (service.beginLoad 0)
  have harchive := store_wakeLoad (wakeLoad (service.beginLoad 0).1.backend (service.beginLoad 0))
  refine ⟨_, _, _, hbegun, hactive.trans hbegun, harchive.trans (hactive.trans hbegun), ?_⟩
  rw [load, finishLoad_succ, finishLoad_succ, finishLoad_succ]
  rfl

theorem load_loads : service.Loads service.load := by
  obtain ⟨active, archive, values, hactive, harchive, hvalues, hload⟩ := service.exists_loadThrough
  have hends := service.loadThrough_ends 0 active archive values
  have hstore {backend : Backend} (h : backend ∈ [active, archive, values]) :
      backend.store = service.backend.store := by
    rcases List.mem_cons.mp h with rfl | h
    · exact hactive
    · rcases List.mem_pair.mp h with rfl | rfl
      · exact harchive
      · exact hvalues
  rw [hload]
  rw [hactive, harchive, hvalues] at hends
  generalize service.loadThrough 0 active archive values = ended at hends
  cases hends with
  | unreached backend result hbackend hstatus =>
      exact .unreached backend result (hstore hbackend) hstatus
  | refused backend result hbackend houtcome =>
      exact .refused backend result (hstore hbackend) houtcome
  | filled backend ledger hbackend houtcome =>
      exact .filled backend ledger (hstore hbackend) houtcome

end Stages

section Prompt

-- The store answers, and also the last of the three answers that a load asks for is in time.
def IsPrompt (service : Service) : Prop :=
  service.backend.unavailable = false ∧ 3 * service.backend.delay ≤ service.settings.saveTimeout

variable {service : Service}

theorem finishLoad_waiting (calls : Nat) (load : Load) {wait : Wait}
    (h : wait.answerAt ≤ wait.deadline) :
    finishLoad (calls + 1) (service, .waiting load wait) =
      finishLoad calls (service.continueLoad wait.answerAt wait.deadline
        (load.next service.layout service.backend)) := by
  have hintime : wait.isInVain = false := decide_eq_false (Nat.not_lt.mpr h)
  rw [finishLoad, resumeLoad, hintime]
  rfl

theorem finishLoad_done (calls now deadline : Nat) (ledger : Ledger) :
    finishLoad calls (service.continueLoad now deadline (.done (.ok ledger))) =
      ({ service with ledger }, SaveResult.success.record Latency.total) :=
  finishLoad_finished _ calls _

theorem load_of_isPrompt (hprompt : service.IsPrompt) {ledger : Ledger}
    (houtcome : Load.outcome service.layout service.backend.store = .ok ledger) :
    ∃ backend, service.load =
      ({ service with backend, ledger }, SaveResult.success.record Latency.total) := by
  obtain ⟨havailable, htime⟩ := hprompt
  have hanswer {α : Type} (value : α) : service.backend.answer value = .ok value := by
    rw [Backend.answer, havailable]
    rfl
  have hactive : service.load = finishLoad 2 (service.continueLoad
      (0 + service.backend.delay) (service.deadline 0)
      (.waiting (.readingArchive (service.backend.store.members service.layout.activeSet)))) := by
    have hintime : 0 + service.backend.delay ≤ service.deadline 0 := by
      unfold deadline
      omega
    rw [load, beginLoad, continueLoad, finishLoad_waiting 2 _ hintime]
    simp only [Load.call, Load.next, Backend.members, hanswer, Load.afterActive]
    rfl
  have harchive : service.load = finishLoad 1 (service.continueLoad
      (0 + service.backend.delay + service.backend.delay) (service.deadline 0)
      (if (Load.indexed service.layout service.backend.store).isEmpty then .done (.ok .empty)
        else .waiting (.readingValues (Load.indexed service.layout service.backend.store)))) := by
    have hintime : 0 + service.backend.delay + service.backend.delay ≤ service.deadline 0 := by
      unfold deadline
      omega
    rw [hactive, continueLoad, finishLoad_waiting 1 _ hintime]
    simp only [Load.call, Load.next, Backend.members, hanswer, Load.afterArchive]
    rfl
  unfold Load.outcome Load.gathered at houtcome
  rw [harchive]
  split at houtcome
  next hempty =>
    cases houtcome
    rw [if_pos hempty]
    exact ⟨service.backend, finishLoad_done 1 _ _ .empty⟩
  next hsome =>
    have hintime : 0 + service.backend.delay + service.backend.delay +
        service.backend.countRead.delay ≤ service.deadline 0 := by
      have hdelay : service.backend.countRead.delay = service.backend.delay := rfl
      unfold deadline
      omega
    rw [if_neg hsome, continueLoad]
    simp only [Load.call]
    refine ⟨service.backend.countRead, ?_⟩
    have hvalues : Load.next service.layout service.backend.countRead
        (.readingValues (Load.indexed service.layout service.backend.store)) =
          .done (.ok ledger) := by
      have hread : service.backend.countRead.answer (((Load.indexed service.layout
          service.backend.store).map service.layout.valueKey).map service.backend.store.value?) =
            .ok (((Load.indexed service.layout service.backend.store).map
              service.layout.valueKey).map service.backend.store.value?) := hanswer _
      rw [List.map_map] at hread
      simp only [Load.next, Backend.values, List.map_map]
      rw [show service.backend.countRead.store = service.backend.store from rfl, hread]
      exact congrArg Load.Next.done houtcome
    rw [finishLoad_waiting 0 _ hintime]
    exact (congrArg _ (congrArg _ hvalues)).trans (finishLoad_done 0 _ _ ledger)

end Prompt

end Service

end ShardedLedger
