import ShardedLedger.Proofs.Persistence.History

namespace ShardedLedger

namespace Load

variable (layout : Layout) (store : Store) (members : List String)

-- The listed accounts that nothing is stored for.
def lacking : List String :=
  members.filter fun member => (store.value? (layout.valueKey member)).isNone

-- The listed accounts whose stored text is no value at all.
def garbled : List String :=
  members.filter fun member =>
    (store.value? (layout.valueKey member)).any fun text => (Json.parse? text).isNone

-- What a load reports that gets all of its answers, and the ledger it makes of them. Each kind of
-- damage is reported alone: accounts without a value, then values that cannot be read, and in the
-- end, with all that is listed, records that do not fit.
structure Reports (after : Ledger) (result : SaveResult) : Prop where
  empty : members = [] → result.status = .success ∧ after = .empty
  missing : lacking layout store members ≠ [] → result.status = .dataInconsistency ∧
    result.info = SaveResult.keyList (lacking layout store members)
  unreadable : lacking layout store members = [] → garbled layout store members ≠ [] →
    result.status = .dataInconsistency ∧
      result.info = SaveResult.keyList (garbled layout store members)
  unfit : lacking layout store members = [] → garbled layout store members = [] →
    (∃ member ∈ members, ¬IsGood layout store member) → result.status = .dataInconsistency ∧
      result.info = SaveResult.keyList members
  restored : (∀ member ∈ members, IsGood layout store member) → result.status = .success ∧
    SaveHistory.IsRestored
      (fun key => if key.text ∈ members then store.record? layout key else none) after

variable {layout store members} {result : SaveResult} {ledger : Ledger}

theorem ofValues_eq : ofValues members (members.map fun member =>
    store.value? (layout.valueKey member)) =
      if lacking layout store members ≠ [] then
        .error (.dataInconsistency (lacking layout store members))
      else if garbled layout store members ≠ [] then
        .error (.dataInconsistency (garbled layout store members))
      else
        match Ledger.ofJson (.object (parsed (members.map fun member =>
          (member, store.value? (layout.valueKey member))))) with
        | .error _ => .error (.dataInconsistency members)
        | .ok ledger => .ok ledger.repair.1 := by
  unfold ofValues
  dsimp only
  rw [zip_map_self, missing_eq_filter, unreadable_eq_filter]
  rfl

theorem lacking_eq_nil (hgood : ∀ member ∈ members, IsGood layout store member) :
    lacking layout store members = [] := by
  refine List.filter_eq_nil_iff.mpr fun member hmember => ?_
  obtain ⟨text, -, -, htext, -⟩ := exists_text_of_isGood (hgood member hmember)
  simp [htext]

theorem garbled_eq_nil (hgood : ∀ member ∈ members, IsGood layout store member) :
    garbled layout store members = [] := by
  refine List.filter_eq_nil_iff.mpr fun member hmember => ?_
  obtain ⟨text, json, -, htext, hparse, -⟩ := exists_text_of_isGood (hgood member hmember)
  simp [htext, hparse]

-- The records of a load that is refused are not all good.
theorem exists_not_isGood (hsorted : members.Pairwise fun a b => compare a b = .lt)
    (h : gathered layout members store = .error result) :
    ∃ member ∈ members, ¬IsGood layout store member := by
  by_contra hnone
  have hgood (member : String) (hmember : member ∈ members) : IsGood layout store member := by
    by_contra hbad
    exact hnone ⟨member, hmember, hbad⟩
  obtain ⟨records, -, hget⟩ := readEntries_eq_ok hgood .empty
  have hrecords := (gathered_eq_ok_iff hsorted).mpr
    ⟨hgood, records, rfl, fun key hkey => (hget key).trans (if_pos hkey),
      fun key hkey => (hget key).trans (if_neg hkey)⟩
  rw [h] at hrecords
  cases hrecords

-- The first reason there is to refuse a load is the only one that it reports.
theorem reports_error (hsorted : members.Pairwise fun a b => compare a b = .lt)
    (h : gathered layout members store = .error result) (kept : Ledger) (latency : String) :
    Reports layout store members kept (result.record latency) := by
  have hbad := exists_not_isGood hsorted h
  have hnotGood : ¬∀ member ∈ members, IsGood layout store member := by
    obtain ⟨member, hmember, hbad⟩ := hbad
    exact fun hgood => hbad (hgood member hmember)
  have hmembers : members ≠ [] := by
    rintro rfl
    obtain ⟨member, hmember, -⟩ := hbad
    cases hmember
  rw [gathered, if_neg (mt List.isEmpty_iff.mp hmembers), ofValues_eq] at h
  refine ⟨fun hempty => absurd hempty hmembers, fun hlacking => ?_, fun hfound hgarbled => ?_,
    fun hfound hreadable _ => ?_, fun hgood => absurd hgood hnotGood⟩
  · rw [if_pos hlacking] at h
    cases h
    exact ⟨rfl, rfl⟩
  · rw [if_neg (not_not.mpr hfound), if_pos hgarbled] at h
    cases h
    exact ⟨rfl, rfl⟩
  · rw [if_neg (not_not.mpr hfound), if_neg (not_not.mpr hreadable)] at h
    split at h
    next =>
      cases h
      exact ⟨rfl, rfl⟩
    next => cases h

theorem reports_ok (hsorted : members.Pairwise fun a b => compare a b = .lt)
    (h : gathered layout members store = .ok ledger) (latency : String) :
    Reports layout store members ledger (SaveResult.success.record latency) := by
  obtain ⟨hgood, records, rfl, hlisted, hother⟩ := (gathered_eq_ok_iff hsorted).mp h
  have hget (key : Key) : records.get? key =
      if key.text ∈ members then store.record? layout key else none := by
    split
    next hkey => exact hlisted key hkey
    next hkey => exact hother key hkey
  refine ⟨?_, fun hlacking => absurd (lacking_eq_nil hgood) hlacking,
    fun _ hgarbled => absurd (garbled_eq_nil hgood) hgarbled, ?_,
    fun _ => ⟨rfl, SaveHistory.isRestored_repair hget⟩⟩
  · rintro rfl
    exact ⟨rfl, (Except.ok.inj h).symm⟩
  · rintro - - ⟨member, hmember, hbad⟩
    exact absurd (hgood member hmember) hbad

end Load

namespace Service

-- If the load waits, it gets its answer, and in time.
def IsLoadAnswered (backend : Backend) : LoadProgress → Prop
  | .waiting _ wait => backend.unavailable = false ∧ wait.isInVain = false
  | .finished _ => True

instance (backend : Backend) :
    (progress : LoadProgress) → Decidable (IsLoadAnswered backend progress)
  | .waiting _ _ => inferInstanceAs (Decidable (_ ∧ _))
  | .finished _ => .isTrue trivial

-- The load has ended without an answer.
def HasFailed (progress : LoadProgress) : Prop :=
  ∃ result, progress = .finished result ∧ result.status = .persistenceError

section Answers

variable (service : Service) (backend : Backend)

theorem hasFailed_finished_iff (result : SaveResult) :
    HasFailed (.finished result) ↔ result.status = .persistenceError := by
  constructor
  · rintro ⟨ended, hended, hfailed⟩
    cases hended
    exact hfailed
  · exact fun hfailed => ⟨result, rfl, hfailed⟩

theorem not_hasFailed_waiting (load : Load) (wait : Wait) : ¬HasFailed (.waiting load wait) := by
  rintro ⟨result, hended, -⟩
  cases hended

theorem not_hasFailed_done (now deadline : Nat) {outcome : Except SaveResult Ledger}
    (h : ∀ result, outcome = .error result → result.status = .dataInconsistency) :
    ¬HasFailed (service.continueLoad now deadline (.done outcome)).2 := by
  rintro ⟨result, hended, hfailed⟩
  cases outcome with
  | ok ledger =>
      cases hended
      cases hfailed
  | error refused =>
      cases hended
      have hstatus := h refused rfl
      rw [show refused.status = _ from hfailed] at hstatus
      cases hstatus

-- An answer of the store is never taken for a failure of it.
theorem hasFailed_continueLoad_iff (now deadline : Nat) (load : Load) :
    HasFailed (service.continueLoad now deadline (load.next service.layout backend)).2 ↔
      backend.unavailable = true := by
  cases hup : backend.unavailable with
  | true =>
      refine iff_of_true ?_ rfl
      cases load <;>
        simp only [Load.next, Backend.members, Backend.values, Backend.answer, hup, ite_true] <;>
        exact ⟨_, rfl, rfl⟩
  | false =>
      refine iff_of_false ?_ Bool.false_ne_true
      cases load <;>
        simp only [Load.next, Backend.members, Backend.values, Backend.answer, hup,
          Bool.false_eq_true, ite_false]
      case readingActive => exact not_hasFailed_waiting _ _
      case readingArchive active =>
        rw [Load.afterArchive]
        split
        next => exact service.not_hasFailed_done now deadline fun _ h => by cases h
        next => exact not_hasFailed_waiting _ _
      case readingValues members =>
        exact service.not_hasFailed_done now deadline fun _ => Load.status_of_ofValues_eq_error

theorem hasFailed_wakeLoad_iff (pending : Service × LoadProgress) :
    HasFailed (wakeLoad backend pending).2 ↔
      HasFailed pending.2 ∨ ¬IsLoadAnswered backend pending.2 := by
  obtain ⟨begun, result | ⟨load, wait⟩⟩ := pending
  · exact (or_iff_left (not_not.mpr trivial)).symm
  · rw [or_iff_right (not_hasFailed_waiting load wait), wakeLoad, resumeLoad, IsLoadAnswered]
    split
    next hvain => exact iff_of_true ⟨_, rfl, rfl⟩ (by simp [hvain])
    next hintime =>
      have hfailed := hasFailed_continueLoad_iff { begun with backend } backend wait.answerAt
        wait.deadline load
      refine hfailed.trans ?_
      simp [hintime]

end Answers

-- What a load finds answers each of its questions.
def AnswersLoad (service : Service) (now : Nat) (active archive values : Backend) : Prop :=
  IsLoadAnswered active (service.beginLoad now).2 ∧
    IsLoadAnswered archive (wakeLoad active (service.beginLoad now)).2 ∧
    IsLoadAnswered values (wakeLoad archive (wakeLoad active (service.beginLoad now))).2

theorem hasFailed_loadThrough_iff (service : Service) (now : Nat)
    (active archive values : Backend) :
    HasFailed (service.loadThrough now active archive values).2 ↔
      ¬service.AnswersLoad now active archive values := by
  have hbegun : ¬HasFailed (service.beginLoad now).2 := not_hasFailed_waiting _ _
  rw [loadThrough, hasFailed_wakeLoad_iff, hasFailed_wakeLoad_iff, hasFailed_wakeLoad_iff,
    or_iff_right hbegun, AnswersLoad, not_and_or, not_and_or, or_assoc]

-- A load takes over all that is listed or nothing. If an answer is missing, it reports just that,
-- and otherwise what is wrong with the stored records, if anything is.
theorem load_all_or_nothing (service : Service) (now : Nat) (active archive values : Backend) :
    ∃ after result, service.loadThrough now active archive values = (after, .finished result) ∧
      (result.status ≠ .success → after.ledger = service.ledger) ∧
      (result.status = .persistenceError ↔ ¬service.AnswersLoad now active archive values) ∧
      (service.AnswersLoad now active archive values →
        Load.Reports service.layout values.store
          (Load.members (active.store.members service.layout.activeSet)
            (archive.store.members service.layout.archiveSet))
          after.ledger result) := by
  have hends := service.loadThrough_ends now active archive values
  have hfailed := service.hasFailed_loadThrough_iff now active archive values
  have hsorted := Load.sorted_members (active.store.members service.layout.activeSet)
    (archive.store.members service.layout.archiveSet)
  generalize service.loadThrough now active archive values = ended at hends hfailed ⊢
  cases hends with
  | unreached backend result _ hstatus =>
      have hstopped := (hasFailed_finished_iff result).symm.trans hfailed
      exact ⟨_, _, rfl, fun _ => rfl, hstopped,
        fun hanswered => absurd hanswered (hstopped.mp hstatus)⟩
  | refused backend result _ houtcome =>
      exact ⟨_, _, rfl, fun _ => rfl, (hasFailed_finished_iff _).symm.trans hfailed,
        fun _ => Load.reports_error hsorted houtcome service.ledger Latency.total⟩
  | filled backend ledger _ houtcome =>
      exact ⟨_, _, rfl, fun hother => absurd rfl hother,
        (hasFailed_finished_iff _).symm.trans hfailed,
        fun _ => Load.reports_ok hsorted houtcome Latency.total⟩

-- A store that lists an account without a value, one with a text that cannot be read, and one whose
-- name is no key and whose value is no record.
def damaged : Backend :=
  let listed := ((Store.empty.addMember "banker:accounts" "b").addMember "banker:accounts"
    "a").addMember "banker:archive" ":"
  { Backend.empty with store := (listed.setValue "banker-a" "?").setValue "banker-:" "0" }

-- A load from that store into a ledger that is in use.
def reloading : Service where
  settings := .default
  ledger := (Ledger.empty.create ⟨"x"⟩ .budget).1
  backend := damaged
  turnstile := .free

-- The account without a value is reported alone, and the ledger stays as it is.
theorem load_all_or_nothing_damaged :
    ∃ after result, reloading.loadThrough 0 damaged damaged damaged = (after, .finished result) ∧
      result.status = .dataInconsistency ∧ result.info = "[\"b\"]" ∧
      after.ledger = reloading.ledger := by
  obtain ⟨after, result, hload, hkept, -, hreports⟩ :=
    load_all_or_nothing reloading 0 damaged damaged damaged
  have hanswered : reloading.AnswersLoad 0 damaged damaged damaged :=
    ⟨by decide +kernel, by decide +kernel, by decide +kernel⟩
  have hlacking : Load.lacking reloading.layout damaged.store
      (Load.members (damaged.store.members reloading.layout.activeSet)
        (damaged.store.members reloading.layout.archiveSet)) = ["b"] := by decide +kernel
  obtain ⟨hstatus, hinfo⟩ := (hreports hanswered).missing (by rw [hlacking]; nofun)
  have hlisted : SaveResult.keyList ["b"] = "[\"b\"]" := by decide +kernel
  rw [hlacking, hlisted] at hinfo
  exact ⟨after, result, hload, hstatus, hinfo, hkept (by rw [hstatus]; nofun)⟩

end Service

end ShardedLedger
