import ShardedLedger.Proofs.Persistence.Session

namespace ShardedLedger

-- What a save finds at the end of a wait: the ledger by then, whether the store answers, and how
-- long it will take for its next answer.
structure Meanwhile where
  ledger : Ledger
  unavailable : Bool
  latency : Option Nat

namespace Service

section Run

def amid (service : Service) (meanwhile : Meanwhile) : Service :=
  { service with
    ledger := meanwhile.ledger
    backend := { service.backend with
      unavailable := meanwhile.unavailable
      latency := meanwhile.latency } }

-- Goes on with a save that waits.
def wake (meanwhile : Meanwhile) : Service × SaveProgress → Service × SaveProgress
  | (service, .waiting save wait) => (service.amid meanwhile).resumeSave save wait
  | ended => ended

-- A save from its beginning on. It waits twice at most, whatever happens meanwhile.
def saveThrough (service : Service) (now : Nat) (first second : Meanwhile) :
    Service × SaveProgress :=
  wake second (wake first (service.beginSave now))

-- If the save waits, it gets its answer, and in time.
def IsAnswered (meanwhile : Meanwhile) : SaveProgress → Prop
  | .waiting _ wait => meanwhile.unavailable = false ∧ wait.isInVain = false
  | _ => True

instance (meanwhile : Meanwhile) :
    (progress : SaveProgress) → Decidable (IsAnswered meanwhile progress)
  | .waiting _ _ => inferInstanceAs (Decidable (_ ∧ _))
  | .skipped => .isTrue trivial
  | .finished _ => .isTrue trivial

-- How a save with this plan ends, and what is stored then.
inductive SaveEnds (plan : Plan) (store : Store) (readAnswered writeAnswered : Prop) :
    Store → SaveResult → Prop where
  | unread (result : SaveResult) (hread : ¬readAnswered)
      (hstatus : result.status = .persistenceError) :
      SaveEnds plan store readAnswered writeAnswered store result
  | refused (result : SaveResult) (hbad : plan.badKeys ≠ [])
      (hstatus : result.status = .dataInconsistency)
      (hinfo : result.info = SaveResult.keyList (plan.badKeys.map (·.text))) :
      SaveEnds plan store readAnswered writeAnswered store result
  | unwritten (result : SaveResult) (hbad : plan.badKeys = []) (hwrite : ¬writeAnswered)
      (hstatus : result.status = .persistenceError) :
      SaveEnds plan store readAnswered writeAnswered store result
  | done (result : SaveResult) (hbad : plan.badKeys = []) (hstatus : result.status = .success) :
      SaveEnds plan store readAnswered writeAnswered (store.applyAll plan.commands) result

variable (service : Service)

theorem wake_of_isAnswered {save : Save} {wait : Wait} {meanwhile : Meanwhile}
    (h : IsAnswered meanwhile (.waiting save wait)) :
    wake meanwhile (service, .waiting save wait) =
      continueSave
        { service.amid meanwhile with
          backend := (save.next service.layout (service.amid meanwhile).backend).1 }
        wait.answerAt wait.deadline
        (save.next service.layout (service.amid meanwhile).backend).2 := by
  rw [wake, resumeSave, h.2]
  rfl

-- Whatever it waits for, without its answer a save ends and has written nothing.
theorem wake_of_not_isAnswered {save : Save} {wait : Wait} {meanwhile : Meanwhile}
    (h : ¬IsAnswered meanwhile (.waiting save wait)) :
    ∃ after result, wake meanwhile (service, .waiting save wait) = (after, .finished result) ∧
      result.status = .persistenceError ∧ after.backend.store = service.backend.store := by
  unfold wake resumeSave
  dsimp only
  split
  next => exact ⟨_, _, rfl, rfl, rfl⟩
  next hintime =>
    have hdown : (service.amid meanwhile).backend.unavailable ≠ false :=
      fun hup => h ⟨hup, Bool.not_eq_true _ ▸ hintime⟩
    have hcomes := Save.comes_next (service.amid meanwhile).layout
      (service.amid meanwhile).backend save
    generalize save.next _ _ = next at hcomes
    cases hcomes with
    | unread => exact ⟨_, _, rfl, rfl, rfl⟩
    | unwritten => exact ⟨_, _, rfl, rfl, rfl⟩
    | refused _ hup => exact absurd hup hdown
    | upToDate _ hup => exact absurd hup hdown
    | planned _ hup => exact absurd hup hdown
    | committed _ hup => exact absurd hup hdown

-- The end of the wait for the transaction is the end of the save.
theorem wake_writing (plan : Plan) (wait : Wait) (meanwhile : Meanwhile) :
    ∃ after result, wake meanwhile (service, .waiting (.writing plan) wait) =
        (after, .finished result) ∧
      (¬IsAnswered meanwhile (.waiting (.writing plan) wait) ∧
          result.status = .persistenceError ∧ after.backend.store = service.backend.store ∨
        result.status = .success ∧
          after.backend.store = service.backend.store.applyAll plan.commands) := by
  by_cases hwrite : IsAnswered meanwhile (.waiting (.writing plan) wait)
  · rw [service.wake_of_isAnswered hwrite, (Save.Comes.committed plan hwrite.1).next_eq]
    exact ⟨_, _, rfl, .inr ⟨rfl, rfl⟩⟩
  · obtain ⟨after, result, hwake, hstatus, hstore⟩ := service.wake_of_not_isAnswered hwrite
    exact ⟨after, result, hwake, .inl ⟨hwrite, hstatus, hstore⟩⟩

-- The end of the wait for the stored values is the end of the save or a transaction under way.
theorem wake_reading (entries : List (Key × Account)) (wait : Wait) (meanwhile : Meanwhile) :
    (∃ after result, wake meanwhile (service, .waiting (.reading entries) wait) =
        (after, .finished result) ∧ ∀ writeAnswered,
          SaveEnds (Plan.against service.layout service.backend.store entries) service.backend.store
            (IsAnswered meanwhile (.waiting (.reading entries) wait)) writeAnswered
            after.backend.store result) ∨
      ∃ after writeWait, wake meanwhile (service, .waiting (.reading entries) wait) =
          (after, .waiting (.writing (Plan.against service.layout service.backend.store entries))
            writeWait) ∧
        (Plan.against service.layout service.backend.store entries).badKeys = [] ∧
        after.backend.store = service.backend.store := by
  by_cases hread : IsAnswered meanwhile (.waiting (.reading entries) wait)
  · have hcomes := Save.comes_next service.layout (service.amid meanwhile).backend
      (.reading entries)
    rw [service.wake_of_isAnswered hread]
    generalize (Save.reading entries).next _ _ = next at hcomes
    cases hcomes with
    | unread _ hdown => exact absurd (hread.1.symm.trans hdown) Bool.false_ne_true
    | refused _ _ hbad => exact .inl ⟨_, _, rfl, fun _ => .refused _ hbad rfl rfl⟩
    | upToDate _ _ hbad hcommands =>
        refine .inl ⟨_, _, rfl, fun writeAnswered => ?_⟩
        have hdone := @SaveEnds.done _ service.backend.store
          (IsAnswered meanwhile (.waiting (.reading entries) wait)) writeAnswered
          ((Save.compared .success).record Latency.total) hbad rfl
        rw [hcommands] at hdone
        exact hdone
    | planned _ _ hbad => exact .inr ⟨_, _, rfl, hbad, rfl⟩
  · obtain ⟨after, result, hwake, hstatus, hstore⟩ := service.wake_of_not_isAnswered hread
    refine .inl ⟨after, result, hwake, fun writeAnswered => ?_⟩
    rw [hstore]
    exact .unread result hread hstatus

-- A save that is let through is over at once or asks for the values of the accounts to save.
theorem beginSave_of_free (hfree : service.turnstile.saving = false) (now : Nat) :
    (service.ledger.saved = [] ∧ ∃ turnstile, service.beginSave now =
        ({ service with turnstile }, .finished (SaveResult.success.record Latency.total))) ∨
      ∃ turnstile, service.beginSave now =
        ({ service with backend := service.backend.countRead, turnstile },
          .waiting (.reading service.ledger.saved) (service.wait now (service.deadline now))) := by
  unfold beginSave Turnstile.tryEnter
  simp only [hfree, Bool.false_eq_true, ite_false]
  rcases Save.start_cases service.ledger with ⟨hempty, hstart⟩ | ⟨-, hstart⟩
  · rw [hstart]
    exact .inl ⟨hempty, _, rfl⟩
  · rw [hstart]
    exact .inr ⟨_, rfl⟩

-- A save that finds none other under way comes to an end.
theorem saveThrough_ends (hfree : service.turnstile.saving = false) (now : Nat)
    (first second : Meanwhile) :
    ∃ after result, service.saveThrough now first second = (after, .finished result) ∧
      SaveEnds (Plan.against service.layout service.backend.store service.ledger.saved)
        service.backend.store (IsAnswered first (service.beginSave now).2)
        (IsAnswered second (wake first (service.beginSave now)).2) after.backend.store result := by
  unfold saveThrough
  rcases service.beginSave_of_free hfree now with ⟨hempty, turnstile, hbegun⟩ | ⟨turnstile, hbegun⟩
  · rw [hbegun, hempty]
    exact ⟨_, _, rfl, .done _ rfl rfl⟩
  · rw [hbegun]
    rcases wake_reading { service with backend := service.backend.countRead, turnstile }
        service.ledger.saved (service.wait now (service.deadline now)) first with
      ⟨after, result, hread, hends⟩ | ⟨after, writeWait, hread, hbad, hafter⟩
    · rw [hread]
      exact ⟨after, result, rfl, hends _⟩
    · rw [hread]
      obtain ⟨final, result, hwrite, hends⟩ := after.wake_writing _ writeWait second
      refine ⟨final, result, hwrite, ?_⟩
      rcases hends with ⟨hanswered, hstatus, hfinal⟩ | ⟨hstatus, hfinal⟩
      · rw [hfinal, hafter]
        exact .unwritten result hbad hanswered hstatus
      · rw [hfinal, hafter]
        exact .done result hbad hstatus

theorem saveThrough_succeeds (hfree : service.turnstile.saving = false) (now : Nat)
    (first second : Meanwhile) (hread : IsAnswered first (service.beginSave now).2)
    (hwrite : IsAnswered second (wake first (service.beginSave now)).2)
    (hbad : (Plan.against service.layout service.backend.store service.ledger.saved).badKeys = []) :
    ∃ after result, service.saveThrough now first second = (after, .finished result) ∧
      result.status = .success ∧ after.backend.store = service.backend.store.applyAll
        (Plan.against service.layout service.backend.store service.ledger.saved).commands := by
  obtain ⟨after, result, hrun, hends⟩ := service.saveThrough_ends hfree now first second
  refine ⟨after, result, hrun, ?_⟩
  generalize after.backend.store = final at hends ⊢
  cases hends with
  | unread _ hunread => exact absurd hread hunread
  | refused _ hrefused => exact absurd hbad hrefused
  | unwritten _ _ hunwritten => exact absurd hwrite hunwritten
  | done _ _ hstatus => exact ⟨hstatus, rfl⟩

end Run

section Undisturbed

-- What a save finds if nothing happens meanwhile.
def still (service : Service) : Meanwhile :=
  ⟨service.ledger, service.backend.unavailable, service.backend.latency⟩

variable {service : Service} {progress : Service × SaveProgress} {meanwhile : Meanwhile}

theorem still_continueSave (service : Service) (now deadline : Nat) (next : Save.Next) :
    (service.continueSave now deadline next).1.still = service.still := by
  cases next with
  | done result => rfl
  | waiting save => cases save <;> rfl

theorem still_beginSave (service : Service) (now : Nat) :
    (service.beginSave now).1.still = service.still := by
  unfold beginSave
  split
  next => rfl
  next => exact still_continueSave _ _ _ _

theorem still_resumeSave (service : Service) (save : Save) (wait : Wait) :
    (service.resumeSave save wait).1.still = service.still := by
  unfold resumeSave
  split
  next => rfl
  next =>
    have hcomes := Save.comes_next service.layout service.backend save
    generalize save.next service.layout service.backend = next at hcomes
    cases hcomes <;> exact still_continueSave _ _ _ _

theorem wake_of_still {save : Save} {wait : Wait} (h : service.still = meanwhile) :
    wake meanwhile (service, .waiting save wait) = service.resumeSave save wait := by
  subst h
  rfl

theorem still_wake (h : progress.1.still = meanwhile) :
    (wake meanwhile progress).1.still = meanwhile := by
  obtain ⟨service, skipped | result | ⟨save, wait⟩⟩ := progress
  · exact h
  · exact h
  · rw [wake_of_still h, still_resumeSave]
    exact h

theorem finishSave_succ (calls : Nat) (h : progress.1.still = meanwhile) :
    finishSave (calls + 1) progress = finishSave calls (wake meanwhile progress) := by
  obtain ⟨service, skipped | result | ⟨save, wait⟩⟩ := progress
  · cases calls <;> rfl
  · cases calls <;> rfl
  · rw [wake_of_still h, finishSave]

-- The save with nothing else going on is the one that finds everything as it was.
theorem save_eq_finishSave (service : Service) :
    service.save = finishSave 0 (service.saveThrough 0 service.still service.still) := by
  have hbegun := service.still_beginSave 0
  rw [save, finishSave_succ 1 hbegun, finishSave_succ 0 (still_wake hbegun)]
  rfl

end Undisturbed

end Service

namespace Store

variable (layout : Layout)

-- What is stored for the key must not be overwritten: it is no record or one of a later version.
def Forbids (store : Store) (key : Key) (account : Account) : Prop :=
  ∃ text, store.value? (layout.valueKey key.text) = some text ∧
    ∀ value stored, Plan.readStored text = some (value, stored) → account.version < stored.version

-- The accounts are stored as they are now, no account has gone back to an earlier version, and
-- what does not belong to the accounts is as it was.
structure HasSaved (before : Store) (entries : List (Key × Account)) (after : Store) : Prop where
  value : ∀ key account, (key, account) ∈ entries → ∃ text,
    after.value? (layout.valueKey key.text) = some text ∧ Json.parse? text = some account.value
  version : ∀ key old, before.record? layout key = some old →
    ∃ new, after.record? layout key = some new ∧ old.version ≤ new.version
  other : ∀ name, (∀ entry ∈ entries, name ≠ layout.valueKey entry.1.text) →
    after.value? name = before.value? name
  members : ∀ set member,
    (∀ entry ∈ entries,
      ¬((set = layout.activeSet ∨ set = layout.archiveSet) ∧ member = entry.1.text)) →
    (member ∈ after.members set ↔ member ∈ before.members set)

end Store

namespace Plan

variable {layout : Layout} {store : Store} {entries : List (Key × Account)}

theorem mem_badKeys_against_iff (key : Key) :
    key ∈ (against layout store entries).badKeys ↔
      ∃ account, (key, account) ∈ entries ∧ store.Forbids layout key account := by
  rw [badKeys_against, List.mem_map]
  constructor
  · rintro ⟨⟨_, account⟩, hmem, rfl⟩
    rw [List.mem_filter, forbids_iff] at hmem
    exact ⟨account, hmem⟩
  · rintro ⟨account, hmem, hforbids⟩
    exact ⟨(key, account), List.mem_filter.mpr ⟨hmem, (forbids_iff account _).mpr hforbids⟩, rfl⟩

theorem hasSaved_against (hnodup : (entries.map (·.1)).Nodup)
    (hbad : (against layout store entries).badKeys = []) :
    store.HasSaved layout entries (store.applyAll (against layout store entries).commands) where
  value key account hmem := by
    obtain ⟨text, htext, hread⟩ := readStored_against layout store hnodup hbad hmem
    obtain ⟨json, hparse, hdecoded⟩ := Option.bind_eq_some_iff.mp hread
    obtain ⟨stored, -, hpair⟩ := Option.bind_eq_some_iff.mp hdecoded
    cases hpair
    exact ⟨text, htext, hparse⟩
  version key old hold := by
    by_cases hentry : ∃ account, (key, account) ∈ entries
    · obtain ⟨account, hmem⟩ := hentry
      refine ⟨_, record?_against layout store hnodup hbad hmem, ?_⟩
      obtain ⟨text, htext, hstored⟩ := Option.bind_eq_some_iff.mp hold
      obtain ⟨⟨value, _⟩, hread, rfl⟩ := Option.map_eq_some_iff.mp hstored
      by_contra hversion
      have hforbids : store.Forbids layout key account := by
        refine ⟨text, htext, fun json stored hstored => ?_⟩
        rw [hread] at hstored
        cases hstored
        exact UInt64.not_le.mp hversion
      have hmember := (mem_badKeys_against_iff key).mpr ⟨account, hmem, hforbids⟩
      rw [hbad] at hmember
      cases hmember
    · refine ⟨old, ?_, UInt64.le_refl _⟩
      rw [Store.record?, value?_against_of_notEntry layout store store (not_exists.mp hentry)]
      exact hold
  other name hname := value?_against_of_notMem layout store store hname
  members set member hmember := mem_members_against layout store store hmember

end Plan

namespace Service

-- A save writes all of its accounts or none. Nothing else decides on that, if the store answers,
-- than whether what is stored forbids one of them.
theorem save_all_or_nothing {service : Service} (hfree : service.turnstile.saving = false)
    (now : Nat) (first second : Meanwhile) :
    ∃ after result, service.saveThrough now first second = (after, .finished result) ∧
      (result.status ≠ .success → after.backend.store = service.backend.store) ∧
      (IsAnswered first (service.beginSave now).2 →
        (result.status = .dataInconsistency ↔ ∃ key account,
          (key, account) ∈ service.ledger.saved ∧
            service.backend.store.Forbids service.layout key account)) ∧
      (result.status = .dataInconsistency → ∃ bad : List Key,
        result.info = SaveResult.keyList (bad.map (·.text)) ∧
          bad.Pairwise (fun a b => compare a b = .lt) ∧
          ∀ key, key ∈ bad ↔ ∃ account, (key, account) ∈ service.ledger.saved ∧
            service.backend.store.Forbids service.layout key account) ∧
      (IsAnswered first (service.beginSave now).2 →
        IsAnswered second (wake first (service.beginSave now)).2 →
          result.status ≠ .dataInconsistency → result.status = .success) ∧
      (result.status = .success → service.backend.store.HasSaved service.layout
        service.ledger.saved after.backend.store) := by
  obtain ⟨after, result, hrun, hends⟩ := service.saveThrough_ends hfree now first second
  refine ⟨after, result, hrun, ?_⟩
  have hforbidden : (Plan.against service.layout service.backend.store
      service.ledger.saved).badKeys = [] ↔ ¬∃ key account, (key, account) ∈ service.ledger.saved ∧
        service.backend.store.Forbids service.layout key account := by
    simp only [List.eq_nil_iff_forall_not_mem, Plan.mem_badKeys_against_iff, not_exists]
  have hascending : (Plan.against service.layout service.backend.store
      service.ledger.saved).badKeys.Pairwise (fun a b => compare a b = .lt) := by
    rw [Plan.badKeys_against, List.pairwise_map]
    exact (service.ledger.accounts.ascending_entries.filter _).filter _
  have hsaved (hbad : (Plan.against service.layout service.backend.store
      service.ledger.saved).badKeys = []) :=
    Plan.hasSaved_against service.ledger.nodup_saved hbad
  generalize after.backend.store = final at hends ⊢
  cases hends with
  | unread _ hread hstatus =>
      refine ⟨fun _ => rfl, fun hanswered => absurd hanswered hread, ?_,
        fun hanswered => absurd hanswered hread, ?_⟩ <;> rw [hstatus] <;> nofun
  | refused _ hbad hstatus hinfo =>
      have hthere := not_not.mp (mt hforbidden.mpr hbad)
      refine ⟨fun _ => rfl, fun _ => ⟨fun _ => hthere, fun _ => hstatus⟩,
        fun _ => ⟨_, hinfo, hascending, Plan.mem_badKeys_against_iff⟩,
        fun _ _ hother => absurd hstatus hother, ?_⟩
      rw [hstatus]
      nofun
  | unwritten _ hbad hwrite hstatus =>
      have hnone := hforbidden.mp hbad
      refine ⟨fun _ => rfl, fun _ => ?_, ?_, fun _ hanswered => absurd hanswered hwrite, ?_⟩
      · rw [hstatus]
        exact ⟨nofun, fun hthere => absurd hthere hnone⟩
      · rw [hstatus]
        nofun
      · rw [hstatus]
        nofun
  | done _ hbad hstatus =>
      have hnone := hforbidden.mp hbad
      refine ⟨fun hother => absurd hstatus hother, fun _ => ?_, ?_, fun _ _ _ => hstatus,
        fun _ => hsaved hbad⟩
      · rw [hstatus]
        exact ⟨nofun, fun hthere => absurd hthere hnone⟩
      · rw [hstatus]
        nofun

-- Two new accounts, and a text that is no record where the second one belongs.
def blocked : Service where
  settings := .default
  ledger := ((Ledger.empty.create ⟨"a"⟩ .budget).1.create ⟨"b"⟩ .budget).1
  backend := { Backend.empty with store := Store.empty.setValue "banker-b" "?" }
  turnstile := .free

-- The first account is not written either.
theorem save_all_or_nothing_blocked :
    ∃ after result, blocked.saveThrough 0 blocked.still blocked.still = (after, .finished result) ∧
      result.status = .dataInconsistency ∧ after.backend.store = blocked.backend.store := by
  obtain ⟨after, result, hrun, hkept, hrefused, -⟩ :=
    @save_all_or_nothing blocked rfl 0 blocked.still blocked.still
  have hanswered : IsAnswered blocked.still (blocked.beginSave 0).2 := by decide +kernel
  have hlive : blocked.ledger.get? ⟨"b"⟩ = some (.new ⟨"b"⟩ .budget) := by decide +kernel
  have htext : blocked.backend.store.value? (blocked.layout.valueKey "b") = some "?" := by
    decide +kernel
  have hunreadable : Plan.readStored "?" = none := by decide +kernel
  have hstatus : result.status = .dataInconsistency := by
    refine (hrefused hanswered).mpr ⟨⟨"b"⟩, .new ⟨"b"⟩ .budget, ?_, "?", htext, ?_⟩
    · exact (blocked.ledger.mem_saved_iff _ _).mpr ⟨hlive, rfl⟩
    · rw [hunreadable]
      nofun
  exact ⟨after, result, hrun, hstatus, hkept (by rw [hstatus]; nofun)⟩

end Service

end ShardedLedger
