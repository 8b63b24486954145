import ShardedLedger.Proofs.Ledger.Codec
import ShardedLedger.Proofs.Persistence.Saving

namespace ShardedLedger

namespace Plan

variable {layout : Layout} {store : Store} {entries : List (Key × Account)}

-- Nothing is to be done for an account that is stored as it is: neither its value nor its status
-- is another one.
theorem forAccount_of_readStored {key : Key} {account : Account} {text : String}
    (hread : readStored text = some (account.value, account.asRecorded)) :
    forAccount layout key account (some text) = empty := by
  have hversion : account.isSameOrPast account.asRecorded = true :=
    decide_eq_true (UInt64.le_refl account.version)
  have hvalue : (account.value == account.value) = true :=
    (Json.beq_iff_eq_of_readable account.readable_value _).mpr rfl
  have hstatus : account.asRecorded.status = account.status := rfl
  simp only [forAccount, hread, hversion, ite_true, update, hvalue, hstatus]
  cases account.status <;> rfl

theorem against_of_readStored
    (hstored : ∀ key account, (key, account) ∈ entries → ∃ text,
      store.value? (layout.valueKey key.text) = some text ∧
        readStored text = some (account.value, account.asRecorded)) :
    against layout store entries = empty := by
  induction entries with
  | nil => rfl
  | cons entry entries ih =>
      obtain ⟨key, account⟩ := entry
      obtain ⟨text, htext, hread⟩ := hstored key account List.mem_cons_self
      rw [against_cons, htext, forAccount_of_readStored hread,
        ih fun other found hmem => hstored other found (List.mem_cons_of_mem _ hmem)]
      rfl

-- Once its commands have been applied, what a plan was made for needs no other one.
theorem against_applyAll_against (hnodup : (entries.map (·.1)).Nodup)
    (hbad : (against layout store entries).badKeys = []) :
    against layout (store.applyAll (against layout store entries).commands) entries = empty :=
  against_of_readStored fun _ _ hmem => readStored_against layout store hnodup hbad hmem

end Plan

namespace Service

-- A save that finds every account stored as it is.
structure IsUpToDate (service : Service) : Prop where
  free : service.turnstile.saving = false
  plan : Plan.against service.layout service.backend.store service.ledger.saved = .empty

-- What comes of a save that has nothing to write.
structure ChangesNothing (service after : Service) (result : SaveResult) : Prop where
  status : result.status = .success
  info : result.info = ""
  store : after.backend.store = service.backend.store
  commits : after.backend.commits = service.backend.commits

section Success

variable {service after : Service} {result : SaveResult} {now : Nat} {first second : Meanwhile}

-- A save that has come to an end found no other under way.
theorem saving_eq_false_of_saveThrough
    (hsave : service.saveThrough now first second = (after, .finished result)) :
    service.turnstile.saving = false := by
  by_contra hbusy
  rw [Bool.not_eq_false] at hbusy
  have hskipped : service.beginSave now = (service, .skipped) := by
    simp [beginSave, Turnstile.tryEnter, hbusy]
  rw [saveThrough, hskipped] at hsave
  cases hsave

-- After a successful save there is nothing left to write.
theorem isUpToDate_of_saveThrough
    (hsave : service.saveThrough now first second = (after, .finished result))
    (hstatus : result.status = .success) {next : Service} (hlayout : next.layout = service.layout)
    (hledger : next.ledger = service.ledger) (hstore : next.backend.store = after.backend.store)
    (hreleased : next.turnstile.saving = false) : next.IsUpToDate := by
  refine ⟨hreleased, ?_⟩
  rw [hlayout, hledger, hstore]
  have hfree := saving_eq_false_of_saveThrough hsave
  obtain ⟨_, _, hrun, hends⟩ := service.saveThrough_ends hfree now first second
  rw [hsave] at hrun
  cases hrun
  generalize after.backend.store = final at hends ⊢
  cases hends with
  | unread _ _ hfailed =>
      rw [hfailed] at hstatus
      cases hstatus
  | refused _ _ hfailed =>
      rw [hfailed] at hstatus
      cases hstatus
  | unwritten _ _ _ hfailed =>
      rw [hfailed] at hstatus
      cases hstatus
  | done _ hbad => exact Plan.against_applyAll_against service.ledger.nodup_saved hbad

end Success

section UpToDate

variable {service : Service}

theorem wake_reading_of_against_eq_empty (service : Service) {entries : List (Key × Account)}
    {wait : Wait} {meanwhile : Meanwhile}
    (hplan : Plan.against service.layout service.backend.store entries = .empty)
    (hread : IsAnswered meanwhile (.waiting (.reading entries) wait)) :
    wake meanwhile (service, .waiting (.reading entries) wait) =
      (service.amid meanwhile).endSave (Save.compared .success) := by
  have hcomes := @Save.Comes.upToDate service.layout (service.amid meanwhile).backend entries
    hread.1 (congrArg Plan.badKeys hplan) (congrArg Plan.commands hplan)
  rw [service.wake_of_isAnswered hread, hcomes.next_eq]
  rfl

theorem IsUpToDate.saveThrough (h : service.IsUpToDate) (now : Nat) (first second : Meanwhile)
    (hread : IsAnswered first (service.beginSave now).2) :
    ∃ after result, service.saveThrough now first second = (after, .finished result) ∧
      service.ChangesNothing after result := by
  unfold Service.saveThrough
  rcases service.beginSave_of_free h.free now with ⟨-, turnstile, hbegun⟩ | ⟨turnstile, hbegun⟩
  · rw [hbegun]
    exact ⟨_, _, rfl, rfl, rfl, rfl, rfl⟩
  · rw [hbegun] at hread ⊢
    rw [wake_reading_of_against_eq_empty
      { service with backend := service.backend.countRead, turnstile } h.plan hread]
    exact ⟨_, _, rfl, rfl, rfl, rfl, rfl⟩

end UpToDate

section Undisturbed

variable {service after : Service} {result : SaveResult} {progress : Service × SaveProgress}

-- What holds of a service whatever its save has come to.
structure Proceeds (service : Service) (progress : Service × SaveProgress) : Prop where
  settings : progress.1.settings = service.settings
  free : ∀ result, progress.2 = .finished result → progress.1.turnstile.saving = false

theorem proceeds_continueSave (begun : Service) (hsettings : begun.settings = service.settings)
    (now deadline : Nat) (next : Save.Next) :
    service.Proceeds (begun.continueSave now deadline next) := by
  cases next with
  | done result => exact ⟨hsettings, fun _ _ => rfl⟩
  | waiting save => exact ⟨hsettings, nofun⟩

theorem proceeds_beginSave (service : Service) (now : Nat) :
    service.Proceeds (service.beginSave now) := by
  unfold beginSave
  split
  next => exact ⟨rfl, nofun⟩
  next =>
    refine proceeds_continueSave _ ?_ _ _ _
    rfl

theorem Proceeds.wake (h : service.Proceeds progress) (meanwhile : Meanwhile) :
    service.Proceeds (wake meanwhile progress) := by
  obtain ⟨begun, skipped | result | ⟨save, wait⟩⟩ := progress
  · exact h
  · exact h
  · unfold Service.wake resumeSave
    dsimp only
    split
    next => exact ⟨h.settings, fun _ _ => rfl⟩
    next =>
      refine proceeds_continueSave _ ?_ _ _ _
      exact h.settings

theorem saveThrough_of_save (hsave : service.save = (after, some result)) :
    service.saveThrough 0 service.still service.still = (after, .finished result) := by
  rw [save_eq_finishSave] at hsave
  rcases hrun : service.saveThrough 0 service.still service.still with
    ⟨ended, skipped | found | ⟨save, wait⟩⟩ <;> rw [hrun] at hsave <;> cases hsave
  rfl

theorem layout_eq_of_settings_eq (h : after.settings = service.settings) :
    after.layout = service.layout := by
  rw [layout, h, layout]

-- A save that nothing disturbs leaves the service as the next one needs it.
theorem unchanged_of_save (hsave : service.save = (after, some result)) :
    after.settings = service.settings ∧ after.turnstile.saving = false ∧
      after.still = service.still := by
  have hproceeds := ((service.proceeds_beginSave 0).wake service.still).wake service.still
  have hstill := still_wake (still_wake (service.still_beginSave 0))
  rw [← saveThrough, saveThrough_of_save hsave] at hproceeds hstill
  exact ⟨hproceeds.settings, hproceeds.free result rfl, hstill⟩

-- Without an answer to its first question a save fails.
theorem isAnswered_of_saveThrough {now : Nat} {first second : Meanwhile}
    (hsave : service.saveThrough now first second = (after, .finished result))
    (hstatus : result.status = .success) : IsAnswered first (service.beginSave now).2 := by
  have hfree := saving_eq_false_of_saveThrough hsave
  rcases service.beginSave_of_free hfree now with ⟨-, turnstile, hbegun⟩ | ⟨turnstile, hbegun⟩
  · rw [hbegun]
    trivial
  · by_contra hread
    rw [hbegun] at hread
    obtain ⟨ended, failed, hwake, hfailed, -⟩ := wake_of_not_isAnswered
      { service with backend := service.backend.countRead, turnstile } hread
    rw [saveThrough, hbegun, hwake] at hsave
    cases hsave
    rw [hfailed] at hstatus
    cases hstatus

-- The next save waits for the same question for as long.
theorem beginSave_snd_eq (hfree : service.turnstile.saving = false)
    (hreleased : after.turnstile.saving = false) (hsettings : after.settings = service.settings)
    (hstill : after.still = service.still) : (after.beginSave 0).2 = (service.beginSave 0).2 := by
  have hledger : after.ledger = service.ledger := congrArg Meanwhile.ledger hstill
  have hlatency : after.backend.latency = service.backend.latency :=
    congrArg Meanwhile.latency hstill
  simp only [beginSave, Turnstile.tryEnter, hfree, hreleased, Bool.false_eq_true, ite_false,
    hledger]
  cases Save.start service.ledger with
  | done result => rfl
  | waiting save =>
      simp only [continueSave, Service.wait, deadline, Backend.delay, hsettings, hlatency]

-- What a save has written with success need not be written again. Another save of the same ledger
-- asks for the stored values and ends, also the save of another service with the same names.
theorem saving_again_writes_nothing (service : Service) :
    (∀ after result, service.save = (after, some result) → result.status = .success →
      after.ledger = service.ledger ∧ after.IsUpToDate ∧
        ∃ final again, after.save = (final, some again) ∧ after.ChangesNothing final again) ∧
      ∀ now first second after result,
        service.saveThrough now first second = (after, .finished result) →
          result.status = .success → ∀ next : Service, next.layout = service.layout →
            next.ledger = service.ledger → next.backend.store = after.backend.store →
              next.turnstile.saving = false → next.IsUpToDate ∧
                ∀ later third fourth, IsAnswered third (next.beginSave later).2 →
                  ∃ final again,
                    next.saveThrough later third fourth = (final, .finished again) ∧
                      next.ChangesNothing final again := by
  constructor
  · intro after result hsave hstatus
    have hrun := saveThrough_of_save hsave
    obtain ⟨hsettings, hreleased, hstill⟩ := unchanged_of_save hsave
    have hledger : after.ledger = service.ledger := congrArg Meanwhile.ledger hstill
    have hnext : after.IsUpToDate :=
      isUpToDate_of_saveThrough hrun hstatus (layout_eq_of_settings_eq hsettings) hledger rfl
        hreleased
    have hread : IsAnswered after.still (after.beginSave 0).2 := by
      rw [beginSave_snd_eq (saving_eq_false_of_saveThrough hrun) hreleased hsettings hstill, hstill]
      exact isAnswered_of_saveThrough hrun hstatus
    obtain ⟨final, again, hagain, hnothing⟩ := hnext.saveThrough 0 after.still after.still hread
    refine ⟨hledger, hnext, final, again, ?_, hnothing⟩
    rw [save_eq_finishSave, hagain]
    rfl
  · intro now first second after result hsave hstatus next hlayout hledger hstore hfree
    have hnext := isUpToDate_of_saveThrough hsave hstatus hlayout hledger hstore hfree
    exact ⟨hnext, fun later third fourth hread => hnext.saveThrough later third fourth hread⟩

-- A store that answers in time for a load answers both questions of a save.
theorem isAnswered_of_isPrompt (hprompt : service.IsPrompt)
    (hfree : service.turnstile.saving = false) :
    IsAnswered service.still (service.beginSave 0).2 ∧
      IsAnswered service.still (wake service.still (service.beginSave 0)).2 := by
  obtain ⟨hup, htime⟩ := hprompt
  rcases service.beginSave_of_free hfree 0 with ⟨-, turnstile, hbegun⟩ | ⟨turnstile, hbegun⟩
  · rw [hbegun]
    exact ⟨trivial, trivial⟩
  · have hread : (service.wait 0 (service.deadline 0)).isInVain = false := by
      refine decide_eq_false (Nat.not_lt.mpr ?_)
      simp only [Service.wait, deadline]
      omega
    have hwrite : Wait.isInVain ⟨0 + service.backend.delay + service.backend.delay,
        service.deadline 0⟩ = false := by
      refine decide_eq_false (Nat.not_lt.mpr ?_)
      simp only [deadline]
      omega
    have hcomes := Save.comes_next service.layout service.backend.countRead
      (.reading service.ledger.saved)
    have hwake : wake service.still
        ({ service with backend := service.backend.countRead, turnstile },
          .waiting (.reading service.ledger.saved) (service.wait 0 (service.deadline 0))) =
        continueSave { service with
            backend := ((Save.reading service.ledger.saved).next service.layout
              service.backend.countRead).1
            turnstile }
          (0 + service.backend.delay) (service.deadline 0)
          ((Save.reading service.ledger.saved).next service.layout service.backend.countRead).2 :=
      wake_of_isAnswered { service with backend := service.backend.countRead, turnstile }
        (show IsAnswered service.still _ from ⟨hup, hread⟩)
    rw [hbegun, hwake]
    refine ⟨⟨hup, hread⟩, ?_⟩
    generalize (Save.reading service.ledger.saved).next _ _ = next at hcomes
    cases hcomes with
    | planned => exact ⟨hup, hwrite⟩
    | _ => trivial

theorem save_of_isPrompt (hprompt : service.IsPrompt) (hfree : service.turnstile.saving = false)
    (hbad : (Plan.against service.layout service.backend.store service.ledger.saved).badKeys = []) :
    ∃ after result, service.save = (after, some result) ∧ result.status = .success ∧
      after.backend.store = service.backend.store.applyAll
        (Plan.against service.layout service.backend.store service.ledger.saved).commands := by
  obtain ⟨hread, hwrite⟩ := isAnswered_of_isPrompt hprompt hfree
  obtain ⟨after, result, hrun, hstatus, hstore⟩ :=
    service.saveThrough_succeeds hfree 0 service.still service.still hread hwrite hbad
  refine ⟨after, result, ?_, hstatus, hstore⟩
  rw [save_eq_finishSave, hrun]
  rfl

-- An open account that is stored closed, in the same version. The stored record is one that was
-- served, so its members stand in another order.
def oddlyStored : Service where
  settings := .default
  ledger := (Ledger.empty.create ⟨"a"⟩ .budget).1
  backend := { Backend.empty with
    store := (Store.empty.setValue "banker-a" (Account.placeholder ⟨"a"⟩).text).addMember
      "banker:archive" "a" }
  turnstile := .free

theorem against_oddlyStored :
    Plan.against oddlyStored.layout oddlyStored.backend.store oddlyStored.ledger.saved =
      ⟨[.set "banker-a" (Account.new ⟨"a"⟩ .budget).storedText,
        .move "banker:archive" "banker:accounts" "a"], [], []⟩ := by
  have hsaved : oddlyStored.ledger.saved = [(⟨"a"⟩, .new ⟨"a"⟩ .budget)] := by decide +kernel
  have htext : oddlyStored.backend.store.value? (oddlyStored.layout.valueKey "a") =
      some (Account.placeholder ⟨"a"⟩).text := by decide +kernel
  rw [hsaved, Plan.against_cons, htext, Plan.forAccount, Account.readStored_text]
  decide +kernel

theorem badKeys_oddlyStored : (Plan.against oddlyStored.layout oddlyStored.backend.store
    oddlyStored.ledger.saved).badKeys = [] := by
  rw [against_oddlyStored]

-- The first save writes the account and takes it out of the archive. The second one finds it so.
theorem saving_again_writes_nothing_oddly_stored :
    ∃ after result final again, oddlyStored.save = (after, some result) ∧
      result.status = .success ∧ after.backend.store ≠ oddlyStored.backend.store ∧
      after.save = (final, some again) ∧ again.status = .success ∧ again.info = "" ∧
      final.backend.store = after.backend.store ∧
      final.backend.commits = after.backend.commits ∧
      Plan.against oddlyStored.layout after.backend.store oddlyStored.ledger.saved = .empty := by
  obtain ⟨hundisturbed, hothers⟩ := saving_again_writes_nothing oddlyStored
  obtain ⟨after, result, hsave, hstatus, hstore⟩ :=
    @save_of_isPrompt oddlyStored ⟨rfl, Nat.zero_le _⟩ rfl badKeys_oddlyStored
  have hwritten : after.backend.store ≠ oddlyStored.backend.store := by
    rw [hstore, against_oddlyStored]
    decide +kernel
  obtain ⟨-, -, final, again, hagain, hnothing⟩ := hundisturbed after result hsave hstatus
  have hplan := (hothers 0 _ _ after result (saveThrough_of_save hsave) hstatus
    { oddlyStored with backend := after.backend } rfl rfl rfl rfl).1.plan
  exact ⟨after, result, final, again, hsave, hstatus, hwritten, hagain, hnothing.status,
    hnothing.info, hnothing.store, hnothing.commits, hplan⟩

end Undisturbed

end Service

end ShardedLedger
