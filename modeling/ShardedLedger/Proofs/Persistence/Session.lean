import ShardedLedger.Proofs.Persistence.Save

namespace ShardedLedger

-- A service with the save that it has under way, if any.
structure Session where
  service : Service
  save : Option Save

-- What can be seen of a step: an operation and the result of a save or a load.
inductive Event where
  | quiet
  | operated (operation : Ledger.Operation)
  | saved (result : SaveResult)
  | loaded (result : SaveResult)

namespace Event

def IsLoaded : Event → Prop
  | .loaded result => result.status = .success
  | _ => False

def IsSaved : Event → Prop
  | .saved result => result.status = .success
  | _ => False

instance : (seen : Event) → Decidable seen.IsSaved
  | .saved _ => inferInstanceAs (Decidable (_ = _))
  | .quiet => .isFalse id
  | .operated _ => .isFalse id
  | .loaded _ => .isFalse id

end Event

namespace Session

def start (settings : ServiceSettings) (backend : Backend) : Session :=
  ⟨.new settings backend, none⟩

-- A save that comes to nothing at once leaves the one alone that it found under way.
def proceed (save : Option Save) : Service × Service.SaveProgress → Session
  | (service, .skipped) => ⟨service, save⟩
  | (service, .finished _) => ⟨service, none⟩
  | (service, .waiting save _) => ⟨service, some save⟩

def event : Service.SaveProgress → Event
  | .finished result => .saved result
  | _ => .quiet

def perform (session : Session) (operation : Ledger.Operation) : Session :=
  { session with
    service := { session.service with ledger := (operation.apply session.service.ledger).1 } }

def beginSave (session : Session) (now : Nat) : Session :=
  proceed session.save (session.service.beginSave now)

def resumeSave (session : Session) (save : Save) (wait : Wait) : Session :=
  proceed session.save (session.service.resumeSave save wait)

-- The steps of a service by itself, in any order. A save may be woken at any time, before or
-- behind its deadline, dropped while it waits, and find a store that does not answer.
inductive Step : Session → Event → Session → Prop where
  | operate (session : Session) (operation : Ledger.Operation) :
      Step session (.operated operation) (session.perform operation)
  | trigger (session : Session) (now : Nat) :
      Step session (event (session.service.beginSave now).2) (session.beginSave now)
  | wake (session : Session) (save : Save) (wait : Wait) (hsave : session.save = some save) :
      Step session (event (session.service.resumeSave save wait).2) (session.resumeSave save wait)
  | cancel (session : Session) : Step session .quiet ⟨session.service.dropSave, none⟩
  | disturb (session : Session) (unavailable : Bool) (latency : Option Nat) :
      Step session .quiet { session with
        service := { session.service with
          backend := { session.service.backend with unavailable, latency } } }
  | restart (session : Session) :
      Step session (.loaded session.service.restart.load.2) ⟨session.service.restart.load.1, none⟩

-- What decides on a session's future, apart from failures and times.
structure Core where
  layout : Layout
  ledger : Ledger
  store : Store
  save : Option Save

def core (session : Session) : Core :=
  ⟨session.service.layout, session.service.ledger, session.service.backend.store, session.save⟩

namespace Core

-- The same steps, each with what it comes to.
inductive Step (core : Core) : Event → Core → Prop where
  | idle : Step core .quiet core
  | operated (operation : Ledger.Operation) :
      Step core (.operated operation) { core with ledger := (operation.apply core.ledger).1 }
  | began (hidle : core.save = none) :
      Step core .quiet { core with save := some (.reading core.ledger.saved) }
  | unneeded (result : SaveResult) (hidle : core.save = none) (hsaved : core.ledger.saved = [])
      (hstatus : result.status = .success) : Step core (.saved result) core
  | dropped : Step core .quiet { core with save := none }
  | failed (save : Save) (result : SaveResult) (hsave : core.save = some save)
      (hstatus : result.status = .persistenceError) :
      Step core (.saved result) { core with save := none }
  | refused (entries : List (Key × Account)) (result : SaveResult)
      (hsave : core.save = some (.reading entries))
      (hbad : (Plan.against core.layout core.store entries).badKeys ≠ [])
      (hstatus : result.status = .dataInconsistency) :
      Step core (.saved result) { core with save := none }
  | upToDate (entries : List (Key × Account)) (result : SaveResult)
      (hsave : core.save = some (.reading entries))
      (hbad : (Plan.against core.layout core.store entries).badKeys = [])
      (hcommands : (Plan.against core.layout core.store entries).commands = [])
      (hstatus : result.status = .success) : Step core (.saved result) { core with save := none }
  | planned (entries : List (Key × Account)) (hsave : core.save = some (.reading entries))
      (hbad : (Plan.against core.layout core.store entries).badKeys = []) :
      Step core .quiet
        { core with save := some (.writing (Plan.against core.layout core.store entries)) }
  | committed (plan : Plan) (result : SaveResult) (hsave : core.save = some (.writing plan))
      (hstatus : result.status = .success) :
      Step core (.saved result)
        { core with store := core.store.applyAll plan.commands, save := none }
  | unreached (result : SaveResult) (hstatus : result.status = .persistenceError) :
      Step core (.loaded result) { core with ledger := .empty, save := none }
  | loadRefused (result : SaveResult)
      (houtcome : Load.outcome core.layout core.store = .error result) :
      Step core (.loaded (result.record Latency.total)) { core with ledger := .empty, save := none }
  | loaded (ledger : Ledger) (houtcome : Load.outcome core.layout core.store = .ok ledger) :
      Step core (.loaded (SaveResult.success.record Latency.total))
        { core with ledger, save := none }

section Inversion

variable {core after : Core} {seen : Event}

theorem Step.layout_eq (hstep : core.Step seen after) : after.layout = core.layout := by
  cases hstep <;> rfl

-- A save goes on as it is, ends, begins with the ledger or plans its transaction.
theorem Step.save_cases (hstep : core.Step seen after) :
    after.save = core.save ∨ after.save = none ∨
      after.save = some (.reading core.ledger.saved) ∨
      ∃ entries, core.save = some (.reading entries) ∧
        (Plan.against core.layout core.store entries).badKeys = [] ∧
        after.save = some (.writing (Plan.against core.layout core.store entries)) := by
  cases hstep with
  | idle => exact .inl rfl
  | operated => exact .inl rfl
  | unneeded => exact .inl rfl
  | began => exact .inr (.inr (.inl rfl))
  | planned entries hsave hbad => exact .inr (.inr (.inr ⟨entries, hsave, hbad, rfl⟩))
  | _ => exact .inr (.inl rfl)

theorem Step.store_cases (hstep : core.Step seen after) :
    after.store = core.store ∨ seen.IsSaved ∧ ∃ plan, core.save = some (.writing plan) ∧
      after.store = core.store.applyAll plan.commands := by
  cases hstep with
  | committed plan result hsave hstatus => exact .inr ⟨hstatus, plan, hsave, rfl⟩
  | _ => exact .inl rfl

-- A save that was about to write and succeeds has written.
theorem Step.store_committed (hstep : core.Step seen after) (hsaved : seen.IsSaved) {plan : Plan}
    (hwriting : core.save = some (.writing plan)) :
    after.store = core.store.applyAll plan.commands := by
  cases hstep with
  | committed other result hsave =>
      rw [hwriting] at hsave
      cases hsave
      rfl
  | unneeded result hidle => rw [hwriting] at hidle; cases hidle
  | failed save result hsave hstatus => rw [Event.IsSaved, hstatus] at hsaved; cases hsaved
  | refused _ result hsave => rw [hwriting] at hsave; cases hsave
  | upToDate _ result hsave => rw [hwriting] at hsave; cases hsave
  | _ => exact hsaved.elim

end Inversion

section Planning

variable {core after : Core} {seen : Event} {taken : List (Key × Account) → Prop}

-- The save under way works on entries that were taken, and a transaction that waits was planned
-- on the store as it still is.
def IsPlanned (taken : List (Key × Account) → Prop) (core : Core) : Prop :=
  ∀ save, core.save = some save → ∃ entries, taken entries ∧
    match save with
    | .reading pending => pending = entries
    | .writing plan => plan = Plan.against core.layout core.store entries ∧ plan.badKeys = []

theorem isPlanned_of_save_eq_none (h : core.save = none) : core.IsPlanned taken := by
  intro save hsave
  rw [h] at hsave
  cases hsave

theorem IsPlanned.mono (h : core.IsPlanned taken) {more : List (Key × Account) → Prop}
    (hmore : ∀ entries, taken entries → more entries) : core.IsPlanned more := by
  intro save hsave
  obtain ⟨entries, htaken, hplan⟩ := h save hsave
  exact ⟨entries, hmore entries htaken, hplan⟩

-- Entries are taken only when a save begins.
theorem Step.isPlanned (hstep : core.Step seen after) (h : core.IsPlanned taken)
    (hsaved : core.save = none → taken core.ledger.saved) : after.IsPlanned taken := by
  cases hstep with
  | idle => exact h
  | operated => exact h
  | began hidle =>
      intro save hsave
      cases hsave
      exact ⟨core.ledger.saved, hsaved hidle, rfl⟩
  | unneeded => exact h
  | planned entries hsave hbad =>
      intro save hpending
      cases hpending
      obtain ⟨pending, htaken, rfl⟩ := h _ hsave
      exact ⟨entries, htaken, rfl, hbad⟩
  | _ => exact isPlanned_of_save_eq_none rfl

-- What is stored changes by the transaction for the entries taken, and by nothing else.
theorem Step.store_planned (hstep : core.Step seen after) (h : core.IsPlanned taken) :
    after.store = core.store ∨ ∃ entries, taken entries ∧
      (Plan.against core.layout core.store entries).badKeys = [] ∧
      after.store =
        core.store.applyAll (Plan.against core.layout core.store entries).commands := by
  rcases hstep.store_cases with hkept | ⟨-, plan, hsave, hstore⟩
  · exact .inl hkept
  · obtain ⟨entries, htaken, rfl, hbad⟩ := h _ hsave
    exact .inr ⟨entries, htaken, hbad, hstore⟩

end Planning

end Core

-- The turnstile is taken exactly while a save is under way.
def IsTuned (session : Session) : Prop := session.service.turnstile.saving = session.save.isSome

section Simulation

variable {session after : Session} {seen : Event}

theorem core_trigger (htuned : session.IsTuned) (now : Nat) :
    session.core.Step (event (session.service.beginSave now).2) (session.beginSave now).core := by
  obtain ⟨service, save⟩ := session
  unfold beginSave
  cases save with
  | some save =>
      have hbusy : service.turnstile.saving = true := htuned
      simp only [Service.beginSave, Turnstile.tryEnter, hbusy, ite_true, proceed, event]
      exact .idle
  | none =>
      have hfree : service.turnstile.saving = false := htuned
      simp only [Service.beginSave, Turnstile.tryEnter, hfree, Bool.false_eq_true, ite_false]
      rcases Save.start_cases service.ledger with ⟨hempty, hstart⟩ | ⟨-, hstart⟩
      · rw [hstart]
        exact .unneeded _ rfl hempty rfl
      · rw [hstart]
        exact .began rfl

theorem core_wake (save : Save) (wait : Wait) (hsave : session.save = some save) :
    session.core.Step (event (session.service.resumeSave save wait).2)
      (session.resumeSave save wait).core := by
  obtain ⟨service, _⟩ := session
  cases hsave
  unfold resumeSave Service.resumeSave
  split
  next => exact .failed _ _ rfl rfl
  next =>
    have hcomes := Save.comes_next service.layout service.backend save
    generalize save.next service.layout service.backend = next at hcomes
    cases hcomes with
    | unread => exact .failed _ _ rfl rfl
    | refused entries _ hbad => exact .refused entries _ rfl hbad rfl
    | upToDate entries _ hbad hcommands => exact .upToDate entries _ rfl hbad hcommands rfl
    | planned entries _ hbad => exact .planned entries rfl hbad
    | unwritten => exact .failed _ _ rfl rfl
    | committed plan => exact .committed plan _ rfl rfl

theorem core_restart :
    session.core.Step (.loaded session.service.restart.load.2)
      (core ⟨session.service.restart.load.1, none⟩) := by
  have hcore (backend : Backend) (ledger : Ledger)
      (hstore : backend.store = session.service.backend.store) :
      core ⟨{ session.service.restart with backend, ledger }, none⟩ =
        { session.core with ledger, save := none } :=
    congrArg (Core.mk session.service.layout ledger · none) hstore
  have hloads := session.service.restart.load_loads
  generalize session.service.restart.load = outcome at hloads
  cases hloads with
  | unreached backend result hstore hstatus =>
      exact hcore backend .empty hstore ▸ .unreached result hstatus
  | refused backend result hstore houtcome =>
      exact hcore backend .empty hstore ▸ .loadRefused result houtcome
  | filled backend ledger hstore houtcome =>
      exact hcore backend ledger hstore ▸ .loaded ledger houtcome

theorem Step.core (htuned : session.IsTuned) (hstep : Step session seen after) :
    session.core.Step seen after.core := by
  cases hstep with
  | operate operation => exact .operated operation
  | trigger now => exact core_trigger htuned now
  | wake save wait hsave => exact core_wake save wait hsave
  | cancel => exact .dropped
  | disturb unavailable latency => exact .idle
  | restart => exact core_restart

theorem isTuned_proceed_continueSave (service : Service) (now deadline : Nat) (next : Save.Next)
    (save : Option Save) (hsaving : service.turnstile.saving = true) :
    (proceed save (service.continueSave now deadline next)).IsTuned := by
  cases next with
  | done result => rfl
  | waiting save => exact hsaving

theorem Step.isTuned (htuned : session.IsTuned) (hstep : Step session seen after) :
    after.IsTuned := by
  cases hstep with
  | operate operation => exact htuned
  | trigger now =>
      unfold beginSave Service.beginSave Turnstile.tryEnter
      by_cases hbusy : session.service.turnstile.saving
      · simp only [hbusy, ite_true]
        exact htuned
      · simp only [hbusy]
        exact isTuned_proceed_continueSave _ _ _ _ _ rfl
  | wake save wait hsave =>
      have hbusy : session.service.turnstile.saving = true := by
        rw [htuned, hsave]
        rfl
      unfold resumeSave Service.resumeSave
      split
      next => rfl
      next => exact isTuned_proceed_continueSave _ _ _ _ _ hbusy
  | cancel => rfl
  | disturb unavailable latency => exact htuned
  | restart =>
      have hloads := session.service.restart.load_loads
      generalize session.service.restart.load = outcome at hloads
      cases hloads <;> rfl

end Simulation

section Runs

-- Every session that steps lead to.
inductive Run (first : Session) : Session → Prop where
  | start : Run first first
  | step {session after : Session} {seen : Event} (hrun : Run first session)
      (hstep : Step session seen after) : Run first after

variable {first session : Session}

theorem Run.trans {middle : Session} (hfirst : Run first middle) (hrun : Run middle session) :
    Run first session := by
  induction hrun with
  | start => exact hfirst
  | step _ hstep ih => exact ih.step hstep

theorem Run.isTuned (htuned : first.IsTuned) (hrun : Run first session) : session.IsTuned := by
  induction hrun with
  | start => exact htuned
  | step _ hstep ih => exact hstep.isTuned ih

-- Goes on with the save under way, if any, as soon as it has its answer.
def woken (session : Session) : Session :=
  match session.save with
  | some save => session.resumeSave save ⟨0, 0⟩
  | none => session

-- A save with nothing else going on.
def saved (session : Session) : Session := (session.beginSave 0).woken.woken

theorem Run.woken (hrun : Run first session) : Run first session.woken := by
  unfold Session.woken
  split
  next save hsave => exact hrun.step (.wake session save ⟨0, 0⟩ hsave)
  next => exact hrun

theorem Run.saved (hrun : Run first session) : Run first session.saved :=
  (hrun.step (.trigger session 0)).woken.woken

end Runs

end Session

end ShardedLedger
