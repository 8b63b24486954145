import ShardedLedger.Proofs.Persistence.Session

namespace ShardedLedger

namespace Flight

inductive Outcome where
  | finished (result : SaveResult)
  | cancelled
  deriving DecidableEq

end Flight

-- Where a trigger of a save stands between two of its atomic steps. One that is about to end
-- still knows which call it leaves off, as the phase shows it until it is reset.
inductive Flight where
  | called
  | refused
  | entered
  | taken (snapshot : Ledger)
  | begun (snapshot : Ledger)
  | waiting (save : Save)
  | planned (plan : Plan)
  | shown (plan : Plan)
  | ending (left : Option Save) (outcome : Flight.Outcome)
  | leaving (outcome : Flight.Outcome)
  | ended (outcome : Flight.Outcome)

namespace Flight

-- From the exchange that sets the flag to the write that clears it.
def isUnderWay : Flight → Bool
  | .called | .refused | .ended _ => false
  | _ => true

-- What the phase shows meanwhile.
def phase : Flight → SavePhase
  | .begun _ | .planned _ => .inPhase1
  | .shown _ => .inPhase2
  | .waiting save => save.phase
  | .ending left _ => (left.map Save.phase).getD .inPhase1
  | _ => .idle

-- The turnstile while it and nobody else is through.
def turnstile (flight : Flight) : Turnstile := ⟨flight.isUnderWay, flight.phase⟩

-- The entries of its snapshot, until they are compared with what is stored.
def entries? : Flight → Option (List (Key × Account))
  | .taken snapshot | .begun snapshot => some snapshot.saved
  | .waiting (.reading entries) => some entries
  | _ => none

-- What it is to write, from the comparison on.
def plan? : Flight → Option Plan
  | .planned plan | .shown plan | .waiting (.writing plan) | .ending (some (.writing plan)) _ =>
      some plan
  | _ => none

-- How many steps of its own are still to come at most.
def remaining : Flight → Nat
  | .called => 10
  | .entered => 9
  | .taken _ => 8
  | .begun _ => 7
  | .waiting (.reading _) => 6
  | .planned _ => 5
  | .shown _ => 4
  | .waiting (.writing _) => 3
  | .ending _ _ => 2
  | .leaving _ => 1
  | .refused | .ended _ => 0

-- The atomic steps of a trigger. While it waits for the store it may get its answer, run into its
-- deadline or be dropped. The phase and the flag are reset one after the other.
inductive Step : Flight → Service → Flight → Service → Prop
  | refused {service : Service} (hbusy : service.turnstile.tryEnter = none) :
      Step .called service .refused service
  | entered {service : Service} {turnstile : Turnstile}
      (hfree : service.turnstile.tryEnter = some turnstile) :
      Step .called service .entered { service with turnstile }
  | taken {service : Service} : Step .entered service (.taken service.ledger) service
  | begun {service : Service} {snapshot : Ledger} :
      Step (.taken snapshot) service (.begun snapshot)
        { service with turnstile := service.turnstile.move .inPhase1 }
  | unneeded {service : Service} {snapshot : Ledger} {result : SaveResult}
      (hstart : Save.start snapshot = .done result) :
      Step (.begun snapshot) service (.ending none (.finished (result.record Latency.total)))
        service
  | asked {service : Service} {snapshot : Ledger} {save : Save}
      (hstart : Save.start snapshot = .waiting save) :
      Step (.begun snapshot) service (.waiting save)
        { service with backend := save.call service.backend }
  | answered {service : Service} {save : Save} {backend : Backend} {result : SaveResult}
      (hnext : save.next service.layout service.backend = (backend, .done result)) :
      Step (.waiting save) service
        (.ending (some save) (.finished (result.record Latency.total))) { service with backend }
  | planned {service : Service} {save : Save} {backend : Backend} {plan : Plan}
      (hnext : save.next service.layout service.backend = (backend, .waiting (.writing plan))) :
      Step (.waiting save) service (.planned plan) { service with backend }
  | shown {service : Service} {plan : Plan} :
      Step (.planned plan) service (.shown plan)
        { service with turnstile := service.turnstile.move .inPhase2 }
  | sent {service : Service} {plan : Plan} :
      Step (.shown plan) service (.waiting (.writing plan))
        { service with backend := (Save.writing plan).call service.backend }
  | expired {service : Service} {save : Save} :
      Step (.waiting save) service
        (.ending (some save) (.finished (SaveResult.timedOut.record Latency.total))) service
  | dropped {service : Service} {save : Save} :
      Step (.waiting save) service (.ending (some save) .cancelled) service
  | reset {service : Service} {left : Option Save} {outcome : Outcome} :
      Step (.ending left outcome) service (.leaving outcome)
        { service with turnstile := service.turnstile.resetPhase }
  | ended {service : Service} {outcome : Outcome} :
      Step (.leaving outcome) service (.ended outcome)
        { service with turnstile := { service.turnstile with saving := false } }

-- The ways in which a cycle can come to its end.
inductive WayOut (service : Service) : Flight → Outcome → Prop
  | noEntries {snapshot : Ledger} (hsaved : snapshot.saved = []) :
      WayOut service (.begun snapshot) (.finished (SaveResult.success.record Latency.total))
  | readFailed (entries : List (Key × Account)) (hdown : service.backend.unavailable = true) :
      WayOut service (.waiting (.reading entries))
        (.finished (((SaveResult.backendFailed .unavailable).record Latency.readPhase).record
          Latency.total))
  | badKeys {entries : List (Key × Account)} (hup : service.backend.unavailable = false)
      (hbad : (Plan.against service.layout service.backend.store entries).badKeys ≠ []) :
      WayOut service (.waiting (.reading entries))
        (.finished ((Save.compared (.dataInconsistency ((Plan.against service.layout
          service.backend.store entries).badKeys.map (·.text)))).record Latency.total))
  | nothingToWrite {entries : List (Key × Account)} (hup : service.backend.unavailable = false)
      (hbad : (Plan.against service.layout service.backend.store entries).badKeys = [])
      (hcommands : (Plan.against service.layout service.backend.store entries).commands = []) :
      WayOut service (.waiting (.reading entries))
        (.finished ((Save.compared .success).record Latency.total))
  | committed (plan : Plan) (hup : service.backend.unavailable = false) :
      WayOut service (.waiting (.writing plan))
        (.finished ((Save.afterWrite plan (.ok ())).record Latency.total))
  | commitFailed (plan : Plan) (hdown : service.backend.unavailable = true) :
      WayOut service (.waiting (.writing plan))
        (.finished ((Save.afterWrite plan (.error .unavailable)).record Latency.total))
  | timedOut (save : Save) :
      WayOut service (.waiting save) (.finished (SaveResult.timedOut.record Latency.total))
  | cancelled (save : Save) : WayOut service (.waiting save) .cancelled

section Steps

variable {flight next : Flight} {service after : Service}

theorem WayOut.exists_step {outcome : Outcome} (hway : WayOut service flight outcome) :
    ∃ left after, Step flight service (.ending left outcome) after := by
  cases hway with
  | noEntries hsaved => exact ⟨_, _, .unneeded (Save.start_eq_done_iff.mpr ⟨hsaved, rfl⟩)⟩
  | readFailed entries hdown =>
      exact ⟨_, _, .answered (Save.Comes.unread entries hdown).next_eq⟩
  | badKeys hup hbad => exact ⟨_, _, .answered (Save.Comes.refused _ hup hbad).next_eq⟩
  | nothingToWrite hup hbad hcommands =>
      exact ⟨_, _, .answered (Save.Comes.upToDate _ hup hbad hcommands).next_eq⟩
  | committed plan hup => exact ⟨_, _, .answered (Save.Comes.committed plan hup).next_eq⟩
  | commitFailed plan hdown =>
      exact ⟨_, _, .answered (Save.Comes.unwritten plan hdown).next_eq⟩
  | timedOut save => exact ⟨_, _, .expired⟩
  | cancelled save => exact ⟨_, _, .dropped⟩

theorem Step.wayOut {outcome : Outcome} {left : Option Save}
    (hstep : Step flight service (.ending left outcome) after) :
    WayOut service flight outcome := by
  cases hstep with
  | unneeded hstart =>
      obtain ⟨hsaved, rfl⟩ := Save.start_eq_done_iff.mp hstart
      exact .noEntries hsaved
  | expired => exact .timedOut _
  | dropped => exact .cancelled _
  | @answered _ save _ _ hnext =>
      have hcomes := Save.comes_next service.layout service.backend save
      rw [hnext] at hcomes
      cases hcomes with
      | unread entries hdown => exact .readFailed entries hdown
      | refused entries hup hbad => exact .badKeys hup hbad
      | upToDate entries hup hbad hcommands => exact .nothingToWrite hup hbad hcommands
      | unwritten plan hdown => exact .commitFailed plan hdown
      | committed plan hup => exact .committed plan hup

theorem turnstile_of_not_isUnderWay (h : flight.isUnderWay = false) : flight.turnstile = .free := by
  cases flight <;> first | rfl | cases h

-- At the flag it is decided who goes on.
theorem step_called_iff : Step .called service next after ↔
    (service.turnstile.saving = true ∧ next = .refused ∧ after = service) ∨
      (service.turnstile.saving = false ∧ next = .entered ∧
        after = { service with turnstile := { service.turnstile with saving := true } }) := by
  constructor
  · intro hstep
    cases hstep with
    | refused hbusy =>
        cases hsaving : service.turnstile.saving with
        | true => exact .inl ⟨rfl, rfl, rfl⟩
        | false => simp [Turnstile.tryEnter, hsaving] at hbusy
    | entered hfree =>
        cases hsaving : service.turnstile.saving with
        | true => simp [Turnstile.tryEnter, hsaving] at hfree
        | false =>
            simp only [Turnstile.tryEnter, hsaving, Bool.false_eq_true, if_false] at hfree
            cases hfree
            exact .inr ⟨rfl, rfl, rfl⟩
  · rintro (⟨hsaving, rfl, rfl⟩ | ⟨hsaving, rfl, rfl⟩)
    · exact .refused (by simp [Turnstile.tryEnter, hsaving])
    · exact .entered (by simp [Turnstile.tryEnter, hsaving])

theorem step_ending_iff {left : Option Save} {outcome : Outcome} :
    Step (.ending left outcome) service next after ↔ next = .leaving outcome ∧
      after = { service with turnstile := service.turnstile.resetPhase } := by
  constructor
  · rintro ⟨⟩
    exact ⟨rfl, rfl⟩
  · rintro ⟨rfl, rfl⟩
    exact .reset

theorem step_leaving_iff {outcome : Outcome} :
    Step (.leaving outcome) service next after ↔ next = .ended outcome ∧
      after = { service with turnstile := { service.turnstile with saving := false } } := by
  constructor
  · rintro ⟨⟩
    exact ⟨rfl, rfl⟩
  · rintro ⟨rfl, rfl⟩
    exact .ended

theorem Step.eq_leaving (hstep : Step flight service next after)
    (hbefore : flight.isUnderWay = true) (hafter : next.isUnderWay = false) :
    ∃ outcome, flight = .leaving outcome := by
  cases hstep with
  | refused => cases hbefore
  | ended => exact ⟨_, rfl⟩
  | _ => cases hafter

theorem Step.eq_called_or_isUnderWay (hstep : Step flight service next after) :
    flight = .called ∨ flight.isUnderWay = true := by
  cases hstep with
  | refused => exact .inl rfl
  | entered => exact .inl rfl
  | _ => exact .inr rfl

-- Who is under way shows where it stands, with every step that it makes.
theorem Step.turnstile_eq (hstep : Step flight service next after)
    (hunderWay : flight.isUnderWay = true) (hshown : service.turnstile = flight.turnstile) :
    after.turnstile = next.turnstile := by
  cases hstep with
  | refused => cases hunderWay
  | entered => cases hunderWay
  | taken => exact hshown
  | begun => exact congrArg (Turnstile.move · .inPhase1) hshown
  | unneeded => exact hshown
  | asked hstart =>
      rw [Save.eq_reading_of_start hstart]
      exact hshown
  | answered => exact hshown
  | planned hnext =>
      obtain ⟨entries, rfl, -⟩ := Save.next_eq_waiting hnext
      exact hshown
  | shown => exact congrArg (Turnstile.move · .inPhase2) hshown
  | sent => exact hshown
  | expired => exact hshown
  | dropped => exact hshown
  | reset => exact congrArg Turnstile.resetPhase hshown
  | ended => exact congrArg (fun turnstile : Turnstile => { turnstile with saving := false }) hshown

theorem two_lt_remaining_waiting (save : Save) : 2 < (waiting save).remaining := by
  cases save <;> simp [remaining]

theorem Step.remaining_lt (hstep : Step flight service next after) :
    next.remaining < flight.remaining := by
  cases hstep with
  | asked hstart =>
      rw [Save.eq_reading_of_start hstart]
      simp [remaining]
  | planned hnext =>
      obtain ⟨entries, rfl, -⟩ := Save.next_eq_waiting hnext
      simp [remaining]
  | answered => exact two_lt_remaining_waiting _
  | expired => exact two_lt_remaining_waiting _
  | dropped => exact two_lt_remaining_waiting _
  | _ => simp [remaining]

-- There is always a way on, whatever the store does.
theorem exists_step (service : Service) (h : flight.isUnderWay = true) :
    ∃ next after, Step flight service next after := by
  cases flight with
  | called => cases h
  | refused => cases h
  | ended => cases h
  | entered => exact ⟨_, _, .taken⟩
  | taken => exact ⟨_, _, .begun⟩
  | begun snapshot =>
      cases hstart : Save.start snapshot with
      | done result => exact ⟨_, _, .unneeded hstart⟩
      | waiting save => exact ⟨_, _, .asked hstart⟩
  | waiting save => exact ⟨_, _, .expired⟩
  | planned => exact ⟨_, _, .shown⟩
  | shown => exact ⟨_, _, .sent⟩
  | ending => exact ⟨_, _, .reset⟩
  | leaving => exact ⟨_, _, .ended⟩

theorem Step.entries?_cases (hstep : Step flight service next after)
    {entries : List (Key × Account)} (h : next.entries? = some entries) :
    flight.entries? = some entries ∨ flight = .entered ∧ service.ledger.saved = entries := by
  cases hstep with
  | taken =>
      cases h
      exact .inr ⟨rfl, rfl⟩
  | begun => exact .inl h
  | asked hstart =>
      rw [Save.eq_reading_of_start hstart] at h
      exact .inl h
  | _ => cases h

theorem Step.plan?_cases (hstep : Step flight service next after) {plan : Plan}
    (h : next.plan? = some plan) :
    flight.plan? = some plan ∨ ∃ entries, flight = .waiting (.reading entries) ∧
      plan = Plan.against service.layout service.backend.store entries ∧
      plan.badKeys = [] ∧ plan.commands ≠ [] := by
  cases hstep with
  | asked hstart =>
      rw [Save.eq_reading_of_start hstart] at h
      cases h
  | planned hnext =>
      obtain ⟨entries, rfl, hplan, hbad, hcommands⟩ := Save.next_eq_waiting hnext
      cases h
      cases hplan
      exact .inr ⟨entries, rfl, rfl, hbad, hcommands⟩
  | shown => exact .inl h
  | sent => exact .inl h
  | @answered _ save => cases save <;> exact .inl h
  | @expired _ save => cases save <;> exact .inl h
  | @dropped _ save => cases save <;> exact .inl h
  | _ => cases h

theorem exists_plan_of_inPhase2 (h : flight.phase = .inPhase2) :
    ∃ plan, flight.plan? = some plan := by
  cases flight with
  | shown plan => exact ⟨plan, rfl⟩
  | waiting save =>
      cases save with
      | reading => cases h
      | writing plan => exact ⟨plan, rfl⟩
  | ending left =>
      cases left with
      | none => cases h
      | some save =>
          cases save with
          | reading => cases h
          | writing plan => exact ⟨plan, rfl⟩
  | _ => cases h

end Steps

def ofProgress : Service.SaveProgress → Flight
  | .skipped => .refused
  | .finished result => .ended (.finished result)
  | .waiting save _ => .waiting save

end Flight

end ShardedLedger
