import Mathlib.Logic.Function.Basic
import ShardedLedger.Proofs.Persistence.Flight

namespace ShardedLedger

-- A service with all the triggers of saves that there will ever be.
structure Engine (ι : Type) where
  service : Service
  flights : ι → Flight

namespace Engine

variable {ι : Type} {engine : Engine ι}

structure IsFresh (engine : Engine ι) : Prop where
  free : engine.service.turnstile = .free
  called : ∀ i, engine.flights i = .called

-- At most one trigger is through the turnstile, which shows where that one stands.
structure IsGuarded (engine : Engine ι) : Prop where
  alone : ∀ i j, (engine.flights i).isUnderWay = true → (engine.flights j).isUnderWay = true → i = j
  shown : ∀ i, (engine.flights i).isUnderWay = true →
    engine.service.turnstile = (engine.flights i).turnstile
  free : (∀ i, (engine.flights i).isUnderWay = false) → engine.service.turnstile = .free

theorem IsFresh.isGuarded (h : engine.IsFresh) : engine.IsGuarded where
  alone i _ hi := by rw [h.called i] at hi; cases hi
  shown i hi := by rw [h.called i] at hi; cases hi
  free _ := h.free

theorem IsGuarded.saving_iff (h : engine.IsGuarded) : engine.service.turnstile.saving = true ↔
    ∃ i, (engine.flights i).isUnderWay = true := by
  constructor
  · intro hsaving
    by_contra hnone
    rw [h.free (by simpa using hnone)] at hsaving
    cases hsaving
  · rintro ⟨i, hi⟩
    rw [h.shown i hi]
    exact hi

theorem IsGuarded.free_of_not_saving (h : engine.IsGuarded)
    (hsaving : engine.service.turnstile.saving = false) : engine.service.turnstile = .free := by
  refine h.free fun i => ?_
  rw [← Bool.not_eq_true]
  intro hi
  rw [h.saving_iff.mpr ⟨i, hi⟩] at hsaving
  cases hsaving

theorem IsGuarded.exists_plan (h : engine.IsGuarded)
    (hphase : engine.service.turnstile.phase = .inPhase2) :
    ∃ i plan, (engine.flights i).isUnderWay = true ∧ (engine.flights i).plan? = some plan := by
  cases hsaving : engine.service.turnstile.saving with
  | false =>
      rw [h.free_of_not_saving hsaving] at hphase
      cases hphase
  | true =>
      obtain ⟨i, hi⟩ := h.saving_iff.mp hsaving
      rw [h.shown i hi] at hphase
      obtain ⟨plan, hplan⟩ := Flight.exists_plan_of_inPhase2 hphase
      exact ⟨i, plan, hi, hplan⟩

section Runs

variable [DecidableEq ι]

def put (engine : Engine ι) (i : ι) (flight : Flight) (service : Service) : Engine ι :=
  ⟨service, Function.update engine.flights i flight⟩

-- What the service does for one trigger without a break.
def progress (engine : Engine ι) (i : ι) : Service × Service.SaveProgress → Engine ι
  | (service, progress) => engine.put i (.ofProgress progress) service

def beginSave (engine : Engine ι) (i : ι) (now : Nat) : Engine ι :=
  engine.progress i (engine.service.beginSave now)

def resumeSave (engine : Engine ι) (i : ι) (save : Save) (wait : Wait) : Engine ι :=
  engine.progress i (engine.service.resumeSave save wait)

def dropSave (engine : Engine ι) (i : ι) : Engine ι :=
  engine.put i (.ended .cancelled) engine.service.dropSave

inductive Step (engine : Engine ι) (i : ι) : Engine ι → Prop
  | mk {flight : Flight} {service : Service}
      (hstep : (engine.flights i).Step engine.service flight service) :
      Step engine i (engine.put i flight service)

-- The triggers take their steps in any order, and in between anything may happen to the ledger
-- and to the store.
inductive Run (first : Engine ι) : Engine ι → Prop
  | start : Run first first
  | step {engine after : Engine ι} (hrun : Run first engine) (i : ι) (hstep : engine.Step i after) :
      Run first after
  | disturb {engine : Engine ι} (hrun : Run first engine) (ledger : Ledger) (backend : Backend) :
      Run first { engine with service := { engine.service with ledger, backend } }

variable {first after : Engine ι} {i : ι}

theorem Run.trans {middle : Engine ι} (hfirst : Run first middle) (hrun : Run middle engine) :
    Run first engine := by
  induction hrun with
  | start => exact hfirst
  | step _ i hstep ih => exact ih.step i hstep
  | disturb _ ledger backend ih => exact ih.disturb ledger backend

@[simp]
theorem flights_put_self (flight : Flight) (service : Service) :
    (engine.put i flight service).flights i = flight := Function.update_self ..

theorem flights_put_of_ne {j : ι} (h : j ≠ i) (flight : Flight) (service : Service) :
    (engine.put i flight service).flights j = engine.flights j := Function.update_of_ne h ..

theorem put_self : engine.put i (engine.flights i) engine.service = engine := by
  rw [put, Function.update_eq_self]

theorem step_iff {flight : Flight} (h : engine.flights i = flight) : engine.Step i after ↔
    ∃ next service, flight.Step engine.service next service ∧
      after = engine.put i next service := by
  rw [← h]
  constructor
  · rintro ⟨hstep⟩
    exact ⟨_, _, hstep, rfl⟩
  · rintro ⟨_, _, hstep, rfl⟩
    exact ⟨hstep⟩

section Uninterrupted

-- One trigger takes a step after the other.
theorem Run.put {flight next : Flight} {service later : Service}
    (hrun : Run first (engine.put i flight service)) (hstep : flight.Step service next later) :
    Run first (engine.put i next later) := by
  have hnext : (engine.put i flight service).Step i
      ((engine.put i flight service).put i next later) := by
    refine ⟨?_⟩
    rw [flights_put_self]
    exact hstep
  rw [Engine.put, Engine.put, Function.update_idem] at hnext
  exact hrun.step i hnext

theorem run_of_flight {flight : Flight} (h : engine.flights i = flight) :
    Run engine (engine.put i flight engine.service) := by
  rw [← h, put_self]
  exact .start

theorem Run.leave {left : Option Save} {outcome : Flight.Outcome} {service : Service}
    (hrun : Run first (engine.put i (.ending left outcome) service)) :
    Run first (engine.put i (.ended outcome) service.dropSave) :=
  (hrun.put .reset).put .ended

theorem run_beginSave (h : engine.flights i = .called) (now : Nat) :
    Run engine (engine.beginSave i now) := by
  unfold beginSave Service.beginSave
  split
  next hbusy => exact (run_of_flight h).put (.refused hbusy)
  next turnstile hfree =>
    have hbegun := (((run_of_flight h).put (.entered hfree)).put .taken).put .begun
    cases hstart : Save.start engine.service.ledger with
    | done result => exact (hbegun.put (.unneeded hstart)).leave
    | waiting save =>
        have hasked := hbegun.put (.asked hstart)
        cases Save.eq_reading_of_start hstart
        exact hasked

theorem run_resumeSave {save : Save} (h : engine.flights i = .waiting save) (wait : Wait) :
    Run engine (engine.resumeSave i save wait) := by
  unfold resumeSave Service.resumeSave
  split
  next => exact ((run_of_flight h).put .expired).leave
  next =>
    rcases hnext : save.next engine.service.layout engine.service.backend with
      ⟨backend, result | other⟩
    · exact ((run_of_flight h).put (.answered hnext)).leave
    · obtain ⟨entries, -, rfl, -⟩ := Save.next_eq_waiting hnext
      exact (((run_of_flight h).put (.planned hnext)).put .shown).put .sent

theorem run_dropSave {save : Save} (h : engine.flights i = .waiting save) :
    Run engine (engine.dropSave i) :=
  ((run_of_flight h).put .dropped).leave

end Uninterrupted

section Guard

-- It is enough to look at the one that moved, as long as nobody else is under way.
theorem isGuarded_put {flight : Flight} {service : Service}
    (hothers : ∀ j, j ≠ i → (engine.flights j).isUnderWay = false)
    (hshown : service.turnstile = flight.turnstile) : (engine.put i flight service).IsGuarded := by
  have heq (j : ι) (hj : ((engine.put i flight service).flights j).isUnderWay = true) : j = i := by
    by_contra hne
    rw [flights_put_of_ne hne, hothers j hne] at hj
    cases hj
  refine ⟨fun j k hj hk => (heq j hj).trans (heq k hk).symm, fun j hj => ?_, fun hnone => ?_⟩
  · rw [heq j hj, flights_put_self]
    exact hshown
  · have hi := hnone i
    rw [flights_put_self] at hi
    exact hshown.trans (Flight.turnstile_of_not_isUnderWay hi)

theorem IsGuarded.refuse (h : engine.IsGuarded) (hcalled : engine.flights i = .called) :
    (engine.put i .refused engine.service).IsGuarded := by
  have hunderWay (j : ι) : ((engine.put i .refused engine.service).flights j).isUnderWay =
      (engine.flights j).isUnderWay := by
    by_cases hj : j = i
    · rw [hj, flights_put_self, hcalled]
      rfl
    · rw [flights_put_of_ne hj]
  refine ⟨fun j k => ?_, fun j hj => ?_, fun hnone => ?_⟩
  · rw [hunderWay, hunderWay]
    exact h.alone j k
  · rw [flights_put_of_ne fun hji => ?_]
    · exact h.shown j (hunderWay j ▸ hj)
    · rw [hji, flights_put_self] at hj
      cases hj
  · exact h.free fun j => hunderWay j ▸ hnone j

theorem Step.isGuarded (hstep : engine.Step i after) (h : engine.IsGuarded) : after.IsGuarded := by
  obtain ⟨hstep⟩ := hstep
  rcases hstep.eq_called_or_isUnderWay with hcalled | hi
  · rw [hcalled, Flight.step_called_iff] at hstep
    rcases hstep with ⟨-, rfl, rfl⟩ | ⟨hfree, rfl, rfl⟩
    · exact h.refuse hcalled
    · refine isGuarded_put (fun j _ => ?_) ?_
      · rw [← Bool.not_eq_true]
        intro hj
        rw [h.saving_iff.mpr ⟨j, hj⟩] at hfree
        cases hfree
      · rw [h.free_of_not_saving hfree]
        rfl
  · refine isGuarded_put (fun j hne => ?_) (hstep.turnstile_eq hi (h.shown i hi))
    rw [← Bool.not_eq_true]
    exact fun hj => hne (h.alone j i hj hi)

theorem Run.isGuarded (hrun : Run first engine) (h : first.IsGuarded) : engine.IsGuarded := by
  induction hrun with
  | start => exact h
  | step _ i hstep ih => exact hstep.isGuarded ih
  | disturb _ ledger backend ih => exact ⟨ih.alone, ih.shown, ih.free⟩

end Guard

section Foundation

-- The entries are those of the ledger as it was when this trigger had just been let in.
def HasTaken (first engine : Engine ι) (i : ι) (entries : List (Key × Account)) : Prop :=
  ∃ entered, Run first entered ∧ Run entered engine ∧ entered.flights i = .entered ∧
    entered.service.ledger.saved = entries

-- The plan comes of these entries and of what was stored when they were compared with it, and it
-- may and must be written.
def HasPlanned (first engine : Engine ι) (i : ι) (plan : Plan) : Prop :=
  ∃ compared entries, HasTaken first compared i entries ∧ Run compared engine ∧
    compared.flights i = .waiting (.reading entries) ∧
    plan = Plan.against compared.service.layout compared.service.backend.store entries ∧
    plan.badKeys = [] ∧ plan.commands ≠ []

theorem HasTaken.later {entries : List (Key × Account)} (h : HasTaken first engine i entries)
    (hrun : Run engine after) : HasTaken first after i entries := by
  obtain ⟨entered, hentered, hsince, hflight, hentries⟩ := h
  exact ⟨entered, hentered, hsince.trans hrun, hflight, hentries⟩

theorem HasPlanned.later {plan : Plan} (h : HasPlanned first engine i plan)
    (hrun : Run engine after) : HasPlanned first after i plan := by
  obtain ⟨compared, entries, htaken, hsince, hplanned⟩ := h
  exact ⟨compared, entries, htaken, hsince.trans hrun, hplanned⟩

structure IsFounded (first engine : Engine ι) : Prop where
  taken : ∀ i entries, (engine.flights i).entries? = some entries → HasTaken first engine i entries
  planned : ∀ i plan, (engine.flights i).plan? = some plan → HasPlanned first engine i plan

theorem IsFresh.isFounded (h : first.IsFresh) : IsFounded first first where
  taken i _ hentries := by rw [h.called i] at hentries; cases hentries
  planned i _ hplan := by rw [h.called i] at hplan; cases hplan

theorem Step.isFounded (hstep : engine.Step i after) (hrun : Run first engine)
    (h : IsFounded first engine) : IsFounded first after := by
  have hnow : Run engine after := Run.start.step i hstep
  obtain ⟨hstep⟩ := hstep
  constructor
  · intro j entries hentries
    by_cases hj : j = i
    · subst hj
      rw [flights_put_self] at hentries
      rcases hstep.entries?_cases hentries with hkept | ⟨hentered, hsaved⟩
      · exact (h.taken j entries hkept).later hnow
      · exact ⟨engine, hrun, hnow, hentered, hsaved⟩
    · rw [flights_put_of_ne hj] at hentries
      exact (h.taken j entries hentries).later hnow
  · intro j plan hplan
    by_cases hj : j = i
    · subst hj
      rw [flights_put_self] at hplan
      rcases hstep.plan?_cases hplan with hkept | ⟨entries, hreading, hplanned⟩
      · exact (h.planned j plan hkept).later hnow
      · have htaken := h.taken j entries (by rw [hreading]; rfl)
        exact ⟨engine, entries, htaken, hnow, hreading, hplanned⟩
    · rw [flights_put_of_ne hj] at hplan
      exact (h.planned j plan hplan).later hnow

theorem Run.isFounded (hrun : Run first engine) (h : first.IsFresh) : IsFounded first engine := by
  induction hrun with
  | start => exact h.isFounded
  | step hrun i hstep ih => exact hstep.isFounded hrun ih
  | @disturb earlier _ ledger backend ih =>
      have hnow := (@Run.start ι _ earlier).disturb ledger backend
      exact ⟨fun i entries hentries => (ih.taken i entries hentries).later hnow,
        fun i plan hplan => (ih.planned i plan hplan).later hnow⟩

end Foundation

-- What holds at any time in a run that begins with nobody under way.
structure IsSingleFlight (first engine : Engine ι) : Prop where
  alone : ∀ i j, (engine.flights i).isUnderWay = true → (engine.flights j).isUnderWay = true → i = j
  saving_iff : engine.service.turnstile.saving = true ↔ ∃ i, (engine.flights i).isUnderWay = true
  idle : engine.service.turnstile.saving = false → engine.service.turnstile.phase = .idle
  inPhase2 : engine.service.turnstile.phase = .inPhase2 → ∃ i plan,
    (engine.flights i).isUnderWay = true ∧ (engine.flights i).plan? = some plan ∧
      HasPlanned first engine i plan
  -- Who finds the flag set leaves everything as it is; who finds it clear begins.
  refused : ∀ i, engine.service.turnstile.saving = true → engine.flights i = .called →
    ∀ after, engine.Step i after ↔ after = engine.put i .refused engine.service
  entered : ∀ i, engine.service.turnstile.saving = false → engine.flights i = .called →
    ∀ after, engine.Step i after ↔
      after = engine.put i .entered { engine.service with turnstile := ⟨true, .idle⟩ }
  -- However it comes to its end, first the phase is reset and then the flag.
  ways : ∀ i outcome, Flight.WayOut engine.service (engine.flights i) outcome ↔
    ∃ left after, engine.Step i after ∧ after.flights i = .ending left outcome
  reset : ∀ i left outcome, engine.flights i = .ending left outcome →
    ∀ after, engine.Step i after ↔
      after = engine.put i (.leaving outcome) { engine.service with turnstile := ⟨true, .idle⟩ }
  cleared : ∀ i outcome, engine.flights i = .leaving outcome →
    ∀ after, engine.Step i after ↔
      after = engine.put i (.ended outcome) { engine.service with turnstile := .free }
  leaves : ∀ i after, engine.Step i after → (engine.flights i).isUnderWay = true →
    (after.flights i).isUnderWay = false → ∃ outcome, engine.flights i = .leaving outcome
  -- Nobody gets stuck on the way.
  proceeds : ∀ i, (engine.flights i).isUnderWay = true → ∃ after, engine.Step i after
  nears : ∀ i after, engine.Step i after →
    (after.flights i).remaining < (engine.flights i).remaining
  -- What the service does without a break is made of these steps.
  begun : ∀ i now, engine.flights i = .called → Run engine (engine.beginSave i now)
  resumed : ∀ i save wait, engine.flights i = .waiting save →
    Run engine (engine.resumeSave i save wait)
  dropped : ∀ i save, engine.flights i = .waiting save → Run engine (engine.dropSave i)

theorem IsGuarded.step_called_iff (h : engine.IsGuarded) (hcalled : engine.flights i = .called) :
    engine.Step i after ↔
      (engine.service.turnstile.saving = true ∧ after = engine.put i .refused engine.service) ∨
      (engine.service.turnstile.saving = false ∧
        after = engine.put i .entered { engine.service with turnstile := ⟨true, .idle⟩ }) := by
  rw [step_iff hcalled]
  constructor
  · rintro ⟨next, service, hstep, rfl⟩
    rcases Flight.step_called_iff.mp hstep with ⟨hsaving, rfl, rfl⟩ | ⟨hsaving, rfl, rfl⟩
    · exact .inl ⟨hsaving, rfl⟩
    · rw [h.free_of_not_saving hsaving]
      exact .inr ⟨rfl, rfl⟩
  · rintro (⟨hsaving, rfl⟩ | ⟨hsaving, rfl⟩)
    · exact ⟨_, _, Flight.step_called_iff.mpr (.inl ⟨hsaving, rfl, rfl⟩), rfl⟩
    · refine ⟨_, _, Flight.step_called_iff.mpr (.inr ⟨hsaving, rfl, rfl⟩), ?_⟩
      rw [h.free_of_not_saving hsaving]
      rfl

theorem IsGuarded.step_ending_iff (h : engine.IsGuarded) {left : Option Save}
    {outcome : Flight.Outcome} (hending : engine.flights i = .ending left outcome) :
    engine.Step i after ↔ after =
      engine.put i (.leaving outcome) { engine.service with turnstile := ⟨true, .idle⟩ } := by
  have hturnstile := h.shown i (by rw [hending]; rfl)
  rw [hending] at hturnstile
  simp only [step_iff hending, Flight.step_ending_iff, hturnstile]
  constructor
  · rintro ⟨next, service, ⟨rfl, rfl⟩, rfl⟩
    rfl
  · rintro rfl
    exact ⟨_, _, ⟨rfl, rfl⟩, rfl⟩

theorem IsGuarded.step_leaving_iff (h : engine.IsGuarded) {outcome : Flight.Outcome}
    (hleaving : engine.flights i = .leaving outcome) : engine.Step i after ↔
      after = engine.put i (.ended outcome) { engine.service with turnstile := .free } := by
  have hturnstile := h.shown i (by rw [hleaving]; rfl)
  rw [hleaving] at hturnstile
  simp only [step_iff hleaving, Flight.step_leaving_iff, hturnstile]
  constructor
  · rintro ⟨next, service, ⟨rfl, rfl⟩, rfl⟩
    rfl
  · rintro rfl
    exact ⟨_, _, ⟨rfl, rfl⟩, rfl⟩

theorem wayOut_iff {outcome : Flight.Outcome} :
    Flight.WayOut engine.service (engine.flights i) outcome ↔
      ∃ left after, engine.Step i after ∧ after.flights i = .ending left outcome := by
  constructor
  · intro hway
    obtain ⟨left, service, hstep⟩ := hway.exists_step
    exact ⟨left, _, ⟨hstep⟩, flights_put_self _ _⟩
  · rintro ⟨left, after, ⟨hstep⟩, hending⟩
    rw [flights_put_self] at hending
    exact (hending ▸ hstep).wayOut

-- Any number of triggers take their steps in any order: one save at most is under way, a trigger
-- that comes meanwhile is refused, and whichever way a save ends, the next trigger may begin one.
theorem single_flight (hfresh : first.IsFresh) (hrun : Run first engine) :
    IsSingleFlight first engine := by
  have hguarded := hrun.isGuarded hfresh.isGuarded
  constructor
  case alone => exact hguarded.alone
  case saving_iff => exact hguarded.saving_iff
  case idle =>
    intro hsaving
    rw [hguarded.free_of_not_saving hsaving]
    rfl
  case inPhase2 =>
    intro hphase
    obtain ⟨i, plan, hi, hplan⟩ := hguarded.exists_plan hphase
    exact ⟨i, plan, hi, hplan, (hrun.isFounded hfresh).planned i plan hplan⟩
  case refused =>
    intro i hsaving hcalled after
    simp [hguarded.step_called_iff hcalled, hsaving]
  case entered =>
    intro i hsaving hcalled after
    simp [hguarded.step_called_iff hcalled, hsaving]
  case ways => exact fun _ _ => wayOut_iff
  case reset => exact fun _ _ _ hending _ => hguarded.step_ending_iff hending
  case cleared => exact fun _ _ hleaving _ => hguarded.step_leaving_iff hleaving
  case leaves =>
    rintro i after ⟨hstep⟩ hbefore hafter
    rw [flights_put_self] at hafter
    exact hstep.eq_leaving hbefore hafter
  case proceeds =>
    intro i hi
    obtain ⟨next, service, hstep⟩ := Flight.exists_step engine.service hi
    exact ⟨_, ⟨hstep⟩⟩
  case nears =>
    rintro i after ⟨hstep⟩
    rw [flights_put_self]
    exact hstep.remaining_lt
  case begun => exact fun _ now hcalled => run_beginSave hcalled now
  case resumed => exact fun _ _ wait hwaiting => run_resumeSave hwaiting wait
  case dropped => exact fun _ _ hwaiting => run_dropSave hwaiting

section Contention

def pair : Engine Bool :=
  ⟨{ Service.new .default .empty with
      ledger := ((Ledger.Operation.create ⟨"a"⟩ .budget).apply .empty).1 }, fun _ => .called⟩

-- The second trigger comes while the first one waits for the stored values.
def contended : Engine Bool :=
  ((pair.beginSave false 0).beginSave true 0).resumeSave false
    (.reading pair.service.ledger.saved) ⟨0, 0⟩

theorem run_contended : Run pair contended := by
  have hbegun : Run pair (pair.beginSave false 0) := run_beginSave rfl 0
  have hrefused := hbegun.trans (run_beginSave (i := true) rfl 0)
  exact hrefused.trans (run_resumeSave (by rfl) _)

theorem single_flight_contended :
    pair.IsFresh ∧ Run pair contended ∧ contended.service.turnstile = ⟨true, .inPhase2⟩ ∧
      contended.flights true = .refused ∧ IsSingleFlight pair contended :=
  have hfresh : pair.IsFresh := ⟨rfl, fun _ => rfl⟩
  ⟨hfresh, run_contended, by decide +kernel, rfl, single_flight hfresh run_contended⟩

end Contention

end Runs

end Engine

end ShardedLedger
