import Mathlib.Logic.Function.Basic
import ShardedLedger.Proofs.Persistence.Session

namespace ShardedLedger

-- Services that share one store. The backends of the single sessions do not count.
structure Fleet (ι : Type) where
  backend : Backend
  sessions : ι → Session

namespace Fleet

variable {ι : Type} [DecidableEq ι]

-- A service of the fleet, as it finds the store.
def session (fleet : Fleet ι) (i : ι) : Session :=
  { fleet.sessions i with
    service := { (fleet.sessions i).service with backend := fleet.backend } }

def put (fleet : Fleet ι) (i : ι) (after : Session) : Fleet ι :=
  ⟨after.service.backend, Function.update fleet.sessions i after⟩

-- One of the services takes a step; the others see it in the store alone.
inductive Step (fleet : Fleet ι) (i : ι) : Event → Fleet ι → Prop where
  | act (seen : Event) (after : Session) (hstep : (fleet.session i).Step seen after) :
      Step fleet i seen (fleet.put i after)

inductive Run (first : Fleet ι) : Fleet ι → Prop where
  | start : Run first first
  | step {fleet after : Fleet ι} {i : ι} {seen : Event} (hrun : Run first fleet)
      (hstep : Step fleet i seen after) : Run first after

-- Services with the same names in the store and without a save under way.
structure IsFresh (layout : Layout) (fleet : Fleet ι) : Prop where
  layout_eq : ∀ i, (fleet.sessions i).service.layout = layout
  isTuned : ∀ i, (fleet.sessions i).IsTuned
  idle : ∀ i, (fleet.sessions i).save = none

-- The save of a service holds its ledger as it was at one time, and a transaction was planned on
-- the store as it was at a later one.
def IsPlanned (layout : Layout) (first fleet : Fleet ι) (i : ι) : Prop :=
  ∀ save, (fleet.sessions i).save = some save → ∃ begun, Run first begun ∧
    match save with
    | .reading entries => Run begun fleet ∧ entries = (begun.sessions i).service.ledger.saved
    | .writing plan => ∃ read, Run begun read ∧ Run read fleet ∧
        plan = Plan.against layout read.backend.store (begun.sessions i).service.ledger.saved

structure IsSound (layout : Layout) (first fleet : Fleet ι) : Prop where
  layout_eq : ∀ i, (fleet.sessions i).service.layout = layout
  isTuned : ∀ i, (fleet.sessions i).IsTuned
  isPlanned : ∀ i, IsPlanned layout first fleet i

variable {layout : Layout} {first fleet after : Fleet ι} {i : ι} {seen : Event}

theorem IsFresh.isSound (h : first.IsFresh layout) : IsSound layout first first where
  layout_eq := h.layout_eq
  isTuned := h.isTuned
  isPlanned i save hsave := by
    rw [h.idle i] at hsave
    cases hsave

theorem IsPlanned.step {j : ι} (h : IsPlanned layout first fleet j)
    (hstep : Step fleet i seen after)
    (hsave : (after.sessions j).save = (fleet.sessions j).save) :
    IsPlanned layout first after j := by
  intro save hpending
  obtain ⟨begun, hbegun, htaken⟩ := h save (hsave ▸ hpending)
  refine ⟨begun, hbegun, ?_⟩
  cases save with
  | reading entries => exact ⟨htaken.1.step hstep, htaken.2⟩
  | writing plan =>
      obtain ⟨read, hread, hrun, hplan⟩ := htaken
      exact ⟨read, hread, hrun.step hstep, hplan⟩

theorem IsSound.step (h : IsSound layout first fleet) (hrun : Run first fleet)
    (hstep : Step fleet i seen after) : IsSound layout first after := by
  have hnext := hstep
  obtain ⟨session, hsession⟩ := hstep
  have htuned : (fleet.session i).IsTuned := h.isTuned i
  have hcore := hsession.core htuned
  refine ⟨fun j => ?_, fun j => ?_, fun j => ?_⟩ <;> by_cases hj : j = i
  · subst hj
    have hlayout : session.service.layout = (fleet.sessions j).service.layout := hcore.layout_eq
    simpa [put, hlayout] using h.layout_eq j
  · simpa [put, hj] using h.layout_eq j
  · subst hj
    simpa [put] using hsession.isTuned htuned
  · simpa [put, hj] using h.isTuned j
  · subst hj
    have hafter : ((fleet.put j session).sessions j).save = session.save := by simp [put]
    have hcases := hcore.save_cases
    rcases hcases with hsame | hnone | hbegan | ⟨entries, hreading, -, hplanned⟩
    · exact (h.isPlanned j).step hnext (hafter.trans hsame)
    · intro save hsave
      rw [hafter, show session.save = none from hnone] at hsave
      cases hsave
    · intro save hsave
      rw [hafter, show session.save = _ from hbegan] at hsave
      cases hsave
      exact ⟨fleet, hrun, .step .start hnext, rfl⟩
    · intro save hsave
      rw [hafter, show session.save = _ from hplanned] at hsave
      cases hsave
      obtain ⟨begun, hbegun, hfleet, rfl⟩ := h.isPlanned j _ hreading
      refine ⟨begun, hbegun, fleet, hfleet, .step .start hnext, ?_⟩
      rw [← h.layout_eq j]
      rfl
  · exact (h.isPlanned j).step hnext (by simp [put, hj])

theorem Run.isSound (h : first.IsFresh layout) (hrun : Run first fleet) :
    IsSound layout first fleet := by
  induction hrun with
  | start => exact h.isSound
  | step hrun hstep ih => exact ih.step hrun hstep

-- A stored account goes back to an earlier version exactly when a service writes one that it
-- planned on the store as it was before another service put the later version there. The versions
-- are compared when the store is read and not when it is written.
theorem version_goes_back_iff (hfresh : first.IsFresh layout) (hrun : Run first fleet)
    (hstep : Step fleet i seen after) {key : Key} {old : Account}
    (hold : fleet.backend.store.record? layout key = some old) :
    (¬∃ new, after.backend.store.record? layout key = some new ∧ old.version ≤ new.version) ↔
      seen.IsSaved ∧ ∃ begun read account, Run first begun ∧ Run begun read ∧ Run read fleet ∧
        (fleet.sessions i).save = some (.writing (Plan.against layout read.backend.store
          (begun.sessions i).service.ledger.saved)) ∧
        (begun.sessions i).service.ledger.get? key = some account ∧ account.outOfSync = false ∧
        (∀ text, read.backend.store.value? (layout.valueKey key.text) = some text →
          ∃ value earlier, Plan.readStored text = some (value, earlier) ∧
            earlier.version ≤ account.version ∧ account.value ≠ value) ∧
        account.version < old.version := by
  have hsound := hrun.isSound hfresh
  obtain ⟨session, hsession⟩ := hstep
  have htuned : (fleet.session i).IsTuned := hsound.isTuned i
  have hcore := hsession.core htuned
  constructor
  · intro hback
    rcases hcore.store_cases with hkept | ⟨hsaved, plan, hsave, hstore⟩
    · refine absurd ⟨old, ?_, UInt64.le_refl _⟩ hback
      exact (congrArg (Store.record? layout · key) hkept).trans hold
    · obtain ⟨begun, hbegun, read, hread, hfleet, rfl⟩ := hsound.isPlanned i _ hsave
      have hafter : (fleet.put i session).backend.store = fleet.backend.store.applyAll
          (Plan.against layout read.backend.store
            (begun.sessions i).service.ledger.saved).commands := hstore
      rcases Plan.value?_against_cases layout read.backend.store fleet.backend.store
        (begun.sessions i).service.ledger.nodup_saved (layout.valueKey key.text) with
        hkept | ⟨other, account, hmem, hname, hrewrites, htext⟩
      · refine absurd ⟨old, ?_, UInt64.le_refl _⟩ hback
        rw [hafter, Store.record?]
        exact (congrArg (Option.bind · _) hkept).trans hold
      · have hkey : key = other := congrArg Key.mk (layout.valueKey_injective hname)
        subst hkey
        obtain ⟨hlive, hinSync⟩ := (Ledger.mem_saved_iff _ key account).mp hmem
        have hnew := Plan.record?_of_storedText layout _ htext
        refine ⟨hsaved, begun, read, account, hbegun, hread, hfleet, hsave, hlive, hinSync,
          (Plan.rewrites_iff account _).mp hrewrites, ?_⟩
        by_contra hlt
        refine hback ⟨account.asRecorded, hafter ▸ hnew, ?_⟩
        exact UInt64.not_lt.mp hlt
  · rintro ⟨hsaved, begun, read, account, hbegun, hread, hfleet, hsave, hlive, hinSync, hrewrites,
      hlt⟩ ⟨new, hnew, hle⟩
    have hmem := (Ledger.mem_saved_iff _ key account).mpr ⟨hlive, hinSync⟩
    have hafter : (fleet.put i session).backend.store = fleet.backend.store.applyAll
        (Plan.against layout read.backend.store (begun.sessions i).service.ledger.saved).commands :=
      hcore.store_committed hsaved hsave
    have htext := Plan.value?_against layout read.backend.store fleet.backend.store
      (begun.sessions i).service.ledger.nodup_saved hmem
    rw [if_pos ((Plan.rewrites_iff account _).mpr hrewrites)] at htext
    rw [hafter, Plan.record?_of_storedText layout _ htext] at hnew
    cases hnew
    exact absurd hle (UInt64.not_le.mpr hlt)

section Race

def perform (fleet : Fleet ι) (i : ι) (operation : Ledger.Operation) : Fleet ι :=
  fleet.put i ((fleet.session i).perform operation)

def beginSave (fleet : Fleet ι) (i : ι) : Fleet ι := fleet.put i ((fleet.session i).beginSave 0)

def resumeSave (fleet : Fleet ι) (i : ι) (save : Save) : Fleet ι :=
  fleet.put i ((fleet.session i).resumeSave save ⟨0, 0⟩)

def opened : Account := .new ⟨"a"⟩ .budget

def changed : Account := { opened with version := 2 }

-- Two new services hold an account, one of them in a later version.
def pair : Fleet Bool :=
  let services : Fleet Bool := ⟨.empty, fun _ => .start .default .empty⟩
  let both := (services.perform false (.create ⟨"a"⟩ .budget)).perform true (.create ⟨"a"⟩ .budget)
  both.perform true (.setBudget ⟨"a"⟩ .empty)

-- Both find nothing stored; the later version is written, and the earlier one is still to come.
def race : Fleet Bool :=
  let asked := ((pair.beginSave false).resumeSave false (.reading [(⟨"a"⟩, opened)])).beginSave true
  let planned := asked.resumeSave true (.reading [(⟨"a"⟩, changed)])
  planned.resumeSave true (.writing (Plan.insertion ⟨"banker"⟩ ⟨"a"⟩ changed))

theorem run_race : Run ⟨.empty, fun _ => .start .default .empty⟩ race := by
  refine .step (.step (.step (.step (.step (.step (.step (.step .start
    (.act _ _ (.operate _ _))) (.act _ _ (.operate _ _))) (.act _ _ (.operate _ _)))
    (.act _ _ (.trigger _ 0))) (.act _ _ (.wake _ _ ⟨0, 0⟩ ?_))) (.act _ _ (.trigger _ 0)))
    (.act _ _ (.wake _ _ ⟨0, 0⟩ ?_))) (.act _ _ (.wake _ _ ⟨0, 0⟩ ?_))
  · decide +kernel
  · decide +kernel
  · decide +kernel

theorem version_goes_back_race :
    race.backend.store.record? ⟨"banker"⟩ ⟨"a"⟩ = some changed ∧
      (race.resumeSave false (.writing (Plan.insertion ⟨"banker"⟩ ⟨"a"⟩ opened))
        ).backend.store.record? ⟨"banker"⟩ ⟨"a"⟩ = some opened ∧
      ∃ account : Account, account.outOfSync = false ∧ account.version < changed.version := by
  have hwriting : (race.session false).save =
      some (.writing (Plan.insertion ⟨"banker"⟩ ⟨"a"⟩ opened)) := by decide +kernel
  have hold : race.backend.store.record? ⟨"banker"⟩ ⟨"a"⟩ = some changed := by decide +kernel
  have hnew : (race.resumeSave false (.writing (Plan.insertion ⟨"banker"⟩ ⟨"a"⟩ opened))
      ).backend.store.record? ⟨"banker"⟩ ⟨"a"⟩ = some opened := by decide +kernel
  have hfresh : IsFresh ⟨"banker"⟩ (⟨.empty, fun _ => .start .default .empty⟩ : Fleet Bool) :=
    ⟨fun _ => rfl, fun _ => rfl, fun _ => rfl⟩
  have hback := version_goes_back_iff hfresh run_race (.act _ _ (.wake _ _ ⟨0, 0⟩ hwriting)) hold
  obtain ⟨-, -, -, account, -, -, -, -, -, hinSync, -, hlt⟩ := hback.mp (by
    rintro ⟨new, hfound, hle⟩
    cases hnew.symm.trans hfound
    exact absurd hle (by decide))
  exact ⟨hold, hnew, account, hinSync, hlt⟩

end Race

end Fleet

end ShardedLedger
