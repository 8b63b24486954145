import ShardedLedger.Proofs.Ledger.Effect
import ShardedLedger.Proofs.Persistence.Archive

namespace ShardedLedger

namespace Session

-- The sessions that a save goes through, from the one that it began in on.
inductive Saving (first begun : Session) : Session → Prop where
  | start (hrun : Run first begun) (hidle : begun.save = none) : Saving first begun begun
  | step {session after : Session} {seen : Event} (hsaving : Saving first begun session)
      (hstep : Step session seen after) (hunderWay : after.save.isSome = true) :
      Saving first begun after

-- On the way an operation created or reactivated the account, or one below it, and so opened it.
def Reopened (key : Key) (first last : Session) : Prop :=
  ∃ earlier operation, Run first earlier ∧ Run (earlier.perform operation) last ∧
    operation.mayOpen key = true ∧ earlier.service.ledger.isActive key = false ∧
    (earlier.perform operation).service.ledger.isActive key = true

namespace Core

variable {core after : Core} {seen : Event} {key : Key}

-- The save under way, if any, has the account as a closed one or not at all.
def SavesClosed (key : Key) (core : Core) : Prop :=
  core.IsPlanned fun entries =>
    (entries.map (·.1)).Nodup ∧ ∀ account, (key, account) ∈ entries → account.isActive = false

-- The account is not open: in the ledger, in the store and for the save under way.
structure IsShut (key : Key) (core : Core) : Prop where
  ledger : core.ledger.isActive key = false
  store : ¬core.store.IsOpen core.layout key
  save : core.SavesClosed key

theorem isActive_of_mem_saved {ledger : Ledger} {account : Account}
    (h : ledger.isActive key = false) (hmem : (key, account) ∈ ledger.saved) :
    account.isActive = false := by
  rw [Ledger.isActive, ((ledger.mem_saved_iff key account).mp hmem).1] at h
  exact h

-- It takes an operation to open the account: a load finds no open record.
theorem IsShut.exists_operation (h : core.IsShut key) (hstep : core.Step seen after)
    (hactive : after.ledger.isActive key = true) : ∃ operation, seen = .operated operation := by
  have hkept (hsame : core.ledger.isActive key = true) :
      ∃ operation, seen = .operated operation := by
    rw [h.ledger] at hsame
    cases hsame
  cases hstep with
  | operated operation => exact ⟨operation, rfl⟩
  | unreached => cases hactive
  | loadRefused => cases hactive
  | loaded ledger houtcome =>
      obtain ⟨stored, hstored, hopen⟩ :=
        Load.exists_record?_of_isActive (Load.sorted_members _ _) houtcome hactive
      exact absurd ⟨stored, hstored, of_decide_eq_true hopen⟩ h.store
  | _ => exact hkept hactive

theorem IsShut.step (h : core.IsShut key) (hstep : core.Step seen after)
    (hclosed : after.ledger.isActive key = false) : after.IsShut key where
  ledger := hclosed
  store := by
    rw [hstep.layout_eq]
    rcases hstep.store_planned h.save with hsame | ⟨entries, ⟨hnodup, hentries⟩, -, hstore⟩
    · rw [hsame]
      exact h.store
    · rintro ⟨stored, hstored, hopen⟩
      rw [hstore] at hstored
      rcases Plan.record?_against_cases core.layout core.store core.store hnodup key with
        hsame | ⟨account, hmem, hrecord⟩
      · exact h.store ⟨stored, hsame.symm.trans hstored, hopen⟩
      · obtain rfl : account.asRecorded = stored := Option.some.inj (hrecord.symm.trans hstored)
        have hactive : account.isActive = true := decide_eq_true hopen
        rw [hentries account hmem] at hactive
        cases hactive
  save := hstep.isPlanned h.save fun _ =>
    ⟨core.ledger.nodup_saved, fun _ hmem => isActive_of_mem_saved h.ledger hmem⟩

-- A save that succeeds has stored the entries that it took, and the ledger stays.
theorem Step.saved_cases {taken : List (Key × Account) → Prop} (hstep : core.Step seen after)
    (hsaved : seen.IsSaved) (hplanned : core.IsPlanned taken)
    (hidle : core.save = none → taken core.ledger.saved) :
    ∃ entries, taken entries ∧ (Plan.against core.layout core.store entries).badKeys = [] ∧
      after = { core with
        store := core.store.applyAll (Plan.against core.layout core.store entries).commands
        save := none } := by
  cases hstep with
  | unneeded result hnone hempty =>
      refine ⟨core.ledger.saved, hidle hnone, ?_, ?_⟩
      · rw [hempty]
        rfl
      · rw [hempty]
        exact congrArg (Core.mk _ _ _) hnone
  | failed save result hsave hstatus => rw [Event.IsSaved, hstatus] at hsaved; cases hsaved
  | refused entries result hsave hbad hstatus =>
      rw [Event.IsSaved, hstatus] at hsaved
      cases hsaved
  | upToDate entries result hsave hbad hcommands =>
      obtain ⟨pending, htaken, rfl⟩ := hplanned _ hsave
      refine ⟨entries, htaken, hbad, ?_⟩
      rw [hcommands]
      rfl
  | committed plan result hsave =>
      obtain ⟨entries, htaken, rfl, hbad⟩ := hplanned _ hsave
      exact ⟨entries, htaken, hbad, rfl⟩
  | _ => exact hsaved.elim

-- While a save is under way only operations change the ledger.
theorem Step.ledger_cases (hstep : core.Step seen after) (hunderWay : after.save.isSome = true) :
    after.ledger = core.ledger ∨ ∃ operation, seen = .operated operation := by
  cases hstep with
  | operated operation => exact .inr ⟨operation, rfl⟩
  | unreached => cases hunderWay
  | loadRefused => cases hunderWay
  | loaded => cases hunderWay
  | _ => exact .inl rfl

end Core

section Openings

variable {first middle begun session after : Session} {seen : Event} {key : Key}

theorem Reopened.behind (h : Reopened key middle session) (hrun : Run first middle) :
    Reopened key first session := by
  obtain ⟨earlier, operation, hearlier, hlater, hopens⟩ := h
  exact ⟨earlier, operation, hrun.trans hearlier, hlater, hopens⟩

theorem Reopened.ahead (h : Reopened key first middle) (hrun : Run middle session) :
    Reopened key first session := by
  obtain ⟨earlier, operation, hearlier, hlater, hopens⟩ := h
  exact ⟨earlier, operation, hearlier, hlater.trans hrun, hopens⟩

theorem Step.eq_perform {operation : Ledger.Operation} (hstep : Step session seen after)
    (hseen : seen = .operated operation) : after = session.perform operation := by
  have hquiet (progress : Service.SaveProgress) : event progress ≠ .operated operation := by
    cases progress <;> nofun
  cases hstep with
  | operate =>
      cases hseen
      rfl
  | trigger => exact absurd hseen (hquiet _)
  | wake => exact absurd hseen (hquiet _)
  | cancel => cases hseen
  | disturb => cases hseen
  | restart => cases hseen

theorem Step.reopened {operation : Ledger.Operation} (hstep : Step session seen after)
    (hseen : seen = .operated operation) (hclosed : session.service.ledger.isActive key = false)
    (hactive : after.service.ledger.isActive key = true) : Reopened key session after := by
  obtain rfl := hstep.eq_perform hseen
  have hmay : operation.mayOpen key = true := by
    by_contra hnot
    have hbefore := Ledger.isActive_of_apply (by simpa using hnot) hactive
    rw [hclosed] at hbefore
    cases hbefore
  exact ⟨session, operation, .start, .start, hmay, hclosed, hactive⟩

-- What is shut stays so until an operation opens it, whatever saves and restarts come between.
theorem Run.isShut_or_reopened (htuned : first.IsTuned) (hshut : first.core.IsShut key)
    (hrun : Run first session) : session.core.IsShut key ∨ Reopened key first session := by
  induction hrun with
  | start => exact .inl hshut
  | @step session after seen hrun hstep ih =>
      have hcore := hstep.core (hrun.isTuned htuned)
      rcases ih with hshut | hreopened
      · rcases Bool.eq_false_or_eq_true (after.service.ledger.isActive key) with hactive | hclosed
        · obtain ⟨operation, hseen⟩ := hshut.exists_operation hcore hactive
          exact .inr ((hstep.reopened hseen hshut.ledger hactive).behind hrun)
        · exact .inl (hshut.step hcore hclosed)
      · exact .inr (hreopened.ahead (.step .start hstep))

theorem Run.exists_saving (hidle : first.save = none) (hrun : Run first session) :
    ∃ begun, Saving first begun session := by
  induction hrun with
  | start => exact ⟨first, .start .start hidle⟩
  | @step session after seen hrun hstep ih =>
      by_cases hunderWay : after.save.isSome = true
      · obtain ⟨begun, hsaving⟩ := ih
        exact ⟨begun, hsaving.step hstep hunderWay⟩
      · exact ⟨after, .start (hrun.step hstep) (by simpa using hunderWay)⟩

theorem Saving.run (h : Saving first begun session) : Run first session := by
  induction h with
  | start hrun => exact hrun
  | step _ hstep _ ih => exact ih.step hstep

theorem Saving.run_since (h : Saving first begun session) : Run begun session := by
  induction h with
  | start => exact .start
  | step _ hstep _ ih => exact ih.step hstep

theorem Saving.eq_of_idle (h : Saving first begun session) (hidle : session.save = none) :
    session = begun := by
  cases h with
  | start => rfl
  | step _ _ hunderWay =>
      rw [hidle] at hunderWay
      cases hunderWay

-- The save works on the accounts of the ledger as it was in the beginning.
theorem Saving.isPlanned (h : Saving first begun session) (htuned : first.IsTuned) :
    session.core.IsPlanned (· = begun.service.ledger.saved) := by
  induction h with
  | start _ hidle => exact Core.isPlanned_of_save_eq_none hidle
  | step hsaving hstep _ ih =>
      refine (hstep.core (hsaving.run.isTuned htuned)).isPlanned ih fun hidle => ?_
      obtain rfl := hsaving.eq_of_idle hidle
      rfl

theorem Saving.isActive_or_reopened (h : Saving first begun session) (htuned : first.IsTuned)
    (hclosed : begun.service.ledger.isActive key = false) :
    session.service.ledger.isActive key = false ∨ Reopened key begun session := by
  induction h with
  | start => exact .inl hclosed
  | @step session after seen hsaving hstep hunderWay ih =>
      have hcore := hstep.core (hsaving.run.isTuned htuned)
      rcases ih with hstill | hreopened
      · rcases hcore.ledger_cases hunderWay with hsame | ⟨operation, hseen⟩
        · refine .inl ?_
          rw [show after.service.ledger = session.service.ledger from hsame]
          exact hstill
        · rcases Bool.eq_false_or_eq_true (after.service.ledger.isActive key) with hactive | hafter
          · exact .inr ((hstep.reopened hseen hstill hactive).behind hsaving.run_since)
          · exact .inl hafter
      · exact .inr (hreopened.ahead (.step .start hstep))

-- A save that succeeds has stored these accounts and done nothing else.
theorem Saving.core_eq (h : Saving first begun session) (htuned : first.IsTuned)
    (hstep : Step session seen after) (hsaved : seen.IsSaved) :
    (Plan.against session.layout session.store begun.service.ledger.saved).badKeys = [] ∧
      after.core = { session.core with
        store := session.store.applyAll
          (Plan.against session.layout session.store begun.service.ledger.saved).commands
        save := none } := by
  have hidle : session.core.save = none →
      session.core.ledger.saved = begun.service.ledger.saved := by
    intro hnone
    rw [← h.eq_of_idle hnone]
    rfl
  obtain ⟨entries, rfl, hbad, hafter⟩ :=
    (hstep.core (h.run.isTuned htuned)).saved_cases hsaved (h.isPlanned htuned) hidle
  exact ⟨hbad, hafter⟩

section Account

variable {account : Account}

theorem Saving.isClosed (h : Saving first begun session) (htuned : first.IsTuned)
    (hstep : Step session seen after) (hsaved : seen.IsSaved)
    (hlive : begun.service.ledger.get? key = some account) (hclosed : account.status = .closed)
    (hinSync : account.outOfSync = false) : after.store.IsClosed after.layout key := by
  obtain ⟨hbad, hafter⟩ := h.core_eq htuned hstep hsaved
  have hmem := (Ledger.mem_saved_iff _ key account).mpr ⟨hlive, hinSync⟩
  have hrecord := Plan.record?_against session.layout session.store
    begun.service.ledger.nodup_saved hbad hmem
  refine ⟨account.asRecorded, ?_, hclosed⟩
  rw [show after.layout = session.layout from congrArg Core.layout hafter,
    show after.store = _ from congrArg Core.store hafter, hrecord]

theorem Saving.record?_eq (h : Saving first begun session) (htuned : first.IsTuned)
    (hstep : Step session seen after) (hsaved : seen.IsSaved)
    (hlive : begun.service.ledger.get? key = some account) (houtOfSync : account.outOfSync = true) :
    after.store.record? after.layout key = session.store.record? session.layout key := by
  obtain ⟨-, hafter⟩ := h.core_eq htuned hstep hsaved
  have hnot : ∀ other, (key, other) ∉ begun.service.ledger.saved := by
    intro other hmem
    obtain ⟨hother, hinSync⟩ := (Ledger.mem_saved_iff _ key other).mp hmem
    obtain rfl : account = other := Option.some.inj (hlive.symm.trans hother)
    rw [houtOfSync] at hinSync
    cases hinSync
  have hvalue := Plan.value?_against_of_notEntry session.layout session.store session.store hnot
  rw [show after.layout = session.layout from congrArg Core.layout hafter,
    show after.store = _ from congrArg Core.store hafter, Store.record?, hvalue, Store.record?]

theorem Saving.reopened (h : Saving first begun session) (htuned : first.IsTuned)
    (hstep : Step session seen after) (hsaved : seen.IsSaved)
    (hlive : begun.service.ledger.get? key = some account) (hclosed : account.status = .closed)
    (hnotOpen : ¬after.store.IsOpen after.layout key) {later : Session} (hlater : Run after later)
    (hactive : later.service.ledger.isActive key = true) : Reopened key begun later := by
  obtain ⟨-, hafter⟩ := h.core_eq htuned hstep hsaved
  have hbegun : begun.service.ledger.isActive key = false := by
    rw [Ledger.isActive, hlive]
    exact decide_eq_false (by rw [hclosed]; decide)
  rcases h.isActive_or_reopened htuned hbegun with hstill | hreopened
  · have hledger : after.core.ledger.isActive key = false := by
      rw [hafter]
      exact hstill
    have hsave : after.core.SavesClosed key := by
      rw [hafter]
      exact Core.isPlanned_of_save_eq_none rfl
    have htunedAfter := hstep.isTuned (h.run.isTuned htuned)
    rcases hlater.isShut_or_reopened htunedAfter ⟨hledger, hnotOpen, hsave⟩ with
      hshut | hreopened
    · rw [show later.service.ledger.isActive key = false from hshut.ledger] at hactive
      cases hactive
    · exact hreopened.behind (h.run_since.step hstep)
  · exact hreopened.ahead (.trans (.step .start hstep) hlater)

end Account

-- A save that succeeds stores every account as a closed one that was closed and in sync when the
-- save began. It leaves alone what is stored of an account out of sync, which may be open. Where
-- nothing open is stored in the end, no restart opens the account: it takes an operation.
theorem closing_is_durable {settings : ServiceSettings} {backend : Backend}
    (hrun : Run (start settings backend) session) (hstep : Step session seen after)
    (hsaved : seen.IsSaved) :
    (∃ begun, Saving (start settings backend) begun session) ∧
    ∀ begun, Saving (start settings backend) begun session → ∀ key account,
      begun.service.ledger.get? key = some account → account.status = .closed →
      (account.outOfSync = false → after.store.IsClosed after.layout key) ∧
      (account.outOfSync = true →
        after.store.record? after.layout key = session.store.record? session.layout key) ∧
      (¬after.store.IsOpen after.layout key → ∀ later, Run after later →
        later.service.ledger.isActive key = true → Reopened key begun later) := by
  have htuned : (start settings backend).IsTuned := rfl
  refine ⟨hrun.exists_saving rfl, fun begun hsaving key account hlive hclosed => ⟨?_, ?_, ?_⟩⟩
  · exact hsaving.isClosed htuned hstep hsaved hlive hclosed
  · exact hsaving.record?_eq htuned hstep hsaved hlive
  · intro hnotOpen later hlater
    exact hsaving.reopened htuned hstep hsaved hlive hclosed hnotOpen hlater

section Runs

def restarted (session : Session) : Session := ⟨session.service.restart.load.1, none⟩

-- An account that was saved as an open one.
def opening : Session := ((start .default .empty).perform (.create ⟨"a"⟩ .budget)).saved

theorem run_opening : Run (start .default .empty) opening :=
  .saved (.step .start (.operate _ _))

-- It is closed after it has spent more than it has.
def overspent : Session :=
  (opening.perform (.reportSpend ⟨"a"⟩ ⟨.ofList [("USD", 5)]⟩)).perform (.close ⟨"a"⟩)

-- The next save succeeds, and the account is open after a restart that nothing else came before.
theorem overspent_comes_back :
    Saving (start .default .empty) overspent overspent ∧
      Step overspent (event (overspent.service.beginSave 0).2) (overspent.beginSave 0) ∧
      (event (overspent.service.beginSave 0).2).IsSaved ∧
      (∃ account, overspent.service.ledger.get? ⟨"a"⟩ = some account ∧ account.status = .closed) ∧
      (overspent.beginSave 0).store.IsOpen (overspent.beginSave 0).layout ⟨"a"⟩ ∧
      (overspent.beginSave 0).service.restart.load.2.status = .success ∧
      (overspent.beginSave 0).restarted.service.ledger.isActive ⟨"a"⟩ = true := by
  have hrun : Run (start .default .empty) overspent :=
    .step (.step run_opening (.operate _ _)) (.operate _ _)
  obtain ⟨hidle, hclosed, hstored, hload, hactive⟩ :
      overspent.save = none ∧
        (overspent.service.ledger.get? ⟨"a"⟩).map (·.status) = some .closed ∧
        (overspent.beginSave 0).store.record? (overspent.beginSave 0).layout ⟨"a"⟩ =
          some (.new ⟨"a"⟩ .budget) ∧
        (overspent.beginSave 0).service.restart.load.2.status = .success ∧
        (overspent.beginSave 0).restarted.service.ledger.isActive ⟨"a"⟩ = true := by
    decide +kernel
  exact ⟨.start hrun hidle, .trigger _ 0, by decide +kernel, Option.map_eq_some_iff.mp hclosed,
    ⟨_, hstored, rfl⟩, hload, hactive⟩

-- The same account, in sync when it is closed.
def closing : Session := opening.perform (.close ⟨"a"⟩)

def planned : Session :=
  (closing.beginSave 0).resumeSave (.reading closing.service.ledger.saved) ⟨0, 0⟩

def closingPlan : Plan := Plan.against closing.layout closing.store closing.service.ledger.saved

theorem saving_planned : Saving (start .default .empty) closing planned := by
  have hrun : Run (start .default .empty) closing := .step run_opening (.operate _ _)
  obtain ⟨hidle, hbegun, hreading, hplanned⟩ :
      closing.save = none ∧ (closing.beginSave 0).save.isSome = true ∧
        (closing.beginSave 0).save = some (.reading closing.service.ledger.saved) ∧
        planned.save.isSome = true := by
    decide +kernel
  exact .step (.step (.start hrun hidle) (.trigger _ 0) hbegun) (.wake _ _ ⟨0, 0⟩ hreading) hplanned

theorem closing_is_durable_in_sync :
    (planned.resumeSave (.writing closingPlan) ⟨0, 0⟩).store.IsClosed ⟨"banker"⟩ ⟨"a"⟩ ∧
      ∀ later, Run (planned.resumeSave (.writing closingPlan) ⟨0, 0⟩) later →
        later.service.ledger.isActive ⟨"a"⟩ = true → Reopened ⟨"a"⟩ closing later := by
  obtain ⟨hwriting, hlayout, hlive⟩ :
      planned.save = some (.writing closingPlan) ∧
        (planned.resumeSave (.writing closingPlan) ⟨0, 0⟩).layout = ⟨"banker"⟩ ∧
        (closing.service.ledger.get? ⟨"a"⟩).map (fun account =>
          (account.status, account.outOfSync)) = some (.closed, false) := by
    decide +kernel
  obtain ⟨account, hlive, hpair⟩ := Option.map_eq_some_iff.mp hlive
  obtain ⟨hclosed, hinSync⟩ := Prod.mk.inj hpair
  have hstep := Step.wake planned (.writing closingPlan) ⟨0, 0⟩ hwriting
  obtain ⟨-, hdurable⟩ := closing_is_durable saving_planned.run hstep (by decide +kernel)
  obtain ⟨hstored, -, hlater⟩ := hdurable closing saving_planned ⟨"a"⟩ account hlive hclosed
  have hend := hstored hinSync
  exact ⟨hlayout ▸ hend, hlater hend.not_isOpen⟩

end Runs

end Openings

end Session

end ShardedLedger
