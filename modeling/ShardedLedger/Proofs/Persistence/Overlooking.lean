import ShardedLedger.Proofs.Persistence.Fleet

namespace ShardedLedger

namespace Service

def LoadProgress.succeeds : LoadProgress → Bool
  | .finished result => result.status = .success
  | .waiting _ _ => false

theorem exists_of_succeeds {ended : Service × LoadProgress} (h : ended.2.succeeds = true) :
    ∃ after result, ended = (after, .finished result) ∧ result.status = .success := by
  rcases ended with ⟨after, result | ⟨load, wait⟩⟩
  · exact ⟨after, result, rfl, of_decide_eq_true h⟩
  · cases h

variable {service : Service}

-- A load that succeeds has put together what it found at its three reads.
theorem gathered_of_loadThrough {now : Nat} {active archive values : Backend} {after : Service}
    {result : SaveResult}
    (hload : service.loadThrough now active archive values = (after, .finished result))
    (hsuccess : result.status = .success) :
    Load.gathered service.layout (Load.members (active.store.members service.layout.activeSet)
      (archive.store.members service.layout.archiveSet)) values.store = .ok after.ledger := by
  have hends := service.loadThrough_ends now active archive values
  rw [hload] at hends
  generalize hgathered : Load.gathered _ _ _ = outcome at hends
  cases hends with
  | unreached _ _ _ hstatus =>
      rw [hstatus] at hsuccess
      cases hsuccess
  | refused _ refusal _ houtcome =>
      have hstatus := Load.status_of_gathered_eq_error (hgathered.trans houtcome)
      rw [show (refusal.record Latency.total).status = refusal.status from rfl, hstatus]
        at hsuccess
      cases hsuccess
  | filled _ _ _ houtcome => exact houtcome

end Service

namespace Plan

variable {layout : Layout} {view store : Store} {key : Key}

-- Nothing but the opening of an account that is stored as a closed one takes it out of the archive.
theorem opens_of_leaves {account : Account} {stored : Option String}
    (hmem : key.text ∈ store.members layout.archiveSet)
    (hnot : key.text ∉ (store.applyAll (forAccount layout key account stored).commands).members
      layout.archiveSet) :
    ∃ text value old, stored = some text ∧ readStored text = some (value, old) ∧
      account.status = .active ∧ old.status = .closed := by
  cases stored with
  | none =>
      refine absurd ?_ hnot
      simp [forAccount, insertion, Store.apply, Store.mem_members_addMember, hmem]
  | some text =>
      rcases hread : readStored text with _ | ⟨value, old⟩
      · simp [forAccount, hread, hmem] at hnot
      · by_cases hversion : account.isSameOrPast old
        · simp only [forAccount, hread, hversion, ite_true] at hnot
          rw [mem_archiveSet_update, not_or, not_and, not_not] at hnot
          exact ⟨text, value, old, rfl, hread, hnot.1 hmem⟩
        · simp [forAccount, hread, hversion, hmem] at hnot

theorem opens_of_leaves_against {entries : List (Key × Account)}
    (hnodup : (entries.map (·.1)).Nodup) (hmem : key.text ∈ store.members layout.archiveSet)
    (hnot : key.text ∉ (store.applyAll (against layout view entries).commands).members
      layout.archiveSet) :
    ∃ account old, (key, account) ∈ entries ∧ view.record? layout key = some old ∧
      account.status = .active ∧ old.status = .closed := by
  by_cases hentry : ∃ account, (key, account) ∈ entries
  · obtain ⟨account, haccount⟩ := hentry
    obtain ⟨before, hbefore, hsets⟩ :=
      mem_members_against_of_mem layout view store hnodup haccount
    rw [hsets] at hnot
    obtain ⟨text, value, old, htext, hread, hopens⟩ :=
      opens_of_leaves ((hbefore layout.archiveSet).mpr hmem) hnot
    have hold : view.record? layout key = some old := by
      rw [Store.record?, htext, Option.bind_some, hread]
      rfl
    exact ⟨account, old, haccount, hold, hopens⟩
  · have hkept := mem_members_against_of_notEntry layout view store (not_exists.mp hentry)
    exact absurd ((hkept _).mpr hmem) hnot

end Plan

namespace Fleet

variable {ι : Type} [DecidableEq ι] {layout : Layout} {first fleet after later : Fleet ι} {i : ι}
  {seen : Event}

theorem Run.trans (hfirst : Run first fleet) (hrun : Run fleet later) : Run first later := by
  induction hrun with
  | start => exact hfirst
  | step _ hstep ih => exact ih.step hstep

-- The store changes by what a service has planned, and by nothing else.
theorem IsSound.store_cases (h : IsSound layout first fleet) (hstep : Step fleet i seen after) :
    after.backend.store = fleet.backend.store ∨ seen.IsSaved ∧ ∃ begun read,
      Run first begun ∧ Run begun read ∧ Run read fleet ∧
      (fleet.sessions i).save = some (.writing (Plan.against layout read.backend.store
        (begun.sessions i).service.ledger.saved)) ∧
      after.backend.store = fleet.backend.store.applyAll (Plan.against layout read.backend.store
        (begun.sessions i).service.ledger.saved).commands := by
  obtain ⟨session, hsession⟩ := hstep
  have htuned : (fleet.session i).IsTuned := h.isTuned i
  rcases (hsession.core htuned).store_cases with hkept | ⟨hsaved, plan, hsave, hstore⟩
  · exact .inl hkept
  · obtain ⟨begun, hbegun, read, hread, hfleet, rfl⟩ := h.isPlanned i _ hsave
    exact .inr ⟨hsaved, begun, read, hbegun, hread, hfleet, hsave, hstore⟩

theorem Run.isIndexed (hfresh : first.IsFresh layout) (hfirst : Run first fleet)
    (hrun : Run fleet later) {member : String}
    (hindexed : fleet.backend.store.IsIndexed layout member) :
    later.backend.store.IsIndexed layout member := by
  induction hrun with
  | start => exact hindexed
  | step hrun hstep ih =>
      rcases ((hfirst.trans hrun).isSound hfresh).store_cases hstep with
        hkept | ⟨-, begun, read, -, -, -, -, hstore⟩
      · rw [hkept]
        exact ih
      · rw [hstore, Plan.isIndexed_against]
        exact .inr ih

-- The account is in the archive alone when the active set is read, and in the active set alone
-- when the archive is read.
def Slips (layout : Layout) (atActive atArchive : Fleet ι) (key : Key) : Prop :=
  key.text ∉ atActive.backend.store.members layout.activeSet ∧
    key.text ∉ atArchive.backend.store.members layout.archiveSet

-- Between the two a save of one of the services reopens the account, whose stored record it found
-- closed.
def ReopenedBetween (layout : Layout) (first before after : Fleet ι) (key : Key) : Prop :=
  ∃ fleet moved i seen, Run before fleet ∧ Step fleet i seen moved ∧ Run moved after ∧
    seen.IsSaved ∧ ∃ begun read account old, Run first begun ∧ Run begun read ∧ Run read fleet ∧
      (fleet.sessions i).save = some (.writing (Plan.against layout read.backend.store
        (begun.sessions i).service.ledger.saved)) ∧
      (begun.sessions i).service.ledger.get? key = some account ∧ account.status = .active ∧
      read.backend.store.record? layout key = some old ∧ old.status = .closed

theorem Run.reopenedBetween (hfresh : first.IsFresh layout) (hfirst : Run first fleet)
    (hrun : Run fleet later) {key : Key}
    (hmem : key.text ∈ fleet.backend.store.members layout.archiveSet)
    (hnot : key.text ∉ later.backend.store.members layout.archiveSet) :
    ReopenedBetween layout first fleet later key := by
  induction hrun with
  | start => exact absurd hmem hnot
  | @step before moved i seen hrun hstep ih =>
      by_cases hbefore : key.text ∈ before.backend.store.members layout.archiveSet
      · rcases ((hfirst.trans hrun).isSound hfresh).store_cases hstep with
          hkept | ⟨hsaved, begun, read, hbegun, hread, hfleet, hsave, hstore⟩
        · exact absurd (hkept ▸ hbefore) hnot
        · rw [hstore] at hnot
          obtain ⟨account, old, hentry, hold, hactive, hclosed⟩ :=
            Plan.opens_of_leaves_against (begun.sessions i).service.ledger.nodup_saved hbefore hnot
          have hlive := ((Ledger.mem_saved_iff _ key account).mp hentry).1
          exact ⟨before, moved, i, seen, hrun, hstep, .start, hsaved, begun, read, account, old,
            hbegun, hread, hfleet, hsave, hlive, hactive, hold, hclosed⟩
      · obtain ⟨found, reopened, j, seen', hfound, hmoves, hlater, hcause⟩ := ih hbefore
        exact ⟨found, reopened, j, seen', hfound, hmoves, hlater.step hstep, hcause⟩

-- A load beside other services brings back every account that was listed when it began, with the
-- two sets read one after the other. It overlooks an account exactly if that is reopened between
-- the two: it has left the archive before the archive is read, for the set that was read before.
theorem load_overlooks_reopened {asked atActive atArchive : Fleet ι} {values : Backend} {now : Nat}
    {loaded : Service} {result : SaveResult} {key : Key} (hfresh : first.IsFresh layout)
    (hasked : Run first asked) (hactive : Run asked atActive) (harchive : Run atActive atArchive)
    (hload : (asked.session i).service.loadThrough now atActive.backend atArchive.backend
      values = (loaded, .finished result))
    (hsuccess : result.status = .success)
    (hindexed : asked.backend.store.IsIndexed layout key.text) :
    (∀ later, Run asked later → later.backend.store.IsIndexed layout key.text) ∧
    (¬Slips layout atActive atArchive key → ∃ account,
      values.store.record? layout key = some account ∧
        loaded.ledger.get? key = some account) ∧
    (Slips layout atActive atArchive key →
      (loaded.ledger.get? key = none ∨ loaded.ledger.get? key = some (.placeholder key)) ∧
        ReopenedBetween layout first atActive atArchive key) := by
  have hkept (later : Fleet ι) (hlater : Run asked later) :
      later.backend.store.IsIndexed layout key.text :=
    Run.isIndexed hfresh hasked hlater hindexed
  have hlayout : (asked.session i).service.layout = layout := (hasked.isSound hfresh).layout_eq i
  have hgathered := Service.gathered_of_loadThrough hload hsuccess
  rw [hlayout] at hgathered
  have hlisted := Load.mem_members_iff (atActive.backend.store.members layout.activeSet)
    (atArchive.backend.store.members layout.archiveSet) key.text
  refine ⟨hkept, fun hslips => ?_, fun hslips => ⟨?_, ?_⟩⟩
  · refine Load.get?_of_mem_gathered (Load.sorted_members _ _) hgathered (hlisted.mpr ?_)
    by_contra hneither
    exact hslips (not_or.mp hneither)
  · refine Load.get?_of_notMem_gathered (Load.sorted_members _ _) hgathered fun hmem => ?_
    exact not_or.mpr hslips (hlisted.mp hmem)
  · have harchived := (hkept atActive hactive).resolve_left hslips.1
    exact Run.reopenedBetween hfresh (hasked.trans hactive) harchive harchived hslips.2

section Reopening

-- A whole run of one of the services is one of the fleet.
theorem Run.of_session {session last : Session} (hfirst : Run first (fleet.put i session))
    (hrun : Session.Run session last) : Run first (fleet.put i last) := by
  induction hrun with
  | start => exact hfirst
  | @step session last seen hrun hstep ih =>
      have hsession : (fleet.put i session).session i = session := by simp [put, Fleet.session]
      have hput : (fleet.put i session).put i last = fleet.put i last := by simp [put]
      exact hput ▸ ih.step (.act seen last (hsession.symm ▸ hstep))

def newcomers : Fleet Bool := ⟨.empty, fun _ => .start .default .empty⟩

def created : Session := (Session.start .default .empty).perform (.create ⟨"a"⟩ .budget)

def shelved : Session := (created.saved.perform (.close ⟨"a"⟩)).saved

-- The account is in the archive, and the transaction that reopens it waits.
def reopening : Session := ((shelved.perform (.create ⟨"a"⟩ .budget)).beginSave 0).woken

def awaiting : Fleet Bool := newcomers.put true reopening

def reopened : Fleet Bool := newcomers.put true reopening.woken

theorem run_awaiting : Run newcomers awaiting := by
  have hcreated : Run newcomers (newcomers.put true created) :=
    .step .start (.act _ _ (.operate _ _))
  have hshelved : Session.Run created shelved := (Session.Run.start.saved.step (.operate _ _)).saved
  exact hcreated.of_session (.woken (.step (.step hshelved (.operate _ _)) (.trigger _ 0)))

-- The other service reads the active set before that transaction and the archive after it.
def overlooking : Service × Service.LoadProgress :=
  (awaiting.session false).service.loadThrough 0 awaiting.backend reopened.backend reopened.backend

theorem load_overlooks_reopened_race :
    awaiting.backend.store.IsIndexed ⟨"banker"⟩ "a" ∧
      (∃ loaded result, overlooking = (loaded, .finished result) ∧ result.status = .success ∧
        loaded.ledger.get? ⟨"a"⟩ = none) ∧
      ReopenedBetween ⟨"banker"⟩ newcomers awaiting reopened ⟨"a"⟩ := by
  have hfresh : newcomers.IsFresh ⟨"banker"⟩ := ⟨fun _ => rfl, fun _ => rfl, fun _ => rfl⟩
  have hmoves : Run awaiting reopened := Run.of_session .start (.woken .start)
  obtain ⟨hactive, harchived, hleft, hnone, hsucceeds⟩ :
      "a" ∉ awaiting.backend.store.members "banker:accounts" ∧
        "a" ∈ awaiting.backend.store.members "banker:archive" ∧
        "a" ∉ reopened.backend.store.members "banker:archive" ∧
        overlooking.1.ledger.get? ⟨"a"⟩ = none ∧ overlooking.2.succeeds = true := by
    decide +kernel
  obtain ⟨loaded, result, hload, hsuccess⟩ := Service.exists_of_succeeds hsucceeds
  rw [hload] at hnone
  obtain ⟨-, -, hslips⟩ := load_overlooks_reopened hfresh run_awaiting .start hmoves hload hsuccess
    (.inr harchived)
  exact ⟨.inr harchived, ⟨loaded, result, hload, hsuccess, hnone⟩, (hslips ⟨hactive, hleft⟩).2⟩

end Reopening

end Fleet

end ShardedLedger
