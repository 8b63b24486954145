import ShardedLedger.Proofs.Persistence.Session

namespace ShardedLedger

namespace Event

-- An operation on a valid key that comes to its end, and a load that reaches the store.
def IsRegular (ledger : Ledger) : Event → Prop
  | .operated operation => operation.key.IsValid ∧ (operation.apply ledger).Completes
  | .loaded result => result.status ≠ .persistenceError
  | _ => True

-- Neither a save nor a load finds the stored data at odds with the ledger.
def IsConsistent : Event → Prop
  | .saved result => result.status ≠ .dataInconsistency
  | .loaded result => result.status ≠ .dataInconsistency
  | _ => True

end Event

namespace Session

theorem isRegular_event (ledger : Ledger) (progress : Service.SaveProgress) :
    (event progress).IsRegular ledger := by
  cases progress <;> trivial

namespace Core

-- The entries of a save that runs beside the ledger: each is no later than its account and no
-- earlier than its record.
structure Snapshot (core : Core) (entries : List (Key × Account)) : Prop where
  nodup : (entries.map (·.1)).Nodup
  named : ∀ key account, (key, account) ∈ entries → key.IsValid ∧ account.name = key
  live : ∀ key account, (key, account) ∈ entries →
    ∃ now, core.ledger.get? key = some now ∧ account.IsBehind now
  stored : ∀ key account, (key, account) ∈ entries →
    ∀ old, core.store.record? core.layout key = some old → old.IsBehind account

-- What a save under way is about to do was decided on the store as it still is.
def IsInFlight (core : Core) : Save → Prop
  | .reading entries => core.Snapshot entries
  | .writing plan => ∃ entries, core.Snapshot entries ∧
      plan = Plan.against core.layout core.store entries ∧ plan.badKeys = []

-- Whatever is stored is the record of a living account, of its version or of an earlier one, and
-- it is indexed.
structure Follows (core : Core) : Prop where
  named : core.ledger.WellNamed
  written : ∀ name text, core.store.value? name = some text →
    ∃ account : Account, account.name.IsValid ∧
      name = core.layout.valueKey account.name.text ∧ text = account.storedText
  behind : ∀ key old, core.store.record? core.layout key = some old →
    ∃ live, core.ledger.get? key = some live ∧ old.IsBehind live
  indexed : ∀ member, core.store.IsIndexed core.layout member ↔
    ∃ text, core.store.value? (core.layout.valueKey member) = some text
  inFlight : ∀ save, core.save = some save → core.IsInFlight save

theorem Follows.value?_eq_some {core : Core} (h : core.Follows) {key : Key} {text : String}
    (htext : core.store.value? (core.layout.valueKey key.text) = some text) :
    ∃ account : Account, key.IsValid ∧ account.name = key ∧ text = account.storedText := by
  obtain ⟨account, hvalid, hname, rfl⟩ := h.written _ _ htext
  have hkey : account.name = key := (core.layout.key_eq_of_valueKey_eq hname).symm
  exact ⟨account, hkey ▸ hvalid, hkey, rfl⟩

section Snapshots

variable {core : Core} {entries : List (Key × Account)}

-- No entry meets a record of a later version.
theorem Follows.badKeys_eq_nil (h : core.Follows) (hentries : core.Snapshot entries) :
    (Plan.against core.layout core.store entries).badKeys = [] := by
  rw [Plan.badKeys_against_eq_nil_iff]
  intro key account hmem
  cases htext : core.store.value? (core.layout.valueKey key.text) with
  | none => rfl
  | some text =>
      obtain ⟨old, -, -, rfl⟩ := h.value?_eq_some htext
      have hold := Plan.record?_of_storedText core.layout core.store htext
      have hversion : old.version ≤ account.version :=
        (hentries.stored key account hmem _ hold).version_le
      rw [Plan.forbids_storedText]
      simpa using hversion

theorem Follows.snapshot_saved (h : core.Follows) : core.Snapshot core.ledger.saved where
  nodup := core.ledger.nodup_saved
  named key account hmem := h.named key account ((core.ledger.mem_saved_iff key account).mp hmem).1
  live key account hmem :=
    ⟨account, ((core.ledger.mem_saved_iff key account).mp hmem).1, .refl account⟩
  stored key account hmem old hold := by
    obtain ⟨live, hlive, hbehind⟩ := h.behind key old hold
    rw [((core.ledger.mem_saved_iff key account).mp hmem).1] at hlive
    cases hlive
    exact hbehind

theorem Snapshot.extends (hentries : core.Snapshot entries) {ledger : Ledger}
    (hledger : core.ledger.Extends ledger) : { core with ledger }.Snapshot entries where
  nodup := hentries.nodup
  named := hentries.named
  live key account hmem := by
    obtain ⟨now, hnow, hbehind⟩ := hentries.live key account hmem
    obtain ⟨later, hlater, hbehind'⟩ := hledger.kept key now hnow
    exact ⟨later, hlater, hbehind.trans hbehind'⟩
  stored := hentries.stored

end Snapshots

section Steps

variable {core : Core}

theorem Follows.operated (h : core.Follows) {ledger : Ledger}
    (hledger : core.ledger.Extends ledger) : { core with ledger }.Follows where
  named := hledger.named h.named
  written := h.written
  behind key old hold := by
    obtain ⟨live, hlive, hbehind⟩ := h.behind key old hold
    obtain ⟨later, hlater, hbehind'⟩ := hledger.kept key live hlive
    exact ⟨later, hlater, hbehind.trans hbehind'⟩
  indexed := h.indexed
  inFlight save hsave := by
    have hflight := h.inFlight save hsave
    cases save with
    | reading entries => exact Snapshot.extends hflight hledger
    | writing plan =>
        obtain ⟨entries, hentries, hplan, hbad⟩ := hflight
        exact ⟨entries, hentries.extends hledger, hplan, hbad⟩

theorem Follows.withSave (h : core.Follows) {save : Option Save}
    (hsave : ∀ pending, save = some pending → core.IsInFlight pending) :
    { core with save }.Follows where
  named := h.named
  written := h.written
  behind := h.behind
  indexed := h.indexed
  inFlight := by
    intro pending hpending
    have hflight := hsave pending hpending
    cases pending with
    | reading entries => exact ⟨hflight.nodup, hflight.named, hflight.live, hflight.stored⟩
    | writing plan =>
        obtain ⟨entries, hentries, hplan, hbad⟩ := hflight
        exact ⟨entries, ⟨hentries.nodup, hentries.named, hentries.live, hentries.stored⟩,
          hplan, hbad⟩

theorem Follows.committed (h : core.Follows) {entries : List (Key × Account)}
    (hentries : core.Snapshot entries) :
    { core with
      store := core.store.applyAll (Plan.against core.layout core.store entries).commands
      save := none }.Follows where
  named := h.named
  written name text htext := by
    rcases Plan.value?_against_cases core.layout core.store core.store hentries.nodup name with
      hkept | ⟨key, account, hmem, hname, -, hnew⟩
    · exact h.written name text (hkept ▸ htext)
    · obtain ⟨hvalid, hkey⟩ := hentries.named key account hmem
      rw [htext, Option.some.injEq] at hnew
      exact ⟨account, hkey ▸ hvalid, hkey ▸ hname, hnew⟩
  behind key new hnew := by
    rcases Plan.record?_against_cases core.layout core.store core.store hentries.nodup key with
      hkept | ⟨account, hmem, hrecord⟩
    · exact h.behind key new (hkept.symm.trans hnew)
    · obtain rfl : account.asRecorded = new := Option.some.inj (hrecord.symm.trans hnew)
      exact hentries.live key account hmem
  indexed := Plan.isIndexed_against_iff core.layout core.store hentries.nodup h.indexed
  inFlight save hsave := by cases hsave

theorem Follows.isGood (h : core.Follows) {member : String}
    (hmember : core.store.IsIndexed core.layout member) :
    Load.IsGood core.layout core.store member := by
  obtain ⟨text, htext⟩ := (h.indexed member).mp hmember
  obtain ⟨account, hvalid, hname, rfl⟩ := @Follows.value?_eq_some core h ⟨member⟩ text htext
  exact Load.isGood_of_storedText htext hvalid hname

-- A load finds every record under its name, so it never refuses what is stored.
theorem Follows.outcome_ne_error (h : core.Follows) (result : SaveResult) :
    Load.outcome core.layout core.store ≠ .error result := by
  obtain ⟨ledger, hledger, -⟩ := Load.outcome_eq_ok fun _ => h.isGood
  simp [hledger]

theorem Follows.loaded (h : core.Follows) {ledger : Ledger}
    (hledger : Load.outcome core.layout core.store = .ok ledger) :
    { core with ledger, save := none }.Follows := by
  obtain ⟨records, hrecords, hget, hnone⟩ := Load.outcome_eq_ok fun _ => h.isGood
  rw [hrecords, Except.ok.injEq] at hledger
  subst hledger
  refine ⟨Ledger.wellNamed_repair ?_, h.written, ?_, h.indexed, fun save hsave => by cases hsave⟩
  · intro key account haccount
    by_cases hkey : core.store.IsIndexed core.layout key.text
    · obtain ⟨stored, hrecord, hvalid, hname⟩ := h.isGood hkey
      rw [hget key hkey, hrecord] at haccount
      cases haccount
      exact ⟨hvalid, hname⟩
    · rw [hnone key hkey] at haccount
      cases haccount
  · intro key old hold
    obtain ⟨text, htext, -⟩ := Option.bind_eq_some_iff.mp hold
    have hkey := (h.indexed key.text).mpr ⟨text, htext⟩
    exact ⟨old, Ledger.get?_repair_of_some ((hget key hkey).trans hold), .refl old⟩

theorem Follows.step (h : core.Follows) {seen : Event} {after : Core}
    (hregular : seen.IsRegular core.ledger) (hstep : core.Step seen after) : after.Follows := by
  cases hstep with
  | idle => exact h
  | operated operation =>
      exact h.operated (Ledger.apply_extends hregular.1 hregular.2)
  | began hidle =>
      exact h.withSave fun pending hpending => by
        cases hpending
        exact h.snapshot_saved
  | unneeded => exact h
  | dropped => exact h.withSave fun pending hpending => by cases hpending
  | failed => exact h.withSave fun pending hpending => by cases hpending
  | refused => exact h.withSave fun pending hpending => by cases hpending
  | upToDate => exact h.withSave fun pending hpending => by cases hpending
  | planned entries hsave hbad =>
      exact h.withSave fun pending hpending => by
        cases hpending
        exact ⟨entries, h.inFlight _ hsave, rfl, hbad⟩
  | committed plan result hsave hstatus =>
      obtain ⟨entries, hentries, rfl, -⟩ := h.inFlight _ hsave
      exact h.committed hentries
  | unreached result hstatus => exact absurd hstatus hregular
  | loadRefused result houtcome => exact absurd houtcome (h.outcome_ne_error result)
  | loaded ledger houtcome => exact h.loaded houtcome

theorem Follows.step_isConsistent (h : core.Follows) {seen : Event} {after : Core}
    (hstep : core.Step seen after) : seen.IsConsistent := by
  cases hstep with
  | idle => trivial
  | operated => trivial
  | began => trivial
  | unneeded result _ _ hstatus => simp [Event.IsConsistent, hstatus]
  | dropped => trivial
  | failed save result _ hstatus => simp [Event.IsConsistent, hstatus]
  | refused entries result hsave hbad => exact absurd (h.badKeys_eq_nil (h.inFlight _ hsave)) hbad
  | upToDate entries result _ _ _ hstatus => simp [Event.IsConsistent, hstatus]
  | planned => trivial
  | committed plan result _ hstatus => simp [Event.IsConsistent, hstatus]
  | unreached result hstatus => simp [Event.IsConsistent, hstatus]
  | loadRefused result houtcome => exact absurd houtcome (h.outcome_ne_error result)
  | loaded => exact nofun

-- Only the transaction writes, and each of its entries is behind none of its records.
theorem Follows.step_keeps_versions (h : core.Follows) {seen : Event} {after : Core}
    (hstep : core.Step seen after) {key : Key} {old : Account}
    (hold : core.store.record? core.layout key = some old) :
    ∃ new, after.store.record? after.layout key = some new ∧ old.version ≤ new.version := by
  have hsame : ∃ new, core.store.record? core.layout key = some new ∧ old.version ≤ new.version :=
    ⟨old, hold, UInt64.le_refl _⟩
  cases hstep with
  | committed plan result hsave hstatus =>
      obtain ⟨entries, hentries, rfl, -⟩ := h.inFlight _ hsave
      rcases Plan.record?_against_cases core.layout core.store core.store hentries.nodup key with
        hkept | ⟨account, hmem, hrecord⟩
      · exact ⟨old, hkept.trans hold, UInt64.le_refl _⟩
      · exact ⟨account.asRecorded, hrecord, (hentries.stored key account hmem old hold).version_le⟩
  | _ => exact hsame

end Steps

end Core

section Runs

-- Every session that regular steps lead to from a new service.
inductive Reachable (settings : ServiceSettings) (backend : Backend) : Session → Prop where
  | start : Reachable settings backend (start settings backend)
  | step {session after : Session} {seen : Event} (hrun : Reachable settings backend session)
      (hstep : Step session seen after) (hregular : seen.IsRegular session.service.ledger) :
      Reachable settings backend after

variable {settings : ServiceSettings} {backend : Backend} {session : Session}

theorem follows_start (hempty : backend.store = .empty) :
    (start settings backend).core.Follows := by
  have hcore : (start settings backend).core = ⟨⟨settings.keyPrefix⟩, .empty, .empty, none⟩ :=
    congrArg (Core.mk _ _ · none) hempty
  rw [hcore]
  refine ⟨Ledger.wellNamed_empty, ?_, ?_, ?_, ?_⟩
  · intro name text htext
    cases htext
  · intro key old hold
    cases hold
  · intro member
    constructor
    · rintro (hmember | hmember) <;> cases hmember
    · rintro ⟨text, htext⟩
      cases htext
  · intro save hsave
    cases hsave

theorem Reachable.follows (hempty : backend.store = .empty)
    (hrun : Reachable settings backend session) : session.IsTuned ∧ session.core.Follows := by
  induction hrun with
  | start => exact ⟨rfl, follows_start hempty⟩
  | step _ hstep hregular ih =>
      obtain ⟨htuned, hfollows⟩ := ih
      exact ⟨hstep.isTuned htuned, hfollows.step hregular (hstep.core htuned)⟩

-- At every time what is stored is what the ledger holds or held, so nothing that is done next
-- finds an inconsistency or takes a stored account back to an earlier version.
theorem stored_follows_live (hempty : backend.store = .empty)
    (hrun : Reachable settings backend session) :
    (∀ name text, session.service.backend.store.value? name = some text →
      ∃ key value stored live, key.IsValid ∧ name = session.service.layout.valueKey key.text ∧
        Plan.readStored text = some (value, stored) ∧
        session.service.ledger.get? key = some live ∧ stored.version ≤ live.version ∧
        (stored.version = live.version → stored = live.asRecorded)) ∧
    ∀ seen after, Step session seen after → seen.IsConsistent ∧
      ∀ key old, session.service.backend.store.record? session.service.layout key = some old →
        ∃ new, after.service.backend.store.record? after.service.layout key = some new ∧
          old.version ≤ new.version := by
  obtain ⟨htuned, hfollows⟩ := hrun.follows hempty
  constructor
  · intro name text htext
    obtain ⟨account, hvalid, hname, rfl⟩ := hfollows.written name text htext
    have hrecord : session.core.store.record? session.core.layout account.name =
        some account.asRecorded := Plan.record?_of_storedText _ _ (hname ▸ htext)
    obtain ⟨live, hlive, hbehind⟩ := hfollows.behind account.name account.asRecorded hrecord
    exact ⟨account.name, account.value, account.asRecorded, live, hvalid, hname,
      account.readStored_storedText, hlive, hbehind.version_le,
      fun hversion => hbehind.eq_of_version hversion⟩
  · intro seen after hstep
    have hcore := hstep.core htuned
    exact ⟨hfollows.step_isConsistent hcore,
      fun key old hold => hfollows.step_keeps_versions hcore hold⟩

-- A budget set between the two calls of the first save: what is stored stays behind.
def overtaken : Session :=
  let opened := (start .default .empty).perform (.create ⟨"a"⟩ .budget)
  let read := (opened.beginSave 0).resumeSave (.reading [(⟨"a"⟩, .new ⟨"a"⟩ .budget)]) ⟨0, 0⟩
  let spent := read.perform (.setBudget ⟨"a"⟩ .empty)
  spent.resumeSave (.writing (Plan.insertion ⟨"banker"⟩ ⟨"a"⟩ (.new ⟨"a"⟩ .budget))) ⟨0, 0⟩

theorem reachable_overtaken : Reachable .default .empty overtaken := by
  refine .step (.step (.step (.step (.step .start (.operate _ (.create ⟨"a"⟩ .budget)) ?_)
    (.trigger _ 0) (isRegular_event _ _)) (.wake _ _ ⟨0, 0⟩ ?_) (isRegular_event _ _))
    (.operate _ (.setBudget ⟨"a"⟩ .empty)) ?_) (.wake _ _ ⟨0, 0⟩ ?_) (isRegular_event _ _)
  · exact ⟨by decide, fun overflow h => by cases h⟩
  · decide +kernel
  · exact ⟨by decide, fun overflow h => by cases h⟩
  · decide +kernel

theorem stored_follows_live_overtaken :
    (overtaken.service.ledger.get? ⟨"a"⟩).map (·.version) = some 2 ∧
      ∃ key value stored live, key.IsValid ∧ "banker-a" = (Layout.mk "banker").valueKey key.text ∧
        Plan.readStored (Account.new ⟨"a"⟩ .budget).storedText = some (value, stored) ∧
        overtaken.service.ledger.get? key = some live ∧ stored.version ≤ live.version ∧
        (stored.version = live.version → stored = live.asRecorded) := by
  have htext : overtaken.service.backend.store.value? "banker-a" =
      some (Account.new ⟨"a"⟩ .budget).storedText := by decide +kernel
  exact ⟨by decide +kernel, (stored_follows_live rfl reachable_overtaken).1 "banker-a" _ htext⟩

end Runs

end Session

end ShardedLedger
