import ShardedLedger.Proofs.Ledger.Versions
import ShardedLedger.Proofs.Persistence.Session

namespace ShardedLedger

namespace Event

def edits : Event → Nat
  | .operated _ => 1
  | _ => 0

end Event

namespace Session

namespace Core

variable {core after : Core} {seen : Event} {taken : List (Key × Account) → Prop}

-- Nothing but a transaction changes a stored value, and it does so exactly for an account of the
-- same version or a later one with another record.
theorem Step.value?_ne_iff (hstep : core.Step seen after) (h : core.IsPlanned taken)
    (hnodup : ∀ entries, taken entries → (entries.map (·.1)).Nodup) {name text : String}
    (htext : core.store.value? name = some text) :
    after.store.value? name ≠ some text ↔ seen.IsSaved ∧ ∃ entries key account, taken entries ∧
      core.save = some (.writing (Plan.against core.layout core.store entries)) ∧
      (key, account) ∈ entries ∧ name = core.layout.valueKey key.text ∧
      Plan.rewrites account (some text) = true := by
  constructor
  · intro hne
    rcases hstep.store_cases with hkept | ⟨hsaved, plan, hsave, hstore⟩
    · exact absurd (hkept ▸ htext) hne
    · obtain ⟨entries, htaken, rfl, -⟩ := h _ hsave
      rcases Plan.value?_against_cases core.layout core.store core.store
        (hnodup entries htaken) name with hkept | ⟨key, account, hmem, hname, hrewrites, -⟩
      · exact absurd (hstore ▸ hkept.trans htext) hne
      · exact ⟨hsaved, entries, key, account, htaken, hsave, hmem, hname, htext ▸ hrewrites⟩
  · rintro ⟨hsaved, entries, key, account, htaken, hwriting, hmem, rfl, hrewrites⟩
    have hnew := Plan.value?_against core.layout core.store core.store (hnodup entries htaken) hmem
    rw [htext, if_pos hrewrites] at hnew
    rw [hstep.store_committed hsaved hwriting, hnew, ne_eq, Option.some.injEq]
    exact Plan.storedText_ne_of_rewrites hrewrites

-- A ledger that no load fills has no account of a version above the number of operations.
theorem Step.versionAt_le (hstep : core.Step seen after) (hload : ¬seen.IsLoaded) {edits : Nat}
    (h : ∀ key, core.ledger.versionAt key ≤ edits) (key : Key) :
    after.ledger.versionAt key ≤ edits + seen.edits := by
  have hkept := h key
  cases hstep with
  | operated operation =>
      have honce := core.ledger.versionAt_apply_le operation key
      exact Nat.le_trans honce (Nat.add_le_add_right hkept 1)
  | unreached => exact Nat.zero_le _
  | loadRefused => exact Nat.zero_le _
  | loaded => exact absurd rfl hload
  | _ => exact Nat.le_trans hkept (Nat.le_add_right _ _)

end Core

section Runs

-- Every session that steps without a load that succeeds lead to, with the number of operations
-- among them.
inductive Unloaded (first : Session) : Nat → Session → Prop where
  | start : Unloaded first 0 first
  | step {edits : Nat} {session after : Session} {seen : Event}
      (hrun : Unloaded first edits session) (hstep : Step session seen after)
      (hload : ¬seen.IsLoaded) : Unloaded first (edits + seen.edits) after

variable {first session after : Session} {seen : Event} {edits : Nat}

-- The entries of a save are those of the ledger as it was when the save began.
def TakenSince (first : Session) (edits : Nat) (entries : List (Key × Account)) : Prop :=
  ∃ earlier begun, earlier ≤ edits ∧ Unloaded first earlier begun ∧
    entries = begun.service.ledger.saved

theorem Unloaded.isTuned (htuned : first.IsTuned) (hrun : Unloaded first edits session) :
    session.IsTuned := by
  induction hrun with
  | start => exact htuned
  | step _ hstep _ ih => exact hstep.isTuned ih

theorem Unloaded.isPlanned (htuned : first.IsTuned) (hidle : first.save = none)
    (hrun : Unloaded first edits session) : session.core.IsPlanned (TakenSince first edits) := by
  induction hrun with
  | start => exact Core.isPlanned_of_save_eq_none hidle
  | @step edits _ _ seen hrun hstep _ ih =>
      refine ((hstep.core (hrun.isTuned htuned)).isPlanned ih fun _ =>
        ⟨edits, _, Nat.le_refl _, hrun, rfl⟩).mono ?_
      rintro entries ⟨earlier, begun, hearlier, hbegun, rfl⟩
      exact ⟨earlier, begun, Nat.le_trans hearlier (Nat.le_add_right _ _), hbegun, rfl⟩

theorem Unloaded.versionAt_le (htuned : first.IsTuned) (hempty : first.service.ledger = .empty)
    (hrun : Unloaded first edits session) (key : Key) :
    session.service.ledger.versionAt key ≤ edits := by
  induction hrun generalizing key with
  | start =>
      rw [hempty]
      exact Nat.zero_le _
  | step hrun hstep hload ih => exact (hstep.core (hrun.isTuned htuned)).versionAt_le hload ih key

theorem isTuned_restart (service : Service) : IsTuned ⟨service.restart.load.1, none⟩ := by
  have hloads := service.restart.load_loads
  generalize service.restart.load = outcome at hloads
  cases hloads <;> rfl

theorem ledger_restart_of_failed {service : Service}
    (hfailed : service.restart.load.2.status ≠ .success) :
    service.restart.load.1.ledger = .empty := by
  have hloads := service.restart.load_loads
  generalize service.restart.load = outcome at hloads hfailed
  cases hloads with
  | unreached => rfl
  | refused => rfl
  | filled => exact absurd rfl hfailed

-- After a load that failed, what is stored for a name lasts until a transaction puts an account
-- in its place that was not out of sync, of the same or a later version and with another record
-- when the save began. The versions of new accounts start anew, so only a record of a version
-- above the number of operations is safe whatever they are.
theorem stored_value_changes_iff {service : Service}
    (hfailed : service.restart.load.2.status ≠ .success)
    (hrun : Unloaded ⟨service.restart.load.1, none⟩ edits session)
    (hstep : Step session seen after) {name text : String}
    (htext : session.service.backend.store.value? name = some text) :
    (after.service.backend.store.value? name ≠ some text ↔ seen.IsSaved ∧
      ∃ earlier begun key account value stored, earlier ≤ edits ∧
        Unloaded ⟨service.restart.load.1, none⟩ earlier begun ∧
        session.save = some (.writing (Plan.against session.service.layout
          session.service.backend.store begun.service.ledger.saved)) ∧
        begun.service.ledger.get? key = some account ∧ account.outOfSync = false ∧
        name = session.service.layout.valueKey key.text ∧
        Plan.readStored text = some (value, stored) ∧ stored.version ≤ account.version ∧
        account.value ≠ value) ∧
    ∀ value stored, Plan.readStored text = some (value, stored) → edits < stored.version.toNat →
      after.service.backend.store.value? name = some text := by
  have htuned := isTuned_restart service
  have hempty := ledger_restart_of_failed hfailed
  have hplanned := hrun.isPlanned htuned rfl
  have hchanges := (hstep.core (hrun.isTuned htuned)).value?_ne_iff hplanned
    (fun entries ⟨_, begun, _, _, hentries⟩ => hentries ▸ begun.service.ledger.nodup_saved) htext
  constructor
  · refine hchanges.trans (and_congr_right fun _ => ?_)
    constructor
    · rintro ⟨_, key, account, ⟨earlier, begun, hearlier, hbegun, rfl⟩, hsave, hmem, hname,
        hrewrites⟩
      obtain ⟨hlive, hinSync⟩ := (begun.service.ledger.mem_saved_iff key account).mp hmem
      obtain ⟨value, stored, hread, hversion, hvalue⟩ :=
        (Plan.rewrites_some_iff account text).mp hrewrites
      exact ⟨earlier, begun, key, account, value, stored, hearlier, hbegun, hsave, hlive, hinSync,
        hname, hread, hversion, hvalue⟩
    · rintro ⟨earlier, begun, key, account, value, stored, hearlier, hbegun, hsave, hlive, hinSync,
        hname, hread, hversion, hvalue⟩
      exact ⟨_, key, account, ⟨earlier, begun, hearlier, hbegun, rfl⟩, hsave,
        (begun.service.ledger.mem_saved_iff key account).mpr ⟨hlive, hinSync⟩, hname,
        (Plan.rewrites_some_iff account text).mpr ⟨value, stored, hread, hversion, hvalue⟩⟩
  · intro value stored hread hversion
    by_contra hne
    obtain ⟨-, _, key, account, ⟨earlier, begun, hearlier, hbegun, rfl⟩, -, hmem, -, hrewrites⟩ :=
      hchanges.mp hne
    obtain ⟨value', stored', hread', hpast, -⟩ := (Plan.rewrites_some_iff account text).mp hrewrites
    rw [hread] at hread'
    cases hread'
    have hbound := hbegun.versionAt_le htuned hempty key
    rw [Ledger.versionAt_of_some ((begun.service.ledger.mem_saved_iff key account).mp hmem).1]
      at hbound
    rw [UInt64.le_iff_toNat_le] at hpast
    omega

-- A funded account beside one whose record is missing.
def funded : Account := { Account.new ⟨"a"⟩ .budget with budget := ⟨.ofList [("USD", 5)]⟩ }

def damaged : Service :=
  .new .default { Backend.empty with
    store := ((Store.empty.setValue "banker-a" funded.storedText).addMember "banker:accounts" "a"
      ).addMember "banker:accounts" "b" }

-- The funded account is created anew, without its funds, and the transaction waits.
def recreated : Session :=
  (((⟨damaged.restart.load.1, none⟩ : Session).perform (.create ⟨"a"⟩ .budget)).beginSave 0
    ).resumeSave (.reading [(⟨"a"⟩, .new ⟨"a"⟩ .budget)]) ⟨0, 0⟩

def replacement : Plan :=
  Plan.against ⟨"banker"⟩ recreated.service.backend.store [(⟨"a"⟩, .new ⟨"a"⟩ .budget)]

theorem unloaded_recreated :
    ∃ edits, Unloaded ⟨damaged.restart.load.1, none⟩ edits recreated := by
  have hquiet (progress : Service.SaveProgress) : ¬(event progress).IsLoaded := by
    cases progress <;> exact id
  refine ⟨_, .step (.step (.step .start (.operate _ (.create ⟨"a"⟩ .budget)) id) (.trigger _ 0)
    (hquiet _)) (.wake _ _ ⟨0, 0⟩ ?_) (hquiet _)⟩
  decide +kernel

theorem stored_value_changes_recreated :
    damaged.restart.load.2.status = .dataInconsistency ∧
      recreated.service.backend.store.value? "banker-a" = some funded.storedText ∧
      ∃ (key : Key) (account stored : Account) (value : Json),
        "banker-a" = (Layout.mk "banker").valueKey key.text ∧
        Plan.readStored funded.storedText = some (value, stored) ∧
        stored.version ≤ account.version ∧ account.value ≠ value := by
  have hload : damaged.restart.load.2.status = .dataInconsistency := by decide +kernel
  have htext : recreated.service.backend.store.value? "banker-a" = some funded.storedText := by
    decide +kernel
  have hwriting : recreated.save = some (.writing replacement) := by decide +kernel
  have hlost : (recreated.resumeSave (.writing replacement) ⟨0, 0⟩).service.backend.store.value?
      "banker-a" ≠ some funded.storedText := by decide +kernel
  have hlayout : recreated.service.layout = ⟨"banker"⟩ := by decide +kernel
  obtain ⟨edits, hrun⟩ := unloaded_recreated
  have hchanges := stored_value_changes_iff (by rw [hload]; decide) hrun
    (.wake _ _ ⟨0, 0⟩ hwriting) htext
  obtain ⟨-, _, _, key, account, value, stored, -, -, -, -, -, hname, hread, hversion, hvalue⟩ :=
    hchanges.1.mp hlost
  rw [hlayout] at hname
  exact ⟨hload, htext, key, account, stored, value, hname, hread, hversion, hvalue⟩

end Runs

end Session

end ShardedLedger
