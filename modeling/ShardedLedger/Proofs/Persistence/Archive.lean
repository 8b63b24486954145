import ShardedLedger.Proofs.Persistence.Session

namespace ShardedLedger

namespace Store

variable (layout : Layout)

-- The account is stored as an open one.
def IsOpen (store : Store) (key : Key) : Prop :=
  ∃ stored, store.record? layout key = some stored ∧ stored.status = .active

def IsClosed (store : Store) (key : Key) : Prop :=
  ∃ stored, store.record? layout key = some stored ∧ stored.status = .closed

def IsArchived (store : Store) (key : Key) : Prop := key.text ∈ store.members layout.archiveSet

-- Nothing stored, nothing listed. What is stored is a record and is listed in exactly one of the
-- two sets, and not in the archive while it is open.
structure IsFiled (store : Store) (key : Key) : Prop where
  absent : store.value? (layout.valueKey key.text) = none → ¬store.IsIndexed layout key.text
  present : ∀ text, store.value? (layout.valueKey key.text) = some text →
    (∃ stored, store.record? layout key = some stored) ∧
      (key.text ∈ store.members layout.activeSet ↔ ¬store.IsArchived layout key)
  open_notArchived : store.IsOpen layout key → ¬store.IsArchived layout key

section Records

variable {layout} {store after : Store} {key : Key}

theorem value?_of_record? {stored : Account} (h : store.record? layout key = some stored) :
    ∃ text, store.value? (layout.valueKey key.text) = some text := by
  obtain ⟨text, htext, -⟩ := Option.bind_eq_some_iff.mp h
  exact ⟨text, htext⟩

theorem isOpen_or_isClosed {stored : Account} (h : store.record? layout key = some stored) :
    store.IsOpen layout key ∨ store.IsClosed layout key := by
  cases hstatus : stored.status with
  | active => exact .inl ⟨stored, h, hstatus⟩
  | closed => exact .inr ⟨stored, h, hstatus⟩

theorem IsClosed.not_isOpen (h : store.IsClosed layout key) : ¬store.IsOpen layout key := by
  obtain ⟨stored, hstored, hclosed⟩ := h
  rintro ⟨other, hother, hopen⟩
  obtain rfl : stored = other := Option.some.inj (hstored.symm.trans hother)
  rw [hclosed] at hopen
  cases hopen

theorem IsFiled.value?_of_isArchived (h : store.IsFiled layout key)
    (harchived : store.IsArchived layout key) :
    ∃ text, store.value? (layout.valueKey key.text) = some text := by
  cases htext : store.value? (layout.valueKey key.text) with
  | none => exact absurd (Or.inr harchived) (h.absent htext)
  | some text => exact ⟨text, rfl⟩

theorem IsFiled.isClosed_of_isArchived (h : store.IsFiled layout key)
    (harchived : store.IsArchived layout key) : store.IsClosed layout key := by
  obtain ⟨text, htext⟩ := h.value?_of_isArchived harchived
  obtain ⟨⟨stored, hstored⟩, -⟩ := h.present text htext
  rcases isOpen_or_isClosed hstored with hopen | hclosed
  · exact absurd harchived (h.open_notArchived hopen)
  · exact hclosed

-- What is in the archive now: the closed accounts that were there before or were open.
theorem IsFiled.isArchived_iff (h : store.IsFiled layout key) :
    store.IsArchived layout key ↔
      store.IsClosed layout key ∧ (store.IsArchived layout key ∨ store.IsOpen layout key) := by
  constructor
  · intro harchived
    exact ⟨h.isClosed_of_isArchived harchived, .inl harchived⟩
  · rintro ⟨hclosed, harchived | hopen⟩
    · exact harchived
    · exact absurd hopen hclosed.not_isOpen

theorem isClosed_iff {stored : Account} (h : store.record? layout key = some stored) :
    store.IsClosed layout key ↔ stored.status = .closed := by
  constructor
  · rintro ⟨other, hother, hclosed⟩
    obtain rfl : stored = other := Option.some.inj (h.symm.trans hother)
    exact hclosed
  · exact fun hclosed => ⟨stored, h, hclosed⟩

theorem isOpen_iff {stored : Account} (h : store.record? layout key = some stored) :
    store.IsOpen layout key ↔ stored.status = .active := by
  constructor
  · rintro ⟨other, hother, hopen⟩
    obtain rfl : stored = other := Option.some.inj (h.symm.trans hother)
    exact hopen
  · exact fun hopen => ⟨stored, h, hopen⟩

theorem isFiled_of_record? {stored : Account} (h : store.record? layout key = some stored)
    (honce : key.text ∈ store.members layout.activeSet ↔ ¬store.IsArchived layout key)
    (hclosed : store.IsArchived layout key → stored.status = .closed) :
    store.IsFiled layout key where
  absent hnone := by
    obtain ⟨text, htext⟩ := value?_of_record? h
    rw [hnone] at htext
    cases htext
  present text _ := ⟨⟨stored, h⟩, honce⟩
  open_notArchived hopen harchived :=
    ((isClosed_iff h).mpr (hclosed harchived)).not_isOpen hopen

theorem IsFiled.congr (h : store.IsFiled layout key)
    (hvalue : after.value? (layout.valueKey key.text) = store.value? (layout.valueKey key.text))
    (hmembers : ∀ set, key.text ∈ after.members set ↔ key.text ∈ store.members set) :
    after.IsFiled layout key := by
  have hrecord : after.record? layout key = store.record? layout key := by
    rw [record?, hvalue, record?]
  constructor
  · intro hnone
    unfold IsIndexed
    rw [hmembers, hmembers]
    exact h.absent (hvalue.symm.trans hnone)
  · intro text htext
    unfold IsArchived
    rw [hrecord, hmembers, hmembers]
    exact h.present text (hvalue.symm.trans htext)
  · unfold IsOpen IsArchived
    rw [hrecord, hmembers]
    exact h.open_notArchived

theorem isFiled_empty (key : Key) : IsFiled layout .empty key where
  absent _ h := by
    rcases h with hactive | harchive
    · cases hactive
    · cases harchive
  present text htext := by cases htext
  open_notArchived h := by
    obtain ⟨stored, hstored, -⟩ := h
    cases hstored

end Records

end Store

namespace Plan

variable {layout : Layout} {store : Store} {key : Key} {account stored : Account} {value : Json}

-- Where an account is listed after it was brought up to date.
theorem mem_sets_update
    (honce : key.text ∈ store.members layout.activeSet ↔ ¬store.IsArchived layout key)
    (hopen : stored.status = .active → ¬store.IsArchived layout key) :
    (key.text ∈ (store.applyAll (update layout key account value stored).commands).members
        layout.activeSet ↔
      ¬(store.applyAll (update layout key account value stored).commands).IsArchived layout key) ∧
    ((store.applyAll (update layout key account value stored).commands).IsArchived layout key ↔
      account.status = .closed ∧ (store.IsArchived layout key ∨ stored.status = .active)) := by
  have hactive := mem_activeSet_update layout key account store value stored
  have harchive := mem_archiveSet_update layout key account store value stored
  unfold Store.IsArchived at *
  rw [hactive, harchive, honce]
  cases account.status with
  | active =>
      cases hold : stored.status with
      | active => simp [hopen hold]
      | closed => simp [em']
  | closed =>
      cases hold : stored.status with
      | active => simp [hopen hold]
      | closed => simp

-- What may be overwritten is brought up to date.
theorem forAccount_of_record? {text : String}
    (htext : store.value? (layout.valueKey key.text) = some text)
    (hstored : store.record? layout key = some stored)
    (hforbids : forbids account (some text) = false) :
    ∃ value, forAccount layout key account (some text) =
      update layout key account value stored := by
  rw [Store.record?, htext, Option.bind_some] at hstored
  obtain ⟨⟨value, other⟩, hread, rfl⟩ := Option.map_eq_some_iff.mp hstored
  have hversion : account.isSameOrPast other = true := by simpa [forbids, hread] using hforbids
  exact ⟨value, by simp [forAccount, hread, hversion]⟩

end Plan

namespace Store

section Commits

variable {layout : Layout} {store after : Store} {key : Key} {entries : List (Key × Account)}
  {account : Account}

-- An account that nothing is stored for is listed as active, whatever its status is.
theorem IsFiled.inserted (h : store.IsFiled layout key) (hnodup : (entries.map (·.1)).Nodup)
    (hbad : (Plan.against layout store entries).badKeys = [])
    (hafter : after = store.applyAll (Plan.against layout store entries).commands)
    (hmem : (key, account) ∈ entries) (hnone : store.value? (layout.valueKey key.text) = none) :
    after.IsFiled layout key ∧ ¬after.IsArchived layout key := by
  have hrecord := Plan.record?_against layout store hnodup hbad hmem
  obtain ⟨before, hbefore, hsets⟩ := Plan.mem_members_against_of_mem layout store store hnodup hmem
  rw [← hafter] at hrecord hsets
  have hplan : (Plan.forAccount layout key account
      (store.value? (layout.valueKey key.text))).commands =
        [.add layout.activeSet key.text,
          .set (layout.valueKey key.text) account.storedText] := by
    rw [hnone]
    rfl
  simp only [hplan, applyAll_cons, applyAll_nil, apply, members_setValue,
    mem_members_addMember, hbefore, and_true] at hsets
  have hactive : key.text ∈ after.members layout.activeSet := (hsets _).mpr (.inl rfl)
  have harchive : ¬after.IsArchived layout key := by
    intro harchived
    rcases (hsets _).mp harchived with hset | hbefore
    · exact layout.activeSet_ne_archiveSet hset.symm
    · exact h.absent hnone (.inr hbefore)
  exact ⟨isFiled_of_record? hrecord (iff_of_true hactive harchive) fun harchived =>
    absurd harchived harchive, harchive⟩

theorem IsFiled.updated (h : store.IsFiled layout key) (hnodup : (entries.map (·.1)).Nodup)
    (hbad : (Plan.against layout store entries).badKeys = [])
    (hafter : after = store.applyAll (Plan.against layout store entries).commands)
    (hmem : (key, account) ∈ entries) {text : String}
    (htext : store.value? (layout.valueKey key.text) = some text) :
    after.IsFiled layout key ∧ (after.IsArchived layout key ↔ account.status = .closed ∧
      (store.IsArchived layout key ∨ store.IsOpen layout key)) := by
  have hrecord := Plan.record?_against layout store hnodup hbad hmem
  have hforbids := (Plan.badKeys_against_eq_nil_iff layout store entries).mp hbad key account hmem
  obtain ⟨before, hbefore, hsets⟩ := Plan.mem_members_against_of_mem layout store store hnodup hmem
  rw [← hafter] at hrecord hsets
  rw [htext] at hforbids hsets
  obtain ⟨⟨stored, hstored⟩, honce⟩ := h.present text htext
  obtain ⟨value, hplan⟩ := Plan.forAccount_of_record? htext hstored hforbids
  rw [hplan] at hsets
  have hopen := isOpen_iff hstored
  have hplace : (key.text ∈ after.members layout.activeSet ↔ ¬after.IsArchived layout key) ∧
      (after.IsArchived layout key ↔ account.status = .closed ∧
        (store.IsArchived layout key ∨ stored.status = .active)) := by
    have hupdate := @Plan.mem_sets_update layout before key account stored value
    unfold IsArchived at hupdate ⊢ honce
    simp only [hbefore, ← hsets] at hupdate
    exact hupdate honce fun hactive => h.open_notArchived (hopen.mpr hactive)
  rw [hopen]
  exact ⟨isFiled_of_record? hrecord hplace.1 fun harchived => (hplace.2.mp harchived).1, hplace.2⟩

-- In the archive there are after a transaction those of the closed accounts that were there
-- before or were stored as open ones.
theorem IsFiled.committed (h : store.IsFiled layout key) (hnodup : (entries.map (·.1)).Nodup)
    (hbad : (Plan.against layout store entries).badKeys = [])
    (hafter : after = store.applyAll (Plan.against layout store entries).commands) :
    after.IsFiled layout key ∧ (after.IsArchived layout key ↔ after.IsClosed layout key ∧
      (store.IsArchived layout key ∨ store.IsOpen layout key)) := by
  by_cases hentry : ∃ account, (key, account) ∈ entries
  · obtain ⟨account, hmem⟩ := hentry
    have hrecord := Plan.record?_against layout store hnodup hbad hmem
    rw [← hafter] at hrecord
    have hclosed : after.IsClosed layout key ↔ account.asRecorded.status = .closed :=
      isClosed_iff hrecord
    cases htext : store.value? (layout.valueKey key.text) with
    | none =>
        obtain ⟨hfiled, hactive⟩ := h.inserted hnodup hbad hafter hmem htext
        refine ⟨hfiled, iff_of_false hactive ?_⟩
        rintro ⟨-, harchived | ⟨stored, hstored, -⟩⟩
        · exact h.absent htext (.inr harchived)
        · obtain ⟨text, hsome⟩ := value?_of_record? hstored
          rw [htext] at hsome
          cases hsome
    | some text =>
        obtain ⟨hfiled, hplace⟩ := h.updated hnodup hbad hafter hmem htext
        exact ⟨hfiled, hplace.trans (and_congr_left' hclosed.symm)⟩
  · have hvalue := Plan.value?_against_of_notEntry layout store store (not_exists.mp hentry)
    have hmembers := Plan.mem_members_against_of_notEntry layout store store (not_exists.mp hentry)
    rw [← hafter] at hvalue hmembers
    have hfiled := h.congr hvalue hmembers
    refine ⟨hfiled, hfiled.isArchived_iff.trans (and_congr_right fun _ => ?_)⟩
    unfold IsArchived IsOpen record?
    rw [hvalue, hmembers]

end Commits

end Store

namespace Session

variable {first session after : Session} {seen : Event} {key : Key}

def store (session : Session) : Store := session.service.backend.store

def layout (session : Session) : Layout := session.service.layout

-- Every account is filed in the store, and the save under way has each of its accounts once.
structure IsOrderly (session : Session) : Prop where
  isTuned : session.IsTuned
  isPlanned : session.core.IsPlanned fun entries => (entries.map (·.1)).Nodup
  isFiled : ∀ key, session.store.IsFiled session.layout key

section Steps

theorem Step.layout_eq (hstep : Step session seen after) (htuned : session.IsTuned) :
    after.layout = session.layout :=
  (hstep.core htuned).layout_eq

theorem IsOrderly.store_cases (h : session.IsOrderly) (hstep : Step session seen after) :
    after.store = session.store ∨ ∃ entries, (entries.map (·.1)).Nodup ∧
      (Plan.against session.layout session.store entries).badKeys = [] ∧
      after.store =
        session.store.applyAll (Plan.against session.layout session.store entries).commands :=
  (hstep.core h.isTuned).store_planned h.isPlanned

theorem IsOrderly.filed (h : session.IsOrderly) (hstep : Step session seen after) (key : Key) :
    after.store.IsFiled session.layout key ∧
      (after.store.IsArchived session.layout key ↔
        after.store.IsClosed session.layout key ∧
          (session.store.IsArchived session.layout key ∨
            session.store.IsOpen session.layout key)) := by
  rcases h.store_cases hstep with hkept | ⟨entries, hnodup, hbad, hstore⟩
  · rw [hkept]
    exact ⟨h.isFiled key, (h.isFiled key).isArchived_iff⟩
  · exact (h.isFiled key).committed hnodup hbad hstore

theorem IsOrderly.step (h : session.IsOrderly) (hstep : Step session seen after) :
    after.IsOrderly where
  isTuned := hstep.isTuned h.isTuned
  isPlanned :=
    (hstep.core h.isTuned).isPlanned h.isPlanned fun _ => session.service.ledger.nodup_saved
  isFiled key := hstep.layout_eq h.isTuned ▸ (h.filed hstep key).1

-- What is stored stays stored.
theorem IsOrderly.exists_record? (h : session.IsOrderly) (hstep : Step session seen after)
    (hstored : ∃ stored, session.store.record? session.layout key = some stored) :
    ∃ stored, after.store.record? session.layout key = some stored := by
  rcases h.store_cases hstep with hkept | ⟨entries, hnodup, hbad, hstore⟩
  · rw [hkept]
    exact hstored
  · rw [hstore]
    rcases Plan.record?_against_cases session.layout session.store session.store hnodup key with
      hkept | ⟨account, -, hrecord⟩
    · rw [hkept]
      exact hstored
    · exact ⟨account.asRecorded, hrecord⟩

end Steps

section Runs

theorem IsOrderly.run (h : first.IsOrderly) (hrun : Run first session) : session.IsOrderly := by
  induction hrun with
  | start => exact h
  | step _ hstep ih => exact ih.step hstep

theorem IsOrderly.layout_run (h : first.IsOrderly) (hrun : Run first session) :
    session.layout = first.layout := by
  induction hrun with
  | start => rfl
  | step hrun hstep ih => exact (hstep.layout_eq (h.run hrun).isTuned).trans ih

-- The archive gets an account from a store that has it as an open one.
theorem IsOrderly.open_before (h : first.IsOrderly)
    (hnot : ¬first.store.IsArchived first.layout key) (hrun : Run first session)
    (harchived : session.store.IsArchived first.layout key) :
    ∃ earlier, Run first earlier ∧ Run earlier session ∧
      earlier.store.IsOpen first.layout key := by
  induction hrun with
  | start => exact absurd harchived hnot
  | @step session after seen hrun hstep ih =>
      have hplace := ((h.run hrun).filed hstep key).2
      rw [h.layout_run hrun] at hplace
      rcases (hplace.mp harchived).2 with hbefore | hopen
      · obtain ⟨earlier, hearlier, hlater, hopen⟩ := ih hbefore
        exact ⟨earlier, hearlier, hlater.step hstep, hopen⟩
      · exact ⟨session, hrun, .step .start hstep, hopen⟩

-- From then on the account is in the archive whenever it is closed.
theorem IsOrderly.archived_or_open (h : first.IsOrderly)
    (hopen : first.store.IsOpen first.layout key) (hrun : Run first session) :
    session.store.IsArchived first.layout key ∨ session.store.IsOpen first.layout key := by
  induction hrun with
  | start => exact .inr hopen
  | @step session after seen hrun hstep ih =>
      have horderly := h.run hrun
      have hlayout := h.layout_run hrun
      have hstored : ∃ stored, session.store.record? session.layout key = some stored := by
        rw [hlayout]
        rcases ih with harchived | ⟨stored, hstored, -⟩
        · have hfiled : session.store.IsFiled first.layout key := hlayout ▸ horderly.isFiled key
          obtain ⟨stored, hstored, -⟩ := hfiled.isClosed_of_isArchived harchived
          exact ⟨stored, hstored⟩
        · exact ⟨stored, hstored⟩
      obtain ⟨stored, hafter⟩ := horderly.exists_record? hstep hstored
      have hplace := (horderly.filed hstep key).2
      rw [hlayout] at hplace hafter
      rcases Store.isOpen_or_isClosed hafter with hopen | hclosed
      · exact .inr hopen
      · exact .inl (hplace.mpr ⟨hclosed, ih⟩)

theorem isOrderly_start {settings : ServiceSettings} {backend : Backend}
    (hempty : backend.store = .empty) : (start settings backend).IsOrderly where
  isTuned := rfl
  isPlanned := Core.isPlanned_of_save_eq_none rfl
  isFiled key := by
    have hstore : (start settings backend).store = .empty := hempty
    rw [hstore]
    exact Store.isFiled_empty key

-- What is stored is listed in one set, and in the active one while it is open. To be closed is
-- not enough for the archive: the account gets there exactly if it was stored as an open one
-- before, since its status is compared with the stored one and a new account is listed as
-- active whatever its status is.
theorem archived_iff_open_before {settings : ServiceSettings} {backend : Backend}
    (hempty : backend.store = .empty) (hrun : Run (start settings backend) session)
    {stored : Account} (hstored : session.store.record? session.layout key = some stored) :
    (key.text ∈ session.store.members session.layout.activeSet ↔
      key.text ∉ session.store.members session.layout.archiveSet) ∧
    (stored.status = .active → key.text ∈ session.store.members session.layout.activeSet) ∧
    (key.text ∈ session.store.members session.layout.archiveSet ↔
      stored.status = .closed ∧ ∃ earlier old, Run (start settings backend) earlier ∧
        Run earlier session ∧ earlier.store.record? earlier.layout key = some old ∧
        old.status = .active) := by
  have hstart : (start settings backend).IsOrderly := isOrderly_start hempty
  have hlayout := hstart.layout_run hrun
  have hfiled := (hstart.run hrun).isFiled key
  obtain ⟨text, htext⟩ := Store.value?_of_record? hstored
  have honce := (hfiled.present text htext).2
  refine ⟨honce, fun hactive => ?_, fun harchived => ⟨?_, ?_⟩, ?_⟩
  · exact honce.mpr (hfiled.open_notArchived ((Store.isOpen_iff hstored).mpr hactive))
  · exact (Store.isClosed_iff hstored).mp (hfiled.isClosed_of_isArchived harchived)
  · have hnot : ¬(start settings backend).store.IsArchived (start settings backend).layout key := by
      have hstore : (start settings backend).store = .empty := hempty
      rw [hstore]
      rintro ⟨⟩
    rw [hlayout] at harchived
    obtain ⟨earlier, hearlier, hlater, old, hold, hopen⟩ := hstart.open_before hnot hrun harchived
    rw [← hstart.layout_run hearlier] at hold
    exact ⟨earlier, old, hearlier, hlater, hold, hopen⟩
  · rintro ⟨hclosed, earlier, old, hearlier, hlater, hold, hopen⟩
    have hplace := (hstart.run hearlier).archived_or_open ⟨old, hold, hopen⟩ hlater
    rw [hstart.layout_run hearlier, ← hlayout] at hplace
    rcases hplace with harchived | hopen
    · exact harchived
    · exact absurd hopen ((Store.isClosed_iff hstored).mpr hclosed).not_isOpen

-- An account that was opened and closed again before its first save.
def unseen : Session :=
  (((start .default .empty).perform (.create ⟨"a"⟩ .budget)).perform (.close ⟨"a"⟩)).saved

theorem run_unseen : Run (start .default .empty) unseen :=
  .saved (.step (.step .start (.operate _ _)) (.operate _ _))

theorem archived_iff_open_before_unseen :
    ∃ stored : Account, stored.status = .closed ∧
      unseen.store.record? unseen.layout ⟨"a"⟩ = some stored ∧
      "a" ∈ unseen.store.members unseen.layout.activeSet ∧
      "a" ∉ unseen.store.members unseen.layout.archiveSet ∧
      ¬∃ earlier old, Run (start .default .empty) earlier ∧ Run earlier unseen ∧
        earlier.store.record? earlier.layout ⟨"a"⟩ = some old ∧ old.status = .active := by
  obtain ⟨hactive, hrecord⟩ :
      "a" ∈ unseen.store.members unseen.layout.activeSet ∧
        unseen.store.record? unseen.layout ⟨"a"⟩ =
          some { Account.new ⟨"a"⟩ .budget with status := .closed, version := 2 } := by
    decide +kernel
  obtain ⟨honce, -, hplace⟩ := archived_iff_open_before rfl run_unseen hrecord
  refine ⟨_, rfl, hrecord, hactive, honce.mp hactive, fun hopen => ?_⟩
  exact honce.mp hactive (hplace.mpr ⟨rfl, hopen⟩)

end Runs

end Session

end ShardedLedger
