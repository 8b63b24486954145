import ShardedLedger.Proofs.Persistence.Save

namespace ShardedLedger

namespace Layout

-- An account of the one ledger and an account of the other have their values in one place.
def Meets (layout other : Layout) : Prop :=
  ∃ key otherKey : Key, key.IsValid ∧ otherKey.IsValid ∧
    layout.valueKey key.text = other.valueKey otherKey.text

variable {layout other : Layout}

theorem ne_of_not_meets (h : ¬layout.Meets other) : layout ≠ other := by
  rintro rfl
  exact h ⟨⟨"a"⟩, ⟨"a"⟩, by decide, by decide, rfl⟩

theorem activeSet_ne (h : layout ≠ other) : layout.activeSet ≠ other.activeSet := fun hset =>
  h (congrArg Layout.mk ((String.append_left_inj _).mp hset))

theorem archiveSet_ne (h : layout ≠ other) : layout.archiveSet ≠ other.archiveSet := fun hset =>
  h (congrArg Layout.mk ((String.append_left_inj _).mp hset))

-- Whatever stands in front of them, the two endings differ.
theorem activeSet_ne_archiveSet_of (layout other : Layout) :
    layout.activeSet ≠ other.archiveSet := by
  intro h
  have hlast := congrArg (fun set => set.toList.getLast?) h
  simp [activeSet, archiveSet] at hlast

end Layout

-- The writes that a save may come to: values of valid keys, and moves in and between the two index
-- sets.
inductive Command.IsWithin (layout : Layout) : Command → Prop
  | value {key : Key} (text : String) (hkey : key.IsValid) :
      IsWithin layout (.set (layout.valueKey key.text) text)
  | add {key : Key} (hkey : key.IsValid) : IsWithin layout (.add layout.activeSet key.text)
  | archive {key : Key} (hkey : key.IsValid) :
      IsWithin layout (.move layout.activeSet layout.archiveSet key.text)
  | unarchive {key : Key} (hkey : key.IsValid) :
      IsWithin layout (.move layout.archiveSet layout.activeSet key.text)

namespace Store

section Agreement

variable {layout other : Layout} {a b c : Store} {command : Command} {commands : List Command}

-- The two stores are the same where the ledger's data lie.
structure Agrees (layout : Layout) (a b : Store) : Prop where
  value : ∀ key : Key, key.IsValid →
    a.value? (layout.valueKey key.text) = b.value? (layout.valueKey key.text)
  active : a.memberSet layout.activeSet = b.memberSet layout.activeSet
  archive : a.memberSet layout.archiveSet = b.memberSet layout.archiveSet

theorem Agrees.refl (layout : Layout) (store : Store) : store.Agrees layout store :=
  ⟨fun _ _ => rfl, rfl, rfl⟩

theorem Agrees.trans (hab : a.Agrees layout b) (hbc : b.Agrees layout c) : a.Agrees layout c :=
  ⟨fun key hkey => (hab.value key hkey).trans (hbc.value key hkey), hab.active.trans hbc.active,
    hab.archive.trans hbc.archive⟩

theorem memberSet_addMember (store : Store) (set member name : String) :
    (store.addMember set member).memberSet name =
      if name = set then (store.memberSet set).add member else store.memberSet name := by
  simp only [memberSet, addMember, SortedMap.get?_insert]
  split <;> rfl

theorem memberSet_removeMember (store : Store) (set member name : String) :
    (store.removeMember set member).memberSet name =
      if name = set then (store.memberSet set).erase member else store.memberSet name := by
  simp only [memberSet, removeMember, SortedMap.get?_insert]
  split <;> rfl

theorem memberSet_moveMember (store : Store) (source destination member name : String) :
    (store.moveMember source destination member).memberSet name =
      if (store.memberSet source).contains member then
        ((store.removeMember source member).addMember destination member).memberSet name
      else store.memberSet name := by
  unfold moveMember
  split <;> rfl

theorem memberSet_moveMember_of_ne {store : Store} {source destination name : String}
    (hsource : name ≠ source) (hdestination : name ≠ destination) (member : String) :
    (store.moveMember source destination member).memberSet name = store.memberSet name := by
  rw [memberSet_moveMember, memberSet_addMember, if_neg hdestination, memberSet_removeMember,
    if_neg hsource, ite_self]

-- What a move makes of a set only depends on what the sets hold by then.
theorem memberSet_moveMember_congr {source destination name : String}
    (hsource : a.memberSet source = b.memberSet source)
    (hdestination : a.memberSet destination = b.memberSet destination)
    (hname : a.memberSet name = b.memberSet name) (member : String) :
    (a.moveMember source destination member).memberSet name =
      (b.moveMember source destination member).memberSet name := by
  simp only [memberSet_moveMember, memberSet_addMember, memberSet_removeMember, hsource,
    hdestination, hname]

theorem Agrees.apply (h : a.Agrees layout b) (hcommand : command.IsWithin layout) :
    (a.apply command).Agrees layout (b.apply command) := by
  cases hcommand with
  | value text _ =>
      refine ⟨fun key hkey => ?_, h.active, h.archive⟩
      simp only [Store.apply, value?_setValue, h.value key hkey]
  | add _ =>
      refine ⟨fun key hkey => h.value key hkey, ?_, ?_⟩ <;>
        simp only [Store.apply, memberSet_addMember, h.active, h.archive]
  | archive _ =>
      refine ⟨fun key hkey => ?_, memberSet_moveMember_congr h.active h.archive h.active _,
        memberSet_moveMember_congr h.active h.archive h.archive _⟩
      simp only [Store.apply, value?_moveMember, h.value key hkey]
  | unarchive _ =>
      refine ⟨fun key hkey => ?_, memberSet_moveMember_congr h.archive h.active h.active _,
        memberSet_moveMember_congr h.archive h.active h.archive _⟩
      simp only [Store.apply, value?_moveMember, h.value key hkey]

theorem Agrees.applyAll (h : a.Agrees layout b)
    (hcommands : ∀ command ∈ commands, command.IsWithin layout) :
    (a.applyAll commands).Agrees layout (b.applyAll commands) := by
  induction commands generalizing a b with
  | nil => exact h
  | cons command commands ih =>
      obtain ⟨hcommand, hrest⟩ := List.forall_mem_cons.mp hcommands
      exact ih (h.apply hcommand) hrest

-- What another ledger writes is not seen where the two do not meet.
theorem agrees_apply_of_not_meets (hmeets : ¬other.Meets layout)
    (hcommand : command.IsWithin other) (store : Store) :
    (store.apply command).Agrees layout store := by
  have hne := (Layout.ne_of_not_meets hmeets).symm
  have hactive := Layout.activeSet_ne hne
  have harchive := Layout.archiveSet_ne hne
  have hcross := layout.activeSet_ne_archiveSet_of other
  have hback := (other.activeSet_ne_archiveSet_of layout).symm
  cases hcommand with
  | value text hkey =>
      refine ⟨fun key hvalid => ?_, rfl, rfl⟩
      rw [Store.apply, value?_setValue, if_neg]
      exact fun hname => hmeets ⟨_, key, hkey, hvalid, hname.symm⟩
  | add _ =>
      refine ⟨fun _ _ => rfl, ?_, ?_⟩
      · rw [Store.apply, memberSet_addMember, if_neg hactive]
      · rw [Store.apply, memberSet_addMember, if_neg hback]
  | archive _ =>
      exact ⟨fun _ _ => store.value?_moveMember _ _ _ _,
        memberSet_moveMember_of_ne hactive hcross _, memberSet_moveMember_of_ne hback harchive _⟩
  | unarchive _ =>
      exact ⟨fun _ _ => store.value?_moveMember _ _ _ _,
        memberSet_moveMember_of_ne hcross hactive _, memberSet_moveMember_of_ne harchive hback _⟩

theorem agrees_applyAll_of_not_meets (hmeets : ¬other.Meets layout)
    (hcommands : ∀ command ∈ commands, command.IsWithin other) (store : Store) :
    (store.applyAll commands).Agrees layout store := by
  induction commands generalizing store with
  | nil => exact .refl layout store
  | cons command commands ih =>
      obtain ⟨hcommand, hrest⟩ := List.forall_mem_cons.mp hcommands
      exact (ih hrest _).trans (agrees_apply_of_not_meets hmeets hcommand store)

end Agreement

section Listing

variable {layout : Layout} {store a b : Store} {command : Command} {commands : List Command}

def ListsValid (layout : Layout) (store : Store) : Prop :=
  ∀ member, store.IsIndexed layout member → (⟨member⟩ : Key).IsValid

theorem Agrees.members_activeSet (h : a.Agrees layout b) :
    a.members layout.activeSet = b.members layout.activeSet := congrArg SortedMap.keys h.active

theorem Agrees.members_archiveSet (h : a.Agrees layout b) :
    a.members layout.archiveSet = b.members layout.archiveSet := congrArg SortedMap.keys h.archive

theorem ListsValid.of_agrees (h : b.ListsValid layout) (hagrees : a.Agrees layout b) :
    a.ListsValid layout := fun member hmember => h member (by
  rwa [IsIndexed, ← hagrees.members_activeSet, ← hagrees.members_archiveSet])

theorem ListsValid.apply (h : store.ListsValid layout) (hcommand : command.IsWithin layout) :
    (store.apply command).ListsValid layout := by
  intro member hmember
  cases hcommand with
  | value text _ => exact h member hmember
  | add hkey =>
      rcases (store.isIndexed_addActive layout _ member).mp hmember with rfl | hmember
      · exact hkey
      · exact h member hmember
  | archive _ => exact h member ((store.isIndexed_archive layout _ member).mp hmember)
  | unarchive _ => exact h member ((store.isIndexed_unarchive layout _ member).mp hmember)

theorem ListsValid.applyAll (h : store.ListsValid layout)
    (hcommands : ∀ command ∈ commands, command.IsWithin layout) :
    (store.applyAll commands).ListsValid layout := by
  induction commands generalizing store with
  | nil => exact h
  | cons command commands ih =>
      obtain ⟨hcommand, hrest⟩ := List.forall_mem_cons.mp hcommands
      exact ih (h.apply hcommand) hrest

end Listing

end Store

namespace Plan

variable {layout : Layout}

theorem isWithin_update {key : Key} (hkey : key.IsValid) (account : Account) (value : Json)
    (stored : Account) :
    ∀ command ∈ (update layout key account value stored).commands, command.IsWithin layout := by
  have hwrite : ∀ command ∈ (if account.value == value then []
      else [Command.set (layout.valueKey key.text) account.storedText]),
      command.IsWithin layout := by
    intro command hcommand
    split at hcommand
    next => cases hcommand
    next => exact List.mem_singleton.mp hcommand ▸ .value _ hkey
  intro command hcommand
  unfold update at hcommand
  dsimp only at hcommand
  split at hcommand
  next =>
    rcases List.mem_append.mp hcommand with hcommand | hcommand
    · exact hwrite command hcommand
    · exact List.mem_singleton.mp hcommand ▸ .archive hkey
  next =>
    rcases List.mem_append.mp hcommand with hcommand | hcommand
    · exact hwrite command hcommand
    · exact List.mem_singleton.mp hcommand ▸ .unarchive hkey
  next => exact hwrite command hcommand

theorem isWithin_forAccount {key : Key} (hkey : key.IsValid) (account : Account)
    (stored : Option String) :
    ∀ command ∈ (forAccount layout key account stored).commands, command.IsWithin layout := by
  intro command hcommand
  unfold forAccount at hcommand
  split at hcommand
  next =>
    simp only [insertion, List.mem_cons, List.not_mem_nil, or_false] at hcommand
    rcases hcommand with rfl | rfl
    · exact .add hkey
    · exact .value _ hkey
  next =>
    split at hcommand
    next => cases hcommand
    next =>
      split at hcommand
      next => exact isWithin_update hkey account _ _ command hcommand
      next => cases hcommand

theorem isWithin_forAccounts {entries : List (Key × Account)}
    (hentries : ∀ entry ∈ entries, entry.1.IsValid) (values : List (Option String)) :
    ∀ command ∈ (forAccounts layout entries values).commands, command.IsWithin layout := by
  induction entries generalizing values with
  | nil => nofun
  | cons entry entries ih =>
      obtain ⟨key, account⟩ := entry
      obtain ⟨hkey, hrest⟩ := List.forall_mem_cons.mp hentries
      cases values with
      | nil => nofun
      | cons stored values =>
          intro command hcommand
          rcases List.mem_append.mp hcommand with hcommand | hcommand
          · exact isWithin_forAccount hkey account stored command hcommand
          · exact ih hrest values command hcommand

end Plan

namespace Ledger

variable {ledger : Ledger}

def HasValidKeys (ledger : Ledger) : Prop :=
  ∀ key account, ledger.get? key = some account → key.IsValid

theorem WellNamed.hasValidKeys (h : ledger.WellNamed) : ledger.HasValidKeys :=
  fun key account haccount => (h key account haccount).1

theorem HasValidKeys.saved (h : ledger.HasValidKeys) : ∀ entry ∈ ledger.saved, entry.1.IsValid :=
  fun entry hentry => h entry.1 entry.2 ((ledger.mem_saved_iff entry.1 entry.2).mp hentry).1

theorem wellNamed_of_ofJson {json : Json} (h : ofJson json = .ok ledger) : ledger.WellNamed := by
  intro key account haccount
  obtain ⟨hvalid, hname, -⟩ := Load.decoded_of_ofJson h haccount
  exact ⟨hvalid, hname⟩

end Ledger

theorem Load.wellNamed_of_ofValues {members : List String} {values : List (Option String)}
    {ledger : Ledger} (h : ofValues members values = .ok ledger) : ledger.WellNamed := by
  obtain ⟨-, -, records, hrecords, rfl⟩ := ofValues_eq_ok_iff.mp h
  exact Ledger.wellNamed_repair (Ledger.wellNamed_of_ofJson hrecords)

section Calls

variable {layout : Layout}

def Save.IsWithin (layout : Layout) : Save → Prop
  | .reading entries => ∀ entry ∈ entries, entry.1.IsValid
  | .writing plan => ∀ command ∈ plan.commands, command.IsWithin layout

def Save.Next.IsWithin (layout : Layout) : Save.Next → Prop
  | .done _ => True
  | .waiting save => save.IsWithin layout

-- A load that asks for valid names alone.
def Load.IsValid : Load → Prop
  | .readingActive => True
  | .readingArchive active => ∀ member ∈ active, (⟨member⟩ : Key).IsValid
  | .readingValues members => ∀ member ∈ members, (⟨member⟩ : Key).IsValid

namespace Backend

-- What one service has made of the store.
structure Writes (layout : Layout) (before after : Backend) : Prop where
  store : ∃ commands : List Command, (∀ command ∈ commands, command.IsWithin layout) ∧
    after.store = before.store.applyAll commands
  unavailable : after.unavailable = before.unavailable
  latency : after.latency = before.latency

-- The same for this ledger, whatever else is stored and has been counted.
structure Agrees (layout : Layout) (a b : Backend) : Prop where
  store : a.store.Agrees layout b.store
  unavailable : a.unavailable = b.unavailable
  latency : a.latency = b.latency

theorem Writes.of_store_eq {before after : Backend} (hstore : after.store = before.store)
    (hunavailable : after.unavailable = before.unavailable)
    (hlatency : after.latency = before.latency) : before.Writes layout after :=
  ⟨⟨[], nofun, hstore⟩, hunavailable, hlatency⟩

theorem Writes.trans {a b c : Backend} (hab : a.Writes layout b) (hbc : b.Writes layout c) :
    a.Writes layout c := by
  obtain ⟨first, hfirst, hb⟩ := hab.store
  obtain ⟨second, hsecond, hc⟩ := hbc.store
  refine ⟨⟨first ++ second, fun command hcommand => ?_, ?_⟩,
    hbc.unavailable.trans hab.unavailable, hbc.latency.trans hab.latency⟩
  · rcases List.mem_append.mp hcommand with hcommand | hcommand
    · exact hfirst command hcommand
    · exact hsecond command hcommand
  · rw [hc, hb, Store.applyAll_append]

theorem answer_congr {α : Type} {a b : Backend} (h : a.Agrees layout b) {x y : α} (hxy : x = y) :
    a.answer x = b.answer y := by
  rw [answer, answer, h.unavailable, hxy]

end Backend

theorem Save.isWithin_start {ledger : Ledger} (h : ledger.HasValidKeys) (layout : Layout) :
    (Save.start ledger).IsWithin layout := by
  rcases Save.start_cases ledger with ⟨-, hstart⟩ | ⟨-, hstart⟩
  · rw [hstart]
    trivial
  · rw [hstart]
    exact h.saved

theorem Save.isWithin_next {save : Save} (h : save.IsWithin layout) (backend : Backend) :
    backend.Writes layout (save.next layout backend).1 ∧
      (save.next layout backend).2.IsWithin layout := by
  have hcomes := Save.comes_next layout backend save
  generalize save.next layout backend = next at hcomes
  cases hcomes with
  | planned entries =>
      exact ⟨.of_store_eq rfl rfl rfl, Plan.isWithin_forAccounts h _⟩
  | committed plan => exact ⟨⟨⟨plan.commands, h, rfl⟩, rfl, rfl⟩, trivial⟩
  | _ => exact ⟨.of_store_eq rfl rfl rfl, trivial⟩

theorem Save.next_agrees {save : Save} (h : save.IsWithin layout) {a b : Backend}
    (hagrees : a.Agrees layout b) :
    (save.next layout a).2 = (save.next layout b).2 ∧
      (save.next layout a).1.Agrees layout (save.next layout b).1 := by
  cases save with
  | reading entries =>
      have hvalues : (valueKeys layout entries).map a.store.value? =
          (valueKeys layout entries).map b.store.value? := by
        simp only [valueKeys, List.map_map]
        exact List.map_congr_left fun entry hentry => hagrees.store.value entry.1 (h entry hentry)
      exact ⟨congrArg (afterRead layout entries) (Backend.answer_congr hagrees hvalues), hagrees⟩
  | writing plan =>
      have hanswer : a.answer () = b.answer () := Backend.answer_congr hagrees rfl
      simp only [next, Backend.commit, hanswer]
      split
      next => exact ⟨rfl, hagrees.store.applyAll h, hagrees.unavailable, hagrees.latency⟩
      next => exact ⟨rfl, hagrees⟩

theorem Load.wellNamed_of_next {load : Load} {backend : Backend} {ledger : Ledger}
    (h : load.next layout backend = .done (.ok ledger)) : ledger.WellNamed := by
  cases load with
  | readingActive =>
      simp only [next, afterActive] at h
      split at h <;> cases h
  | readingArchive active =>
      simp only [next, afterArchive] at h
      split at h
      next => cases h
      next =>
        split at h <;> cases h
        exact Ledger.wellNamed_empty
  | readingValues members =>
      simp only [next, afterValues] at h
      split at h
      next => cases h
      next => exact wellNamed_of_ofValues (Next.done.inj h)

-- From an index of valid names a load never gets to ask for others.
theorem Load.isValid_of_next {load following : Load} {backend : Backend} (h : load.IsValid)
    (hlists : backend.store.ListsValid layout)
    (hnext : load.next layout backend = .waiting following) : following.IsValid := by
  cases load with
  | readingActive =>
      simp only [next, Backend.members] at hnext
      rcases backend.answer_eq_error_or_ok (backend.store.members layout.activeSet) with
        ⟨error, hread⟩ | hread <;> rw [hread] at hnext
      · cases hnext
      · cases hnext
        exact fun member hmember => hlists member (.inl hmember)
  | readingArchive active =>
      simp only [next, Backend.members] at hnext
      rcases backend.answer_eq_error_or_ok (backend.store.members layout.archiveSet) with
        ⟨error, hread⟩ | hread <;> rw [hread] at hnext
      · cases hnext
      · unfold afterArchive at hnext
        dsimp only at hnext
        split at hnext
        next => cases hnext
        next =>
          cases hnext
          intro member hmember
          rcases (mem_members_iff active _ member).mp hmember with hmember | hmember
          · exact h member hmember
          · exact hlists member (.inr hmember)
  | readingValues members =>
      simp only [next, afterValues] at hnext
      split at hnext <;> cases hnext

theorem Load.next_agrees {load : Load} (h : load.IsValid) {a b : Backend}
    (hagrees : a.Agrees layout b) : load.next layout a = load.next layout b := by
  cases load with
  | readingActive =>
      exact congrArg afterActive (Backend.answer_congr hagrees hagrees.store.members_activeSet)
  | readingArchive active =>
      exact congrArg (afterArchive active)
        (Backend.answer_congr hagrees hagrees.store.members_archiveSet)
  | readingValues members =>
      have hvalues : (members.map layout.valueKey).map a.store.value? =
          (members.map layout.valueKey).map b.store.value? := by
        simp only [List.map_map]
        exact List.map_congr_left fun member hmember =>
          hagrees.store.value ⟨member⟩ (h member hmember)
      exact congrArg (afterValues members) (Backend.answer_congr hagrees hvalues)

end Calls

end ShardedLedger
