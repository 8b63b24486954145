import ShardedLedger.Proofs.SortedMap
import ShardedLedger.Store.Basic

namespace ShardedLedger

namespace Layout

variable (layout : Layout)

theorem valueKey_injective {a b : String} (h : layout.valueKey a = layout.valueKey b) : a = b := by
  unfold valueKey at h
  exact (String.append_right_inj _).mp h

theorem activeSet_ne_archiveSet : layout.activeSet ≠ layout.archiveSet := by
  intro h
  have hsuffix := (String.append_right_inj _).mp h
  exact absurd hsuffix (by decide)

end Layout

namespace Store

variable (store : Store)

section Values

theorem value?_setValue (name text other : String) :
    (store.setValue name text).value? other =
      if other = name then some text else store.value? other :=
  SortedMap.get?_insert store.strings name text other

@[simp] theorem value?_addMember (set member name : String) :
    (store.addMember set member).value? name = store.value? name := rfl

@[simp] theorem value?_removeMember (set member name : String) :
    (store.removeMember set member).value? name = store.value? name := rfl

@[simp] theorem value?_moveMember (source destination member name : String) :
    (store.moveMember source destination member).value? name = store.value? name := by
  unfold moveMember
  split <;> rfl

end Values

section Members

@[simp] theorem members_setValue (name text set : String) :
    (store.setValue name text).members set = store.members set := rfl

theorem contains_memberSet_iff (set member : String) :
    (store.memberSet set).contains member = true ↔ member ∈ store.members set :=
  (SortedMap.mem_keys_iff (store.memberSet set) member).symm

theorem mem_members_addMember (set member name other : String) :
    other ∈ (store.addMember set member).members name ↔
      (name = set ∧ other = member) ∨ other ∈ store.members name := by
  unfold members memberSet addMember
  rw [SortedMap.get?_insert]
  by_cases he : name = set
  · subst he
    simp [SortedSet.mem_keys_add, memberSet]
  · simp [he]

theorem mem_members_removeMember (set member name other : String) :
    other ∈ (store.removeMember set member).members name ↔
      ¬(name = set ∧ other = member) ∧ other ∈ store.members name := by
  unfold members memberSet removeMember
  rw [SortedMap.get?_insert]
  by_cases he : name = set
  · subst he
    simp [SortedSet.mem_keys_erase, memberSet]
  · simp [he]

theorem mem_members_moveMember {source destination member : String}
    (h : member ∈ store.members source) (name other : String) :
    other ∈ (store.moveMember source destination member).members name ↔
      (name = destination ∧ other = member) ∨
        ¬(name = source ∧ other = member) ∧ other ∈ store.members name := by
  rw [moveMember, if_pos ((store.contains_memberSet_iff source member).mpr h),
    mem_members_addMember, mem_members_removeMember]

theorem moveMember_of_notMem {source member : String} (h : member ∉ store.members source)
    (destination : String) : store.moveMember source destination member = store := by
  rw [moveMember, if_neg fun hmem => h ((store.contains_memberSet_iff source member).mp hmem)]

theorem mem_members_moveMember_of_ne {source destination member name other : String}
    (h : ¬((name = source ∨ name = destination) ∧ other = member)) :
    other ∈ (store.moveMember source destination member).members name ↔
      other ∈ store.members name := by
  by_cases hmem : member ∈ store.members source
  · rw [store.mem_members_moveMember hmem]
    have hsource : ¬(name = source ∧ other = member) := fun hboth => h ⟨.inl hboth.1, hboth.2⟩
    have hdestination : ¬(name = destination ∧ other = member) :=
      fun hboth => h ⟨.inr hboth.1, hboth.2⟩
    simp [hsource, hdestination]
  · rw [store.moveMember_of_notMem hmem]

-- Moving a member between two sets takes none out of both and brings no other one in.
theorem mem_either_moveMember (source destination member other : String) :
    (other ∈ (store.moveMember source destination member).members source ∨
        other ∈ (store.moveMember source destination member).members destination) ↔
      other ∈ store.members source ∨ other ∈ store.members destination := by
  by_cases h : member ∈ store.members source
  · rw [store.mem_members_moveMember h, store.mem_members_moveMember h]
    by_cases he : other = member
    · subst he
      simp [h]
    · simp [he]
  · rw [store.moveMember_of_notMem h]

-- A member that is moved gets from the one set to the other if it is in either.
theorem mem_destination_moveMember (source destination member : String) :
    member ∈ (store.moveMember source destination member).members destination ↔
      member ∈ store.members source ∨ member ∈ store.members destination := by
  by_cases h : member ∈ store.members source
  · rw [store.mem_members_moveMember h]
    simp [h]
  · rw [store.moveMember_of_notMem h]
    simp [h]

theorem notMem_source_moveMember {source destination : String} (hne : source ≠ destination)
    (member : String) :
    member ∉ (store.moveMember source destination member).members source := by
  by_cases h : member ∈ store.members source
  · rw [store.mem_members_moveMember h]
    simp [hne]
  · rwa [store.moveMember_of_notMem h]

end Members

section Runs

@[simp] theorem applyAll_nil : store.applyAll [] = store := rfl

@[simp] theorem applyAll_cons (command : Command) (commands : List Command) :
    store.applyAll (command :: commands) = (store.apply command).applyAll commands := rfl

theorem applyAll_append (first second : List Command) :
    store.applyAll (first ++ second) = (store.applyAll first).applyAll second :=
  List.foldl_append

end Runs

section Index

-- A member of one of the two sets that list the accounts.
def IsIndexed (layout : Layout) (store : Store) (member : String) : Prop :=
  member ∈ store.members layout.activeSet ∨ member ∈ store.members layout.archiveSet

variable (layout : Layout)

theorem isIndexed_addActive (member other : String) :
    (store.addMember layout.activeSet member).IsIndexed layout other ↔
      other = member ∨ store.IsIndexed layout other := by
  have hne : layout.archiveSet ≠ layout.activeSet := layout.activeSet_ne_archiveSet.symm
  simp [IsIndexed, mem_members_addMember, hne, or_assoc]

theorem isIndexed_archive (member other : String) :
    (store.moveMember layout.activeSet layout.archiveSet member).IsIndexed layout other ↔
      store.IsIndexed layout other :=
  store.mem_either_moveMember layout.activeSet layout.archiveSet member other

theorem isIndexed_unarchive (member other : String) :
    (store.moveMember layout.archiveSet layout.activeSet member).IsIndexed layout other ↔
      store.IsIndexed layout other := by
  have heither := store.mem_either_moveMember layout.archiveSet layout.activeSet member other
  unfold IsIndexed
  rw [or_comm, heither, or_comm]

-- A member of both of the two sets.
def IsListedTwice (store : Store) (member : String) : Prop :=
  member ∈ store.members layout.activeSet ∧ member ∈ store.members layout.archiveSet

variable {store}

theorem IsListedTwice.of_addActive {member other : String}
    (h : (store.addMember layout.activeSet member).IsListedTwice layout other) :
    store.IsListedTwice layout other ∨ other = member ∧ store.IsIndexed layout member := by
  obtain ⟨hactive, harchive⟩ := h
  rw [mem_members_addMember] at hactive harchive
  rcases harchive with ⟨hset, -⟩ | harchive
  · exact absurd hset.symm layout.activeSet_ne_archiveSet
  · rcases hactive with ⟨-, rfl⟩ | hactive
    · exact .inr ⟨rfl, .inr harchive⟩
    · exact .inl ⟨hactive, harchive⟩

-- A member that is moved leaves the set it comes from.
theorem IsListedTwice.of_move {source destination member other : String}
    (hsets : source = layout.activeSet ∧ destination = layout.archiveSet ∨
      source = layout.archiveSet ∧ destination = layout.activeSet)
    (h : (store.moveMember source destination member).IsListedTwice layout other) :
    store.IsListedTwice layout other := by
  have hboth : other ∈ (store.moveMember source destination member).members source ∧
      other ∈ (store.moveMember source destination member).members destination := by
    rcases hsets with ⟨rfl, rfl⟩ | ⟨rfl, rfl⟩
    · exact h
    · exact ⟨h.2, h.1⟩
  have hne : source ≠ destination := by
    rcases hsets with ⟨rfl, rfl⟩ | ⟨rfl, rfl⟩
    · exact layout.activeSet_ne_archiveSet
    · exact layout.activeSet_ne_archiveSet.symm
  by_cases hmem : member ∈ store.members source
  · have hother : other ≠ member := by
      rintro rfl
      have hsource := hboth.1
      rw [store.mem_members_moveMember hmem] at hsource
      simp [hne] at hsource
    have hkept (name : String) : ¬((name = source ∨ name = destination) ∧ other = member) :=
      fun hmoved => hother hmoved.2
    exact ⟨(store.mem_members_moveMember_of_ne (hkept _)).mp h.1,
      (store.mem_members_moveMember_of_ne (hkept _)).mp h.2⟩
  · rw [store.moveMember_of_notMem hmem] at h
    exact h

end Index

end Store

end ShardedLedger
