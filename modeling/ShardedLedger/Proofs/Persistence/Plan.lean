import ShardedLedger.Persistence.Save
import ShardedLedger.Proofs.Except
import ShardedLedger.Proofs.Ledger.Record
import ShardedLedger.Proofs.Store

namespace ShardedLedger

theorem Layout.key_eq_of_valueKey_eq (layout : Layout) {key other : Key}
    (h : layout.valueKey key.text = layout.valueKey other.text) : key = other :=
  congrArg Key.mk (layout.valueKey_injective h)

-- The account that is stored for a key, if there is a readable one.
def Store.record? (layout : Layout) (store : Store) (key : Key) : Option Account :=
  (store.value? (layout.valueKey key.text)).bind fun text => (Plan.readStored text).map (·.2)

namespace Plan

section One

theorem readStored_eq_some_iff {text : String} {value : Json} {account : Account} :
    readStored text = some (value, account) ↔
      Json.parse? text = some value ∧ Account.form.decode value = .ok account := by
  have hread : readStored text = some (value, account) ↔ ∃ json, Json.parse? text = some json ∧
      ∃ decoded, Account.form.decode json = .ok decoded ∧ json = value ∧ decoded = account := by
    simp [readStored, Option.bind_eq_some_iff, toOption_eq_some_iff]
  rw [hread]
  constructor
  · rintro ⟨json, hparse, decoded, hdecode, rfl, rfl⟩
    exact ⟨hparse, hdecode⟩
  · rintro ⟨hparse, hdecode⟩
    exact ⟨value, hparse, account, hdecode, rfl, rfl⟩

-- The stored text is no account or one of a later version, so nothing may be written.
def forbids (account : Account) : Option String → Bool
  | none => false
  | some text =>
      match readStored text with
      | none => true
      | some (_, stored) => !account.isSameOrPast stored

-- The account takes the place of the stored text.
def rewrites (account : Account) : Option String → Bool
  | none => true
  | some text =>
      match readStored text with
      | none => false
      | some (value, stored) => account.isSameOrPast stored && !(account.value == value)

theorem rewrites_some_iff (account : Account) (text : String) :
    rewrites account (some text) = true ↔ ∃ value stored, readStored text = some (value, stored) ∧
      stored.version ≤ account.version ∧ account.value ≠ value := by
  unfold rewrites
  rcases hread : readStored text with _ | ⟨value, stored⟩
  · simp [hread]
  · have hvalue := Json.beq_iff_eq_of_readable account.readable_value value
    simp [hread, Account.isSameOrPast, ← hvalue]

theorem forbids_iff (account : Account) (stored : Option String) :
    forbids account stored = true ↔ ∃ text, stored = some text ∧
      ∀ value earlier, readStored text = some (value, earlier) →
        account.version < earlier.version := by
  cases stored with
  | none => simp [forbids]
  | some text =>
      rcases hread : readStored text with _ | ⟨value, earlier⟩
      · simp [forbids, hread]
      · simp [forbids, hread, Account.isSameOrPast]

-- What may be overwritten and is not has the record of the account already.
theorem readStored_of_not_rewrites {account : Account} {stored : Option String}
    (hforbids : forbids account stored = false) (hrewrites : ¬rewrites account stored = true) :
    ∃ text, stored = some text ∧ readStored text = some (account.value, account.asRecorded) := by
  cases stored with
  | none => exact absurd rfl hrewrites
  | some text =>
      refine ⟨text, rfl, ?_⟩
      rcases hread : readStored text with _ | ⟨value, earlier⟩
      · simp [forbids, hread] at hforbids
      · have hversion : account.isSameOrPast earlier = true := by simpa [forbids, hread] using hforbids
        have hsame : account.value = value := by
          have hvalue := Json.beq_iff_eq_of_readable account.readable_value value
          simpa [rewrites, hread, hversion, hvalue] using hrewrites
        subst hsame
        obtain ⟨-, hdecode⟩ := readStored_eq_some_iff.mp hread
        rw [account.decode_value] at hdecode
        cases hdecode
        rfl

-- Nothing is stored, or an account of the same version or an earlier one with another record.
theorem rewrites_iff (account : Account) (stored : Option String) :
    rewrites account stored = true ↔ ∀ text, stored = some text →
      ∃ value earlier, readStored text = some (value, earlier) ∧
        earlier.version ≤ account.version ∧ account.value ≠ value := by
  cases stored with
  | none => simp [rewrites]
  | some text => simp only [rewrites_some_iff, Option.some.injEq, forall_eq']

-- What stands for itself is not written again.
theorem storedText_ne_of_rewrites {account : Account} {text : String}
    (h : rewrites account (some text) = true) : account.storedText ≠ text := by
  rintro rfl
  obtain ⟨value, stored, hread, -, hvalue⟩ := (rewrites_some_iff account _).mp h
  rw [Account.readStored_storedText] at hread
  cases hread
  exact hvalue rfl

theorem forbids_storedText (account old : Account) :
    forbids account (some old.storedText) = !decide (old.version ≤ account.version) := by
  rw [forbids, Account.readStored_storedText]
  rfl

variable (layout : Layout) (key : Key) (account : Account) (store : Store)

theorem record?_of_storedText {key : Key} {account : Account}
    (h : store.value? (layout.valueKey key.text) = some account.storedText) :
    store.record? layout key = some account.asRecorded := by
  rw [Store.record?, h, Option.bind_some, Account.readStored_storedText]
  rfl

-- Besides the new value there is at most a move between the two index sets.
theorem update_eq (value : Json) (stored : Account) :
    ∃ moves archived, update layout key account value stored =
        ⟨(if account.value == value then [] else
            [.set (layout.valueKey key.text) account.storedText]) ++ moves, archived, []⟩ ∧
      (moves = [] ∨ moves = [.move layout.activeSet layout.archiveSet key.text] ∨
        moves = [.move layout.archiveSet layout.activeSet key.text]) := by
  rcases hstatus : account.status with _ | _ <;> rcases hold : stored.status with _ | _ <;>
    simp only [update, hstatus, hold]
  · exact ⟨[], [], by simp, .inl rfl⟩
  · exact ⟨[.move layout.archiveSet layout.activeSet key.text], [], rfl, .inr (.inr rfl)⟩
  · exact ⟨[.move layout.activeSet layout.archiveSet key.text], [key], rfl, .inr (.inl rfl)⟩
  · exact ⟨[], [], by simp, .inl rfl⟩

theorem badKeys_forAccount (stored : Option String) :
    (forAccount layout key account stored).badKeys =
      if forbids account stored then [key] else [] := by
  cases stored with
  | none => rfl
  | some text =>
      rcases hread : readStored text with _ | ⟨value, stored⟩
      · simp [forAccount, forbids, hread]
      · by_cases h : account.isSameOrPast stored
        · obtain ⟨moves, archived, hupdate, -⟩ := update_eq layout key account value stored
          simp [forAccount, forbids, hread, h, hupdate]
        · simp [forAccount, forbids, hread, h]

theorem value?_update (value : Json) (stored : Account) (name : String) :
    (store.applyAll (update layout key account value stored).commands).value? name =
      if name = layout.valueKey key.text ∧ (account.value == value) = false then
        some account.storedText
      else store.value? name := by
  obtain ⟨moves, archived, hupdate, hmoves⟩ := update_eq layout key account value stored
  rw [hupdate]
  by_cases h : account.value == value <;> rcases hmoves with rfl | rfl | rfl <;>
    simp [h, Store.apply, Store.value?_setValue]

theorem value?_forAccount (stored : Option String) (name : String) :
    (store.applyAll (forAccount layout key account stored).commands).value? name =
      if name = layout.valueKey key.text ∧ rewrites account stored then some account.storedText
      else store.value? name := by
  cases stored with
  | none => simp [forAccount, insertion, rewrites, Store.apply, Store.value?_setValue]
  | some text =>
      rcases hread : readStored text with _ | ⟨value, stored⟩
      · simp [forAccount, rewrites, hread]
      · by_cases h : account.isSameOrPast stored
        · simp [forAccount, rewrites, hread, h, value?_update]
        · simp [forAccount, rewrites, hread, h]

theorem isIndexed_update (value : Json) (stored : Account) (member : String) :
    (store.applyAll (update layout key account value stored).commands).IsIndexed layout member ↔
      store.IsIndexed layout member := by
  have hset (name text : String) :
      (store.setValue name text).IsIndexed layout member ↔ store.IsIndexed layout member := Iff.rfl
  obtain ⟨moves, archived, hupdate, hmoves⟩ := update_eq layout key account value stored
  rw [hupdate]
  by_cases h : account.value == value <;> rcases hmoves with rfl | rfl | rfl <;>
    simp [h, Store.apply, hset, Store.isIndexed_archive, Store.isIndexed_unarchive]

-- Only an account that nothing is stored for comes into the index anew.
theorem isIndexed_forAccount (stored : Option String) (member : String) :
    (store.applyAll (forAccount layout key account stored).commands).IsIndexed layout member ↔
      (stored = none ∧ member = key.text) ∨ store.IsIndexed layout member := by
  cases stored with
  | none =>
      have hset (store : Store) (name text : String) :
          (store.setValue name text).IsIndexed layout member ↔ store.IsIndexed layout member :=
        Iff.rfl
      simp [forAccount, insertion, Store.apply, hset, Store.isIndexed_addActive]
  | some text =>
      rcases hread : readStored text with _ | ⟨value, stored⟩
      · simp [forAccount, hread]
      · by_cases h : account.isSameOrPast stored
        · simp [forAccount, hread, h, isIndexed_update]
        · simp [forAccount, hread, h]

variable {layout store} in
theorem isListedTwice_update {key : Key} {account : Account} {value : Json} {stored : Account}
    {member : String}
    (h : (store.applyAll (update layout key account value stored).commands).IsListedTwice layout
      member) : store.IsListedTwice layout member := by
  have hset {name text : String} (h : (store.setValue name text).IsListedTwice layout member) :
      store.IsListedTwice layout member := h
  obtain ⟨moves, archived, hupdate, hmoves⟩ := update_eq layout key account value stored
  rw [hupdate] at h
  by_cases hvalue : account.value == value <;> rcases hmoves with rfl | rfl | rfl <;>
    simp only [hvalue, ite_true, Bool.false_eq_true, ite_false, List.nil_append, List.cons_append,
      Store.applyAll_cons, Store.applyAll_nil, Store.apply] at h
  · exact h
  · exact h.of_move layout (.inl ⟨rfl, rfl⟩)
  · exact h.of_move layout (.inr ⟨rfl, rfl⟩)
  · exact hset h
  · exact hset (h.of_move layout (.inl ⟨rfl, rfl⟩))
  · exact hset (h.of_move layout (.inr ⟨rfl, rfl⟩))

-- Only an account that is listed already and taken for a new one could be listed twice.
variable {layout store} in
theorem isListedTwice_forAccount {key : Key} {account : Account} {stored : Option String}
    {member : String}
    (h : (store.applyAll (forAccount layout key account stored).commands).IsListedTwice layout
      member) :
    store.IsListedTwice layout member ∨ stored = none ∧ store.IsIndexed layout key.text := by
  cases stored with
  | none =>
      have hadded : (store.addMember layout.activeSet key.text).IsListedTwice layout member := h
      exact (hadded.of_addActive layout).imp_right fun hindexed => ⟨rfl, hindexed.2⟩
  | some text =>
      refine .inl ?_
      rcases hread : readStored text with _ | ⟨value, earlier⟩
      · simpa [forAccount, hread] using h
      · by_cases hversion : account.isSameOrPast earlier
        · simp only [forAccount, hread, hversion, ite_true] at h
          exact isListedTwice_update h
        · simpa [forAccount, hread, hversion] using h

-- The index lists other accounts and other sets as before.
theorem mem_members_update (value : Json) (stored : Account) {set member : String}
    (h : ¬((set = layout.activeSet ∨ set = layout.archiveSet) ∧ member = key.text)) :
    member ∈ (store.applyAll (update layout key account value stored).commands).members set ↔
      member ∈ store.members set := by
  have hback : ¬((set = layout.archiveSet ∨ set = layout.activeSet) ∧ member = key.text) :=
    fun hboth => h ⟨hboth.1.symm, hboth.2⟩
  obtain ⟨moves, archived, hupdate, hmoves⟩ := update_eq layout key account value stored
  rw [hupdate]
  by_cases hvalue : account.value == value <;> rcases hmoves with rfl | rfl | rfl <;>
    simp [hvalue, Store.apply, Store.mem_members_moveMember_of_ne _ h,
      Store.mem_members_moveMember_of_ne _ hback]

-- An account leaves the archive if it was closed and is open now, and gets there if it was open
-- and is closed now, given that the index lists it at all.
theorem mem_archiveSet_update (value : Json) (stored : Account) :
    key.text ∈ (store.applyAll (update layout key account value stored).commands).members
        layout.archiveSet ↔
      (key.text ∈ store.members layout.archiveSet ∧
          ¬(account.status = .active ∧ stored.status = .closed)) ∨
        (key.text ∈ store.members layout.activeSet ∧
          account.status = .closed ∧ stored.status = .active) := by
  have hne := layout.activeSet_ne_archiveSet
  have hleft (store : Store) := store.notMem_source_moveMember hne.symm key.text
  have harrived (store : Store) := store.mem_destination_moveMember layout.activeSet
    layout.archiveSet key.text
  unfold update
  cases account.status <;> cases stored.status <;> by_cases hvalue : account.value == value <;>
    simp [hvalue, Store.apply, hleft, harrived, or_comm]

theorem mem_activeSet_update (value : Json) (stored : Account) :
    key.text ∈ (store.applyAll (update layout key account value stored).commands).members
        layout.activeSet ↔
      (key.text ∈ store.members layout.activeSet ∧
          ¬(account.status = .closed ∧ stored.status = .active)) ∨
        (key.text ∈ store.members layout.archiveSet ∧
          account.status = .active ∧ stored.status = .closed) := by
  have hne := layout.activeSet_ne_archiveSet
  have hleft (store : Store) := store.notMem_source_moveMember hne key.text
  have harrived (store : Store) := store.mem_destination_moveMember layout.archiveSet
    layout.activeSet key.text
  unfold update
  cases account.status <;> cases stored.status <;> by_cases hvalue : account.value == value <;>
    simp [hvalue, Store.apply, hleft, harrived, or_comm]

theorem mem_members_forAccount (stored : Option String) {set member : String}
    (h : ¬((set = layout.activeSet ∨ set = layout.archiveSet) ∧ member = key.text)) :
    member ∈ (store.applyAll (forAccount layout key account stored).commands).members set ↔
      member ∈ store.members set := by
  cases stored with
  | none =>
      have hactive : ¬(set = layout.activeSet ∧ member = key.text) :=
        fun hboth => h ⟨.inl hboth.1, hboth.2⟩
      simp [forAccount, insertion, Store.apply, Store.mem_members_addMember, hactive]
  | some text =>
      rcases hread : readStored text with _ | ⟨value, earlier⟩
      · simp [forAccount, hread]
      · by_cases hversion : account.isSameOrPast earlier
        · simp [forAccount, hread, hversion, mem_members_update layout key account store _ _ h]
        · simp [forAccount, hread, hversion]

end One

section All

variable (layout : Layout)

-- The plan for some accounts against what is stored in a view of the store.
def against (view : Store) (entries : List (Key × Account)) : Plan :=
  forAccounts layout entries ((Save.valueKeys layout entries).map view.value?)

variable (view store : Store)

theorem against_cons (key : Key) (account : Account) (entries : List (Key × Account)) :
    against layout view ((key, account) :: entries) =
      forAccount layout key account (view.value? (layout.valueKey key.text)) ++
        against layout view entries := rfl

@[simp] theorem commands_append (a b : Plan) : (a ++ b).commands = a.commands ++ b.commands := rfl

@[simp] theorem badKeys_append (a b : Plan) : (a ++ b).badKeys = a.badKeys ++ b.badKeys := rfl

theorem badKeys_against (entries : List (Key × Account)) :
    (against layout view entries).badKeys =
      (entries.filter fun entry =>
        forbids entry.2 (view.value? (layout.valueKey entry.1.text))).map (·.1) := by
  induction entries with
  | nil => rfl
  | cons entry entries ih =>
      obtain ⟨key, account⟩ := entry
      rw [against_cons, badKeys_append, badKeys_forAccount, ih]
      by_cases h : forbids account (view.value? (layout.valueKey key.text)) <;> simp [h]

theorem badKeys_against_eq_nil_iff (entries : List (Key × Account)) :
    (against layout view entries).badKeys = [] ↔
      ∀ key account, (key, account) ∈ entries →
        forbids account (view.value? (layout.valueKey key.text)) = false := by
  rw [badKeys_against, List.map_eq_nil_iff, List.filter_eq_nil_iff]
  constructor
  · intro h key account hmem
    simpa using h (key, account) hmem
  · rintro h ⟨key, account⟩ hmem
    simp [h key account hmem]

theorem value?_against_of_notMem {entries : List (Key × Account)} {name : String}
    (h : ∀ entry ∈ entries, name ≠ layout.valueKey entry.1.text) :
    (store.applyAll (against layout view entries).commands).value? name = store.value? name := by
  induction entries generalizing store with
  | nil => rfl
  | cons entry entries ih =>
      obtain ⟨key, account⟩ := entry
      have hhead : name ≠ layout.valueKey key.text := h (key, account) (by simp)
      rw [against_cons, commands_append, Store.applyAll_append,
        ih _ fun other hother => h other (List.mem_cons_of_mem _ hother), value?_forAccount,
        if_neg fun hname => hhead hname.1]

theorem value?_against_of_notEntry {entries : List (Key × Account)} {key : Key}
    (h : ∀ account, (key, account) ∉ entries) :
    (store.applyAll (against layout view entries).commands).value? (layout.valueKey key.text) =
      store.value? (layout.valueKey key.text) := by
  refine value?_against_of_notMem layout view store fun entry hentry he => ?_
  obtain rfl := layout.key_eq_of_valueKey_eq he
  exact h entry.2 hentry

-- Each account stands once among the entries, so the other ones leave its value alone.
theorem value?_against {entries : List (Key × Account)} (hnodup : (entries.map (·.1)).Nodup)
    {key : Key} {account : Account} (hmem : (key, account) ∈ entries) :
    (store.applyAll (against layout view entries).commands).value? (layout.valueKey key.text) =
      if rewrites account (view.value? (layout.valueKey key.text)) then some account.storedText
      else store.value? (layout.valueKey key.text) := by
  induction entries generalizing store with
  | nil => cases hmem
  | cons entry entries ih =>
      obtain ⟨other, otherAccount⟩ := entry
      obtain ⟨hother, hrest⟩ := List.nodup_cons.mp hnodup
      rw [against_cons, commands_append, Store.applyAll_append]
      rcases List.mem_cons.mp hmem with hhead | htail
      · cases hhead
        have hnot : ∀ entry ∈ entries, layout.valueKey key.text ≠ layout.valueKey entry.1.text := by
          intro entry hentry he
          have hkey := layout.key_eq_of_valueKey_eq he
          exact hother (List.mem_map.mpr ⟨entry, hentry, hkey.symm⟩)
        rw [value?_against_of_notMem layout view _ hnot, value?_forAccount]
        simp
      · have hne : layout.valueKey key.text ≠ layout.valueKey other.text := by
          intro he
          have hkey := layout.key_eq_of_valueKey_eq he
          exact hother (List.mem_map.mpr ⟨(key, account), htail, hkey⟩)
        rw [ih _ hrest htail, value?_forAccount]
        simp [hne]

-- What the transaction does to a value that it does not leave alone.
theorem value?_against_cases {entries : List (Key × Account)}
    (hnodup : (entries.map (·.1)).Nodup) (name : String) :
    (store.applyAll (against layout view entries).commands).value? name = store.value? name ∨
      ∃ key account, (key, account) ∈ entries ∧ name = layout.valueKey key.text ∧
        rewrites account (view.value? name) = true ∧
        (store.applyAll (against layout view entries).commands).value? name =
          some account.storedText := by
  by_cases h : ∃ entry ∈ entries, name = layout.valueKey entry.1.text
  · obtain ⟨⟨key, account⟩, hmem, rfl⟩ := h
    rw [value?_against layout view store hnodup hmem]
    by_cases hrewrites : rewrites account (view.value? (layout.valueKey key.text))
    · exact .inr ⟨key, account, hmem, rfl, hrewrites, if_pos hrewrites⟩
    · exact .inl (if_neg hrewrites)
  · refine .inl (value?_against_of_notMem layout view store fun entry hentry hname => ?_)
    exact h ⟨entry, hentry, hname⟩

theorem mem_members_against {entries : List (Key × Account)} {set member : String}
    (h : ∀ entry ∈ entries,
      ¬((set = layout.activeSet ∨ set = layout.archiveSet) ∧ member = entry.1.text)) :
    member ∈ (store.applyAll (against layout view entries).commands).members set ↔
      member ∈ store.members set := by
  induction entries generalizing store with
  | nil => rfl
  | cons entry entries ih =>
      obtain ⟨key, account⟩ := entry
      have hhead := h (key, account) (by simp)
      rw [against_cons, commands_append, Store.applyAll_append,
        ih _ fun other hother => h other (List.mem_cons_of_mem _ hother),
        mem_members_forAccount layout key account store _ hhead]

theorem mem_members_against_of_notEntry {entries : List (Key × Account)} {key : Key}
    (h : ∀ account, (key, account) ∉ entries) (set : String) :
    key.text ∈ (store.applyAll (against layout view entries).commands).members set ↔
      key.text ∈ store.members set := by
  refine mem_members_against layout view store fun entry hentry ⟨_, htext⟩ => ?_
  obtain rfl : key = entry.1 := congrArg Key.mk htext
  exact h entry.2 hentry

-- What the transaction does to the place of an entry in the index, its own part does alone: the
-- rest of the transaction is about other accounts.
theorem mem_members_against_of_mem {entries : List (Key × Account)}
    (hnodup : (entries.map (·.1)).Nodup) {key : Key} {account : Account}
    (hmem : (key, account) ∈ entries) :
    ∃ before : Store, (∀ set, key.text ∈ before.members set ↔ key.text ∈ store.members set) ∧
      ∀ set, key.text ∈ (store.applyAll (against layout view entries).commands).members set ↔
        key.text ∈ (before.applyAll (forAccount layout key account
          (view.value? (layout.valueKey key.text))).commands).members set := by
  induction entries generalizing store with
  | nil => cases hmem
  | cons entry entries ih =>
      obtain ⟨other, otherAccount⟩ := entry
      obtain ⟨hother, hrest⟩ := List.nodup_cons.mp hnodup
      rw [against_cons, commands_append, Store.applyAll_append]
      rcases List.mem_cons.mp hmem with hhead | htail
      · cases hhead
        refine ⟨store, fun set => Iff.rfl, fun set => ?_⟩
        refine mem_members_against layout view _ fun entry hentry ⟨_, htext⟩ => ?_
        have hkey : key = entry.1 := congrArg Key.mk htext
        exact hother (List.mem_map.mpr ⟨entry, hentry, hkey.symm⟩)
      · obtain ⟨before, hbefore, hafter⟩ := ih (store.applyAll (forAccount layout other
          otherAccount (view.value? (layout.valueKey other.text))).commands) hrest htail
        refine ⟨before, fun set => (hbefore set).trans ?_, hafter⟩
        refine mem_members_forAccount layout other otherAccount store _ fun ⟨_, htext⟩ => ?_
        have hkey : key = other := congrArg Key.mk htext
        exact hother (List.mem_map.mpr ⟨(key, account), htail, hkey⟩)

-- Whether it had to be written or not, every account is stored in the end.
theorem readStored_against {entries : List (Key × Account)} (hnodup : (entries.map (·.1)).Nodup)
    (hbad : (against layout store entries).badKeys = []) {key : Key} {account : Account}
    (hmem : (key, account) ∈ entries) :
    ∃ text, (store.applyAll (against layout store entries).commands).value?
        (layout.valueKey key.text) = some text ∧
      readStored text = some (account.value, account.asRecorded) := by
  have hforbids := (badKeys_against_eq_nil_iff layout store entries).mp hbad key account hmem
  rw [value?_against layout store store hnodup hmem]
  by_cases hrewrites : rewrites account (store.value? (layout.valueKey key.text)) = true
  · exact ⟨account.storedText, if_pos hrewrites, account.readStored_storedText⟩
  · rw [if_neg hrewrites]
    exact readStored_of_not_rewrites hforbids hrewrites

theorem record?_against {entries : List (Key × Account)} (hnodup : (entries.map (·.1)).Nodup)
    (hbad : (against layout store entries).badKeys = []) {key : Key} {account : Account}
    (hmem : (key, account) ∈ entries) :
    (store.applyAll (against layout store entries).commands).record? layout key =
      some account.asRecorded := by
  obtain ⟨text, htext, hread⟩ := readStored_against layout store hnodup hbad hmem
  rw [Store.record?, htext, Option.bind_some, hread]
  rfl

-- A record after the transaction is the one before it or that of an entry.
theorem record?_against_cases {entries : List (Key × Account)}
    (hnodup : (entries.map (·.1)).Nodup) (key : Key) :
    (store.applyAll (against layout view entries).commands).record? layout key =
        store.record? layout key ∨
      ∃ account, (key, account) ∈ entries ∧
        (store.applyAll (against layout view entries).commands).record? layout key =
          some account.asRecorded := by
  rcases value?_against_cases layout view store hnodup (layout.valueKey key.text) with
    hkept | ⟨other, account, hmem, hname, -, htext⟩
  · exact .inl (by rw [Store.record?, hkept, Store.record?])
  · have hkey : key = other := layout.key_eq_of_valueKey_eq hname
    subst hkey
    exact .inr ⟨account, hmem, record?_of_storedText layout _ htext⟩

theorem isIndexed_against (entries : List (Key × Account)) (member : String) :
    (store.applyAll (against layout view entries).commands).IsIndexed layout member ↔
      (∃ entry ∈ entries, view.value? (layout.valueKey entry.1.text) = none ∧
          member = entry.1.text) ∨
        store.IsIndexed layout member := by
  induction entries generalizing store with
  | nil =>
      have hempty : (against layout view []).commands = [] := rfl
      simp [hempty]
  | cons entry entries ih =>
      obtain ⟨key, account⟩ := entry
      rw [against_cons, commands_append, Store.applyAll_append, ih, isIndexed_forAccount]
      simp only [List.exists_mem_cons_iff]
      rw [← or_assoc, or_comm (a := ∃ entry, _)]

-- An index that lists exactly what is stored does so after the transaction as well.
theorem isIndexed_against_iff {entries : List (Key × Account)} (hnodup : (entries.map (·.1)).Nodup)
    (hindexed : ∀ member, store.IsIndexed layout member ↔
      ∃ text, store.value? (layout.valueKey member) = some text) (member : String) :
    (store.applyAll (against layout store entries).commands).IsIndexed layout member ↔
      ∃ text, (store.applyAll (against layout store entries).commands).value?
        (layout.valueKey member) = some text := by
  rw [isIndexed_against, hindexed]
  by_cases hmember : ∃ entry ∈ entries, member = entry.1.text
  · obtain ⟨⟨key, account⟩, hmem, rfl⟩ := hmember
    rw [value?_against layout store store hnodup hmem]
    cases hold : store.value? (layout.valueKey key.text) with
    | none =>
        have hentry : ∃ entry ∈ entries, store.value? (layout.valueKey entry.1.text) = none ∧
          key.text = entry.1.text := ⟨(key, account), hmem, hold, rfl⟩
        simp [hentry, rewrites]
    | some text =>
        by_cases hrewrites : rewrites account (some text) <;> simp [hrewrites]
  · have hother : ∀ entry ∈ entries, layout.valueKey member ≠ layout.valueKey entry.1.text :=
      fun entry hentry hname => hmember ⟨entry, hentry, layout.valueKey_injective hname⟩
    rw [value?_against_of_notMem layout store store hother]
    constructor
    · rintro (⟨entry, hentry, -, he⟩ | hold)
      · exact absurd ⟨entry, hentry, he⟩ hmember
      · exact hold
    · exact .inr

variable {layout view store} in
-- None is listed twice if what is taken for new was not listed before.
theorem isListedTwice_against {entries : List (Key × Account)} (hnodup : (entries.map (·.1)).Nodup)
    (hnew : ∀ entry ∈ entries, view.value? (layout.valueKey entry.1.text) = none →
      ¬store.IsIndexed layout entry.1.text) {member : String}
    (h : (store.applyAll (against layout view entries).commands).IsListedTwice layout member) :
    store.IsListedTwice layout member := by
  induction entries generalizing store with
  | nil => exact h
  | cons entry entries ih =>
      obtain ⟨key, account⟩ := entry
      obtain ⟨hkey, hrest⟩ := List.nodup_cons.mp hnodup
      rw [against_cons, commands_append, Store.applyAll_append] at h
      have hafter := ih hrest (fun other hother hnone hindexed => ?_) h
      · rcases isListedTwice_forAccount hafter with hbefore | ⟨hnone, hindexed⟩
        · exact hbefore
        · exact absurd hindexed (hnew (key, account) (by simp) hnone)
      · rw [isIndexed_forAccount] at hindexed
        rcases hindexed with ⟨-, htext⟩ | hindexed
        · have hsame : other.1 = key := congrArg Key.mk htext
          exact hkey (List.mem_map.mpr ⟨other, hother, hsame⟩)
        · exact hnew other (List.mem_cons_of_mem _ hother) hnone hindexed

end All

end Plan

namespace Ledger

theorem mem_saved_iff (ledger : Ledger) (key : Key) (account : Account) :
    (key, account) ∈ ledger.saved ↔ ledger.get? key = some account ∧ account.outOfSync = false := by
  unfold saved get?
  rw [List.mem_filter, SortedMap.get?_eq_some_iff]
  simp

theorem notMem_saved_of_none {ledger : Ledger} {key : Key} (h : ledger.get? key = none)
    (account : Account) : (key, account) ∉ ledger.saved := by
  rw [mem_saved_iff, h]
  rintro ⟨hlive, -⟩
  cases hlive

theorem nodup_saved (ledger : Ledger) : (ledger.saved.map (·.1)).Nodup :=
  (ledger.accounts.nodup_keys).sublist (List.filter_sublist.map _)

end Ledger

end ShardedLedger
