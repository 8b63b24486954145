import ShardedLedger.Json.Parser
import ShardedLedger.Proofs.Json.Scalar
import ShardedLedger.Proofs.SortedMap

namespace ShardedLedger.Json

section AsRead

mutual

-- A value as it comes out of its own text: the members of every object in the order of their
-- names, of two with one name the later one.
def asRead : Json → Json
  | .arr items => .arr (itemsAsRead items)
  | .obj members => object (membersAsRead members)
  | json => json

def itemsAsRead : List Json → List Json
  | [] => []
  | item :: rest => asRead item :: itemsAsRead rest

def membersAsRead : List (String × Json) → List (String × Json)
  | [] => []
  | (name, value) :: rest => (name, asRead value) :: membersAsRead rest

end

theorem itemsAsRead_eq_map (items : List Json) : itemsAsRead items = items.map asRead := by
  induction items with
  | nil => rfl
  | cons item rest ih => rw [itemsAsRead, ih, List.map_cons]

theorem membersAsRead_eq_map (members : List (String × Json)) :
    membersAsRead members = members.map fun member => (member.1, member.2.asRead) := by
  induction members with
  | nil => rfl
  | cons member rest ih =>
      obtain ⟨name, value⟩ := member
      rw [membersAsRead, ih, List.map_cons]

-- Values without fractions whose integers fit a word and that nest no deeper than so many
-- levels.
inductive Readable : Nat → Json → Prop
  | null {depth : Nat} : Readable depth .null
  | bool {depth : Nat} {value : Bool} : Readable depth (.bool value)
  | int {depth : Nat} {value : Int} (fits : FitsWord value) : Readable depth (.int value)
  | str {depth : Nat} {value : String} : Readable depth (.str value)
  | arr {depth : Nat} {items : List Json} (each : ∀ item ∈ items, Readable depth item) :
      Readable (depth + 1) (.arr items)
  | obj {depth : Nat} {members : List (String × Json)}
      (each : ∀ member ∈ members, Readable depth member.2) : Readable (depth + 1) (.obj members)

theorem Readable.mono {depth more : Nat} {json : Json} (h : Readable depth json)
    (hle : depth ≤ more) : Readable more json := by
  induction h generalizing more with
  | null => exact .null
  | bool => exact .bool
  | int fits => exact .int fits
  | str => exact .str
  | arr _ ih =>
      obtain ⟨more, rfl⟩ := Nat.exists_eq_add_of_le' (Nat.le_of_add_left_le hle)
      exact .arr fun item hitem => ih item hitem (by omega)
  | obj _ ih =>
      obtain ⟨more, rfl⟩ := Nat.exists_eq_add_of_le' (Nat.le_of_add_left_le hle)
      exact .obj fun member hmember => ih member hmember (by omega)

theorem mem_entries_ofList {ν : Type} {list : List (String × ν)} {entry : String × ν}
    (h : entry ∈ (SortedMap.ofList list).entries) : entry ∈ list := by
  have hfold : ∀ (more : List (String × ν)) (map : SortedMap String ν),
      entry ∈ (map.insertAll more).entries → entry ∈ more ∨ entry ∈ map.entries := by
    intro more
    induction more with
    | nil => intro map hmem; exact .inr hmem
    | cons head more ih =>
        intro map hmem
        rcases ih (map.insert head.1 head.2) hmem with hmem | hmem
        · exact .inl (List.mem_cons_of_mem _ hmem)
        · rcases SortedMap.mem_insertEntry hmem with rfl | hmem
          · exact .inl (by simp)
          · exact .inr hmem
  rcases hfold list .empty h with hmem | hmem
  · exact hmem
  · simp [SortedMap.empty] at hmem

theorem readable_object {depth : Nat} {members : List (String × Json)}
    (h : ∀ member ∈ members, Readable depth member.2) : Readable (depth + 1) (object members) :=
  .obj fun member hmember => h member (mem_entries_ofList hmember)

theorem asRead_obj {members : List (String × Json)} (hsorted : SortedMap.Ascending members)
    (h : ∀ member ∈ members, member.2.asRead = member.2) :
    asRead (.obj members) = .obj members := by
  have hmap : members.map (fun member => (member.1, member.2.asRead)) = members := by
    conv_rhs => rw [← List.map_id members]
    refine List.map_congr_left fun member hmember => ?_
    rw [h member hmember]
    rfl
  rw [asRead, membersAsRead_eq_map, hmap, object, SortedMap.entries_ofList hsorted]

-- What an object lists in order already is left as it stands.
theorem asRead_object {members : List (String × Json)}
    (h : ∀ member ∈ members, member.2.asRead = member.2) :
    asRead (object members) = object members :=
  asRead_obj (SortedMap.ascending_entries _) fun member hmember =>
    h member (mem_entries_ofList hmember)

end AsRead

section Layout

theorem writeItems_cons (item : Json) (rest : List Json) :
    writeItems (item :: rest) = write item ++ rest.flatMap fun next => ',' :: write next := by
  induction rest generalizing item with
  | nil => simp [writeItems]
  | cons next rest ih => simp only [writeItems, ih, List.flatMap_cons, List.cons_append]

theorem writeMembers_cons (member : String × Json) (rest : List (String × Json)) :
    writeMembers (member :: rest) = writeString member.1 ++ ':' :: write member.2 ++
      rest.flatMap fun next => ',' :: writeString next.1 ++ ':' :: write next.2 := by
  induction rest generalizing member with
  | nil => simp [writeMembers]
  | cons next rest ih =>
      simp only [writeMembers, ih, List.flatMap_cons, List.cons_append, List.append_assoc]

theorem skipBlanks_cons (c : Char) (rest : List Char) (hc : isBlank c = false) :
    skipBlanks (c :: rest) = c :: rest := by
  simp [skipBlanks, hc]

theorem not_isBlank_of_isDigit (c : Char) (hc : c.isDigit) : isBlank c = false := by
  simp only [isBlank, Bool.or_eq_false_iff, decide_eq_false_iff_not]
  refine ⟨⟨⟨?_, ?_⟩, ?_⟩, ?_⟩ <;> rintro rfl <;> exact absurd hc (by decide)

theorem write_int_eq_cons (value : Int) :
    ∃ c text, write (.int value) = c :: text ∧ (c = '-' ∨ c.isDigit) := by
  cases value with
  | ofNat n =>
      obtain ⟨first, digits, hdigits, hfirst⟩ := isDigit_cons_of_toDigits n
      exact ⟨first, digits, (Nat.toList_repr (n := n)).trans hdigits, .inr hfirst⟩
  | negSucc n =>
      have hminus : toString (Int.negSucc n) = "-" ++ (n + 1).repr := rfl
      exact ⟨'-', (n + 1).repr.toList, by rw [write, hminus, String.toList_append]; rfl, .inl rfl⟩

-- No value begins like a blank or like the end of a list.
theorem write_eq_cons {depth : Nat} {json : Json} (h : Readable depth json) :
    ∃ c text, write json = c :: text ∧ isBlank c = false ∧ c ≠ ']' := by
  cases h with
  | null => exact ⟨'n', _, rfl, by decide, by decide⟩
  | @bool _ value =>
      cases value
      · exact ⟨'f', _, rfl, by decide, by decide⟩
      · exact ⟨'t', _, rfl, by decide, by decide⟩
  | @int _ value =>
      obtain ⟨c, text, htext, rfl | hc⟩ := write_int_eq_cons value
      · exact ⟨'-', text, htext, by decide, by decide⟩
      · refine ⟨c, text, htext, not_isBlank_of_isDigit c hc, ?_⟩
        rintro rfl
        exact absurd hc (by decide)
  | str => exact ⟨'\"', _, rfl, by decide, by decide⟩
  | arr => exact ⟨'[', _, rfl, by decide, by decide⟩
  | obj => exact ⟨'\x7b', _, rfl, by decide, by decide⟩

-- The text begins neither with a blank nor like a list or an object.
def OpensScalar (text : List Char) : Prop :=
  ∃ c rest, text = c :: rest ∧ isBlank c = false ∧ c ≠ '[' ∧ c ≠ '\x7b'

theorem opensScalar_int (value : Int) (rest : List Char) :
    OpensScalar (write (.int value) ++ rest) := by
  obtain ⟨c, text, htext, hc⟩ := write_int_eq_cons value
  refine ⟨c, text ++ rest, by rw [htext, List.cons_append], ?_⟩
  rcases hc with rfl | hc
  · decide
  · refine ⟨not_isBlank_of_isDigit c hc, ?_, ?_⟩ <;> rintro rfl <;> exact absurd hc (by decide)

theorem opensScalar_str (value : String) (rest : List Char) :
    OpensScalar (write (.str value) ++ rest) := by
  rw [write, writeString_append]
  exact ⟨'\"', _, rfl, by decide, by decide, by decide⟩

theorem readScalar_str (value : String) (rest : List Char) :
    readScalar (write (.str value) ++ rest) = .ok (.str value, rest) := by
  rw [write, writeString_append]
  simp only [readScalar, readString_escape, bind, Except.bind, pure, Except.pure]

end Layout

-- A reader that takes the written value off the front of any text in which a value may end.
def Reads {α : Type} (item : Reader α) (json : Json) (value : α) : Prop :=
  ∀ rest, Delimited rest → item (write json ++ rest) = .ok (value, rest)

section Lists

variable {α : Type} (item : Reader α) (result : Json → α)

theorem nextItem_first {depth : Nat} {json : Json} (h : Readable depth json) (rest : List Char) :
    nextItem true (write json ++ rest) = .ok (some (write json ++ rest)) := by
  obtain ⟨c, text, htext, hblank, hend⟩ := write_eq_cons h
  simp [htext, nextItem, skipBlanks_cons c _ hblank]

theorem nextItem_comma {depth : Nat} {json : Json} (h : Readable depth json) (rest : List Char) :
    nextItem false (',' :: write json ++ rest) = .ok (some (write json ++ rest)) := by
  obtain ⟨c, text, htext, hblank, hend⟩ := write_eq_cons h
  have hcomma : skipBlanks (',' :: (c :: (text ++ rest))) = ',' :: c :: (text ++ rest) :=
    skipBlanks_cons ',' _ (by decide)
  simp [htext, nextItem, hcomma, skipBlanks_cons c _ hblank, hend]

theorem delimited_flatMap (list : List Json) (rest : List Char) :
    Delimited ((list.flatMap fun next => ',' :: write next) ++ ']' :: rest) := by
  cases list with
  | nil => exact delimited_cons _ _ (by simp)
  | cons next list => exact delimited_cons _ _ (by simp)

theorem readItems_false {depth : Nat} (items : List Json) (count : Nat) (rest : List Char)
    (hcount : items.length < count) (hreadable : ∀ json ∈ items, Readable depth json)
    (hreads : ∀ json ∈ items, Reads item json (result json)) :
    readItems item count false ((items.flatMap fun next => ',' :: write next) ++ ']' :: rest) =
      .ok (items.map result, ']' :: rest) := by
  induction items generalizing count with
  | nil =>
      obtain ⟨count, rfl⟩ : ∃ less, count = less + 1 := ⟨count - 1, by simp at hcount; omega⟩
      have hend : skipBlanks (']' :: rest) = ']' :: rest := skipBlanks_cons _ _ (by decide)
      simp [readItems, nextItem, hend, bind, Except.bind, pure, Except.pure]
  | cons json items ih =>
      obtain ⟨count, rfl⟩ : ∃ less, count = less + 1 := ⟨count - 1, by simp at hcount; omega⟩
      simp only [List.length_cons] at hcount
      have hnext := nextItem_comma (hreadable json (by simp))
        ((items.flatMap fun next => ',' :: write next) ++ ']' :: rest)
      have hitem := hreads json (by simp) _ (delimited_flatMap items rest)
      have hrest := ih count (by omega) (fun next hnext => hreadable next (by simp [hnext]))
        (fun next hnext => hreads next (by simp [hnext]))
      rw [List.flatMap_cons, List.append_assoc, readItems, hnext]
      simp only [bind, Except.bind, hitem, hrest, pure, Except.pure, List.map_cons]

theorem readItems_writeItems {depth : Nat} (items : List Json) (count : Nat) (rest : List Char)
    (hcount : items.length < count) (hreadable : ∀ json ∈ items, Readable depth json)
    (hreads : ∀ json ∈ items, Reads item json (result json)) :
    readItems item count true (writeItems items ++ ']' :: rest) =
      .ok (items.map result, ']' :: rest) := by
  obtain ⟨count, rfl⟩ : ∃ less, count = less + 1 := ⟨count - 1, by omega⟩
  cases items with
  | nil =>
      have hend : skipBlanks (']' :: rest) = ']' :: rest := skipBlanks_cons _ _ (by decide)
      simp [readItems, writeItems, nextItem, hend, bind, Except.bind, pure, Except.pure]
  | cons json items =>
      simp only [List.length_cons] at hcount
      have hnext := nextItem_first (hreadable json (by simp))
        ((items.flatMap fun next => ',' :: write next) ++ ']' :: rest)
      have hitem := hreads json (by simp) _ (delimited_flatMap items rest)
      have hrest := readItems_false item result items count rest (by omega)
        (fun next hnext => hreadable next (by simp [hnext]))
        (fun next hnext => hreads next (by simp [hnext]))
      rw [writeItems_cons, List.append_assoc, readItems, hnext]
      simp only [bind, Except.bind, hitem, hrest, pure, Except.pure, List.map_cons]

theorem length_le_length_writeItems {depth : Nat} (items : List Json)
    (hreadable : ∀ json ∈ items, Readable depth json) :
    items.length ≤ (writeItems items).length := by
  cases items with
  | nil => simp
  | cons json items =>
      obtain ⟨c, text, htext, -, -⟩ := write_eq_cons (hreadable json (by simp))
      have hrest : ∀ list : List Json,
          list.length ≤ (list.flatMap fun next => ',' :: write next).length := by
        intro list
        induction list with
        | nil => simp
        | cons next list ih =>
            simp only [List.flatMap_cons, List.length_append, List.length_cons]
            omega
      have := hrest items
      rw [writeItems_cons, htext]
      simp only [List.length_append, List.length_cons]
      omega

theorem readList_writeItems {depth : Nat} (items : List Json) (rest : List Char)
    (hreadable : ∀ json ∈ items, Readable depth json)
    (hreads : ∀ json ∈ items, Reads item json (result json)) :
    readList item (writeItems items ++ ']' :: rest) = .ok (items.map result, rest) := by
  have hlength := length_le_length_writeItems items hreadable
  have hread := readItems_writeItems item result items
    ((writeItems items ++ ']' :: rest).length + 1) rest
    (by simp only [List.length_append]; omega) hreadable hreads
  have hend : skipBlanks (']' :: rest) = ']' :: rest := skipBlanks_cons _ _ (by decide)
  simp only [readList, hread, bind, Except.bind, closeList, hend, pure, Except.pure]

end Lists

section Objects

variable {σ : Type} {member : String → σ → Reader σ}

-- Readers that take the colon and the written value off the text behind each name in turn, and
-- so lead from one state to another.
inductive ReadsMembers (member : String → σ → Reader σ) : List (String × Json) → σ → σ → Prop
  | nil {state : σ} : ReadsMembers member [] state state
  | cons {name : String} {json : Json} {members : List (String × Json)} {state next stop : σ}
      (head : ∀ rest, Delimited rest →
        member name state (':' :: write json ++ rest) = .ok (next, rest))
      (tail : ReadsMembers member members next stop) :
      ReadsMembers member ((name, json) :: members) state stop

theorem readsMembers_foldl {add : String × Json → σ → σ} {members : List (String × Json)}
    (h : ∀ entry ∈ members, ∀ state rest, Delimited rest →
      member entry.1 state (':' :: write entry.2 ++ rest) = .ok (add entry state, rest))
    (state : σ) :
    ReadsMembers member members state
      (members.foldl (fun state entry => add entry state) state) := by
  induction members generalizing state with
  | nil => exact .nil
  | cons entry members ih =>
      exact .cons (h entry (by simp) state) (ih (fun next hnext => h next (by simp [hnext])) _)

theorem delimited_flatMap_members (list : List (String × Json)) (rest : List Char) :
    Delimited ((list.flatMap fun next => ',' :: writeString next.1 ++ ':' :: write next.2) ++
      '\x7d' :: rest) := by
  cases list with
  | nil => exact delimited_cons _ _ (by simp)
  | cons next list => exact delimited_cons _ _ (by simp)

theorem nextName_first (name : String) (rest : List Char) :
    nextName true (writeString name ++ rest) =
      .ok (some (name.toList.flatMap escape ++ '\"' :: rest)) := by
  rw [writeString_append, nextName, skipBlanks_cons _ _ (by decide)]
  rfl

theorem nextName_comma (name : String) (rest : List Char) :
    nextName false (',' :: writeString name ++ rest) =
      .ok (some (name.toList.flatMap escape ++ '\"' :: rest)) := by
  rw [List.cons_append, writeString_append, nextName, skipBlanks_cons _ _ (by decide)]
  simp [skipBlanks_cons '\"' _ (by decide)]

theorem readMembers_false {members : List (String × Json)} {state stop : σ}
    (h : ReadsMembers member members state stop) (count : Nat) (rest : List Char)
    (hcount : members.length < count) :
    readMembers member count false state
        ((members.flatMap fun next => ',' :: writeString next.1 ++ ':' :: write next.2) ++
          '\x7d' :: rest) =
      .ok (stop, '\x7d' :: rest) := by
  induction h generalizing count with
  | nil =>
      obtain ⟨count, rfl⟩ : ∃ less, count = less + 1 := ⟨count - 1, by simp at hcount; omega⟩
      have hend : skipBlanks ('\x7d' :: rest) = '\x7d' :: rest := skipBlanks_cons _ _ (by decide)
      simp [readMembers, nextName, hend, bind, Except.bind, pure, Except.pure]
  | @cons name json members state next stop head tail ih =>
      obtain ⟨count, rfl⟩ : ∃ less, count = less + 1 := ⟨count - 1, by simp at hcount; omega⟩
      simp only [List.length_cons] at hcount
      have hentry := head _ (delimited_flatMap_members members rest)
      have hrest := ih count (by omega)
      simp only [List.flatMap_cons, List.append_assoc, List.cons_append] at hentry hrest ⊢
      rw [readMembers, ← List.cons_append, nextName_comma]
      simp only [bind, Except.bind, readString_escape, hentry, hrest]

theorem readMembers_writeMembers {members : List (String × Json)} {state stop : σ}
    (h : ReadsMembers member members state stop) (count : Nat) (rest : List Char)
    (hcount : members.length < count) :
    readMembers member count true state (writeMembers members ++ '\x7d' :: rest) =
      .ok (stop, '\x7d' :: rest) := by
  obtain ⟨count, rfl⟩ : ∃ less, count = less + 1 := ⟨count - 1, by omega⟩
  cases h with
  | nil =>
      have hend : skipBlanks ('\x7d' :: rest) = '\x7d' :: rest := skipBlanks_cons _ _ (by decide)
      simp [readMembers, writeMembers, nextName, hend, bind, Except.bind, pure, Except.pure]
  | @cons name json members _ next _ head tail =>
      simp only [List.length_cons] at hcount
      have hentry := head _ (delimited_flatMap_members members rest)
      have hrest := readMembers_false tail count rest (by omega)
      simp only [writeMembers_cons, List.append_assoc, List.cons_append] at hentry hrest ⊢
      rw [readMembers, nextName_first]
      simp only [bind, Except.bind, readString_escape, hentry, hrest]

theorem length_le_length_writeMembers (members : List (String × Json)) :
    members.length ≤ (writeMembers members).length := by
  cases members with
  | nil => simp
  | cons entry members =>
      have hrest : ∀ list : List (String × Json), list.length ≤ (list.flatMap fun next =>
          ',' :: writeString next.1 ++ ':' :: write next.2).length := by
        intro list
        induction list with
        | nil => simp
        | cons next list ih =>
            simp only [List.flatMap_cons, List.length_append, List.length_cons]
            omega
      have := hrest members
      rw [writeMembers_cons]
      simp only [List.length_append, List.length_cons]
      omega

theorem readObject_writeMembers {members : List (String × Json)} {state stop : σ}
    (h : ReadsMembers member members state stop) (rest : List Char) :
    readObject member state (writeMembers members ++ '\x7d' :: rest) = .ok (stop, rest) := by
  have hlength := length_le_length_writeMembers members
  have hread := readMembers_writeMembers h ((writeMembers members ++ '\x7d' :: rest).length + 1)
    rest (by simp only [List.length_append]; omega)
  have hend : skipBlanks ('\x7d' :: rest) = '\x7d' :: rest := skipBlanks_cons _ _ (by decide)
  simp only [readObject, hread, bind, Except.bind, closeObject, hend, pure, Except.pure]

end Objects

section Values

theorem readColon_cons (rest : List Char) : readColon (':' :: rest) = .ok rest := by
  simp only [readColon, skipBlanks_cons ':' rest (by decide)]

theorem foldl_insertEntry_eq_entries (list : List (String × Json)) :
    list.foldl (fun read entry => SortedMap.insertEntry entry.1 entry.2 read) [] =
      (SortedMap.ofList list).entries := by
  have hfold : ∀ (more : List (String × Json)) (map : SortedMap String Json),
      more.foldl (fun read entry => SortedMap.insertEntry entry.1 entry.2 read) map.entries =
        (map.insertAll more).entries := by
    intro more
    induction more with
    | nil => intro map; rfl
    | cons entry more ih => intro map; exact ih (map.insert entry.1 entry.2)
  exact hfold list .empty

theorem readValue_scalar (depth : Nat) {text : List Char} (h : OpensScalar text) :
    readValue depth text = readScalar text := by
  obtain ⟨c, rest, rfl, hblank, hlist, hobject⟩ := h
  rw [readValue, skipBlanks_cons c rest hblank]
  split
  next heq => exact absurd (List.cons.inj heq).1 hlist
  next heq => exact absurd (List.cons.inj heq).1 hobject
  next => rfl

theorem readValue_list (depth : Nat) (text : List Char) :
    readValue (depth + 1) ('[' :: text) =
      (readList (readValue depth) text).map fun read => (.arr read.1, read.2) := by
  rw [readValue, skipBlanks_cons '[' text (by decide)]
  change (readList (readValue depth) text >>= fun read => pure (Json.arr read.1, read.2)) = _
  cases readList (readValue depth) text <;> rfl

def readMember (depth : Nat) (name : String) (members : List (String × Json)) :
    Reader (List (String × Json)) := fun text => do
  let (value, rest) ← readValue depth (← readColon text)
  return (SortedMap.insertEntry name value members, rest)

theorem readValue_object (depth : Nat) (text : List Char) :
    readValue (depth + 1) ('\x7b' :: text) =
      (readObject (readMember depth) [] text).map fun read => (.obj read.1, read.2) := by
  rw [readValue, skipBlanks_cons '\x7b' text (by decide)]
  change (readObject (readMember depth) [] text >>= fun read => pure (Json.obj read.1, read.2)) = _
  cases readObject (readMember depth) [] text <;> rfl

theorem readMember_of_reads {depth : Nat} {entry : String × Json}
    (h : Reads (readValue depth) entry.2 entry.2.asRead) (members : List (String × Json))
    (rest : List Char) (hrest : Delimited rest) :
    readMember depth entry.1 members (':' :: write entry.2 ++ rest) =
      .ok (SortedMap.insertEntry entry.1 entry.2.asRead members, rest) := by
  simp only [readMember, List.cons_append, readColon_cons, bind, Except.bind, h rest hrest, pure,
    Except.pure]

-- By induction on the value: what is read back in front of a delimiter is the value itself with
-- its members in order, however deep it nests below the limit.
theorem readValue_write {depth : Nat} {json : Json} (h : Readable depth json) :
    Reads (readValue depth) json json.asRead := by
  induction h with
  | null => intro rest _; cases ‹Nat› <;> rfl
  | @bool depth value => intro rest _; cases value <;> cases depth <;> rfl
  | @int depth value fits =>
      intro rest hrest
      rw [readValue_scalar depth (opensScalar_int value rest)]
      exact readScalar_int value rest fits hrest
  | @str depth value =>
      intro rest _
      rw [readValue_scalar depth (opensScalar_str value rest)]
      exact readScalar_str value rest
  | @arr depth items each ih =>
      intro rest _
      simp only [write, List.cons_append, List.append_assoc, List.nil_append]
      rw [readValue_list, readList_writeItems _ asRead items rest each ih]
      simp only [Except.map, asRead, itemsAsRead_eq_map]
  | @obj depth members each ih =>
      intro rest _
      have hreads := readsMembers_foldl
        (fun entry hentry => readMember_of_reads (ih entry hentry)) []
      simp only [write, List.cons_append, List.append_assoc, List.nil_append]
      rw [readValue_object, readObject_writeMembers hreads rest]
      simp only [Except.map, asRead, object, membersAsRead_eq_map, ← foldl_insertEntry_eq_entries,
        List.foldl_map]

theorem parse_print {json : Json} (h : Readable depthLimit json) :
    parse json.print = .ok json.asRead := by
  have hread := readValue_write h [] delimited_nil
  rw [List.append_nil] at hread
  simp only [parse, print, String.toList_ofList, hread, bind, Except.bind, finish]
  rfl

theorem parse?_print {json : Json} (h : Readable depthLimit json) :
    parse? json.print = some json.asRead := by
  rw [parse?, parse_print h]
  rfl

end Values

end ShardedLedger.Json
