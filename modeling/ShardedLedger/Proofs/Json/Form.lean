import ShardedLedger.Json.Form
import ShardedLedger.Proofs.Except
import ShardedLedger.Proofs.Json.RoundTrip

namespace ShardedLedger.Form

open Json

-- What a form makes of a written value, whether it is read straight from the text in which the
-- value stands or taken from the value that was read before.
structure Takes {α : Type} (form : Form α) (json : Json) (value : α) : Prop where
  reads : Reads form.read json value
  decodes : form.decode json = .ok value

theorem Takes.parse_print {α : Type} {form : Form α} {json : Json} {value : α}
    (h : form.Takes json value) : form.parse json.print = .ok value := by
  have hread := h.reads [] delimited_nil
  rw [List.append_nil] at hread
  simp only [parse, print, String.toList_ofList, hread, bind, Except.bind, finish]
  rfl

section Scalars

variable {α : Type}

theorem scalar_read {wanted : String} {accept : Json → Except Json.Error α} {json : Json}
    {value : α} {text rest : List Char} (hopens : OpensScalar text)
    (hread : readScalar text = .ok (json, rest)) (haccept : accept json = .ok value) :
    (scalar wanted accept).read text = .ok (value, rest) := by
  obtain ⟨c, behind, rfl, hblank, hlist, hobject⟩ := hopens
  simp only [scalar, skipBlanks_cons c behind hblank]
  split
  next heq => exact absurd (List.cons.inj heq).1 hlist
  next heq => exact absurd (List.cons.inj heq).1 hobject
  next => simp only [hread, bind, Except.bind, haccept, pure, Except.pure]

theorem takes_text (value : String) : text.Takes (.str value) value where
  reads rest _ := by
    rw [text, textAs]
    exact scalar_read (opensScalar_str value rest) (readScalar_str value rest) rfl
  decodes := rfl

theorem takes_integer {wanted : String} {low high value : Int} (hfits : FitsWord value)
    (hlow : low ≤ value) (hhigh : value ≤ high) :
    (integer wanted low high).Takes (.int value) value where
  reads rest hrest := by
    refine scalar_read (opensScalar_int value rest) (readScalar_int value rest hfits hrest) ?_
    exact if_pos ⟨hlow, hhigh⟩
  decodes := if_pos ⟨hlow, hhigh⟩

theorem takes_choice {variants : List (String × α)} {name : String} {value : α}
    (h : variants.lookup name = some value) : (choice variants).Takes (.str name) value := by
  have hvariant : variant variants name = .ok value := by rw [variant, h]
  refine ⟨fun rest _ => ?_, hvariant⟩
  rw [write, writeString_append, choice]
  simp only [skipBlanks_cons '\"' _ (by decide), readString_escape, bind, Except.bind, hvariant,
    pure, Except.pure]

end Scalars

theorem Takes.map {α β : Type} {form : Form α} {json : Json} {value : α}
    (h : form.Takes json value) (change : α → β) :
    (form.map change).Takes json (change value) where
  reads rest hrest := by
    simp only [Form.map, h.reads rest hrest, bind, Except.bind, pure, Except.pure]
  decodes := by simp only [Form.map, h.decodes, bind, Except.bind, pure, Except.pure]

section Lists

variable {α : Type} {form : Form α} {items : List Json} {value : Json → α}

theorem decode_items (h : ∀ item ∈ items, form.Takes item (value item)) :
    items.mapM form.decode = .ok (items.map value) := by
  induction items with
  | nil => rfl
  | cons item items ih =>
      rw [List.mapM_cons, (h item List.mem_cons_self).decodes,
        ih fun next hnext => h next (List.mem_cons_of_mem item hnext)]
      rfl

theorem takes_list {depth : Nat} (hreadable : ∀ item ∈ items, Readable depth item)
    (h : ∀ item ∈ items, form.Takes item (value item)) :
    (list form).Takes (.arr items) (items.map value) where
  reads rest _ := by
    simp only [write, List.cons_append, List.append_assoc, List.nil_append, list,
      skipBlanks_cons '[' _ (by decide)]
    exact readList_writeItems form.read value items rest hreadable fun item hitem =>
      (h item hitem).reads
  decodes := by
    simp only [list]
    exact decode_items h

-- The texts of a list, whatever characters they are made of.
theorem takes_strings (texts : List String) : (list text).Takes (strings texts) texts := by
  let textOf (json : Json) : String := (text.decode json).toOption.getD ""
  have htexts : (texts.map Json.str).map textOf = texts := by
    rw [List.map_map]
    exact List.map_id texts
  have hreadable : ∀ item ∈ texts.map Json.str, Readable 0 item := by
    rintro item hitem
    obtain ⟨value, -, rfl⟩ := List.mem_map.mp hitem
    exact .str
  have htakes : ∀ item ∈ texts.map Json.str, text.Takes item (textOf item) := by
    rintro item hitem
    obtain ⟨value, -, rfl⟩ := List.mem_map.mp hitem
    exact takes_text value
  have hlist := takes_list hreadable htakes
  rwa [htexts] at hlist

end Lists

section Dicts

variable {α : Type} {form : Form α} {encode : α → Json} {entries : List (String × α)}

def encodeEntry (encode : α → Json) (entry : String × α) : String × Json :=
  (entry.1, encode entry.2)

def readEntry (form : Form α) (name : String) (map : SortedMap String α) :
    Reader (SortedMap String α) := fun text => do
  let (value, rest) ← form.read (← readColon text)
  return (map.insert name value, rest)

theorem readsMembers_entries (h : ∀ entry ∈ entries, form.Takes (encode entry.2) entry.2)
    (map : SortedMap String α) :
    ReadsMembers form.readEntry (entries.map (encodeEntry encode)) map (map.insertAll entries) := by
  induction entries generalizing map with
  | nil => exact .nil
  | cons entry entries ih =>
      refine .cons (fun rest hrest => ?_)
        (ih (fun next hnext => h next (List.mem_cons_of_mem _ hnext)) (map.insert entry.1 entry.2))
      simp only [readEntry, List.cons_append, readColon_cons, bind, Except.bind,
        (h entry List.mem_cons_self).reads rest hrest, pure, Except.pure]

theorem decode_entries (h : ∀ entry ∈ entries, form.Takes (encode entry.2) entry.2) :
    (entries.map (encodeEntry encode)).mapM
        (fun member => do return (member.1, ← form.decode member.2)) =
      (.ok entries : Except Json.Error _) := by
  induction entries with
  | nil => rfl
  | cons entry entries ih =>
      rw [List.map_cons, List.mapM_cons,
        ih fun next hnext => h next (List.mem_cons_of_mem _ hnext)]
      simp only [encodeEntry, (h entry List.mem_cons_self).decodes, bind, Except.bind, pure,
        Except.pure]

theorem takes_dict (encode : α → Json)
    (h : ∀ entry ∈ entries, form.Takes (encode entry.2) entry.2) :
    (dict form).Takes (.obj (entries.map (encodeEntry encode))) (.ofList entries) where
  reads rest _ := by
    simp only [write, List.cons_append, List.append_assoc, List.nil_append, dict,
      skipBlanks_cons '\x7b' _ (by decide)]
    exact readObject_writeMembers (readsMembers_entries h .empty) rest
  decodes := by
    simp only [dict]
    rw [decode_entries h]
    rfl

end Dicts

section Records

variable {σ α : Type} {fields : List (Field σ)}

structure Field.Takes (field : Field σ) (json : Json) (state next : σ) : Prop where
  reads : Reads (field.read state) json next
  decodes : field.decode state json = .ok next

theorem Field.Takes.of {name : String} {required : Bool} {form : Form α} {get : σ → Option α}
    {set : σ → α → σ} {json : Json} {value : α} {state next : σ} (h : form.Takes json value)
    (hnext : set state value = next) :
    (Field.of name required form get set).Takes json state next where
  reads rest hrest := by
    simp only [Field.of, h.reads rest hrest, bind, Except.bind, hnext, pure, Except.pure]
  decodes := by simp only [Field.of, h.decodes, bind, Except.bind, hnext, pure, Except.pure]

-- Members that are taken one after the other, each for a field that is still open.
inductive TakesMembers (fields : List (Field σ)) : List (String × Json) → σ → σ → Prop
  | nil {state : σ} : TakesMembers fields [] state state
  | cons {name : String} {json : Json} {members : List (String × Json)} {field : Field σ}
      {state next stop : σ} (known : fields.find? (·.name = name) = some field)
      (unset : field.isSet state = false) (head : field.Takes json state next)
      (tail : TakesMembers fields members next stop) :
      TakesMembers fields ((name, json) :: members) state stop

namespace TakesMembers

variable {members : List (String × Json)} {state stop : σ}

theorem reads (h : TakesMembers fields members state stop) :
    ReadsMembers (readMember fields) members state stop := by
  induction h with
  | nil => exact .nil
  | cons known unset head _ ih =>
      refine .cons (fun rest hrest => ?_) ih
      simp only [readMember, known, unset, Bool.false_eq_true, if_false, List.cons_append,
        readColon_cons, bind, Except.bind, head.reads rest hrest]

theorem decodes (h : TakesMembers fields members state stop) :
    members.foldlM (decodeMember fields) state = .ok stop := by
  induction h with
  | nil => rfl
  | cons known _ head _ ih =>
      rw [List.foldlM_cons, decodeMember]
      simp only [known, head.decodes, bind, Except.bind]
      exact ih

end TakesMembers

theorem takes_record {wanted : String} {start draft : σ} {build : σ → Except Json.Error α}
    {members : List (String × Json)} {value : α} (h : TakesMembers fields members start draft)
    (hbuild : build draft = .ok value) :
    (record wanted fields start build).Takes (.obj members) value where
  reads rest _ := by
    simp only [write, List.cons_append, List.append_assoc, List.nil_append, record,
      skipBlanks_cons '\x7b' _ (by decide), readObject_writeMembers h.reads, bind, Except.bind,
      hbuild, pure, Except.pure]
  decodes := by
    simp only [record, h.decodes, bind, Except.bind]
    exact hbuild

-- Named or in a list, the fields only make up the draft.
theorem exists_draft_of_decode_record {wanted : String} {start : σ}
    {build : σ → Except Json.Error α} {json : Json} {value : α}
    (h : (record wanted fields start build).decode json = .ok value) :
    ∃ draft, build draft = .ok value := by
  cases json with
  | obj members =>
      obtain ⟨draft, -, hbuild⟩ := bind_eq_ok_iff.mp h
      exact ⟨draft, hbuild⟩
  | arr items =>
      obtain ⟨⟨draft, rest⟩, -, hbuild⟩ := bind_eq_ok_iff.mp h
      dsimp only at hbuild
      split at hbuild
      next => exact ⟨draft, hbuild⟩
      next => cases hbuild
  | _ => cases h

end Records

end ShardedLedger.Form
