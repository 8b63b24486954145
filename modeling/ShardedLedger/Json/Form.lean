import ShardedLedger.Json.Parser

namespace ShardedLedger

namespace Json

def found : Json → Found
  | .null => .null
  | .bool value => .bool value
  | .int value => .integer value
  | .float _ => .float
  | .str value => .string value
  | .arr _ => .sequence
  | .obj _ => .map

def wrongKind (json : Json) (wanted : String) : Error := .wrongKind json.found wanted

-- What is wrong with a text in front of which a list or an object was wanted. A scalar is read
-- to its end first, and what is wrong inside it comes before its being of another kind.
def mismatch (wanted : String) (text : List Char) : Error :=
  match text with
  | '[' :: _ => .wrongKind .sequence wanted
  | '\x7b' :: _ => .wrongKind .map wanted
  | text =>
      match readScalar text with
      | .ok (value, _) => value.wrongKind wanted
      | .error error => error

end Json

-- How the values of a type are written in JSON: how to read one straight from a text, and how
-- to take one out of a value that was read before.
structure Form (α : Type) where
  read : Json.Reader α
  decode : Json → Except Json.Error α

namespace Form

open Json

def parse {α : Type} (form : Form α) (text : String) : Except Json.Error α := do
  let (value, rest) ← form.read text.toList
  finish value rest

def scalar {α : Type} (wanted : String) (accept : Json → Except Json.Error α) : Form α where
  read text :=
    match skipBlanks text with
    | '[' :: _ => .error (.wrongKind .sequence wanted)
    | '\x7b' :: _ => .error (.wrongKind .map wanted)
    | text => do
        let (value, rest) ← readScalar text
        return (← accept value, rest)
  decode := accept

def textAs (wanted : String) : Form String :=
  scalar wanted fun
    | .str value => .ok value
    | json => .error (json.wrongKind wanted)

def text : Form String := textAs "a string"

def nothing : Form Unit :=
  scalar "unit" fun
    | .null => .ok ()
    | json => .error (json.wrongKind "unit")

-- Integers between two bounds; a number written with a point or an exponent is none.
def integer (wanted : String) (low high : Int) : Form Int :=
  scalar wanted fun
    | .int value =>
        if low ≤ value ∧ value ≤ high then .ok value
        else .error (.integerOutOfRange value wanted)
    | json => .error (json.wrongKind wanted)

def number : Form Unit :=
  scalar "f64" fun
    | .int _ => .ok ()
    | .float _ => .ok ()
    | json => .error (json.wrongKind "f64")

def map {α β : Type} (change : α → β) (form : Form α) : Form β where
  read text := do
    let (value, rest) ← form.read text
    return (change value, rest)
  decode json := do return change (← form.decode json)

def list {α : Type} (item : Form α) : Form (List α) where
  read text :=
    match skipBlanks text with
    | [] => .error .endInValue
    | '[' :: rest => readList item.read rest
    | text => .error (mismatch "a sequence" text)
  decode
    | .arr items => items.mapM item.decode
    | json => .error (json.wrongKind "a sequence")

-- Names to values; of two members with one name the later one stays.
def dict {α : Type} (value : Form α) : Form (SortedMap String α) where
  read text :=
    match skipBlanks text with
    | [] => .error .endInValue
    | '\x7b' :: rest =>
        readObject (fun name members text => do
          let (value, rest) ← value.read (← readColon text)
          return (members.insert name value, rest)) .empty rest
    | text => .error (mismatch "a map" text)
  decode
    | .obj members => do
        return .ofList (← members.mapM fun (name, json) => do return (name, ← value.decode json))
    | json => .error (json.wrongKind "a map")

def variant {α : Type} (variants : List (String × α)) (name : String) : Except Json.Error α :=
  match variants.lookup name with
  | some value => .ok value
  | none => .error (.unknownVariant name (variants.map (·.1)))

-- One of a few names, alone or as the only member of an object with nothing behind it.
def choice {α : Type} (variants : List (String × α)) : Form α where
  read text :=
    match skipBlanks text with
    | [] => .error .endInValue
    | '\"' :: rest => do
        let (name, rest) ← readString rest
        return (← variant variants name, rest)
    | '\x7b' :: rest => do
        let (name, rest) ← (textAs "variant identifier").read rest
        let value ← variant variants name
        let (_, rest) ← nothing.read (← readColon rest)
        match skipBlanks rest with
        | [] => .error .endInObject
        | '\x7d' :: rest => return (value, rest)
        | _ => .error .noValue
    | _ => .error .noValue
  decode
    | .str name => variant variants name
    | .obj [(name, content)] => do
        let value ← variant variants name
        let _ ← nothing.decode content
        return value
    | .obj _ => .error .variantNotSingle
    | json => .error (json.wrongKind "string or map")

-- A field of a record under construction `σ`: where its value goes, and whether it is there.
structure Field (σ : Type) where
  name : String
  required : Bool
  isSet : σ → Bool
  read : σ → Reader σ
  decode : σ → Json → Except Json.Error σ

def Field.of {σ α : Type} (name : String) (required : Bool) (form : Form α) (get : σ → Option α)
    (set : σ → α → σ) : Field σ where
  name := name
  required := required
  isSet state := (get state).isSome
  read state text := do
    let (value, rest) ← form.read text
    return (set state value, rest)
  decode state json := do return set state (← form.decode json)

def require {α : Type} (name : String) : Option α → Except Json.Error α
  | some value => .ok value
  | none => .error (.missingField name)

def recordLength {σ : Type} (wanted : String) (fields : List (Field σ)) (length : Nat) :
    Json.Error :=
  .wrongLength length (wanted ++ " with " ++ toString fields.length ++
    (if fields.length = 1 then " element" else " elements"))

-- The elements of a list taken for the fields in their order. Only fields that are not
-- required may be left out, at the end.
def readFields {σ : Type} (tooShort : Nat → Json.Error) :
    List (Field σ) → Nat → Bool → σ → Reader σ
  | [], _, _, state, text => .ok (state, text)
  | field :: fields, index, first, state, text => do
      match ← nextItem first text with
      | some rest =>
          let (state, rest) ← field.read state rest
          readFields tooShort fields (index + 1) false state rest
      | none =>
          if field.required then .error (tooShort index)
          else readFields tooShort fields (index + 1) first state text

def decodeFields {σ : Type} (tooShort : Nat → Json.Error) :
    List (Field σ) → Nat → σ → List Json → Except Json.Error (σ × List Json)
  | [], _, state, rest => .ok (state, rest)
  | field :: fields, index, state, [] =>
      if field.required then .error (tooShort index)
      else decodeFields tooShort fields (index + 1) state []
  | field :: fields, index, state, json :: rest => do
      decodeFields tooShort fields (index + 1) (← field.decode state json) rest

-- A known field may stand once. An unknown one is passed over.
def readMember {σ : Type} (fields : List (Field σ)) (name : String) (state : σ) : Reader σ :=
  fun text =>
    match fields.find? (·.name = name) with
    | some field => do
        if field.isSet state then throw (.duplicateField name)
        field.read state (← readColon text)
    | none => do return (state, ← skipValue (← readColon text))

def decodeMember {σ : Type} (fields : List (Field σ)) (state : σ) (member : String × Json) :
    Except Json.Error σ :=
  match fields.find? (·.name = member.1) with
  | some field => field.decode state member.2
  | none => .ok state

-- An object with the fields as members, or a list of their values in the order given.
def record {σ α : Type} (wanted : String) (fields : List (Field σ)) (start : σ)
    (build : σ → Except Json.Error α) : Form α where
  read text :=
    match skipBlanks text with
    | [] => .error .endInValue
    | '[' :: rest => do
        let (state, rest) ← readFields (recordLength wanted fields) fields 0 true start rest
        return (← build state, ← closeList rest)
    | '\x7b' :: rest => do
        let (state, rest) ← readObject (readMember fields) start rest
        return (← build state, rest)
    | text => .error (mismatch wanted text)
  decode
    | .obj members => do build (← members.foldlM (decodeMember fields) start)
    | .arr items => do
        let (state, rest) ← decodeFields (recordLength wanted fields) fields 0 start items
        if rest.isEmpty then build state
        else .error (.wrongLength items.length "fewer elements in array")
    | json => .error (json.wrongKind wanted)

end Form

end ShardedLedger
