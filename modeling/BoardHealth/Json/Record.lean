import BoardHealth.Json.Codec

/-!
# Records

The JSON form of a structure is a list of fields. One description of the fields
serves both forms a record is read from, an object with its members in any order
and a list of the values in the order of the fields, and the object it is written
as.

While an object is read, each field has a slot that is filled at most once; keys
that name no field are passed over with their values. At the closing brace the
empty slots are filled with what the fields say, or the first field that has
nothing to say is missing.
-/

namespace BoardHealth.Json

/-- A field of a record. -/
structure Field where
  name : String
  {Value : Type}
  codec : Codec Value
  /-- The value of the field if an object does not mention it. -/
  ifAbsent : Option Value
  /-- The value of the field if a list ends in front of it. -/
  ifCut : Option Value

namespace Field

/-- A field that has to be given. -/
def required {α : Type} (name : String) (codec : Codec α) : Field :=
  ⟨name, codec, none, none⟩

/-- A field that may be left out of an object. -/
def optional {α : Type} (name : String) (codec : Codec α) : Field :=
  ⟨name, .optional codec, some none, none⟩

/-- A field with a value of its own where none is given. -/
def defaulting {α : Type} (name : String) (codec : Codec α) (value : α) : Field :=
  ⟨name, codec, some value, some value⟩

end Field

/-- A value for each field. -/
@[reducible] def Row : List Field → Type
  | [] => Unit
  | f :: fs => f.Value × Row fs

/-- For each field its value, if it was read already. -/
@[reducible] def Slots : List Field → Type
  | [] => Unit
  | f :: fs => Option f.Value × Slots fs

namespace Slots

/-- No field was read yet. -/
def empty : (fields : List Field) → Slots fields
  | [] => ()
  | _ :: fs => (none, empty fs)

/-- Reads the rest of a member behind its key: the colon and the value, into the
slot of the field that the key names. A key whose slot is filled is refused
before its value is looked at. -/
def readMember (key : List Char) : (fields : List Field) → Slots fields → Reader (Slots fields)
  | [], () => do
    Reader.colon
    Reader.passValue
    pure ()
  | f :: fs, (slot, slots) =>
    if f.name.toList = key then
      match slot with
      | some _ => Reader.fail (.duplicateField f.name)
      | none => do
        Reader.colon
        let value ← f.codec.reader
        pure (some value, slots)
    else do
      let slots ← readMember key fs slots
      pure (slot, slots)

/-- The values of all fields, or the first that is missing. -/
def complete : (fields : List Field) → Slots fields → Except DecodeError (Row fields)
  | [], () => .ok ()
  | f :: fs, (slot, slots) =>
    match slot <|> f.ifAbsent with
    | none => .error (.missingField f.name)
    | some value => (complete fs slots).map (value, ·)

end Slots

namespace Row

/-- The members of the object that a record is written as. -/
def encode : (fields : List Field) → Row fields → List (String × Document)
  | [], () => []
  | f :: fs, (value, row) => (f.name, f.codec.encode value) :: encode fs row

end Row

namespace Reader

/-- Reads a member, from behind the opening quotation mark of its key on. -/
def member {fields : List Field} (slots : Slots fields) : Reader (Slots fields) := do
  let key ← stringContent
  slots.readMember key

/-- Reads members up to the closing brace, from behind the opening quotation mark
of a key on. -/
def runMembers {fields : List Field} (slots : Slots fields) (text : List Char) :
    Outcome (Slots fields) :=
  match h : (member slots).run text with
  | .error e => .error e
  | .ok (slots, behind) =>
    match h' : behind.dropWhile isBlank with
    | [] => .error .endInObject
    | c :: rest =>
      if c = '}' then .ok (slots, rest)
      else if c = ',' then
        match h'' : rest.dropWhile isBlank with
        | [] => .error .endInValue
        | d :: rest' =>
          have := (member _).length_le h
          have := length_lt_of_dropWhile h'
          have := length_lt_of_dropWhile h''
          if d = '"' then runMembers slots rest'
          else if d = '}' then .error .trailingComma
          else .error .keyNotString
      else .error .objectSeparatorExpected
termination_by text.length

theorem runMembers_suffix {fields : List Field} (slots : Slots fields) {text : List Char}
    {value : Slots fields} {rest : List Char}
    (h : runMembers slots text = .ok (value, rest)) : rest <:+ text := by
  fun_induction runMembers slots text with
  | case1 | case2 | case4 | case6 | case7 | case8 => cases h
  | case3 _ _ _ _ hx _ hd =>
    cases h
    exact (List.suffix_cons ..).trans ((suffix_of_dropWhile hd).trans (leaves_suffix _ hx))
  | case5 _ _ _ _ hx _ _ _ hd _ _ hd' _ ih =>
    exact (ih h).trans ((List.suffix_cons ..).trans ((suffix_of_dropWhile hd').trans
      ((List.suffix_cons ..).trans ((suffix_of_dropWhile hd).trans (leaves_suffix _ hx)))))

/-- Reads members up to the closing brace, into slots some of which may be filled
already. -/
def membersInto {fields : List Field} (slots : Slots fields) : Reader (Slots fields) where
  run := runMembers slots
  leaves_suffix h := runMembers_suffix slots h

/-- Reads the members of an object, from behind its opening brace on. -/
def members (fields : List Field) : Reader (Slots fields) := do
  blanks
  match ← peek with
  | none => fail .endInObject
  | some '}' =>
    advance
    pure (Slots.empty fields)
  | some '"' =>
    advance
    membersInto (Slots.empty fields)
  | some _ => fail .keyNotString

/-- Reads the values of the last fields of a list, `index` of them having been
read. Where the list ends early, fields have the values they say. -/
def listedFields (tooShort : Nat → DecodeError) : (fields : List Field) → (index : Nat) →
    Reader (Row fields)
  | [], _ => pure ()
  | f :: fs, index => do
    let value ←
      if ← nextElement (index == 0) then f.codec.reader
      else match f.ifCut with
        | some value => pure value
        | none => fail (tooShort index)
    let row ← listedFields tooShort fs (index + 1)
    pure (value, row)

/-- Reads a record from an object or a list. -/
def record (title : String) (fields : List Field) : Reader (Row fields) := do
  let c ← valueStart
  if c = '{' then
    advance
    let slots ← members fields
    ofExcept (slots.complete)
  else if c = '[' then
    advance
    let row ← listedFields (.wrongLength · (.listedRecord title fields.length)) fields 0
    closeList
    pure row
  else mismatch c (.record title)

end Reader

/-- The JSON form of a structure: its fields, and how a structure is taken apart
into their values and put together from them. -/
def Codec.record {α : Type} (title : String) (fields : List Field) (toRow : α → Row fields)
    (ofRow : Row fields → α) : Codec α where
  reader := ofRow <$> Reader.record title fields
  encode a := .object (Row.encode fields (toRow a))

end BoardHealth.Json
