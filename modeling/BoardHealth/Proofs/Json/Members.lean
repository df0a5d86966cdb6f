import BoardHealth.Json.Record
import BoardHealth.Proofs.Json.Scalars

/-!
# Reading objects

An object is read member by member, each into the slot of the field that it names.
`Slots.enter` says what one member does to the slots, and reading an object does this
for its members in order (`takes_record_object`): where blanks stand, and what an
unknown member holds, has no say in it.
-/

namespace BoardHealth.Json

/-- A member of an object, with the blanks around its tokens. -/
structure Member where
  indent : List Char
  /-- What stands between the quotation marks of the key. -/
  body : List Char
  gap : List Char
  lead : List Char
  value : List Char
  trail : List Char
  isBlanks_indent : IsBlanks indent
  isStringBody : IsStringBody body
  isBlanks_gap : IsBlanks gap
  isBlanks_lead : IsBlanks lead
  isBlanks_trail : IsBlanks trail

/-- Texts with commas between them. -/
def commaSeparated : List (List Char) → List Char
  | [] => []
  | text :: texts => text ++ texts.flatMap (',' :: ·)

namespace Member

/-- The text of a member from behind the opening quotation mark of its key on, in front
of what follows. -/
def inner (m : Member) (rest : List Char) : List Char :=
  m.body ++ '"' :: (m.gap ++ ':' :: (m.lead ++ (m.value ++ (m.trail ++ rest))))

/-- The text of a member. -/
def text (m : Member) : List Char := m.indent ++ '"' :: m.inner []

theorem text_append (m : Member) (rest : List Char) :
    m.text ++ rest = m.indent ++ '"' :: m.inner rest := by
  simp only [text, inner, List.append_assoc, List.cons_append, List.append_nil]

/-- What the key spells, or why it spells nothing. -/
def key (m : Member) : Except DecodeError (List Char) :=
  (Reader.stringContent.run (m.body ++ ['"'])).map (·.1)

theorem run_key (m : Member) (rest : List Char) :
    Reader.stringContent.run (m.body ++ '"' :: rest) = m.key.map (·, rest) := by
  obtain ⟨out, hout⟩ := Reader.exists_run_stringContent m.isStringBody
  rw [key, hout, hout]
  cases out <;> rfl

/-- A member as it is written, with the blanks of its layout. -/
def written (indent lead name value : List Char) (hindent : IsBlanks indent)
    (hlead : IsBlanks lead) : Member where
  indent
  body := name.flatMap escapeChar
  gap := []
  lead
  value
  trail := []
  isBlanks_indent := hindent
  isStringBody := (spells_escape name).isStringBody
  isBlanks_gap := .nil
  isBlanks_lead := hlead
  isBlanks_trail := .nil

theorem key_of_spells {m : Member} {content : List Char} (h : Spells content m.body) :
    m.key = .ok content := by
  rw [key, Reader.run_stringContent h]
  rfl

end Member

/-- What stands behind a member with the given ones still to come, in front of what
follows the object. -/
def behindMember (ms : List Member) (inside rest : List Char) : List Char :=
  (ms.map (·.text)).flatMap (',' :: ·) ++ (inside ++ '}' :: rest)

theorem behindMember_cons (m : Member) (ms : List Member) (inside rest : List Char) :
    behindMember (m :: ms) inside rest =
      ',' :: (m.indent ++ '"' :: m.inner (behindMember ms inside rest)) := by
  rw [behindMember, List.map_cons, List.flatMap_cons, List.append_assoc, List.cons_append,
    m.text_append, behindMember]

/-- What stands behind a member ends its value. -/
theorem delimited_behindMember (ms : List Member) {inside : List Char} (hinside : IsBlanks inside)
    (rest : List Char) : Delimited (behindMember ms inside rest) := by
  cases ms with
  | nil => exact hinside.delimited (.cons (c := '}') rfl rest)
  | cons m ms => exact .cons (c := ',') rfl _

/-- An object, with blanks in front of its closing brace. -/
def objectText (ms : List Member) (inside : List Char) : List Char :=
  '{' :: (commaSeparated (ms.map (·.text)) ++ (inside ++ ['}']))

namespace Slots

/-- The slots with one more member: its value in the slot of the field that its key
names. -/
def enter (key value : List Char) :
    (fields : List Field) → Slots fields → Except DecodeError (Slots fields)
  | [], () => .ok ()
  | f :: fs, (slot, slots) =>
    if f.name.toList = key then
      match slot with
      | some _ => .error (.duplicateField f.name)
      | none => (f.codec.reader.decode value).map fun a => (some a, slots)
    else (enter key value fs slots).map fun slots => (slot, slots)

section Enter

variable {key value : List Char} {f : Field} {fs : List Field} {slots : Slots fs}

/-- The field that the key names, not given yet. -/
theorem enter_fresh (h : f.name.toList = key) :
    enter key value (f :: fs) (none, slots) =
      (f.codec.reader.decode value).map fun a => (some a, slots) :=
  if_pos h

/-- The field that the key names, given already. -/
theorem enter_filled (h : f.name.toList = key) (a : f.Value) :
    enter key value (f :: fs) (some a, slots) = .error (.duplicateField f.name) :=
  if_pos h

/-- A field that the key does not name. -/
theorem enter_other (h : f.name.toList ≠ key) (slot : Option f.Value) :
    enter key value (f :: fs) (slot, slots) =
      (enter key value fs slots).map fun slots => (slot, slots) :=
  if_neg h

end Enter

/-- The slots with the value of a member entered under what its key spells. -/
def enterMember {fields : List Field} (slots : Slots fields) (m : Member) :
    Except DecodeError (Slots fields) :=
  m.key.bind fun key => slots.enter key m.value

/-- The slots with members entered in order. -/
def enterAll {fields : List Field} (slots : Slots fields) :
    List Member → Except DecodeError (Slots fields)
  | [] => .ok slots
  | m :: ms => (slots.enterMember m).bind fun slots => slots.enterAll ms

end Slots

namespace Reader

/-- The readers that a member meets make something of its value. -/
def Meets (fields : List Field) (key value : List Char) : Prop :=
  (∀ f ∈ fields, f.name.toList = key →
    f.codec.reader.Takes value (f.codec.reader.decode value))
  ∧ ((∀ f ∈ fields, f.name.toList ≠ key) → passValue.Takes value (.ok ()))

theorem run_readMember {key value gap lead rest : List Char} (hgap : IsBlanks gap)
    (hlead : IsBlanks lead) (hrest : Delimited rest) (fields : List Field)
    (hmeets : Meets fields key value) (slots : Slots fields) :
    (Slots.readMember key fields slots).run (gap ++ ':' :: (lead ++ (value ++ rest))) =
      (Slots.enter key value fields slots).map (·, rest) := by
  induction fields with
  | nil =>
    have hpass := hmeets.2 (by simp) lead rest hlead hrest
    exact (run_bind_of_ok (run_colon hgap _)).trans ((run_bind_of_ok hpass).trans rfl)
  | cons f fs ih =>
    obtain ⟨slot, slots⟩ := slots
    by_cases hname : f.name.toList = key
    · cases slot with
      | some a =>
        rw [Slots.readMember, if_pos hname, Slots.enter_filled hname]
        rfl
      | none =>
        have htakes := hmeets.1 f (List.mem_cons_self ..) hname lead rest hlead hrest
        rw [Slots.readMember, if_pos hname, Slots.enter_fresh hname,
          run_bind_of_ok (run_colon hgap _), run_bind, htakes]
        cases f.codec.reader.decode value <;> rfl
    · have hmeets' : Meets fs key value := by
        refine ⟨fun g hg => hmeets.1 g (List.mem_cons_of_mem _ hg), fun hnone => hmeets.2 ?_⟩
        intro g hg
        rcases List.mem_cons.mp hg with rfl | hg
        · exact hname
        · exact hnone g hg
      have hothers : (Slots.readMember key (f :: fs) (slot, slots)) =
          (do let slots ← Slots.readMember key fs slots; pure (slot, slots)) := if_neg hname
      rw [hothers, Slots.enter_other hname, run_bind, ih hmeets' slots]
      cases Slots.enter key value fs slots <;> rfl

/-- A member is read into its slot. -/
theorem run_member {fields : List Field} (slots : Slots fields) (m : Member) {rest : List Char}
    (hmeets : ∀ key, m.key = .ok key → Meets fields key m.value) (hrest : Delimited rest) :
    (member slots).run (m.inner rest) = (slots.enterMember m).map (·, m.trail ++ rest) := by
  rw [member, Member.inner, run_bind, m.run_key, Slots.enterMember]
  cases hkey : m.key with
  | error e => rfl
  | ok key =>
    exact run_readMember m.isBlanks_gap m.isBlanks_lead (m.isBlanks_trail.delimited hrest) fields
      (hmeets key hkey) slots

section Steps

variable {fields : List Field} {slots slots' : Slots fields} {text behind rest : List Char}

/-- A member that is refused. -/
theorem runMembers_of_error {e : DecodeError} (h : (member slots).run text = .error e) :
    runMembers slots text = .error e := by
  rw [runMembers]
  split
  next hx => rw [h] at hx; cases hx; rfl
  next hx => rw [h] at hx; cases hx

/-- The last member. -/
theorem runMembers_last (h : (member slots).run text = .ok (slots', behind))
    (hdrop : behind.dropWhile isBlank = '}' :: rest) :
    runMembers slots text = .ok (slots', rest) := by
  rw [runMembers]
  split
  next hx => rw [h] at hx; cases hx
  next hx =>
    rw [h] at hx
    cases hx
    split
    next hd => rw [hdrop] at hd; cases hd
    next hd => rw [hdrop] at hd; cases hd; rfl

/-- A member with another one behind it. -/
theorem runMembers_more (h : (member slots).run text = .ok (slots', behind)) {rest' : List Char}
    (hdrop : behind.dropWhile isBlank = ',' :: rest)
    (hdrop' : rest.dropWhile isBlank = '"' :: rest') :
    runMembers slots text = runMembers slots' rest' := by
  rw [runMembers]
  split
  next hx => rw [h] at hx; cases hx
  next hx =>
    rw [h] at hx
    cases hx
    split
    next hd => rw [hdrop] at hd; cases hd
    next hd =>
      rw [hdrop] at hd
      cases hd
      rw [if_neg (by decide), if_pos rfl]
      split
      next hd' => rw [hdrop'] at hd'; cases hd'
      next hd' => rw [hdrop'] at hd'; cases hd'; rfl

end Steps

/-- The members of an object are entered in order, up to the closing brace. -/
theorem runMembers_eq {fields : List Field} (slots : Slots fields) (m : Member)
    (ms : List Member) {inside : List Char} (hinside : IsBlanks inside) (rest : List Char)
    (hmeets : ∀ n ∈ m :: ms, ∀ key, n.key = .ok key → Meets fields key n.value) :
    runMembers slots (m.inner (behindMember ms inside rest)) =
      (slots.enterAll (m :: ms)).map (·, rest) := by
  induction ms generalizing m slots with
  | nil =>
    have hmember := run_member slots m (hmeets m (List.mem_cons_self ..))
      (delimited_behindMember [] hinside rest)
    have hclose : (m.trail ++ (inside ++ '}' :: rest)).dropWhile isBlank = '}' :: rest := by
      rw [← List.append_assoc]
      exact dropWhile_isBlank (m.isBlanks_trail.append hinside) rfl rest
    rw [Slots.enterAll]
    cases henter : slots.enterMember m with
    | error e =>
      rw [henter] at hmember
      exact runMembers_of_error hmember
    | ok slots' =>
      rw [henter] at hmember
      exact runMembers_last hmember hclose
  | cons m' ms ih =>
    have hmember := run_member slots m (hmeets m (List.mem_cons_self ..))
      (delimited_behindMember (m' :: ms) hinside rest)
    rw [behindMember_cons] at hmember ⊢
    rw [Slots.enterAll]
    cases henter : slots.enterMember m with
    | error e =>
      rw [henter] at hmember
      exact runMembers_of_error hmember
    | ok slots' =>
      rw [henter] at hmember
      rw [runMembers_more hmember (dropWhile_isBlank m.isBlanks_trail rfl _)
        (dropWhile_isBlank m'.isBlanks_indent rfl _)]
      exact ih slots' m' fun n hn => hmeets n (List.mem_cons_of_mem _ hn)

/-- The members of an object are entered into empty slots. -/
theorem run_members (fields : List Field) (ms : List Member) {inside : List Char}
    (hinside : IsBlanks inside) (rest : List Char)
    (hmeets : ∀ m ∈ ms, ∀ key, m.key = .ok key → Meets fields key m.value) :
    (members fields).run (commaSeparated (ms.map (·.text)) ++ (inside ++ '}' :: rest)) =
      ((Slots.empty fields).enterAll ms).map (·, rest) := by
  rw [members]
  cases ms with
  | nil => exact (run_bind_of_ok (run_blanks_append hinside rfl rest)).trans rfl
  | cons m ms =>
    rw [List.map_cons, commaSeparated, List.append_assoc, m.text_append,
      run_bind_of_ok (run_blanks_append m.isBlanks_indent rfl _)]
    exact runMembers_eq (Slots.empty fields) m ms hinside rest hmeets

/-- **Reading an object.** A record is read from an object by entering its members in
order; the slots that are left empty are then filled with what the fields say. -/
theorem takes_record_object (title : String) (fields : List Field) (ms : List Member)
    {inside : List Char} (hinside : IsBlanks inside)
    (hmeets : ∀ m ∈ ms, ∀ key, m.key = .ok key → Meets fields key m.value) :
    (record title fields).Takes (objectText ms inside)
      (((Slots.empty fields).enterAll ms).bind (·.complete)) := by
  refine takes_of_first rfl fun rest _ => ?_
  have hmembers := run_members fields ms hinside rest hmeets
  rw [if_pos rfl, List.cons_append, List.append_assoc, List.append_assoc]
  refine (run_bind_of_ok (run_advance _)).trans ?_
  rw [List.tail_cons, run_bind, List.singleton_append, hmembers]
  cases (Slots.empty fields).enterAll ms with
  | error e => rfl
  | ok slots =>
    show (ofExcept slots.complete).run rest = slots.complete.map (·, rest)
    cases slots.complete <;> rfl

end Reader

end BoardHealth.Json
