import BoardHealth.Proofs.Json.Strict
import Mathlib.Data.List.Forall2

/-!
# Structures and their components

A strict structure is described here apart from how it is read: each of its components has
a name in documents, a codec and a part of the structure, and either has to be given or may
be absent. `ReadsStrictly` says by these alone which documents are read, and what the
structure read from them has in each of its parts.

> `readsStrictly_record`: a record is read strictly if its fields are those of the
> components, and a structure is made of a row by putting each value in its part.
-/

namespace BoardHealth.Json

/-- A component of a structure: its name, how it is read, and the part of the structure it
is. One that may be absent is `null` or not mentioned where there is no value. -/
inductive Component (σ : Type) where
  | required {α : Type} (name : String) (codec : Codec α) (part : σ → α)
  | optional {α : Type} (name : String) (codec : Codec α) (part : σ → Option α)

namespace Component

variable {σ : Type}

def name : Component σ → String
  | required name _ _ | optional name _ _ => name

/-- Whether the component has to be given. -/
def isRequired : Component σ → Bool
  | required .. => true
  | optional .. => false

/-- Whether the text is that of a value of the component. -/
def IsReadable (value : List Char) : Component σ → Prop
  | required _ codec _ => ∃ b, codec.reader.decode value = .ok b
  | optional _ codec _ => value = "null".toList ∨ ∃ b, codec.reader.decode value = .ok b

/-- Whether the text is that of the value that a structure has in this part. -/
def Reads (value : List Char) (a : σ) : Component σ → Prop
  | required _ codec part => codec.reader.decode value = .ok (part a)
  | optional _ codec part =>
    if value = "null".toList then part a = none
    else ∃ b, codec.reader.decode value = .ok b ∧ part a = some b

/-- Whether a structure may have what it has in this part where nothing is given. -/
def Lacks (a : σ) : Component σ → Prop
  | required .. => False
  | optional _ _ part => part a = none

/-- Whether entries mention the component at most once, and with a value that can be
read. -/
def IsAdmitted (entries : List Entry) (c : Component σ) : Prop :=
  (valuesUnder c.name entries).length ≤ 1 ∧
    ∀ value ∈ valuesUnder c.name entries, c.IsReadable value

/-- Whether entries give what a structure has in this part: its value is given once, or is
not mentioned and may be absent. -/
def IsGiven (entries : List Entry) (a : σ) (c : Component σ) : Prop :=
  (∃ value, valuesUnder c.name entries = [value] ∧ c.Reads value a) ∨
    valuesUnder c.name entries = [] ∧ c.Lacks a

/-- The first component that has to be given and is not. -/
def firstMissing? (components : List (Component σ)) (entries : List Entry) :
    Option (Component σ) :=
  components.find? fun c => c.isRequired && (valuesUnder c.name entries).isEmpty

/-- Whether the items of a list are the values that entries give the components, in the
order of the components. -/
def InOrder (components : List (Component σ)) (entries : List Entry) (items : List Item) :
    Prop :=
  (∀ i ∈ items, IsValue i.value) ∧
    (components.map fun c => valuesUnder c.name entries) = items.map fun i => [i.value]

end Component

/-- How a strict structure is read, by its components. It is read from an object exactly if
every component is mentioned at most once, with a value of its type, and all that have to
be given are; what is read has the given values in its parts, and nothing in those that are
not mentioned. The order of the members does not matter, nor do members under other names.
If nothing else is wrong, the first component that is missing is reported. From a list it
is read exactly if all components are given in their order, and what an object gives may be
given so. -/
structure Codec.ReadsStrictly {σ : Type} (codec : Codec σ) (components : List (Component σ)) :
    Prop where
  exists_iff : ∀ (g : Margins) (ms : List NamedMember),
    (∃ a, codec.decode (g.object (ms.map (·.toMember))) = .ok a) ↔
      ∀ c ∈ components, c.IsAdmitted (ms.map (·.entry)) ∧
        (c.isRequired = true → valuesUnder c.name (ms.map (·.entry)) ≠ [])
  object_iff : ∀ (g : Margins) (ms : List NamedMember) (a : σ),
    codec.decode (g.object (ms.map (·.toMember))) = .ok a ↔
      ∀ c ∈ components, c.IsGiven (ms.map (·.entry)) a
  object_of_perm : ∀ (g g' : Margins) (ms ms' : List NamedMember) (a : σ),
    (entriesUnder (components.map (·.name)) (ms.map (·.entry))).Perm
      (entriesUnder (components.map (·.name)) (ms'.map (·.entry))) →
    codec.decode (g.object (ms.map (·.toMember))) = .ok a →
    codec.decode (g'.object (ms'.map (·.toMember))) = .ok a
  missing : ∀ (g : Margins) (ms : List NamedMember) (c : Component σ),
    (∀ c ∈ components, c.IsAdmitted (ms.map (·.entry))) →
    Component.firstMissing? components (ms.map (·.entry)) = some c →
    ∃ cause, codec.decode (g.object (ms.map (·.toMember))) = .error cause
      ∧ cause.category.name = "data" ∧ cause.message = "missing field `" ++ c.name ++ "`"
  list_iff : ∀ (g : Margins) (items : List Item) (a : σ), (∀ i ∈ items, IsValue i.value) →
    (codec.decode (g.list items) = .ok a ↔
      List.Forall₂ (fun (c : Component σ) (i : Item) => c.Reads i.value a) components items)
  list_of_object : ∀ (g g' : Margins) (ms : List NamedMember) (items : List Item) (a : σ),
    Component.InOrder components (ms.map (·.entry)) items →
    codec.decode (g.object (ms.map (·.toMember))) = .ok a → codec.decode (g'.list items) = .ok a

theorem map_eq_ok_iff {α β : Type} {out : Except DecodeError α} {f : α → β} {b : β} :
    out.map f = .ok b ↔ ∃ a, out = .ok a ∧ f a = b := by
  cases out <;> simp [Except.map]

theorem isValue_of_mem {ms : List NamedMember} : ∀ m ∈ ms.map (·.toMember), IsValue m.value := by
  intro m hm
  obtain ⟨n, -, rfl⟩ := List.mem_map.mp hm
  exact n.isValue

theorem isValue_of_mem_entries {ms : List NamedMember} :
    ∀ e ∈ ms.map (·.entry), IsValue e.2 := by
  intro e he
  obtain ⟨m, -, rfl⟩ := List.mem_map.mp he
  exact m.isValue

namespace Component

variable {σ : Type}

/-! ## Components as fields -/

/-- The component as a field of a record. -/
def field : Component σ → Field
  | required name codec _ => .required name codec
  | optional name codec _ => .optional name codec

/-- What a structure has in this part, as the value of the field. -/
def value : (c : Component σ) → σ → c.field.Value
  | required _ _ part => part
  | optional _ _ part => part

/-- A structure as the values of its fields. -/
def row : (components : List (Component σ)) → σ → Row (components.map field)
  | [], _ => ()
  | c :: cs, a => (c.value a, row cs a)

/-- Whether the component's own codec makes something of every value. -/
def TakesValues : Component σ → Prop
  | required _ codec _ | optional _ codec _ => codec.TakesValues

theorem name_field (c : Component σ) : c.field.name = c.name := by
  cases c <;> rfl

theorem ifCut_field (c : Component σ) : c.field.ifCut = none := by
  cases c <;> rfl

theorem isNone_ifAbsent_field (c : Component σ) : c.field.ifAbsent.isNone = c.isRequired := by
  cases c <;> rfl

theorem ifAbsent_field_eq_some_iff (c : Component σ) (a : σ) :
    c.field.ifAbsent = some (c.value a) ↔ c.Lacks a := by
  cases c with
  | required name codec part => exact ⟨nofun, nofun⟩
  | optional name codec part =>
    show some none = some (part a) ↔ part a = none
    rw [Option.some_inj, eq_comm]

theorem TakesValues.field {c : Component σ} (h : c.TakesValues) : c.field.codec.TakesValues := by
  cases c with
  | required name codec part => exact h
  | optional name codec part => exact Codec.takesValues_optional h

section Reading

variable {c : Component σ} {text : List Char}

theorem decode_field_iff (hc : c.TakesValues) (htext : IsValue text) (a : σ) :
    c.field.codec.reader.decode text = .ok (c.value a) ↔ c.Reads text a := by
  cases c with
  | required name codec part => exact Iff.rfl
  | optional name codec part =>
    show (Codec.optional codec).reader.decode text = .ok (part a) ↔
      if text = "null".toList then part a = none
      else ∃ b, codec.reader.decode text = .ok b ∧ part a = some b
    rw [(Codec.takes_optional hc htext).decode]
    split
    · rw [Except.ok.injEq, eq_comm]
    · rw [map_eq_ok_iff]
      simp only [eq_comm]

theorem isOk_decode_field_iff (hc : c.TakesValues) (htext : IsValue text) :
    (c.field.codec.reader.decode text).isOk ↔ c.IsReadable text := by
  have hisOk {α : Type} (out : Except DecodeError α) : out.isOk ↔ ∃ a, out = .ok a :=
    ⟨exists_of_isOk, by rintro ⟨a, rfl⟩; rfl⟩
  cases c with
  | required name codec part => exact hisOk _
  | optional name codec part =>
    show ((Codec.optional codec).reader.decode text).isOk ↔
      text = "null".toList ∨ ∃ b, codec.reader.decode text = .ok b
    rw [(Codec.takes_optional hc htext).decode]
    split
    next hnull => exact ⟨fun _ => .inl hnull, fun _ => rfl⟩
    next hnull =>
      rw [or_iff_right hnull, ← hisOk]
      cases codec.reader.decode text <;> rfl

end Reading

variable {components : List (Component σ)} {entries entries' : List Entry} {a : σ}

/-! ## Entries -/

theorem value_of_valuesUnder {name : String} (hvalues : ∀ e ∈ entries, IsValue e.2)
    {text : List Char} (h : text ∈ valuesUnder name entries) : IsValue text :=
  hvalues _ (mem_valuesUnder.mp h)

/-- Entries give a row of fields if they give each component what it has. -/
theorem gives_row_iff (hcodecs : ∀ c ∈ components, c.TakesValues)
    (hvalues : ∀ e ∈ entries, IsValue e.2) :
    Gives entries (components.map field) (row components a) ↔
      ∀ c ∈ components, c.IsGiven entries a := by
  induction components with
  | nil => exact ⟨nofun, fun _ => trivial⟩
  | cons c cs ih =>
    obtain ⟨hc, hcs⟩ := List.forall_mem_cons.mp hcodecs
    rw [List.forall_mem_cons, ← ih hcs]
    show (_ ∨ _) ∧ _ ↔ _
    rw [name_field, ifAbsent_field_eq_some_iff]
    refine and_congr_left fun _ => or_congr_left (exists_congr fun text => ?_)
    refine and_congr_right fun htext => decode_field_iff hc ?_ a
    exact value_of_valuesUnder hvalues (htext ▸ List.mem_singleton_self text)

theorem unrepeated_of_isAdmitted (h : ∀ c ∈ components, c.IsAdmitted entries) :
    Unrepeated (components.map field) entries := by
  intro f hf
  obtain ⟨c, hc, rfl⟩ := List.mem_map.mp hf
  rw [name_field]
  exact (h c hc).1

theorem readable_of_isAdmitted (hcodecs : ∀ c ∈ components, c.TakesValues)
    (hvalues : ∀ e ∈ entries, IsValue e.2) (h : ∀ c ∈ components, c.IsAdmitted entries) :
    Readable (components.map field) entries := by
  intro e he f hf hname
  obtain ⟨c, hc, rfl⟩ := List.mem_map.mp hf
  rw [name_field] at hname
  refine (isOk_decode_field_iff (hcodecs c hc) (hvalues e he)).mpr ((h c hc).2 e.2 ?_)
  exact mem_valuesUnder.mpr (hname ▸ he)

theorem find?_field_eq (components : List (Component σ)) (entries : List Entry) :
    ((components.map field).find? fun f =>
        f.ifAbsent.isNone && (valuesUnder f.name entries).isEmpty) =
      (firstMissing? components entries).map field := by
  rw [List.find?_map]
  refine congrArg _ (congrArg (List.find? · components) (funext fun c => ?_))
  rw [Function.comp_apply, isNone_ifAbsent_field, name_field]

section Entry

variable {c : Component σ} {text : List Char}

theorem IsAdmitted.of_nil (h : valuesUnder c.name entries = []) : c.IsAdmitted entries := by
  rw [IsAdmitted, h]
  exact ⟨Nat.zero_le 1, nofun⟩

theorem IsAdmitted.of_singleton (h : valuesUnder c.name entries = [text])
    (hreadable : c.IsReadable text) : c.IsAdmitted entries := by
  rw [IsAdmitted, h]
  exact ⟨Nat.le_refl 1, List.forall_mem_singleton.mpr hreadable⟩

theorem Reads.isReadable (h : c.Reads text a) : c.IsReadable text := by
  cases c with
  | required name codec part => exact ⟨_, h⟩
  | optional name codec part =>
    rw [Reads] at h
    split at h
    next hnull => exact .inl hnull
    next =>
      obtain ⟨b, hb, -⟩ := h
      exact .inr ⟨b, hb⟩

end Entry

namespace IsGiven

variable {c : Component σ}

theorem isAdmitted (h : c.IsGiven entries a) : c.IsAdmitted entries := by
  rcases h with ⟨text, htext, hreads⟩ | ⟨hnone, -⟩
  · exact .of_singleton htext hreads.isReadable
  · exact .of_nil hnone

theorem ne_nil (h : c.IsGiven entries a) (hrequired : c.isRequired = true) :
    valuesUnder c.name entries ≠ [] := by
  rcases h with ⟨text, htext, -⟩ | ⟨-, hlacks⟩
  · rw [htext]
    exact List.cons_ne_nil _ _
  · cases c with
    | required name codec part => exact hlacks.elim
    | optional name codec part => cases hrequired

/-- What is given depends on the values under the name alone. -/
theorem congr (h : c.IsGiven entries a)
    (halike : valuesUnder c.name entries = valuesUnder c.name entries') :
    c.IsGiven entries' a := by
  rwa [IsGiven, ← halike]

end IsGiven

/-- The order of the entries does not matter, nor do those under other names. -/
theorem IsGiven.of_perm {c : Component σ} (hc : c ∈ components) (h : c.IsGiven entries a)
    (hperm : (entriesUnder (components.map (·.name)) entries).Perm
      (entriesUnder (components.map (·.name)) entries')) : c.IsGiven entries' a := by
  have hvalues := valuesUnder_perm (List.mem_map_of_mem hc) hperm
  refine h.congr ?_
  -- At most one value stands there, and so in one order only.
  rcases h with ⟨text, htext, -⟩ | ⟨hnone, -⟩
  · rw [htext] at hvalues ⊢
    exact List.singleton_perm.mp hvalues
  · rw [hnone] at hvalues ⊢
    exact hvalues.nil_eq

/-! ## Lists -/

/-- Items list a row of fields if each is what its component has. -/
theorem lists_row_iff (hcodecs : ∀ c ∈ components, c.TakesValues) {items : List Item}
    (hitems : ∀ i ∈ items, IsValue i.value) :
    Lists (components.map field) (items.map (·.value)) (row components a) ↔
      List.Forall₂ (fun (c : Component σ) (i : Item) => c.Reads i.value a) components items := by
  induction components generalizing items with
  | nil =>
    cases items with
    | nil => exact ⟨fun _ => .nil, fun _ => trivial⟩
    | cons i items => simp [Lists]
  | cons c cs ih =>
    obtain ⟨hc, hcs⟩ := List.forall_mem_cons.mp hcodecs
    cases items with
    | nil => simp [Lists]
    | cons i items =>
      obtain ⟨hi, his⟩ := List.forall_mem_cons.mp hitems
      rw [List.forall₂_cons, ← ih hcs his, ← decode_field_iff hc hi]
      exact Iff.rfl

/-- Values that an object gives may be listed. -/
theorem forall₂_of_isGiven {items : List Item} (h : ∀ c ∈ components, c.IsGiven entries a)
    (hvalues : (components.map fun c => valuesUnder c.name entries) =
      items.map fun i => [i.value]) :
    List.Forall₂ (fun (c : Component σ) (i : Item) => c.Reads i.value a) components items := by
  induction components generalizing items with
  | nil =>
    obtain rfl : items = [] := by simpa using hvalues.symm
    exact .nil
  | cons c cs ih =>
    cases items with
    | nil => cases hvalues
    | cons i items =>
      obtain ⟨hgiven, hothers⟩ := List.forall_mem_cons.mp h
      rw [List.map_cons, List.map_cons] at hvalues
      obtain ⟨hvalue, hvalues⟩ := List.cons.inj hvalues
      refine .cons ?_ (ih hothers hvalues)
      rcases hgiven with ⟨text, htext, hreads⟩ | ⟨hnone, -⟩
      · obtain rfl : i.value = text := by simpa [hvalue] using htext
        exact hreads
      · rw [hnone] at hvalue
        cases hvalue

end Component

/-! ## Structures -/

section Structures

variable {σ : Type} {title : String} {components : List (Component σ)}
  {toRow : σ → Row (components.map Component.field)}
  {ofRow : Row (components.map Component.field) → σ}

theorem Component.takesValues_fields (hcodecs : ∀ c ∈ components, c.TakesValues) :
    ∀ f ∈ components.map Component.field, f.codec.TakesValues := by
  intro f hf
  obtain ⟨c, hc, rfl⟩ := List.mem_map.mp hf
  exact (hcodecs c hc).field

/-- Where what is mentioned is in order, the structure is made of it or lacks a component. -/
theorem Codec.decode_object_of_isAdmitted (hnames : DistinctNames (components.map Component.field))
    (hcodecs : ∀ c ∈ components, c.TakesValues) (g : Margins) {ms : List NamedMember}
    (h : ∀ c ∈ components, c.IsAdmitted (ms.map (·.entry))) :
    (record title (components.map Component.field) toRow ofRow).decode
        (g.object (ms.map (·.toMember))) =
      (Slots.ofEntries (ms.map (·.entry)) (components.map Component.field)).complete.map
        ofRow := by
  have hreadable := Component.readable_of_isAdmitted hcodecs isValue_of_mem_entries h
  rw [g.decode_object _ (Component.takesValues_fields hcodecs) isValue_of_mem,
    Slots.enterAll_of_unrepeated hnames (Component.unrepeated_of_isAdmitted h) hreadable]
  rfl

/-- A structure is made of a row exactly if the row has what it has in its parts. -/
theorem Component.exists_row_iff (hparts : ∀ row, Component.row components (ofRow row) = row)
    (hwhole : ∀ a, ofRow (Component.row components a) = a)
    (p : Row (components.map Component.field) → Prop) (a : σ) :
    (∃ row, p row ∧ ofRow row = a) ↔ p (Component.row components a) := by
  constructor
  · rintro ⟨row, hp, rfl⟩
    rwa [hparts]
  · intro hp
    exact ⟨_, hp, hwhole a⟩

theorem Codec.decode_object_eq_ok_iff (hnames : DistinctNames (components.map Component.field))
    (hcodecs : ∀ c ∈ components, c.TakesValues)
    (hparts : ∀ row, Component.row components (ofRow row) = row)
    (hwhole : ∀ a, ofRow (Component.row components a) = a)
    (g : Margins) (ms : List NamedMember) (a : σ) :
    (record title (components.map Component.field) toRow ofRow).decode
        (g.object (ms.map (·.toMember))) = .ok a ↔
      ∀ c ∈ components, c.IsGiven (ms.map (·.entry)) a := by
  rw [g.decode_object _ (Component.takesValues_fields hcodecs) isValue_of_mem, map_eq_ok_iff]
  simp only [Slots.enterAll_complete_iff hnames]
  rw [Component.exists_row_iff hparts hwhole,
    Component.gives_row_iff hcodecs isValue_of_mem_entries]

theorem Codec.decode_list_eq_ok_iff (hcodecs : ∀ c ∈ components, c.TakesValues)
    (hparts : ∀ row, Component.row components (ofRow row) = row)
    (hwhole : ∀ a, ofRow (Component.row components a) = a)
    (g : Margins) (items : List Item) (a : σ) (hitems : ∀ i ∈ items, IsValue i.value) :
    (record title (components.map Component.field) toRow ofRow).decode (g.list items) = .ok a ↔
      List.Forall₂ (fun (c : Component σ) (i : Item) => c.Reads i.value a) components items := by
  have hcut : ∀ f ∈ components.map Component.field, f.ifCut = none := by
    intro f hf
    obtain ⟨c, -, rfl⟩ := List.mem_map.mp hf
    exact c.ifCut_field
  rw [g.decode_list _ (Component.takesValues_fields hcodecs) hitems, map_eq_ok_iff]
  simp only [Reader.listed_eq_ok_iff hcut]
  rw [Component.exists_row_iff hparts hwhole, Component.lists_row_iff hcodecs hitems]

/-- Some structure is read if nothing is wrong with what is mentioned and nothing is
missing. -/
theorem Codec.exists_decode_object (hnames : DistinctNames (components.map Component.field))
    (hcodecs : ∀ c ∈ components, c.TakesValues) (g : Margins) {ms : List NamedMember}
    (hadmitted : ∀ c ∈ components, c.IsAdmitted (ms.map (·.entry)))
    (hgiven : ∀ c ∈ components, c.isRequired = true →
      valuesUnder c.name (ms.map (·.entry)) ≠ []) :
    ∃ a, (record title (components.map Component.field) toRow ofRow).decode
      (g.object (ms.map (·.toMember))) = .ok a := by
  have hreadable := Component.readable_of_isAdmitted hcodecs isValue_of_mem_entries hadmitted
  have hfields : ∀ f ∈ components.map Component.field, f.ifAbsent = none →
      valuesUnder f.name (ms.map (·.entry)) ≠ [] := by
    intro f hf habsent
    obtain ⟨c, hc, rfl⟩ := List.mem_map.mp hf
    rw [c.name_field]
    refine hgiven c hc ?_
    rw [← c.isNone_ifAbsent_field, habsent]
    rfl
  obtain ⟨row, hrow⟩ := Slots.exists_complete (Component.unrepeated_of_isAdmitted hadmitted)
    hreadable hfields
  refine ⟨ofRow row, ?_⟩
  rw [decode_object_of_isAdmitted hnames hcodecs g hadmitted, hrow]
  rfl

/-- **Structures are read strictly** if they are made of their components. -/
theorem Codec.readsStrictly_record (components : List (Component σ))
    {toRow : σ → Row (components.map Component.field)}
    {ofRow : Row (components.map Component.field) → σ}
    (hnames : DistinctNames (components.map Component.field))
    (hcodecs : ∀ c ∈ components, c.TakesValues)
    (hparts : ∀ row, Component.row components (ofRow row) = row)
    (hwhole : ∀ a, ofRow (Component.row components a) = a) :
    (record title (components.map Component.field) toRow ofRow).ReadsStrictly components := by
  have hobject : ∀ g ms a, (record title _ toRow ofRow).decode _ = .ok a ↔ _ :=
    decode_object_eq_ok_iff hnames hcodecs hparts hwhole
  have hlist : ∀ g items a, _ → ((record title _ toRow ofRow).decode _ = .ok a ↔ _) :=
    decode_list_eq_ok_iff hcodecs hparts hwhole
  refine ⟨?_, hobject, ?_, ?_, hlist, ?_⟩
  · intro g ms
    constructor
    · rintro ⟨a, ha⟩ c hc
      have hgiven := (hobject g ms a).mp ha c hc
      exact ⟨hgiven.isAdmitted, hgiven.ne_nil⟩
    · intro h
      exact exists_decode_object hnames hcodecs g (fun c hc => (h c hc).1) fun c hc => (h c hc).2
  · intro g g' ms ms' a hperm h
    have hgiven := (hobject g ms a).mp h
    exact (hobject g' ms' a).mpr fun c hc => (hgiven c hc).of_perm hc hperm
  · intro g ms c hadmitted hmissing
    have hreadable := Component.readable_of_isAdmitted hcodecs isValue_of_mem_entries hadmitted
    have hfield := Component.find?_field_eq components (ms.map (·.entry))
    rw [hmissing, Option.map_some] at hfield
    refine ⟨.missingField c.name, ?_, rfl, rfl⟩
    rw [decode_object_of_isAdmitted hnames hcodecs g hadmitted,
      Slots.complete_eq_missing (Component.unrepeated_of_isAdmitted hadmitted) hreadable hfield,
      c.name_field]
    rfl
  · intro g g' ms items a hitems h
    refine (hlist g' items a hitems.1).mpr ?_
    exact Component.forall₂_of_isGiven ((hobject g ms a).mp h) hitems.2

end Structures

end BoardHealth.Json
