import BoardHealth.Proofs.Json.Lists
import BoardHealth.Proofs.Json.Scalars

/-!
# What a document gives a record

An entry is what the key of a member spells together with the text of its value. If no
field is mentioned twice and the values that are mentioned can be read, each slot ends
up with the value that the entries give its field (`enterAll_named`); what stands under
other keys, and the order of the members, has no say in it (`ofEntries_congr`). A field
that is mentioned twice is refused (`exists_enterAll_of_twice`).

The items of a list give the fields their values in order: where all fields have values
of their own, a list gives what the entries with the names of the fields would give
(`listed_eq_complete`), unless it is too long (`exists_listed_of_longer`).
-/

namespace BoardHealth.Json

/-- A key, and the text of the value under it. -/
abbrev Entry := List Char × List Char

/-- A member of an object whose key spells a name. -/
structure NamedMember extends Member where
  name : List Char
  spells : Spells name body
  isValue : IsValue value

namespace NamedMember

/-- The entry of a member. -/
def entry (m : NamedMember) : Entry := (m.name, m.value)

/-- A member as it is written, without blanks. -/
def written (name value : List Char) (h : IsValue value) : NamedMember where
  toMember := .written [] [] name value .nil .nil
  name
  spells := spells_escape name
  isValue := h

end NamedMember

/-- The value that entries give under a name: the first, if it can be read. -/
def Codec.given {α : Type} (codec : Codec α) (name : String) (entries : List Entry) : Option α :=
  (entries.lookup name.toList).bind fun value => (codec.reader.decode value).toOption

/-- The entries under the names of fields. -/
def knownEntries (fields : List Field) (entries : List Entry) : List Entry :=
  entries.filter fun e => e.1 ∈ fields.map (·.name.toList)

/-- Whether the values under the names of fields can be read. -/
def Readable (fields : List Field) (entries : List Entry) : Prop :=
  ∀ e ∈ entries, ∀ f ∈ fields, f.name.toList = e.1 → (f.codec.reader.decode e.2).isOk

instance (fields : List Field) (entries : List Entry) : Decidable (Readable fields entries) :=
  inferInstanceAs (Decidable (∀ e ∈ entries, ∀ f ∈ fields, f.name.toList = e.1 → _))

theorem exists_of_isOk {α : Type} {out : Except DecodeError α} (h : out.isOk) :
    ∃ a, out = .ok a := by
  cases out with
  | error e => cases h
  | ok a => exact ⟨a, rfl⟩

/-- Whether no two fields have one name. -/
def DistinctNames (fields : List Field) : Prop := (fields.map (·.name.toList)).Nodup

instance (fields : List Field) : Decidable (DistinctNames fields) :=
  inferInstanceAs (Decidable (List.Nodup _))

section Lookup

variable {fields : List Field} {entries entries' : List Entry}

/-- Entries under other keys do not matter. -/
theorem lookup_knownEntries {f : Field} (hf : f ∈ fields) :
    (knownEntries fields entries).lookup f.name.toList = entries.lookup f.name.toList := by
  induction entries with
  | nil => rfl
  | cons e entries ih =>
    obtain ⟨key, value⟩ := e
    have hmem : f.name.toList ∈ fields.map (·.name.toList) := List.mem_map_of_mem hf
    rw [knownEntries, List.filter_cons, List.lookup_cons]
    by_cases hkey : f.name.toList = key
    · subst hkey
      rw [if_pos (decide_eq_true hmem), List.lookup_cons_self, beq_self_eq_true]
    · have hne : (f.name.toList == key) = false := beq_eq_false_iff_ne.mpr hkey
      rw [hne]
      split
      · rw [List.lookup_cons, hne]
        exact ih
      · exact ih

/-- Where no key stands twice, the order of the entries does not matter. -/
theorem lookup_eq_of_perm (hperm : entries.Perm entries') (hnodup : (entries.map (·.1)).Nodup)
    (key : List Char) : entries.lookup key = entries'.lookup key := by
  induction hperm with
  | nil => rfl
  | cons e _ ih =>
    rw [List.map_cons, List.nodup_cons] at hnodup
    rw [List.lookup_cons, List.lookup_cons, ih hnodup.2]
  | swap e e' entries =>
    obtain ⟨k, value⟩ := e
    obtain ⟨k', value'⟩ := e'
    rw [List.map_cons, List.map_cons, List.nodup_cons, List.mem_cons, not_or] at hnodup
    simp only [List.lookup_cons]
    cases h : key == k with
    | false => rfl
    | true =>
      have hne : (key == k') = false := by
        rw [eq_of_beq h]
        exact beq_eq_false_iff_ne.mpr (Ne.symm hnodup.1.1)
      rw [hne]
  | trans hperm _ ih ih' =>
    rw [ih hnodup, ih' ((hperm.map (·.1)).nodup_iff.mp hnodup)]

end Lookup

namespace Slots

/-! ## Entering one value -/

/-- All that entering a value can do: it fills the empty slot of the field that the key
names, or it goes on to the other fields. -/
theorem cases_of_enter {key value : List Char} {f : Field} {fs : List Field}
    {slot : Option f.Value} {slots : Slots fs} {after : Slots (f :: fs)}
    (h : enter key value (f :: fs) (slot, slots) = .ok after) :
    (f.name.toList = key ∧ slot = none ∧ ∃ a, after = (some a, slots)) ∨
      (f.name.toList ≠ key ∧ ∃ others, enter key value fs slots = .ok others ∧
        after = (slot, others)) := by
  by_cases hname : f.name.toList = key
  · cases slot with
    | some a => rw [enter_filled hname] at h; cases h
    | none =>
      rw [enter_fresh hname] at h
      cases hread : f.codec.reader.decode value with
      | error e => rw [hread] at h; cases h
      | ok a => rw [hread] at h; cases h; exact .inl ⟨hname, rfl, a, rfl⟩
  · rw [enter_other hname] at h
    cases hothers : enter key value fs slots with
    | error e => rw [hothers] at h; cases h
    | ok others => rw [hothers] at h; cases h; exact .inr ⟨hname, others, rfl, rfl⟩

/-- The slot of the field that a key names is filled. -/
def Filled (key : List Char) : (fields : List Field) → Slots fields → Prop
  | [], () => False
  | f :: fs, (slot, slots) =>
    if f.name.toList = key then slot.isSome = true else Filled key fs slots

section Filled

variable {key key' value : List Char} {fields : List Field}

/-- A known key is entered once. -/
theorem filled_of_enter (hkey : ∃ f ∈ fields, f.name.toList = key) {slots slots' : Slots fields}
    (h : enter key value fields slots = .ok slots') : Filled key fields slots' := by
  induction fields with
  | nil =>
    obtain ⟨f, hf, -⟩ := hkey
    cases hf
  | cons f fs ih =>
    obtain ⟨slot, slots⟩ := slots
    rcases cases_of_enter h with ⟨hname, -, a, rfl⟩ | ⟨hname, others, hothers, rfl⟩
    · rw [Filled, if_pos hname]
      rfl
    · rw [Filled, if_neg hname]
      refine ih ?_ hothers
      obtain ⟨g, hg, hgname⟩ := hkey
      rcases List.mem_cons.mp hg with rfl | hg
      · exact absurd hgname hname
      · exact ⟨g, hg, hgname⟩

/-- A filled slot stays filled. -/
theorem Filled.enter {slots slots' : Slots fields} (hfilled : Filled key fields slots)
    (h : enter key' value fields slots = .ok slots') : Filled key fields slots' := by
  induction fields with
  | nil => exact hfilled
  | cons f fs ih =>
    obtain ⟨slot, slots⟩ := slots
    rw [Filled] at hfilled
    rcases cases_of_enter h with ⟨-, -, a, rfl⟩ | ⟨-, others, hothers, rfl⟩ <;> rw [Filled]
    · split
      next => rfl
      next hkey => rwa [if_neg hkey] at hfilled
    · split
      next hkey => rwa [if_pos hkey] at hfilled
      next hkey =>
        rw [if_neg hkey] at hfilled
        exact ih hfilled hothers

/-- A key whose slot is filled is refused. -/
theorem Filled.exists_error {slots : Slots fields} (hfilled : Filled key fields slots)
    (value : List Char) : ∃ e, Slots.enter key value fields slots = .error e := by
  induction fields with
  | nil => cases hfilled
  | cons f fs ih =>
    obtain ⟨slot, slots⟩ := slots
    rw [Filled] at hfilled
    by_cases hname : f.name.toList = key
    · rw [if_pos hname] at hfilled
      obtain ⟨a, rfl⟩ := Option.isSome_iff_exists.mp hfilled
      exact ⟨.duplicateField f.name, enter_filled hname a⟩
    · rw [if_neg hname] at hfilled
      obtain ⟨e, he⟩ := ih hfilled
      exact ⟨e, by rw [enter_other hname, he]; rfl⟩

end Filled

/-! ## Entering all members -/

section Members

variable {fields : List Field} {slots slots' : Slots fields}

theorem enterAll_append (ms ms' : List Member) :
    slots.enterAll (ms ++ ms') = (slots.enterAll ms).bind fun slots => slots.enterAll ms' := by
  induction ms generalizing slots with
  | nil => rfl
  | cons m ms ih =>
    rw [List.cons_append, enterAll, enterAll]
    cases slots.enterMember m with
    | error e => rfl
    | ok slots'' => exact ih

theorem Filled.enterMember {key : List Char} {m : Member} (hfilled : Filled key fields slots)
    (h : slots.enterMember m = .ok slots') : Filled key fields slots' := by
  rw [Slots.enterMember] at h
  cases hkey : m.key with
  | error e => rw [hkey] at h; cases h
  | ok key' =>
    rw [hkey] at h
    exact hfilled.enter h

theorem Filled.enterAll {key : List Char} {ms : List Member} (hfilled : Filled key fields slots)
    (h : slots.enterAll ms = .ok slots') : Filled key fields slots' := by
  induction ms generalizing slots with
  | nil => cases h; exact hfilled
  | cons m ms ih =>
    rw [Slots.enterAll] at h
    cases henter : slots.enterMember m with
    | error e => rw [henter] at h; cases h
    | ok slots'' =>
      rw [henter] at h
      exact ih (hfilled.enterMember henter) h

/-- **A field is not given twice.** Members are refused if two of their keys spell the
name of one field, whatever stands in front, between and behind. -/
theorem exists_enterAll_of_twice (slots : Slots fields) {key : List Char}
    (hkey : ∃ f ∈ fields, f.name.toList = key) {m m' : Member} (hm : Spells key m.body)
    (hm' : Spells key m'.body) (front between behind : List Member) :
    ∃ e, slots.enterAll (front ++ m :: (between ++ m' :: behind)) = .error e := by
  rw [enterAll_append]
  cases slots.enterAll front with
  | error e => exact ⟨e, rfl⟩
  | ok slots₁ =>
    show ∃ e, slots₁.enterAll (m :: (between ++ m' :: behind)) = .error e
    rw [enterAll]
    cases hfirst : slots₁.enterMember m with
    | error e => exact ⟨e, rfl⟩
    | ok slots₂ =>
      have hfilled : Filled key fields slots₂ := by
        rw [enterMember, Member.key_of_spells hm] at hfirst
        exact filled_of_enter hkey hfirst
      show ∃ e, slots₂.enterAll (between ++ m' :: behind) = .error e
      rw [enterAll_append]
      cases hbetween : slots₂.enterAll between with
      | error e => exact ⟨e, rfl⟩
      | ok slots₃ =>
        obtain ⟨e, he⟩ := (hfilled.enterAll hbetween).exists_error m'.value
        refine ⟨e, ?_⟩
        show slots₃.enterAll (m' :: behind) = .error e
        rw [enterAll, enterMember, Member.key_of_spells hm']
        show (Slots.enter key m'.value fields slots₃).bind _ = _
        rw [he]
        rfl

end Members

/-! ## What the slots hold -/

/-- For each field the value that entries give it. -/
def ofEntries (entries : List Entry) : (fields : List Field) → Slots fields
  | [] => ()
  | f :: fs => (f.codec.given f.name entries, ofEntries entries fs)

theorem ofEntries_nil (fields : List Field) : ofEntries [] fields = empty fields := by
  induction fields with
  | nil => rfl
  | cons f fs ih => rw [ofEntries, empty, ih]; rfl

/-- What the slots hold depends on what stands under the names of their fields. -/
theorem ofEntries_congr {entries entries' : List Entry} {fields : List Field}
    (h : ∀ f ∈ fields, entries.lookup f.name.toList = entries'.lookup f.name.toList) :
    ofEntries entries fields = ofEntries entries' fields := by
  induction fields with
  | nil => rfl
  | cons f fs ih =>
    rw [ofEntries, ofEntries, Codec.given, h f (List.mem_cons_self ..),
      ih fun g hg => h g (List.mem_cons_of_mem _ hg)]
    rfl

/-- A field that entries do not mention has the value that it says. -/
theorem complete_defaulting {α : Type} (name : String) (codec : Codec α) (value : α)
    (fields : List Field) (entries : List Entry) :
    complete (.defaulting name codec value :: fields)
        (ofEntries entries (.defaulting name codec value :: fields)) =
      (complete fields (ofEntries entries fields)).map
        ((codec.given name entries).getD value, ·) := by
  show complete (.defaulting name codec value :: fields)
    (codec.given name entries, ofEntries entries fields) = _
  cases codec.given name entries <;> rfl

theorem lookup_concat_of_ne {entries : List Entry} {key key' value : List Char} (h : key ≠ key') :
    (entries ++ [(key', value)]).lookup key = entries.lookup key := by
  have hne : (key == key') = false := beq_eq_false_iff_ne.mpr h
  rw [List.lookup_append, List.lookup_cons, hne, List.lookup_nil, Option.or_none]

/-- One more entry, under a key that was not mentioned yet or that names no field. -/
theorem enter_ofEntries {entries : List Entry} {key value : List Char} {fields : List Field}
    (hnames : DistinctNames fields)
    (hkey : ∀ f ∈ fields, f.name.toList = key →
      entries.lookup key = none ∧ (f.codec.reader.decode value).isOk) :
    enter key value fields (ofEntries entries fields) =
      .ok (ofEntries (entries ++ [(key, value)]) fields) := by
  induction fields with
  | nil => rfl
  | cons f fs ih =>
    rw [DistinctNames, List.map_cons, List.nodup_cons] at hnames
    rw [ofEntries, ofEntries]
    by_cases hname : f.name.toList = key
    · obtain ⟨hfresh, hread⟩ := hkey f (List.mem_cons_self ..) hname
      obtain ⟨a, ha⟩ := exists_of_isOk hread
      have hothers : ofEntries entries fs = ofEntries (entries ++ [(key, value)]) fs := by
        refine ofEntries_congr fun g hg => (lookup_concat_of_ne ?_).symm
        rintro rfl
        exact hnames.1 (hname ▸ List.mem_map_of_mem hg)
      have hbefore : f.codec.given f.name entries = none := by
        rw [Codec.given, hname, hfresh]
        rfl
      have hafter : f.codec.given f.name (entries ++ [(key, value)]) = some a := by
        rw [Codec.given, List.lookup_append, hname, hfresh, List.lookup_cons_self]
        show (f.codec.reader.decode value).toOption = some a
        rw [ha]
        rfl
      rw [hbefore, hafter, enter_fresh hname, ha, hothers]
      rfl
    · have hsame : f.codec.given f.name (entries ++ [(key, value)]) =
          f.codec.given f.name entries := by
        rw [Codec.given, lookup_concat_of_ne hname]
        rfl
      rw [enter_other hname, hsame, ih hnames.2 fun g hg => hkey g (List.mem_cons_of_mem _ hg)]
      rfl

/-- **What members give.** If no field is mentioned twice and the values that are
mentioned can be read, the slots hold what the entries give. -/
theorem enterAll_named {fields : List Field} (hnames : DistinctNames fields)
    (ms : List NamedMember) (honce : ((knownEntries fields (ms.map (·.entry))).map (·.1)).Nodup)
    (hreadable : Readable fields (ms.map (·.entry))) :
    (empty fields).enterAll (ms.map (·.toMember)) = .ok (ofEntries (ms.map (·.entry)) fields) := by
  -- By induction on the members, behind those that were entered already.
  have hrun : ∀ (seen : List NamedMember),
      ((knownEntries fields ((seen ++ ms).map (·.entry))).map (·.1)).Nodup →
      (ofEntries (seen.map (·.entry)) fields).enterAll (ms.map (·.toMember)) =
        .ok (ofEntries ((seen ++ ms).map (·.entry)) fields) := by
    clear honce
    induction ms with
    | nil =>
      intro seen _
      rw [List.append_nil]
      rfl
    | cons m ms ih =>
      intro seen honce
      have hkey : ∀ f ∈ fields, f.name.toList = m.name →
          (seen.map (·.entry)).lookup m.name = none ∧
            (f.codec.reader.decode m.value).isOk := by
        intro f hf hname
        refine ⟨?_, hreadable m.entry (List.mem_cons_self ..) f hf hname⟩
        rw [← hname, ← lookup_knownEntries hf, List.lookup_eq_none_iff]
        intro e he
        rw [bne_iff_ne]
        intro heq
        rw [knownEntries, List.map_append, List.filter_append, List.map_append,
          List.nodup_append] at honce
        refine honce.2.2 e.1 (List.mem_map_of_mem he) m.name ?_ (heq.symm.trans hname)
        refine List.mem_map.mpr ⟨m.entry, ?_, rfl⟩
        refine List.mem_filter.mpr ⟨List.mem_map_of_mem (List.mem_cons_self ..), ?_⟩
        exact decide_eq_true (List.mem_map.mpr ⟨f, hf, hname⟩)
      have hmember : (ofEntries (seen.map (·.entry)) fields).enterMember m.toMember =
          .ok (ofEntries ((seen ++ [m]).map (·.entry)) fields) := by
        rw [enterMember, Member.key_of_spells m.spells, List.map_append]
        exact enter_ofEntries hnames hkey
      have hmore := ih (fun e he => hreadable e (List.mem_cons_of_mem _ he)) (seen ++ [m])
      rw [List.append_assoc, List.singleton_append] at hmore
      rw [List.map_cons, enterAll, hmember]
      exact hmore honce
  rw [← ofEntries_nil]
  exact hrun [] honce

end Slots

/-! ## Lists -/

/-- Whether each field has a value of its own for where none is given. -/
def AllDefaulting (fields : List Field) : Prop :=
  ∀ f ∈ fields, ∃ value, f.ifAbsent = some value ∧ f.ifCut = some value

/-- A list gives what the entries with the names of its fields would give. -/
theorem Reader.listed_eq_complete (tooShort : Nat → DecodeError) (index : Nat)
    {fields : List Field} {values : List (List Char)} (hnames : DistinctNames fields)
    (hdefaulting : AllDefaulting fields) (hlength : values.length ≤ fields.length)
    (hreadable : ∀ e ∈ fields.zip values, (e.1.codec.reader.decode e.2).isOk) :
    listed tooShort fields index values =
      (Slots.ofEntries ((fields.map (·.name.toList)).zip values) fields).complete := by
  induction fields generalizing index values with
  | nil =>
    obtain rfl := List.eq_nil_of_length_eq_zero (Nat.le_zero.mp hlength)
    rfl
  | cons f fs ih =>
    rw [DistinctNames, List.map_cons, List.nodup_cons] at hnames
    have hdefaulting' : AllDefaulting fs := fun g hg => hdefaulting g (List.mem_cons_of_mem _ hg)
    cases values with
    | nil =>
      obtain ⟨value, habsent, hcut⟩ := hdefaulting f (List.mem_cons_self ..)
      have hothers : listed tooShort fs (index + 1) [] = _ :=
        ih (index + 1) hnames.2 hdefaulting' (Nat.zero_le _) (by simp)
      rw [List.zip_nil_right] at hothers ⊢
      rw [listed, hcut, Slots.ofEntries, Slots.complete, habsent, hothers]
      rfl
    | cons value values =>
      obtain ⟨a, ha⟩ := exists_of_isOk (hreadable (f, value) (List.mem_cons_self ..))
      have hothers : listed tooShort fs (index + 1) values = _ :=
        ih (index + 1) hnames.2 hdefaulting' (Nat.le_of_succ_le_succ hlength)
          fun e he => hreadable e (List.mem_cons_of_mem _ he)
      have hgiven : f.codec.given f.name
          ((f.name.toList, value) :: (fs.map (·.name.toList)).zip values) = some a := by
        rw [Codec.given, List.lookup_cons_self]
        show (f.codec.reader.decode value).toOption = some a
        rw [ha]
        rfl
      have hsame : Slots.ofEntries ((f.name.toList, value) :: (fs.map (·.name.toList)).zip values)
          fs = Slots.ofEntries ((fs.map (·.name.toList)).zip values) fs := by
        refine Slots.ofEntries_congr fun g hg => ?_
        have hne : (g.name.toList == f.name.toList) = false := by
          rw [beq_eq_false_iff_ne]
          intro heq
          exact hnames.1 (heq ▸ List.mem_map_of_mem hg)
        rw [List.lookup_cons, hne]
      rw [listed, ha, List.map_cons, List.zip_cons_cons, Slots.ofEntries, hgiven, hsame,
        Slots.complete]
      exact congrArg (Except.map (a, ·)) hothers

/-- A list with more items than there are fields is refused. -/
theorem Reader.exists_listed_of_longer (tooShort : Nat → DecodeError) (index : Nat)
    {fields : List Field} {values : List (List Char)} (hlength : fields.length < values.length) :
    ∃ e, listed tooShort fields index values = .error e := by
  induction fields generalizing index values with
  | nil =>
    cases values with
    | nil => cases hlength
    | cons value values => exact ⟨.trailingText, rfl⟩
  | cons f fs ih =>
    cases values with
    | nil => cases hlength
    | cons value values =>
      obtain ⟨e, he⟩ := ih (index + 1) (Nat.lt_of_succ_lt_succ hlength)
      rw [listed]
      cases f.codec.reader.decode value with
      | error e' => exact ⟨e', rfl⟩
      | ok a =>
        refine ⟨e, ?_⟩
        show (listed tooShort fs (index + 1) values).map _ = _
        rw [he]
        rfl

/-! ## Whole documents -/

/-- The blanks around a document and in front of its closing bracket. -/
structure Margins where
  before : List Char
  inside : List Char
  after : List Char
  isBlanks_before : IsBlanks before
  isBlanks_inside : IsBlanks inside
  isBlanks_after : IsBlanks after

namespace Margins

/-- No blanks. -/
def none : Margins := ⟨[], [], [], .nil, .nil, .nil⟩

/-- The document that is an object with the given members. -/
def object (g : Margins) (ms : List Member) : String :=
  .ofList (g.before ++ (objectText ms g.inside ++ g.after))

/-- The document that is a list with the given items. -/
def list (g : Margins) (items : List Item) : String :=
  .ofList (g.before ++ (listText items g.inside ++ g.after))

variable {α : Type} {title : String} {fields : List Field} {toRow : α → Row fields}
  {ofRow : Row fields → α}

theorem decode_object (g : Margins) (ms : List Member)
    (hvalues : ∀ f ∈ fields, f.codec.TakesValues) (hms : ∀ m ∈ ms, IsValue m.value) :
    (Codec.record title fields toRow ofRow).decode (g.object ms) =
      (((Slots.empty fields).enterAll ms).bind (·.complete)).map ofRow := by
  have hmeets : ∀ m ∈ ms, ∀ key, m.key = .ok key → Reader.Meets fields key m.value :=
    fun m hm key _ => ⟨fun f hf _ => hvalues f hf _ (hms m hm),
      fun _ => (hms m hm).takes_passValue⟩
  rw [Codec.decode, object, String.toList_ofList]
  exact ((Reader.takes_record_object title fields ms g.isBlanks_inside hmeets).map
    ofRow).decode_eq g.isBlanks_before g.isBlanks_after

theorem decode_list (g : Margins) (items : List Item)
    (hvalues : ∀ f ∈ fields, f.codec.TakesValues) (hitems : ∀ i ∈ items, IsValue i.value) :
    (Codec.record title fields toRow ofRow).decode (g.list items) =
      (Reader.listed (.wrongLength · (.listedRecord title fields.length)) fields 0
        (items.map (·.value))).map ofRow := by
  rw [Codec.decode, list, String.toList_ofList]
  exact ((Reader.takes_record_list title fields items g.isBlanks_inside
    fun f hf i hi => hvalues f hf _ (hitems i hi)).map ofRow).decode_eq
      g.isBlanks_before g.isBlanks_after

end Margins

end BoardHealth.Json
