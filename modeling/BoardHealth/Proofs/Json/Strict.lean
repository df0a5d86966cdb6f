import BoardHealth.Json.Record
import BoardHealth.Proofs.Json.AnyValue

/-!
# Fields without values of their own

The fields of a strict structure have to be given, but for those that may be absent, and
have no value of their own. `Gives` says which values the entries of an object give such
fields, and `Lists` which values the items of a list do. Reading is measured by both:

> `enterAll_complete_iff`: from an object a row is read exactly if the entries give it.
> `exists_complete`: some row is read if no field that has to be given is missing.
> `complete_eq_missing`: a field that is missing is reported, the first of them.
> `listed_eq_ok_iff`: from a list a row is read exactly if the items list it.
-/

namespace BoardHealth.Json

/-- The texts of the values that entries have under a name, in order. -/
def valuesUnder (name : String) (entries : List Entry) : List (List Char) :=
  (entries.filter fun e => e.1 = name.toList).map (·.2)

/-- The entries under any of the names. -/
def entriesUnder (names : List String) (entries : List Entry) : List Entry :=
  entries.filter fun e => names.any (·.toList = e.1)

/-- The entries give the fields of a record these values: each is given once, or is not
mentioned and may be absent. -/
def Gives (entries : List Entry) : (fields : List Field) → Row fields → Prop
  | [], () => True
  | f :: fs, (a, row) =>
    ((∃ value, valuesUnder f.name entries = [value] ∧ f.codec.reader.decode value = .ok a)
      ∨ valuesUnder f.name entries = [] ∧ f.ifAbsent = some a) ∧ Gives entries fs row

/-- The texts are those of the values of all fields, in their order. -/
def Lists : (fields : List Field) → List (List Char) → Row fields → Prop
  | [], [], () => True
  | f :: fs, value :: values, (a, row) =>
    f.codec.reader.decode value = .ok a ∧ Lists fs values row
  | _, _, _ => False

/-- Whether the entries mention no field twice. -/
def Unrepeated (fields : List Field) (entries : List Entry) : Prop :=
  ∀ f ∈ fields, (valuesUnder f.name entries).length ≤ 1

/-! ## Values under a name -/

section ValuesUnder

variable {entries entries' : List Entry} {name : String} {fields : List Field}

theorem valuesUnder_cons_of_eq {key value : List Char} (h : name.toList = key) :
    valuesUnder name ((key, value) :: entries) = value :: valuesUnder name entries := by
  simp [valuesUnder, h]

theorem valuesUnder_cons_of_ne {key value : List Char} (h : name.toList ≠ key) :
    valuesUnder name ((key, value) :: entries) = valuesUnder name entries := by
  simp [valuesUnder, Ne.symm h]

theorem mem_valuesUnder {value : List Char} :
    value ∈ valuesUnder name entries ↔ (name.toList, value) ∈ entries := by
  simp [valuesUnder]

/-- The entry that is found under a name is the first there. -/
theorem lookup_eq_head? : entries.lookup name.toList = (valuesUnder name entries).head? := by
  induction entries with
  | nil => rfl
  | cons e entries ih =>
    obtain ⟨key, value⟩ := e
    by_cases hkey : name.toList = key
    · rw [valuesUnder_cons_of_eq hkey, ← hkey, List.lookup_cons_self]
      rfl
    · have hne : (name.toList == key) = false := beq_eq_false_iff_ne.mpr hkey
      rw [valuesUnder_cons_of_ne hkey, List.lookup_cons, hne]
      exact ih

/-- Entries under other names do not matter. -/
theorem valuesUnder_entriesUnder {names : List String} (h : name ∈ names) :
    valuesUnder name (entriesUnder names entries) = valuesUnder name entries := by
  rw [valuesUnder, entriesUnder, List.filter_filter]
  congr 1
  refine List.filter_congr fun e _ => ?_
  by_cases hkey : e.1 = name.toList
  · have hany : names.any (·.toList = e.1) = true :=
      List.any_eq_true.mpr ⟨name, h, decide_eq_true hkey.symm⟩
    rw [hany, Bool.and_true]
  · rw [decide_eq_false hkey, Bool.false_and]

/-- Under each of the names stand the same values, in some order. -/
theorem valuesUnder_perm {names : List String} (h : name ∈ names)
    (hperm : (entriesUnder names entries).Perm (entriesUnder names entries')) :
    (valuesUnder name entries).Perm (valuesUnder name entries') := by
  have hvalues := (hperm.filter fun e => e.1 = name.toList).map (·.2)
  change (valuesUnder name (entriesUnder names entries)).Perm
    (valuesUnder name (entriesUnder names entries')) at hvalues
  rwa [valuesUnder_entriesUnder h, valuesUnder_entriesUnder h] at hvalues

/-- The keys of the known entries are distinct where no field is mentioned twice. -/
theorem Unrepeated.nodup (h : Unrepeated fields entries) :
    ((knownEntries fields entries).map (·.1)).Nodup := by
  induction entries with
  | nil => exact List.nodup_nil
  | cons e entries ih =>
    obtain ⟨key, value⟩ := e
    have hbehind : Unrepeated fields entries := by
      intro f hf
      have hlength := h f hf
      by_cases hkey : f.name.toList = key
      · rw [valuesUnder_cons_of_eq hkey, List.length_cons] at hlength
        omega
      · rwa [valuesUnder_cons_of_ne hkey] at hlength
    rw [knownEntries, List.filter_cons]
    split
    next hknown =>
      -- A later entry under the same key would be a second value of its field.
      refine List.nodup_cons.mpr ⟨?_, ih hbehind⟩
      intro hagain
      obtain ⟨f, hf, hname⟩ := List.mem_map.mp (of_decide_eq_true hknown)
      obtain ⟨e', he', hkey'⟩ := List.mem_map.mp hagain
      have hvalue : e'.2 ∈ valuesUnder f.name entries := by
        refine mem_valuesUnder.mpr ?_
        rw [show f.name.toList = e'.1 from hname.trans hkey'.symm]
        exact (List.mem_filter.mp he').1
      have hlength := h f hf
      rw [valuesUnder_cons_of_eq hname, List.length_cons] at hlength
      exact absurd (List.length_pos_of_mem hvalue) (by omega)
    next => exact ih hbehind

end ValuesUnder

/-! ## What is given -/

namespace Gives

variable {entries entries' : List Entry} {fields : List Field} {row : Row fields}

/-- A field is given once or not mentioned. -/
theorem cases (h : Gives entries fields row) {f : Field} (hf : f ∈ fields) :
    (∃ value a, valuesUnder f.name entries = [value] ∧ f.codec.reader.decode value = .ok a)
      ∨ valuesUnder f.name entries = [] := by
  induction fields with
  | nil => cases hf
  | cons g fs ih =>
    obtain ⟨a, row⟩ := row
    obtain ⟨hgiven, hothers⟩ := h
    rcases List.mem_cons.mp hf with rfl | hf
    · rcases hgiven with ⟨value, hvalue, hread⟩ | ⟨hnone, -⟩
      · exact .inl ⟨value, a, hvalue, hread⟩
      · exact .inr hnone
    · exact ih hothers hf

theorem unrepeated (h : Gives entries fields row) : Unrepeated fields entries := by
  intro f hf
  rcases h.cases hf with ⟨value, a, hvalue, -⟩ | hnone
  · rw [hvalue]
    exact Nat.le_refl 1
  · rw [hnone]
    exact Nat.zero_le 1

theorem readable (h : Gives entries fields row) : Readable fields entries := by
  intro e he f hf hname
  have hmem : e.2 ∈ valuesUnder f.name entries := mem_valuesUnder.mpr (hname ▸ he)
  rcases h.cases hf with ⟨value, a, hvalue, hread⟩ | hnone
  · rw [hvalue, List.mem_singleton] at hmem
    rw [hmem, hread]
    rfl
  · rw [hnone] at hmem
    exact absurd hmem List.not_mem_nil

end Gives

/-! ## Reading an object -/

namespace Slots

variable {fields : List Field}

/-- The value of a member that is entered can be read. -/
theorem isOk_of_enter (hnames : DistinctNames fields) {key value : List Char}
    {slots slots' : Slots fields} (h : enter key value fields slots = .ok slots') {f : Field}
    (hf : f ∈ fields) (hname : f.name.toList = key) : (f.codec.reader.decode value).isOk := by
  induction fields with
  | nil => cases hf
  | cons g fs ih =>
    obtain ⟨slot, slots⟩ := slots
    rw [DistinctNames, List.map_cons, List.nodup_cons] at hnames
    rcases List.mem_cons.mp hf with rfl | hf
    · cases slot with
      | some a => rw [enter_filled hname] at h; cases h
      | none =>
        rw [enter_fresh hname] at h
        cases hread : f.codec.reader.decode value with
        | error e => rw [hread] at h; cases h
        | ok a => rfl
    · have hother : g.name.toList ≠ key := by
        rintro heq
        exact hnames.1 (List.mem_map.mpr ⟨f, hf, hname.trans heq.symm⟩)
      rw [enter_other hother] at h
      cases hothers : enter key value fs slots with
      | error e => rw [hothers] at h; cases h
      | ok others => exact ih hnames.2 hothers hf

/-- Members that can all be entered mention no field twice, nor one whose slot was
filled, and their values can be read. -/
theorem of_enterAll_eq_ok (hnames : DistinctNames fields) {ms : List NamedMember}
    {slots slots' : Slots fields} (h : slots.enterAll (ms.map (·.toMember)) = .ok slots') :
    (∀ f ∈ fields, Filled f.name.toList fields slots →
        valuesUnder f.name (ms.map (·.entry)) = [])
      ∧ Unrepeated fields (ms.map (·.entry)) ∧ Readable fields (ms.map (·.entry)) := by
  induction ms generalizing slots with
  | nil => exact ⟨fun _ _ _ => rfl, fun _ _ => Nat.zero_le 1, nofun⟩
  | cons m ms ih =>
    rw [List.map_cons, enterAll, enterMember, Member.key_of_spells m.spells] at h
    cases henter : enter m.name m.value fields slots with
    | error e => simp [Except.bind, henter] at h
    | ok slots₁ =>
      simp only [Except.bind, henter] at h
      obtain ⟨hfilled, hunrepeated, hreadable⟩ := ih h
      have hentry : (m :: ms).map (·.entry) = (m.name, m.value) :: ms.map (·.entry) := rfl
      rw [hentry]
      -- What was filled stays so, and this member fills the slot of its own field: of both
      -- the members behind it are known to say nothing.
      refine ⟨?_, ?_, ?_⟩
      · intro f hf hfull
        have hne : f.name.toList ≠ m.name := by
          rintro heq
          obtain ⟨e, he⟩ := (heq ▸ hfull).exists_error m.value
          rw [he] at henter
          cases henter
        rw [valuesUnder_cons_of_ne hne]
        exact hfilled f hf (hfull.enter henter)
      · intro f hf
        by_cases hkey : f.name.toList = m.name
        · have hfull : Filled f.name.toList fields slots₁ :=
            hkey ▸ filled_of_enter ⟨f, hf, hkey⟩ henter
          rw [valuesUnder_cons_of_eq hkey, hfilled f hf hfull]
          exact Nat.le_refl 1
        · rw [valuesUnder_cons_of_ne hkey]
          exact hunrepeated f hf
      · intro e he f hf hname
        rcases List.mem_cons.mp he with rfl | he
        · exact isOk_of_enter hnames henter hf hname
        · exact hreadable e he f hf hname

/-- What is given under the name of a field, if it is not mentioned twice. -/
theorem given_of_valuesUnder {α : Type} {codec : Codec α} {name : String} {entries : List Entry}
    {value : List Char} {a : α} (hvalue : valuesUnder name entries = [value])
    (hread : codec.reader.decode value = .ok a) : codec.given name entries = some a := by
  rw [Codec.given, lookup_eq_head?, hvalue]
  show (codec.reader.decode value).toOption = some a
  rw [hread]
  rfl

theorem given_of_not_mentioned {α : Type} {codec : Codec α} {name : String}
    {entries : List Entry} (hnone : valuesUnder name entries = []) :
    codec.given name entries = none := by
  rw [Codec.given, lookup_eq_head?, hnone]
  rfl

/-- A field is given under its name, or it is not mentioned. -/
theorem cases_of_unrepeated {f : Field} {fs : List Field} {entries : List Entry}
    (hunrepeated : Unrepeated (f :: fs) entries) (hreadable : Readable (f :: fs) entries) :
    (∃ value a, valuesUnder f.name entries = [value] ∧ f.codec.reader.decode value = .ok a
        ∧ f.codec.given f.name entries = some a)
      ∨ valuesUnder f.name entries = [] ∧ f.codec.given f.name entries = none := by
  have hlength := hunrepeated f (List.mem_cons_self ..)
  cases hvalues : valuesUnder f.name entries with
  | nil => exact .inr ⟨rfl, given_of_not_mentioned hvalues⟩
  | cons value values =>
    rw [hvalues, List.length_cons] at hlength
    obtain rfl : values = [] := List.eq_nil_of_length_eq_zero (by omega)
    have hmem : (f.name.toList, value) ∈ entries := mem_valuesUnder.mp (by simp [hvalues])
    obtain ⟨a, ha⟩ := exists_of_isOk (hreadable _ hmem f (List.mem_cons_self ..) rfl)
    exact .inl ⟨value, a, rfl, ha, given_of_valuesUnder hvalues ha⟩

/-- The slots hold a row exactly if the entries give it. -/
theorem complete_eq_ok_iff {entries : List Entry} (hunrepeated : Unrepeated fields entries)
    (hreadable : Readable fields entries) (row : Row fields) :
    (ofEntries entries fields).complete = .ok row ↔ Gives entries fields row := by
  induction fields with
  | nil => exact ⟨fun _ => trivial, fun _ => rfl⟩
  | cons f fs ih =>
    obtain ⟨a, row⟩ := row
    have hothers := ih (fun g hg => hunrepeated g (List.mem_cons_of_mem _ hg))
      (fun e he g hg => hreadable e he g (List.mem_cons_of_mem _ hg)) row
    -- Whatever the first slot holds, the others hold the rest of the row.
    have hmap : ∀ b : f.Value, (complete fs (ofEntries entries fs)).map (b, ·) = .ok (a, row) ↔
        b = a ∧ Gives entries fs row := by
      intro b
      rw [← hothers]
      cases complete fs (ofEntries entries fs) <;> simp [Except.map]
    rw [ofEntries, complete, Gives]
    rcases cases_of_unrepeated hunrepeated hreadable with
      ⟨value, b, hvalue, hread, hgiven⟩ | ⟨hnone, hgiven⟩
    · rw [hgiven]
      refine (hmap b).trans (and_congr_left fun _ => ?_)
      simp [hvalue, hread]
    · rw [hgiven]
      cases habsent : f.ifAbsent with
      | none => simp [hnone]
      | some b =>
        refine (hmap b).trans (and_congr_left fun _ => ?_)
        simp [hnone]

/-- Some row is read if all fields that have to be given are. -/
theorem exists_complete {entries : List Entry} (hunrepeated : Unrepeated fields entries)
    (hreadable : Readable fields entries)
    (hgiven : ∀ f ∈ fields, f.ifAbsent = none → valuesUnder f.name entries ≠ []) :
    ∃ row, (ofEntries entries fields).complete = .ok row := by
  induction fields with
  | nil => exact ⟨(), rfl⟩
  | cons f fs ih =>
    obtain ⟨row, hrow⟩ := ih (fun g hg => hunrepeated g (List.mem_cons_of_mem _ hg))
      (fun e he g hg => hreadable e he g (List.mem_cons_of_mem _ hg))
      fun g hg => hgiven g (List.mem_cons_of_mem _ hg)
    have hslot : ∃ a, (f.codec.given f.name entries <|> f.ifAbsent) = some a := by
      rcases cases_of_unrepeated hunrepeated hreadable with ⟨_, a, -, -, ha⟩ | ⟨hnone, habsent⟩
      · exact ⟨a, by rw [ha]; rfl⟩
      · rw [habsent]
        exact Option.ne_none_iff_exists'.mp fun hf => hgiven f (List.mem_cons_self ..) hf hnone
    obtain ⟨a, ha⟩ := hslot
    refine ⟨(a, row), ?_⟩
    rw [ofEntries, complete, ha]
    show (complete fs (ofEntries entries fs)).map (a, ·) = _
    rw [hrow]
    rfl

/-- The first field that has to be given and is not is missing. -/
theorem complete_eq_missing {entries : List Entry} (hunrepeated : Unrepeated fields entries)
    (hreadable : Readable fields entries) {f : Field}
    (h : (fields.find? fun f => f.ifAbsent.isNone && (valuesUnder f.name entries).isEmpty) =
      some f) :
    (ofEntries entries fields).complete = .error (.missingField f.name) := by
  induction fields with
  | nil => cases h
  | cons g fs ih =>
    have hothers := ih (fun k hk => hunrepeated k (List.mem_cons_of_mem _ hk))
      fun e he k hk => hreadable e he k (List.mem_cons_of_mem _ hk)
    rw [List.find?_cons] at h
    rw [ofEntries, complete]
    rcases cases_of_unrepeated hunrepeated hreadable with
      ⟨value, a, hvalue, -, hgiven⟩ | ⟨hnone, hgiven⟩
    · rw [hvalue] at h
      simp only [List.isEmpty_cons, Bool.and_false] at h
      rw [hgiven]
      show (complete fs (ofEntries entries fs)).map (a, ·) = _
      rw [hothers h]
      rfl
    · rw [hgiven]
      cases habsent : g.ifAbsent with
      | none =>
        rw [habsent, hnone] at h
        obtain rfl : g = f := Option.some.inj h
        rfl
      | some a =>
        rw [habsent] at h
        show (complete fs (ofEntries entries fs)).map (a, ·) = _
        rw [hothers h]
        rfl

theorem enterAll_of_unrepeated (hnames : DistinctNames fields) {ms : List NamedMember}
    (hunrepeated : Unrepeated fields (ms.map (·.entry)))
    (hreadable : Readable fields (ms.map (·.entry))) :
    (empty fields).enterAll (ms.map (·.toMember)) = .ok (ofEntries (ms.map (·.entry)) fields) :=
  enterAll_named hnames ms hunrepeated.nodup hreadable

/-- **What an object gives.** A row is read from the members of an object exactly if their
entries give it. -/
theorem enterAll_complete_iff (hnames : DistinctNames fields) (ms : List NamedMember)
    (row : Row fields) :
    ((empty fields).enterAll (ms.map (·.toMember))).bind (·.complete) = .ok row ↔
      Gives (ms.map (·.entry)) fields row := by
  constructor
  · intro h
    cases henter : (empty fields).enterAll (ms.map (·.toMember)) with
    | error e => rw [henter] at h; cases h
    | ok slots =>
      obtain ⟨-, hunrepeated, hreadable⟩ := of_enterAll_eq_ok hnames henter
      rw [enterAll_of_unrepeated hnames hunrepeated hreadable] at h
      exact (complete_eq_ok_iff hunrepeated hreadable row).mp h
  · intro h
    rw [enterAll_of_unrepeated hnames h.unrepeated h.readable]
    exact (complete_eq_ok_iff h.unrepeated h.readable row).mpr h

end Slots

/-! ## Reading a list -/

/-- **What a list gives.** A row is read from the items of a list exactly if they list
it. -/
theorem Reader.listed_eq_ok_iff {fields : List Field} (hcut : ∀ f ∈ fields, f.ifCut = none)
    (tooShort : Nat → DecodeError) (index : Nat) (values : List (List Char)) (row : Row fields) :
    listed tooShort fields index values = .ok row ↔ Lists fields values row := by
  induction fields generalizing index values with
  | nil => cases values <;> simp [listed, Lists]
  | cons f fs ih =>
    obtain ⟨a, row⟩ := row
    cases values with
    | nil => simp [listed, Lists, hcut f (List.mem_cons_self ..)]
    | cons value values =>
      have hothers := ih (fun g hg => hcut g (List.mem_cons_of_mem _ hg)) (index + 1) values row
      rw [listed, Lists, ← hothers]
      cases f.codec.reader.decode value with
      | error e =>
        constructor
        · intro h
          cases h
        · rintro ⟨h, -⟩
          cases h
      | ok b =>
        show (listed tooShort fs (index + 1) values).map (b, ·) = _ ↔ _
        cases listed tooShort fs (index + 1) values <;> simp [Except.map]

end BoardHealth.Json
