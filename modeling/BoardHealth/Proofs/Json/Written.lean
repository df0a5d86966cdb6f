import BoardHealth.Json.Record
import BoardHealth.Proofs.Json.Entries
import BoardHealth.Proofs.Json.Numerals

/-!
# Reading back what is written

`Codec.ReadsAs a out` says that `out` is made of the text of `a`, on one line or
indented, at any depth of a document. It is kept by every way in which codecs are built:

> `readsAs_boolean`, `readsAs_word32`, `readsAs_word64`: values of their own.
> `readsAs_single`: a number, if its digits are read as it; for one that is not finite
> `null` stands, which is refused.
> `readsAs_optional_single`: where a number may be absent, `null` says that it is.
> `readsAs_vector`, `readsAs_bounded`, `readsAs_choice`: lists and enumerations.
> `readsAs_record`: a structure, whose fields are read back one by one.
-/

namespace BoardHealth.Json

/-! ## Layouts -/

/-- The blanks between a colon and the value behind it. -/
def Layout.lead : Layout → List Char
  | compact => []
  | indented => [' ']

theorem Layout.colon_eq (layout : Layout) : layout.colon = ':' :: layout.lead := by
  cases layout <;> rfl

theorem Layout.isBlanks_lead (layout : Layout) : IsBlanks layout.lead := by
  cases layout <;> exact .of_all rfl

theorem Layout.isBlanks_lineBreak (layout : Layout) (depth : Nat) :
    IsBlanks (layout.lineBreak depth) := by
  cases layout with
  | compact => exact .nil
  | indented =>
    intro c hc
    rcases List.mem_cons.mp hc with rfl | hc
    · rfl
    · rw [List.eq_of_mem_replicate hc]
      rfl

/-- What stands in front of a closing bracket: nothing if there is nothing inside. -/
def Layout.closing (layout : Layout) (depth : Nat) {α : Type} : List α → List Char
  | [] => []
  | _ :: _ => layout.lineBreak depth

theorem Layout.isBlanks_closing (layout : Layout) (depth : Nat) {α : Type} (items : List α) :
    IsBlanks (layout.closing depth items) := by
  cases items with
  | nil => exact .nil
  | cons _ _ => exact layout.isBlanks_lineBreak depth

/-- An item of a list as it is written. -/
def Item.written (layout : Layout) (depth : Nat) (value : List Char)
    (h : ∃ c cs, value = c :: cs ∧ startsValue c = true) : Item :=
  ⟨layout.lineBreak depth, value, [], layout.isBlanks_lineBreak depth, h, .nil⟩

/-! ## Brackets -/

namespace Document

theorem writeItems_eq (layout : Layout) (depth : Nat) (items : List Document) :
    writeItems layout depth items =
      (items.map fun item => layout.lineBreak depth ++ item.write layout depth).flatMap
        (',' :: ·) := by
  induction items with
  | nil => rfl
  | cons item items ih =>
    rw [writeItems, ih]
    rfl

/-- The text of a list: its items with commas between them. -/
theorem write_list (layout : Layout) (depth : Nat) (items : List Document) :
    (list items).write layout depth = '[' :: (commaSeparated
      (items.map fun item => layout.lineBreak (depth + 1) ++ item.write layout (depth + 1)) ++
        (layout.closing depth items ++ [']'])) := by
  cases items with
  | nil => rfl
  | cons item items =>
    rw [write, writeItems_eq]
    simp only [List.map_cons, commaSeparated, Layout.closing, List.cons_append, List.append_assoc]

/-- A member as it is written. -/
def member (layout : Layout) (depth : Nat) (m : String × Document) : Member :=
  .written (layout.lineBreak depth) layout.lead m.1.toList (m.2.write layout depth)
    (layout.isBlanks_lineBreak depth) layout.isBlanks_lead

theorem text_member (layout : Layout) (depth : Nat) (m : String × Document) :
    (member layout depth m).text = layout.lineBreak depth ++
      (quote m.1.toList ++ (layout.colon ++ m.2.write layout depth)) := by
  simp only [Member.text, Member.inner, member, Member.written, quote, layout.colon_eq,
    List.append_assoc, List.cons_append, List.nil_append, List.append_nil]

theorem writeMembers_eq (layout : Layout) (depth : Nat) (members : List (String × Document)) :
    writeMembers layout depth members =
      ((members.map (member layout depth)).map (·.text)).flatMap (',' :: ·) := by
  induction members with
  | nil => rfl
  | cons m members ih =>
    rw [writeMembers, ih, List.map_cons, List.map_cons, List.flatMap_cons, text_member]
    simp only [List.cons_append, List.append_assoc]

/-- The text of an object: its members with commas between them. -/
theorem write_object (layout : Layout) (depth : Nat) (members : List (String × Document)) :
    (object members).write layout depth =
      objectText (members.map (member layout (depth + 1))) (layout.closing depth members) := by
  cases members with
  | nil => rfl
  | cons m members =>
    rw [write, writeMembers_eq, objectText, List.map_cons, List.map_cons, commaSeparated,
      text_member]
    simp only [Layout.closing, List.cons_append, List.append_assoc]

end Document

/-! ## Codecs -/

/-- A finite number is written as its digits. -/
theorem write_single {x : Single} (h : x.isFinite = true) (layout : Layout) (depth : Nat) :
    (Codec.single.encode x).write layout depth = x.text singleLayout := by
  have hencode : Codec.single.encode x = .number (x.text singleLayout) := if_pos h
  rw [hencode]
  rfl

theorem decode_text_single {x : Single} (h : x.isFinite = true) :
    Codec.single.decode (Codec.single.text x) =
      Codec.single.reader.decode (x.text singleLayout) := by
  rw [Codec.decode, Codec.text, Document.text, String.toList_ofList, write_single h]

/-- The digits of a number, if it has any, are read as the number. -/
def ReadsBack (x : Single) : Prop :=
  x.isFinite = true → Codec.single.decode (Codec.single.text x) = .ok x

theorem toOption_eq_some {α : Type} {out : Except DecodeError α} {a : α} :
    out.toOption = some a ↔ out = .ok a := by
  cases out <;> simp [Except.toOption]

instance (x : Single) : Decidable (ReadsBack x) :=
  decidable_of_iff
    (x.isFinite = true →
      (Codec.single.reader.decode (x.text singleLayout)).toOption = some x)
    (forall_congr' fun h => by rw [decode_text_single h, toOption_eq_some])

namespace Codec

variable {α : Type}

/-- What is made of the text of a value, wherever it stands in a document. -/
structure ReadsAs (codec : Codec α) (a : α) (out : Except DecodeError α) : Prop where
  takes : ∀ layout depth, codec.reader.Takes ((codec.encode a).write layout depth) out
  exists_cons : ∀ layout depth, ∃ c cs,
    (codec.encode a).write layout depth = c :: cs ∧ startsValue c = true

/-- The texts of a value: on one line, and indented. -/
def texts (codec : Codec α) (a : α) : List String := [codec.text a, codec.indentedText a]

theorem ReadsAs.decode {codec : Codec α} {a : α} {out : Except DecodeError α}
    (h : codec.ReadsAs a out) {text : String} (htext : text ∈ codec.texts a) :
    codec.decode text = out := by
  have hwhole : ∀ layout, codec.decode ((codec.encode a).text layout) = out := by
    intro layout
    rw [Codec.decode, Document.text, String.toList_ofList]
    exact (h.takes layout 0).decode
  rcases List.mem_cons.mp htext with rfl | htext
  · exact hwhole .compact
  · rw [List.mem_singleton.mp htext]
    exact hwhole .indented

/-! ### Values without brackets -/

theorem readsAs_boolean (b : Bool) : boolean.ReadsAs b (.ok b) where
  takes _ _ := by
    cases b with
    | false => exact Reader.takes_boolean false
    | true => exact Reader.takes_boolean true
  exists_cons _ _ := by cases b <;> exact ⟨_, _, rfl, rfl⟩

theorem startsValue_of_isNumeral {n : Numeral} {text : List Char} (h : IsNumeral n text) :
    ∃ c cs, text = c :: cs ∧ startsValue c = true :=
  (IsValue.scalar (.number h)).exists_cons

theorem takes_word_toDigits {n limit : Nat} (h : n < limit) (hlimit : limit ≤ UInt64.size)
    (shape : Shape) : (Reader.word limit shape).Takes (Nat.toDigits 10 n) (.ok n) := by
  have htakes := Reader.takes_word (isNumeral_toDigits n) limit shape
  rw [value_wordNumeral (by omega)] at htakes
  have hvalue : Reader.wordValue limit shape (.integer n) = .ok n := by
    rw [Reader.wordValue, if_pos ⟨Int.natCast_nonneg n, by omega⟩]
    rfl
  exact hvalue ▸ htakes

theorem readsAs_word32 (n : UInt32) : word32.ReadsAs n (.ok n) where
  takes _ _ := by
    have htakes := (takes_word_toDigits n.toNat_lt (by decide) .word32).map UInt32.ofNat
    rwa [Except.map, UInt32.ofNat_toNat] at htakes
  exists_cons _ _ := startsValue_of_isNumeral (isNumeral_toDigits n.toNat)

theorem readsAs_word64 (n : UInt64) : word64.ReadsAs n (.ok n) where
  takes _ _ := by
    have htakes := (takes_word_toDigits n.toNat_lt (by decide) .word64).map UInt64.ofNat
    rwa [Except.map, UInt64.ofNat_toNat] at htakes
  exists_cons _ _ := startsValue_of_isNumeral (isNumeral_toDigits n.toNat)

/-- A number that is not finite. -/
theorem readsAs_null {x : Single} (h : x.isFinite = false) :
    single.ReadsAs x (.error (.wrongType .null .single)) := by
  have hencode : single.encode x = .null := if_neg (by rw [h]; exact Bool.false_ne_true)
  constructor
  · intro layout depth
    rw [hencode]
    show Reader.Takes _ ('n' :: ['u', 'l', 'l']) _
    refine Reader.takes_of_first rfl fun rest _ => ?_
    exact (Reader.run_bind_of_ok (Reader.run_keyword ['n', 'u', 'l', 'l'] rest)).trans rfl
  · intro layout depth
    rw [hencode]
    exact ⟨_, _, rfl, rfl⟩

/-- A finite number is read as what its digits are read as. -/
theorem readsAs_digits {x : Single} (h : x.isFinite = true) :
    single.ReadsAs x (single.decode (single.text x)) := by
  obtain ⟨n, hn⟩ := exists_isNumeral_text h
  constructor
  · intro layout depth
    rw [write_single h, decode_text_single h]
    exact .of_exists ⟨_, Reader.takes_single hn⟩
  · intro layout depth
    rw [write_single h]
    exact startsValue_of_isNumeral hn

/-! ### Values made of others -/

/-- No value. -/
theorem readsAs_none (item : Codec α) : (optional item).ReadsAs none (.ok none) where
  takes _ _ := by
    intro blanks rest hblanks _
    show (Reader.optional item.reader).run (blanks ++ 'n' :: (['u', 'l', 'l'] ++ rest)) = _
    rw [Reader.optional, Reader.run_bind_of_ok (Reader.run_blanks_append hblanks rfl _)]
    rfl
  exists_cons _ _ := ⟨_, _, rfl, rfl⟩

/-- A value for which `null` stands is lost. -/
theorem readsAs_some_null {item : Codec α} {a : α} (h : item.encode a = .null) :
    (optional item).ReadsAs (some a) (.ok none) := by
  have hnone := readsAs_none item
  have hencode : (optional item).encode (some a) = (optional item).encode none := h
  exact ⟨hencode ▸ hnone.takes, hencode ▸ hnone.exists_cons⟩

/-- A value that does not begin as `null` does. -/
theorem ReadsAs.some {item : Codec α} {a : α} {out : Except DecodeError α}
    (h : item.ReadsAs a out)
    (hn : ∀ layout depth, ((item.encode a).write layout depth).head? ≠ some 'n') :
    (optional item).ReadsAs (some a) (out.map Option.some) where
  takes layout depth := by
    intro blanks rest hblanks hrest
    have htakes := h.takes layout depth [] rest .nil hrest
    have hhead := hn layout depth
    obtain ⟨c, cs, hcons, hc⟩ := h.exists_cons layout depth
    show (Reader.optional item.reader).run
      (blanks ++ ((item.encode a).write layout depth ++ rest)) = _
    rw [hcons] at hhead htakes ⊢
    rw [Reader.optional, List.cons_append, Reader.run_bind_of_ok
      (Reader.run_blanks_append hblanks (not_isBlank_of_startsValue hc) _),
      Reader.run_bind_of_ok (Reader.run_peek _)]
    split
    next heq => exact absurd heq hhead
    next =>
      show (item.reader >>= fun a => pure (Option.some a)).run (c :: (cs ++ rest)) = _
      rw [List.nil_append, List.cons_append] at htakes
      rw [Reader.run_bind, htakes]
      cases out <;> rfl
  exists_cons := h.exists_cons

/-- The items of a list that is written. -/
theorem exists_items {item : Codec α} {as : List α} (h : ∀ a ∈ as, item.ReadsAs a (.ok a))
    (layout : Layout) (depth : Nat) :
    ∃ items : List Item, Reader.ItemsTake item.reader items as ∧ items.map (·.text) =
      (as.map item.encode).map fun d => layout.lineBreak depth ++ d.write layout depth := by
  induction as with
  | nil => exact ⟨[], .nil, rfl⟩
  | cons a as ih =>
    obtain ⟨items, htake, htext⟩ := ih fun b hb => h b (List.mem_cons_of_mem _ hb)
    have ha := h a (List.mem_cons_self ..)
    refine ⟨.written layout depth _ (ha.exists_cons layout depth) :: items,
      .cons (ha.takes layout depth) htake, ?_⟩
    rw [List.map_cons, List.map_cons, List.map_cons, htext, Item.text, Item.written,
      List.append_nil]

/-- The text of a list. -/
theorem exists_listText {item : Codec α} {as : List α} (h : ∀ a ∈ as, item.ReadsAs a (.ok a))
    (layout : Layout) (depth : Nat) :
    ∃ items inside, Reader.ItemsTake item.reader items as ∧ IsBlanks inside ∧
      (Document.list (as.map item.encode)).write layout depth = listText items inside := by
  obtain ⟨items, htake, htext⟩ := exists_items h layout (depth + 1)
  refine ⟨items, _, htake, layout.isBlanks_closing depth (as.map item.encode), ?_⟩
  rw [Document.write_list, listText, htext]

theorem readsAs_vector {item : Codec α} {size : Nat} {as : Vector α size}
    (h : ∀ a ∈ as.toList, item.ReadsAs a (.ok a)) : (vector item size).ReadsAs as (.ok as) where
  takes layout depth := by
    obtain ⟨items, inside, htake, hinside, htext⟩ := exists_listText h layout depth
    show (Reader.vector item.reader size).Takes
      ((Document.list (as.toList.map item.encode)).write layout depth) _
    rw [htext]
    exact Reader.takes_vector htake hinside
  exists_cons layout depth := ⟨_, _, Document.write_list layout depth _, rfl⟩

theorem readsAs_bounded {item : Codec α} {bound : Nat} {as : Bounded α bound}
    (h : ∀ a ∈ as.toList, item.ReadsAs a (.ok a)) :
    (bounded item bound).ReadsAs as (.ok as) where
  takes layout depth := by
    obtain ⟨items, inside, htake, hinside, htext⟩ := exists_listText h layout depth
    show (Reader.bounded item.reader bound).Takes
      ((Document.list (as.toList.map item.encode)).write layout depth) _
    rw [htext]
    exact Reader.takes_bounded htake hinside
  exists_cons layout depth := ⟨_, _, Document.write_list layout depth _, rfl⟩

/-- A value of an enumeration whose names are distinct. -/
theorem readsAs_choice {all : List α} {name : α → String} {a : α}
    (h : (all.find? fun b => (name b).toList = (name a).toList) = some a) :
    (choice all name).ReadsAs a (.ok a) where
  takes layout depth := by
    refine Reader.takes_of_first rfl fun rest _ => ?_
    rw [if_pos rfl]
    refine (Reader.run_bind_of_ok (Reader.run_advance _)).trans ?_
    have hbody : ((choice all name).encode a).write layout depth ++ rest =
        '"' :: ((name a).toList.flatMap escapeChar ++ '"' :: rest) := by
      show '"' :: ((name a).toList.flatMap escapeChar ++ ['"']) ++ rest = _
      simp only [List.cons_append, List.append_assoc, List.nil_append]
    have hcontent := Reader.run_stringContent (spells_escape (name a).toList) rest
    refine (congrArg (fun text => (_ : Reader α).run (List.tail text)) hbody).trans ?_
    refine (Reader.run_bind_of_ok hcontent).trans ?_
    rw [Reader.named, h]
    rfl
  exists_cons _ _ := ⟨_, _, rfl, rfl⟩

/-! ### Numbers, unless they are not finite -/

/-- What is read of a value if a number that is not finite stands in the way. -/
def unlessNull (isRead : Bool) (a : α) : Except DecodeError α :=
  if isRead then .ok a else .error (.wrongType .null .single)

theorem unlessNull_of_finite {xs : List Single} (h : ∀ x ∈ xs, x.isFinite = true) (a : α) :
    unlessNull (xs.all (·.isFinite)) a = .ok a := by
  rw [List.all_eq_true.mpr h]
  rfl

theorem unlessNull_of_not_finite {xs : List Single} (h : ∃ x ∈ xs, x.isFinite = false) (a : α) :
    unlessNull (xs.all (·.isFinite)) a = .error (.wrongType .null .single) := by
  obtain ⟨x, hx, hinfinite⟩ := h
  have hnull : xs.all (·.isFinite) = false :=
    List.all_eq_false.mpr ⟨x, hx, by rw [hinfinite]; exact Bool.false_ne_true⟩
  rw [hnull]
  rfl

/-- A number is read back unless it is not finite. -/
theorem readsAs_single {x : Single} (h : ReadsBack x) :
    single.ReadsAs x (unlessNull x.isFinite x) := by
  cases hfinite : x.isFinite with
  | false => exact readsAs_null hfinite
  | true =>
    have hdigits := readsAs_digits hfinite
    rwa [h hfinite] at hdigits

/-- A number that may be absent is, if it is not finite. -/
theorem readsAs_optional_single {x : Option Single} (h : ∀ y ∈ x, ReadsBack y) :
    (optional single).ReadsAs x (.ok (x.filter (·.isFinite))) := by
  cases x with
  | none => exact readsAs_none single
  | some y =>
    rw [Option.filter_some]
    cases hfinite : y.isFinite with
    | false => exact readsAs_some_null (if_neg (by rw [hfinite]; exact Bool.false_ne_true))
    | true =>
      have hdigits := readsAs_digits hfinite
      rw [h y rfl hfinite] at hdigits
      refine hdigits.some fun layout depth => ?_
      obtain ⟨n, hn⟩ := exists_isNumeral_text hfinite
      obtain ⟨c, cs, hcons, hc⟩ := hn.exists_cons
      rw [write_single hfinite, hcons]
      rintro ⟨⟩
      exact absurd hc (by decide)

/-- An integer that may be absent. -/
theorem readsAs_optional_word32 (n : Option UInt32) : (optional word32).ReadsAs n (.ok n) := by
  cases n with
  | none => exact readsAs_none word32
  | some n =>
    refine (readsAs_word32 n).some fun layout depth => ?_
    obtain ⟨c, cs, hcons, hc⟩ := (isNumeral_toDigits n.toNat).exists_cons
    show (Nat.toDigits 10 n.toNat).head? ≠ _
    rw [hcons]
    rintro ⟨⟩
    exact absurd hc (by decide)

end Codec

/-! ## Structures -/

/-- For each field whether what is written for its value is read, and as what. -/
def Row.ReadsAs : (fields : List Field) → Row fields → List Bool → Row fields → Prop
  | [], (), [], () => True
  | f :: fs, (a, row), isRead :: areRead, (b, row') =>
    f.codec.ReadsAs a (Codec.unlessNull isRead b) ∧ ReadsAs fs row areRead row'
  | _, _, _, _ => False

theorem Row.map_fst_encode (fields : List Field) (row : Row fields) :
    (Row.encode fields row).map (·.1) = fields.map (·.name) := by
  induction fields with
  | nil => rfl
  | cons f fs ih => rw [Row.encode, List.map_cons, List.map_cons, ih]

theorem Document.key_member (layout : Layout) (depth : Nat) (m : String × Document) :
    (Document.member layout depth m).key = .ok m.1.toList :=
  Member.key_of_spells (spells_escape m.1.toList)

namespace Slots

variable {fields : List Field}

/-- Members under the names of other fields. -/
theorem enterAll_other {f : Field} {ms : List Member} {slots : Slots fields}
    (h : ∀ m ∈ ms, ∀ key, m.key = .ok key → f.name.toList ≠ key) (slot : Option f.Value) :
    @enterAll (f :: fields) (slot, slots) ms =
      (slots.enterAll ms).map fun slots => (slot, slots) := by
  induction ms generalizing slots with
  | nil => rfl
  | cons m ms ih =>
    rw [enterAll, enterAll, enterMember, enterMember]
    cases hkey : m.key with
    | error e => rfl
    | ok key =>
      have hne := h m (List.mem_cons_self ..) key hkey
      show (enter key m.value (f :: fields) (slot, slots)).bind _ = _
      rw [enter_other hne]
      cases henter : enter key m.value fields slots with
      | error e => simp only [Except.map, Except.bind, henter]
      | ok slots' =>
        have hmore := @ih slots' fun n hn => h n (List.mem_cons_of_mem _ hn)
        simpa only [Except.map, Except.bind, henter] using hmore

/-- The members that are written for the values of fields are entered one by one. -/
theorem enterAll_encode {row row' : Row fields} {areRead : List Bool}
    (hnames : DistinctNames fields) (h : Row.ReadsAs fields row areRead row') (layout : Layout)
    (depth : Nat) :
    ((empty fields).enterAll ((Row.encode fields row).map (Document.member layout depth))).bind
        (·.complete) =
      Codec.unlessNull (areRead.all id) row' := by
  induction fields generalizing areRead with
  | nil =>
    cases areRead with
    | nil => rfl
    | cons isRead areRead => cases h
  | cons f fs ih =>
    cases areRead with
    | nil => cases h
    | cons isRead areRead =>
      obtain ⟨a, row⟩ := row
      obtain ⟨b, row'⟩ := row'
      obtain ⟨hvalue, hothers⟩ := h
      rw [DistinctNames, List.map_cons, List.nodup_cons] at hnames
      have hrest := ih hnames.2 hothers
      have hother : ∀ m ∈ (Row.encode fs row).map (Document.member layout depth), ∀ key,
          m.key = .ok key → f.name.toList ≠ key := by
        intro m hm key hkey heq
        obtain ⟨member, hmember, rfl⟩ := List.mem_map.mp hm
        rw [Document.key_member] at hkey
        have hname : member.1 ∈ fs.map (·.name) :=
          Row.map_fst_encode fs row ▸ List.mem_map_of_mem hmember
        obtain ⟨g, hg, hgname⟩ := List.mem_map.mp hname
        refine hnames.1 (List.mem_map.mpr ⟨g, hg, ?_⟩)
        rw [heq, ← Except.ok.inj hkey, hgname]
      have hdecode := (hvalue.takes layout depth).decode
      rw [Row.encode, List.map_cons, empty, enterAll, enterMember, Document.key_member]
      show ((enter f.name.toList ((f.codec.encode a).write layout depth) (f :: fs)
        (none, empty fs)).bind fun slots => slots.enterAll _).bind _ = _
      rw [enter_fresh rfl, hdecode]
      cases isRead with
      | false => rfl
      | true =>
        show (@enterAll (f :: fs) (some b, empty fs) _).bind _ = _
        have hresult : Codec.unlessNull ((true :: areRead).all id) (b, row') =
            (Codec.unlessNull (areRead.all id) row').map (b, ·) := by
          rw [List.all_cons, id, Bool.true_and]
          cases areRead.all id <;> rfl
        rw [enterAll_other hother, hresult, ← hrest]
        cases (empty fs).enterAll ((Row.encode fs row).map (Document.member layout depth)) <;> rfl

end Slots

/-- Fields are told apart by their names. -/
theorem DistinctNames.eq_of_name {fields : List Field} (h : DistinctNames fields) {f g : Field}
    (hf : f ∈ fields) (hg : g ∈ fields) (heq : f.name.toList = g.name.toList) : f = g := by
  induction fields with
  | nil => cases hf
  | cons k ks ih =>
    rw [DistinctNames, List.map_cons, List.nodup_cons] at h
    rcases List.mem_cons.mp hf with rfl | hf' <;> rcases List.mem_cons.mp hg with rfl | hg'
    · rfl
    · exact absurd (List.mem_map.mpr ⟨g, hg', heq.symm⟩) h.1
    · exact absurd (List.mem_map.mpr ⟨f, hf', heq⟩) h.1
    · exact ih h.2 hf' hg'

/-- A member that is written is one of a field, whose reader reads its value. -/
theorem exists_field_of_written {fields : List Field} {row row' : Row fields}
    {areRead : List Bool} (h : Row.ReadsAs fields row areRead row') (layout : Layout) (depth : Nat)
    {m : Member} (hm : m ∈ (Row.encode fields row).map (Document.member layout depth)) :
    ∃ f ∈ fields, m.key = .ok f.name.toList ∧
      f.codec.reader.Takes m.value (f.codec.reader.decode m.value) := by
  induction fields generalizing areRead with
  | nil => cases hm
  | cons f fs ih =>
    cases areRead with
    | nil => cases h
    | cons isRead areRead =>
      obtain ⟨a, row⟩ := row
      obtain ⟨b, row'⟩ := row'
      obtain ⟨hvalue, hothers⟩ := h
      rw [Row.encode, List.map_cons] at hm
      rcases List.mem_cons.mp hm with rfl | hm
      · exact ⟨f, List.mem_cons_self .., Document.key_member ..,
          .of_exists ⟨_, hvalue.takes layout depth⟩⟩
      · obtain ⟨g, hg, hkey, htakes⟩ := ih hothers hm
        exact ⟨g, List.mem_cons_of_mem _ hg, hkey, htakes⟩

/-- **Structures are read back field by field.** What is written for a structure is read
if what is written for each of its fields is. -/
theorem Codec.readsAs_record {α : Type} {title : String} {fields : List Field}
    {toRow : α → Row fields} {ofRow : Row fields → α} {a : α} {areRead : List Bool}
    {row' : Row fields} (hnames : DistinctNames fields)
    (h : Row.ReadsAs fields (toRow a) areRead row') :
    (Codec.record title fields toRow ofRow).ReadsAs a
      (unlessNull (areRead.all id) (ofRow row')) where
  takes layout depth := by
    have hmeets : ∀ m ∈ (Row.encode fields (toRow a)).map (Document.member layout (depth + 1)),
        ∀ key, m.key = .ok key → Reader.Meets fields key m.value := by
      intro m hm key hkey
      obtain ⟨f, hf, hname, htakes⟩ := exists_field_of_written h layout (depth + 1) hm
      obtain rfl : f.name.toList = key := Except.ok.inj (hname.symm.trans hkey)
      refine ⟨fun g hg heq => ?_, fun hnone => absurd rfl (hnone f hf)⟩
      rwa [hnames.eq_of_name hg hf heq]
    have hobject := Reader.takes_record_object title fields _
      (layout.isBlanks_closing depth (Row.encode fields (toRow a))) hmeets
    rw [Slots.enterAll_encode hnames h, ← Document.write_object] at hobject
    have hmap : (unlessNull (areRead.all id) row').map ofRow =
        unlessNull (areRead.all id) (ofRow row') := by
      cases areRead.all id <;> rfl
    exact hmap ▸ hobject.map ofRow
  exists_cons layout depth := ⟨_, _, Document.write_object layout depth _, rfl⟩

end BoardHealth.Json
