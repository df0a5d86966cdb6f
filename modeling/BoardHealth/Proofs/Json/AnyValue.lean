import BoardHealth.Proofs.Json.Entries

/-!
# Reading any value

A value is a scalar, a list of values or an object of named values (`IsValue.cases`). So
the codecs that are made of others make something of every value too, be it a refusal,
and never look beyond it:

> `takesValues_optional`, `takesValues_vector`, `takesValues_bounded`: values that may be
> absent, and lists, if their items do.
> `takesValues_choice`: enumerations.
> `takesValues_record`: structures, if their fields do.

Nothing is asked of the values here: a list may be too long, an object may lack a field,
and a string may hold half a pair of surrogates.
-/

namespace BoardHealth.Json

/-! ## The items of a bracket -/

/-- Behind a comma stands the rest of a list. -/
theorem flatMap_comma {texts : List (List Char)} (h : texts ≠ []) :
    texts.flatMap (',' :: ·) = ',' :: commaSeparated texts := by
  cases texts with
  | nil => exact absurd rfl h
  | cons text texts => rfl

/-- What stands between square brackets are items with commas between them. -/
theorem IsItems.exists_listItems {text : List Char} (h : IsItems .list text) :
    ∃ items : List Item, items ≠ [] ∧ text = commaSeparated (items.map (·.text)) ∧
      ∀ i ∈ items, IsValue i.value := by
  -- By induction on the length, as values and items are defined together.
  induction hlength : text.length using Nat.strongRecOn generalizing text with
  | ind n ih =>
    cases h with
    | @last _ _ lead value trail hlabel hlead hvalue htrail =>
      cases hlabel
      let i : Item := ⟨lead, value, trail, hlead, hvalue.exists_cons, htrail⟩
      refine ⟨[i], List.cons_ne_nil _ _, ?_, ?_⟩
      · simp [commaSeparated, Item.text, i]
      · simpa using hvalue
    | @more _ _ lead value trail later hlabel hlead hvalue htrail hlater =>
      cases hlabel
      have hless : later.length < n := by
        simp only [List.length_append, List.length_cons] at hlength
        omega
      obtain ⟨items, hne, rfl, hvalues⟩ := ih _ hless hlater rfl
      let i : Item := ⟨lead, value, trail, hlead, hvalue.exists_cons, htrail⟩
      refine ⟨i :: items, List.cons_ne_nil _ _, ?_, List.forall_mem_cons.mpr ⟨hvalue, hvalues⟩⟩
      have hcomma : (items.map (·.text)).flatMap (',' :: ·) = _ :=
        flatMap_comma (by simpa using hne)
      rw [List.map_cons, commaSeparated, hcomma]
      simp [Item.text, i]

/-- What stands between braces are members with commas between them. -/
theorem IsItems.exists_members {text : List Char} (h : IsItems .object text) :
    ∃ ms : List Member, ms ≠ [] ∧ text = commaSeparated (ms.map (·.text)) ∧
      ∀ m ∈ ms, IsValue m.value := by
  induction hlength : text.length using Nat.strongRecOn generalizing text with
  | ind n ih =>
    cases h with
    | @last _ _ lead value trail hlabel hlead hvalue htrail =>
      cases hlabel with
      | @object indent key gap hindent hkey hgap =>
        let m : Member :=
          ⟨indent, key, gap, lead, value, trail, hindent, hkey, hgap, hlead, htrail⟩
        refine ⟨[m], List.cons_ne_nil _ _, ?_, ?_⟩
        · simp [commaSeparated, Member.text, Member.inner, m]
        · simpa using hvalue
    | @more _ _ lead value trail later hlabel hlead hvalue htrail hlater =>
      have hless : later.length < n := by
        simp only [List.length_append, List.length_cons] at hlength
        omega
      obtain ⟨ms, hne, rfl, hvalues⟩ := ih _ hless hlater rfl
      cases hlabel with
      | @object indent key gap hindent hkey hgap =>
        let m : Member :=
          ⟨indent, key, gap, lead, value, trail, hindent, hkey, hgap, hlead, htrail⟩
        refine ⟨m :: ms, List.cons_ne_nil _ _, ?_, List.forall_mem_cons.mpr ⟨hvalue, hvalues⟩⟩
        have hcomma : (ms.map (·.text)).flatMap (',' :: ·) = _ :=
          flatMap_comma (by simpa using hne)
        rw [List.map_cons, commaSeparated, hcomma]
        simp [Member.text, Member.inner, m]

/-- A value is a scalar, a list of values or an object of named values. -/
theorem IsValue.cases {text : List Char} (h : IsValue text) :
    IsScalar text
      ∨ (∃ items inside, IsBlanks inside ∧ (∀ i ∈ items, IsValue i.value) ∧
          text = listText items inside)
      ∨ ∃ ms inside, IsBlanks inside ∧ (∀ m ∈ ms, IsValue m.value) ∧
          text = objectText ms inside := by
  cases h with
  | scalar h => exact .inl h
  | @empty b inside hinside =>
    cases b with
    | list => exact .inr (.inl ⟨[], inside, hinside, nofun, rfl⟩)
    | object => exact .inr (.inr ⟨[], inside, hinside, nofun, rfl⟩)
  | @filled b items hitems =>
    cases b with
    | list =>
      obtain ⟨items, -, rfl, hvalues⟩ := hitems.exists_listItems
      exact .inr (.inl ⟨items, [], .nil, hvalues, rfl⟩)
    | object =>
      obtain ⟨ms, -, rfl, hvalues⟩ := hitems.exists_members
      exact .inr (.inr ⟨ms, [], .nil, hvalues, rfl⟩)

/-- Items with commas between them may stand between square brackets. -/
theorem isItems_commaSeparated_items {i : Item} {items : List Item}
    (hvalues : ∀ j ∈ i :: items, IsValue j.value) {inside : List Char} (hinside : IsBlanks inside) :
    IsItems .list (commaSeparated ((i :: items).map (·.text)) ++ inside) := by
  obtain ⟨hvalue, hothers⟩ := List.forall_mem_cons.mp hvalues
  induction items generalizing i with
  | nil =>
    -- The blanks in front of the bracket are among those behind the last item.
    have hitem : IsItems .list ([] ++ (i.lead ++ (i.value ++ (i.trail ++ inside)))) :=
      .last .list i.isBlanks_lead hvalue (i.isBlanks_trail.append hinside)
    simpa [commaSeparated, Item.text] using hitem
  | cons j items ih =>
    obtain ⟨hnext, hlater⟩ := List.forall_mem_cons.mp hothers
    have hitem := IsItems.more .list i.isBlanks_lead hvalue i.isBlanks_trail
      (ih hothers hnext hlater)
    simpa [commaSeparated, Item.text] using hitem

/-- A list of values is a value. -/
theorem isValue_listText {items : List Item} (hvalues : ∀ i ∈ items, IsValue i.value)
    {inside : List Char} (hinside : IsBlanks inside) : IsValue (listText items inside) := by
  cases items with
  | nil => exact .empty .list hinside
  | cons i items =>
    have hlist := IsValue.filled (isItems_commaSeparated_items hvalues hinside)
    rwa [List.append_assoc] at hlist

/-- Members with commas between them may stand between braces. -/
theorem isItems_commaSeparated_members {m : Member} {ms : List Member}
    (hvalues : ∀ n ∈ m :: ms, IsValue n.value) {inside : List Char} (hinside : IsBlanks inside) :
    IsItems .object (commaSeparated ((m :: ms).map (·.text)) ++ inside) := by
  obtain ⟨hvalue, hothers⟩ := List.forall_mem_cons.mp hvalues
  have hlabel := IsLabel.object m.isBlanks_indent m.isStringBody m.isBlanks_gap
  induction ms generalizing m with
  | nil =>
    have hitem := IsItems.last hlabel m.isBlanks_lead hvalue (m.isBlanks_trail.append hinside)
    simpa [commaSeparated, Member.text, Member.inner] using hitem
  | cons n ms ih =>
    obtain ⟨hnext, hlater⟩ := List.forall_mem_cons.mp hothers
    have hitem := IsItems.more hlabel m.isBlanks_lead hvalue m.isBlanks_trail
      (ih hothers hnext hlater (.object n.isBlanks_indent n.isStringBody n.isBlanks_gap))
    simpa [commaSeparated, Member.text, Member.inner] using hitem

/-- An object of values is a value. -/
theorem isValue_objectText {ms : List Member} (hvalues : ∀ m ∈ ms, IsValue m.value)
    {inside : List Char} (hinside : IsBlanks inside) : IsValue (objectText ms inside) := by
  cases ms with
  | nil => exact .empty .object hinside
  | cons m ms =>
    have hobject := IsValue.filled (isItems_commaSeparated_members hvalues hinside)
    rwa [List.append_assoc] at hobject

namespace Reader

variable {α : Type} {item : Reader α}

/-! ## Lists -/

section Lists

variable {items : List Item} {inside : List Char}

/-- One item and the items behind it: the list is read if both are, or refused for the
first that is not. -/
theorem run_closed_item {β γ : Type} {others : Reader β} {f : α → β → γ} {i : Item}
    {out : Except DecodeError α} {out' : Except DecodeError β} {rest : List Char}
    (hitem : item.Takes i.value out) (hinside : IsBlanks inside)
    (hothers : (closed others).run (i.trail ++ remaining false items inside rest) =
      out'.map (·, rest)) :
    (closed (do
      let a ← item
      let b ← others
      pure (f a b))).run (i.value ++ (i.trail ++ remaining false items inside rest)) =
        (out.bind fun a => out'.map (f a)).map (·, rest) := by
  have hrun : item.run (i.value ++ (i.trail ++ remaining false items inside rest)) = _ :=
    hitem [] _ .nil (i.isBlanks_trail.delimited (delimited_remaining items hinside rest))
  cases out with
  | error e => exact run_closed_bind_of_error hrun
  | ok a =>
    rw [run_closed_bind_of_ok hrun, run_closed_map, hothers]
    cases out' <;> rfl

/-- A list of one fixed length is read, or refused for what stands in it. -/
theorem exists_run_elements (htakes : ∀ i ∈ items, ∃ out, item.Takes i.value out)
    (hinside : IsBlanks inside) (size : Nat) {left : Nat} (hsize : left ≤ size) :
    ∃ out : Except DecodeError (Vector α left), ∀ trail rest, IsBlanks trail →
      (closed (elements item size left)).run
        (trail ++ remaining (left == size) items inside rest) = out.map (·, rest) := by
  induction left generalizing items with
  | zero =>
    cases items with
    | nil =>
      refine ⟨.ok #v[], fun trail rest htrail => ?_⟩
      rw [elements, run_closed_pure, run_closeList_nil _ htrail hinside]
      rfl
    | cons i items =>
      -- No more is read, and the comma is met where the bracket should close.
      refine ⟨.error .trailingText, fun trail rest htrail => ?_⟩
      rw [elements, run_closed_pure, run_closeList_cons _ htrail]
      rfl
  | succ left ih =>
    cases items with
    | nil =>
      refine ⟨.error (.wrongLength (size - (left + 1)) (.vector size)),
        fun trail rest htrail => ?_⟩
      rw [elements, run_closed_bind_of_ok (run_nextElement_nil _ htrail hinside rest)]
      rfl
    | cons i items =>
      obtain ⟨⟨out, hitem⟩, hitems⟩ := List.forall_mem_cons.mp htakes
      obtain ⟨out', hothers⟩ := ih hitems (by omega)
      have hlater : (left == size) = false := beq_eq_false_iff_ne.mpr (by omega)
      rw [hlater] at hothers
      refine ⟨out.bind fun a => out'.map fun xs => (#v[a] ++ xs).cast (Nat.add_comm 1 left),
        fun trail rest htrail => ?_⟩
      rw [elements, run_closed_bind_of_ok (run_nextElement_cons _ htrail i items rest), if_pos rfl]
      exact run_closed_item hitem hinside (hothers i.trail rest i.isBlanks_trail)

/-- A list of bounded length is read, or refused for what stands in it. -/
theorem exists_run_elementsUpTo (htakes : ∀ i ∈ items, ∃ out, item.Takes i.value out)
    (hinside : IsBlanks inside) (bound : Nat) {room : Nat} (hroom : room ≤ bound) :
    ∃ out : Except DecodeError (Bounded α room), ∀ trail rest, IsBlanks trail →
      (closed (elementsUpTo item bound room)).run
        (trail ++ remaining (room == bound) items inside rest) = out.map (·, rest) := by
  have hend : ∀ {room : Nat} (first : Bool) {x : Reader (Bounded α room)} {trail : List Char}
      (rest : List Char), IsBlanks trail →
      (closed (do if ← nextElement first then x else pure .empty)).run
        (trail ++ remaining first [] inside rest) = .ok (.empty, rest) := by
    intro room first x trail rest htrail
    rw [run_closed_bind_of_ok (run_nextElement_nil first htrail hinside rest),
      if_neg Bool.false_ne_true, run_closed_pure]
    rfl
  induction room generalizing items with
  | zero =>
    have hfirst : (bound == 0) = (0 == bound) := BEq.comm
    cases items with
    | nil =>
      refine ⟨.ok .empty, fun trail rest htrail => ?_⟩
      rw [elementsUpTo, hfirst]
      exact hend (0 == bound) rest htrail
    | cons i items =>
      obtain ⟨out, hout⟩ := htakes i (List.mem_cons_self ..)
      -- One too many is read before it is refused.
      refine ⟨out.bind fun _ => .error (.wrongLength (bound + 1) .list),
        fun trail rest htrail => ?_⟩
      have hrun : item.run (i.value ++ (i.trail ++ remaining false items inside rest)) = _ :=
        hout [] _ .nil (i.isBlanks_trail.delimited (delimited_remaining items hinside rest))
      rw [elementsUpTo, hfirst,
        run_closed_bind_of_ok (run_nextElement_cons _ htrail i items rest), if_pos rfl]
      cases out with
      | error e => exact run_closed_bind_of_error hrun
      | ok a =>
        rw [run_closed_bind_of_ok hrun]
        rfl
  | succ room ih =>
    cases items with
    | nil =>
      refine ⟨.ok .empty, fun trail rest htrail => ?_⟩
      rw [elementsUpTo]
      exact hend _ rest htrail
    | cons i items =>
      obtain ⟨⟨out, hitem⟩, hitems⟩ := List.forall_mem_cons.mp htakes
      obtain ⟨out', hothers⟩ := ih hitems (by omega)
      have hlater : (room == bound) = false := beq_eq_false_iff_ne.mpr (by omega)
      rw [hlater] at hothers
      refine ⟨out.bind fun a => out'.map fun xs => xs.cons a, fun trail rest htrail => ?_⟩
      rw [elementsUpTo, run_closed_bind_of_ok (run_nextElement_cons _ htrail i items rest),
        if_pos rfl]
      exact run_closed_item hitem hinside (hothers i.trail rest i.isBlanks_trail)

end Lists

/-- A reader of lists makes something of every list, and refuses what is no list. -/
theorem exists_takes_closed {x : Reader α} {text : List Char} (h : IsValue text)
    (expected : Shape)
    (hlist : ∀ items inside, IsBlanks inside → (∀ i ∈ items, IsValue i.value) →
      ∃ out : Except DecodeError α, ∀ trail rest, IsBlanks trail →
        (closed x).run (trail ++ remaining true items inside rest) = out.map (·, rest)) :
    ∃ out, (do
      let c ← valueStart
      if c = '[' then
        advance
        closed x
      else mismatch c expected : Reader α).Takes text out := by
  rcases h.cases with hscalar | ⟨items, inside, hinside, hvalues, rfl⟩ | ⟨ms, inside, -, -, rfl⟩
  · refine exists_takes_of_mismatch h expected ?_
    rintro c cs rfl
    obtain ⟨d, ds, heq, -, hne, -⟩ := hscalar.exists_cons
    obtain ⟨rfl, rfl⟩ := List.cons.inj heq
    exact if_neg hne
  · obtain ⟨out, hout⟩ := hlist items inside hinside hvalues
    refine ⟨out, takes_of_first rfl fun rest _ => ?_⟩
    rw [if_pos rfl]
    refine (congrArg _ (listText_append items inside rest)).trans ?_
    exact (run_bind_of_ok (run_advance _)).trans (hout [] rest .nil)
  · refine exists_takes_of_mismatch h expected fun c cs heq => if_neg ?_
    rintro rfl
    exact absurd (List.cons.inj heq).1 (by decide)

/-! ## Enumerations -/

theorem exists_takes_null {text : List Char} (h : IsValue text) : ∃ out, null.Takes text out := by
  -- All that is asked of another value is that it begins otherwise.
  have hother : (∀ c cs, text = c :: cs → c ≠ 'n') → ∃ out, null.Takes text out := by
    intro hfirst
    exact exists_takes_of_mismatch h .null fun c cs heq => if_neg (hfirst c cs heq)
  cases h with
  | scalar h =>
    cases h with
    | null =>
      exact ⟨.ok (), takes_of_first rfl fun rest _ => run_keyword ['n', 'u', 'l', 'l'] rest⟩
    | number h =>
      refine hother ?_
      rintro c cs rfl
      obtain ⟨d, ds, heq, hd⟩ := h.exists_cons
      obtain ⟨rfl, rfl⟩ := List.cons.inj heq
      exact (ne_of_beginsNumeral hd).1
    | yes | no | string => exact hother fun c cs heq => by cases heq; decide
  | empty b => cases b <;> exact hother fun c cs heq => by cases heq; decide
  | @filled b => cases b <;> exact hother fun c cs heq => by cases heq; decide

/-- A name is known or not. -/
theorem exists_run_named (all : List α) (name : α → String) (found : List Char) :
    ∃ out : Except DecodeError α, ∀ rest, (named all name found).run rest = out.map (·, rest) := by
  unfold named
  cases all.find? fun a => (name a).toList = found with
  | none => exact ⟨.error (.unknownName found (all.map name)), fun _ => rfl⟩
  | some a => exact ⟨.ok a, fun _ => rfl⟩

/-- Reads the brace behind a name that is given as an object. -/
def closeChoice (a : α) : Reader α := do
  Reader.blanks
  match ← peek with
  | none => fail .endInObject
  | some '}' =>
    advance
    pure a
  | some _ => fail .valueExpected

/-- Behind the name a brace has to follow, so a second member is refused for its comma. -/
theorem exists_run_closeChoice (m : Member) (ms : List Member) {inside : List Char}
    (hinside : IsBlanks inside) :
    ∃ out : Except DecodeError Unit, ∀ (a : α) rest,
      (closeChoice a).run (m.trail ++ behindMember ms inside rest) =
        out.map fun _ => (a, rest) := by
  cases ms with
  | nil =>
    refine ⟨.ok (), fun a rest => ?_⟩
    have hblanks : Reader.blanks.run (m.trail ++ (inside ++ '}' :: rest)) =
        .ok ((), '}' :: rest) := by
      rw [← List.append_assoc]
      exact run_blanks_append (m.isBlanks_trail.append hinside) rfl rest
    exact (run_bind_of_ok hblanks).trans rfl
  | cons m' ms =>
    refine ⟨.error .valueExpected, fun a rest => ?_⟩
    rw [behindMember_cons]
    exact (run_bind_of_ok (run_blanks_append m.isBlanks_trail rfl _)).trans rfl

/-- A name as a key, from behind its opening quote. -/
theorem exists_run_nameKey (all : List α) (name : α → String) (m : Member) (ms : List Member)
    {inside : List Char} (hvalue : IsValue m.value) (hinside : IsBlanks inside) :
    ∃ out : Except DecodeError α, ∀ rest, (do
      let found ← stringContent
      let a ← named all name found
      colon
      null
      closeChoice a : Reader α).run (m.inner (behindMember ms inside rest)) =
        out.map (·, rest) := by
  obtain ⟨isNull, hnull⟩ := exists_takes_null hvalue
  obtain ⟨closing, hclosing⟩ := exists_run_closeChoice (α := α) m ms hinside
  cases hkey : m.key with
  | error e =>
    refine ⟨.error e, fun rest => run_bind_of_error ?_⟩
    exact (m.run_key _).trans (by rw [hkey]; rfl)
  | ok key =>
    obtain ⟨known, hknown⟩ := exists_run_named all name key
    refine ⟨known.bind fun a => isNull.bind fun _ => closing.map fun _ => a, fun rest => ?_⟩
    have hrun := m.run_key
      (m.gap ++ ':' :: (m.lead ++ (m.value ++ (m.trail ++ behindMember ms inside rest))))
    rw [hkey] at hrun
    refine (run_bind_of_ok hrun).trans ?_
    cases known with
    | error e => exact run_bind_of_error (hknown _)
    | ok a =>
      have hrest : Delimited (m.trail ++ behindMember ms inside rest) :=
        m.isBlanks_trail.delimited (delimited_behindMember ms hinside rest)
      refine (run_bind_of_ok (hknown _)).trans ?_
      refine (run_bind_of_ok (run_colon m.isBlanks_gap _)).trans ?_
      cases isNull with
      | error e => exact run_bind_of_error (hnull m.lead _ m.isBlanks_lead hrest)
      | ok u =>
        refine (run_bind_of_ok (hnull m.lead _ m.isBlanks_lead hrest)).trans ?_
        refine (hclosing a rest).trans ?_
        cases closing <;> rfl

/-- The form of a name that is an object with the name as its only key. -/
theorem exists_takes_choice_object (all : List α) (name : α → String) {ms : List Member}
    {inside : List Char} (hinside : IsBlanks inside) (hvalues : ∀ m ∈ ms, IsValue m.value) :
    ∃ out, (choice all name).Takes (objectText ms inside) out := by
  cases ms with
  | nil =>
    refine ⟨.error .valueExpected, takes_of_first rfl fun rest _ => ?_⟩
    rw [if_neg (by decide), if_pos rfl, List.cons_append]
    refine (run_bind_of_ok (run_advance _)).trans ?_
    have hblanks : Reader.blanks.run (inside ++ ['}'] ++ rest) = .ok ((), '}' :: rest) := by
      rw [List.append_assoc]
      exact run_blanks_append hinside rfl rest
    exact (run_bind_of_ok hblanks).trans rfl
  | cons m ms =>
    obtain ⟨out, hout⟩ := exists_run_nameKey all name m ms
      (hvalues m (List.mem_cons_self ..)) hinside
    refine ⟨out, takes_of_first rfl fun rest _ => ?_⟩
    have htext : commaSeparated ((m :: ms).map (·.text)) ++ (inside ++ ['}']) ++ rest =
        m.indent ++ '"' :: m.inner (behindMember ms inside rest) := by
      rw [← m.text_append, List.map_cons, commaSeparated, behindMember]
      simp only [List.append_assoc, List.singleton_append]
    rw [if_neg (by decide), if_pos rfl, List.cons_append, htext]
    refine (run_bind_of_ok (run_advance _)).trans ?_
    refine (run_bind_of_ok (run_blanks_append m.isBlanks_indent rfl _)).trans ?_
    exact hout rest

theorem exists_takes_choice (all : List α) (name : α → String) {text : List Char}
    (h : IsValue text) : ∃ out, (choice all name).Takes text out := by
  have hother : (∀ c cs, text = c :: cs → startsValue c = true ∧ c ≠ '"' ∧ c ≠ '{') →
      ∃ out, (choice all name).Takes text out := by
    intro hfirst
    obtain ⟨c, cs, rfl, -⟩ := h.exists_cons
    obtain ⟨hc, hquote, hbrace⟩ := hfirst c cs rfl
    refine ⟨.error .valueExpected, takes_of_first hc fun rest _ => ?_⟩
    rw [if_neg hquote, if_neg hbrace]
    rfl
  rcases h.cases with hscalar | ⟨items, inside, -, -, rfl⟩ | ⟨ms, inside, hinside, hvalues, rfl⟩
  · cases hscalar with
    | null | yes | no => exact hother fun c cs heq => by cases heq; decide
    | number hn =>
      refine hother ?_
      rintro c cs rfl
      obtain ⟨d, ds, heq, hd⟩ := hn.exists_cons
      obtain ⟨rfl, rfl⟩ := List.cons.inj heq
      refine ⟨by rw [startsValue, hd, Bool.or_true], ?_, ?_⟩ <;>
        · rintro rfl
          exact absurd hd (by decide)
    | @string body hbody =>
      obtain ⟨out, hout⟩ := exists_run_stringContent hbody
      have hrun : ∀ rest, stringContent.run (body ++ ['"'] ++ rest) = out.map (·, rest) := by
        intro rest
        rw [List.append_assoc]
        exact hout rest
      cases out with
      | error e =>
        refine ⟨.error e, takes_of_first rfl fun rest _ => ?_⟩
        rw [if_pos rfl, List.cons_append]
        exact (run_bind_of_ok (run_advance _)).trans (run_bind_of_error (hrun rest))
      | ok content =>
        obtain ⟨out, hnamed⟩ := exists_run_named all name content
        refine ⟨out, takes_of_first rfl fun rest _ => ?_⟩
        rw [if_pos rfl, List.cons_append]
        refine (run_bind_of_ok (run_advance _)).trans ?_
        exact (run_bind_of_ok (hrun rest)).trans (hnamed rest)
  · exact hother fun c cs heq => by cases heq; decide
  · exact exists_takes_choice_object all name hinside hvalues

end Reader

/-! ## Codecs -/

namespace Codec

variable {α : Type}

theorem takesValues_word64 : word64.TakesValues := by
  intro text h
  obtain ⟨out, hout⟩ := Reader.exists_takes_word h UInt64.size .word64
  exact .of_exists ⟨_, hout.map UInt64.ofNat⟩

/-- Only `null` begins as `null` does: it is read as no value, and any other value as the
item reads it. -/
theorem takes_optional {item : Codec α} (h : item.TakesValues) {text : List Char}
    (htext : IsValue text) :
    (optional item).reader.Takes text
      (if text = "null".toList then .ok none else (item.reader.decode text).map some) := by
  have hitem := h text htext
  have hnull : "null".toList = ['n', 'u', 'l', 'l'] := rfl
  rw [hnull]
  obtain ⟨c, cs, rfl, hc⟩ := htext.exists_cons
  by_cases hn : c = 'n'
  · -- The reader goes by this character alone, so it must not be that of another value.
    subst hn
    have hcs : cs = ['u', 'l', 'l'] := by
      rcases htext.cases with hscalar | ⟨_, _, -, -, heq⟩ | ⟨_, _, -, -, heq⟩
      · cases hscalar with
        | null => rfl
        | number hn =>
          obtain ⟨d, ds, heq, hd⟩ := hn.exists_cons
          obtain ⟨rfl, -⟩ := List.cons.inj heq
          exact absurd hd (by decide)
      · exact absurd (List.cons.inj heq).1 (by decide)
      · exact absurd (List.cons.inj heq).1 (by decide)
    subst hcs
    rw [if_pos rfl]
    intro blanks rest hblanks _
    show (Reader.optional item.reader).run (blanks ++ 'n' :: (['u', 'l', 'l'] ++ rest)) = _
    rw [Reader.optional, Reader.run_bind_of_ok (Reader.run_blanks_append hblanks rfl _)]
    rfl
  · rw [if_neg fun heq => hn (List.cons.inj heq).1]
    intro blanks rest hblanks hrest
    have hrun := (hitem.map Option.some) [] rest .nil hrest
    show (Reader.optional item.reader).run (blanks ++ c :: (cs ++ rest)) = _
    rw [Reader.optional, Reader.run_bind_of_ok
      (Reader.run_blanks_append hblanks (not_isBlank_of_startsValue hc) _),
      Reader.run_bind_of_ok (Reader.run_peek _)]
    split
    next heq => exact absurd (Option.some.inj heq) hn
    next => exact hrun

theorem takesValues_optional {item : Codec α} (h : item.TakesValues) :
    (optional item).TakesValues := fun _ htext =>
  .of_exists ⟨_, takes_optional h htext⟩

theorem takesValues_vector {item : Codec α} (h : item.TakesValues) (size : Nat) :
    (vector item size).TakesValues := by
  intro text htext
  refine .of_exists (Reader.exists_takes_closed htext _ fun items inside hinside hvalues => ?_)
  have hitems : ∀ i ∈ items, ∃ out, item.reader.Takes i.value out := fun i hi =>
    ⟨_, h i.value (hvalues i hi)⟩
  have hrun := Reader.exists_run_elements hitems hinside size (Nat.le_refl size)
  rwa [beq_self_eq_true] at hrun

theorem takesValues_bounded {item : Codec α} (h : item.TakesValues) (bound : Nat) :
    (bounded item bound).TakesValues := by
  intro text htext
  refine .of_exists (Reader.exists_takes_closed htext _ fun items inside hinside hvalues => ?_)
  have hitems : ∀ i ∈ items, ∃ out, item.reader.Takes i.value out := fun i hi =>
    ⟨_, h i.value (hvalues i hi)⟩
  have hrun := Reader.exists_run_elementsUpTo hitems hinside bound (Nat.le_refl bound)
  rwa [beq_self_eq_true] at hrun

theorem takesValues_choice (all : List α) (name : α → String) :
    (choice all name).TakesValues := fun _ h =>
  .of_exists (Reader.exists_takes_choice all name h)

/-- A structure is read from an object or from a list, or it is refused. -/
theorem takesValues_record {title : String} {fields : List Field} {toRow : α → Row fields}
    {ofRow : Row fields → α} (h : ∀ f ∈ fields, f.codec.TakesValues) :
    (record title fields toRow ofRow).TakesValues := by
  intro text htext
  have hrecord : ∃ out, (Reader.record title fields).Takes text out := by
    rcases htext.cases with hscalar | ⟨items, inside, hinside, hvalues, rfl⟩
      | ⟨ms, inside, hinside, hvalues, rfl⟩
    · refine Reader.exists_takes_of_mismatch htext (.record title) ?_
      rintro c cs rfl
      obtain ⟨d, ds, heq, -, hlist, hobject⟩ := hscalar.exists_cons
      obtain ⟨rfl, rfl⟩ := List.cons.inj heq
      rw [if_neg hobject, if_neg hlist]
    · exact ⟨_, Reader.takes_record_list title fields items hinside fun f hf i hi =>
        h f hf i.value (hvalues i hi)⟩
    · exact ⟨_, Reader.takes_record_object title fields ms hinside fun m hm key _ =>
        ⟨fun f hf _ => h f hf m.value (hvalues m hm), fun _ => (hvalues m hm).takes_passValue⟩⟩
  obtain ⟨out, hout⟩ := hrecord
  exact .of_exists ⟨_, hout.map ofRow⟩

end Codec

end BoardHealth.Json
