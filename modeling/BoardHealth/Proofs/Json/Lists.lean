import BoardHealth.Proofs.Json.Members

/-!
# Reading lists

A list is read item by item: `run_nextElement` says what looking for the next item
does, wherever in the list this happens. From it follow the three readers of lists:

> `takes_record_list`: the fields of a record, in their order.
> `takes_vector`: a list of one fixed length.
> `takes_bounded`: a list of bounded length.
-/

namespace BoardHealth.Json

/-- An item of a list, with the blanks around it. -/
structure Item where
  lead : List Char
  value : List Char
  trail : List Char
  isBlanks_lead : IsBlanks lead
  exists_cons : ∃ c cs, value = c :: cs ∧ startsValue c = true
  isBlanks_trail : IsBlanks trail

/-- The text of an item. -/
def Item.text (i : Item) : List Char := i.lead ++ (i.value ++ i.trail)

/-- A list, with blanks in front of its closing bracket. -/
def listText (items : List Item) (inside : List Char) : List Char :=
  '[' :: (commaSeparated (items.map (·.text)) ++ (inside ++ [']']))

/-- What is left of a list with the given items still to come, in front of what follows
it. In front of all but the first item stands a comma. -/
def remaining (first : Bool) (items : List Item) (inside rest : List Char) : List Char :=
  (if first then commaSeparated (items.map (·.text))
    else (items.map (·.text)).flatMap (',' :: ·)) ++ (inside ++ ']' :: rest)

theorem listText_append (items : List Item) (inside rest : List Char) :
    listText items inside ++ rest = '[' :: remaining true items inside rest := by
  simp only [listText, remaining, if_pos, List.cons_append, List.append_assoc, List.nil_append]

theorem remaining_nil (first : Bool) (inside rest : List Char) :
    remaining first [] inside rest = inside ++ ']' :: rest := by
  cases first <;> rfl

/-- The first item. -/
theorem remaining_first (i : Item) (items : List Item) (inside rest : List Char) :
    remaining true (i :: items) inside rest =
      i.lead ++ (i.value ++ (i.trail ++ remaining false items inside rest)) := by
  simp [remaining, commaSeparated, Item.text]

/-- Another item, behind a comma. -/
theorem remaining_later (i : Item) (items : List Item) (inside rest : List Char) :
    remaining false (i :: items) inside rest =
      ',' :: (i.lead ++ (i.value ++ (i.trail ++ remaining false items inside rest))) := by
  simp [remaining, Item.text]

/-- What stands behind an item ends its value. -/
theorem delimited_remaining (items : List Item) {inside : List Char} (hinside : IsBlanks inside)
    (rest : List Char) : Delimited (remaining false items inside rest) := by
  cases items with
  | nil => exact hinside.delimited (.cons (c := ']') rfl rest)
  | cons i items => exact .cons (c := ',') rfl _

namespace Reader

variable {α : Type}

section Steps

variable {trail inside : List Char}

theorem run_blanks_end (first : Bool) (htrail : IsBlanks trail) (hinside : IsBlanks inside)
    (rest : List Char) :
    blanks.run (trail ++ remaining first [] inside rest) = .ok ((), ']' :: rest) := by
  rw [remaining_nil, ← List.append_assoc]
  exact run_blanks_append (htrail.append hinside) rfl rest

/-- Where a list ends. -/
theorem run_nextElement_nil (first : Bool) (htrail : IsBlanks trail) (hinside : IsBlanks inside)
    (rest : List Char) :
    (nextElement first).run (trail ++ remaining first [] inside rest) =
      .ok (false, ']' :: rest) := by
  rw [nextElement, run_bind_of_ok (run_blanks_end first htrail hinside rest)]
  rfl

/-- Where another item follows, the reader goes on in front of its value. -/
theorem run_nextElement_cons (first : Bool) (htrail : IsBlanks trail) (i : Item)
    (items : List Item) (rest : List Char) :
    (nextElement first).run (trail ++ remaining first (i :: items) inside rest) =
      .ok (true, i.value ++ (i.trail ++ remaining false items inside rest)) := by
  obtain ⟨c, cs, hvalue, hc⟩ := i.exists_cons
  have hblank := not_isBlank_of_startsValue hc
  have hbracket : c ≠ ']' := by
    rintro rfl
    exact absurd hc (by decide)
  rw [nextElement]
  cases first with
  | true =>
    rw [remaining_first, hvalue, List.cons_append, ← List.append_assoc,
      run_bind_of_ok (run_blanks_append (htrail.append i.isBlanks_lead) hblank _),
      run_bind_of_ok (run_peek _)]
    split
    next heq => cases heq
    next heq => exact absurd (Option.some.inj heq) hbracket
    next => rfl
  | false =>
    rw [remaining_later, hvalue, List.cons_append,
      run_bind_of_ok (run_blanks_append htrail rfl _)]
    refine (run_bind_of_ok (run_peek _)).trans ?_
    refine (run_bind_of_ok (run_advance _)).trans ?_
    refine (run_bind_of_ok (run_blanks_append i.isBlanks_lead hblank _)).trans ?_
    rw [run_bind_of_ok (run_peek _)]
    split
    next heq => cases heq
    next heq => exact absurd (Option.some.inj heq) hbracket
    next => rfl

/-- A list is closed where it ends. -/
theorem run_closeList_nil (first : Bool) (htrail : IsBlanks trail) (hinside : IsBlanks inside)
    (rest : List Char) :
    closeList.run (trail ++ remaining first [] inside rest) = .ok ((), rest) := by
  rw [closeList, run_bind_of_ok (run_blanks_end first htrail hinside rest)]
  rfl

/-- A list is not closed where another item follows. -/
theorem run_closeList_cons (first : Bool) (htrail : IsBlanks trail) (i : Item)
    (items : List Item) (rest : List Char) :
    closeList.run (trail ++ remaining first (i :: items) inside rest) = .error .trailingText := by
  obtain ⟨c, cs, hvalue, hc⟩ := i.exists_cons
  have hblank := not_isBlank_of_startsValue hc
  have hne : ∀ d, isDelimiter d = true → c ≠ d := by
    rintro d hd rfl
    rw [not_isDelimiter_of_startsValue hc] at hd
    cases hd
  rw [closeList]
  cases first with
  | true =>
    rw [remaining_first, hvalue, List.cons_append, ← List.append_assoc,
      run_bind_of_ok (run_blanks_append (htrail.append i.isBlanks_lead) hblank _),
      run_bind_of_ok (run_peek _)]
    split
    next heq => cases heq
    next heq => exact absurd (Option.some.inj heq) (hne ']' rfl)
    next heq => exact absurd (Option.some.inj heq) (hne ',' rfl)
    next => rfl
  | false =>
    rw [remaining_later, hvalue, List.cons_append,
      run_bind_of_ok (run_blanks_append htrail rfl _)]
    refine (run_bind_of_ok (run_peek _)).trans ?_
    refine (run_bind_of_ok (run_advance _)).trans ?_
    refine (run_bind_of_ok (run_blanks_append i.isBlanks_lead hblank _)).trans ?_
    rw [run_bind_of_ok (run_peek _)]
    split
    next heq => exact absurd (Option.some.inj heq) (hne ']' rfl)
    next => rfl

end Steps

/-! ## Closing a list behind its items -/

variable {β : Type}

/-- Reads the items of a list and its closing bracket. -/
def closed (x : Reader α) : Reader α := do
  let a ← x
  closeList
  pure a

theorem run_closed_pure (a : α) (text : List Char) :
    (closed (pure a : Reader α)).run text = (closeList.run text).map fun out => (a, out.2) := by
  rw [closed, run_bind_of_ok (run_pure _ _), run_bind]
  cases closeList.run text <;> rfl

theorem run_closed_bind_of_ok {x : Reader α} {f : α → Reader β} {text rest : List Char} {a : α}
    (h : x.run text = .ok (a, rest)) :
    (closed (x >>= f)).run text = (closed (f a)).run rest := by
  rw [closed, run_bind, run_bind_of_ok h]
  rfl

theorem run_closed_bind_of_error {x : Reader α} {f : α → Reader β} {text : List Char}
    {e : DecodeError} (h : x.run text = .error e) :
    (closed (x >>= f)).run text = .error e :=
  run_bind_of_error (run_bind_of_error h)

/-- What is done with the items does not depend on the closing bracket. -/
theorem run_closed_map (x : Reader α) (f : α → β) (text : List Char) :
    (closed (do let a ← x; pure (f a))).run text =
      ((closed x).run text).map fun out => (f out.1, out.2) := by
  simp only [closed, run_bind]
  cases x.run text with
  | error e => rfl
  | ok out =>
    dsimp only [run_pure]
    cases closeList.run out.2 <;> rfl

/-! ## Records -/

/-- The values of the last fields of a record, from the texts of the items that are left
of a list, `index` of them having been read. -/
def listed (tooShort : Nat → DecodeError) : (fields : List Field) → (index : Nat) →
    List (List Char) → Except DecodeError (Row fields)
  | [], _, [] => .ok ()
  | [], _, _ :: _ => .error .trailingText
  | f :: fs, index, [] =>
    match f.ifCut with
    | some value => (listed tooShort fs (index + 1) []).map (value, ·)
    | none => .error (tooShort index)
  | f :: fs, index, value :: values =>
    (f.codec.reader.decode value).bind fun a =>
      (listed tooShort fs (index + 1) values).map (a, ·)

theorem run_listedFields (tooShort : Nat → DecodeError) (fields : List Field) (index : Nat)
    (items : List Item) {trail inside : List Char} (htrail : IsBlanks trail)
    (hinside : IsBlanks inside) (rest : List Char)
    (htakes : ∀ f ∈ fields, ∀ i ∈ items,
      f.codec.reader.Takes i.value (f.codec.reader.decode i.value)) :
    (closed (listedFields tooShort fields index)).run
      (trail ++ remaining (index == 0) items inside rest) =
        (listed tooShort fields index (items.map (·.value))).map (·, rest) := by
  induction fields generalizing index items trail inside with
  | nil =>
    rw [listedFields, run_closed_pure]
    cases items with
    | nil => rw [run_closeList_nil _ htrail hinside]; rfl
    | cons i items => rw [run_closeList_cons _ htrail]; rfl
  | cons f fs ih =>
    rw [listedFields]
    cases items with
    | nil =>
      rw [run_closed_bind_of_ok (run_nextElement_nil _ htrail hinside rest),
        if_neg Bool.false_ne_true, List.map_nil, listed]
      cases f.ifCut with
      | none => rfl
      | some value =>
        have hothers := ih (index + 1) [] .nil .nil (by simp)
        rw [remaining_nil, List.map_nil] at hothers
        have hclosed : (closed (listedFields tooShort fs (index + 1))).run (']' :: rest) = _ :=
          hothers
        dsimp only
        rw [run_closed_bind_of_ok (run_pure _ _), run_closed_map, hclosed]
        cases listed tooShort fs (index + 1) [] <;> rfl
    | cons i items =>
      have htake := htakes f (List.mem_cons_self ..) i (List.mem_cons_self ..)
      have hothers := ih (index + 1) items i.isBlanks_trail hinside
        fun g hg j hj => htakes g (List.mem_cons_of_mem _ hg) j (List.mem_cons_of_mem _ hj)
      have hdelimited : Delimited (i.trail ++ remaining false items inside rest) :=
        i.isBlanks_trail.delimited (delimited_remaining items hinside rest)
      have hitem : f.codec.reader.run (i.value ++ (i.trail ++ remaining false items inside rest)) =
          _ := htake [] _ .nil hdelimited
      rw [run_closed_bind_of_ok (run_nextElement_cons _ htrail i items rest), if_pos rfl,
        List.map_cons, listed]
      cases hread : f.codec.reader.decode i.value with
      | error e =>
        rw [hread] at hitem
        exact run_closed_bind_of_error hitem
      | ok a =>
        rw [hread] at hitem
        rw [run_closed_bind_of_ok hitem, run_closed_map]
        refine (congrArg _ hothers).trans ?_
        cases listed tooShort fs (index + 1) (items.map (·.value)) <;> rfl

/-- **Reading a list as a record.** The items are the values of the fields in their
order; the fields behind the last item have what they say. -/
theorem takes_record_list (title : String) (fields : List Field) (items : List Item)
    {inside : List Char} (hinside : IsBlanks inside)
    (htakes : ∀ f ∈ fields, ∀ i ∈ items,
      f.codec.reader.Takes i.value (f.codec.reader.decode i.value)) :
    (record title fields).Takes (listText items inside)
      (listed (.wrongLength · (.listedRecord title fields.length)) fields 0
        (items.map (·.value))) := by
  refine takes_of_first rfl fun rest _ => ?_
  rw [if_neg (by decide), if_pos rfl]
  refine (congrArg _ (listText_append items inside rest)).trans ?_
  refine (run_bind_of_ok (run_advance _)).trans ?_
  exact run_listedFields _ fields 0 items .nil hinside rest htakes

/-! ## Lists of values -/

section Values

variable {item : Reader α} {inside : List Char}

/-- The items stand for the values. -/
inductive ItemsTake (item : Reader α) : List Item → List α → Prop
  | nil : ItemsTake item [] []
  | cons {i : Item} {a : α} {items : List Item} {as : List α} (h : item.Takes i.value (.ok a))
      (hs : ItemsTake item items as) : ItemsTake item (i :: items) (a :: as)

theorem run_elements {items : List Item} {as : List α} (h : ItemsTake item items as)
    (size left : Nat) {trail : List Char} (htrail : IsBlanks trail) (hinside : IsBlanks inside)
    (rest : List Char) (hleft : as.length = left) (hsize : left ≤ size) :
    ∃ xs, (closed (elements item size left)).run
      (trail ++ remaining (left == size) items inside rest) = .ok (xs, rest) ∧ xs.toList = as := by
  induction h generalizing trail left with
  | nil =>
    obtain rfl : left = 0 := hleft.symm
    refine ⟨#v[], ?_, rfl⟩
    rw [elements, run_closed_pure, run_closeList_nil _ htrail hinside]
    rfl
  | @cons i a items as htake _ ih =>
    obtain ⟨left, rfl⟩ : ∃ n, left = n + 1 := ⟨as.length, hleft.symm⟩
    obtain ⟨xs, hrun, hxs⟩ := ih left i.isBlanks_trail (Nat.succ.inj hleft) (by omega)
    have hlater : (left == size) = false := beq_eq_false_iff_ne.mpr (by omega)
    rw [hlater] at hrun
    have hitem : item.run (i.value ++ (i.trail ++ remaining false items inside rest)) = _ :=
      htake [] _ .nil (i.isBlanks_trail.delimited (delimited_remaining items hinside rest))
    refine ⟨(#v[a] ++ xs).cast (Nat.add_comm 1 left), ?_, ?_⟩
    · rw [elements, run_closed_bind_of_ok (run_nextElement_cons _ htrail i items rest), if_pos rfl,
        run_closed_bind_of_ok hitem, run_closed_map, hrun]
      rfl
    · rw [Vector.toList_cast, Vector.toList_append, hxs]
      rfl

/-- A list of one fixed length is read item by item. -/
theorem takes_vector {size : Nat} {items : List Item} {as : Vector α size}
    (h : ItemsTake item items as.toList) (hinside : IsBlanks inside) :
    (vector item size).Takes (listText items inside) (.ok as) := by
  refine takes_of_first rfl fun rest _ => ?_
  rw [if_pos rfl]
  refine (congrArg _ (listText_append items inside rest)).trans ?_
  refine (run_bind_of_ok (run_advance _)).trans ?_
  have hrun := run_elements h size size .nil hinside rest as.length_toList (Nat.le_refl size)
  rw [beq_self_eq_true] at hrun
  obtain ⟨xs, hxs, heq⟩ := hrun
  rw [Vector.toList_inj] at heq
  subst heq
  exact hxs

theorem run_elementsUpTo {items : List Item} {as : List α} (h : ItemsTake item items as)
    (bound room : Nat) {trail : List Char} (htrail : IsBlanks trail) (hinside : IsBlanks inside)
    (rest : List Char) (hlength : as.length ≤ room) (hroom : room ≤ bound) :
    ∃ xs, (closed (elementsUpTo item bound room)).run
      (trail ++ remaining (room == bound) items inside rest) = .ok (xs, rest)
        ∧ xs.toList = as := by
  induction h generalizing trail room with
  | nil =>
    have hend := run_nextElement_nil (room == bound) htrail hinside rest
    refine ⟨.empty, ?_, rfl⟩
    cases room with
    | zero =>
      have hfirst : (bound == 0) = (0 == bound) := BEq.comm
      rw [elementsUpTo, hfirst, run_closed_bind_of_ok hend]
      rfl
    | succ room =>
      rw [elementsUpTo, run_closed_bind_of_ok hend]
      rfl
  | @cons i a items as htake _ ih =>
    obtain ⟨room, rfl⟩ := Nat.exists_eq_add_one_of_ne_zero (Nat.ne_zero_of_lt hlength)
    obtain ⟨xs, hrun, hxs⟩ := ih room i.isBlanks_trail (Nat.le_of_succ_le_succ hlength) (by omega)
    have hlater : (room == bound) = false := beq_eq_false_iff_ne.mpr (by omega)
    rw [hlater] at hrun
    have hitem : item.run (i.value ++ (i.trail ++ remaining false items inside rest)) = _ :=
      htake [] _ .nil (i.isBlanks_trail.delimited (delimited_remaining items hinside rest))
    refine ⟨xs.cons a, ?_, congrArg (a :: ·) hxs⟩
    rw [elementsUpTo, run_closed_bind_of_ok (run_nextElement_cons _ htrail i items rest),
      if_pos rfl, run_closed_bind_of_ok hitem, run_closed_map, hrun]
    rfl

/-- A list of bounded length is read item by item. -/
theorem takes_bounded {bound : Nat} {items : List Item} {as : Bounded α bound}
    (h : ItemsTake item items as.toList) (hinside : IsBlanks inside) :
    (bounded item bound).Takes (listText items inside) (.ok as) := by
  refine takes_of_first rfl fun rest _ => ?_
  rw [if_pos rfl]
  refine (congrArg _ (listText_append items inside rest)).trans ?_
  refine (run_bind_of_ok (run_advance _)).trans ?_
  have hrun := run_elementsUpTo h bound bound .nil hinside rest as.length_le (Nat.le_refl bound)
  rw [beq_self_eq_true] at hrun
  obtain ⟨xs, hxs, heq⟩ := hrun
  obtain ⟨_, _⟩ := as
  obtain ⟨_, _⟩ := xs
  cases heq
  exact hxs

end Values

end Reader

end BoardHealth.Json
