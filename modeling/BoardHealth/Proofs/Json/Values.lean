import BoardHealth.Proofs.Json.Strings

/-!
# Reading values

`Reader.Takes x text out` says that the reader makes `out` of the text wherever it
stands as a value, behind blanks and in front of a delimiter, and leaves what stands
behind it. So it reads neither more nor less, and what it makes of the text is what it
makes of it alone (`Takes.decode_eq`).

> `takes_passValue`: any value is passed over, however deep it nests.
-/

namespace BoardHealth.Json

namespace Reader

variable {α β : Type}

/-- Wherever the text stands as a value, the reader makes the same of it and leaves what
stands behind it. -/
def Takes (x : Reader α) (text : List Char) (out : Except DecodeError α) : Prop :=
  ∀ blanks rest, IsBlanks blanks → Delimited rest →
    x.run (blanks ++ (text ++ rest)) = out.map (·, rest)

/-- What a reader makes of a text with blanks around it. -/
theorem Takes.decode_eq {x : Reader α} {text : List Char} {out : Except DecodeError α}
    (h : x.Takes text out) {before after : List Char} (hbefore : IsBlanks before)
    (hafter : IsBlanks after) : x.decode (before ++ (text ++ after)) = out := by
  have hrun : x.run (before ++ (text ++ after)) = out.map (·, after) :=
    h before after hbefore (List.append_nil after ▸ hafter.delimited .nil)
  rw [decode, whole, run_bind, hrun]
  cases out with
  | error e => rfl
  | ok a =>
    show Except.map _ ((_ : Reader α).run after) = _
    rw [run_bind_of_ok (run_blanks _), dropWhile_isBlank_all hafter]
    rfl

theorem Takes.decode {x : Reader α} {text : List Char} {out : Except DecodeError α}
    (h : x.Takes text out) : x.decode text = out := by
  have := h.decode_eq .nil .nil
  rwa [List.append_nil] at this

/-- What is made of a text is made of it alone. -/
theorem Takes.of_exists {x : Reader α} {text : List Char} (h : ∃ out, x.Takes text out) :
    x.Takes text (x.decode text) := by
  obtain ⟨out, hout⟩ := h
  rwa [hout.decode]

theorem Takes.map {x : Reader α} {text : List Char} {out : Except DecodeError α}
    (h : x.Takes text out) (f : α → β) : (f <$> x).Takes text (out.map f) := by
  intro blanks rest hblanks hrest
  show (x >>= fun a => pure (f a)).run _ = _
  rw [run_bind, h blanks rest hblanks hrest]
  cases out <;> rfl

/-! ## Passing over values -/

/-- Passes over the rest of a list or an object from the front of an item on. -/
def passItems (b : Bracket) (outer : List Bracket) (text : List Char) : Outcome Unit :=
  match (passLabel b).run text with
  | .error e => .error e
  | .ok (_, rest) => runSkip .value (b :: outer) rest

theorem passScalar_run {text rest : List Char} (h : IsScalar text) (hrest : Delimited rest) :
    passScalar.run (text ++ rest) = .ok ((), rest) := by
  cases h with
  | null => exact run_keyword ['n', 'u', 'l', 'l'] rest
  | yes => exact run_keyword ['t', 'r', 'u', 'e'] rest
  | no => exact run_keyword ['f', 'a', 'l', 's', 'e'] rest
  | @string body h =>
    show passString.run (body ++ ['"'] ++ rest) = _
    rw [List.append_assoc]
    exact run_passString h rest
  | number h =>
    have hrun := run_passNumeral h hrest
    obtain ⟨c, cs, rfl, hc⟩ := h.exists_cons
    rw [List.cons_append] at hrun ⊢
    rw [passScalar, run_bind_of_ok (run_peek _)]
    dsimp only [List.head?_cons]
    -- What begins a numeral begins no keyword and no string.
    split
    next heq => cases heq; exact absurd hc (by decide)
    next heq => cases heq; exact absurd hc (by decide)
    next heq => cases heq; exact absurd hc (by decide)
    next heq => cases heq; exact absurd hc (by decide)
    next heq => cases heq; rw [if_pos hc]; exact hrun
    next heq => cases heq

section Steps

variable {outer : List Bracket} {b : Bracket} {text rest : List Char} {c : Char}
  (hdrop : text.dropWhile isBlank = c :: rest)

include hdrop

/-- In front of a value, its first character decides. -/
theorem runSkip_value : runSkip .value outer text =
    if c = '[' then runSkip (.opened .list) outer rest
    else if c = '{' then runSkip (.opened .object) outer rest
    else match passScalar.run (c :: rest) with
      | .error e => .error e
      | .ok (_, rest') => runSkip .after outer rest' := by
  rw [runSkip]
  split
  next h => rw [hdrop] at h; cases h
  next h =>
    rw [hdrop] at h
    cases h
    split
    next => rfl
    next =>
      split
      next => rfl
      next => split <;> simp_all

/-- Behind an opening bracket stands the closing one or the first item. -/
theorem runSkip_opened : runSkip (.opened b) outer text =
    if c = b.closing then runSkip .after outer rest else passItems b outer (c :: rest) := by
  rw [runSkip, passItems]
  split
  next h => rw [hdrop] at h; cases h
  next h =>
    rw [hdrop] at h
    cases h
    split
    next => rfl
    next => split <;> simp_all

/-- Behind an item stands a comma and another, or the closing bracket. -/
theorem runSkip_after : runSkip .after (b :: outer) text =
    if c = ',' then passItems b outer rest
    else if c = b.closing then runSkip .after outer rest
    else .error b.separatorError := by
  rw [runSkip, passItems]
  split
  next h => rw [hdrop] at h; cases h
  next h =>
    rw [hdrop] at h
    cases h
    split
    next => split <;> simp_all
    next => rfl

end Steps

/-- A label is passed over with what stands in front of it. -/
theorem passItems_label {b : Bracket} {label : List Char} (h : IsLabel b label)
    (outer : List Bracket) (text : List Char) :
    passItems b outer (label ++ text) = runSkip .value (b :: outer) text := by
  have hrun : (passLabel b).run (label ++ text) = .ok ((), text) := by
    cases h with
    | list => rfl
    | @object indent key gap hindent hkey hgap =>
      simp only [List.append_assoc, List.cons_append, List.nil_append]
      rw [passLabel, run_bind_of_ok (run_blanks_append hindent rfl _)]
      exact (run_bind_of_ok (run_passString hkey _)).trans (run_colon hgap text)
  rw [passItems, hrun]

/-- Blanks in front of an item do not matter. -/
theorem passItems_of_dropWhile {b : Bracket} {outer : List Bracket} {text rest : List Char}
    {c : Char} (hdrop : text.dropWhile isBlank = c :: rest) (hc : isBlank c = false) :
    passItems b outer (c :: rest) = passItems b outer text := by
  have hdrop' : (c :: rest).dropWhile isBlank = c :: rest := by
    rw [List.dropWhile_cons, hc]
    rfl
  cases b with
  | list =>
    show runSkip .value (.list :: outer) (c :: rest) = runSkip .value (.list :: outer) text
    rw [runSkip_value hdrop, runSkip_value hdrop']
  | object =>
    rw [passItems, passItems, passLabel, run_bind_of_ok (run_blanks _),
      run_bind_of_ok (run_blanks _), hdrop, hdrop']

end Reader

/-- An item begins with something that neither ends nor separates items. -/
theorem IsItems.exists_first {b : Bracket} {items : List Char} (h : IsItems b items) :
    ∃ blanks c rest, items = blanks ++ c :: rest ∧ IsBlanks blanks ∧ isDelimiter c = false := by
  have hfirst : ∀ {label lead value behind : List Char}, IsLabel b label → IsBlanks lead →
      IsValue value → ∃ blanks c rest, label ++ (lead ++ (value ++ behind)) = blanks ++ c :: rest
        ∧ IsBlanks blanks ∧ isDelimiter c = false := by
    intro label lead value behind hlabel hlead hvalue
    cases hlabel with
    | list =>
      obtain ⟨c, cs, rfl, hc⟩ := hvalue.exists_cons
      exact ⟨lead, c, cs ++ behind, rfl, hlead, not_isDelimiter_of_startsValue hc⟩
    | @object indent _ _ hindent =>
      simp only [List.append_assoc, List.cons_append]
      exact ⟨indent, '"', _, rfl, hindent, rfl⟩
  cases h with
  | last hlabel hlead hvalue => exact hfirst hlabel hlead hvalue
  | more hlabel hlead hvalue => exact hfirst hlabel hlead hvalue

theorem Bracket.isDelimiter_closing (b : Bracket) : isDelimiter b.closing = true := by
  cases b <;> rfl

theorem Bracket.isBlank_closing (b : Bracket) : isBlank b.closing = false := by
  cases b <;> rfl

mutual

/-- A value is passed over from its front to its end. -/
theorem IsValue.runSkip_eq {text : List Char} (h : IsValue text) (outer : List Bracket)
    {blanks rest : List Char} (hblanks : IsBlanks blanks) (hrest : Delimited rest) :
    Reader.runSkip .value outer (blanks ++ (text ++ rest)) = Reader.runSkip .after outer rest := by
  have hdrop : ∀ {c : Char} {cs : List Char}, startsValue c = true →
      (blanks ++ c :: cs).dropWhile isBlank = c :: cs :=
    fun hc => dropWhile_isBlank hblanks (not_isBlank_of_startsValue hc) _
  -- Behind an opening bracket.
  have hopen : ∀ (b : Bracket) (behind : List Char),
      Reader.runSkip .value outer (blanks ++ b.opening :: behind) =
        Reader.runSkip (.opened b) outer behind := by
    intro b behind
    cases b <;> exact (Reader.runSkip_value (hdrop rfl)).trans rfl
  match h with
  | .scalar h =>
    obtain ⟨c, cs, rfl, hc, hlist, hobject⟩ := h.exists_cons
    have hrun := Reader.passScalar_run h hrest
    rw [List.cons_append] at hrun ⊢
    rw [Reader.runSkip_value (hdrop hc), if_neg hlist, if_neg hobject, hrun]
  | @IsValue.empty b inside hinside =>
    have hclose : (inside ++ b.closing :: rest).dropWhile isBlank = b.closing :: rest :=
      dropWhile_isBlank hinside b.isBlank_closing rest
    rw [List.cons_append, List.append_assoc, hopen]
    exact (Reader.runSkip_opened hclose).trans (if_pos rfl)
  | @IsValue.filled b items hitems =>
    have hpass := hitems.passItems_eq outer rest
    obtain ⟨indent, c, cs, rfl, hindent, hc⟩ := hitems.exists_first
    have hblank : isBlank c = false := by
      simp only [isDelimiter, Bool.or_eq_false_iff] at hc
      exact hc.1.1.1
    have hclosing : c ≠ b.closing := by
      rintro rfl
      rw [b.isDelimiter_closing] at hc
      exact Bool.noConfusion hc
    have hitem : (indent ++ c :: (cs ++ b.closing :: rest)).dropWhile isBlank =
        c :: (cs ++ b.closing :: rest) := dropWhile_isBlank hindent hblank _
    rw [List.append_assoc, List.cons_append, ← Reader.passItems_of_dropWhile hitem hblank] at hpass
    rw [List.cons_append, List.append_assoc, List.append_assoc, hopen]
    exact (Reader.runSkip_opened hitem).trans ((if_neg hclosing).trans hpass)

/-- The items of a list or an object are passed over up to its closing bracket. -/
theorem IsItems.passItems_eq {b : Bracket} {items : List Char} (h : IsItems b items)
    (outer : List Bracket) (rest : List Char) :
    Reader.passItems b outer (items ++ b.closing :: rest) = Reader.runSkip .after outer rest := by
  match h with
  | @IsItems.last b label lead value trail hlabel hlead hvalue htrail =>
    have hclose : (trail ++ b.closing :: rest).dropWhile isBlank = b.closing :: rest :=
      dropWhile_isBlank htrail b.isBlank_closing rest
    have hskip := hvalue.runSkip_eq (b :: outer) hlead
      (htrail.delimited (.cons b.isDelimiter_closing rest))
    have hne : b.closing ≠ ',' := by cases b <;> decide
    rw [List.append_assoc, List.append_assoc, List.append_assoc,
      Reader.passItems_label hlabel, hskip, Reader.runSkip_after hclose, if_neg hne, if_pos rfl]
  | @IsItems.more b label lead value trail items hlabel hlead hvalue htrail hitems =>
    have hcomma : (trail ++ ',' :: (items ++ b.closing :: rest)).dropWhile isBlank =
        ',' :: (items ++ b.closing :: rest) := dropWhile_isBlank htrail rfl _
    have hskip := hvalue.runSkip_eq (b :: outer) hlead
      (htrail.delimited (.cons (c := ',') rfl (items ++ b.closing :: rest)))
    rw [List.append_assoc, List.append_assoc, List.append_assoc, List.append_assoc,
      List.cons_append, Reader.passItems_label hlabel, hskip, Reader.runSkip_after hcomma,
      if_pos rfl]
    exact hitems.passItems_eq outer rest

end

/-- **Any value can be passed over.** However deep it nests, reading goes on behind it. -/
theorem IsValue.takes_passValue {text : List Char} (h : IsValue text) :
    Reader.passValue.Takes text (.ok ()) := by
  intro blanks rest hblanks hrest
  show Reader.runSkip .value [] _ = _
  rw [h.runSkip_eq [] hblanks hrest, Reader.runSkip]
  rfl

end BoardHealth.Json
