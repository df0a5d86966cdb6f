import BoardHealth.Json.Numeral
import BoardHealth.Proofs.Json.Tokens

/-!
# Texts that are cut

A text that can be read is cut in two, and only its front is left. Of the front a reader
makes the same as of the whole for as long as it does not meet the end; where it does, it
refuses the front, unless the cut goes through a numeral, whose first digits are a
numeral too. `Reader.Stops` says this of a reader, and is kept by putting readers one
behind the other (`Stops.bind`). Whether a cut goes through a numeral is told from the
text alone (`CutsNumeral`).

> `Stops.bind`: readers that stop may follow one another.
> `stops_next`, `stops_peek`, `stops_blanks`: the end of the text is met where a reader
> looks at the next character.
-/

namespace BoardHealth.Json

/-! ## Where a text is cut -/

/-- What the next character of a text belongs to, as far as numerals and strings go. -/
inductive Spot where
  /-- Another token, or none. -/
  | between
  /-- The numeral that the last character belongs to, if it may continue one. -/
  | numeral
  | string
  /-- A string, behind a backslash. -/
  | escaped
deriving DecidableEq

/-- Whether a character may stand in a numeral. -/
def continuesNumeral (c : Char) : Bool :=
  beginsNumeral c || c == '.' || c == 'e' || c == 'E' || c == '+'

namespace Spot

/-- Behind a character that does not belong to a token before it. -/
def opened (c : Char) : Spot :=
  if c = '"' then string else if beginsNumeral c then numeral else between

/-- Behind one more character. -/
def next : Spot → Char → Spot
  | between, c => opened c
  | numeral, c => if continuesNumeral c then numeral else opened c
  | string, c => if c = '"' then between else if c = '\\' then escaped else string
  | escaped, _ => string

/-- Not within a string. -/
def IsOutside (s : Spot) : Prop := s = between ∨ s = numeral

end Spot

/-- Whether a text is cut within a numeral: the last character in front of the cut belongs
to one, and the first behind it continues it. -/
def CutsNumeral (s : Spot) (front back : List Char) : Prop :=
  front.foldl Spot.next s = .numeral ∧ ∃ c ∈ back.head?, continuesNumeral c = true

namespace Spot

variable {s : Spot} {c : Char}

theorem next_quote (h : s.IsOutside) : s.next '"' = string := by
  rcases h with rfl | rfl <;> rfl

theorem next_of_beginsNumeral (h : s.IsOutside) (hc : beginsNumeral c = true) :
    s.next c = numeral := by
  have hquote : c ≠ '"' := by
    rintro rfl
    exact absurd hc (by decide)
  have hopened : opened c = numeral := by rw [opened, if_neg hquote, if_pos hc]
  rcases h with rfl | rfl
  · exact hopened
  · rw [next, hopened, ite_self]

theorem isOutside_next (h : s.IsOutside) (hc : c ≠ '"') : (s.next c).IsOutside := by
  have hopened : (opened c).IsOutside := by
    rw [opened, if_neg hc]
    split
    · exact .inr rfl
    · exact .inl rfl
  rcases h with rfl | rfl
  · exact hopened
  · rw [next]
    split
    · exact .inr rfl
    · exact hopened

/-- Behind a character that was asked for. -/
theorem isOutside_next_of_eq {d : Char} (h : s.IsOutside) (hc : c = d) (hd : d ≠ '"') :
    (s.next c).IsOutside :=
  isOutside_next h (hc ▸ hd)

theorem isOutside_foldl {text : List Char} (h : s.IsOutside) (htext : ∀ c ∈ text, c ≠ '"') :
    (text.foldl next s).IsOutside := by
  induction text generalizing s with
  | nil => exact h
  | cons c text ih =>
    obtain ⟨hc, htext⟩ := List.forall_mem_cons.mp htext
    exact ih (isOutside_next h hc) htext

theorem foldl_numeral {text : List Char} (h : ∀ c ∈ text, continuesNumeral c = true) :
    text.foldl next numeral = numeral := by
  induction text with
  | nil => rfl
  | cons c text ih =>
    obtain ⟨hc, htext⟩ := List.forall_mem_cons.mp h
    rw [List.foldl_cons, next, if_pos hc]
    exact ih htext

end Spot

/-! ## Reading up to a cut -/

section Stops

variable {α β : Type} (back : List Char)

/-- What a reader makes of the front of a text, of the whole of which it makes `a`,
leaving `rest`: the same, if it does not meet the cut; nothing, for the text ends; or
something else, if the cut goes through a numeral. In the first case `post` holds of the
value and the spot reached, in the last `short` of the two values. -/
inductive Reader.Stopped (x : Reader α) (s : Spot) (front : List Char) (post : α → Spot → Prop)
    (short : α → α → Prop) (a : α) (rest : List Char) : Prop
  | behind {used left : List Char} (hfront : front = used ++ left) (hrest : rest = left ++ back)
      (hrun : x.run front = .ok (a, left)) (hpost : post a (used.foldl Spot.next s))
  | refused {e : DecodeError} (hrun : x.run front = .error e)
      (hkind : e.category = .endOfText ∨ e.category = .malformed ∧ CutsNumeral s front back)
  | shortened {b : α} (hrun : x.run front = .ok (b, [])) (hcut : CutsNumeral s front back)
      (hshort : short a b)

/-- The reader stops where the text is cut. -/
def Reader.Stops (x : Reader α) (s : Spot) (front : List Char) (post : α → Spot → Prop)
    (short : α → α → Prop) : Prop :=
  ∀ a rest, x.run (front ++ back) = .ok (a, rest) → x.Stopped back s front post short a rest

end Stops

/-- Nothing is read from the empty text, for it ends. -/
def Reader.EndsText {α : Type} (x : Reader α) : Prop :=
  ∃ e, x.run [] = .error e ∧ e.category = .endOfText

/-- Where the one reader makes a value of a text, the other refuses the end of a text for
its form, or makes of it a value that is short of the first. -/
def Reader.CutsTo {α : Type} (x y : Reader α) (short : α → α → Prop) : Prop :=
  ∀ text a rest, x.run text = .ok (a, rest) →
    (∃ e, y.run [] = .error e ∧ e.category ≠ .mismatched)
      ∨ ∃ b, y.run [] = .ok (b, []) ∧ short a b

namespace Reader

variable {α β : Type} {back : List Char} {s : Spot} {front used left : List Char}

/-! ### Cuts -/

section CutsTo

variable {x y : Reader α} {short : α → α → Prop}

theorem CutsTo.of_error {e : DecodeError} (h : y.run [] = .error e)
    (hkind : e.category ≠ .mismatched) : x.CutsTo y short :=
  fun _ _ _ _ => .inl ⟨e, h, hkind⟩

theorem EndsText.cutsTo (h : y.EndsText) : x.CutsTo y short := by
  obtain ⟨e, he, hkind⟩ := h
  exact .of_error he (by rw [hkind]; nofun)

theorem CutsTo.of_ok {b : α} (h : y.run [] = .ok (b, [])) (hshort : ∀ a, short a b) :
    x.CutsTo y short :=
  fun _ a _ _ => .inr ⟨b, h, hshort a⟩

theorem CutsTo.pure {a b : α} (h : short a b) : (pure a : Reader α).CutsTo (pure b) short := by
  intro text c rest hrun
  cases hrun
  exact .inr ⟨b, rfl, h⟩

theorem CutsTo.bind {short' : β → β → Prop} {f g : α → Reader β} (h : x.CutsTo y short)
    (hnext : ∀ a b, short a b → (f a).CutsTo (g b) short') :
    (x >>= f).CutsTo (y >>= g) short' := by
  intro text c rest hrun
  rw [run_bind] at hrun
  cases hx : x.run text with
  | error e => rw [hx] at hrun; cases hrun
  | ok out =>
    obtain ⟨a, left⟩ := out
    rw [hx] at hrun
    rcases h text a left hx with ⟨e, he, hkind⟩ | ⟨b, hb, hshort⟩
    · exact .inl ⟨e, run_bind_of_error he, hkind⟩
    · rw [run_bind_of_ok hb]
      exact hnext a b hshort left c rest hrun

end CutsTo

theorem endsText_fail {e : DecodeError} (h : e.category = .endOfText) :
    (fail e : Reader α).EndsText :=
  ⟨e, rfl, h⟩

theorem EndsText.bind {x : Reader α} (h : x.EndsText) (f : α → Reader β) :
    (x >>= f).EndsText := by
  obtain ⟨e, he, hkind⟩ := h
  exact ⟨e, run_bind_of_error he, hkind⟩

/-! ### One reader behind the other -/

section Stops

variable {x y : Reader α} {post : α → Spot → Prop} {short : α → α → Prop}

theorem append_cutsNumeral (h : CutsNumeral (used.foldl Spot.next s) left back) :
    CutsNumeral s (used ++ left) back := by
  rwa [CutsNumeral, List.foldl_append]

/-- Part of the front is passed first. -/
theorem Stopped.pass (used : List Char) {a : α} {rest : List Char}
    (h : y.Stopped back (used.foldl Spot.next s) left post short a rest)
    (hrun : x.run (used ++ left) = y.run left) :
    x.Stopped back s (used ++ left) post short a rest := by
  cases h with
  | @behind used' left' hleft hrest hy hpost =>
    subst hleft
    refine .behind (List.append_assoc ..).symm hrest (hrun.trans hy) ?_
    rwa [List.foldl_append]
  | refused hy hkind =>
    exact .refused (hrun.trans hy) (hkind.imp_right fun ⟨h, hcut⟩ => ⟨h, append_cutsNumeral hcut⟩)
  | shortened hy hcut hshort => exact .shortened (hrun.trans hy) (append_cutsNumeral hcut) hshort

theorem Stops.pass (used : List Char)
    (h : y.Stops back (used.foldl Spot.next s) left post short)
    (hrun : ∀ text, x.run (used ++ text) = y.run text) :
    x.Stops back s (used ++ left) post short := by
  intro a rest hx
  rw [List.append_assoc, hrun] at hx
  exact (h a rest hx).pass used (hrun left)

/-- Readers that run alike stop alike. -/
theorem Stops.of_run_eq (h : y.Stops back s front post short)
    (hrun : ∀ text, x.run text = y.run text) : x.Stops back s front post short :=
  Stops.pass [] h hrun

theorem Stops.imp {post' : α → Spot → Prop} {short' : α → α → Prop}
    (h : x.Stops back s front post short) (hpost : ∀ a s', post a s' → post' a s')
    (hshort : ∀ a b, short a b → short' a b) : x.Stops back s front post' short' := by
  intro a rest hx
  cases h a rest hx with
  | behind hfront hrest hrun h => exact .behind hfront hrest hrun (hpost _ _ h)
  | refused hrun hkind => exact .refused hrun hkind
  | shortened hrun hcut h => exact .shortened hrun hcut (hshort _ _ h)

theorem stops_pure {a : α} (h : post a s) : (pure a : Reader α).Stops back s front post short := by
  intro b rest hrun
  cases hrun
  exact .behind (List.nil_append front).symm rfl rfl h

theorem stops_fail (e : DecodeError) : (fail e : Reader α).Stops back s front post short := by
  intro a rest hrun
  cases hrun

theorem EndsText.stops (h : x.EndsText) : x.Stops back s [] post short := by
  intro a rest _
  obtain ⟨e, he, hkind⟩ := h
  exact .refused he (.inl hkind)

/-- **One reader behind the other.** The second has to stop where the first left the front,
and to bear the end of the text where the first came short. -/
theorem Stops.bind {f : α → Reader β} {post' : β → Spot → Prop} {short' : β → β → Prop}
    (h : x.Stops back s front post short)
    (hnext : ∀ a used left, front = used ++ left → post a (used.foldl Spot.next s) →
      (f a).Stops back (used.foldl Spot.next s) left post' short')
    (hcut : ∀ a b, short a b → (f a).CutsTo (f b) short') :
    (x >>= f).Stops back s front post' short' := by
  intro c rest hrun
  rw [run_bind] at hrun
  cases hx : x.run (front ++ back) with
  | error e => rw [hx] at hrun; cases hrun
  | ok out =>
    obtain ⟨a, behind⟩ := out
    rw [hx] at hrun
    cases h a behind hx with
    | @behind used left hfront hbehind hrun' hpost =>
      subst hfront hbehind
      exact (hnext a used left rfl hpost c rest hrun).pass used (run_bind_of_ok hrun')
    | refused hrun' hkind => exact .refused (run_bind_of_error hrun') hkind
    | @shortened b hrun' hcut' hshort =>
      -- Nothing is left of the front, so the second reader begins where the text ends.
      rcases hcut a b hshort behind c rest hrun with ⟨e, he, hkind⟩ | ⟨d, hd, hshort'⟩
      · refine .refused ((run_bind_of_ok hrun').trans he) ?_
        cases hcategory : e.category with
        | endOfText => exact .inl rfl
        | malformed => exact .inr ⟨rfl, hcut'⟩
        | mismatched => exact absurd hcategory hkind
      · exact .shortened ((run_bind_of_ok hrun').trans hd) hcut' hshort'

/-! ### Single steps -/

theorem stops_next {f : Option Char → Reader α} (hend : (f none).EndsText)
    (h : ∀ c left, front = c :: left → (f (some c)).Stops back (s.next c) left post short) :
    (next >>= f).Stops back s front post short := by
  cases front with
  | nil => exact EndsText.stops hend
  | cons c left => exact .pass [c] (h c left rfl) fun _ => rfl

theorem stops_peek {f : Option Char → Reader α} (hend : (f none).EndsText)
    (h : ∀ c left, front = c :: left → (f (some c)).Stops back s (c :: left) post short) :
    (peek >>= f).Stops back s front post short := by
  cases front with
  | nil => exact EndsText.stops hend
  | cons c left =>
    intro a rest hrun
    exact (h c left rfl a rest hrun).pass [] rfl

theorem stops_advance {f : Unit → Reader α} {c : Char}
    (h : (f ()).Stops back (s.next c) left post short) :
    (advance >>= f).Stops back s (c :: left) post short :=
  .pass [c] h fun _ => rfl

theorem run_blanks_of_cons {f : Option Char → Reader α} {text rest : List Char} {c : Char}
    (h : text.dropWhile isBlank = c :: rest) :
    (do
      blanks
      let o ← peek
      f o : Reader α).run text = (f (some c)).run (c :: rest) := by
  rw [run_bind_of_ok (run_blanks text), h]
  rfl

theorem run_blanks_of_nil {f : Option Char → Reader α} {text : List Char}
    (h : text.dropWhile isBlank = []) :
    (do
      blanks
      let o ← peek
      f o : Reader α).run text = (f none).run [] := by
  rw [run_bind_of_ok (run_blanks text), h]
  rfl

/-- Behind blanks the text has ended, or its next character decides. -/
theorem stops_blanks {f : Option Char → Reader α} (hs : s.IsOutside) (hend : (f none).EndsText)
    (h : ∀ (s' : Spot) c left, s'.IsOutside → left.length < front.length →
      (f (some c)).Stops back s' (c :: left) post short) :
    (do
      blanks
      let o ← peek
      f o : Reader α).Stops back s front post short := by
  have hsplit := List.takeWhile_append_dropWhile (p := isBlank) (l := front)
  have hblanks : IsBlanks (front.takeWhile isBlank) := List.all_eq_true.mp List.all_takeWhile
  -- Blanks are no quotes, so behind them the spot is outside of strings still.
  have hquote : ∀ c ∈ front.takeWhile isBlank, c ≠ '"' := by
    rintro c hc rfl
    exact absurd (hblanks _ hc) (by decide)
  generalize front.takeWhile isBlank = skipped at *
  cases hleft : front.dropWhile isBlank with
  | nil =>
    obtain ⟨e, he, hkind⟩ := hend
    exact fun _ _ _ => .refused ((run_blanks_of_nil hleft).trans he) (.inl hkind)
  | cons c left =>
    have hc : isBlank c = false := by
      have hnot := List.head?_dropWhile_not isBlank front
      simpa [hleft] using hnot
    rw [hleft] at hsplit
    subst hsplit
    have hlength : left.length < (skipped ++ c :: left).length := by
      rw [List.length_append, List.length_cons]
      omega
    have hpassed : ∀ text, (do
          blanks
          let o ← peek
          f o : Reader α).run (skipped ++ c :: text) = (f (some c)).run (c :: text) := fun text =>
      run_blanks_of_cons (dropWhile_isBlank hblanks hc text)
    intro a rest hrun
    rw [List.append_assoc, List.cons_append, hpassed] at hrun
    exact (h _ c left (Spot.isOutside_foldl hs hquote) hlength a rest hrun).pass skipped
      (hpassed left)

end Stops

end Reader

end BoardHealth.Json
