import BoardHealth.Proofs.Json.Cuts
import BoardHealth.Proofs.Json.Strings

/-!
# Tokens that are cut

A keyword or a string that is cut is no token any more, and the text has ended. Of a
numeral that is cut the first digits may be left, which are a numeral too: this is the
one way in which something else can be read where the text ends (`stops_numeral`). It
cannot become an integer out of range (`stops_number`).
-/

namespace BoardHealth.Json

namespace Reader

variable {α : Type} {back : List Char} {s : Spot} {front used left : List Char}

/-! ### Keywords -/

/-- No value comes short. -/
def Never (_ _ : α) : Prop := False

/-- The reader ends outside of strings. -/
def Outside (_ : α) (s : Spot) : Prop := s.IsOutside

theorem stops_keyword (hs : s.IsOutside) {word : List Char} (hword : ∀ c ∈ word, c ≠ '"') :
    (keyword word).Stops back s front Outside Never := by
  induction word generalizing s front with
  | nil => exact stops_pure hs
  | cons c word ih =>
    obtain ⟨hc, hothers⟩ := List.forall_mem_cons.mp hword
    refine stops_next (endsText_fail rfl) fun d left _ => ?_
    show (if d = c then keyword word else fail .keywordExpected).Stops _ _ _ _ _
    split
    next hd => exact ih (Spot.isOutside_next_of_eq hs hd hc) hothers
    next => exact stops_fail _

/-! ### Strings -/

/-- Hexadecimal digits neither end a string nor begin an escape, and are one byte each. -/
theorem of_hexDigit {c : Char} {n : Nat} (h : hexDigit? c = some n) :
    c.utf8Size = 1 ∧ c ≠ '"' ∧ c ≠ '\\' := by
  refine ⟨?_, ?_, ?_⟩
  · rw [hexDigit?] at h
    rw [Char.utf8Size_eq_one_iff]
    simp only [Bool.and_eq_true, decide_eq_true_eq, Char.le_def, UInt32.le_iff_toNat_le] at h ⊢
    split at h
    next hc => exact Nat.le_trans hc.2 (by decide)
    next =>
      split at h
      next hc => exact Nat.le_trans hc.2 (by decide)
      next =>
        split at h
        next hc => exact Nat.le_trans hc.2 (by decide)
        next => cases h
  · rintro rfl
    cases h
  · rintro rfl
    cases h

theorem exists_hexDigit {digits : List Char} {n unit : Nat}
    (h : digits.foldlM (fun n c => (hexDigit? c).map (n * 16 + ·)) n = some unit) :
    ∀ c ∈ digits, ∃ m, hexDigit? c = some m := by
  induction digits generalizing n with
  | nil => nofun
  | cons c digits ih =>
    rw [List.foldlM_cons] at h
    cases hdigit : hexDigit? c with
    | none => rw [hdigit] at h; cases h
    | some m =>
      rw [hdigit] at h
      exact List.forall_mem_cons.mpr ⟨⟨m, hdigit⟩, ih h⟩

theorem exists_of_run_hexUnit {text rest : List Char} {unit : Nat}
    (h : hexUnit.run text = .ok (unit, rest)) :
    ∃ digits, digits.length = 4 ∧ text = digits ++ rest ∧ hexNumber? digits = some unit := by
  match text with
  | a :: b :: c :: d :: text =>
    simp only [hexUnit] at h
    split at h
    next hunit =>
      cases h
      exact ⟨[a, b, c, d], rfl, rfl, hunit⟩
    next => cases h
  | [] | [_] | [_, _] | [_, _, _] =>
    simp only [hexUnit] at h
    split at h <;> cases h

theorem run_hexUnit_of_short (hlength : front.length < 4) (h : ∀ c ∈ front, c.utf8Size = 1) :
    hexUnit.run front = .error .endInString := by
  match front with
  | [] => rfl
  | [a] => simp [hexUnit, h a]
  | [a, b] => simp [hexUnit, h a, h b]
  | [a, b, c] => simp [hexUnit, h a, h b, h c]
  | _ :: _ :: _ :: _ :: _ =>
    simp only [List.length_cons] at hlength
    omega

theorem foldl_string {text : List Char} (h : ∀ c ∈ text, c ≠ '"' ∧ c ≠ '\\') :
    text.foldl Spot.next .string = .string := by
  induction text with
  | nil => rfl
  | cons c text ih =>
    obtain ⟨⟨hquote, hescape⟩, htext⟩ := List.forall_mem_cons.mp h
    rw [List.foldl_cons, Spot.next, if_neg hquote, if_neg hescape]
    exact ih htext

/-- The text ends within the digits if it is cut within them. -/
theorem stops_hexUnit : hexUnit.Stops back .string front (fun _ s => s = .string) Never := by
  intro unit rest hrun
  obtain ⟨digits, hlength, htext, hunit⟩ := exists_of_run_hexUnit hrun
  have hdigit : ∀ c ∈ digits, c.utf8Size = 1 ∧ c ≠ '"' ∧ c ≠ '\\' := by
    intro c hc
    obtain ⟨m, hm⟩ := exists_hexDigit hunit c hc
    exact of_hexDigit hm
  have hwhole : ∀ left, front = digits ++ left → rest = left ++ back →
      hexUnit.Stopped back .string front (fun _ s => s = .string) Never unit rest := by
    rintro left rfl rfl
    match digits, hlength with
    | [a, b, c, d], _ =>
      exact .behind rfl rfl (run_hexUnit hunit left) (foldl_string fun c hc => (hdigit c hc).2)
  rcases List.append_eq_append_iff.mp htext with ⟨behind, hdigits, hback⟩ | ⟨left, hfront, hrest⟩
  · cases behind with
    | nil => exact hwhole [] (by simpa using hdigits.symm) (by simpa using hback.symm)
    | cons c behind =>
      -- Fewer than four characters are left, and none of them has more than one byte.
      have hshort : front.length < 4 := by
        rw [hdigits, List.length_append, List.length_cons] at hlength
        omega
      refine .refused (run_hexUnit_of_short hshort fun c hc => ?_) (.inl rfl)
      exact (hdigit c (hdigits ▸ List.mem_append_left _ hc)).1
  · exact hwhole left hfront hrest

theorem stops_pairCharacter {c : Char} :
    (pairCharacter c).Stops back s front (fun _ s' => s' = s.next c) Never := by
  refine stops_next (endsText_fail rfl) fun d left _ => ?_
  show (if d = c then pure () else fail .surrogateUnpaired : Reader Unit).Stops _ _ _ _ _
  split
  next hd => exact stops_pure (congrArg s.next hd)
  next => exact stops_fail _

theorem stops_unicodeEscape :
    unicodeEscape.Stops back .string front (fun _ s => s = .string) Never := by
  refine stops_hexUnit.bind (fun unit used left _ hs => ?_) nofun
  rw [hs]
  split
  next => exact stops_fail _
  next =>
    split
    next =>
      -- The first half of a pair has to be followed by the escape of the second.
      refine stops_pairCharacter.bind (fun _ used' left' _ hs' => ?_) nofun
      rw [hs']
      refine stops_pairCharacter.bind (fun _ used' left' _ hs' => ?_) nofun
      rw [hs']
      refine stops_hexUnit.bind (fun low used' left' _ hs' => ?_) nofun
      rw [hs']
      split
      next => exact stops_pure rfl
      next => exact stops_fail _
    next => exact stops_pure rfl

theorem stops_escape {numeric : Reader α} {simple : Char → α}
    (h : ∀ left, numeric.Stops back .string left (fun _ s => s = .string) Never) :
    (escape numeric simple).Stops back .escaped front (fun _ s => s = .string) Never := by
  refine stops_next (endsText_fail rfl) fun c left _ => ?_
  split
  next heq => cases heq
  next => exact h left
  next =>
    split
    next => exact stops_pure rfl
    next => exact stops_fail _

theorem stops_unescape : unescape.Stops back .escaped front (fun _ s => s = .string) Never :=
  stops_escape fun _ => stops_unicodeEscape

theorem stops_passEscape : passEscape.Stops back .escaped front (fun _ s => s = .string) Never :=
  stops_escape fun _ => stops_hexUnit.bind (fun _ _ _ _ hs => stops_pure hs) nofun

/-- The items of a string, some of which were read already. -/
def stringFrom (onPlain : Char → α) (onEscape : Reader α) (seen : List α) : Reader (List α) where
  run := runString onPlain onEscape seen
  leaves_suffix h := runString_suffix _ _ _ h

theorem run_stringFrom (onPlain : Char → α) (onEscape : Reader α) (seen : List α)
    (text : List Char) : (stringFrom onPlain onEscape seen).run text = (do
      match ← next with
      | none => fail .endInString
      | some c =>
        if c = '"' then pure seen.reverse
        else if c = '\\' then
          let a ← onEscape
          stringFrom onPlain onEscape (a :: seen)
        else if c.toNat < 0x20 then fail .controlCharacter
        else stringFrom onPlain onEscape (onPlain c :: seen) : Reader (List α)).run text := by
  show runString onPlain onEscape seen text = _
  rw [runString.eq_def]
  cases text with
  | nil => rfl
  | cons c text =>
    rw [run_bind_of_ok (run_next _)]
    simp only [List.head?_cons, List.tail_cons]
    split
    next => rfl
    next =>
      split
      next =>
        rw [run_bind]
        split <;> simp_all [stringFrom]
      next => split <;> rfl

/-- By induction on what is left of the front: an escape leaves no more than it was given. -/
theorem stops_stringFrom {onPlain : Char → α} {onEscape : Reader α}
    (h : ∀ left, onEscape.Stops back .escaped left (fun _ s => s = .string) Never)
    (seen : List α) :
    (stringFrom onPlain onEscape seen).Stops back .string front (fun _ s => s = .between)
      Never := by
  induction hlength : front.length using Nat.strongRecOn generalizing front seen with
  | ind n ih =>
    refine Stops.of_run_eq ?_ (run_stringFrom onPlain onEscape seen)
    refine stops_next (endsText_fail rfl) fun c left hfront => ?_
    subst hfront
    rw [List.length_cons] at hlength
    split
    next heq => cases heq
    next heq =>
      cases heq
      split
      next hquote =>
        subst hquote
        exact stops_pure rfl
      next hquote =>
        split
        next hescape =>
          subst hescape
          refine (h left).bind (fun a used left' hleft hs => ?_) nofun
          rw [hs]
          refine ih left'.length ?_ _ rfl
          rw [← hlength, hleft, List.length_append]
          omega
        next hescape =>
          split
          next => exact stops_fail _
          next =>
            rw [Spot.next, if_neg hquote, if_neg hescape]
            exact ih left.length (by omega) _ rfl

theorem stops_string {onPlain : Char → α} {onEscape : Reader α}
    (h : ∀ left, onEscape.Stops back .escaped left (fun _ s => s = .string) Never) :
    (string onPlain onEscape).Stops back .string front Outside Never :=
  (stops_stringFrom h []).imp (fun _ _ hs => .inl hs) fun _ _ h => h

theorem stops_stringContent : stringContent.Stops back .string front Outside Never :=
  stops_string fun _ => stops_unescape

theorem stops_passString : passString.Stops back .string front Outside Never :=
  (stops_string fun _ => stops_passEscape).bind (fun _ _ _ _ hs => stops_pure hs) nofun

/-! ### Numerals -/

theorem continuesNumeral_of_isDigit {c : Char} (h : c.isDigit = true) :
    continuesNumeral c = true := by
  simp [continuesNumeral, beginsNumeral, h]

/-- A character that may stand in a numeral, behind a numeral. -/
theorem stops_takeIf {test : Char → Bool} (h : ∀ c, test c = true → continuesNumeral c = true) :
    (takeIf test).Stops back .numeral front (fun _ s => s = .numeral) (fun _ b => b = none) := by
  intro a rest hrun
  cases front with
  | nil =>
    -- Whether the numeral was to go on is seen from what stands behind the cut.
    by_cases htest : ∃ c ∈ back.head?, test c = true
    · obtain ⟨c, hc, hpass⟩ := htest
      exact .shortened rfl ⟨rfl, c, hc, h c hpass⟩ rfl
    · have hnone : ∀ c ∈ back.head?, test c = false := fun c hc =>
        Bool.eq_false_iff.mpr fun hpass => htest ⟨c, hc, hpass⟩
      rw [List.nil_append, run_takeIf_of_neg hnone] at hrun
      cases hrun
      exact .behind (List.nil_append []).symm rfl rfl rfl
  | cons c left =>
    rw [List.cons_append] at hrun
    cases hpass : test c with
    | true =>
      rw [run_takeIf_of_pos hpass] at hrun
      cases hrun
      refine .behind (List.singleton_append ..).symm rfl (run_takeIf_of_pos hpass left) ?_
      exact Spot.foldl_numeral (by simpa using h c hpass)
    | false =>
      have hnone : ∀ text, ∀ d ∈ (c :: text).head?, test d = false := by
        rintro text d hd
        cases hd
        exact hpass
      rw [run_takeIf_of_neg (hnone _)] at hrun
      cases hrun
      exact .behind (List.nil_append _).symm rfl (run_takeIf_of_neg (hnone left)) rfl

theorem exists_of_run_digits {atEnd : DecodeError} {text found rest : List Char}
    (h : (digits atEnd).run text = .ok (found, rest)) :
    IsDigits found ∧ text = found ++ rest ∧ ∀ c ∈ rest.head?, c.isDigit = false := by
  have htake : (takeWhile Char.isDigit).run text =
      .ok (text.takeWhile Char.isDigit, text.dropWhile Char.isDigit) := rfl
  rw [digits, run_bind_of_ok htake] at h
  split at h
  next =>
    rw [run_bind_of_ok (run_peek _)] at h
    split at h <;> cases h
  next hne =>
    cases h
    refine ⟨⟨by simpa using hne, List.all_eq_true.mp List.all_takeWhile⟩,
      List.takeWhile_append_dropWhile.symm, ?_⟩
    intro c hc
    have hnot := List.head?_dropWhile_not Char.isDigit text
    rw [Option.mem_def.mp hc] at hnot
    simpa using hnot

theorem foldl_digits (hs : s = .numeral ∨ s.IsOutside ∧ used ≠ [])
    (h : ∀ c ∈ used, c.isDigit = true) : used.foldl Spot.next s = .numeral := by
  have hnumeral : ∀ c ∈ used, continuesNumeral c = true := fun c hc =>
    continuesNumeral_of_isDigit (h c hc)
  rcases hs with rfl | ⟨hs, hne⟩
  · exact Spot.foldl_numeral hnumeral
  · obtain ⟨c, text, rfl⟩ := List.exists_cons_of_ne_nil hne
    obtain ⟨hc, htext⟩ := List.forall_mem_cons.mp h
    rw [List.foldl_cons, Spot.next_of_beginsNumeral hs (by simp [beginsNumeral, hc])]
    exact Spot.foldl_numeral fun d hd => continuesNumeral_of_isDigit (htext d hd)

/-- Where no digit was read yet, the front holds one or the numeral has begun. -/
theorem stops_digits {atEnd : DecodeError} (hkind : atEnd.category ≠ .mismatched)
    (hs : s = .numeral ∨ s.IsOutside ∧ front ≠ []) :
    (digits atEnd).Stops back s front (fun _ s => s = .numeral) (fun a b => b <+: a) := by
  intro found rest hrun
  obtain ⟨hfound, htext, hrest⟩ := exists_of_run_digits hrun
  have hwhole : ∀ left, front = found ++ left → rest = left ++ back →
      (digits atEnd).Stopped back s front (fun _ s => s = .numeral) (fun a b => b <+: a)
        found rest := by
    rintro left rfl rfl
    refine .behind rfl rfl (run_digits hfound fun c hc => hrest c ?_) ?_
    · cases left with
      | nil => cases hc
      | cons d left => exact hc
    · exact foldl_digits (hs.imp_right fun ⟨hs, _⟩ => ⟨hs, hfound.1⟩) hfound.2
  rcases List.append_eq_append_iff.mp htext with ⟨behind, hdigits, hback⟩ | ⟨left, hfront, hrest⟩
  · cases behind with
    | nil => exact hwhole [] (by simpa using hdigits.symm) (by simpa using hback.symm)
    | cons c behind =>
      -- The cut goes through the digits: those of the front are read, if there are any.
      have hdigit : ∀ d ∈ front, d.isDigit = true := fun d hd =>
        hfound.2 d (hdigits ▸ List.mem_append_left _ hd)
      have hc : c.isDigit = true := hfound.2 c (by simp [hdigits])
      have hcut : CutsNumeral s front back :=
        ⟨foldl_digits hs hdigit, c, by simp [hback], continuesNumeral_of_isDigit hc⟩
      by_cases hne : front = []
      · subst hne
        refine .refused rfl ?_
        cases hcategory : atEnd.category with
        | endOfText => exact .inl rfl
        | malformed => exact .inr ⟨rfl, hcut⟩
        | mismatched => exact absurd hcategory hkind
      · have hall : (digits atEnd).run (front ++ []) = .ok (front, []) :=
          run_digits ⟨hne, hdigit⟩ nofun
        rw [List.append_nil] at hall
        exact .shortened hall hcut ⟨c :: behind, hdigits.symm⟩
  · exact hwhole left hfront hrest

theorem stops_wholeDigits {atEnd : DecodeError} (hkind : atEnd.category ≠ .mismatched)
    (hs : s = .numeral ∨ s.IsOutside ∧ front ≠ []) :
    (wholeDigits atEnd).Stops back s front (fun _ s => s = .numeral) (fun a b => b <+: a) := by
  refine (stops_digits hkind hs).bind (fun found used left _ hs' => ?_) fun a b hshort => ?_
  · split
    next => exact stops_fail _
    next => exact stops_pure hs'
  · intro text found rest hrun
    refine .inr ⟨b, ?_, ?_⟩
    · split
      next =>
        obtain ⟨behind, rfl⟩ := hshort
        cases hrun
      next => rfl
    · split at hrun
      next => cases hrun
      next => cases hrun; exact hshort

theorem stops_fractionDigits {atEnd : DecodeError} (hkind : atEnd.category ≠ .mismatched) :
    (fractionDigits atEnd).Stops back .numeral front (fun _ s => s = .numeral)
      (fun a b => a = [] → b = []) := by
  refine (stops_takeIf fun c hc => ?_).bind (fun point used left _ hs => ?_) fun a b hshort => ?_
  · simp [continuesNumeral, hc]
  · split
    next => exact stops_pure hs
    next =>
      refine (stops_digits hkind (.inl hs)).imp (fun _ _ h => h) fun a b hshort ha => ?_
      rwa [ha, List.prefix_nil] at hshort
  · subst hshort
    exact .of_ok rfl fun _ _ => rfl

theorem stops_exponentDigits {atEnd : DecodeError} (hkind : atEnd.category ≠ .mismatched) :
    (exponentDigits atEnd).Stops back .numeral front (fun _ s => s = .numeral)
      (fun a b => a = none → b = none) := by
  refine (stops_takeIf fun c hc => ?_).bind (fun mark used left _ hs => ?_) fun a b hshort => ?_
  · rcases Bool.or_eq_true_iff.mp hc with hc | hc <;> (rw [eq_of_beq hc]; rfl)
  · split
    next => exact stops_pure hs
    next =>
      rw [hs]
      refine (stops_takeIf fun c hc => ?_).bind (fun sign used left _ hs => ?_) fun a b hshort => ?_
      · rcases Bool.or_eq_true_iff.mp hc with hc | hc <;> (rw [eq_of_beq hc]; rfl)
      · refine (stops_digits hkind (.inl hs)).bind (fun found used left _ hs => ?_)
          fun _ _ _ => .pure nofun
        exact stops_pure hs
      · exact .of_error rfl hkind
  · subst hshort
    exact .of_ok rfl fun _ _ => rfl

end Reader

/-- A numeral that is left of another one that was cut. -/
structure Numeral.IsCutOf (m n : Numeral) : Prop where
  negative : m.negative = n.negative
  whole : m.whole <+: n.whole
  fraction : n.fraction = [] → m.fraction = []
  exponent : n.exponent = none → m.exponent = none

theorem digitsValue_le_append (ds es : List Char) : digitsValue ds ≤ digitsValue (ds ++ es) := by
  rw [digitsValue, digitsValue, List.foldl_append]
  exact le_foldl_digits es _

/-- What is left of an integer that is not negative is no larger. -/
theorem Numeral.IsCutOf.value_integer {m n : Numeral} (h : m.IsCutOf n) {i : Int}
    (hn : n.value = .ok (.integer i)) (hi : 0 ≤ i) :
    ∃ j, m.value = .ok (.integer j) ∧ 0 ≤ j ∧ j ≤ i := by
  have hinteger : n.integer? = some i := by
    rw [Numeral.value] at hn
    split at hn
    next hsome => cases hn; exact hsome
    next => split at hn <;> cases hn
  rw [Numeral.integer?] at hinteger
  split at hinteger
  next hplain =>
    dsimp only at hinteger
    split at hinteger
    next =>
      split at hinteger
      next hpos =>
        obtain rfl := Option.some.inj hinteger
        omega
      next => cases hinteger
    next hnegative =>
      split at hinteger
      next hlimit =>
        obtain rfl := Option.some.inj hinteger
        -- Fewer digits make a number that is no larger, and so it is an integer too.
        obtain ⟨behind, hwhole⟩ := h.whole
        have hle : digitsValue m.whole ≤ digitsValue n.whole :=
          hwhole ▸ digitsValue_le_append m.whole behind
        have hm : m.integer? = some (digitsValue m.whole : Int) := by
          rw [Numeral.integer?, if_pos ⟨h.fraction hplain.1, h.exponent hplain.2⟩]
          dsimp only
          rw [h.negative, if_neg hnegative, if_pos (by omega)]
        refine ⟨digitsValue m.whole, ?_, by omega, by omega⟩
        rw [Numeral.value, hm]
      next => cases hinteger
  next => cases hinteger

namespace Reader

variable {back : List Char} {s : Spot} {front left : List Char}

/-- Behind the sign, if there is one. -/
theorem stops_unsigned {atEnd : DecodeError} (hkind : atEnd.category ≠ .mismatched)
    (sign : Option Char) (hs : s = .numeral ∨ s.IsOutside ∧ front ≠ []) :
    (do
      let whole ← wholeDigits atEnd
      let fraction ← fractionDigits atEnd
      let exponent ← exponentDigits atEnd
      pure ⟨sign.isSome, whole, fraction, exponent⟩ : Reader Numeral).Stops back s front
        (fun _ s => s = .numeral) (fun n m => m.IsCutOf n) := by
  have hnoFraction : (fractionDigits atEnd).CutsTo (fractionDigits atEnd) (fun _ b => b = []) :=
    .of_ok rfl fun _ => rfl
  have hnoExponent : (exponentDigits atEnd).CutsTo (exponentDigits atEnd) (fun _ b => b = none) :=
    .of_ok rfl fun _ => rfl
  refine (stops_wholeDigits hkind hs).bind (fun whole used left _ hs => ?_) fun a b hwhole => ?_
  · rw [hs]
    refine (stops_fractionDigits hkind).bind (fun fraction used left _ hs => ?_)
      fun a b hfraction => ?_
    · rw [hs]
      refine (stops_exponentDigits hkind).bind (fun exponent used left _ hs => stops_pure hs)
        fun a b hexponent => ?_
      exact .pure ⟨rfl, List.prefix_refl _, id, hexponent⟩
    · refine hnoExponent.bind fun _ _ h => ?_
      exact .pure ⟨rfl, List.prefix_refl _, hfraction, fun _ => h⟩
  · refine hnoFraction.bind fun _ _ h => ?_
    refine hnoExponent.bind fun _ _ h' => ?_
    exact .pure ⟨rfl, hwhole, fun _ => h, fun _ => h'⟩

theorem stops_numeral {atEnd : DecodeError} (hkind : atEnd.category ≠ .mismatched)
    (hs : s.IsOutside) {c : Char} (hc : beginsNumeral c = true) :
    (numeral atEnd).Stops back s (c :: left) (fun _ s => s = .numeral)
      (fun n m => m.IsCutOf n) := by
  -- Behind a sign the numeral has begun; without one its first digit is still there.
  by_cases hsign : (c == '-') = true
  · refine .pass [c] (stops_unsigned hkind (some c) (.inl ?_)) fun text => ?_
    · exact Spot.next_of_beginsNumeral hs hc
    · exact run_bind_of_ok (run_takeIf_of_pos (p := (· == '-')) hsign text)
  · have hnone : ∀ text, ∀ d ∈ (c :: text).head?, (d == '-') = false := by
      rintro text d hd
      cases hd
      exact Bool.eq_false_iff.mpr hsign
    intro n rest hrun
    have hrun' : ∀ text, (numeral atEnd).run (c :: text) = _ := fun text =>
      run_bind_of_ok (run_takeIf_of_neg (hnone text))
    rw [List.cons_append, hrun'] at hrun
    exact (stops_unsigned hkind none (.inr ⟨hs, List.cons_ne_nil c left⟩) n rest hrun).pass []
      (hrun' left)

/-- A number that comes short of an integer that is not negative is no larger. -/
def ShortNumber (a b : Number) : Prop :=
  ∀ i, a = .integer i → 0 ≤ i → ∃ j, b = .integer j ∧ 0 ≤ j ∧ j ≤ i

theorem stops_number (hs : s.IsOutside) {c : Char} (hc : beginsNumeral c = true) :
    number.Stops back s (c :: left) Outside ShortNumber := by
  refine (stops_numeral (by decide) hs hc).bind (fun n used left _ hs => ?_) fun n m hcut => ?_
  · cases n.value with
    | error e => exact stops_fail e
    | ok v => exact stops_pure (.inr hs)
  · intro text a rest hrun
    cases hn : n.value with
    | error e => rw [hn] at hrun; cases hrun
    | ok v =>
      rw [hn] at hrun
      cases hrun
      cases hm : m.value with
      | error e =>
        refine .inl ⟨e, rfl, ?_⟩
        rw [Numeral.value] at hm
        split at hm
        next => cases hm
        next => split at hm <;> cases hm; nofun
      | ok w =>
        refine .inr ⟨w, rfl, ?_⟩
        rintro i rfl hi
        obtain ⟨j, hj, hnonneg, hle⟩ := hcut.value_integer hn hi
        rw [hm] at hj
        exact ⟨j, Except.ok.inj hj, hnonneg, hle⟩

theorem stops_passNumeral (hs : s.IsOutside) {c : Char} (hc : beginsNumeral c = true) :
    passNumeral.Stops back s (c :: left) Outside (fun _ _ => True) :=
  (stops_numeral (by decide) hs hc).bind (fun _ _ _ _ hs => stops_pure (.inr hs))
    fun _ _ _ => .pure trivial

end Reader

end BoardHealth.Json
