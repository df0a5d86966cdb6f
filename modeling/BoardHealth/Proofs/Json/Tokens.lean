import BoardHealth.Proofs.Json.Grammar

/-!
# Reading tokens

What the readers of single tokens make of a text of the grammar, and that they leave
what stands behind it:

> `run_numeral`: numerals, in front of a delimiter.
> `run_passString`, `run_stringContent`: strings, passed over or read.
> `exists_run_stringContent`: a string is read or refused for what it holds, whatever
> stands behind its closing quotation mark.

Only a numeral needs to be told where it ends: every other token says so itself.
-/

namespace BoardHealth.Json

/-- Whether the character ends the value in front of it. -/
def isDelimiter (c : Char) : Bool := isBlank c || c == ',' || c == ']' || c == '}'

/-- A value in front of this text ends there. -/
def Delimited (rest : List Char) : Prop := ∀ c ∈ rest.head?, isDelimiter c = true

theorem Delimited.nil : Delimited [] := by
  intro c hc
  cases hc

theorem Delimited.cons {c : Char} (h : isDelimiter c = true) (rest : List Char) :
    Delimited (c :: rest) := by
  intro d hd
  cases hd
  exact h

/-- Blanks end a value, and so does what ends a value behind blanks. -/
theorem IsBlanks.delimited {blanks rest : List Char} (h : IsBlanks blanks)
    (hrest : Delimited rest) : Delimited (blanks ++ rest) := by
  cases blanks with
  | nil => exact hrest
  | cons c blanks =>
    refine .cons ?_ _
    rw [isDelimiter, h c (List.mem_cons_self ..)]
    rfl

theorem IsBlanks.nil : IsBlanks [] := by
  intro c hc
  cases hc

/-- Blanks are told by their characters. -/
theorem IsBlanks.of_all {text : List Char} (h : text.all isBlank = true) : IsBlanks text :=
  List.all_eq_true.mp h

/-- Digits are told by their characters. -/
theorem IsDigits.of_all {text : List Char} (hne : text ≠ []) (h : text.all Char.isDigit = true) :
    IsDigits text :=
  ⟨hne, List.all_eq_true.mp h⟩

theorem IsBlanks.append {blanks blanks' : List Char} (h : IsBlanks blanks)
    (h' : IsBlanks blanks') : IsBlanks (blanks ++ blanks') := by
  intro c hc
  rcases List.mem_append.mp hc with hc | hc
  · exact h c hc
  · exact h' c hc

/-- Blanks are dropped up to the first character that is none. -/
theorem dropWhile_isBlank {blanks : List Char} {c : Char} (h : IsBlanks blanks)
    (hc : isBlank c = false) (rest : List Char) :
    (blanks ++ c :: rest).dropWhile isBlank = c :: rest := by
  rw [List.dropWhile_append_of_pos h, List.dropWhile_cons, hc]
  rfl

theorem dropWhile_isBlank_all {blanks : List Char} (h : IsBlanks blanks) :
    blanks.dropWhile isBlank = [] := by
  have hdrop : (blanks ++ []).dropWhile isBlank = [] := List.dropWhile_append_of_pos h
  rwa [List.append_nil] at hdrop

/-- The first character of a value. -/
def startsValue (c : Char) : Bool :=
  c == 'n' || c == 't' || c == 'f' || c == '"' || c == '[' || c == '{' || beginsNumeral c

theorem not_isDigit_of_isDelimiter {c : Char} (h : isDelimiter c = true) :
    c.isDigit = false ∧ c ≠ '.' ∧ c ≠ 'e' ∧ c ≠ 'E' := by
  simp only [isDelimiter, isBlank, Bool.or_eq_true, beq_iff_eq] at h
  rcases h with ((((((rfl | rfl) | rfl) | rfl) | rfl) | rfl) | rfl) <;> decide

theorem not_isDelimiter_of_startsValue {c : Char} (h : startsValue c = true) :
    isDelimiter c = false := by
  rw [Bool.eq_false_iff]
  intro hc
  simp only [isDelimiter, isBlank, Bool.or_eq_true, beq_iff_eq] at hc
  rcases hc with ((((((rfl | rfl) | rfl) | rfl) | rfl) | rfl) | rfl) <;> revert h <;> decide

theorem not_isBlank_of_startsValue {c : Char} (h : startsValue c = true) : isBlank c = false := by
  have hc := not_isDelimiter_of_startsValue h
  simp only [isDelimiter, Bool.or_eq_false_iff] at hc
  exact hc.1.1.1

/-! ## First characters -/

theorem IsNumeral.exists_cons {n : Numeral} {text : List Char} (h : IsNumeral n text) :
    ∃ c cs, text = c :: cs ∧ beginsNumeral c = true := by
  obtain ⟨⟨hne, hdigits⟩, -, -, -⟩ := h
  by_cases hneg : n.negative = true
  · rw [if_pos hneg]
    exact ⟨'-', _, rfl, rfl⟩
  · obtain ⟨d, ds, hwhole⟩ := List.exists_cons_of_ne_nil hne
    have hd : d.isDigit = true := hdigits d (hwhole ▸ List.mem_cons_self ..)
    rw [if_neg hneg, hwhole]
    exact ⟨d, _, rfl, by rw [beginsNumeral, hd, Bool.or_true]⟩

theorem IsExponent.eq_nil_or_cons {exponent : Option (Bool × List Char)} {text : List Char}
    (h : IsExponent exponent text) :
    text = [] ∨ ∃ c cs, text = c :: cs ∧ (c = 'e' ∨ c = 'E') := by
  cases h with
  | absent => exact .inl rfl
  | present hmark => exact .inr ⟨_, _, rfl, hmark⟩

theorem IsScalar.exists_cons {text : List Char} (h : IsScalar text) :
    ∃ c cs, text = c :: cs ∧ startsValue c = true ∧ c ≠ '[' ∧ c ≠ '{' := by
  cases h with
  | null | yes | no | string => exact ⟨_, _, rfl, rfl, by decide, by decide⟩
  | number h =>
    obtain ⟨c, cs, rfl, hc⟩ := h.exists_cons
    refine ⟨c, cs, rfl, by rw [startsValue, hc, Bool.or_true], ?_, ?_⟩ <;>
      · rintro rfl
        exact absurd hc (by decide)

theorem IsValue.exists_cons {text : List Char} (h : IsValue text) :
    ∃ c cs, text = c :: cs ∧ startsValue c = true := by
  cases h with
  | scalar h =>
    obtain ⟨c, cs, rfl, hc, -⟩ := h.exists_cons
    exact ⟨c, cs, rfl, hc⟩
  | empty b => cases b <;> exact ⟨_, _, rfl, rfl⟩
  | @filled b => cases b <;> exact ⟨_, _, rfl, rfl⟩

/-! ## Digits -/

/-- A number does not become smaller by more digits. -/
theorem le_foldl_digits (ds : List Char) (n : Nat) :
    n ≤ ds.foldl (fun n c => n * 10 + digitValue c) n := by
  induction ds generalizing n with
  | nil => exact Nat.le_refl n
  | cons d ds ih =>
    refine Nat.le_trans ?_ (ih _)
    show n ≤ n * 10 + digitValue d
    omega

namespace Reader

variable {α β : Type}

/-! ## Single steps -/

@[simp] theorem run_fail (e : DecodeError) (text : List Char) :
    (fail e : Reader α).run text = .error e := rfl

@[simp] theorem run_peek (text : List Char) : peek.run text = .ok (text.head?, text) := rfl

@[simp] theorem run_next (text : List Char) : next.run text = .ok (text.head?, text.tail) := rfl

@[simp] theorem run_advance (text : List Char) : advance.run text = .ok ((), text.tail) := rfl

@[simp] theorem run_blanks (text : List Char) :
    blanks.run text = .ok ((), text.dropWhile isBlank) := rfl

theorem run_blanks_append {blanks : List Char} {c : Char} (h : IsBlanks blanks)
    (hc : isBlank c = false) (rest : List Char) :
    Reader.blanks.run (blanks ++ c :: rest) = .ok ((), c :: rest) := by
  rw [run_blanks, dropWhile_isBlank h hc]

theorem run_bind_of_ok {x : Reader α} {f : α → Reader β} {text rest : List Char} {a : α}
    (h : x.run text = .ok (a, rest)) : (x >>= f).run text = (f a).run rest := by
  rw [run_bind, h]

theorem run_bind_of_error {x : Reader α} {f : α → Reader β} {text : List Char} {e : DecodeError}
    (h : x.run text = .error e) : (x >>= f).run text = .error e := by
  rw [run_bind, h]

theorem run_takeWhile {p : Char → Bool} {found rest : List Char} (hfound : ∀ c ∈ found, p c = true)
    (hrest : ∀ c ∈ rest.head?, p c = false) :
    (takeWhile p).run (found ++ rest) = .ok (found, rest) := by
  show Except.ok ((found ++ rest).takeWhile p, (found ++ rest).dropWhile p) = _
  rw [List.takeWhile_append_of_pos hfound, List.dropWhile_append_of_pos hfound]
  cases rest with
  | nil => simp
  | cons c rest => simp [hrest c rfl]

theorem run_keyword (word rest : List Char) :
    (keyword word).run (word ++ rest) = .ok ((), rest) := by
  induction word with
  | nil => rfl
  | cons c word ih =>
    rw [List.cons_append, keyword, run_bind_of_ok (run_next _)]
    show (if c = c then keyword word else fail .keywordExpected).run (word ++ rest) = _
    rw [if_pos rfl, ih]

/-- The first character of a value is found behind blanks. -/
theorem run_valueStart {blanks text : List Char} {c : Char} (h : IsBlanks blanks)
    (hc : startsValue c = true) :
    valueStart.run (blanks ++ c :: text) = .ok (c, c :: text) := by
  rw [valueStart, run_bind_of_ok (run_blanks_append h (not_isBlank_of_startsValue hc) text)]
  rfl

theorem run_colon {gap : List Char} (h : IsBlanks gap) (rest : List Char) :
    colon.run (gap ++ ':' :: rest) = .ok ((), rest) := by
  rw [colon, run_bind_of_ok (run_blanks_append h rfl rest)]
  rfl

/-! ## Numerals -/

theorem run_takeIf_of_pos {p : Char → Bool} {c : Char} (h : p c = true) (rest : List Char) :
    (takeIf p).run (c :: rest) = .ok (some c, rest) := by
  show (if p c then _ else _ : Reader (Option Char)).run (c :: rest) = _
  rw [if_pos h]
  rfl

theorem run_takeIf_of_neg {p : Char → Bool} {text : List Char}
    (h : ∀ c ∈ text.head?, p c = false) : (takeIf p).run text = .ok (none, text) := by
  cases text with
  | nil => rfl
  | cons c rest =>
    show (if p c then _ else _ : Reader (Option Char)).run (c :: rest) = _
    rw [if_neg (by rw [h c rfl]; exact Bool.false_ne_true)]
    rfl

variable {atEnd : DecodeError} {found rest : List Char}

theorem run_digits (hfound : IsDigits found) (hrest : ∀ c ∈ rest.head?, c.isDigit = false) :
    (digits atEnd).run (found ++ rest) = .ok (found, rest) := by
  rw [digits, run_bind_of_ok (run_takeWhile hfound.2 hrest)]
  have hne : ¬found.isEmpty = true := by
    rw [List.isEmpty_iff]
    exact hfound.1
  rw [if_neg hne]
  rfl

theorem run_wholeDigits (hfound : IsDigits found) (hzero : found.head? = some '0' → found = ['0'])
    (hrest : ∀ c ∈ rest.head?, c.isDigit = false) :
    (wholeDigits atEnd).run (found ++ rest) = .ok (found, rest) := by
  rw [wholeDigits, run_bind_of_ok (run_digits hfound hrest)]
  split
  next d ds => exact absurd (hzero rfl) (by simp)
  next => rfl

theorem run_fractionDigits (hfound : ∀ c ∈ found, c.isDigit = true)
    (hrest : ∀ c ∈ rest.head?, c.isDigit = false ∧ c ≠ '.') :
    (fractionDigits atEnd).run ((if found = [] then [] else '.' :: found) ++ rest) =
      .ok (found, rest) := by
  by_cases hempty : found = []
  · subst hempty
    rw [if_pos rfl, fractionDigits]
    refine (run_bind_of_ok (run_takeIf_of_neg ?_)).trans rfl
    intro c hc
    exact beq_eq_false_iff_ne.mpr (hrest c hc).2
  · rw [if_neg hempty, fractionDigits]
    refine (run_bind_of_ok (run_takeIf_of_pos rfl _)).trans ?_
    exact run_digits ⟨hempty, hfound⟩ fun c hc => (hrest c hc).1

theorem run_exponentDigits {exponent : Option (Bool × List Char)} {text : List Char}
    (h : IsExponent exponent text)
    (hrest : ∀ c ∈ rest.head?, c.isDigit = false ∧ c ≠ 'e' ∧ c ≠ 'E') :
    (exponentDigits atEnd).run (text ++ rest) = .ok (exponent, rest) := by
  have hdigit : ∀ c ∈ rest.head?, c.isDigit = false := fun c hc => (hrest c hc).1
  rw [exponentDigits]
  cases h with
  | absent =>
    refine (run_bind_of_ok (run_takeIf_of_neg ?_)).trans rfl
    intro c hc
    obtain ⟨-, hlower, hupper⟩ := hrest c hc
    simp [hlower, hupper]
  | @present mark sign ds hmark hsign hdigits =>
    have hmark' : (mark == 'e' || mark == 'E') = true := by
      rcases hmark with rfl | rfl <;> rfl
    refine (run_bind_of_ok (run_takeIf_of_pos hmark' _)).trans ?_
    rcases hsign with rfl | rfl | rfl
    · -- A digit is no sign.
      have hnosign : ∀ c ∈ (ds ++ rest).head?, (c == '+' || c == '-') = false := by
        obtain ⟨d, ds', rfl⟩ := List.exists_cons_of_ne_nil hdigits.1
        intro c hc
        cases hc
        have hd := hdigits.2 d (List.mem_cons_self ..)
        rw [Bool.or_eq_false_iff, beq_eq_false_iff_ne, beq_eq_false_iff_ne]
        constructor <;> rintro rfl <;> revert hd <;> decide
      refine (run_bind_of_ok (run_takeIf_of_neg hnosign)).trans ?_
      exact (run_bind_of_ok (run_digits hdigits hdigit)).trans rfl
    · refine (run_bind_of_ok (run_takeIf_of_pos rfl _)).trans ?_
      exact (run_bind_of_ok (run_digits hdigits hdigit)).trans rfl
    · refine (run_bind_of_ok (run_takeIf_of_pos rfl _)).trans ?_
      exact (run_bind_of_ok (run_digits hdigits hdigit)).trans rfl

/-- A numeral is read up to the delimiter behind it. -/
theorem run_numeral {n : Numeral} {text : List Char} (h : IsNumeral n text)
    (hrest : Delimited rest) : (numeral atEnd).run (text ++ rest) = .ok (n, rest) := by
  cases h with | @intro exponent hwhole hzero hfraction hexponent => ?_
  have hbehind : ∀ c ∈ rest.head?, c.isDigit = false ∧ c ≠ '.' ∧ c ≠ 'e' ∧ c ≠ 'E' :=
    fun c hc => not_isDigit_of_isDelimiter (hrest c hc)
  -- Behind each part stands the next one, or what stands behind the numeral.
  have hexponent' : ∀ c ∈ (exponent ++ rest).head?, c.isDigit = false ∧ c ≠ '.' := by
    intro c hc
    rcases hexponent.eq_nil_or_cons with rfl | ⟨mark, text, rfl, hmark⟩
    · exact ⟨(hbehind c hc).1, (hbehind c hc).2.1⟩
    · cases hc
      rcases hmark with rfl | rfl <;> decide
  have hfraction' : ∀ c ∈ ((if n.fraction = [] then [] else '.' :: n.fraction)
      ++ (exponent ++ rest)).head?, c.isDigit = false := by
    split
    next => exact fun c hc => (hexponent' c hc).1
    next =>
      intro c hc
      cases hc
      decide
  have hwholeDigits : (wholeDigits atEnd).run (n.whole ++ _) = _ :=
    run_wholeDigits hwhole hzero hfraction'
  have hparts := run_bind_of_ok (f := fun whole => do
      let fraction ← fractionDigits atEnd
      let exponent ← exponentDigits atEnd
      pure (⟨n.negative, whole, fraction, exponent⟩ : Numeral))
    hwholeDigits
  rw [run_bind_of_ok (run_fractionDigits hfraction hexponent'),
    run_bind_of_ok (run_exponentDigits hexponent fun c hc =>
      ⟨(hbehind c hc).1, (hbehind c hc).2.2.1, (hbehind c hc).2.2.2⟩)] at hparts
  rw [List.append_assoc, List.append_assoc, List.append_assoc, numeral]
  cases hneg : n.negative with
  | true =>
    rw [hneg] at hparts
    refine (run_bind_of_ok (run_takeIf_of_pos rfl _)).trans (hparts.trans ?_)
    rw [← hneg]
    rfl
  | false =>
    rw [hneg] at hparts
    have hnosign : ∀ c ∈ (n.whole ++ ((if n.fraction = [] then [] else '.' :: n.fraction)
        ++ (exponent ++ rest))).head?, (c == '-') = false := by
      obtain ⟨d, ds, hd⟩ := List.exists_cons_of_ne_nil hwhole.1
      have hdigit := hwhole.2 d (hd ▸ List.mem_cons_self ..)
      rw [hd]
      intro c hc
      cases hc
      rw [beq_eq_false_iff_ne]
      rintro rfl
      revert hdigit
      decide
    refine (run_bind_of_ok (run_takeIf_of_neg hnosign)).trans (hparts.trans ?_)
    rw [← hneg]
    rfl

theorem run_passNumeral {n : Numeral} {text : List Char} (h : IsNumeral n text)
    (hrest : Delimited rest) : passNumeral.run (text ++ rest) = .ok ((), rest) :=
  (run_bind_of_ok (run_numeral h hrest)).trans rfl

end Reader

end BoardHealth.Json
