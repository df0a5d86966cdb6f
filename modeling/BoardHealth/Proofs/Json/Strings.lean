import BoardHealth.Json.Document
import BoardHealth.Proofs.Json.Tokens

/-!
# Reading strings

A string is passed over if its form is right (`run_passString`), and it is read if it
spells something (`run_stringContent`). Surrogates without partners have the right form
and spell nothing; a string with one is refused for it, whatever stands behind the
string (`exists_run_stringContent`).

What is written between quotation marks spells what it was written from
(`spells_escape`).
-/

namespace BoardHealth.Json

theorem IsPlain.not_special {c : Char} (h : IsPlain c) :
    c ≠ '"' ∧ c ≠ '\\' ∧ ¬c.toNat < 0x20 :=
  ⟨h.1, h.2.1, Nat.not_lt.mpr h.2.2⟩

namespace Reader

variable {α : Type}

/-! ## One character at a time -/

section Items

variable (onPlain : Char → α) (onEscape : Reader α) (seen : List α)

theorem runString_quote (rest : List Char) :
    runString onPlain onEscape seen ('"' :: rest) = .ok (seen.reverse, rest) := by
  rw [runString]
  exact if_pos rfl

theorem runString_plain {c : Char} (h : IsPlain c) (rest : List Char) :
    runString onPlain onEscape seen (c :: rest) =
      runString onPlain onEscape (onPlain c :: seen) rest := by
  obtain ⟨hquote, hslash, hcontrol⟩ := h.not_special
  rw [runString, if_neg hquote, if_neg hslash, if_neg hcontrol]

/-- What stands behind a backslash is read as an escape. -/
theorem runString_escape_of_ok {rest rest' : List Char} {a : α}
    (h : onEscape.run rest = .ok (a, rest')) :
    runString onPlain onEscape seen ('\\' :: rest) =
      runString onPlain onEscape (a :: seen) rest' := by
  rw [runString, if_neg (by decide), if_pos rfl]
  split
  next hx => rw [h] at hx; cases hx
  next hx => rw [h] at hx; cases hx; rfl

theorem runString_escape_of_error {rest : List Char} {e : DecodeError}
    (h : onEscape.run rest = .error e) :
    runString onPlain onEscape seen ('\\' :: rest) = .error e := by
  rw [runString, if_neg (by decide), if_pos rfl]
  split
  next hx => rw [h] at hx; cases hx; rfl
  next hx => rw [h] at hx; cases hx

end Items

/-- An escape of one character. -/
theorem run_escape_short {c meant : Char} (h : simpleEscape? c = some meant) (numeric : Reader α)
    (simple : Char → α) (rest : List Char) :
    (escape numeric simple).run (c :: rest) = .ok (simple meant, rest) := by
  have hc : c ≠ 'u' := by
    rintro rfl
    cases h
  rw [escape, run_bind_of_ok (run_next _)]
  dsimp only [List.head?_cons, List.tail_cons]
  split
  next heq => cases heq
  next heq => exact absurd (Option.some.inj heq) hc
  next heq =>
    cases heq
    rw [h]
    rfl

theorem run_hexUnit {a b c d : Char} {unit : Nat} (h : hexNumber? [a, b, c, d] = some unit)
    (rest : List Char) : hexUnit.run (a :: b :: c :: d :: rest) = .ok (unit, rest) := by
  simp only [hexUnit, h]

/-! ## Passing over a string -/

theorem run_passEscape_unit {a b c d : Char} {unit : Nat}
    (h : hexNumber? [a, b, c, d] = some unit) (rest : List Char) :
    passEscape.run ('u' :: a :: b :: c :: d :: rest) = .ok ((), rest) :=
  (run_bind_of_ok (run_hexUnit h rest)).trans rfl

theorem run_passString {body : List Char} (h : IsStringBody body) (rest : List Char) :
    passString.run (body ++ '"' :: rest) = .ok ((), rest) := by
  -- By induction on the body, whatever was passed over so far.
  have hitems : ∀ seen : List Unit, ∃ items : List Unit,
      runString (fun _ => ()) passEscape seen (body ++ '"' :: rest) = .ok (items, rest) := by
    induction h with
    | nil => exact fun seen => ⟨_, runString_quote _ _ seen rest⟩
    | plain hc _ ih =>
      intro seen
      obtain ⟨items, hitems⟩ := ih (() :: seen)
      exact ⟨items, (runString_plain _ _ seen hc _).trans hitems⟩
    | short hc _ ih =>
      intro seen
      obtain ⟨items, hitems⟩ := ih (() :: seen)
      exact ⟨items, (runString_escape_of_ok _ _ seen (run_escape_short hc _ _ _)).trans hitems⟩
    | unit hunit _ ih =>
      intro seen
      obtain ⟨items, hitems⟩ := ih (() :: seen)
      exact ⟨items, (runString_escape_of_ok _ _ seen (run_passEscape_unit hunit _)).trans hitems⟩
  obtain ⟨items, hitems⟩ := hitems []
  exact (run_bind_of_ok (x := string _ _) hitems).trans rfl

/-! ## Reading a string -/

section Escapes

variable {a b c d : Char} {unit : Nat} (h : hexNumber? [a, b, c, d] = some unit)
  (rest : List Char)

include h

/-- A code unit that is no surrogate. -/
theorem run_unescape_unit (hlow : isLowSurrogate unit = false)
    (hhigh : isHighSurrogate unit = false) :
    unescape.run ('u' :: a :: b :: c :: d :: rest) = .ok (Char.ofNat unit, rest) := by
  show unicodeEscape.run (a :: b :: c :: d :: rest) = _
  rw [unicodeEscape, run_bind_of_ok (run_hexUnit h rest), hlow, hhigh]
  rfl

/-- A low surrogate does not come first. -/
theorem run_unescape_low (hlow : isLowSurrogate unit = true) :
    unescape.run ('u' :: a :: b :: c :: d :: rest) = .error .surrogateMisplaced := by
  show unicodeEscape.run (a :: b :: c :: d :: rest) = _
  rw [unicodeEscape, run_bind_of_ok (run_hexUnit h rest), hlow]
  rfl

/-- Behind a high surrogate its partner has to follow. -/
theorem run_unescape_high (hhigh : isHighSurrogate unit = true) :
    unescape.run ('u' :: a :: b :: c :: d :: rest) = (do
      pairCharacter '\\'
      pairCharacter 'u'
      let low ← hexUnit
      if isLowSurrogate low then
        pure (Char.ofNat ((unit - 0xD800) * 0x400 + (low - 0xDC00) + 0x10000))
      else fail .surrogateMisplaced : Reader Char).run rest := by
  have hlow : isLowSurrogate unit = false := by
    simp only [isHighSurrogate, isLowSurrogate, Bool.and_eq_true, Bool.and_eq_false_iff,
      decide_eq_true_eq, decide_eq_false_iff_not] at hhigh ⊢
    omega
  show unicodeEscape.run (a :: b :: c :: d :: rest) = _
  rw [unicodeEscape, run_bind_of_ok (run_hexUnit h rest), hlow, hhigh]
  rfl

end Escapes

theorem run_pairCharacter (c : Char) (rest : List Char) :
    (pairCharacter c).run (c :: rest) = .ok ((), rest) := by
  show (if c = c then pure () else fail _ : Reader Unit).run rest = _
  rw [if_pos rfl]
  rfl

theorem run_pairCharacter_of_ne {c d : Char} (h : d ≠ c) (rest : List Char) :
    (pairCharacter c).run (d :: rest) = .error .surrogateUnpaired := by
  show (if d = c then pure () else fail _ : Reader Unit).run rest = _
  rw [if_neg h]
  rfl

/-- A pair of surrogates. -/
theorem run_unescape_pair {a b c d a' b' c' d' : Char} {high low : Nat}
    (h : hexNumber? [a, b, c, d] = some high) (hhigh : isHighSurrogate high = true)
    (h' : hexNumber? [a', b', c', d'] = some low) (hlow : isLowSurrogate low = true)
    (rest : List Char) :
    unescape.run ('u' :: a :: b :: c :: d :: '\\' :: 'u' :: a' :: b' :: c' :: d' :: rest) =
      .ok (Char.ofNat ((high - 0xD800) * 0x400 + (low - 0xDC00) + 0x10000), rest) := by
  rw [run_unescape_high h _ hhigh, run_bind_of_ok (run_pairCharacter _ _),
    run_bind_of_ok (run_pairCharacter _ _), run_bind_of_ok (run_hexUnit h' rest), hlow]
  rfl

/-- A string is read as what it spells. -/
theorem run_stringContent {content body : List Char} (h : Spells content body)
    (rest : List Char) : stringContent.run (body ++ '"' :: rest) = .ok (content, rest) := by
  have hitems : ∀ seen : List Char, runString id unescape seen (body ++ '"' :: rest) =
      .ok (seen.reverse ++ content, rest) := by
    induction h with
    | nil =>
      intro seen
      rw [List.append_nil]
      exact runString_quote _ _ seen rest
    | plain hc _ ih =>
      intro seen
      refine (runString_plain _ _ seen hc _).trans ((ih _).trans ?_)
      rw [List.reverse_cons, List.append_assoc]
      rfl
    | short hc _ ih =>
      intro seen
      refine (runString_escape_of_ok _ _ seen (run_escape_short hc _ _ _)).trans ((ih _).trans ?_)
      rw [List.reverse_cons, List.append_assoc]
      rfl
    | unit hunit hlow hhigh _ ih =>
      intro seen
      refine (runString_escape_of_ok _ _ seen (run_unescape_unit hunit _ hlow hhigh)).trans
        ((ih _).trans ?_)
      rw [List.reverse_cons, List.append_assoc]
      rfl
    | pair hunit hhigh hunit' hlow _ ih =>
      intro seen
      refine (runString_escape_of_ok _ _ seen (run_unescape_pair hunit hhigh hunit' hlow _)).trans
        ((ih _).trans ?_)
      rw [List.reverse_cons, List.append_assoc]
      rfl
  exact hitems []

/-- An escape inside a string is refused, or read together with the part of the string
that belongs to it. Both are settled inside the string. -/
theorem run_unescape_cases {body : List Char} (h : IsStringBody ('\\' :: body)) :
    (∃ e, ∀ rest, unescape.run (body ++ '"' :: rest) = .error e)
      ∨ ∃ c body', IsStringBody body' ∧ body'.length < body.length ∧
        ∀ rest, unescape.run (body ++ '"' :: rest) = .ok (c, body' ++ '"' :: rest) := by
  cases h with
  | plain hc => exact absurd rfl hc.2.1
  | @short c meant body hc h =>
    exact .inr ⟨meant, body, h, Nat.lt_succ_self _, fun rest => run_escape_short hc _ _ _⟩
  | @unit a b c d unit body hunit h =>
    have hlength : body.length < ('u' :: a :: b :: c :: d :: body).length := by
      simp only [List.length_cons]
      omega
    cases hlow : isLowSurrogate unit with
    | true => exact .inl ⟨_, fun rest => run_unescape_low hunit _ hlow⟩
    | false =>
      cases hhigh : isHighSurrogate unit with
      | false =>
        exact .inr ⟨_, body, h, hlength, fun rest => run_unescape_unit hunit _ hlow hhigh⟩
      | true =>
        -- What stands behind a high surrogate decides, be it the closing quotation mark.
        have hrun := fun rest => run_unescape_high hunit (body ++ '"' :: rest) hhigh
        cases h with
        | nil =>
          refine .inl ⟨.surrogateUnpaired, fun rest => (hrun rest).trans ?_⟩
          exact run_bind_of_error (run_pairCharacter_of_ne (by decide) _)
        | plain hc =>
          refine .inl ⟨.surrogateUnpaired, fun rest => (hrun rest).trans ?_⟩
          exact run_bind_of_error (run_pairCharacter_of_ne hc.2.1 _)
        | @short c' _ _ hc =>
          have hne : c' ≠ 'u' := by
            rintro rfl
            cases hc
          refine .inl ⟨.surrogateUnpaired, fun rest => (hrun rest).trans ?_⟩
          refine (run_bind_of_ok (run_pairCharacter _ _)).trans ?_
          exact run_bind_of_error (run_pairCharacter_of_ne hne _)
        | @unit a' b' c' d' unit' body' hunit' h' =>
          have hrun' := fun rest => (hrun rest).trans
            ((run_bind_of_ok (run_pairCharacter _ _)).trans
              ((run_bind_of_ok (run_pairCharacter _ _)).trans
                (run_bind_of_ok (run_hexUnit hunit' (body' ++ '"' :: rest)))))
          cases hlow' : isLowSurrogate unit' with
          | true =>
            refine .inr ⟨_, body', h', ?_, fun rest => run_unescape_pair hunit hhigh hunit' hlow' _⟩
            simp only [List.length_cons]
            omega
          | false =>
            refine .inl ⟨.surrogateMisplaced, fun rest => (hrun' rest).trans ?_⟩
            rw [hlow']
            rfl

/-- A string is read or refused for what it holds: it makes no difference what stands
behind its closing quotation mark. -/
theorem exists_run_stringContent {body : List Char} (h : IsStringBody body) :
    ∃ out : Except DecodeError (List Char), ∀ rest,
      stringContent.run (body ++ '"' :: rest) = out.map (·, rest) := by
  -- By induction on the length, since an escape may take more than one item.
  suffices hitems : ∀ (n : Nat) {body : List Char}, body.length ≤ n → IsStringBody body →
      ∀ seen : List Char, ∃ out : Except DecodeError (List Char), ∀ rest,
        runString id unescape seen (body ++ '"' :: rest) = out.map (·, rest) from
    hitems _ (Nat.le_refl _) h []
  intro n
  induction n with
  | zero =>
    intro body hlength _ seen
    rw [List.eq_nil_of_length_eq_zero (Nat.le_zero.mp hlength)]
    exact ⟨.ok seen.reverse, runString_quote _ _ seen⟩
  | succ n ih =>
    intro body hlength h seen
    have hescape : ∀ {body : List Char}, body.length ≤ n → IsStringBody ('\\' :: body) →
        ∃ out : Except DecodeError (List Char), ∀ rest,
          runString id unescape seen ('\\' :: (body ++ '"' :: rest)) = out.map (·, rest) := by
      intro body hlength h
      rcases run_unescape_cases h with ⟨e, he⟩ | ⟨c, body', h', hshorter, hc⟩
      · exact ⟨.error e, fun rest => runString_escape_of_error _ _ seen (he rest)⟩
      · obtain ⟨out, hout⟩ := ih (by omega) h' (c :: seen)
        exact ⟨out, fun rest => (runString_escape_of_ok _ _ seen (hc rest)).trans (hout rest)⟩
    cases h with
    | nil => exact ⟨.ok seen.reverse, runString_quote _ _ seen⟩
    | plain hc h =>
      obtain ⟨out, hout⟩ := ih (Nat.le_of_succ_le_succ hlength) h (_ :: seen)
      exact ⟨out, fun rest => (runString_plain _ _ seen hc _).trans (hout rest)⟩
    | short hc h => exact hescape (Nat.le_of_succ_le_succ hlength) (.short hc h)
    | unit hunit h => exact hescape (Nat.le_of_succ_le_succ hlength) (.unit hunit h)

end Reader

/-! ## What is written -/

theorem Spells.append {content body content' body' : List Char} (h : Spells content body)
    (h' : Spells content' body') : Spells (content ++ content') (body ++ body') := by
  induction h with
  | nil => exact h'
  | plain hc _ ih => exact .plain hc ih
  | short hc _ ih => exact .short hc ih
  | unit hunit hlow hhigh _ ih => exact .unit hunit hlow hhigh ih
  | pair hunit hhigh hunit' hlow _ ih => exact .pair hunit hhigh hunit' hlow ih

/-- Control characters are written with their number. -/
theorem hexNumber_control : ∀ n < 0x20,
    hexNumber? ['0', '0', Nat.digitChar (n / 16), Nat.digitChar (n % 16)] = some n := by
  decide

theorem spells_escapeChar (c : Char) : Spells [c] (escapeChar c) := by
  unfold escapeChar
  split
  case h_1 | h_2 | h_3 | h_4 | h_5 | h_6 | h_7 => exact .short rfl .nil
  case h_8 hquote hslash _ _ _ _ _ =>
    split
    next hcontrol =>
      have hlow : isLowSurrogate c.toNat = false := by
        simp only [isLowSurrogate, Bool.and_eq_false_iff, decide_eq_false_iff_not]
        omega
      have hhigh : isHighSurrogate c.toNat = false := by
        simp only [isHighSurrogate, Bool.and_eq_false_iff, decide_eq_false_iff_not]
        omega
      have hspells := Spells.unit (hexNumber_control c.toNat hcontrol) hlow hhigh .nil
      rwa [Char.ofNat_toNat] at hspells
    next hcontrol => exact .plain ⟨hquote, hslash, Nat.not_lt.mp hcontrol⟩ .nil

/-- What is written between quotation marks spells what it was written from. -/
theorem spells_escape (content : List Char) : Spells content (content.flatMap escapeChar) := by
  induction content with
  | nil => exact .nil
  | cons c content ih =>
    rw [List.flatMap_cons]
    exact (spells_escapeChar c).append ih

end BoardHealth.Json
