import BoardHealth.Proofs.Json.Scalars

/-!
# Numbers as they are written

What is written for a number is a numeral of JSON: an integer is its digits
(`isNumeral_toDigits`), which stand for it (`value_toDigits`), and a finite number in
single precision is the digits of its shortest decimal with a point or an exponent
(`isNumeral_text`). That no zero stands in front rests on `shortest_coefficient_ne_zero`:
zero is the only number whose shortest decimal is zero.
-/

namespace BoardHealth

/-! ## Shortest decimals -/

namespace Format

/-- Only rank 0 stands for no units. -/
theorem units_pos (F : Format) {rank : Nat} (h : 0 < rank) : 0 < F.units rank := by
  have hrun : 0 < 2 ^ F.fractionBits := Nat.two_pow_pos _
  rw [units]
  split
  next hzero =>
    have hdiv := Nat.div_add_mod rank (2 ^ F.fractionBits)
    rw [hzero, Nat.mul_zero, Nat.zero_add] at hdiv
    omega
  next => exact Nat.mul_pos (by omega) (Nat.two_pow_pos _)

end Format

namespace Magnitude

variable {F : Format} {m : Magnitude F}

/-- What rounds to a number lies between the two midpoints around it. -/
theorem between_of_isRoundedFrom {point : Nat} (h : m.isRoundedFrom point = true) :
    (F.units (m.rank - 1) + F.units m.rank) * 5 ^ F.unitBits ≤ point
      ∧ point ≤ (F.units m.rank + F.units (m.rank + 1)) * 5 ^ F.unitBits := by
  rw [isRoundedFrom] at h
  split at h
  next =>
    rw [Bool.and_eq_true, decide_eq_true_iff, decide_eq_true_iff] at h
    exact h
  next =>
    rw [Bool.and_eq_true, decide_eq_true_iff, decide_eq_true_iff] at h
    exact ⟨Nat.le_of_lt h.1, Nat.le_of_lt h.2⟩

/-- Zero is not what a positive number is rounded from. -/
theorem isRoundedFrom_zero (h : 0 < m.rank) : m.isRoundedFrom 0 = false := by
  have hunits := F.units_pos h
  have hlow : 0 < (F.units (m.rank - 1) + F.units m.rank) * 5 ^ F.unitBits :=
    Nat.mul_pos (by omega) (Nat.pow_pos (by decide))
  refine Bool.eq_false_iff.mpr fun hrounded => ?_
  exact Nat.not_le_of_gt hlow (between_of_isRoundedFrom hrounded).1

theorem searchGrid_ne_zero (tie : Tie) (h : 0 < m.rank) (step : Nat) :
    (searchGrid tie m step).1 ≠ 0 := by
  induction step with
  | zero => exact Nat.ne_of_gt (Nat.mul_pos (F.units_pos h) (Nat.pow_pos (by decide)))
  | succ step ih =>
    rw [searchGrid]
    generalize doubledDecimal F m.units / (2 * 10 ^ (step + 1)) = below
    -- A point that rounds to the number is not zero.
    have hbelow : m.isRoundedFrom (below * (2 * 10 ^ (step + 1))) = true → below ≠ 0 := by
      rintro hrounded rfl
      rw [Nat.zero_mul, isRoundedFrom_zero h] at hrounded
      cases hrounded
    dsimp only
    split
    next => exact ih
    next hrounded _ => exact hbelow hrounded
    next => exact Nat.succ_ne_zero _
    next hrounded _ =>
      have hpos := hbelow hrounded
      split
      next => exact hpos
      next =>
        split
        next => exact Nat.succ_ne_zero _
        next => cases tie <;> simp only [Tie.resolve] <;> omega

/-- Zero is the only number whose shortest decimal is zero. -/
theorem shortest_coefficient_ne_zero (tie : Tie) (h : m.rank ≠ 0) :
    (m.shortest tie).coefficient ≠ 0 := by
  rw [shortest, if_neg h]
  exact searchGrid_ne_zero tie (Nat.pos_of_ne_zero h) _

end Magnitude

namespace Json

/-! ## Digits -/

theorem isDigits_toDigits (n : Nat) : IsDigits (Nat.toDigits 10 n) :=
  ⟨Nat.toDigits_ne_nil, fun _ hc => Nat.isDigit_of_mem_toDigits (by decide) (by decide) hc⟩

theorem digitsValue_toDigits (n : Nat) : digitsValue (Nat.toDigits 10 n) = n := by
  have hvalue := Nat.ofDigitChars_toDigits (b := 10) (n := n) (by decide) (by decide)
  have hstep : (fun (n : Nat) c => n * 10 + digitValue c) =
      fun n c => 10 * n + (c.toNat - '0'.toNat) := by
    funext n c
    rw [Nat.mul_comm, digitValue]
  rwa [Nat.ofDigitChars_eq_foldl, ← hstep] at hvalue

/-- No zero stands in front of the digits of a positive number. -/
theorem head_toDigits {n : Nat} (h : n ≠ 0) : (Nat.toDigits 10 n).head? ≠ some '0' := by
  induction n using Nat.strongRecOn with
  | ind n ih =>
    rw [Nat.toDigits_eq_if (by decide)]
    split
    next =>
      intro hhead
      exact h (Nat.digitChar_eq_zero.mp (Option.some.inj hhead))
    next hlarge =>
      have hhead := ih (n / 10) (by omega) (by omega)
      obtain ⟨d, ds, hd⟩ := List.exists_cons_of_ne_nil (Nat.toDigits_ne_nil (n := n / 10) (b := 10))
      rw [hd] at hhead ⊢
      exact hhead

theorem head_toDigits_eq_zero {n : Nat} (h : (Nat.toDigits 10 n).head? = some '0') :
    Nat.toDigits 10 n = ['0'] := by
  by_cases hn : n = 0
  · rw [hn]
    rfl
  · exact absurd h (head_toDigits hn)

/-! ## Integers -/

/-- What is written for an integer. -/
def wordNumeral (n : Nat) : Numeral := ⟨false, Nat.toDigits 10 n, [], none⟩

theorem isNumeral_toDigits (n : Nat) : IsNumeral (wordNumeral n) (Nat.toDigits 10 n) := by
  have hnumeral := IsNumeral.intro (n := wordNumeral n) (isDigits_toDigits n)
    head_toDigits_eq_zero nofun .absent
  simpa only [wordNumeral, Bool.false_eq_true, if_false, if_true, List.nil_append,
    List.append_nil] using hnumeral

/-- An integer of 64 bits is what is written for it. -/
theorem value_wordNumeral {n : Nat} (h : n < UInt64.size) :
    (wordNumeral n).value = .ok (.integer n) := by
  have hinteger : (wordNumeral n).integer? = some (n : Int) := by
    rw [Numeral.integer?, wordNumeral, if_pos ⟨rfl, rfl⟩]
    dsimp only
    rw [digitsValue_toDigits, if_neg Bool.false_ne_true, if_pos h]
  rw [Numeral.value, hinteger]

/-! ## Numbers in single precision -/

theorem IsNumeral.neg {n : Numeral} {text : List Char} (h : IsNumeral n text)
    (hn : n.negative = false) : IsNumeral { n with negative := true } ('-' :: text) := by
  obtain ⟨hwhole, hzero, hfraction, hexponent⟩ := h
  rw [hn]
  exact .intro (n := { n with negative := true }) hwhole hzero hfraction hexponent

/-- Digits on both sides of a point. -/
theorem IsNumeral.fraction {whole fraction : List Char} (hwhole : IsDigits whole)
    (hzero : whole.head? = some '0' → whole = ['0']) (hfraction : IsDigits fraction) :
    IsNumeral ⟨false, whole, fraction, none⟩ (whole ++ '.' :: fraction) := by
  have hnumeral := IsNumeral.intro (n := ⟨false, whole, fraction, none⟩) hwhole hzero
    hfraction.2 .absent
  simpa only [hfraction.1, Bool.false_eq_true, if_false, List.nil_append,
    List.append_nil] using hnumeral

theorem isDigits_append {ds ds' : List Char} (h : ∀ c ∈ ds, c.isDigit = true)
    (h' : IsDigits ds') : IsDigits (ds ++ ds') := by
  refine ⟨List.append_ne_nil_of_right_ne_nil _ h'.1, fun c hc => ?_⟩
  rcases List.mem_append.mp hc with hc | hc
  · exact h c hc
  · exact h'.2 c hc

theorem isDigit_of_mem_replicate {c : Char} {k : Nat} (h : c ∈ List.replicate k '0') :
    c.isDigit = true := by
  rw [List.eq_of_mem_replicate h]
  rfl

/-- What is written without an exponent. -/
theorem exists_isNumeral_positional {digits : List Char} {exponent : Int} (h : IsDigits digits)
    (hzero : digits.head? = some '0' → digits = ['0'] ∧ exponent = 0) :
    ∃ n, n.negative = false ∧ IsNumeral n (singleLayout.writePositional digits exponent) := by
  have hzeroDigit : IsDigits ['0'] := .of_all (List.cons_ne_nil _ _) rfl
  obtain ⟨d, ds, rfl⟩ := List.exists_cons_of_ne_nil h.1
  rw [DecimalLayout.writePositional]
  split
  next hexponent =>
    refine ⟨_, rfl, IsNumeral.fraction ⟨List.cons_ne_nil _ _, ?_⟩ ?_ hzeroDigit⟩
    · intro c hc
      rcases List.mem_append.mp hc with hc | hc
      · exact h.2 c hc
      · exact isDigit_of_mem_replicate hc
    · intro hhead
      obtain ⟨hdigits, rfl⟩ := hzero hhead
      rw [hdigits]
      rfl
  next hexponent =>
    split
    next hleading =>
      -- The point stands between two digits.
      obtain ⟨k, hk⟩ : ∃ k : Nat, (((d :: ds).length : Int) + exponent).toNat = k + 1 :=
        ⟨_, (Nat.succ_pred_eq_of_pos (by omega)).symm⟩
      have hshort : k < ds.length := by
        rw [List.length_cons] at hk
        omega
      rw [hk, List.take_succ_cons, List.drop_succ_cons]
      refine ⟨_, rfl, IsNumeral.fraction ⟨List.cons_ne_nil _ _, ?_⟩ ?_ ⟨?_, ?_⟩⟩
      · intro c hc
        refine h.2 c ?_
        rcases List.mem_cons.mp hc with rfl | hc
        · exact List.mem_cons_self ..
        · exact List.mem_cons_of_mem _ (List.mem_of_mem_take hc)
      · intro hhead
        obtain ⟨-, rfl⟩ := hzero hhead
        omega
      · intro hnil
        have hlength := congrArg List.length hnil
        rw [List.length_drop, List.length_nil] at hlength
        omega
      · intro c hc
        exact h.2 c (List.mem_cons_of_mem _ (List.mem_of_mem_drop hc))
    next hleading =>
      exact ⟨_, rfl, IsNumeral.fraction hzeroDigit (fun _ => rfl)
        (isDigits_append (fun _ => isDigit_of_mem_replicate) h)⟩

/-- What is written with an exponent. -/
theorem exists_isNumeral_scientific {digits : List Char} (h : IsDigits digits) (first : Int) :
    ∃ n, n.negative = false ∧ IsNumeral n (DecimalLayout.writeScientific digits first) := by
  obtain ⟨d, ds, rfl⟩ := List.exists_cons_of_ne_nil h.1
  have hfirst : IsDigits [d] := by
    refine ⟨List.cons_ne_nil _ _, fun c hc => ?_⟩
    rw [List.mem_singleton.mp hc]
    exact h.2 d (List.mem_cons_self ..)
  obtain ⟨exponent, hexponent⟩ : ∃ exponent, IsExponent exponent
      ('e' :: (if first < 0 then '-' else '+') :: Nat.toDigits 10 first.natAbs) := by
    split
    next => exact ⟨_, .present (.inl rfl) (.inr (.inr rfl)) (isDigits_toDigits _)⟩
    next => exact ⟨_, .present (.inl rfl) (.inr (.inl rfl)) (isDigits_toDigits _)⟩
  have hnumeral := IsNumeral.intro (n := ⟨false, [d], ds, exponent⟩) hfirst
    (fun hzero => congrArg (fun c => [c]) (Option.some.inj hzero))
    (fun c hc => h.2 c (List.mem_cons_of_mem _ hc)) hexponent
  refine ⟨⟨false, [d], ds, exponent⟩, rfl, ?_⟩
  cases ds with
  | nil => exact hnumeral
  | cons e es => exact hnumeral

/-- A decimal that is not written as zero unless it is zero. -/
theorem exists_isNumeral_write {d : Decimal} (h : d.coefficient = 0 → d.exponent = 0) :
    ∃ n, n.negative = false ∧ IsNumeral n (singleLayout.write d) := by
  rw [DecimalLayout.write]
  split
  next =>
    refine exists_isNumeral_positional (isDigits_toDigits _) fun hzero => ?_
    refine ⟨head_toDigits_eq_zero hzero, h (Classical.byContradiction fun hne => ?_)⟩
    exact head_toDigits hne hzero
  next => exact exists_isNumeral_scientific (isDigits_toDigits _) _

/-- What is written for a finite number is a numeral. -/
theorem exists_isNumeral_text {x : Single} (h : x.isFinite = true) :
    ∃ n, IsNumeral n (x.text singleLayout) := by
  cases x with
  | nan => cases h
  | signed negative m =>
    have hfinite : m.isFinite = true := h
    have hshortest : (m.shortest singleLayout.tie).coefficient = 0 →
        (m.shortest singleLayout.tie).exponent = 0 := by
      intro hzero
      by_cases hrank : m.rank = 0
      · rw [Magnitude.shortest, if_pos hrank]
      · exact absurd hzero (Magnitude.shortest_coefficient_ne_zero _ hrank)
    obtain ⟨n, hpositive, hn⟩ := exists_isNumeral_write hshortest
    rw [Binary.text, if_pos hfinite]
    cases negative with
    | false => exact ⟨n, hn⟩
    | true => exact ⟨_, hn.neg hpositive⟩

end Json

end BoardHealth
