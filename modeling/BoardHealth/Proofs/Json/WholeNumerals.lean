import BoardHealth.Proofs.Json.Written
import BoardHealth.Proofs.WholeNumbers

/-!
# Whole numbers as they are written

The search for the shortest decimal goes from coarse grids to fine ones. It stops at the
latest where the number is a point of the grid (`isRoundedFrom_searchGrid`), which for a
whole number is the grid of the whole numbers, and the only whole number that rounds to
it there is the number itself (`eq_of_isRoundedFrom_ofNat`). So a whole number is written
as its digits and a zero behind the point, whatever zeros it ends in (`text_ofNat`). The
reader makes ten times the number of them and then a tenth of that in double precision,
where both are exact (`scaleByTen_tenfold`). In the end

> `readsBack_ofNat`: a whole number of single precision is read back from its text.
-/

namespace BoardHealth

/-! ## The shortest decimal -/

namespace Magnitude

variable {F : Format} {m : Magnitude F}

/-- A positive number lies between the two midpoints around it. -/
theorem isRoundedFrom_self (h : 0 < m.rank) :
    m.isRoundedFrom (doubledDecimal F m.units) = true := by
  have hscale : 0 < 5 ^ F.unitBits := Nat.pow_pos (by decide)
  have hlow : (F.units (m.rank - 1) + F.units m.rank) * 5 ^ F.unitBits <
      2 * F.units m.rank * 5 ^ F.unitBits := by
    have hbefore := F.units_lt_units.mpr (Nat.sub_lt h Nat.one_pos)
    exact Nat.mul_lt_mul_of_pos_right (by omega) hscale
  have hhigh : 2 * F.units m.rank * 5 ^ F.unitBits <
      (F.units m.rank + F.units (m.rank + 1)) * 5 ^ F.unitBits := by
    have hafter := F.units_lt_succ m.rank
    exact Nat.mul_lt_mul_of_pos_right (by omega) hscale
  rw [isRoundedFrom, doubledDecimal, units]
  split
  next => rw [decide_eq_true hlow.le, decide_eq_true hhigh.le, Bool.and_self]
  next => rw [decide_eq_true hlow, decide_eq_true hhigh, Bool.and_self]

/-- The search finds a point that rounds to the number, on no finer a grid than one that
the number is a point of. -/
theorem isRoundedFrom_searchGrid (tie : Tie) (hpos : 0 < m.rank) {point grid step : Nat}
    (hpoint : doubledDecimal F m.units = point * (2 * 10 ^ grid)) (hstep : grid ≤ step) :
    grid ≤ (searchGrid tie m step).2 ∧ m.isRoundedFrom
      ((searchGrid tie m step).1 * (2 * 10 ^ (searchGrid tie m step).2)) = true := by
  induction step with
  | zero =>
    refine ⟨hstep, ?_⟩
    have hself := isRoundedFrom_self hpos
    rw [doubledDecimal, Nat.mul_assoc, Nat.mul_comm] at hself
    exact hself
  | succ step ih =>
    -- On the grid that the number is a point of, the search looks at this point.
    have hfine : m.isRoundedFrom (doubledDecimal F m.units / (2 * 10 ^ (step + 1))
        * (2 * 10 ^ (step + 1))) = false → grid ≤ step := by
      intro hmissed
      refine Nat.le_of_lt_succ (Nat.lt_of_le_of_ne hstep ?_)
      rintro rfl
      rw [hpoint, Nat.mul_div_cancel _ (Nat.mul_pos Nat.two_pos (Nat.pow_pos (by decide))),
        ← hpoint, isRoundedFrom_self hpos] at hmissed
      cases hmissed
    rw [searchGrid]
    dsimp only
    generalize doubledDecimal F m.units / (2 * 10 ^ (step + 1)) = below at hfine ⊢
    split
    next hmissed _ => exact ih (hfine hmissed)
    next hrounded _ => exact ⟨hstep, hrounded⟩
    next _ hrounded => exact ⟨hstep, hrounded⟩
    next hbelow habove =>
      refine ⟨hstep, ?_⟩
      dsimp only
      split
      next => exact hbelow
      next =>
        split
        next => exact habove
        next =>
          cases tie with
          | up => exact habove
          | toEven =>
            rcases Nat.mod_two_eq_zero_or_one below with heven | hodd
            · rw [Tie.resolve, heven]
              exact hbelow
            · rw [Tie.resolve, hodd]
              exact habove

section Whole

open Format (single)

variable {n : Nat}

theorem rank_ofNat_pos (hn : n < 2 ^ 24) (hpos : 0 < n) : 0 < (ofNat n : Magnitude single).rank :=
  Nat.lt_of_le_of_lt (Nat.zero_le _) ((rank_ofNat_lt (by decide) hn).mpr hpos)

/-- The only whole number that rounds to a whole number is this number: the midpoints
around it are not further than half of one away. -/
theorem eq_of_isRoundedFrom_ofNat {d : Nat} (hn : n + 1 < 2 ^ 24) (hpos : 0 < n)
    (h : (ofNat n : Magnitude single).isRoundedFrom (d * (2 * 10 ^ single.unitBits)) = true) :
    d = n := by
  have hscale : 0 < 10 ^ single.unitBits := Nat.pow_pos (by decide)
  have hten : 10 ^ single.unitBits = 2 ^ single.unitBits * 5 ^ single.unitBits :=
    Nat.mul_pow 2 5 _
  have hunits : single.units (ofNat n : Magnitude single).rank = n * 2 ^ single.unitBits :=
    units_ofNat (by omega)
  have hbefore : (n - 1) * 2 ^ single.unitBits ≤
      single.units ((ofNat n : Magnitude single).rank - 1) := by
    rw [← units_ofNat (by omega), units, Format.units_le_units]
    exact Nat.le_sub_one_of_lt ((rank_ofNat_lt (by omega) (by omega)).mpr (by omega))
  have hafter : single.units ((ofNat n : Magnitude single).rank + 1) ≤
      (n + 1) * 2 ^ single.unitBits := by
    rw [← units_ofNat hn, units, Format.units_le_units]
    exact (rank_ofNat_lt (by omega) hn).mpr (by omega)
  obtain ⟨hlow, hhigh⟩ := between_of_isRoundedFrom h
  rw [hunits] at hlow hhigh
  have hbelow : (n - 1 + n) * 10 ^ single.unitBits ≤ d * 2 * 10 ^ single.unitBits :=
    calc (n - 1 + n) * 10 ^ single.unitBits
        = ((n - 1) * 2 ^ single.unitBits + n * 2 ^ single.unitBits) * 5 ^ single.unitBits := by
          rw [hten, ← Nat.mul_assoc, Nat.add_mul (n - 1)]
      _ ≤ _ := Nat.mul_le_mul_right _ (Nat.add_le_add_right hbefore _)
      _ ≤ d * (2 * 10 ^ single.unitBits) := hlow
      _ = d * 2 * 10 ^ single.unitBits := (Nat.mul_assoc ..).symm
  have habove : d * 2 * 10 ^ single.unitBits ≤ (n + (n + 1)) * 10 ^ single.unitBits :=
    calc d * 2 * 10 ^ single.unitBits
        = d * (2 * 10 ^ single.unitBits) := Nat.mul_assoc ..
      _ ≤ _ := hhigh
      _ ≤ (n * 2 ^ single.unitBits + (n + 1) * 2 ^ single.unitBits) * 5 ^ single.unitBits :=
          Nat.mul_le_mul_right _ (Nat.add_le_add_left hafter _)
      _ = (n + (n + 1)) * 10 ^ single.unitBits := by
          rw [hten, ← Nat.mul_assoc, Nat.add_mul n (n + 1)]
  have hleast := Nat.le_of_mul_le_mul_right hbelow hscale
  have hmost := Nat.le_of_mul_le_mul_right habove hscale
  omega

/-- The search for a whole number begins beyond the grid of the whole numbers. -/
theorem unitBits_le_start (hn : n < 2 ^ 24) (hpos : 0 < n) :
    single.unitBits ≤
      ((ofNat n : Magnitude single).units * 5 ^ single.unitBits).log2 / 3 + 1 := by
  have hlarge : 2 ^ (3 * single.unitBits) ≤
      (ofNat n : Magnitude single).units * 5 ^ single.unitBits :=
    calc 2 ^ (3 * single.unitBits)
        = 8 ^ single.unitBits := Nat.pow_mul 2 3 _
      _ ≤ 10 ^ single.unitBits := Nat.pow_le_pow_left (by decide) _
      _ ≤ n * 10 ^ single.unitBits := Nat.le_mul_of_pos_left _ hpos
      _ = n * 2 ^ single.unitBits * 5 ^ single.unitBits := by
          rw [Nat.mul_assoc, ← Nat.mul_pow]
      _ = _ := by rw [units_ofNat hn]
  have hlog := (Nat.le_log2 (Nat.lt_of_lt_of_le (Nat.two_pow_pos _) hlarge).ne').mpr hlarge
  omega

/-- The shortest decimal of a whole number is the number itself, with its last zeros in the
exponent. -/
theorem shortest_ofNat (tie : Tie) (hn : n + 1 < 2 ^ 24) (hpos : 0 < n) :
    ∃ c e : Nat, (ofNat n : Magnitude single).shortest tie = ⟨c, e⟩ ∧ c * 10 ^ e = n := by
  have hrank := rank_ofNat_pos (by omega) hpos
  have hpoint : doubledDecimal single (ofNat n : Magnitude single).units =
      n * (2 * 10 ^ single.unitBits) :=
    calc 2 * (ofNat n : Magnitude single).units * 5 ^ single.unitBits
        = 2 * (n * 2 ^ single.unitBits) * 5 ^ single.unitBits := by rw [units_ofNat (by omega)]
      _ = n * (2 * (2 ^ single.unitBits * 5 ^ single.unitBits)) := by ac_rfl
      _ = n * (2 * 10 ^ single.unitBits) := by rw [← Nat.mul_pow]
  obtain ⟨hgrid, hrounded⟩ :=
    isRoundedFrom_searchGrid tie hrank hpoint (unitBits_le_start (by omega) hpos)
  rw [shortest, if_neg hrank.ne']
  generalize searchGrid tie (ofNat n : Magnitude single) _ = found at hgrid hrounded ⊢
  obtain ⟨coefficient, step⟩ := found
  obtain ⟨e, rfl⟩ := Nat.exists_eq_add_of_le hgrid
  refine ⟨coefficient, e, ?_, eq_of_isRoundedFrom_ofNat hn hpos ?_⟩
  · have hexponent : ((single.unitBits + e : Nat) : Int) - single.unitBits = e := by omega
    exact congrArg (Decimal.mk coefficient) hexponent
  · have hsame : coefficient * 10 ^ e * (2 * 10 ^ single.unitBits) =
        coefficient * (2 * 10 ^ (single.unitBits + e)) := by
      rw [Nat.pow_add]
      ac_rfl
    rw [hsame]
    exact hrounded

end Whole

end Magnitude

namespace Json

open Format (single double)

variable {n : Nat}

/-! ## The text -/

/-- The digits of a number times a power of ten. -/
theorem toDigits_mul_pow {c : Nat} (hc : 0 < c) (e : Nat) :
    Nat.toDigits 10 (c * 10 ^ e) = Nat.toDigits 10 c ++ List.replicate e '0' := by
  induction e with
  | zero => rw [Nat.pow_zero, Nat.mul_one, List.replicate_zero, List.append_nil]
  | succ e ih =>
    have hpos : 0 < c * 10 ^ e := Nat.mul_pos hc (Nat.pow_pos (by decide))
    have hzero : c * 10 ^ (e + 1) = 10 * (c * 10 ^ e) + 0 := by
      rw [Nat.pow_succ, ← Nat.mul_assoc]
      omega
    rw [hzero, ← Nat.toDigits_append_toDigits (by decide) hpos (by decide), ih,
      List.append_assoc, List.replicate_succ', Nat.toDigits_zero]

/-- Whole numbers of up to thirteen digits are written in full. -/
theorem write_whole {c e : Nat} (hc : 0 < c) (hsmall : c * 10 ^ e < 10 ^ 13) :
    singleLayout.write ⟨c, e⟩ = Nat.toDigits 10 (c * 10 ^ e) ++ ['.', '0'] := by
  have hdigits := toDigits_mul_pow hc e
  have hlength : (Nat.toDigits 10 c).length + e ≤ 13 := by
    rw [← Nat.length_toDigits_le_iff (by decide) (by decide), hdigits, List.length_append,
      List.length_replicate] at hsmall
    exact hsmall
  have hpositional :
      singleLayout.positional ((Nat.toDigits 10 c).length - 1 + (e : Int)) = true := by
    have hsome := Nat.length_toDigits_pos (b := 10) (n := c)
    show (decide _ && decide _) = true
    rw [decide_eq_true (by omega), decide_eq_true (by omega), Bool.and_self]
  rw [DecimalLayout.write]
  dsimp only
  rw [if_pos hpositional, DecimalLayout.writePositional, if_pos (Int.natCast_nonneg e), hdigits]
  rfl

/-- A whole number is written as its digits and a zero behind the point. -/
theorem text_ofNat (hn : n + 1 < 2 ^ 24) :
    (Binary.ofNat n : Single).text singleLayout = Nat.toDigits 10 n ++ ['.', '0'] := by
  have hfinite := Magnitude.isFinite_ofNat (n := n) (by omega)
  rw [Binary.ofNat, Binary.text, if_pos hfinite, if_neg Bool.false_ne_true]
  rcases Nat.eq_zero_or_pos n with rfl | hpos
  · have hrank : (Magnitude.ofNat 0 : Magnitude single).rank = 0 := by decide
    rw [Magnitude.shortest, if_pos hrank]
    rfl
  · obtain ⟨c, e, hshortest, rfl⟩ := Magnitude.shortest_ofNat singleLayout.tie hn hpos
    rw [hshortest]
    exact write_whole (Nat.pos_of_mul_pos_right hpos) (by omega)

/-! ## The value -/

/-- What is written for a whole number. -/
def wholeNumeral (n : Nat) : Numeral := ⟨false, Nat.toDigits 10 n, ['0'], none⟩

theorem isNumeral_wholeNumeral (n : Nat) :
    IsNumeral (wholeNumeral n) (Nat.toDigits 10 n ++ ['.', '0']) :=
  .fraction (isDigits_toDigits n) head_toDigits_eq_zero (.of_all (List.cons_ne_nil _ _) rfl)

/-- Digits are kept as long as they make a number of 64 bits. -/
theorem absorb_eq {ds : List Char} {kept : Nat}
    (h : ds.foldl (fun n c => n * 10 + digitValue c) kept < UInt64.size) :
    absorb kept ds = (ds.foldl (fun n c => n * 10 + digitValue c) kept, []) := by
  induction ds generalizing kept with
  | nil => rfl
  | cons d ds ih =>
    have hlonger : kept * 10 + digitValue d < UInt64.size :=
      Nat.lt_of_le_of_lt (le_foldl_digits ds _) h
    rw [absorb, if_pos hlonger]
    exact ih h

/-- A tenth of ten times a number is exact in double precision. -/
theorem scaleByTen_tenfold (hn : n < 2 ^ 24) :
    scaleByTen (.nearest (n * 10) 1) (-1) = some (.ofNat n) := by
  have hroom : double.unitBits + 2 ≤ double.topExponent := by decide
  have hunits : (Magnitude.ofNat (n * 10) : Magnitude double).units =
      n * (10 * 2 ^ double.unitBits) := by
    rw [Magnitude.units_ofNat_of_room hroom, Nat.mul_assoc]
    show n * 10 < 2 ^ 53
    omega
  have hten : (Magnitude.ofNat 10 : Magnitude double).units = 10 * 2 ^ double.unitBits :=
    Magnitude.units_ofNat_of_room hroom (by decide)
  have htenth : (Magnitude.ofNat (n * 10) : Magnitude double).div (.ofNat 10) = .ofNat n := by
    rw [Magnitude.div, hunits, hten]
    refine Magnitude.nearest_mul_eq_ofNat ?_ (Nat.mul_pos (by decide) (Nat.two_pow_pos _))
    show n < 2 ^ 53
    omega
  exact congrArg some htenth

/-- The digits of a whole number and the zero stand for the number in double precision. -/
theorem value_wholeNumeral (hn : n < 2 ^ 24) :
    (wholeNumeral n).value = .ok (.real (.ofNat n)) := by
  have hwhole : absorb 0 (Nat.toDigits 10 n) = (n, []) := by
    have hsmall : digitsValue (Nat.toDigits 10 n) < UInt64.size := by
      rw [digitsValue_toDigits]
      exact Nat.lt_trans hn (by decide)
    have hkept : absorb 0 (Nat.toDigits 10 n) = (digitsValue (Nat.toDigits 10 n), []) :=
      absorb_eq hsmall
    rwa [digitsValue_toDigits] at hkept
  have hfraction : absorb n ['0'] = (n * 10, []) :=
    absorb_eq (Nat.lt_trans (Nat.mul_lt_mul_of_pos_right hn (by decide)) (by decide))
  have hinteger : (wholeNumeral n).integer? = none := by
    rw [Numeral.integer?, if_neg (fun h => List.cons_ne_nil _ _ h.1)]
  have hreal : (wholeNumeral n).real? = some (.ofNat n) := by
    rw [Numeral.real?, wholeNumeral]
    dsimp only
    rw [hwhole]
    dsimp only
    rw [hfraction]
    exact congrArg (Option.map _) (scaleByTen_tenfold hn)
  rw [Numeral.value, hinteger, hreal]

/-- A whole number in double precision is the one in single precision. -/
theorem toSingle_ofNat (hn : n < 2 ^ 24) : (Number.real (.ofNat n)).toSingle = .ofNat n := by
  have hroom : double.unitBits + 2 ≤ double.topExponent := by decide
  have hn' : n < 2 ^ (double.fractionBits + 1) := Nat.lt_trans hn (by decide)
  have hnearest : (Magnitude.nearest (Magnitude.ofNat n : Magnitude double).units
      (2 ^ double.unitBits) : Magnitude single) = .ofNat n := by
    rw [Magnitude.units_ofNat_of_room hroom hn']
    exact Magnitude.nearest_mul_eq_ofNat hn (Nat.two_pow_pos _)
  have hfinite : (Magnitude.ofNat n : Magnitude double).isFinite = true :=
    decide_eq_true (Magnitude.rank_ofNat hroom hn').2
  show (if (Magnitude.ofNat n : Magnitude double).isFinite then _ else _) = _
  rw [if_pos hfinite]
  exact congrArg (Binary.signed false) hnearest

/-- **Whole numbers are read back.** A whole number of single precision is read from its
text as it is. -/
theorem readsBack_ofNat (hn : n + 1 < 2 ^ 24) : ReadsBack (.ofNat n) := by
  intro hfinite
  have htakes := Reader.takes_single (isNumeral_wholeNumeral n)
  rw [value_wholeNumeral (by omega)] at htakes
  rw [decode_text_single hfinite, text_ofNat hn, ← toSingle_ofNat (n := n) (by omega)]
  exact htakes.decode

end Json

end BoardHealth
