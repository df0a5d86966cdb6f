import BoardHealth.Proofs.NumberOrder
import Mathlib.Algebra.Group.Nat.Defs
import Mathlib.Order.Monotone.Basic

/-!
# Whole numbers of single precision

The ranks of a format stand for larger and larger numbers (`units_lt_units`), and
rounding finds a number that is on the grid (`nearest_mul_self`). Whole numbers
below `2 ^ 24` are on the grid of single precision, so they compare as they are,
and what is left when a smaller one is taken off is exact:

> `ofNat_lt_ofNat`, `ofNat_le_ofNat`: order is that of the natural numbers.
> `ofNat_sub_ofNat`: so is subtraction, as long as it stays above zero.
> `isExactly_ofNat`: the number nearest to a whole one is that number.
-/

namespace BoardHealth

namespace Format

variable (F : Format)

/-- The numbers of the first run are counted from zero. -/
theorem units_of_lt {rank : Nat} (h : rank < 2 ^ F.fractionBits) : F.units rank = rank := by
  rw [units, Nat.div_eq_of_lt h, Nat.mod_eq_of_lt h]
  rfl

/-- From the second run on, the numbers of a run are the multiples of a power of two,
the number that the next run begins with included. -/
theorem units_add_mul {q : Nat} (run : Nat) (hlow : 2 ^ F.fractionBits ≤ q)
    (hhigh : q ≤ 2 * 2 ^ F.fractionBits) :
    F.units (q + run * 2 ^ F.fractionBits) = q * 2 ^ run := by
  have hpos : 0 < 2 ^ F.fractionBits := Nat.two_pow_pos _
  have hrun : ∀ {step : Nat} (run : Nat), step < 2 ^ F.fractionBits →
      F.units (step + 2 ^ F.fractionBits * (run + 1)) = (2 ^ F.fractionBits + step) * 2 ^ run := by
    intro step run hstep
    rw [units, Nat.add_mul_div_left _ _ hpos, Nat.add_mul_mod_self_left, Nat.div_eq_of_lt hstep,
      Nat.mod_eq_of_lt hstep, Nat.zero_add, if_neg (Nat.succ_ne_zero run), Nat.add_sub_cancel]
  rcases Nat.lt_or_eq_of_le hhigh with hin | hnext
  · have hrank : q + run * 2 ^ F.fractionBits =
        (q - 2 ^ F.fractionBits) + 2 ^ F.fractionBits * (run + 1) := by
      rw [Nat.mul_succ, Nat.mul_comm run]
      omega
    rw [hrank, hrun run (by omega), Nat.add_sub_cancel' hlow]
  · have hrank : q + run * 2 ^ F.fractionBits = 0 + 2 ^ F.fractionBits * (run + 1 + 1) := by
      rw [hnext, Nat.mul_succ, Nat.mul_succ, Nat.mul_comm run]
      omega
    rw [hrank, hrun (run + 1) hpos, hnext, Nat.add_zero, Nat.pow_succ, Nat.mul_comm 2,
      Nat.mul_assoc, Nat.mul_comm 2]

/-- Infinity takes the place of the next power of two. -/
theorem units_infinityRank (h : 0 < F.topExponent) :
    F.units F.infinityRank = 2 ^ F.fractionBits * 2 ^ (F.topExponent - 1) := by
  have hrank : F.infinityRank = 2 ^ F.fractionBits + (F.topExponent - 1) * 2 ^ F.fractionBits := by
    rw [infinityRank, Nat.sub_mul, Nat.one_mul, Nat.add_sub_cancel' (Nat.le_mul_of_pos_left _ h)]
  rw [hrank, F.units_add_mul _ (Nat.le_refl _) (by omega)]

/-- A rank past the first run has a place in its run. -/
theorem exists_eq_add_mul {rank : Nat} (h : 2 ^ F.fractionBits ≤ rank) :
    ∃ q run, 2 ^ F.fractionBits ≤ q ∧ q < 2 * 2 ^ F.fractionBits
      ∧ rank = q + run * 2 ^ F.fractionBits := by
  have hpos : 0 < 2 ^ F.fractionBits := Nat.two_pow_pos _
  obtain ⟨run, hrun⟩ : ∃ run, rank / 2 ^ F.fractionBits = run + 1 :=
    Nat.exists_eq_succ_of_ne_zero (Nat.div_pos h hpos).ne'
  have hstep := Nat.mod_lt rank hpos
  have hdiv := Nat.mod_add_div rank (2 ^ F.fractionBits)
  rw [hrun, Nat.mul_succ, Nat.mul_comm _ run] at hdiv
  exact ⟨rank % 2 ^ F.fractionBits + 2 ^ F.fractionBits, run, by omega, by omega, by omega⟩

/-- Each rank stands for a larger number than the one before. -/
theorem units_lt_succ (rank : Nat) : F.units rank < F.units (rank + 1) := by
  rcases Nat.lt_or_ge rank (2 ^ F.fractionBits) with hfirst | hlater
  · rw [F.units_of_lt hfirst]
    rcases Nat.lt_or_ge (rank + 1) (2 ^ F.fractionBits) with hsame | hnext
    · rw [F.units_of_lt hsame]
      exact Nat.lt_succ_self rank
    · have hunits := F.units_add_mul 0 hnext (by omega)
      rw [Nat.zero_mul, Nat.add_zero, Nat.pow_zero, Nat.mul_one] at hunits
      rw [hunits]
      exact Nat.lt_succ_self rank
  · obtain ⟨q, run, hlow, hhigh, rfl⟩ := F.exists_eq_add_mul hlater
    rw [Nat.add_right_comm, F.units_add_mul run hlow hhigh.le,
      F.units_add_mul run (Nat.le_succ_of_le hlow) hhigh]
    exact Nat.mul_lt_mul_of_pos_right (Nat.lt_succ_self q) (Nat.two_pow_pos _)

/-- Ranks are in the order of the numbers that they stand for. -/
theorem units_lt_units {r s : Nat} : F.units r < F.units s ↔ r < s :=
  (strictMono_nat_of_lt_succ F.units_lt_succ).lt_iff_lt

theorem units_le_units {r s : Nat} : F.units r ≤ F.units s ↔ r ≤ s :=
  (strictMono_nat_of_lt_succ F.units_lt_succ).le_iff_le

/-- A number of units is on the grid if its last binary digits, those that the
fraction has no room for, are zero. -/
theorem units_rankBelow {n : Nat} (h : 2 ^ (n.log2 - F.fractionBits) ∣ n) :
    F.units (F.rankBelow n) = n := by
  rw [rankBelow]
  rcases Nat.lt_or_ge n (2 ^ F.fractionBits) with hsmall | hlarge
  · -- No digit is left out.
    have hrun : n.log2 - F.fractionBits = 0 := by
      rcases Nat.eq_zero_or_pos n with hzero | hpos
      · rw [hzero, Nat.log2_zero, Nat.zero_sub]
      · exact Nat.sub_eq_zero_of_le ((Nat.log2_lt hpos.ne').mpr hsmall).le
    rw [hrun, Nat.pow_zero, Nat.div_one, Nat.zero_mul, Nat.add_zero]
    exact F.units_of_lt hsmall
  · have hn : n ≠ 0 := (Nat.lt_of_lt_of_le (Nat.two_pow_pos _) hlarge).ne'
    obtain ⟨run, hrun⟩ := Nat.exists_eq_add_of_le ((Nat.le_log2 hn).mpr hlarge)
    have hlow := Nat.log2_self_le hn
    have hhigh := Nat.lt_log2_self (n := n)
    rw [hrun] at hlow hhigh
    rw [hrun, Nat.add_sub_cancel_left] at h ⊢
    obtain ⟨q, rfl⟩ := h
    have hpos : 0 < 2 ^ run := Nat.two_pow_pos run
    rw [Nat.pow_add, Nat.mul_comm (2 ^ run)] at hlow
    rw [Nat.pow_succ, Nat.pow_add, Nat.mul_right_comm, Nat.mul_comm (2 ^ run)] at hhigh
    rw [Nat.mul_div_cancel_left q hpos, F.units_add_mul run (Nat.le_of_mul_le_mul_right hlow hpos),
      Nat.mul_comm]
    have := Nat.lt_of_mul_lt_mul_right hhigh
    omega

/-- Numbers with no more digits than the fraction are on the grid. -/
theorem pow_dvd_of_lt {n : Nat} (h : n < 2 ^ (F.fractionBits + 1)) :
    2 ^ ((n * 2 ^ F.unitBits).log2 - F.fractionBits) ∣ n * 2 ^ F.unitBits := by
  rcases Nat.eq_zero_or_pos n with rfl | hpos
  · rw [Nat.zero_mul]
    exact Nat.dvd_zero _
  · have hunits : 0 < n * 2 ^ F.unitBits := Nat.mul_pos hpos (Nat.two_pow_pos _)
    have hlt : n * 2 ^ F.unitBits < 2 ^ (F.fractionBits + 1 + F.unitBits) := by
      rw [Nat.pow_add 2 (F.fractionBits + 1)]
      exact Nat.mul_lt_mul_of_pos_right h (Nat.two_pow_pos _)
    have hlog := (Nat.log2_lt hunits.ne').mpr hlt
    exact Nat.dvd_trans (Nat.pow_dvd_pow 2 (by omega)) (Nat.dvd_mul_left _ n)

end Format

namespace Magnitude

variable {F : Format} {m n d : Nat}

/-- The magnitude nearest to a whole number. -/
def ofNat (n : Nat) : Magnitude F := nearest n 1

/-- Rounding finds a number that is on the grid. -/
theorem nearest_mul_self (hn : n < 2 ^ (F.fractionBits + 1)) (hd : 0 < d) :
    (nearest (n * d) d : Magnitude F) = ofRank (F.rankBelow (n * 2 ^ F.unitBits)) := by
  have hbelow : F.rankBelow (n * d * 2 ^ F.unitBits / d) = F.rankBelow (n * 2 ^ F.unitBits) := by
    rw [Nat.mul_right_comm, Nat.mul_div_cancel _ hd]
  have hunits := F.units_rankBelow (F.pow_dvd_of_lt hn)
  have hnext := F.units_lt_succ (F.rankBelow (n * 2 ^ F.unitBits))
  have hhalf : 2 * (n * d * 2 ^ F.unitBits) <
      (F.units (F.rankBelow (n * 2 ^ F.unitBits))
        + F.units (F.rankBelow (n * 2 ^ F.unitBits) + 1)) * d := by
    rw [hunits] at hnext ⊢
    rw [Nat.mul_right_comm, ← Nat.mul_assoc]
    exact Nat.mul_lt_mul_of_pos_right (by omega) hd
  rw [nearest, hbelow]
  exact congrArg ofRank (if_pos hhalf)

/-- A whole number is itself, in whatever fraction it is given. -/
theorem nearest_mul_eq_ofNat (hn : n < 2 ^ (F.fractionBits + 1)) (hd : 0 < d) :
    (nearest (n * d) d : Magnitude F) = ofNat n := by
  have hone := nearest_mul_self hn Nat.one_pos
  rw [Nat.mul_one] at hone
  rw [nearest_mul_self hn hd, ofNat, hone]

/-- Whole numbers that the fraction has room for are far from infinity, if the exponents
reach as far above one as the unit lies below it. -/
theorem rank_ofNat (hroom : F.unitBits + 2 ≤ F.topExponent)
    (hn : n < 2 ^ (F.fractionBits + 1)) :
    (ofNat n : Magnitude F).rank = F.rankBelow (n * 2 ^ F.unitBits)
      ∧ (ofNat n : Magnitude F).rank < F.infinityRank := by
  have hunits := F.units_rankBelow (F.pow_dvd_of_lt hn)
  have htop := F.units_infinityRank (by omega)
  have hlt : F.rankBelow (n * 2 ^ F.unitBits) < F.infinityRank := by
    have hexponent : F.fractionBits + 1 + F.unitBits ≤ F.fractionBits + (F.topExponent - 1) := by
      omega
    have hlargest := Nat.pow_le_pow_right Nat.two_pos hexponent
    rw [Nat.pow_add 2 (F.fractionBits + 1), Nat.pow_add 2 _ (F.topExponent - 1)] at hlargest
    rw [← Format.units_lt_units, hunits, htop]
    exact Nat.lt_of_lt_of_le (Nat.mul_lt_mul_of_pos_right hn (Nat.two_pow_pos _)) hlargest
  have hself := nearest_mul_eq_ofNat (F := F) hn Nat.one_pos
  rw [nearest_mul_self hn Nat.one_pos] at hself
  have hrank : (ofNat n : Magnitude F).rank = F.rankBelow (n * 2 ^ F.unitBits) := by
    rw [← hself]
    exact Nat.min_eq_left hlt.le
  exact ⟨hrank, hrank ▸ hlt⟩

/-- So they are exact. -/
theorem units_ofNat_of_room (hroom : F.unitBits + 2 ≤ F.topExponent)
    (hn : n < 2 ^ (F.fractionBits + 1)) :
    (ofNat n : Magnitude F).units = n * 2 ^ F.unitBits := by
  rw [units, (rank_ofNat hroom hn).1]
  exact F.units_rankBelow (F.pow_dvd_of_lt hn)

/-- A whole number below `2 ^ 24` is exact. -/
theorem units_ofNat (hn : n < 2 ^ 24) :
    (ofNat n : Magnitude .single).units = n * 2 ^ Format.single.unitBits :=
  units_ofNat_of_room (by decide) hn

theorem isFinite_ofNat (hn : n < 2 ^ 24) : (ofNat n : Magnitude .single).isFinite = true :=
  decide_eq_true (rank_ofNat (F := .single) (by decide) hn).2

theorem rank_ofNat_lt (hm : m < 2 ^ 24) (hn : n < 2 ^ 24) :
    (ofNat m : Magnitude .single).rank < (ofNat n : Magnitude .single).rank ↔ m < n := by
  rw [← Format.units_lt_units, ← units, ← units, units_ofNat hm, units_ofNat hn]
  exact Nat.mul_lt_mul_right (Nat.two_pow_pos _)

end Magnitude

namespace Binary

variable {m n : Nat}

/-- The number nearest to a natural number, which is what a literal stands for. -/
def ofNat {F : Format} (n : Nat) : Binary F := signed false (.ofNat n)

/-- The number is the whole number `n`, with nothing rounded: it is not negative and
counts `n` ones in units. -/
def IsExactly {F : Format} (x : Binary F) (n : Nat) : Prop :=
  ∃ m : Magnitude F, x = signed false m ∧ m.isFinite = true ∧ m.units = n * 2 ^ F.unitBits

/-- A whole number below `2 ^ 24` is the number nearest to it. -/
theorem isExactly_ofNat (hn : n < 2 ^ 24) : (ofNat n : Single).IsExactly n :=
  ⟨.ofNat n, rfl, Magnitude.isFinite_ofNat hn, Magnitude.units_ofNat hn⟩

/-- The order of whole numbers below `2 ^ 24` is that of the natural numbers. -/
theorem ofNat_lt_ofNat (hm : m < 2 ^ 24) (hn : n < 2 ^ 24) :
    (ofNat m : Single) < ofNat n ↔ m < n := by
  rw [ofNat, ofNat, signed_lt_signed, ← Magnitude.rank_ofNat_lt hm hn]
  exact Int.ofNat_lt

theorem ofNat_le_ofNat (hm : m < 2 ^ 24) (hn : n < 2 ^ 24) :
    (ofNat m : Single) ≤ ofNat n ↔ m ≤ n := by
  rw [← Nat.not_lt, ← ofNat_lt_ofNat hn hm]
  exact (not_lt_iff (x := ofNat n) (y := ofNat m) (Magnitude.isFinite_ofNat hn)
    (Magnitude.isFinite_ofNat hm)).symm

/-- A difference of whole numbers below `2 ^ 24` is exact. -/
theorem ofNat_sub_ofNat (hm : m < 2 ^ 24) (hle : n ≤ m) :
    (ofNat m : Single) - ofNat n = ofNat (m - n) := by
  have hn : n < 2 ^ 24 := Nat.lt_of_le_of_lt hle hm
  have hunits : signedUnits false (.ofNat m : Magnitude .single)
      - signedUnits false (.ofNat n : Magnitude .single) =
        ((m - n) * 2 ^ Format.single.unitBits : Nat) := by
    show (((Magnitude.ofNat m : Magnitude .single).units : Int)
      - (Magnitude.ofNat n : Magnitude .single).units) = _
    rw [Magnitude.units_ofNat hm, Magnitude.units_ofNat hn, Nat.sub_mul]
    exact (Int.ofNat_sub (Nat.mul_le_mul_right _ hle)).symm
  show sub (signed false (.ofNat m)) (signed false (.ofNat n)) = _
  rw [sub, Magnitude.isFinite_ofNat hm, Magnitude.isFinite_ofNat hn, Bool.and_self, if_pos rfl,
    hunits]
  rcases Nat.eq_zero_or_pos (m - n) with hzero | hpos
  · rw [hzero, Nat.zero_mul]
    rfl
  · have hne : (((m - n) * 2 ^ Format.single.unitBits : Nat) : Int) ≠ 0 :=
      Int.ofNat_ne_zero.mpr (Nat.mul_pos hpos (Nat.two_pow_pos _)).ne'
    have hsign : decide ((((m - n) * 2 ^ Format.single.unitBits : Nat) : Int) < 0) = false :=
      decide_eq_false (Int.not_lt.mpr (Int.natCast_nonneg _))
    dsimp only
    rw [if_neg hne, hsign, Int.natAbs_natCast, ofRatio,
      Magnitude.nearest_mul_eq_ofNat (Nat.lt_of_le_of_lt (Nat.sub_le m n) hm) (Nat.two_pow_pos _)]
    rfl

/-- Holding a whole number between two others that it lies between does nothing. -/
theorem clamp_ofNat {low high : Nat} (hlow : low ≤ n) (hhigh : n ≤ high) (h : high < 2 ^ 24) :
    (ofNat n : Single).clamp (ofNat low) (ofNat high) = ofNat n := by
  have hn : n < 2 ^ 24 := Nat.lt_of_le_of_lt hhigh h
  have hnot_below : ¬(ofNat n : Single) < ofNat low := by
    rw [ofNat_lt_ofNat hn (Nat.lt_of_le_of_lt hlow hn)]
    exact Nat.not_lt.mpr hlow
  have hnot_above : ¬(ofNat high : Single) < ofNat n := by
    rw [ofNat_lt_ofNat h hn]
    exact Nat.not_lt.mpr hhigh
  rw [clamp, if_neg hnot_below, if_neg hnot_above]

end Binary

end BoardHealth
