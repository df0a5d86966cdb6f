import BoardHealth.Number.Binary

/-!
# The order of numbers

Two numbers of a format compare as their places do, so they are ordered like whole
numbers, with both zeros at one place. Not-a-number has no place: it is neither
below nor above anything, which is why a limit that is not a number breaks no bound
(`not_lt_iff_of_ne_nan` asks for two numbers, `not_lt_iff` for two that are finite).
-/

namespace BoardHealth.Binary

variable {F : Format} {x y z : Binary F} {a b : Bool} {m n : Magnitude F}

theorem signed_ne_nan : signed a m ≠ nan := by
  intro h
  cases h

theorem signed_lt_signed : signed a m < signed b n ↔ place a m < place b n := decide_eq_true_iff

theorem signed_le_signed : signed a m ≤ signed b n ↔ place a m ≤ place b n := by
  show (decide (place a m < place b n) = true ∨ (place a m == place b n) = true) ↔ _
  rw [decide_eq_true_iff, beq_iff_eq]
  omega

/-- What lies below something else has a place below it. -/
theorem exists_signed_of_lt (h : x < y) :
    ∃ a m b n, x = signed a m ∧ y = signed b n ∧ place a m < place b n := by
  cases x with
  | nan => exact absurd h Bool.false_ne_true
  | signed a m =>
    cases y with
    | nan => exact absurd h Bool.false_ne_true
    | signed b n => exact ⟨a, m, b, n, rfl, rfl, signed_lt_signed.mp h⟩

theorem exists_signed_of_le (h : x ≤ y) :
    ∃ a m b n, x = signed a m ∧ y = signed b n ∧ place a m ≤ place b n := by
  have hnan : ¬(false = true ∨ false = true) := by decide
  cases x with
  | nan => exact absurd h hnan
  | signed a m =>
    cases y with
    | nan => exact absurd h hnan
    | signed b n => exact ⟨a, m, b, n, rfl, rfl, signed_le_signed.mp h⟩

theorem lt_of_le_of_lt (hxy : x ≤ y) (hyz : y < z) : x < z := by
  obtain ⟨a, m, b, n, rfl, rfl, hle⟩ := exists_signed_of_le hxy
  obtain ⟨_, _, c, k, hy, rfl, hlt⟩ := exists_signed_of_lt hyz
  obtain ⟨rfl, rfl⟩ := signed.inj hy
  exact signed_lt_signed.mpr (Int.lt_of_le_of_lt hle hlt)

/-- Of two numbers, one that is not below the other is at least as large, infinities
included. -/
theorem not_lt_iff_of_ne_nan (hx : x ≠ nan) (hy : y ≠ nan) : ¬x < y ↔ y ≤ x := by
  cases x with
  | nan => exact absurd rfl hx
  | signed a m =>
    cases y with
    | nan => exact absurd rfl hy
    | signed b n => rw [signed_lt_signed, signed_le_signed, Int.not_lt]

/-- What compares with something else is a number. -/
theorem ne_nan_of_lt (h : x < y) : x ≠ nan ∧ y ≠ nan := by
  obtain ⟨a, m, b, n, rfl, rfl, -⟩ := exists_signed_of_lt h
  exact ⟨signed_ne_nan, signed_ne_nan⟩

theorem ne_nan_of_le (h : x ≤ y) : x ≠ nan ∧ y ≠ nan := by
  obtain ⟨a, m, b, n, rfl, rfl, -⟩ := exists_signed_of_le h
  exact ⟨signed_ne_nan, signed_ne_nan⟩

/-- What is at least as large as something else is not below it. -/
theorem not_lt_of_le (h : x ≤ y) : ¬y < x :=
  (not_lt_iff_of_ne_nan (ne_nan_of_le h).2 (ne_nan_of_le h).1).mpr h

/-- What lies above a number is a number that is not at most that number. -/
theorem lt_iff_of_left_ne_nan (hx : x ≠ nan) : x < y ↔ ¬y ≤ x ∧ y ≠ nan := by
  constructor
  · intro h
    have hy := (ne_nan_of_lt h).2
    exact ⟨fun hle => (not_lt_iff_of_ne_nan hx hy).mpr hle h, hy⟩
  · rintro ⟨hle, hy⟩
    rwa [← not_lt_iff_of_ne_nan hx hy, Decidable.not_not] at hle

/-- What lies below a number is a number that is not at least that number. -/
theorem lt_iff_of_right_ne_nan (hy : y ≠ nan) : x < y ↔ ¬y ≤ x ∧ x ≠ nan := by
  constructor
  · intro h
    have hx := (ne_nan_of_lt h).1
    exact ⟨fun hle => (not_lt_iff_of_ne_nan hx hy).mpr hle h, hx⟩
  · rintro ⟨hle, hx⟩
    rwa [← not_lt_iff_of_ne_nan hx hy, Decidable.not_not] at hle

theorem ne_nan_of_isFinite (h : x.isFinite = true) : x ≠ nan := by
  rintro rfl
  exact Bool.false_ne_true h

/-- Of two finite numbers, one that is not below the other is at least as large. -/
theorem not_lt_iff (hx : x.isFinite = true) (hy : y.isFinite = true) : ¬x < y ↔ y ≤ x :=
  not_lt_iff_of_ne_nan (ne_nan_of_isFinite hx) (ne_nan_of_isFinite hy)

/-- Of two finite numbers, one that is not at most the other is above it. -/
theorem not_le_iff (hx : x.isFinite = true) (hy : y.isFinite = true) : ¬x ≤ y ↔ y < x := by
  rw [← not_lt_iff hy hx, Decidable.not_not]

/-- A number is finite if its place lies between those of the infinities. -/
theorem isFinite_signed_iff : (signed a m).isFinite = true ↔
    -(F.infinityRank : Int) < place a m ∧ place a m < F.infinityRank := by
  show decide (m.rank < F.infinityRank) = true ↔ _
  rw [decide_eq_true_iff]
  cases a with
  | false => show _ ↔ _ < (m.rank : Int) ∧ (m.rank : Int) < _; omega
  | true => show _ ↔ _ < -(m.rank : Int) ∧ -(m.rank : Int) < _; omega

/-- What lies between two finite numbers is finite. -/
theorem isFinite_of_between (hx : x.isFinite = true) (hz : z.isFinite = true) (hxy : x < y)
    (hyz : y ≤ z) : y.isFinite = true := by
  obtain ⟨a, m, b, n, rfl, rfl, hlt⟩ := exists_signed_of_lt hxy
  obtain ⟨_, _, c, k, hy, rfl, hle⟩ := exists_signed_of_le hyz
  obtain ⟨rfl, rfl⟩ := signed.inj hy
  rw [isFinite_signed_iff] at hx hz ⊢
  omega

end BoardHealth.Binary
