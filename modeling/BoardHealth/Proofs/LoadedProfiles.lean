import BoardHealth.Proofs.Limits
import BoardHealth.Proofs.ProfileReload

/-!
# What is asked of a loaded profile

A profile that was read from a document is looked at limit by limit, and the first thing
that is wrong is reported. `demands` lists what is asked of it in that order, each demand
together with the refusal of a profile that does not meet it. A demand says what has to
hold, where a check looks for what must not. The two differ for numbers that do not
compare, and no number reaches a comparison before it was found finite
(`fault?_eq_firstFault`).

> `loaded_profiles_meet_demands`: which profiles are loaded, and why others are not.
-/

namespace BoardHealth

/-- The limit that a refusal is about, if it is about one. -/
def ProfileError.limit? : ProfileError → Option Limit
  | notFinite limit | notPositive limit _ => some limit
  | _ => none

namespace Profile

open Json

/-- What is asked of a profile, and the refusal of one that does not meet it. -/
structure Demand where
  isMet : Bool
  refusal : ProfileError

namespace Demand

/-- A limit is a number and no infinity. -/
def finite (limit : Limit) (value : Single) : Demand := ⟨value.isFinite, .notFinite limit⟩

/-- A limit is above zero. -/
def positive (limit : Limit) (value : Single) : Demand := ⟨0 < value, .notPositive limit value⟩

/-- The refusal for the first demand that is not met. -/
def firstFault (demands : List Demand) : Option ProfileError :=
  (demands.find? (!·.isMet)).map (·.refusal)

variable {d : Demand} {ds ds' : List Demand}

theorem firstFault_cons_of_met (h : d.isMet = true) : firstFault (d :: ds) = firstFault ds := by
  rw [firstFault, List.find?_cons_of_neg (by simp [h])]
  rfl

theorem firstFault_cons_of_not_met (h : d.isMet = false) :
    firstFault (d :: ds) = some d.refusal := by
  rw [firstFault, List.find?_cons_of_pos (by simp [h])]
  rfl

theorem firstFault_append : firstFault (ds ++ ds') = (firstFault ds).or (firstFault ds') := by
  rw [firstFault, List.find?_append, Option.map_or]
  rfl

theorem firstFault_eq_none_iff : firstFault ds = none ↔ ∀ d ∈ ds, d.isMet = true := by
  simp [firstFault]

theorem exists_of_firstFault {e : ProfileError} (h : firstFault ds = some e) :
    ∃ d ∈ ds, d.isMet = false ∧ d.refusal = e := by
  obtain ⟨d, hfind, rfl⟩ := Option.map_eq_some_iff.mp h
  have hnot := List.find?_some hfind
  rw [Bool.not_eq_true'] at hnot
  exact ⟨d, List.mem_of_find?_eq_some hfind, hnot, rfl⟩

/-- A check that looks for the opposite of a demand finds the demand not met. -/
theorem firstFault_singleton (fails : Prop) [Decidable fails] (h : d.isMet = true ↔ ¬fails) :
    firstFault [d] = if fails then some d.refusal else none := by
  cases hmet : d.isMet with
  | false => rw [firstFault_cons_of_not_met hmet, if_pos (by simpa [hmet] using h)]
  | true => rw [firstFault_cons_of_met hmet, if_neg (h.mp hmet)]; rfl

/-- So does one that looks for it among finite numbers only. -/
theorem firstFault_finite {limit : Limit} {value : Single} (fails : Prop) [Decidable fails]
    (h : value.isFinite = true → (d.isMet = true ↔ ¬fails)) :
    firstFault [.finite limit value, d] =
      if !value.isFinite then some (.notFinite limit)
      else if fails then some d.refusal else none := by
  cases hfinite : value.isFinite with
  | false => rw [firstFault_cons_of_not_met hfinite]; rfl
  | true => rw [firstFault_cons_of_met hfinite, firstFault_singleton fails (h hfinite)]; rfl

end Demand

/-- The value of a limit. -/
def limit (p : Profile) : Limit → Single
  | .voltageMaxAbsolute => p.voltageMaxAbsolute
  | .currentMaxSafe => p.currentMaxSafe
  | .voltageMaxSafe => p.voltageMaxSafe
  | .hfiVoltageScaleMax => p.hfiVoltageScaleMax
  | .hfiBandwidthMax => p.hfiBandwidthMax
  | .mosfetCurrentLimitConservative => p.mosfetCurrentLimitConservative
  | .mosfetVoltageLimitConservative => p.mosfetVoltageLimitConservative
  | .tempSafetyMargin => p.tempSafetyMargin
  | .switchingFrequencySafe => .ofInt p.switchingFrequencySafe.toNat

/-- The limits that have to be positive, in the order in which they are looked at. -/
def positives : List Limit := [
  .voltageMaxAbsolute, .currentMaxSafe, .voltageMaxSafe, .hfiVoltageScaleMax, .hfiBandwidthMax,
  .mosfetCurrentLimitConservative, .mosfetVoltageLimitConservative]

/-- What is asked of them. -/
def positiveDemands (p : Profile) : List Demand :=
  positives.flatMap fun l => [.finite l (p.limit l), .positive l (p.limit l)]

theorem mem_positiveDemands {p : Profile} {d : Demand} : d ∈ p.positiveDemands ↔
    ∃ l ∈ positives, d = .finite l (p.limit l) ∨ d = .positive l (p.limit l) := by
  simp only [positiveDemands, List.mem_flatMap, List.mem_cons, List.not_mem_nil, or_false]

/-- What is asked of the other limits. A margin may be zero, of either sign. -/
def otherDemands (p : Profile) : List Demand := [
  .finite .tempSafetyMargin p.tempSafetyMargin,
  ⟨0 ≤ p.tempSafetyMargin, .notPositive .tempSafetyMargin p.tempSafetyMargin⟩,
  ⟨0 < p.switchingFrequencySafe, .notPositive .switchingFrequencySafe 0⟩,
  ⟨p.voltageMaxSafe ≤ p.voltageMaxAbsolute,
    .safeVoltageAboveAbsolute p.voltageMaxSafe p.voltageMaxAbsolute⟩,
  ⟨0 < p.rippleCurrentLimitFactor ∧ p.rippleCurrentLimitFactor ≤ 1,
    .rippleFactorOutOfRange p.rippleCurrentLimitFactor⟩]

/-- All that is asked of a profile, in order. -/
def demands (p : Profile) : List Demand := p.positiveDemands ++ p.otherDemands

section Checks

variable {p : Profile}

/-- Looking at a limit that has to be positive finds the first demand that it fails. -/
theorem positiveFault?_eq_firstFault (entry : Limit × Single) :
    positiveFault? entry =
      Demand.firstFault [.finite entry.1 entry.2, .positive entry.1 entry.2] := by
  have hmet (hfinite : entry.2.isFinite = true) :
      (Demand.positive entry.1 entry.2).isMet = true ↔ ¬entry.2 ≤ 0 :=
    decide_eq_true_iff.trans (Binary.not_le_iff hfinite (by decide)).symm
  rw [Demand.firstFault_finite _ hmet]
  rfl

theorem findSome?_positiveFault? (entries : List (Limit × Single)) :
    entries.findSome? positiveFault? = Demand.firstFault
      (entries.flatMap fun entry => [.finite entry.1 entry.2, .positive entry.1 entry.2]) := by
  induction entries with
  | nil => rfl
  | cons entry entries ih =>
    rw [List.findSome?_cons, List.flatMap_cons, Demand.firstFault_append,
      ← positiveFault?_eq_firstFault, ← ih]
    cases positiveFault? entry <;> rfl

theorem marginFault?_eq_firstFault :
    p.marginFault? = Demand.firstFault [.finite .tempSafetyMargin p.tempSafetyMargin,
      ⟨0 ≤ p.tempSafetyMargin, .notPositive .tempSafetyMargin p.tempSafetyMargin⟩] := by
  rw [Demand.firstFault_finite (p.tempSafetyMargin < 0)]
  · rfl
  · intro hfinite
    exact decide_eq_true_iff.trans (Binary.not_lt_iff hfinite (by decide)).symm

theorem frequencyFault?_eq_firstFault :
    p.frequencyFault? = Demand.firstFault
      [⟨0 < p.switchingFrequencySafe, .notPositive .switchingFrequencySafe 0⟩] := by
  rw [Demand.firstFault_singleton (p.switchingFrequencySafe = 0)]
  · rfl
  · exact decide_eq_true_iff.trans UInt32.pos_iff_ne_zero

theorem voltageFault?_eq_firstFault (hsafe : p.voltageMaxSafe.isFinite = true)
    (habsolute : p.voltageMaxAbsolute.isFinite = true) :
    p.voltageFault? = Demand.firstFault [⟨p.voltageMaxSafe ≤ p.voltageMaxAbsolute,
      .safeVoltageAboveAbsolute p.voltageMaxSafe p.voltageMaxAbsolute⟩] := by
  rw [Demand.firstFault_singleton (p.voltageMaxSafe > p.voltageMaxAbsolute)]
  · rfl
  · exact decide_eq_true_iff.trans (Binary.not_lt_iff habsolute hsafe).symm

/-- A factor within its bounds is finite, so that is not asked for on its own. -/
theorem rippleFault?_eq_firstFault :
    p.rippleFault? = Demand.firstFault
      [⟨0 < p.rippleCurrentLimitFactor ∧ p.rippleCurrentLimitFactor ≤ 1,
        .rippleFactorOutOfRange p.rippleCurrentLimitFactor⟩] := by
  rw [Demand.firstFault_singleton (!p.rippleCurrentLimitFactor.isFinite ∨
    p.rippleCurrentLimitFactor ≤ 0 ∨ p.rippleCurrentLimitFactor > 1)]
  · rfl
  · have hnone : p.rippleFault? = none ↔ ¬(!p.rippleCurrentLimitFactor.isFinite ∨
        p.rippleCurrentLimitFactor ≤ 0 ∨ p.rippleCurrentLimitFactor > 1) := by
      simp [rippleFault?]
    rw [← hnone, rippleFault?_eq_none_iff]
    refine decide_eq_true_iff.trans ⟨fun h => ⟨?_, h⟩, And.right⟩
    exact Binary.isFinite_of_between (by decide) (by decide) h.1 h.2

/-- **Checks and demands.** The first fault found is that of the first demand not met. -/
theorem fault?_eq_firstFault : p.fault? = Demand.firstFault p.demands := by
  have hpositive : p.positiveLimits.findSome? positiveFault? =
      Demand.firstFault p.positiveDemands := findSome?_positiveFault? p.positiveLimits
  have hothers : p.otherDemands = [.finite .tempSafetyMargin p.tempSafetyMargin, _]
    ++ ([_] ++ ([_] ++ [_])) := rfl
  rw [fault?, demands, Demand.firstFault_append, hothers, Demand.firstFault_append,
    Demand.firstFault_append, Demand.firstFault_append,
    ← marginFault?_eq_firstFault, ← frequencyFault?_eq_firstFault, ← rippleFault?_eq_firstFault,
    hpositive]
  simp only [Option.orElse_eq_orElse, Option.orElse_eq_or]
  cases hfault : Demand.firstFault p.positiveDemands with
  | some e => rfl
  | none =>
    -- Both voltages were found finite by now.
    rw [Demand.firstFault_eq_none_iff] at hfault
    have hfinite (l : Limit) (hl : l ∈ positives) : (p.limit l).isFinite = true :=
      hfault (.finite l (p.limit l)) (mem_positiveDemands.mpr ⟨l, hl, .inl rfl⟩)
    rw [← voltageFault?_eq_firstFault (hfinite .voltageMaxSafe (by decide))
      (hfinite .voltageMaxAbsolute (by decide))]

/-- A profile is accepted exactly if all demands are met. -/
theorem validate_eq_ok_iff_demands : p.validate = .ok () ↔ ∀ d ∈ p.demands, d.isMet = true := by
  rw [validate_eq_ok_iff, ← fault?_eq_none_iff, fault?_eq_firstFault,
    Demand.firstFault_eq_none_iff]

/-- A profile is refused for the first demand that is not met. -/
theorem validate_eq_error_iff {e : ProfileError} :
    p.validate = .error e ↔ Demand.firstFault p.demands = some e := by
  rw [← fault?_eq_firstFault, validate]
  cases p.fault? <;> simp

/-- A profile is loaded from a text if the text describes it and it is accepted. -/
theorem load_eq_ok_iff {text : String} :
    load text = .ok p ↔ codec.decode text = .ok p ∧ p.validate = .ok () := by
  cases hdecode : codec.decode text with
  | error cause => simp [load_of_decode_error hdecode]
  | ok q =>
    rw [load_of_decode hdecode, Except.ok.injEq]
    constructor
    · intro hload
      cases hvalid : q.validate with
      | error e => rw [hvalid] at hload; cases hload
      | ok _ =>
        rw [hvalid] at hload
        obtain rfl : q = p := Except.ok.inj hload
        exact ⟨rfl, hvalid⟩
    · rintro ⟨rfl, hvalid⟩
      rw [hvalid]
      rfl

/-- All numbers of a consistent profile are finite. -/
theorem Consistent.isFinite (h : p.Consistent) : ∀ x ∈ p.singles, x.isFinite = true := by
  have hpositive := h.positive
  simp only [positiveLimits, List.forall_mem_cons] at hpositive
  obtain ⟨h1, h2, h3, h4, h5, h6, h7, -⟩ := hpositive
  simp only [singles, List.forall_mem_cons]
  exact ⟨h1.1, h2.1, h3.1, h4.1, h5.1, h.margin.1, h6.1, h7.1, h.ripple.1,
    List.forall_mem_nil _⟩

end Checks

/-! ## Documents -/

section Documents

variable {entries : List Entry} {l : Limit}

/-- What a document does not mention has the value that is taken for it. -/
theorem getD_given_of_not_mentioned {α : Type} (codec : Codec α) {name : String}
    (h : entries.lookup name.toList = none) (value : α) :
    (codec.given name entries).getD value = value := by
  rw [Codec.given, h]
  rfl

theorem limit_overlay_of_not_mentioned (h : entries.lookup l.name.toList = none) :
    (overlay entries).limit l = healthy.limit l := by
  cases l with
  | switchingFrequencySafe =>
    have hgiven := getD_given_of_not_mentioned .word32 h healthy.switchingFrequencySafe
    exact congrArg (fun n : UInt32 => Binary.ofInt n.toNat) hgiven
  | _ => exact getD_given_of_not_mentioned .single h _

/-- A healthy board's limits are positive. -/
theorem limit_healthy {l : Limit} (hl : l ∈ positives) :
    (healthy.limit l).isFinite = true ∧ 0 < healthy.limit l := by
  revert hl
  cases l <;> decide +kernel

/-- A limit that a document does not mention is not what the document is refused for. -/
theorem isMet_of_not_mentioned (h : entries.lookup l.name.toList = none) :
    ∀ d ∈ (overlay entries).demands, d.refusal.limit? = some l → d.isMet = true := by
  have hlimit := limit_overlay_of_not_mentioned h
  intro d hd hl
  rcases List.mem_append.mp hd with hpositive | hother
  · obtain ⟨l', hl', rfl | rfl⟩ := mem_positiveDemands.mp hpositive
    · obtain rfl := Option.some.inj hl
      show ((overlay entries).limit l').isFinite = true
      rw [hlimit]
      exact (limit_healthy hl').1
    · obtain rfl := Option.some.inj hl
      show decide (0 < (overlay entries).limit l') = true
      rw [hlimit]
      exact decide_eq_true (limit_healthy hl').2
  · simp only [otherDemands, List.mem_cons, List.not_mem_nil, or_false] at hother
    rcases hother with rfl | rfl | rfl | rfl | rfl
    · obtain rfl := Option.some.inj hl
      show ((overlay entries).limit .tempSafetyMargin).isFinite = true
      rw [hlimit]
      decide +kernel
    · obtain rfl := Option.some.inj hl
      show decide (0 ≤ (overlay entries).limit .tempSafetyMargin) = true
      rw [hlimit]
      decide +kernel
    · obtain rfl := Option.some.inj hl
      have hfrequency : (overlay entries).switchingFrequencySafe = healthy.switchingFrequencySafe :=
        getD_given_of_not_mentioned .word32 h _
      show decide (0 < (overlay entries).switchingFrequencySafe) = true
      rw [hfrequency]
      decide
    · exact absurd hl.symm (Option.some_ne_none l)
    · exact absurd hl.symm (Option.some_ne_none l)

end Documents

/-- **What is asked of a loaded profile.** A profile is loaded from a text exactly if it is
what the text describes and all demands are met; so all its numbers are finite, however
they are written. If a demand is not met, the text is refused for the first one in order.
A text that describes no profile is refused for that. A refusal for a limit names a member
of the document. -/
theorem loaded_profiles_meet_demands (text : String) :
    (∀ p, load text = .ok p ↔ codec.decode text = .ok p ∧ ∀ d ∈ p.demands, d.isMet = true)
      ∧ (∀ p, load text = .ok p → ∀ x ∈ p.singles, x.isFinite = true)
      ∧ (∀ p, codec.decode text = .ok p → ∀ e,
          load text = .error e ↔ Demand.firstFault p.demands = some e)
      ∧ (∀ cause, codec.decode text = .error cause → load text = .error (.unreadable cause))
      ∧ ∀ (g : Margins) (ms : List NamedMember) (e : ProfileError) (l : Limit),
          text = g.object (ms.map (·.toMember)) → GiveOnce ms → load text = .error e →
          e.limit? = some l → ∃ m ∈ ms, m.name = l.name.toList := by
  have hok : ∀ p, load text = .ok p ↔
      codec.decode text = .ok p ∧ ∀ d ∈ p.demands, d.isMet = true := by
    intro p
    rw [load_eq_ok_iff, validate_eq_ok_iff_demands]
  have herror : ∀ p, codec.decode text = .ok p → ∀ e,
      load text = .error e ↔ Demand.firstFault p.demands = some e := by
    intro p hdecode e
    rw [load_of_decode hdecode, ← validate_eq_error_iff]
    cases p.validate <;> simp [Except.map]
  refine ⟨hok, ?_, herror, fun cause => load_of_decode_error, ?_⟩
  · intro p hload
    exact (validate_eq_ok_iff.mp (load_eq_ok_iff.mp hload).2).isFinite
  · intro g ms e l htext hgives hload hl
    have hdecode : codec.decode text = .ok (overlay (ms.map (·.entry))) := by
      rw [htext]
      exact decode_object_of_giveOnce g hgives
    obtain ⟨d, hd, hnot, rfl⟩ :=
      Demand.exists_of_firstFault ((herror _ hdecode e).mp hload)
    -- Had the document no such member, the demand would be met.
    refine Classical.byContradiction fun hnone => ?_
    have hlookup : (ms.map (·.entry)).lookup l.name.toList = none := by
      refine List.lookup_eq_none_iff.mpr fun entry hentry => bne_iff_ne.mpr fun hname => ?_
      obtain ⟨m, hm, rfl⟩ := List.mem_map.mp hentry
      exact hnone ⟨m, hm, hname.symm⟩
    rw [isMet_of_not_mentioned hlookup d hd hl] at hnot
    exact absurd hnot (by decide)

/-- A number that is rounded to infinity. Of a current that is not finite and voltages in the
wrong order the current is reported; a margin of negative zero is as good as one of zero. -/
example :
    (Codec.single.decode "1e39").toOption = some .infinity
      ∧ Demand.firstFault { healthy with currentMaxSafe := .infinity, voltageMaxSafe := 61 }.demands
        = some (.notFinite .currentMaxSafe)
      ∧ Demand.firstFault { healthy with tempSafetyMargin := .signed true (.ofRank 0) }.demands
        = none := by
  decide +kernel

end Profile

end BoardHealth
