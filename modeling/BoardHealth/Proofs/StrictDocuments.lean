import BoardHealth.Audit
import BoardHealth.FaultHistory
import BoardHealth.Latches
import BoardHealth.Proofs.Json.Numerals
import BoardHealth.Proofs.Json.Components
import BoardHealth.Report
import BoardHealth.Telemetry
import BoardHealth.Throttle

/-!
# Documents of strict structures

All structures but profiles are strict: nothing is made up where a document is silent. A
document is read only if it gives every component that has to be given, gives none twice,
and gives each a value of its type; overrides may leave out the parameters they do not
set. The latches hold overrides, which may be given as an object or as a list there too.

The components of each structure are listed here, in the order of lists: what stands under
which name, and in which part of the structure it ends up.

> `strict_documents`: what is read from which documents.
-/

namespace BoardHealth

open Json

/-! ## Components -/

/-- The components of a sample. -/
def Telemetry.components : List (Component Telemetry) := [
  .required "motor_temp_c" .single motorTemp,
  .required "fet_temp_c" .single fetTemp,
  .required "input_voltage_v" .single inputVoltage,
  .required "total_current_a" .single totalCurrent]

/-- The components of a snapshot. -/
def Snapshot.components : List (Component Snapshot) := [
  .required "phase_filter_present" .boolean phaseFilterPresent,
  .required "temperature_sensor_valid" .boolean temperatureSensorValid,
  .required "current_sensing_calibrated" .boolean currentSensingCalibrated,
  .required "mosfet_health_ok" .boolean mosfetHealthOk,
  .required "capacitor_health_ok" .boolean capacitorHealthOk,
  .required "gate_driver_ok" .boolean gateDriverOk,
  .required "thermal_estimation_enabled" .boolean thermalEstimationEnabled,
  .required "thermal_protection_enhanced" .boolean thermalProtectionEnhanced,
  .required "mosfet_protection_enhanced" .boolean mosfetProtectionEnhanced,
  .required "hardware_score" .single score,
  .required "fault_count" .word32 faults,
  .required "warning_count" .word32 warnings]

/-- The components of overrides. -/
def Overrides.components : List (Component Overrides) := [
  .optional "hfi_injection_voltage_max" .single hfiInjectionVoltageMax,
  .optional "hfi_bandwidth_max_hz" .single hfiBandwidthMax,
  .required "hfi_conservative_mode" .boolean hfiConservativeMode,
  .required "temp_estimation_enabled" .boolean tempEstimationEnabled,
  .required "aggressive_derating" .boolean aggressiveDerating,
  .optional "temp_safety_margin_c" .single tempSafetyMargin,
  .optional "fet_derate_start_c" .single fetDerateStart,
  .optional "fet_derate_end_c" .single fetDerateEnd,
  .optional "motor_derate_start_c" .single motorDerateStart,
  .optional "motor_derate_end_c" .single motorDerateEnd,
  .optional "current_max" .single currentMax,
  .optional "voltage_max" .single voltageMax,
  .required "mosfet_failure_detection" .boolean mosfetFailureDetection,
  .optional "ripple_current_limit_factor" .single rippleCurrentLimitFactor,
  .required "capacitor_monitoring" .boolean capacitorMonitoring,
  .optional "switching_frequency_hz" .word32 switchingFrequency,
  .optional "dead_time_ns" .word32 deadTime,
  .optional "field_weakening_threshold_v" .single fieldWeakeningThreshold,
  .required "high_voltage_mode" .boolean highVoltageMode]

/-- The components of latches. -/
def Latches.components : List (Component Latches) := [
  .required "applied" (.vector .boolean 6) applied,
  .required "overrides" Overrides.codec overrides]

/-- The components of a history. -/
def FaultHistory.components : List (Component FaultHistory) := [
  .required "slots" (.vector .word32 16) slots,
  .required "write_index" .word64 writeIndex,
  .required "recorded" .word32 recorded]

/-- The components of a throttle. -/
def Throttle.components : List (Component Throttle) := [
  .required "interval_us" .word32 interval,
  .required "last_update_us" .word32 lastUpdate]

/-- The components of an audit. -/
def Audit.components : List (Component Audit) := [
  .required "violations" (.bounded Violation.codec 5) violations]

/-- The components of a report. -/
def Report.components : List (Component Report) := [
  .required "hardware_score" .single score,
  .required "warning_count" .word32 warningCount,
  .required "fault_count" .word32 faultCount,
  .required "verdict" Verdict.codec verdict,
  .required "warnings" (.bounded Warning.codec 10) warnings,
  .required "recommendations" (.vector Advice.codec 7) recommendations]

/-! ## Names -/

theorem Violation.takesValues : codec.TakesValues := Codec.takesValues_choice all name

theorem Verdict.takesValues : codec.TakesValues := Codec.takesValues_choice all name

theorem Warning.takesValues : codec.TakesValues := Codec.takesValues_choice all name

theorem Advice.takesValues : codec.TakesValues := Codec.takesValues_choice all.toList name

/-! ## Structures -/

section Structures

open Codec

theorem Telemetry.readsStrictly : codec.ReadsStrictly components := by
  refine readsStrictly_record components (by decide) ?_ (fun _ => rfl) fun _ => rfl
  simp only [components, List.forall_mem_cons]
  exact ⟨takesValues_single, takesValues_single, takesValues_single, takesValues_single, nofun⟩

theorem Snapshot.readsStrictly : codec.ReadsStrictly components := by
  refine readsStrictly_record components (by decide +kernel) ?_ (fun _ => rfl) fun _ => rfl
  simp only [components, List.forall_mem_cons]
  exact ⟨takesValues_boolean, takesValues_boolean, takesValues_boolean, takesValues_boolean,
    takesValues_boolean, takesValues_boolean, takesValues_boolean, takesValues_boolean,
    takesValues_boolean, takesValues_single, takesValues_word32, takesValues_word32, nofun⟩

theorem FaultHistory.readsStrictly : codec.ReadsStrictly components := by
  refine readsStrictly_record components (by decide) ?_ (fun _ => rfl) fun _ => rfl
  simp only [components, List.forall_mem_cons]
  exact ⟨takesValues_vector takesValues_word32 16, takesValues_word64, takesValues_word32, nofun⟩

theorem Throttle.readsStrictly : codec.ReadsStrictly components := by
  refine readsStrictly_record components (by decide) ?_ (fun _ => rfl) fun _ => rfl
  simp only [components, List.forall_mem_cons]
  exact ⟨takesValues_word32, takesValues_word32, nofun⟩

theorem Audit.readsStrictly : codec.ReadsStrictly components := by
  refine readsStrictly_record components (by decide) ?_ (fun _ => rfl) fun _ => rfl
  simp only [components, List.forall_mem_cons]
  exact ⟨takesValues_bounded Violation.takesValues 5, nofun⟩

theorem Report.readsStrictly : codec.ReadsStrictly components := by
  refine readsStrictly_record components (by decide) ?_ (fun _ => rfl) fun _ => rfl
  simp only [components, List.forall_mem_cons]
  exact ⟨takesValues_single, takesValues_word32, takesValues_word32, Verdict.takesValues,
    takesValues_bounded Warning.takesValues 10, takesValues_vector Advice.takesValues 7, nofun⟩

theorem Overrides.takesValues_components : ∀ c ∈ components, c.TakesValues := by
  simp only [components, List.forall_mem_cons]
  exact ⟨takesValues_single, takesValues_single, takesValues_boolean, takesValues_boolean,
    takesValues_boolean, takesValues_single, takesValues_single, takesValues_single,
    takesValues_single, takesValues_single, takesValues_single, takesValues_single,
    takesValues_boolean, takesValues_single, takesValues_boolean, takesValues_word32,
    takesValues_word32, takesValues_single, takesValues_boolean, nofun⟩

theorem Overrides.readsStrictly : codec.ReadsStrictly components :=
  readsStrictly_record components (by decide +kernel) takesValues_components (fun _ => rfl)
    fun _ => rfl

theorem Overrides.takesValues : codec.TakesValues :=
  takesValues_record (Component.takesValues_fields takesValues_components)

theorem Latches.readsStrictly : codec.ReadsStrictly components := by
  refine readsStrictly_record components (by decide) ?_ (fun _ => rfl) fun _ => rfl
  simp only [components, List.forall_mem_cons]
  exact ⟨takesValues_vector takesValues_boolean 6, Overrides.takesValues, nofun⟩

end Structures

/-! ## Overrides inside latches -/

/-- An object on its own is read as it is read inside another document. -/
theorem decode_object_alone {α : Type} (codec : Codec α) (ms : List Member) {inside : List Char}
    (h : IsBlanks inside) :
    codec.decode (Margins.object ⟨[], inside, [], .nil, h, .nil⟩ ms) =
      codec.reader.decode (objectText ms inside) := by
  simp [Codec.decode, Margins.object]

theorem decode_list_alone {α : Type} (codec : Codec α) (items : List Item) {inside : List Char}
    (h : IsBlanks inside) :
    codec.decode (Margins.list ⟨[], inside, [], .nil, h, .nil⟩ items) =
      codec.reader.decode (listText items inside) := by
  simp [Codec.decode, Margins.list]

/-- Overrides are read from a list as from an object with the same values. -/
theorem Overrides.decode_listText {ms : List NamedMember} {items : List Item}
    {inside inside' : List Char} (hinside : IsBlanks inside) (hinside' : IsBlanks inside')
    (hitems : Component.InOrder components (ms.map (·.entry)) items) {o : Overrides}
    (h : codec.reader.decode (objectText (ms.map (·.toMember)) inside) = .ok o) :
    codec.reader.decode (listText items inside') = .ok o := by
  rw [← decode_object_alone codec _ hinside] at h
  rw [← decode_list_alone codec _ hinside']
  exact readsStrictly.list_of_object _ _ ms items o hitems h

namespace Latches

/-- The entries of two documents of latches: where one gives the overrides as an object,
the other gives them as a list of the same values. -/
structure ListsOverrides (entries entries' : List Entry) : Prop where
  applied : valuesUnder "applied" entries = valuesUnder "applied" entries'
  overrides : ∃ (ms : List NamedMember) (items : List Item) (inside inside' : List Char),
    IsBlanks inside ∧ IsBlanks inside' ∧
      Component.InOrder Overrides.components (ms.map (·.entry)) items ∧
      valuesUnder "overrides" entries = [objectText (ms.map (·.toMember)) inside] ∧
      valuesUnder "overrides" entries' = [listText items inside']

theorem ListsOverrides.isGiven {entries entries' : List Entry}
    (h : ListsOverrides entries entries') {l : Latches}
    (hgiven : ∀ c ∈ components, c.IsGiven entries l) : ∀ c ∈ components, c.IsGiven entries' l := by
  obtain ⟨happlied, ms, items, inside, inside', hinside, hinside', hitems, hobject, hlist⟩ := h
  simp only [components, List.forall_mem_cons] at hgiven ⊢
  obtain ⟨hgiven, hnested, -⟩ := hgiven
  refine ⟨hgiven.congr happlied, .inl ⟨_, hlist, ?_⟩, nofun⟩
  rcases hnested with ⟨value, hvalue, hreads⟩ | ⟨hnone, -⟩
  · obtain rfl : objectText (ms.map (·.toMember)) inside = value :=
      List.singleton_inj.mp (hobject.symm.trans hvalue)
    exact Overrides.decode_listText hinside hinside' hitems hreads
  · exact absurd (hobject.symm.trans hnone) (List.cons_ne_nil _ _)

end Latches

/-- **Documents of strict structures.** Every structure but the profile is read from an
object exactly if all components that have to be given are given once, those that may be
absent at most once, and all are given values of their types; each part of what is read has
the value given for it. The order of the members and members under other names have no say
in it. A component that is missing is reported by name, the first of them in the order of
the components. A list of the values of all components is read as the object is, and so is
such a list of overrides inside latches. -/
theorem strict_documents :
    Telemetry.codec.ReadsStrictly Telemetry.components
      ∧ Snapshot.codec.ReadsStrictly Snapshot.components
      ∧ Overrides.codec.ReadsStrictly Overrides.components
      ∧ Latches.codec.ReadsStrictly Latches.components
      ∧ FaultHistory.codec.ReadsStrictly FaultHistory.components
      ∧ Throttle.codec.ReadsStrictly Throttle.components
      ∧ Audit.codec.ReadsStrictly Audit.components
      ∧ Report.codec.ReadsStrictly Report.components
      ∧ ∀ (g g' : Margins) (ms ms' : List NamedMember) (l : Latches),
        Latches.ListsOverrides (ms.map (·.entry)) (ms'.map (·.entry)) →
        Latches.codec.decode (g.object (ms.map (·.toMember))) = .ok l →
        Latches.codec.decode (g'.object (ms'.map (·.toMember))) = .ok l := by
  refine ⟨Telemetry.readsStrictly, Snapshot.readsStrictly, Overrides.readsStrictly,
    Latches.readsStrictly, FaultHistory.readsStrictly, Throttle.readsStrictly,
    Audit.readsStrictly, Report.readsStrictly, ?_⟩
  intro g g' ms ms' l hlists h
  have hgiven := (Latches.readsStrictly.object_iff g ms l).mp h
  exact (Latches.readsStrictly.object_iff g' ms' l).mpr (hlists.isGiven hgiven)

/-! ## Documents of a throttle, and of latches of which two have engaged -/

/-- An integer as a member. -/
def countMember (name : String) (n : Nat) : NamedMember :=
  .written name.toList (Nat.toDigits 10 n) (.scalar (.number (isNumeral_toDigits n)))

/-- The text of a truth value. -/
def flagText (b : Bool) : List Char := if b then "true".toList else "false".toList

theorem isValue_flagText (b : Bool) : IsValue (flagText b) := by
  cases b with
  | false => exact .scalar .no
  | true => exact .scalar .yes

/-- A truth value as a member. -/
def flagMember (name : String) (b : Bool) : NamedMember :=
  .written name.toList (flagText b) (isValue_flagText b)

/-- A member that gives no value. -/
def nullMember (name : String) : NamedMember :=
  .written name.toList "null".toList (.scalar .null)

/-- A member under a name that no structure has. -/
def laterMember : NamedMember := .written "later".toList "[]".toList (.empty .list .nil)

/-- The value of a member as an item. -/
def Json.NamedMember.item (m : NamedMember) : Item :=
  ⟨[], m.value, [], .nil, m.isValue.exists_cons, .nil⟩

theorem Json.NamedMember.isValue_items {ms : List NamedMember} :
    ∀ i ∈ ms.map (·.item), IsValue i.value := by
  intro i hi
  obtain ⟨m, -, rfl⟩ := List.mem_map.mp hi
  exact m.isValue

/-- The members of a throttle, not in their order and with another between them. -/
def shuffledMembers : List NamedMember :=
  [countMember "last_update_us" 5, laterMember, countMember "interval_us" 1000000]

theorem isGiven_shuffledMembers :
    ∀ c ∈ Throttle.components, c.IsGiven (shuffledMembers.map (·.entry)) ⟨1000000, 5⟩ := by
  simp only [Throttle.components, List.forall_mem_cons]
  exact ⟨.inl ⟨"1000000".toList, by decide +kernel, by rfl⟩,
    .inl ⟨"5".toList, by decide +kernel, by rfl⟩, nofun⟩

/-- Without the last member nothing is wrong but that the interval is missing. -/
theorem isAdmitted_shuffledMembers :
    ∀ c ∈ Throttle.components, c.IsAdmitted ((shuffledMembers.take 2).map (·.entry)) := by
  have hupdate : valuesUnder "last_update_us" ((shuffledMembers.take 2).map (·.entry)) =
      ["5".toList] := by decide +kernel
  simp only [Throttle.components, List.forall_mem_cons]
  exact ⟨.of_nil (by decide +kernel), .of_singleton hupdate ⟨5, by rfl⟩, nofun⟩

/-- The values of a throttle in their order. -/
def throttleItems : List Item :=
  [countMember "interval_us" 1000000, countMember "last_update_us" 5].map (·.item)

/-- Latches after the protections of the motor and of the gate driver have engaged. -/
def twoEngaged : Latches where
  applied := #v[false, true, false, false, true, false]
  overrides := {
    tempEstimationEnabled := true
    aggressiveDerating := true
    tempSafetyMargin := some 10
    fetDerateStart := some 80
    fetDerateEnd := some 90
    motorDerateStart := some 75
    motorDerateEnd := some 85
    switchingFrequency := some 13000
    deadTime := some 500 }

/-- The overrides of these latches, those without a value as `null`. -/
def engagedMembers : List NamedMember := [
  nullMember "hfi_injection_voltage_max",
  nullMember "hfi_bandwidth_max_hz",
  flagMember "hfi_conservative_mode" false,
  flagMember "temp_estimation_enabled" true,
  flagMember "aggressive_derating" true,
  countMember "temp_safety_margin_c" 10,
  countMember "fet_derate_start_c" 80,
  countMember "fet_derate_end_c" 90,
  countMember "motor_derate_start_c" 75,
  countMember "motor_derate_end_c" 85,
  nullMember "current_max",
  nullMember "voltage_max",
  flagMember "mosfet_failure_detection" false,
  nullMember "ripple_current_limit_factor",
  flagMember "capacitor_monitoring" false,
  countMember "switching_frequency_hz" 13000,
  countMember "dead_time_ns" 500,
  nullMember "field_weakening_threshold_v",
  flagMember "high_voltage_mode" false]

/-- The overrides of these latches, without those that have no value. -/
def terseMembers : List NamedMember := engagedMembers.filter (·.value ≠ "null".toList)

def engagedItems : List Item := engagedMembers.map (·.item)

theorem inOrder_engagedItems :
    Component.InOrder Overrides.components (engagedMembers.map (·.entry)) engagedItems :=
  ⟨NamedMember.isValue_items, by decide +kernel⟩

/-- Where all slots end up filled, the entries give what is in them. -/
theorem Overrides.isGiven_of_complete {ms : List NamedMember} {o : Overrides}
    (hunrepeated : Unrepeated fields (ms.map (·.entry)))
    (hreadable : Readable fields (ms.map (·.entry)))
    (h : (Slots.ofEntries (ms.map (·.entry)) fields).complete = .ok o.toRow) :
    ∀ c ∈ components, c.IsGiven (ms.map (·.entry)) o :=
  (Component.gives_row_iff takesValues_components isValue_of_mem_entries).mp
    ((Slots.complete_eq_ok_iff hunrepeated hreadable o.toRow).mp h)

theorem isGiven_engagedMembers :
    ∀ c ∈ Overrides.components, c.IsGiven (engagedMembers.map (·.entry)) twoEngaged.overrides :=
  Overrides.isGiven_of_complete (by unfold Unrepeated; decide +kernel) (by decide +kernel) rfl

theorem isGiven_terseMembers :
    ∀ c ∈ Overrides.components, c.IsGiven (terseMembers.map (·.entry)) twoEngaged.overrides :=
  Overrides.isGiven_of_complete (by unfold Unrepeated; decide +kernel) (by decide +kernel) rfl

/-- Which of the latches are set. -/
def appliedMember : NamedMember :=
  .written "applied".toList
    (listText (twoEngaged.applied.toList.map fun b => (flagMember "" b).item) [])
    (isValue_listText (fun i hi => by
      obtain ⟨b, -, rfl⟩ := List.mem_map.mp hi
      exact (flagMember "" b).isValue) .nil)

/-- The latches with the overrides as an object of these members. -/
def nestedObject (ms : List NamedMember) : List NamedMember := [appliedMember,
  .written "overrides".toList (objectText (ms.map (·.toMember)) [])
    (isValue_objectText isValue_of_mem .nil)]

theorem isGiven_nestedObject {ms : List NamedMember}
    (h : Overrides.codec.reader.decode (objectText (ms.map (·.toMember)) []) =
      .ok twoEngaged.overrides) :
    ∀ c ∈ Latches.components, c.IsGiven ((nestedObject ms).map (·.entry)) twoEngaged := by
  simp only [Latches.components, List.forall_mem_cons]
  exact ⟨.inl ⟨appliedMember.value, rfl, by rfl⟩, .inl ⟨_, rfl, h⟩, nofun⟩

/-- The latches with the overrides as a list. -/
def nestedList : List NamedMember := [appliedMember,
  .written "overrides".toList (listText engagedItems [])
    (isValue_listText NamedMember.isValue_items .nil)]

theorem listsOverrides_nestedList :
    Latches.ListsOverrides ((nestedObject engagedMembers).map (·.entry))
      (nestedList.map (·.entry)) where
  applied := by decide +kernel
  overrides := ⟨engagedMembers, engagedItems, [], [], .nil, .nil, inOrder_engagedItems,
    by decide +kernel, by decide +kernel⟩

/-- A throttle whose members are out of order and next to something unknown, one that
lacks its interval, and one given as a list; latches of which two have engaged, with the
overrides as an object that leaves out those without a value, and as a list. -/
theorem strict_documents_of_two_engaged :
    Throttle.codec.decode
        "\x7b\"last_update_us\":5,\"later\":[],\"interval_us\":1000000\x7d" = .ok ⟨1000000, 5⟩
      ∧ (∃ cause, Throttle.codec.decode "\x7b\"last_update_us\":5,\"later\":[]\x7d" =
          .error cause ∧ cause.category.name = "data"
          ∧ cause.message = "missing field `interval_us`")
      ∧ Throttle.codec.decode "[1000000,5]" = .ok ⟨1000000, 5⟩
      ∧ Latches.codec.decode
          ("\x7b\"applied\":[false,true,false,false,true,false],\"overrides\":\x7b" ++
            "\"hfi_conservative_mode\":false,\"temp_estimation_enabled\":true," ++
            "\"aggressive_derating\":true,\"temp_safety_margin_c\":10,\"fet_derate_start_c\":80," ++
            "\"fet_derate_end_c\":90,\"motor_derate_start_c\":75,\"motor_derate_end_c\":85," ++
            "\"mosfet_failure_detection\":false,\"capacitor_monitoring\":false," ++
            "\"switching_frequency_hz\":13000,\"dead_time_ns\":500,\"high_voltage_mode\":false" ++
            "\x7d\x7d") = .ok twoEngaged
      ∧ Latches.codec.decode
          ("\x7b\"applied\":[false,true,false,false,true,false],\"overrides\":[null,null," ++
            "false,true,true,10,80,90,75,85,null,null,false,null,false,13000,500,null,false]\x7d") =
        .ok twoEngaged := by
  obtain ⟨-, -, hoverrides, hlatches, -, hthrottle, -, -, hnested⟩ := strict_documents
  have hobject := (hthrottle.object_iff .none shuffledMembers _).mpr isGiven_shuffledMembers
  have hmissing := hthrottle.missing .none (shuffledMembers.take 2) _ isAdmitted_shuffledMembers rfl
  have hlist := hthrottle.list_of_object .none .none shuffledMembers throttleItems _
    ⟨NamedMember.isValue_items, by decide +kernel⟩ hobject
  have hlatched : ∀ members : List NamedMember,
      (∀ c ∈ Overrides.components, c.IsGiven (members.map (·.entry)) twoEngaged.overrides) →
      Latches.codec.decode (Margins.none.object ((nestedObject members).map (·.toMember))) =
        .ok twoEngaged := by
    intro members hmembers
    have halone := (hoverrides.object_iff .none members twoEngaged.overrides).mpr hmembers
    rw [Margins.none, decode_object_alone] at halone
    exact (hlatches.object_iff .none _ twoEngaged).mpr (isGiven_nestedObject halone)
  have hlisted := hnested .none .none (nestedObject engagedMembers) nestedList twoEngaged
    listsOverrides_nestedList (hlatched _ isGiven_engagedMembers)
  refine ⟨?_, ?_, ?_, ?_, ?_⟩
  · refine Eq.trans (congrArg _ ?_) hobject
    decide +kernel
  · obtain ⟨cause, herror, hcause⟩ := hmissing
    refine ⟨cause, Eq.trans (congrArg _ ?_) herror, hcause⟩
    decide +kernel
  · refine Eq.trans (congrArg _ ?_) hlist
    decide +kernel
  · refine Eq.trans (congrArg _ ?_) (hlatched _ isGiven_terseMembers)
    decide +kernel
  · refine Eq.trans (congrArg _ ?_) hlisted
    decide +kernel

end BoardHealth
