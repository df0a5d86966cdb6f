import BoardHealth.Profile
import BoardHealth.Proofs.Json.Entries

/-!
# Documents of profiles

A document describes a board by what sets it apart from a healthy one. `overlay` says
which profile this is: each field has the value that the document gives under the
field's own name, and else that of a healthy board.

> `document_overlays_healthy`: what is read from a document is its overlay. The order of
> the members, members under other names, and blanks have no say in it. A field that is
> mentioned twice is refused, and so is a list that is longer than there are fields.
-/

namespace BoardHealth.Profile

open Json

/-- The healthy board with the values that entries give. -/
def overlay (entries : List Entry) : Profile where
  phaseFiltersPresent := (Codec.boolean.given "phase_filters_present" entries).getD
    healthy.phaseFiltersPresent
  singleTemperatureSensor := (Codec.boolean.given "single_temperature_sensor" entries).getD
    healthy.singleTemperatureSensor
  currentSensingLowSideOnly := (Codec.boolean.given "current_sensing_low_side_only" entries).getD
    healthy.currentSensingLowSideOnly
  currentSensingLimitedAccuracy :=
    (Codec.boolean.given "current_sensing_limited_accuracy" entries).getD
      healthy.currentSensingLimitedAccuracy
  mosfetQualityIssues := (Codec.boolean.given "mosfet_quality_issues" entries).getD
    healthy.mosfetQualityIssues
  capacitorReliabilityIssues := (Codec.boolean.given "capacitor_reliability_issues" entries).getD
    healthy.capacitorReliabilityIssues
  gateResistorIssues := (Codec.boolean.given "gate_resistor_issues" entries).getD
    healthy.gateResistorIssues
  voltageMaxAbsolute := (Codec.single.given "voltage_max_absolute" entries).getD
    healthy.voltageMaxAbsolute
  currentMaxSafe := (Codec.single.given "current_max_safe" entries).getD healthy.currentMaxSafe
  voltageMaxSafe := (Codec.single.given "voltage_max_safe" entries).getD healthy.voltageMaxSafe
  hfiVoltageScaleMax := (Codec.single.given "hfi_voltage_scale_max" entries).getD
    healthy.hfiVoltageScaleMax
  hfiBandwidthMax := (Codec.single.given "hfi_bandwidth_max" entries).getD healthy.hfiBandwidthMax
  tempSafetyMargin := (Codec.single.given "temp_safety_margin" entries).getD
    healthy.tempSafetyMargin
  mosfetCurrentLimitConservative :=
    (Codec.single.given "mosfet_current_limit_conservative" entries).getD
      healthy.mosfetCurrentLimitConservative
  mosfetVoltageLimitConservative :=
    (Codec.single.given "mosfet_voltage_limit_conservative" entries).getD
      healthy.mosfetVoltageLimitConservative
  switchingFrequencySafe := (Codec.word32.given "switching_frequency_safe" entries).getD
    healthy.switchingFrequencySafe
  deadTimeMin := (Codec.word32.given "dead_time_min_ns" entries).getD healthy.deadTimeMin
  tempEstimationRequired := (Codec.boolean.given "temp_estimation_required" entries).getD
    healthy.tempEstimationRequired
  tempDeratingAggressive := (Codec.boolean.given "temp_derating_aggressive" entries).getD
    healthy.tempDeratingAggressive
  mosfetFailureDetection := (Codec.boolean.given "mosfet_failure_detection" entries).getD
    healthy.mosfetFailureDetection
  rippleCurrentLimitFactor := (Codec.single.given "ripple_current_limit_factor" entries).getD
    healthy.rippleCurrentLimitFactor

/-- The names of the fields, in their order. -/
def names : List (List Char) := fields.map (·.name.toList)

theorem distinctNames_fields : DistinctNames fields := by decide +kernel

theorem allDefaulting_fields : AllDefaulting fields := by
  simp [AllDefaulting, fields, Field.defaulting]

theorem takesValues_fields : ∀ f ∈ fields, f.codec.TakesValues := by
  simp only [fields, List.forall_mem_cons]
  exact ⟨Codec.takesValues_boolean, Codec.takesValues_boolean, Codec.takesValues_boolean,
    Codec.takesValues_boolean, Codec.takesValues_boolean, Codec.takesValues_boolean,
    Codec.takesValues_boolean, Codec.takesValues_single, Codec.takesValues_single,
    Codec.takesValues_single, Codec.takesValues_single, Codec.takesValues_single,
    Codec.takesValues_single, Codec.takesValues_single, Codec.takesValues_single,
    Codec.takesValues_word32, Codec.takesValues_word32, Codec.takesValues_boolean,
    Codec.takesValues_boolean, Codec.takesValues_boolean, Codec.takesValues_single, nofun⟩

/-- A slot that is empty is filled with the value of a healthy board. -/
theorem complete_ofEntries (entries : List Entry) :
    ((Slots.ofEntries entries fields).complete).map ofRow = .ok (overlay entries) := by
  simp only [fields, Slots.complete_defaulting]
  rfl

/-- Whether the members mention no field twice, and give each field that they mention a
value of its type. -/
def GiveOnce (ms : List NamedMember) : Prop :=
  ((knownEntries fields (ms.map (·.entry))).map (·.1)).Nodup ∧
    Readable fields (ms.map (·.entry))

theorem decode_object_of_giveOnce (g : Margins) {ms : List NamedMember} (h : GiveOnce ms) :
    codec.decode (g.object (ms.map (·.toMember))) = .ok (overlay (ms.map (·.entry))) := by
  have hvalues : ∀ m ∈ ms.map (·.toMember), IsValue m.value := by
    intro m hm
    obtain ⟨n, -, rfl⟩ := List.mem_map.mp hm
    exact n.isValue
  rw [codec, g.decode_object _ takesValues_fields hvalues,
    Slots.enterAll_named distinctNames_fields ms h.1 h.2]
  exact complete_ofEntries _

/-- What is read does not depend on the order of the entries, nor on those under other
names. -/
theorem overlay_eq_of_perm {entries entries' : List Entry}
    (hperm : (knownEntries fields entries).Perm (knownEntries fields entries'))
    (honce : ((knownEntries fields entries).map (·.1)).Nodup) :
    overlay entries = overlay entries' := by
  have hslots : Slots.ofEntries entries fields = Slots.ofEntries entries' fields := by
    refine Slots.ofEntries_congr fun f hf => ?_
    rw [← lookup_knownEntries hf, lookup_eq_of_perm hperm honce, lookup_knownEntries hf]
  have heq := complete_ofEntries entries
  rw [hslots, complete_ofEntries entries'] at heq
  exact (Except.ok.inj heq).symm

theorem GiveOnce.of_perm {ms ms' : List NamedMember} (h : GiveOnce ms)
    (hperm : (knownEntries fields (ms.map (·.entry))).Perm
      (knownEntries fields (ms'.map (·.entry)))) : GiveOnce ms' := by
  refine ⟨(hperm.map _).nodup_iff.mp h.1, fun e he f hf hname => ?_⟩
  have hknown : e ∈ knownEntries fields (ms.map (·.entry)) := by
    refine hperm.mem_iff.mpr (List.mem_filter.mpr ⟨he, decide_eq_true ?_⟩)
    exact List.mem_map.mpr ⟨f, hf, hname⟩
  exact h.2 e (List.mem_filter.mp hknown).1 f hf hname

theorem exists_decode_object_of_twice (g : Margins) {key : List Char} (hkey : key ∈ names)
    {m m' : Member} (hm : Spells key m.body) (hm' : Spells key m'.body)
    {front between behind : List Member}
    (hvalues : ∀ n ∈ front ++ m :: (between ++ m' :: behind), IsValue n.value) :
    ∃ e, codec.decode (g.object (front ++ m :: (between ++ m' :: behind))) = .error e := by
  obtain ⟨e, he⟩ := Slots.exists_enterAll_of_twice (Slots.empty fields)
    (List.mem_map.mp hkey) hm hm' front between behind
  refine ⟨e, ?_⟩
  rw [codec, g.decode_object _ takesValues_fields hvalues, he]
  rfl

theorem decode_list_of_readable (g : Margins) {items : List Item} (hlength : items.length ≤ 21)
    (hitems : ∀ i ∈ items, IsValue i.value)
    (hreadable : ∀ e ∈ fields.zip (items.map (·.value)), (e.1.codec.reader.decode e.2).isOk) :
    codec.decode (g.list items) = .ok (overlay (names.zip (items.map (·.value)))) := by
  rw [codec, g.decode_list _ takesValues_fields hitems,
    Reader.listed_eq_complete _ _ distinctNames_fields allDefaulting_fields
      (by rwa [List.length_map]) hreadable]
  exact complete_ofEntries _

theorem exists_decode_list_of_longer (g : Margins) {items : List Item}
    (hlength : 21 < items.length) (hitems : ∀ i ∈ items, IsValue i.value) :
    ∃ e, codec.decode (g.list items) = .error e := by
  have hlonger : fields.length < (items.map (·.value)).length := by rwa [List.length_map]
  obtain ⟨e, he⟩ := Reader.exists_listed_of_longer
    (.wrongLength · (.listedRecord "HardwareCapabilityProfile" fields.length)) 0 hlonger
  refine ⟨e, ?_⟩
  rw [codec, g.decode_list _ takesValues_fields hitems, he]
  rfl

/-- **A document overlays the healthy board.** From an object whose members mention no
field twice, with values of the fields' types and next to any other members, its overlay
is read; so two objects are read alike if they give the same fields the same values, in
whatever order, next to whatever else and with blanks wherever they may stand. An object
that mentions a field twice is refused, however the two keys are spelled. A list gives
the first fields their values, in the order of the fields, and is refused if it has more
items than there are fields. -/
theorem document_overlays_healthy :
    (∀ (g : Margins) (ms : List NamedMember), GiveOnce ms →
      codec.decode (g.object (ms.map (·.toMember))) = .ok (overlay (ms.map (·.entry))))
    ∧ (∀ (g g' : Margins) (ms ms' : List NamedMember), GiveOnce ms →
      (knownEntries fields (ms.map (·.entry))).Perm (knownEntries fields (ms'.map (·.entry))) →
      codec.decode (g.object (ms.map (·.toMember))) =
        codec.decode (g'.object (ms'.map (·.toMember))))
    ∧ (∀ (g : Margins) (key : List Char) (m m' : Member) (front between behind : List Member),
      key ∈ names → Spells key m.body → Spells key m'.body →
      (∀ n ∈ front ++ m :: (between ++ m' :: behind), IsValue n.value) →
      ∃ e, codec.decode (g.object (front ++ m :: (between ++ m' :: behind))) = .error e)
    ∧ (∀ (g : Margins) (items : List Item), items.length ≤ 21 →
      (∀ i ∈ items, IsValue i.value) →
      (∀ e ∈ fields.zip (items.map (·.value)), (e.1.codec.reader.decode e.2).isOk) →
      codec.decode (g.list items) = .ok (overlay (names.zip (items.map (·.value)))))
    ∧ (∀ (g : Margins) (items : List Item), 21 < items.length →
      (∀ i ∈ items, IsValue i.value) → ∃ e, codec.decode (g.list items) = .error e) := by
  refine ⟨fun g ms h => decode_object_of_giveOnce g h, ?_, ?_, ?_, ?_⟩
  · intro g g' ms ms' h hperm
    rw [decode_object_of_giveOnce g h, decode_object_of_giveOnce g' (h.of_perm hperm),
      overlay_eq_of_perm hperm h.1]
  · intro g key m m' front between behind hkey hm hm' hvalues
    exact exists_decode_object_of_twice g hkey hm hm' hvalues
  · intro g items hlength hitems hreadable
    exact decode_list_of_readable g hlength hitems hreadable
  · intro g items hlength hitems
    exact exists_decode_list_of_longer g hlength hitems

theorem spells_deadTime :
    Spells "dead_time_min_ns".toList "dead\\u005ftime_min_ns".toList := by
  have hunderscore : hexNumber? ['0', '0', '5', 'f'] = some 0x5f := rfl
  exact (spells_escape "dead".toList).append
    (.unit hunderscore rfl rfl (spells_escape "time_min_ns".toList))

/-- A dead time of 400, with an escape in its key and blanks between its tokens. -/
def deadTimeMember : NamedMember where
  indent := [' ']
  body := "dead\\u005ftime_min_ns".toList
  gap := [' ']
  lead := ['\t']
  value := "400".toList
  trail := ['\n']
  isBlanks_indent := .of_all rfl
  isStringBody := spells_deadTime.isStringBody
  isBlanks_gap := .of_all rfl
  isBlanks_lead := .of_all rfl
  isBlanks_trail := .of_all rfl
  name := "dead_time_min_ns".toList
  spells := spells_deadTime
  isValue := .scalar (.number (n := ⟨false, "400".toList, [], none⟩)
    (.intro (.of_all (by decide) rfl) (by decide) nofun .absent))

/-- A member under a name that no field has. -/
def unknownMember : NamedMember :=
  .written "future".toList "[null]".toList
    (.filled (b := .list) (.last .list .nil (.scalar .null) .nil))

/-- A safety margin that is no whole number. -/
def marginMember : NamedMember :=
  .written "temp_safety_margin".toList "7.5".toList
    (.scalar (.number (n := ⟨false, "7".toList, "5".toList, none⟩)
      (.intro (.of_all (by decide) rfl) (by decide) (IsDigits.of_all (by decide) rfl).2 .absent)))

/-- A defect. -/
def issuesMember : NamedMember :=
  .written "mosfet_quality_issues".toList "true".toList (.scalar .yes)

/-- The item `false`. -/
def falseItem : Item := ⟨[], "false".toList, [], .nil, ⟨_, _, rfl, rfl⟩, .nil⟩

/-- Documents that give an integer, a number and a truth value, next to something unknown, in
two orders; one that gives the integer twice; a list of one value and a list that is too
long. -/
theorem document_overlays_healthy_of_three_members :
    let p := { healthy with
      deadTimeMin := 400, tempSafetyMargin := 7.5, mosfetQualityIssues := true }
    codec.decode ("\x7b\"future\":[null], \"dead\\u005ftime_min_ns\" :\t400\n," ++
          "\"temp_safety_margin\":7.5,\"mosfet_quality_issues\":true\x7d") = .ok p
      ∧ codec.decode ("\x7b\"mosfet_quality_issues\":true," ++
          " \"dead\\u005ftime_min_ns\" :\t400\n,\"temp_safety_margin\":7.5,\"future\":[null]\x7d") =
        .ok p
      ∧ (∃ e, codec.decode
        "\x7b \"dead\\u005ftime_min_ns\" :\t400\n,\"dead_time_min_ns\":400\x7d" = .error e)
      ∧ codec.decode "[false]" = .ok { healthy with phaseFiltersPresent := false }
      ∧ (∃ e, codec.decode (Margins.none.list (.replicate 22 falseItem)) = .error e) := by
  intro p
  obtain ⟨hobject, horder, htwice, hlist, hlonger⟩ := document_overlays_healthy
  let ms := [unknownMember, deadTimeMember, marginMember, issuesMember]
  let ms' := [issuesMember, deadTimeMember, marginMember, unknownMember]
  have hgiven : GiveOnce ms := ⟨by decide +kernel, by decide +kernel⟩
  have hoverlay : overlay (ms.map (·.entry)) = p := by decide +kernel
  have hread := hobject .none ms hgiven
  have hfalse : IsValue falseItem.value := .scalar .no
  rw [hoverlay] at hread
  refine ⟨?_, ?_, ?_, ?_, ?_⟩
  · exact hread
  · have hsame := horder .none .none ms ms' hgiven (by decide +kernel)
    exact hsame.symm.trans hread
  · refine htwice .none "dead_time_min_ns".toList deadTimeMember.toMember
      (.written [] [] "dead_time_min_ns".toList "400".toList .nil .nil) [] [] []
      (by decide) deadTimeMember.spells (spells_escape _) ?_
    simp only [List.nil_append, List.forall_mem_cons]
    exact ⟨deadTimeMember.isValue, deadTimeMember.isValue, nofun⟩
  · have hfirst : overlay (names.zip [falseItem.value]) =
        { healthy with phaseFiltersPresent := false } := by decide +kernel
    rw [← hfirst]
    refine hlist .none [falseItem] (by decide) ?_ (by decide)
    simp only [List.forall_mem_cons]
    exact ⟨hfalse, nofun⟩
  · refine hlonger .none (.replicate 22 falseItem) (by decide) fun i hi => ?_
    obtain rfl := List.eq_of_mem_replicate hi
    exact hfalse

end BoardHealth.Profile
