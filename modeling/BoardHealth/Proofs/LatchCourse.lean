import BoardHealth.Latches

/-!
# The course of the latches

Latches are asked to engage again and again, each time perhaps on another board,
and released now and then. A `Course` is what came of such requests: where the
stretch since the last release began, which classes have engaged since and on
which boards, and the latches now.

The six protections write nineteen parameters between them. `Overrides.only`
takes out the group of one class, and `Overrides.cautious` gives the values that
a board calls for in it; publishing a protection sets its own group and no other
(`only_publish`). Two facts follow for every course by one step (`Held.apply`):
a class engages at most once, and its group holds the values of that board, or
those of the beginning if it did not engage. The main statement is

> `first_profile_wins`: who asks first decides, until all latches are released.
-/

namespace BoardHealth

namespace Overrides

/-- The parameters of one class, all others left out. -/
def only (o : Overrides) : Defect → Overrides
  | .phaseFilter => {
      hfiInjectionVoltageMax := o.hfiInjectionVoltageMax
      hfiBandwidthMax := o.hfiBandwidthMax
      hfiConservativeMode := o.hfiConservativeMode }
  | .thermal => {
      tempEstimationEnabled := o.tempEstimationEnabled
      aggressiveDerating := o.aggressiveDerating
      tempSafetyMargin := o.tempSafetyMargin
      fetDerateStart := o.fetDerateStart
      fetDerateEnd := o.fetDerateEnd
      motorDerateStart := o.motorDerateStart
      motorDerateEnd := o.motorDerateEnd }
  | .mosfet => {
      currentMax := o.currentMax
      voltageMax := o.voltageMax
      mosfetFailureDetection := o.mosfetFailureDetection }
  | .capacitor => {
      rippleCurrentLimitFactor := o.rippleCurrentLimitFactor
      capacitorMonitoring := o.capacitorMonitoring }
  | .gateDriver => {
      switchingFrequency := o.switchingFrequency
      deadTime := o.deadTime }
  | .highVoltage => {
      fieldWeakeningThreshold := o.fieldWeakeningThreshold
      highVoltageMode := o.highVoltageMode }

/-- The groups of the six classes leave no parameter out. -/
theorem ext_only {o o' : Overrides} (h : ∀ d, o.only d = o'.only d) : o = o' := by
  have hphase := h .phaseFilter
  have hthermal := h .thermal
  have hmosfet := h .mosfet
  have hcapacitor := h .capacitor
  have hgate := h .gateDriver
  have hvoltage := h .highVoltage
  simp only [only, mk.injEq, and_true, true_and] at hphase hthermal hmosfet
  simp only [only, mk.injEq, and_true, true_and] at hcapacitor hgate hvoltage
  cases o
  cases o'
  simp_all only

/-- The values that a class of defect calls for on a board. -/
def cautious (p : Profile) : Defect → Overrides
  | .phaseFilter => {
      hfiInjectionVoltageMax := some 0.5
      hfiBandwidthMax := some 200
      hfiConservativeMode := true }
  | .thermal => {
      tempEstimationEnabled := true
      aggressiveDerating := true
      tempSafetyMargin := some p.tempSafetyMargin
      fetDerateStart := some 80
      fetDerateEnd := some 90
      motorDerateStart := some 75
      motorDerateEnd := some 85 }
  | .mosfet => {
      currentMax := some p.mosfetCurrentLimitConservative
      voltageMax := some p.mosfetVoltageLimitConservative
      mosfetFailureDetection := true }
  | .capacitor => {
      rippleCurrentLimitFactor := some p.rippleCurrentLimitFactor
      capacitorMonitoring := true }
  | .gateDriver => {
      switchingFrequency := some p.switchingFrequencySafe
      deadTime := some p.deadTimeMin }
  | .highVoltage => {
      fieldWeakeningThreshold := some 60
      highVoltageMode := true }

/-- A protection sets the group of its class and no other. -/
theorem only_publish (o : Overrides) (p : Profile) (d e : Defect) :
    (o.publish (d.protection p)).only e = if e = d then cautious p d else o.only e := by
  cases d <;> cases e <;> rfl

end Overrides

theorem Defect.index_inj {d e : Defect} : d.index = e.index ↔ d = e := by
  cases d <;> cases e <;> decide

theorem Defect.mem_all (d : Defect) : d ∈ Defect.all := by
  cases d <;> decide

theorem Defect.defect_protection (d : Defect) (p : Profile) : (d.protection p).defect = d := by
  cases d <;> rfl

namespace Latches

variable (l : Latches) (d e : Defect) (p : Profile)

/-- Engaging a protection sets the latch of its class and no other. -/
theorem isApplied_engage (protection : Protection) :
    (l.engage protection).isApplied e = (decide (e = protection.defect) || l.isApplied e) := by
  show (l.applied.set protection.defect.index true)[e.index] = _
  rw [Fin.getElem_fin, Vector.getElem_set]
  by_cases h : e = protection.defect
  · subst h
    rw [if_pos rfl, decide_eq_true rfl, Bool.true_or]
  · have hne : protection.defect.index.val ≠ e.index.val := by
      intro heq
      exact h (Defect.index_inj.mp (Fin.ext heq)).symm
    rw [if_neg hne, decide_eq_false h, Bool.false_or]
    rfl

/-- Whether a protection engages if it is asked for. -/
def engages (l : Latches) (d : Defect) (p : Profile) : Bool := d.isActive p && !l.isApplied d

/-- What asking for a protection does. -/
theorem apply_eq : l.apply d p =
    if l.engages d p then (true, l.engage (d.protection p)) else (false, l) := by
  unfold apply engagement? engages
  cases d.isActive p && !l.isApplied d <;> rfl

theorem apply_fst : (l.apply d p).1 = l.engages d p := by
  rw [apply_eq]
  cases l.engages d p <;> rfl

/-- Asking for a protection sets the latch of its class if it engages. -/
theorem isApplied_apply :
    (l.apply d p).2.isApplied e = (l.isApplied e || (decide (e = d) && l.engages d p)) := by
  rw [apply_eq]
  cases l.engages d p with
  | false => rw [if_neg Bool.false_ne_true, Bool.and_false, Bool.or_false]
  | true =>
    show (l.engage (d.protection p)).isApplied e = _
    rw [isApplied_engage, Defect.defect_protection, Bool.and_true, Bool.or_comm]

/-- Asking for a protection sets the group of its class if it engages. -/
theorem only_apply :
    (l.apply d p).2.overrides.only e =
      if e = d ∧ l.engages d p = true then Overrides.cautious p e else l.overrides.only e := by
  rw [apply_eq]
  cases l.engages d p with
  | false => exact (if_neg fun h => Bool.false_ne_true h.2).symm
  | true =>
    show (l.overrides.publish (d.protection p)).only e = _
    rw [Overrides.only_publish]
    by_cases h : e = d
    · subst h
      rw [if_pos rfl, if_pos ⟨rfl, rfl⟩]
    · rw [if_neg h, if_neg fun hand => h hand.1]

/-- The protection that engages is that of the class asked for. -/
theorem map_engagement? {α : Type} (f : Defect → α) :
    (l.engagement? d p).toList.map (fun protection => f protection.defect) =
      if (l.apply d p).1 then [f d] else [] := by
  rw [apply_fst]
  unfold engagement? engages
  cases d.isActive p && !l.isApplied d with
  | false => rfl
  | true => exact congrArg (fun e => [f e]) (Defect.defect_protection d p)

/-- After a class was asked for it does not engage; whether another one does is unchanged. -/
theorem engages_apply :
    (l.apply d p).2.engages e p = (decide (e ≠ d) && l.engages e p) := by
  rw [engages, isApplied_apply]
  by_cases h : e = d
  · subst h
    rw [engages]
    cases e.isActive p <;> cases l.isApplied e <;> simp
  · rw [decide_eq_false h, decide_eq_true h, Bool.false_and, Bool.or_false, Bool.true_and, engages]

/-- Of classes that are asked for one after the other those engage that would on their
own. -/
theorem map_defect_applyEach {ds : List Defect} (h : ds.Nodup) :
    (l.applyEach p ds).1.map (·.defect) = ds.filter fun d => (l.apply d p).1 := by
  induction ds generalizing l with
  | nil => rfl
  | cons d ds ih =>
    obtain ⟨hd, hds⟩ := List.nodup_cons.mp h
    have hothers : (ds.filter fun e => ((l.apply d p).2.apply e p).1) =
        ds.filter fun e => (l.apply e p).1 := by
      refine List.filter_congr fun e he => ?_
      have hne : e ≠ d := fun heq => hd (heq ▸ he)
      rw [apply_fst, apply_fst, engages_apply, decide_eq_true hne, Bool.true_and]
    have hfirst : (l.engagement? d p).toList.map (·.defect) = if (l.apply d p).1 then [d] else [] :=
      l.map_engagement? d p fun d => d
    show ((l.engagement? d p).toList ++ ((l.apply d p).2.applyEach p ds).1).map (·.defect) = _
    rw [List.map_append, hfirst, ih _ hds, hothers, List.filter_cons]
    cases (l.apply d p).1 <;> rfl

/-- What latches can be asked for. -/
inductive Request where
  | apply (defect : Defect) (profile : Profile)
  | applyAll (profile : Profile)
  | reset
deriving DecidableEq

/-- What has come of a sequence of requests. -/
structure Course where
  /-- The latches where the stretch since the last release began. -/
  base : Latches
  /-- The classes that have engaged since, in order, each with the board for which
  it did. -/
  engaged : List (Defect × Profile) := []
  latches : Latches

namespace Course

/-- The course with one more request. -/
def next (c : Course) : Request → Course
  | .apply d p => { c with
      engaged := c.engaged ++ if (c.latches.apply d p).1 then [(d, p)] else []
      latches := (c.latches.apply d p).2 }
  | .applyAll p => { c with
      engaged := c.engaged ++ (c.latches.applyAll p).1.map fun protection => (protection.defect, p)
      latches := (c.latches.applyAll p).2 }
  | .reset => { base := .released, latches := .released }

/-- The boards for which a class has engaged since the last release, in order. -/
def boards (c : Course) (d : Defect) : List Profile :=
  (c.engaged.filter (·.1 = d)).map (·.2)

end Course

/-- The course of a sequence of requests. -/
def course (l : Latches) (requests : List Request) : Course :=
  requests.foldl Course.next { base := l, latches := l }

namespace Course

variable (c : Course)

/-- Asking for all protections is asking for them one by one, in order. -/
theorem next_applyAll (p : Profile) :
    c.next (.applyAll p) = Defect.all.foldl (fun c d => c.next (.apply d p)) c := by
  -- The recursion conses what engages while the course appends it, so the course
  -- so far stays general.
  have heach : ∀ (ds : List Defect) (c : Course),
      { c with
        engaged := c.engaged ++ (c.latches.applyEach p ds).1.map fun protection =>
          (protection.defect, p)
        latches := (c.latches.applyEach p ds).2 } =
      ds.foldl (fun c d => c.next (.apply d p)) c := by
    intro ds
    induction ds with
    | nil =>
      intro c
      show { c with engaged := c.engaged ++ [] } = c
      rw [List.append_nil]
    | cons d ds ih =>
      intro c
      have hengaged := c.latches.map_engagement? d p fun e => (e, p)
      rw [List.foldl_cons, ← ih]
      show Course.mk c.base (c.engaged ++ ((c.latches.engagement? d p).toList ++ _).map _) _ =
        Course.mk c.base ((c.engaged ++ if (c.latches.apply d p).1 then [(d, p)] else []) ++ _) _
      rw [List.map_append, hengaged, List.append_assoc]
      rfl
  exact heach Defect.all c

/-- What asking for one protection keeps, asking for all keeps. -/
theorem applyAll_induction {P : Course → Prop} {p : Profile} {c : Course}
    (happly : ∀ c d, P c → P (c.next (.apply d p))) (h : P c) : P (c.next (.applyAll p)) := by
  rw [next_applyAll]
  -- By induction on the classes that are still to be asked for.
  have hall : ∀ (ds : List Defect) {c : Course}, P c →
      P (ds.foldl (fun c d => c.next (.apply d p)) c) := by
    intro ds
    induction ds with
    | nil => intro c h; exact h
    | cons d ds ih => intro c h; exact ih (happly c d h)
  exact hall Defect.all h

/-- A stretch begins where the run does, or with all latches released. -/
theorem base_course (requests : List Request) :
    (requests.foldl next c).base = if .reset ∈ requests then .released else c.base := by
  induction requests generalizing c with
  | nil => rfl
  | cons r requests ih =>
    rw [List.foldl_cons, ih]
    cases r with
    | reset =>
      rw [if_pos (List.mem_cons_self ..)]
      show (if _ then Latches.released else .released) = .released
      split <;> rfl
    | apply | applyAll =>
      simp only [List.mem_cons, reduceCtorEq, false_or]
      rfl

/-- A latch that is set stays so until all are released. -/
theorem isApplied_next {d : Defect} {r : Request} (hr : r ≠ .reset)
    (h : c.latches.isApplied d = true) : (c.next r).latches.isApplied d = true := by
  have happly : ∀ (c : Course) (e : Defect) (p : Profile), c.latches.isApplied d = true →
      (c.next (.apply e p)).latches.isApplied d = true := by
    intro c e p h
    show (c.latches.apply e p).2.isApplied d = true
    rw [isApplied_apply, h, Bool.true_or]
  cases r with
  | apply e p => exact happly c e p h
  | applyAll p => exact applyAll_induction (fun c e => happly c e p) h
  | reset => exact absurd rfl hr

/-- A class engages for a board when it is asked for on one that has the defect and
its latch is not set. -/
theorem boards_apply (d e : Defect) (p : Profile) :
    (c.next (.apply d p)).boards e =
      c.boards e ++ if e = d ∧ c.latches.engages d p = true then [p] else [] := by
  show ((c.engaged ++ if (c.latches.apply d p).1 then [(d, p)] else []).filter (·.1 = e)).map (·.2)
    = _
  rw [apply_fst, List.filter_append, List.map_append]
  cases c.latches.engages d p with
  | false =>
    rw [if_neg Bool.false_ne_true, if_neg fun h => Bool.false_ne_true h.2]
    rfl
  | true =>
    by_cases h : e = d
    · subst h
      simp [boards]
    · simp [boards, h, Ne.symm h]

/-- What holds of every course: a latch is set if it was at the beginning or its
class has engaged since, no class engages twice, and the group of each class holds
the values of the board it engaged for, or those of the beginning. -/
structure Held : Prop where
  isApplied : ∀ d, c.latches.isApplied d = (c.base.isApplied d || !(c.boards d).isEmpty)
  once : ∀ d, (c.boards d).length ≤ 1
  only : ∀ d, c.latches.overrides.only d =
    (c.boards d).head?.elim (c.base.overrides.only d) (Overrides.cautious · d)

namespace Held

variable {c}

/-- A class that is about to engage has not engaged before. -/
theorem boards_eq_nil (h : c.Held) {d : Defect} {p : Profile}
    (hengages : c.latches.engages d p = true) : c.boards d = [] := by
  have hnot : c.latches.isApplied d = false := by
    rw [engages, Bool.and_eq_true, Bool.not_eq_true'] at hengages
    exact hengages.2
  rw [h.isApplied, Bool.or_eq_false_iff, Bool.not_eq_false'] at hnot
  exact List.isEmpty_iff.mp hnot.2

/-- Asking for one protection keeps all this. -/
theorem apply (h : c.Held) (d : Defect) (p : Profile) : (c.next (.apply d p)).Held := by
  -- In each part, either `e` engages just now, and has not done so before, or
  -- nothing about `e` changes.
  refine ⟨?_, ?_, ?_⟩
  · intro e
    show (c.latches.apply d p).2.isApplied e = (c.base.isApplied e || _)
    rw [isApplied_apply, boards_apply, h.isApplied]
    by_cases hnow : e = d ∧ c.latches.engages d p = true
    · have hsome : (c.boards e ++ [p]).isEmpty = false := by simp
      rw [if_pos hnow, decide_eq_true hnow.1, hnow.2, hsome]
      exact (Bool.or_true _).trans (Bool.or_true _).symm
    · have hfalse : (decide (e = d) && c.latches.engages d p) = false := by
        rw [Bool.eq_false_iff]
        intro hand
        rw [Bool.and_eq_true, decide_eq_true_eq] at hand
        exact hnow hand
      rw [if_neg hnow, hfalse, Bool.or_false, List.append_nil]
  · intro e
    rw [boards_apply]
    by_cases hnow : e = d ∧ c.latches.engages d p = true
    · obtain ⟨rfl, hengages⟩ := hnow
      rw [h.boards_eq_nil hengages, if_pos ⟨rfl, hengages⟩]
      exact Nat.le_refl 1
    · rw [if_neg hnow, List.append_nil]
      exact h.once e
  · intro e
    show (c.latches.apply d p).2.overrides.only e = Option.elim _ (c.base.overrides.only e) _
    rw [only_apply, boards_apply]
    by_cases hnow : e = d ∧ c.latches.engages d p = true
    · obtain ⟨rfl, hengages⟩ := hnow
      rw [h.boards_eq_nil hengages, if_pos ⟨rfl, hengages⟩, if_pos ⟨rfl, hengages⟩]
      rfl
    · rw [if_neg hnow, if_neg hnow, List.append_nil]
      exact h.only e

/-- A stretch that has just begun. -/
theorem begin (l : Latches) : Held { base := l, latches := l } where
  isApplied _ := (Bool.or_false _).symm
  once _ := Nat.zero_le 1
  only _ := rfl

/-- Every request keeps all this. -/
theorem next (h : c.Held) (r : Request) : (c.next r).Held := by
  cases r with
  | apply d p => exact h.apply d p
  | applyAll p => exact applyAll_induction (fun c d h => h.apply d p) h
  | reset => exact .begin .released

end Held

end Course

/-- Every course is held. -/
theorem held_course (requests : List Request) : (l.course requests).Held := by
  have hfold : ∀ (requests : List Request) {c : Course}, c.Held →
      (requests.foldl Course.next c).Held := by
    intro requests
    induction requests with
    | nil => intro c h; exact h
    | cons r requests ih => intro c h; exact ih (h.next r)
  exact hfold requests (.begin l)

/-- **The first profile wins.** Wherever latches begin, and whatever they are asked
for with whichever profiles:

Asking for a protection answers whether the board has the defect and the latch is
not set. If so, it sets that latch and that group of parameters and no others; if
not, it changes nothing.

Between two releases a class engages at most once, and its latch stays set. Its
group holds what the board it engaged for calls for, and until then what it held
where the stretch began: at the start, or released.

Asking for all protections is asking for the six in order: those engage that would on
their own, in this order, and as many as it says. -/
theorem first_profile_wins (requests : List Request) :
    let c := l.course requests
    let order : List Defect :=
      [.phaseFilter, .thermal, .mosfet, .capacitor, .gateDriver, .highVoltage]
    (∀ d p, (c.latches.apply d p).1 = (d.isActive p && !c.latches.isApplied d))
      ∧ (∀ d p, (c.latches.apply d p).1 = false → (c.latches.apply d p).2 = c.latches)
      ∧ (∀ d p e, (c.latches.apply d p).2.isApplied e =
          (c.latches.isApplied e || (decide (e = d) && (c.latches.apply d p).1)))
      ∧ (∀ d p e, e ≠ d → (c.latches.apply d p).2.overrides.only e = c.latches.overrides.only e)
      ∧ (∀ d, (c.boards d).length ≤ 1)
      ∧ (∀ d r, r ≠ .reset → c.latches.isApplied d = true →
          (c.next r).latches.isApplied d = true)
      ∧ (∀ d, c.latches.isApplied d = (c.base.isApplied d || !(c.boards d).isEmpty))
      ∧ (∀ d, c.latches.overrides.only d =
          (c.boards d).head?.elim (c.base.overrides.only d) (Overrides.cautious · d))
      ∧ c.base = (if .reset ∈ requests then .released else l)
      ∧ ∀ p, c.next (.applyAll p) = order.foldl (fun c d => c.next (.apply d p)) c
          ∧ (c.latches.applyAll p).1.map (·.defect) =
              (order.filter fun d => (c.latches.apply d p).1)
          ∧ (c.next (.applyAll p)).engaged.length =
              c.engaged.length + (c.latches.applyAll p).1.length := by
  intro c order
  have hheld : c.Held := l.held_course requests
  refine ⟨fun d p => c.latches.apply_fst d p, ?_, ?_, ?_, hheld.once,
    fun d r hr h => c.isApplied_next hr h, hheld.isApplied, hheld.only,
    Course.base_course _ requests,
    fun p => ⟨c.next_applyAll p, c.latches.map_defect_applyEach p (by decide), ?_⟩⟩
  · intro d p hfalse
    rw [apply_fst] at hfalse
    rw [apply_eq, hfalse]
    rfl
  · intro d p e
    rw [apply_fst, isApplied_apply]
  · intro d p e hne
    rw [only_apply, if_neg fun hand => hne hand.1]
  · show (c.engaged ++ (c.latches.applyAll p).1.map _).length = _
    rw [List.length_append, List.length_map]

/-- A board with every defect is asked for all protections, then one with other values, and
last for one of them: the six engage for the first board, in order. After a release they
engage for the second. -/
theorem first_profile_wins_of_every_defect :
    let p := Profile.flipsky75200ProV2
    let p' := { p with tempSafetyMargin := 20, deadTimeMin := 600 }
    let kept := released.course [.applyAll p, .applyAll p', .apply .thermal p']
    let again := released.course [.applyAll p, .reset, .applyAll p']
    let overrides : Overrides := {
      hfiInjectionVoltageMax := some 0.5
      hfiBandwidthMax := some 200
      hfiConservativeMode := true
      tempEstimationEnabled := true
      aggressiveDerating := true
      tempSafetyMargin := some 10
      fetDerateStart := some 80
      fetDerateEnd := some 90
      motorDerateStart := some 75
      motorDerateEnd := some 85
      currentMax := some 180
      voltageMax := some 70
      mosfetFailureDetection := true
      rippleCurrentLimitFactor := some 0.8
      capacitorMonitoring := true
      switchingFrequency := some 13000
      deadTime := some 500
      fieldWeakeningThreshold := some 60
      highVoltageMode := true }
    (released.applyAll p).1.map (·.defect) =
        [.phaseFilter, .thermal, .mosfet, .capacitor, .gateDriver, .highVoltage]
      ∧ (∀ d, kept.latches.isApplied d = true)
      ∧ kept.latches.overrides = overrides
      ∧ (∀ d, again.latches.isApplied d = true)
      ∧ again.latches.overrides =
        { overrides with tempSafetyMargin := some 20, deadTime := some 600 } := by
  intro p p' kept again overrides
  obtain ⟨-, -, -, -, -, -, -, -, -, hall⟩ := released.first_profile_wins []
  obtain ⟨-, -, -, -, -, -, hkept, honly, -, -⟩ :=
    released.first_profile_wins [.applyAll p, .applyAll p', .apply .thermal p']
  obtain ⟨-, -, -, -, -, -, hagain, honly', -, -⟩ :=
    released.first_profile_wins [.applyAll p, .reset, .applyAll p']
  have hboards : ∀ d, kept.boards d = [p] := by
    intro d
    cases d <;> decide +kernel
  have hboards' : ∀ d, again.boards d = [p'] := by
    intro d
    cases d <;> decide +kernel
  refine ⟨?_, fun d => ?_, Overrides.ext_only fun d => ?_, fun d => ?_,
    Overrides.ext_only fun d => ?_⟩
  · obtain ⟨-, horder, -⟩ := hall p
    rw [show released.applyAll p = (released.course []).latches.applyAll p from rfl, horder]
    decide +kernel
  · rw [hkept d, hboards d]
    exact Bool.or_true _
  · rw [honly d, hboards d]
    cases d <;> rfl
  · rw [hagain d, hboards' d]
    exact Bool.or_true _
  · rw [honly' d, hboards' d]
    cases d <;> rfl

end Latches

end BoardHealth
