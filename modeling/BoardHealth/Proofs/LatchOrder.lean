import BoardHealth.Proofs.Engagement

/-!
# The order of requests does not matter

Protections are asked for one after the other, all for one board. Whether a latch is set in
the end, and what the group of its class then holds, depends only on whether the class was
asked for at all and on the latches at the beginning (`isApplied_applyEach`,
`only_applyEach`). That is all there is to latches (`ext_views`). It also tells how many
protections have engaged, since each has set a latch that was not set
(`appliedCount_applyEach`). So

> `order_of_requests`: requests for the same classes come to the same.

No two requests have to be exchanged for this: lists with the same members may repeat
classes, and need not be permutations of each other.
-/

namespace BoardHealth.Latches

variable (l : Latches) (p : Profile)

/-- The answers to requests one after the other, and the latches after the last. -/
def ask (l : Latches) (p : Profile) : List Defect → List Bool × Latches
  | [] => ([], l)
  | d :: ds =>
    let (answers, after) := (l.apply d p).2.ask p ds
    ((l.apply d p).1 :: answers, after)

theorem ask_snd (ds : List Defect) : (l.ask p ds).2 = (l.applyEach p ds).2 := by
  induction ds generalizing l with
  | nil => rfl
  | cons d ds ih => exact ih (l.apply d p).2

/-- A protection engages for each request that is answered with yes. -/
theorem count_ask (ds : List Defect) :
    (l.ask p ds).1.count true = (l.applyEach p ds).1.length := by
  induction ds generalizing l with
  | nil => rfl
  | cons d ds ih =>
    have hengaged := congrArg List.length (l.map_engagement? d p id)
    rw [List.length_map] at hengaged
    show ((l.apply d p).1 :: ((l.apply d p).2.ask p ds).1).count true =
      ((l.engagement? d p).toList ++ ((l.apply d p).2.applyEach p ds).1).length
    rw [List.length_append, hengaged, List.count_cons, ih]
    cases (l.apply d p).1 <;> simp [Nat.add_comm]

theorem applyEach_append (ds ds' : List Defect) :
    (l.applyEach p (ds ++ ds')).2 = ((l.applyEach p ds).2.applyEach p ds').2 := by
  induction ds generalizing l with
  | nil => rfl
  | cons d ds ih => exact ih (l.apply d p).2

/-! ## The latches in the end -/

/-- Latches are determined by which are set and by the groups of the classes. -/
theorem ext_views {l l' : Latches} (happlied : ∀ d, l.isApplied d = l'.isApplied d)
    (honly : ∀ d, l.overrides.only d = l'.overrides.only d) : l = l' := by
  have hindex : ∀ i : Fin 6, ∃ d ∈ Defect.all, d.index = i := by decide
  have hflags : l.applied = l'.applied := by
    refine Vector.ext fun i hi => ?_
    obtain ⟨d, -, hd⟩ := hindex ⟨i, hi⟩
    have h : l.applied.get d.index = l'.applied.get d.index := happlied d
    rw [hd] at h
    exact h
  have hoverrides : l.overrides = l'.overrides := Overrides.ext_only honly
  cases l
  cases l'
  rw [mk.injEq]
  exact ⟨hflags, hoverrides⟩

/-- Asking for protections sets the groups of those classes that engage at the beginning. -/
theorem only_applyEach (ds : List Defect) (e : Defect) :
    (l.applyEach p ds).2.overrides.only e =
      if e ∈ ds ∧ l.engages e p = true then Overrides.cautious p e else l.overrides.only e := by
  induction ds generalizing l with
  | nil => exact (if_neg fun h => List.not_mem_nil h.1).symm
  | cons d ds ih =>
    show ((l.apply d p).2.applyEach p ds).2.overrides.only e = _
    rw [ih, engages_apply, only_apply]
    by_cases h : e = d
    · -- The class is asked for now: later requests for it change nothing.
      subst h
      simp
    · simp [h]

/-- Requests for the same classes end in the same latches. -/
theorem applyEach_congr {ds ds' : List Defect} (hmem : ∀ d, d ∈ ds ↔ d ∈ ds') :
    (l.applyEach p ds).2 = (l.applyEach p ds').2 := by
  refine ext_views (fun d => ?_) (fun d => ?_)
  · simp only [isApplied_applyEach, hmem]
  · simp only [only_applyEach, hmem]

/-! ## The number of protections that engage -/

/-- A protection whose latch is not set adds one to those that are. -/
theorem appliedCount_engage {protection : Protection}
    (h : l.isApplied protection.defect = false) :
    (l.engage protection).appliedCount = l.appliedCount + 1 := by
  have hindex : protection.defect.index.val < l.applied.toList.length := by
    rw [Vector.length_toList]
    exact protection.defect.index.isLt
  have hbefore : l.applied.toList[protection.defect.index.val] = false := by
    rw [Vector.getElem_toList]
    exact h
  show (l.applied.set protection.defect.index true).toList.countP id = _
  rw [Vector.toList_set, List.countP_set hindex, hbefore]
  rfl

theorem appliedCount_apply (d : Defect) :
    (l.apply d p).2.appliedCount = l.appliedCount + (l.engagement? d p).toList.length := by
  unfold apply engagement?
  cases h : d.isActive p && !l.isApplied d with
  | false => rfl
  | true =>
    rw [Bool.and_eq_true, Bool.not_eq_true'] at h
    refine l.appliedCount_engage ?_
    rw [Defect.defect_protection]
    exact h.2

/-- Each protection that engages sets one more latch. -/
theorem appliedCount_applyEach (ds : List Defect) :
    (l.applyEach p ds).2.appliedCount = l.appliedCount + (l.applyEach p ds).1.length := by
  induction ds generalizing l with
  | nil => rfl
  | cons d ds ih =>
    show ((l.apply d p).2.applyEach p ds).2.appliedCount =
      l.appliedCount + ((l.engagement? d p).toList ++ ((l.apply d p).2.applyEach p ds).1).length
    rw [ih, appliedCount_apply, List.length_append, Nat.add_assoc]

/-- Requests for the same classes end in equally many set latches, so as many protections
engage. -/
theorem length_applyEach_congr {ds ds' : List Defect} (hmem : ∀ d, d ∈ ds ↔ d ∈ ds') :
    (l.applyEach p ds).1.length = (l.applyEach p ds').1.length := by
  have hafter := l.appliedCount_applyEach p ds
  rw [l.applyEach_congr p hmem, appliedCount_applyEach] at hafter
  omega

/-! ## Asking for all protections -/

/-- Whatever was asked for before, asking for all protections ends in the same latches. -/
theorem applyAll_applyEach (ds : List Defect) :
    ((l.applyEach p ds).2.applyAll p).2 = (l.applyAll p).2 := by
  rw [applyAll, ← applyEach_append]
  refine l.applyEach_congr p fun d => ?_
  rw [List.mem_append]
  exact or_iff_right_of_imp fun _ => d.mem_all

/-- After all protections have been asked for, no request changes the latches. -/
theorem applyEach_applyAll (ds : List Defect) :
    ((l.applyAll p).2.applyEach p ds).2 = (l.applyAll p).2 := by
  rw [applyAll, ← applyEach_append]
  refine l.applyEach_congr p fun d => ?_
  rw [List.mem_append]
  exact or_iff_left_of_imp fun _ => d.mem_all

/-- After all protections have been asked for, none is left to engage. -/
theorem applyAll_applyAll : (l.applyAll p).2.applyAll p = ([], (l.applyAll p).2) := by
  have hafter : ((l.applyAll p).2.applyAll p).2 = (l.applyAll p).2 :=
    l.applyEach_applyAll p Defect.all
  have hcount := (l.applyAll p).2.appliedCount_applyEach p Defect.all
  rw [← applyAll, hafter] at hcount
  have hnone : ((l.applyAll p).2.applyAll p).1 = [] :=
    List.length_eq_zero_iff.mp (Nat.left_eq_add.mp hcount)
  exact Prod.ext hnone hafter

/-- **Requests for the same classes come to the same.** Wherever latches begin, and for
whichever board:

Two sequences of requests with the same classes, in any order and however often each of
them is repeated, end in the same latches, and the same number of their requests is
answered with yes.

Asking for all protections ends in the same latches as any requests in which no class is
missing, and as many protections engage. Requests before it or after it make no difference
to these latches. If all are asked for once more, no protection engages, and the latches
stay as they are. -/
theorem order_of_requests :
    (∀ ds ds' : List Defect, (∀ d, d ∈ ds ↔ d ∈ ds') →
        (l.ask p ds).2 = (l.ask p ds').2
          ∧ (l.ask p ds).1.count true = (l.ask p ds').1.count true)
      ∧ (∀ ds : List Defect, (∀ d, d ∈ ds) →
          (l.applyAll p).2 = (l.ask p ds).2
            ∧ (l.applyAll p).1.length = (l.ask p ds).1.count true)
      ∧ (∀ ds : List Defect, ((l.ask p ds).2.applyAll p).2 = (l.applyAll p).2
          ∧ ((l.applyAll p).2.ask p ds).2 = (l.applyAll p).2)
      ∧ (l.applyAll p).2.applyAll p = ([], (l.applyAll p).2) := by
  refine ⟨fun ds ds' hmem => ?_, fun ds hds => ?_, fun ds => ?_, l.applyAll_applyAll p⟩
  · simp only [ask_snd, count_ask]
    exact ⟨l.applyEach_congr p hmem, l.length_applyEach_congr p hmem⟩
  · have hmem : ∀ d, d ∈ Defect.all ↔ d ∈ ds := fun d => iff_of_true d.mem_all (hds d)
    rw [ask_snd, count_ask]
    exact ⟨l.applyEach_congr p hmem, l.length_applyEach_congr p hmem⟩
  · simp only [ask_snd]
    exact ⟨l.applyAll_applyEach p ds, l.applyEach_applyAll p ds⟩

end BoardHealth.Latches
