import BoardHealth.Proofs.Journal
import BoardHealth.Proofs.LatchCourse

/-!
# The protections a monitor keeps engaged

A monitor asks for protections with one profile only, its own. `Latches.Serves`
says what follows for its latches: one is set only for a defect of the board, and
the parameters of its class then hold what the board calls for, while those of all
other classes are left alone. Asking and releasing both keep this, whatever has
engaged so far, so it holds after every run:

> `serves_of_run`: nothing is published but what the board calls for.

Asking for all protections sets exactly the latches of the board's defects, on top
of those set before (`isApplied_applyAll`).
-/

namespace BoardHealth

namespace Latches

variable {l : Latches} {p : Profile}

/-- What asking for one protection keeps, asking for several keeps. -/
theorem applyEach_induction {P : Latches → Prop} (happly : ∀ l d, P l → P (l.apply d p).2)
    (ds : List Defect) (h : P l) : P (l.applyEach p ds).2 := by
  induction ds generalizing l with
  | nil => exact h
  | cons d ds ih => exact ih (happly l d h)

/-- Asking for protections sets the latches of those defects that the board has. -/
theorem isApplied_applyEach (ds : List Defect) (d : Defect) :
    (l.applyEach p ds).2.isApplied d = (l.isApplied d || (decide (d ∈ ds) && d.isActive p)) := by
  induction ds generalizing l with
  | nil => exact (Bool.or_false _).symm
  | cons e ds ih =>
    show ((l.apply e p).2.applyEach p ds).2.isApplied d = _
    rw [ih, isApplied_apply, engages]
    by_cases h : d = e
    · -- It is set now, was set before, or the board does not have the defect.
      subst h
      simp only [decide_true, List.mem_cons_self, Bool.true_and]
      cases l.isApplied d <;> cases d.isActive p <;> simp
    · simp [h]

/-- Asking for all protections sets the latch of each defect that the board has. -/
theorem isApplied_applyAll (d : Defect) :
    (l.applyAll p).2.isApplied d = (l.isApplied d || d.isActive p) := by
  rw [applyAll, isApplied_applyEach, decide_eq_true d.mem_all, Bool.true_and]

/-- The latches have served one board only. -/
structure Serves (l : Latches) (p : Profile) : Prop where
  isActive : ∀ d, l.isApplied d = true → d.isActive p = true
  only : ∀ d, l.overrides.only d =
    if l.isApplied d then Overrides.cautious p d else Overrides.empty.only d

namespace Serves

/-- Where nothing has engaged, nothing is published. -/
theorem released : Serves .released p where
  isActive d h := by cases d <;> exact absurd h (by decide)
  only d := by cases d <;> rfl

/-- Asking for a protection for the same board keeps all this. -/
theorem apply (h : l.Serves p) (d : Defect) : (l.apply d p).2.Serves p := by
  -- A class either engages just now, or keeps both its latch and its parameters.
  refine ⟨?_, ?_⟩
  · intro e happlied
    rw [isApplied_apply, Bool.or_eq_true, Bool.and_eq_true, decide_eq_true_iff] at happlied
    rcases happlied with hbefore | ⟨rfl, hengages⟩
    · exact h.isActive e hbefore
    · rw [engages, Bool.and_eq_true] at hengages
      exact hengages.1
  · intro e
    rw [only_apply, isApplied_apply, h.only]
    by_cases hnow : e = d ∧ l.engages d p = true
    · rw [if_pos hnow, decide_eq_true hnow.1, hnow.2, Bool.and_self, Bool.or_true, if_pos rfl]
    · have hfalse : (decide (e = d) && l.engages d p) = false := by simpa using hnow
      rw [if_neg hnow, hfalse, Bool.or_false]

/-- Asking for all protections for the same board keeps all this. -/
theorem applyAll (h : l.Serves p) : (l.applyAll p).2.Serves p :=
  applyEach_induction (P := (·.Serves p)) (fun _ d h => h.apply d) Defect.all h

/-- A parameter has a value only if the board has a defect of its class, and then
the value that the board calls for. -/
theorem eq_of_published {α : Type} (h : l.Serves p) (d : Defect) (parameter : Overrides → Option α)
    (honly : ∀ o : Overrides, parameter (o.only d) = parameter o)
    (hempty : parameter .empty = none) {cautious value : α}
    (hcautious : parameter (.cautious p d) = some cautious)
    (hvalue : parameter l.overrides = some value) : d.isActive p = true ∧ value = cautious := by
  rw [← honly, h.only] at hvalue
  cases happlied : l.isApplied d with
  | false =>
    rw [happlied, if_neg Bool.false_ne_true, honly, hempty] at hvalue
    exact absurd hvalue nofun
  | true =>
    rw [happlied, if_pos rfl, hcautious] at hvalue
    exact ⟨h.isActive d happlied, (Option.some.inj hvalue).symm⟩

end Serves

end Latches

namespace Monitor

/-- Whatever is asked of a monitor, its latches serve its board only. -/
theorem step_serves {m : Monitor} (h : m.latches.Serves m.profile) (op : Operation) :
    (m.step op).after.latches.Serves m.profile := by
  rw [step_latches]
  cases op with
  | start now =>
    dsimp only
    split
    next => exact h
    next => exact h.applyAll
  | resetLatches => exact .released
  | apply d => exact h.apply d
  | _ => exact h

/-- The first start sets the latches of the board's defects, those included that were
set before. -/
theorem isApplied_start {m : Monitor} {p : Profile} (hnew : m.isInitialized = false)
    (hprofile : m.profile = p) (h : m.latches.Serves p) (now : UInt32) (d : Defect) :
    (m.step (.start now)).after.latches.isApplied d = d.isActive p := by
  have hlatches : (m.step (.start now)).after.latches = (m.latches.applyAll p).2 := by
    rw [step_latches, hprofile]
    exact if_neg (by rw [hnew]; exact Bool.false_ne_true)
  rw [hlatches, Latches.isApplied_applyAll]
  -- A latch set before the start belongs to a defect of the board as well.
  cases hbefore : m.latches.isApplied d with
  | false => exact Bool.false_or _
  | true => exact (h.isActive d hbefore).symm

/-- **Nothing is published but what the board calls for.** -/
theorem serves_of_run (p : Profile) (t : Telemetry) (ops : List Operation) :
    ((new p t).run ops).latches.Serves p := by
  have hcall : ∀ (j : Journal) (m : Monitor) (op : Operation), Journal.Follows p j m →
      m.latches.Serves p → (m.step op).after.latches.Serves p := by
    intro j m op hfollows h
    rw [← hfollows.profile] at h ⊢
    exact step_serves h op
  exact (run_induction (fun _ m => m.latches.Serves p) .released hcall ops).2

end Monitor

end BoardHealth
