import BoardHealth.Proofs.Step
import Mathlib.Algebra.Group.Nat.Defs

/-!
# The refresh schedule in real time

A monitor sees a clock of 32 bits that starts over every 71.6 minutes. Here calls
happen in real time, a natural number of microseconds that only grows, and the
monitor is told what the clock shows then.

`marks` are the real times of the first start and of the refreshes granted, taken
from the calls and their answers. Of an interval on the clock only the remainder
is left (`isDue_clock`), so a refresh may be refused long after the last one, but
none is granted too early. `OnSchedule` is the invariant, kept by every call
(`OnSchedule.enter`), and the main statement is

> `refresh_schedule`: when a refresh is granted, and that any two marks lie more
> than an interval apart in real time.
-/

namespace BoardHealth

/-- What the clock shows at a real time, in microseconds. -/
def clock (time : Nat) : UInt32 := .ofNat time

/-- More than an interval has elapsed on the clock if the real time since the mark,
less whole rounds of the clock, is longer. -/
theorem Throttle.isDue_clock {throttle : Throttle} {mark time : Nat}
    (hmark : throttle.lastUpdate = clock mark) (hle : mark ≤ time) :
    throttle.isDue (clock time) = decide (throttle.interval.toNat < (time - mark) % 2 ^ 32) := by
  have helapsed : (throttle.elapsed (clock time)).toNat = (time - mark) % 2 ^ 32 := by
    rw [elapsed, hmark, clock, clock, UInt32.toNat_sub, UInt32.toNat_ofNat',
      UInt32.toNat_ofNat']
    omega
  rw [isDue, decide_eq_decide, ← helapsed]
  exact UInt32.lt_iff_toNat_lt

/-- What the operation is told of the time. -/
def Operation.now? : Operation → Option UInt32
  | start now | update now | validate now => some now
  | _ => none

/-- A call in real time. -/
inductive TimedCall where
  | start (time : Nat)
  | update (time : Nat)
  | validate (time : Nat)
  /-- An operation that is not told the time. -/
  | untimed (operation : Operation) (untold : operation.now? = none)

namespace TimedCall

/-- When the call happens, if that matters. -/
def time? : TimedCall → Option Nat
  | start time | update time | validate time => some time
  | untimed .. => none

/-- The operation that is called for, told what the clock shows. -/
def operation : TimedCall → Operation
  | start time => .start (clock time)
  | update time => .update (clock time)
  | validate time => .validate (clock time)
  | untimed operation _ => operation

/-- Only a start asks the monitor to start. -/
theorem isStart_operation {call : TimedCall} :
    call.operation.isStart = true ↔ ∃ time, call = start time := by
  constructor
  · intro h
    cases call with
    | start time => exact ⟨time, rfl⟩
    | update | validate => exact absurd h Bool.false_ne_true
    | untimed op untold =>
      cases op with
      | start => exact absurd untold nofun
      | _ => exact absurd h Bool.false_ne_true
  · rintro ⟨time, rfl⟩
    rfl

/-- No call in a sequence asks for a start. -/
theorem any_isStart_eq_false {calls : List TimedCall} :
    (calls.map (·.operation)).any (·.isStart) = false ↔ ∀ time, start time ∉ calls := by
  rw [List.any_map, List.any_eq_false]
  constructor
  · intro hnone time hmem
    exact hnone _ hmem (isStart_operation.mpr ⟨time, rfl⟩)
  · intro hnone call hcall hstart
    obtain ⟨time, rfl⟩ := isStart_operation.mp hstart
    exact hnone time hcall

/-- The marks after one more call, the newest first. -/
def mark (marks : List Nat) : TimedCall → Answer → List Nat
  | start time, _ => if marks = [] then [time] else marks
  | update time, answer => if answer = .decision true then time :: marks else marks
  | _, _ => marks

/-- A call adds no mark but its own time. -/
theorem mem_mark {call : TimedCall} {marks : List Nat} {answer : Answer} {mark : Nat}
    (h : mark ∈ call.mark marks answer) : mark ∈ marks ∨ call.time? = some mark := by
  cases call with
  | start time =>
    rw [TimedCall.mark] at h
    split at h
    next => exact .inr (congrArg some (List.mem_singleton.mp h).symm)
    next => exact .inl h
  | update time =>
    rw [TimedCall.mark] at h
    split at h
    next =>
      rcases List.mem_cons.mp h with rfl | hold
      · exact .inr rfl
      · exact .inl hold
    next => exact .inl h
  | validate | untimed => exact .inl h

end TimedCall

namespace Monitor

/-- The marks after a sequence of calls, the newest first. -/
def marksFrom (m : Monitor) (marks : List Nat) : List TimedCall → List Nat
  | [] => marks
  | call :: calls =>
    let effect := m.step call.operation
    effect.after.marksFrom (call.mark marks effect.answer) calls

/-- The monitor has taken note of the marks, and they lie far enough apart. -/
structure OnSchedule (marks : List Nat) (m : Monitor) : Prop where
  interval : m.refresh.interval = 1000000
  isInitialized : m.isInitialized = !marks.isEmpty
  lastUpdate : ∀ mark, marks.head? = some mark → m.refresh.lastUpdate = clock mark
  apart : marks.Pairwise fun later earlier => earlier + 1000000 < later

namespace OnSchedule

variable {marks : List Nat} {m : Monitor}

/-- A refresh is granted if the real time since the last mark, less whole rounds of
the clock, is longer than the interval. -/
theorem granted_eq (h : OnSchedule marks m) {time : Nat} (hpast : ∀ mark ∈ marks, mark ≤ time) :
    (m.isInitialized && m.refresh.isDue (clock time)) =
      marks.head?.elim false fun mark => decide (1000000 < (time - mark) % 2 ^ 32) := by
  rw [h.isInitialized]
  cases marks with
  | nil => rfl
  | cons last older =>
    have hdue := Throttle.isDue_clock (h.lastUpdate last rfl) (hpast last (List.mem_cons_self ..))
    rw [h.interval] at hdue
    exact hdue

/-- A refresh that is granted lies far enough from all marks. -/
theorem apart_cons (h : OnSchedule marks m) {time : Nat} (hpast : ∀ mark ∈ marks, mark ≤ time)
    (hgranted : (m.isInitialized && m.refresh.isDue (clock time)) = true) :
    (time :: marks).Pairwise fun later earlier => earlier + 1000000 < later := by
  rw [h.granted_eq hpast] at hgranted
  refine List.pairwise_cons.mpr ⟨?_, h.apart⟩
  intro mark hmark
  cases marks with
  | nil => exact absurd hmark List.not_mem_nil
  | cons last older =>
    -- What the clock shows as elapsed is never more than the real time.
    have hlong : 1000000 < (time - last) % 2 ^ 32 := of_decide_eq_true hgranted
    have hrounds : (time - last) % 2 ^ 32 ≤ time - last := Nat.mod_le ..
    rcases List.mem_cons.mp hmark with rfl | holder
    · omega
    · -- Older marks lie behind the last one.
      have hlast := (List.pairwise_cons.mp h.apart).1 mark holder
      omega

/-- Whoever leaves the time of the last refresh alone keeps the schedule. -/
theorem of_refresh_eq (h : OnSchedule marks m) {m' : Monitor} (hrefresh : m'.refresh = m.refresh)
    (hinit : m'.isInitialized = m.isInitialized) : OnSchedule marks m' where
  interval := by rw [hrefresh, h.interval]
  isInitialized := by rw [hinit, h.isInitialized]
  lastUpdate mark hmark := by rw [hrefresh, h.lastUpdate mark hmark]
  apart := h.apart

/-- A monitor that marks a time far enough from all others keeps the schedule. -/
theorem marked (h : OnSchedule marks m) {m' : Monitor} {time : Nat}
    (hrefresh : m'.refresh = m.refresh.mark (clock time)) (hinit : m'.isInitialized = true)
    (hapart : (time :: marks).Pairwise fun later earlier => earlier + 1000000 < later) :
    OnSchedule (time :: marks) m' where
  interval := by
    rw [hrefresh]
    exact h.interval
  isInitialized := hinit
  lastUpdate mark hmark := by
    obtain rfl := Option.some.inj hmark
    rw [hrefresh]
    rfl
  apart := hapart

/-- A call that happens no earlier than the marks keeps the schedule. -/
theorem enter (h : OnSchedule marks m) (call : TimedCall)
    (hpast : ∀ mark ∈ marks, ∀ time, call.time? = some time → mark ≤ time) :
    OnSchedule (call.mark marks (m.step call.operation).answer) (m.step call.operation).after := by
  have hrefresh := m.step_refresh call.operation
  have hinit := m.step_isInitialized call.operation
  cases call with
  | start time =>
    by_cases hempty : marks = []
    · subst hempty
      rw [TimedCall.mark, if_pos rfl]
      refine h.marked ?_ ?_ (List.pairwise_singleton ..)
      · rw [hrefresh]
        show (if m.isInitialized then _ else _) = _
        rw [h.isInitialized]
        rfl
      · rw [hinit]
        exact Bool.or_true _
    · have hstarted : m.isInitialized = true := by
        rw [h.isInitialized]
        simpa using hempty
      rw [TimedCall.mark, if_neg hempty]
      refine h.of_refresh_eq ?_ ?_
      · rw [hrefresh]
        exact if_pos hstarted
      · rw [hinit, hstarted]
        rfl
  | update time =>
    have hpast' : ∀ mark ∈ marks, mark ≤ time := fun mark hmark => hpast mark hmark time rfl
    show OnSchedule (TimedCall.mark marks (.update time)
      (m.step (.update (clock time))).answer) (m.step (.update (clock time))).after
    rw [TimedCall.mark, step_update_answer]
    cases hgranted : m.isInitialized && m.refresh.isDue (clock time) with
    | true =>
      rw [if_pos rfl]
      refine h.marked ?_ ?_ (h.apart_cons hpast' hgranted)
      · exact hrefresh.trans (if_pos hgranted)
      · rw [Bool.and_eq_true] at hgranted
        exact hinit.trans (by rw [hgranted.1]; rfl)
    | false =>
      rw [if_neg (by decide)]
      refine h.of_refresh_eq ?_ (hinit.trans (Bool.or_false _))
      refine hrefresh.trans (if_neg ?_)
      rw [hgranted]
      exact Bool.false_ne_true
  | validate time => exact h.of_refresh_eq hrefresh (hinit.trans (Bool.or_false _))
  | untimed op untold =>
    have hquiet : op.isStart = false ∧ (m.step op).after.refresh = m.refresh := by
      cases op with
      | start | update | validate => exact absurd untold nofun
      | _ => exact ⟨rfl, hrefresh⟩
    refine h.of_refresh_eq hquiet.2 (hinit.trans ?_)
    show (m.isInitialized || op.isStart) = _
    rw [hquiet.1, Bool.or_false]

/-- A run whose calls happen in order, and no earlier than the marks, keeps the
schedule; its marks are no later than what comes behind it. -/
theorem run (h : OnSchedule marks m) {calls : List TimedCall} {later : List Nat}
    (hordered : (calls.filterMap (·.time?) ++ later).Pairwise (· ≤ ·))
    (hpast : ∀ mark ∈ marks, ∀ time ∈ calls.filterMap (·.time?) ++ later, mark ≤ time) :
    OnSchedule (m.marksFrom marks calls) (m.run (calls.map (·.operation)))
      ∧ ∀ mark ∈ m.marksFrom marks calls, ∀ time ∈ later, mark ≤ time := by
  -- Both the marks and the monitor move with each call.
  induction calls generalizing marks m with
  | nil => exact ⟨h, hpast⟩
  | cons call calls ih =>
    cases hnow : call.time? with
    | none =>
      rw [List.filterMap_cons_none hnow] at hordered hpast
      refine ih (h.enter call ?_) hordered ?_
      · intro mark _ time htime
        rw [hnow] at htime
        exact absurd htime nofun
      · intro mark hmark time htime
        rcases TimedCall.mem_mark hmark with hold | hnew
        · exact hpast mark hold time htime
        · rw [hnow] at hnew
          exact absurd hnew nofun
    | some now =>
      rw [List.filterMap_cons_some hnow, List.cons_append] at hordered hpast
      obtain ⟨hnext, hrest⟩ := List.pairwise_cons.mp hordered
      refine ih (h.enter call ?_) hrest ?_
      · intro mark hmark time htime
        obtain rfl := Option.some.inj (hnow.symm.trans htime)
        exact hpast mark hmark now (List.mem_cons_self ..)
      · intro mark hmark time htime
        rcases TimedCall.mem_mark hmark with hold | hnew
        · exact hpast mark hold time (List.mem_cons_of_mem _ htime)
        · obtain rfl := Option.some.inj (hnow.symm.trans hnew)
          exact hnext time htime

end OnSchedule

/-- **The refresh schedule.** Let calls happen in order of real time, whatever else
is asked of the monitor in between. The marks are the real times of the first start
and of the refreshes granted; there are none before a start is asked for. A refresh
is then granted exactly if the real time since the last mark, less whole rounds of
the clock, is longer than the interval; so it is granted if that time is longer
than the interval and shorter than a round. Any two marks lie more than an interval
apart. -/
theorem refresh_schedule (p : Profile) (t : Telemetry) (calls : List TimedCall) (time : Nat)
    (hordered : (calls.filterMap (·.time?) ++ [time]).Pairwise (· ≤ ·)) :
    let m := (new p t).run (calls.map (·.operation))
    let marks := (new p t).marksFrom [] calls
    (marks = [] ↔ ∀ time, .start time ∉ calls)
      ∧ (m.update (clock time)).answer =
          marks.head?.elim false (fun mark => decide (1000000 < (time - mark) % 2 ^ 32))
      ∧ (∀ mark, marks.head? = some mark → 1000000 < time - mark → time - mark < 2 ^ 32 →
          (m.update (clock time)).answer = true)
      ∧ (∀ mark, marks.head? = some mark → m.refresh.lastUpdate = clock mark)
      ∧ marks.Pairwise fun later earlier => earlier + 1000000 < later := by
  intro m marks
  have hnew : OnSchedule [] (new p t) := ⟨rfl, rfl, nofun, List.Pairwise.nil⟩
  obtain ⟨hsched, hpast⟩ := hnew.run hordered (fun _ h => absurd h List.not_mem_nil)
  have hgranted : (m.update (clock time)).answer =
      marks.head?.elim false fun mark => decide (1000000 < (time - mark) % 2 ^ 32) := by
    rw [← hsched.granted_eq fun mark hmark => hpast mark hmark time (List.mem_singleton_self _)]
    exact Answer.decision.inj (m.step_update_answer (clock time))
  refine ⟨?_, hgranted, ?_, hsched.lastUpdate, hsched.apart⟩
  · have hinit : (calls.map (·.operation)).any (·.isStart) = !marks.isEmpty := by
      rw [← hsched.isInitialized, run_isInitialized]
      rfl
    rw [← List.isEmpty_iff, ← Bool.not_eq_false', ← hinit, TimedCall.any_isStart_eq_false]
  · intro mark hmark hlong hshort
    rw [hgranted, hmark]
    exact decide_eq_true (by rw [Nat.mod_eq_of_lt hshort]; exact hlong)

/-- Two refreshes, each just over a second after the mark before it; the clock
starts over in front of the first. -/
theorem refresh_schedule_across_overflow :
    let calls : List TimedCall := [.update 4293000000, .start 4294000000, .validate 4294500000,
      .untimed .resetDiagnostics rfl, .update 4295000001, .start 4295000500,
      .untimed .resetLatches rfl, .update 4295500000]
    let m := (new .flipsky75200ProV2 {}).run (calls.map (·.operation))
    (calls.filterMap TimedCall.time? ++ [4296000002]).Pairwise (· ≤ ·)
      ∧ (new .flipsky75200ProV2 {}).marksFrom [] calls = [4295000001, 4294000000]
      ∧ (m.update (clock 4296000002)).answer = true := by
  intro calls m
  have hordered : (calls.filterMap TimedCall.time? ++ [4296000002]).Pairwise (· ≤ ·) := by decide
  have hmarks : (new .flipsky75200ProV2 {}).marksFrom [] calls = [4295000001, 4294000000] := by
    decide
  obtain ⟨-, -, hgranted, -, -⟩ := refresh_schedule .flipsky75200ProV2 {} calls 4296000002 hordered
  exact ⟨hordered, hmarks, hgranted 4295000001 (by rw [hmarks]; rfl) (by decide) (by decide)⟩

end Monitor

end BoardHealth
