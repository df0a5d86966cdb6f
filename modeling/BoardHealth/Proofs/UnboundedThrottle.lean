import BoardHealth.Proofs.RefreshSchedule
import Mathlib.Data.List.Nodup

/-!
# Throttles in unbounded time

A throttle is told what the clock shows, and the clock starts over. `IdealThrottle` is told
the real time, a natural number, and keeps it. Calls happen in order of real time, and the
log of either throttle says of each call which mark it found, as a real time, and whether
it left its own.

As long as every call comes within a round of the clock after the last mark, the two go in
step (`InStep.serve`) and their logs are the same. After a longer pause a throttle may turn
down what the ideal one grants, and never the other way round: what the clock shows as
elapsed is at most the real time (`lt_of_granted`).

> `keeps_real_time`: what a throttle grants, measured in real time.
-/

namespace BoardHealth

namespace Throttle

/-- What a throttle can be asked for, and the real time of the call. -/
inductive Call where
  | mark (time : Nat)
  /-- Asks to be let through. -/
  | acquire (time : Nat)
deriving DecidableEq

namespace Call

/-- When the call happens. -/
def time : Call → Nat
  | mark time | acquire time => time

/-- Whether the call asks to be let through. -/
def isRequest : Call → Bool
  | mark _ => false
  | acquire _ => true

end Call

/-- A call that was served: the real time of the mark it found, and whether it left its
own. -/
structure Served where
  call : Call
  found : Nat
  marked : Bool
deriving DecidableEq

/-- Whether the call asked to be let through and was. -/
def Served.isGrant (s : Served) : Bool := s.call.isRequest && s.marked

/-- The real times at which calls were let through. -/
def grants (log : List Served) : List Nat := (log.filter (·.isGrant)).map (·.call.time)

/-- Whether a call leaves its mark, and the throttle afterwards. -/
def serve (t : Throttle) : Call → Bool × Throttle
  | .mark time => (true, t.mark (clock time))
  | .acquire time => t.acquire (clock time)

/-- The throttle after calls. -/
def run (t : Throttle) (calls : List Call) : Throttle :=
  calls.foldl (fun t call => (t.serve call).2) t

/-- What comes of calls to a throttle that was marked last at a real time. -/
def log (t : Throttle) (last : Nat) : List Call → List Served
  | [] => []
  | call :: calls =>
    let marked := (t.serve call).1
    ⟨call, last, marked⟩ :: (t.serve call).2.log (if marked then call.time else last) calls

end Throttle

/-- A throttle that keeps real time. -/
structure IdealThrottle where
  interval : Nat
  lastUpdate : Nat

namespace IdealThrottle

open Throttle (Call Served)

/-- Whether a call leaves its mark, and the throttle afterwards. A request does so if more
than an interval has gone by. -/
def serve (t : IdealThrottle) : Call → Bool × IdealThrottle
  | .mark time => (true, { t with lastUpdate := time })
  | .acquire time =>
    if t.interval < time - t.lastUpdate then (true, { t with lastUpdate := time }) else (false, t)

/-- The throttle after calls. -/
def run (t : IdealThrottle) (calls : List Call) : IdealThrottle :=
  calls.foldl (fun t call => (t.serve call).2) t

/-- What comes of calls. -/
def log (t : IdealThrottle) : List Call → List Served
  | [] => []
  | call :: calls => ⟨call, t.lastUpdate, (t.serve call).1⟩ :: (t.serve call).2.log calls

/-- What serving a call does. -/
theorem serve_eq (t : IdealThrottle) (call : Call) : t.serve call =
    if !call.isRequest || decide (t.interval < call.time - t.lastUpdate)
    then (true, { t with lastUpdate := call.time }) else (false, t) := by
  cases call with
  | mark time => rfl
  | acquire time =>
    show (if _ then _ else _) = if decide (t.interval < time - t.lastUpdate) = true then _ else _
    by_cases hlong : t.interval < time - t.lastUpdate
    · rw [if_pos hlong, if_pos (decide_eq_true hlong)]
      rfl
    · rw [if_neg hlong, if_neg (by simpa using hlong)]

theorem lastUpdate_serve (t : IdealThrottle) (call : Call) :
    (t.serve call).2.lastUpdate = if (t.serve call).1 then call.time else t.lastUpdate := by
  rw [serve_eq]
  split <;> rfl

end IdealThrottle

namespace Throttle

section Calls

variable {t : Throttle} {last : Nat} {call : Call} {calls : List Call}

/-- What serving a call does. -/
theorem serve_eq : t.serve call = if !call.isRequest || t.isDue (clock call.time)
    then (true, t.mark (clock call.time)) else (false, t) := by
  cases call <;> rfl

/-- A call that leaves no mark leaves nothing. -/
theorem serve_of_not_marked (h : (t.serve call).1 = false) : (t.serve call).2 = t := by
  rw [serve_eq] at h ⊢
  split
  next hmarks => rw [if_pos hmarks] at h; exact Bool.noConfusion h
  next => rfl

theorem interval_serve : (t.serve call).2.interval = t.interval := by
  rw [serve_eq]
  split <;> rfl

/-- The throttle keeps what the clock showed at its last mark. -/
theorem lastUpdate_serve (hlast : t.lastUpdate = clock last) :
    (t.serve call).2.lastUpdate = clock (if (t.serve call).1 then call.time else last) := by
  rw [serve_eq]
  split
  next => rfl
  next => exact hlast

/-- What is granted comes more than an interval after the last mark, in real time. -/
theorem lt_of_granted (hlast : t.lastUpdate = clock last) (hle : last ≤ call.time)
    (hrequest : call.isRequest = true) (hmarked : (t.serve call).1 = true) :
    last + t.interval.toNat < call.time := by
  have hdue : t.isDue (clock call.time) = true := by
    rw [serve_eq, hrequest] at hmarked
    split at hmarked
    next hdue => exact hdue
    next => exact Bool.noConfusion hmarked
  rw [isDue_clock hlast hle, decide_eq_true_eq] at hdue
  -- What the clock shows as elapsed is never more than the real time.
  have hrounds : (call.time - last) % 2 ^ 32 ≤ call.time - last := Nat.mod_le ..
  omega

end Calls

/-! ## Logs -/

section Logs

variable {t : Throttle} {last : Nat} {calls : List Call}

/-- What a mark is followed by is no earlier than the mark. -/
theorem le_next {call : Call} (hordered : (last :: (call :: calls).map (·.time)).Pairwise (· ≤ ·)) :
    last ≤ call.time ∧ ∀ marked : Bool,
      ((if marked then call.time else last) :: calls.map (·.time)).Pairwise (· ≤ ·) := by
  rw [List.map_cons] at hordered
  obtain ⟨hlast, hcalls⟩ := List.pairwise_cons.mp hordered
  refine ⟨hlast _ (List.mem_cons_self ..), fun marked => ?_⟩
  cases marked with
  | true => exact hcalls
  | false =>
    obtain ⟨-, hrest⟩ := List.pairwise_cons.mp hcalls
    exact List.pairwise_cons.mpr ⟨fun time h => hlast time (List.mem_cons_of_mem _ h), hrest⟩

/-- Later calls find the mark or one that was left after it. -/
theorem le_found (hordered : (last :: calls.map (·.time)).Pairwise (· ≤ ·)) :
    ∀ s ∈ t.log last calls, last ≤ s.found := by
  induction calls generalizing t last with
  | nil => exact fun s hs => absurd hs List.not_mem_nil
  | cons call calls ih =>
    obtain ⟨hle, hnext⟩ := le_next hordered
    intro s hs
    rcases List.mem_cons.mp hs with rfl | hs
    · exact Nat.le_refl _
    · have hfound := ih (hnext _) s hs
      split at hfound
      next => exact Nat.le_trans hle hfound
      next => exact hfound

/-- Every grant comes more than an interval after the mark that it finds. -/
theorem found_lt_of_isGrant (hlast : t.lastUpdate = clock last)
    (hordered : (last :: calls.map (·.time)).Pairwise (· ≤ ·)) :
    ∀ s ∈ t.log last calls, s.isGrant = true → s.found + t.interval.toNat < s.call.time := by
  induction calls generalizing t last with
  | nil => exact fun s hs => absurd hs List.not_mem_nil
  | cons call calls ih =>
    obtain ⟨hle, hnext⟩ := le_next hordered
    intro s hs hgrant
    rcases List.mem_cons.mp hs with rfl | hs
    · obtain ⟨hrequest, hmarked⟩ := Bool.and_eq_true_iff.mp hgrant
      exact lt_of_granted hlast hle hrequest hmarked
    · have hlong := ih (lastUpdate_serve hlast) (hnext _) s hs hgrant
      rw [interval_serve] at hlong
      exact hlong

/-- Every grant comes more than an interval after all grants before it. -/
theorem pairwise_grants (hlast : t.lastUpdate = clock last)
    (hordered : (last :: calls.map (·.time)).Pairwise (· ≤ ·)) :
    (grants (t.log last calls)).Pairwise fun earlier later =>
      earlier + t.interval.toNat < later := by
  induction calls generalizing t last with
  | nil => exact List.Pairwise.nil
  | cons call calls ih =>
    obtain ⟨-, hnext⟩ := le_next hordered
    have hrest := ih (lastUpdate_serve hlast) (hnext (t.serve call).1)
    rw [interval_serve] at hrest
    rw [log, grants, List.filter_cons]
    split
    next hgrant =>
      refine List.pairwise_cons.mpr ⟨?_, hrest⟩
      intro later hlater
      obtain ⟨s, hs, rfl⟩ := List.mem_map.mp hlater
      obtain ⟨hs, hgranted⟩ := List.mem_filter.mp hs
      have hmarked : (t.serve call).1 = true := (Bool.and_eq_true_iff.mp hgrant).2
      have hfound := le_found (hnext (t.serve call).1) s hs
      have hlong := found_lt_of_isGrant (lastUpdate_serve hlast) (hnext _) s hs hgranted
      rw [interval_serve] at hlong
      rw [hmarked, if_pos rfl] at hfound
      show call.time + _ < _
      omega
    next => exact hrest

/-- Numbers that lie more than a gap apart spread out by a gap each. -/
theorem add_mul_le_of_pairwise {times : List Nat} {gap i j : Nat}
    (h : times.Pairwise fun earlier later => earlier + gap < later) (hij : i ≤ j)
    (hj : j < times.length) : times[i] + (j - i) * (gap + 1) ≤ times[j] := by
  obtain ⟨k, rfl⟩ := Nat.exists_eq_add_of_le hij
  rw [Nat.add_sub_cancel_left]
  induction k with
  | zero => simp
  | succ k ih =>
    have hbefore := ih (by omega) (by omega)
    have hgap := List.pairwise_iff_getElem.mp h (i + k) (i + k + 1) (by omega) hj (by omega)
    show times[i] + (k + 1) * (gap + 1) ≤ times[i + k + 1]
    rw [Nat.succ_mul]
    omega

end Logs

/-! ## In step with the ideal throttle -/

/-- The two throttles agree on the interval and on the last mark. -/
structure InStep (t : Throttle) (ideal : IdealThrottle) : Prop where
  interval : t.interval.toNat = ideal.interval
  lastUpdate : t.lastUpdate = clock ideal.lastUpdate

/-- A call within a round of the clock is answered alike, and leaves the two in step. -/
theorem InStep.serve {t : Throttle} {ideal : IdealThrottle} (h : InStep t ideal) {call : Call}
    (hle : ideal.lastUpdate ≤ call.time) (hround : call.time < ideal.lastUpdate + 2 ^ 32) :
    (t.serve call).1 = (ideal.serve call).1 ∧ InStep (t.serve call).2 (ideal.serve call).2 := by
  have hdue : t.isDue (clock call.time) =
      decide (ideal.interval < call.time - ideal.lastUpdate) := by
    rw [isDue_clock h.lastUpdate hle, h.interval, Nat.mod_eq_of_lt (by omega)]
  rw [serve_eq, IdealThrottle.serve_eq, hdue]
  split
  next => exact ⟨rfl, h.interval, rfl⟩
  next => exact ⟨rfl, h⟩

/-- As long as every call comes within a round of the clock after the last mark, the logs of
the two are the same, and they stay in step. -/
theorem InStep.run {t : Throttle} {ideal : IdealThrottle} (h : InStep t ideal) {calls : List Call}
    (hordered : (ideal.lastUpdate :: calls.map (·.time)).Pairwise (· ≤ ·))
    (hround : ∀ s ∈ t.log ideal.lastUpdate calls, s.call.time < s.found + 2 ^ 32) :
    t.log ideal.lastUpdate calls = ideal.log calls ∧ InStep (t.run calls) (ideal.run calls) := by
  induction calls generalizing t ideal with
  | nil => exact ⟨rfl, h⟩
  | cons call calls ih =>
    obtain ⟨hle, hnext⟩ := le_next hordered
    obtain ⟨hanswer, hafter⟩ := h.serve hle (hround _ (List.mem_cons_self ..))
    have hmark : (if (t.serve call).1 then call.time else ideal.lastUpdate) =
        (ideal.serve call).2.lastUpdate := by
      rw [hanswer, IdealThrottle.lastUpdate_serve]
    have hlater := hnext (t.serve call).1
    rw [log, List.forall_mem_cons] at hround
    rw [hmark] at hlater hround
    obtain ⟨hlog, hrun⟩ := ih hafter hlater hround.2
    refine ⟨?_, hrun⟩
    rw [log, IdealThrottle.log, hmark, hlog, hanswer]

/-- **What a throttle grants in real time.** Take any throttle and a real time at which the
clock showed its last mark, and let calls happen in order from then on.

As long as every call comes within a round of the clock after the last mark, each call finds
the mark that the ideal throttle has and is answered as the ideal one answers it, and what
the throttle keeps is what the clock showed at the ideal mark. However long the pauses are,
every grant comes more than an interval after the mark it finds. So any grants in a row
spread out over an interval and a microsecond for each but the first, and calls at one time
are granted at most once. A call that leaves no mark leaves the throttle as it was. -/
theorem keeps_real_time (t : Throttle) (start : Nat) (calls : List Call)
    (hstart : t.lastUpdate = clock start)
    (hordered : (start :: calls.map (·.time)).Pairwise (· ≤ ·)) :
    let ideal : IdealThrottle := ⟨t.interval.toNat, start⟩
    let log := t.log start calls
    ((∀ s ∈ log, s.call.time < s.found + 2 ^ 32) →
        log = ideal.log calls ∧ (t.run calls).lastUpdate = clock (ideal.run calls).lastUpdate)
      ∧ (∀ s ∈ log, s.isGrant = true → s.found + t.interval.toNat < s.call.time)
      ∧ (∀ i j (hij : i ≤ j) (hj : j < (grants log).length),
          (grants log)[i] + (j - i) * (t.interval.toNat + 1) ≤ (grants log)[j])
      ∧ (∀ time, (grants log).count time ≤ 1)
      ∧ ∀ call, ((t.run calls).serve call).1 = false →
          ((t.run calls).serve call).2 = t.run calls := by
  intro ideal log
  have hstep : InStep t ideal := ⟨rfl, hstart⟩
  have hapart := pairwise_grants hstart hordered
  refine ⟨fun hround => ?_, found_lt_of_isGrant hstart hordered,
    fun i j hij hj => add_mul_le_of_pairwise hapart hij hj, ?_, fun call => serve_of_not_marked⟩
  · obtain ⟨hlog, hafter⟩ := hstep.run hordered hround
    exact ⟨hlog, hafter.lastUpdate⟩
  · apply List.nodup_iff_count_le_one.mp
    refine hapart.imp fun hlt => ?_
    omega

/-- Two grants in a row, each just over a second after the mark before it; the clock starts
over in front of the first. -/
theorem keeps_real_time_across_overflow :
    let t : Throttle := ⟨1000000, 4294000000⟩
    let calls : List Call := [.acquire 4294900000, .acquire 4295000001, .acquire 4295000001,
      .mark 4295500000, .acquire 4296500000, .acquire 4296500001]
    let log := t.log 4294000000 calls
    t.lastUpdate = clock 4294000000
      ∧ ((4294000000 : Nat) :: calls.map (·.time)).Pairwise (· ≤ ·)
      ∧ (∀ s ∈ log, s.call.time < s.found + 2 ^ 32)
      ∧ log = (IdealThrottle.mk 1000000 4294000000).log calls
      ∧ grants log = [4295000001, 4296500001]
      ∧ (grants log).count 4295000001 ≤ 1 := by
  intro t calls log
  have hordered : ((4294000000 : Nat) :: calls.map (·.time)).Pairwise (· ≤ ·) := by decide
  have hround : ∀ s ∈ log, s.call.time < s.found + 2 ^ 32 := by decide
  obtain ⟨hideal, -, -, honce, -⟩ := keeps_real_time t 4294000000 calls rfl hordered
  exact ⟨rfl, hordered, hround, (hideal hround).1, by decide, honce _⟩

/-- A round of the clock and half a second after its mark a throttle turns down what the
ideal one grants. -/
example :
    let t : Throttle := ⟨1000000, 0⟩
    (t.serve (.acquire 4295467296)).1 = false
      ∧ ((IdealThrottle.mk 1000000 0).serve (.acquire 4295467296)).1 = true := by
  decide

end Throttle

end BoardHealth
