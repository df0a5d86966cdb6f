import BoardHealth.Proofs.RefreshSchedule

/-!
# Requests that arrive late

Clients that share a monitor read the clock first and reach the monitor later, so one
request may overtake another, and the monitor is told of a time before the one it marked
last. On the clock such a time does not lie behind the mark but almost a whole round
ahead of it (`isDue_clock_of_lt`), and the request is granted.

Requests are listed in the order in which they arrive, each no more than an interval
late. `granted` are the readings of those that are granted, the newest grant first.
`Serves` is the invariant, kept by every request (`Serves.enter`), and the main statement
is

> `granted_apart_iff_in_order`: two grants lie less than an interval apart only where a
> request came behind a grant with a later reading; every such request is granted.
-/

namespace BoardHealth

/-- A reading behind the mark looks like one of the next round, and so it is due unless
the two are a round less an interval apart. -/
theorem Throttle.isDue_clock_of_lt {throttle : Throttle} {mark time : Nat}
    (hmark : throttle.lastUpdate = clock mark) (hbehind : time < mark)
    (hround : mark + throttle.interval.toNat < time + 2 ^ 32) :
    throttle.isDue (clock time) = true := by
  have helapsed : (throttle.elapsed (clock time)).toNat = 2 ^ 32 - (mark - time) := by
    rw [elapsed, hmark, clock, clock, UInt32.toNat_sub, UInt32.toNat_ofNat',
      UInt32.toNat_ofNat']
    omega
  rw [isDue, decide_eq_true_eq, gt_iff_lt, UInt32.lt_iff_toNat_lt, helapsed]
  omega

/-- A client's request for a refresh: when it reads the clock, and when its call arrives,
which is no more than an interval later. -/
structure RefreshRequest where
  reading : Nat
  arrival : Nat
  reading_le : reading ≤ arrival := by omega
  arrival_le : arrival ≤ reading + 1000000 := by omega

/-- The call that a request is, with the time that the client has read. -/
def RefreshRequest.call (r : RefreshRequest) : TimedCall := .update r.reading

/-- Whether two times lie more than an interval apart, in whichever order. -/
def FarApart (time time' : Nat) : Prop := time + 1000000 < time' ∨ time' + 1000000 < time

namespace Monitor

/-- The readings of the requests that are granted, the newest grant first. -/
def granted (m : Monitor) (requests : List RefreshRequest) : List Nat :=
  m.marksFrom [] (requests.map (·.call))

/-- Every run leaves the interval at a second. -/
theorem run_interval (p : Profile) (t : Telemetry) (ops : List Operation) :
    ((new p t).run ops).refresh.interval = 1000000 := by
  have hrun : ∀ m : Monitor, (m.run ops).refresh.interval = m.refresh.interval := by
    induction ops with
    | nil =>
      intro m
      rfl
    | cons op ops ih =>
      intro m
      refine (ih _).trans ?_
      rw [step_refresh]
      cases op with
      | start | update =>
        dsimp only
        split <;> rfl
      | _ => rfl
  exact hrun _

/-- The monitor has taken note of the last grant, and two grants lie too close together
only where a reading goes back behind the one before it. -/
structure Serves (marks : List Nat) (m : Monitor) : Prop where
  interval : m.refresh.interval = 1000000
  isInitialized : m.isInitialized = true
  lastUpdate : ∀ last, marks.head? = some last → m.refresh.lastUpdate = clock last
  apart_iff : marks.Pairwise FarApart ↔ marks.Pairwise fun later earlier => earlier ≤ later

namespace Serves

variable {marks : List Nat} {m : Monitor}

/-- When a request is granted: it carries a reading from before the last grant, or one
that is late enough behind it. -/
theorem granted_iff (h : Serves marks m) {last time : Nat} (hlast : marks.head? = some last)
    (hlate : last ≤ time + 1000000) :
    (m.isInitialized && m.refresh.isDue (clock time)) = true ↔
      time < last ∨ 1000000 < (time - last) % 2 ^ 32 := by
  have hmark := h.lastUpdate last hlast
  have hinterval : m.refresh.interval.toNat = 1000000 := by rw [h.interval]; rfl
  rw [h.isInitialized, Bool.true_and]
  by_cases hbehind : time < last
  · have hdue := Throttle.isDue_clock_of_lt hmark hbehind (by omega)
    simp [hdue, hbehind]
  · rw [Throttle.isDue_clock hmark (Nat.not_lt.mp hbehind), hinterval, decide_eq_true_eq]
    omega

/-- Where one more request is granted, it lies far from the grants before it exactly if
it carries the latest reading of them all. -/
theorem apart_cons (h : Serves marks m) {time : Nat}
    (hlate : ∀ mark ∈ marks, mark ≤ time + 1000000)
    (hgranted : (m.isInitialized && m.refresh.isDue (clock time)) = true) :
    (time :: marks).Pairwise FarApart ↔
      (time :: marks).Pairwise fun later earlier => earlier ≤ later := by
  rw [List.pairwise_cons, List.pairwise_cons, h.apart_iff]
  refine and_congr_left fun hordered => ?_
  cases marks with
  | nil => simp
  | cons last older =>
    have hdue := (h.granted_iff rfl (hlate last (List.mem_cons_self ..))).mp hgranted
    constructor
    · intro hapart mark hmark
      have hmarkApart := hapart mark hmark
      have hmarkLate := hlate mark hmark
      unfold FarApart at hmarkApart
      omega
    · intro hlatest mark hmark
      -- What the clock shows as elapsed is never more than the real time.
      have hlastLatest := hlatest last (List.mem_cons_self ..)
      have hrounds : (time - last) % 2 ^ 32 ≤ time - last := Nat.mod_le ..
      have hmarkLast : mark ≤ last := by
        rcases List.mem_cons.mp hmark with rfl | holder
        · exact Nat.le_refl _
        · exact (List.pairwise_cons.mp hordered).1 mark holder
      right
      omega

/-- A request that arrives when all grants have arrived keeps the invariant. -/
theorem enter (h : Serves marks m) (r : RefreshRequest)
    (hpast : ∀ mark ∈ marks, mark ≤ r.arrival) :
    Serves (r.call.mark marks (m.step r.call.operation).answer)
      (m.step r.call.operation).after := by
  have hrefresh := m.step_refresh r.call.operation
  have hinit := m.step_isInitialized r.call.operation
  have hlate : ∀ mark ∈ marks, mark ≤ r.reading + 1000000 :=
    fun mark hmark => Nat.le_trans (hpast mark hmark) r.arrival_le
  show Serves (TimedCall.mark marks (.update r.reading)
    (m.step (.update (clock r.reading))).answer) (m.step (.update (clock r.reading))).after
  rw [TimedCall.mark, step_update_answer]
  cases hgranted : m.isInitialized && m.refresh.isDue (clock r.reading) with
  | true =>
    have hmarked : (m.step (.update (clock r.reading))).after.refresh =
        m.refresh.mark (clock r.reading) := hrefresh.trans (if_pos hgranted)
    rw [if_pos rfl]
    refine ⟨?_, ?_, ?_, h.apart_cons hlate hgranted⟩
    · rw [hmarked]
      exact h.interval
    · exact hinit.trans (by rw [h.isInitialized]; rfl)
    · intro last hlast
      obtain rfl := Option.some.inj hlast
      rw [hmarked]
      rfl
  | false =>
    have hkept : (m.step (.update (clock r.reading))).after.refresh = m.refresh := by
      refine hrefresh.trans (if_neg ?_)
      rw [hgranted]
      exact Bool.false_ne_true
    rw [if_neg (by decide)]
    refine ⟨?_, ?_, ?_, h.apart_iff⟩
    · rw [hkept, h.interval]
    · exact hinit.trans (by rw [h.isInitialized]; rfl)
    · intro last hlast
      rw [hkept, h.lastUpdate last hlast]

/-- Requests that arrive one after the other keep the invariant; the grants have then
arrived when the next request does. -/
theorem run (h : Serves marks m) {requests : List RefreshRequest} {next : RefreshRequest}
    (hordered : ((requests ++ [next]).map (·.arrival)).Pairwise (· ≤ ·))
    (hpast : ∀ mark ∈ marks, ∀ r ∈ requests ++ [next], mark ≤ r.arrival) :
    Serves (m.marksFrom marks (requests.map (·.call)))
        (m.run (requests.map (·.call.operation)))
      ∧ ∀ mark ∈ m.marksFrom marks (requests.map (·.call)), mark ≤ next.arrival := by
  -- Both the grants and the monitor move with each request.
  induction requests generalizing marks m with
  | nil => exact ⟨h, fun mark hmark => hpast mark hmark next (List.mem_singleton_self _)⟩
  | cons r requests ih =>
    rw [List.cons_append, List.map_cons, List.pairwise_cons] at hordered
    have hentered := h.enter r fun mark hmark => hpast mark hmark r (List.mem_cons_self ..)
    refine ih hentered hordered.2 ?_
    intro mark hmark r' hr'
    rcases TimedCall.mem_mark hmark with hold | hnew
    · exact hpast mark hold r' (List.mem_cons_of_mem _ hr')
    · obtain rfl := Option.some.inj hnew
      exact Nat.le_trans r.reading_le (hordered.1 r'.arrival (List.mem_map_of_mem hr'))

end Serves

/-- Two requests, of which the later one was read a microsecond before the other, are both
granted. -/
theorem granted_apart_fails_of_overtaken :
    ¬ ∀ (p : Profile) (t : Telemetry) (ops : List Operation) (requests : List RefreshRequest),
      ((new p t).run ops).isInitialized = true →
      (requests.map (·.arrival)).Pairwise (· ≤ ·) →
      (((new p t).run ops).granted requests).Pairwise FarApart := by
  intro h
  have hgranted : ((new .healthy {}).run [.start 1000000]).granted
      [⟨2000001, 2000001, by omega, by omega⟩, ⟨2000000, 2000002, by omega, by omega⟩] =
        [2000000, 2000001] := by decide
  have hapart := h .healthy {} [.start 1000000]
    [⟨2000001, 2000001, by omega, by omega⟩, ⟨2000000, 2000002, by omega, by omega⟩]
    (by decide) (by decide)
  rw [hgranted, List.pairwise_cons] at hapart
  have hclose := hapart.1 2000001 (List.mem_singleton_self _)
  unfold FarApart at hclose
  omega

/-- **Requests that arrive late.** Let clients send requests to a monitor that was
started, whatever was asked of it before. Any two grants carry readings more than an
interval apart exactly if the grants come in the order of their readings. The next
request is granted exactly if its reading lies before that of the last grant, or behind
it by more than an interval, less whole rounds of the clock; in the first case the two
readings lie within an interval. -/
theorem granted_apart_iff_in_order (p : Profile) (t : Telemetry) (ops : List Operation)
    (requests : List RefreshRequest) (next : RefreshRequest)
    (hstarted : ((new p t).run ops).isInitialized = true)
    (hordered : ((requests ++ [next]).map (·.arrival)).Pairwise (· ≤ ·)) :
    let m := (new p t).run ops
    let m' := m.run (requests.map (·.call.operation))
    let marks := m.granted requests
    (marks.Pairwise FarApart ↔ marks.Pairwise fun later earlier => earlier ≤ later)
      ∧ (∀ last, marks.head? = some last →
          ((m'.update (clock next.reading)).answer = true ↔
            next.reading < last ∨ 1000000 < (next.reading - last) % 2 ^ 32))
      ∧ ∀ last, marks.head? = some last → next.reading < last → ¬ FarApart next.reading last := by
  intro m m' marks
  have hnew : Serves [] m := by
    refine ⟨run_interval p t ops, hstarted, nofun, ?_⟩
    simp
  obtain ⟨hserves, hpast⟩ := hnew.run hordered fun _ h => absurd h List.not_mem_nil
  have hlate : ∀ last, marks.head? = some last → last ≤ next.reading + 1000000 := by
    intro last hlast
    have hmem : last ∈ marks := List.mem_of_mem_head? hlast
    exact Nat.le_trans (hpast last hmem) next.arrival_le
  refine ⟨hserves.apart_iff, ?_, ?_⟩
  · intro last hlast
    rw [← hserves.granted_iff hlast (hlate last hlast)]
    have hanswer := Answer.decision.inj (m'.step_update_answer (clock next.reading))
    rw [← hanswer]
  · intro last hlast hbehind hapart
    have hlastLate := hlate last hlast
    unfold FarApart at hapart
    omega

/-- Three requests across the start of a round of the clock. The second overtakes none
and is granted a second after the first; the third was read before the second and is
granted with it. -/
theorem granted_apart_iff_in_order_across_overflow :
    let requests : List RefreshRequest := [{ reading := 4294000000, arrival := 4294000000 },
      { reading := 4295000001, arrival := 4295000100 }]
    let next : RefreshRequest := { reading := 4294999000, arrival := 4295000200 }
    let m := (new .flipsky75200ProV2 {}).run [.start 4000000000, .validate 5]
    let m' := m.run (requests.map (·.call.operation))
    m.isInitialized = true
      ∧ ((requests ++ [next]).map (·.arrival)).Pairwise (· ≤ ·)
      ∧ m.granted requests = [4295000001, 4294000000]
      ∧ (m.granted requests).Pairwise FarApart
      ∧ (m'.update (clock next.reading)).answer = true
      ∧ ¬ FarApart next.reading 4295000001 := by
  intro requests next m m'
  have hstarted : m.isInitialized = true := by decide
  have hordered : ((requests ++ [next]).map (·.arrival)).Pairwise (· ≤ ·) := by decide
  have hgranted : m.granted requests = [4295000001, 4294000000] := by decide
  obtain ⟨hapart, hnext, hclose⟩ := granted_apart_iff_in_order .flipsky75200ProV2 {}
    [.start 4000000000, .validate 5] requests next hstarted hordered
  have hlast : (m.granted requests).head? = some 4295000001 := by rw [hgranted]; rfl
  refine ⟨hstarted, hordered, hgranted, ?_, ?_, ?_⟩
  · refine hapart.mpr ?_
    show (m.granted requests).Pairwise _
    rw [hgranted]
    decide
  · exact (hnext _ hlast).mpr (.inl (by decide))
  · exact hclose _ hlast (by decide)

end Monitor

end BoardHealth
