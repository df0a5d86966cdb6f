import BoardHealth.Json.Record

/-!
# Throttle

Periodic work is let through once per interval. Time is a free-running counter of
microseconds in 32 bits; what has elapsed since a mark is the difference on that
counter, so a throttle works across its overflow every 71.6 minutes.
-/

namespace BoardHealth

/-- Lets work through once per interval. -/
structure Throttle where
  /-- In microseconds. -/
  interval : UInt32 := 1000000
  /-- When work was let through last. -/
  lastUpdate : UInt32 := 0
deriving DecidableEq

namespace Throttle

/-- The time since the last update. -/
def elapsed (t : Throttle) (now : UInt32) : UInt32 := now - t.lastUpdate

/-- Whether more than one interval has elapsed. -/
def isDue (t : Throttle) (now : UInt32) : Bool := t.elapsed now > t.interval

/-- The throttle with its last update set. -/
def mark (t : Throttle) (now : UInt32) : Throttle := { t with lastUpdate := now }

/-- Asks to be let through: whether work is due, in which case the time is
marked, and the throttle afterwards. -/
def acquire (t : Throttle) (now : UInt32) : Bool × Throttle :=
  if t.isDue now then (true, t.mark now) else (false, t)

/-! ## JSON form -/

open Json (Field Codec Row)

/-- The fields of a throttle. -/
abbrev fields : List Field := [
  .required "interval_us" .word32,
  .required "last_update_us" .word32]

/-- A throttle as the values of its fields. -/
def toRow (t : Throttle) : Row fields := (t.interval, t.lastUpdate, ())

/-- The throttle with the given values. -/
def ofRow : Row fields → Throttle
  | (interval, lastUpdate, ()) => { interval, lastUpdate }

/-- The JSON form of a throttle. -/
def codec : Codec Throttle := .record "RateLimiter" fields toRow ofRow

end Throttle

end BoardHealth
