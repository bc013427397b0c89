/-!
# When to sweep

A table whose entries may become stale on their own is swept now and then. A sweep is due when
the table has grown to twice what the last sweep left, and never before it holds sixteen entries.
Sizes are 64-bit words, and twice a size wraps around.
-/

set_option autoImplicit false

namespace Collections.Weak

/-- The size at which the next sweep is due, and the number of sweeps so far. -/
structure PurgeSchedule where
  sweepAt : UInt64 := 16
  sweeps : Nat := 0
  deriving DecidableEq, Repr, Inhabited

namespace PurgeSchedule

/-- The size below which no sweep is due. -/
def least : UInt64 := 16

/-- Whether a table of a size is to be swept. -/
def due (schedule : PurgeSchedule) (size : UInt64) : Bool := schedule.sweepAt ≤ size

/-- The schedule after a sweep that left a number of entries. -/
def swept (schedule : PurgeSchedule) (size : UInt64) : PurgeSchedule :=
  { sweepAt := max least (2 * size), sweeps := schedule.sweeps + 1 }

/-- A question to a schedule, or news for it. -/
inductive Step where
  | due (size : UInt64)
  | swept (size : UInt64)

inductive Answer where
  | flag (value : Bool)
  | count (value : Nat)

def step (schedule : PurgeSchedule) : Step → Answer × PurgeSchedule
  | .due size => (.flag (schedule.due size), schedule)
  | .swept size =>
      let schedule := schedule.swept size
      (.count schedule.sweeps, schedule)

def run (schedule : PurgeSchedule) : List Step → List Answer × PurgeSchedule
  | [] => ([], schedule)
  | first :: rest =>
      let (answer, schedule) := schedule.step first
      let (answers, schedule) := schedule.run rest
      (answer :: answers, schedule)

end PurgeSchedule

end Collections.Weak
