import Collections.Log.Severity
import Collections.Failure

/-!
# Notices

The collections of this library report what they do as notices: a severity, the part of the
library that speaks, and a text. Where a text would name an object by its address, or a span of
time, it shows a fixed mark instead.
-/

set_option autoImplicit false

namespace Collections.Log

/-- The parts of the library that write notices. -/
inductive Component where
  | uncategorized
  | log
  | util
  | seq
  | sync
  | weak
  | container
  deriving DecidableEq, Repr, Inhabited

namespace Component

/-- All components by number. -/
def all : List Component := [uncategorized, log, util, seq, sync, weak, container]

def number : Component → Nat
  | uncategorized => 0
  | log => 1
  | util => 2
  | seq => 3
  | sync => 4
  | weak => 5
  | container => 6

def name : Component → String
  | uncategorized => "UNCAT"
  | log => "LOG"
  | util => "UTIL"
  | seq => "SEQ"
  | sync => "SYNC"
  | weak => "WEAK"
  | container => "CONTAINER"

/-- The names of all components by number. -/
def names : List (UInt32 × Bytes) :=
  all.map fun component => (component.number.toUInt32, Bytes.ofString component.name)

end Component

/-- A message of the library itself. -/
structure Notice where
  severity : Severity
  component : Component
  text : Bytes
  deriving DecidableEq, Repr

namespace Notice

/-- What stands for the address of an object. -/
def object : String := "[PTR]"

/-- What stands for a span of time. -/
def span : String := "[DURATION]"

def trace (component : Component) (text : String) : Notice :=
  ⟨.trace, component, Bytes.ofString text⟩

def warning (component : Component) (text : String) : Notice :=
  ⟨.warning, component, Bytes.ofString text⟩

/-- The notice of a failure that is reported as a code. -/
def emitted (cause : WeakError) : Notice :=
  let code := ((Failure.weak cause).code).getD ""
  let wording := cause.message
  warning .weak s!"Error code emitted: [{code}] [{wording}]."

/-- The notices that pass a limit. -/
def passing (limit : Severity) (notices : List Notice) : List Notice :=
  notices.filter (·.severity.passes limit)

end Notice

end Collections.Log
