import Collections.Enumeration

/-!
# Severities

A message has a severity. The more severe, the lower its rank; a limit lets pass what ranks at
most as high as it does. The limit `none` lets nothing pass, as no message has that severity.
-/

set_option autoImplicit false

namespace Collections.Log

/-- How severe a message is, or how detailed a log. -/
inductive Severity where
  | none
  | fatal
  | error
  | warning
  | info
  | debug
  | trace
  | data
  deriving DecidableEq, Repr, Inhabited

namespace Severity

/-- All severities by rank. -/
def all : List Severity := [none, fatal, error, warning, info, debug, trace, data]

def rank : Severity → Nat
  | none => 0
  | fatal => 1
  | error => 2
  | warning => 3
  | info => 4
  | debug => 5
  | trace => 6
  | data => 7

def name : Severity → String
  | none => "NONE"
  | fatal => "FATAL"
  | error => "ERROR"
  | warning => "WARNING"
  | info => "INFO"
  | debug => "DEBUG"
  | trace => "TRACE"
  | data => "DATA"

/-- The severity as a field of fixed width. -/
def label : Severity → String
  | none => "null"
  | fatal => "fatl"
  | error => "eror"
  | warning => "warn"
  | info => "info"
  | debug => "debg"
  | trace => "trce"
  | data => "data"

def ofRank (rank : Nat) : Severity := all[rank]?.getD none

theorem ofRank_rank (severity : Severity) : ofRank severity.rank = severity := by
  cases severity <;> rfl

/-- Whether a message of a severity passes a limit. -/
def passes (severity limit : Severity) : Bool := severity.rank ≤ limit.rank

/-- How severities are read: by name in any case, or by rank. -/
def enumeration : Enumeration where
  nameOf rank := Bytes.ofString (ofRank rank).name
  sentinel := 8
  largest := UInt64.size - 1

/-- The severity at the front of a text. -/
def read (text : Bytes) : Severity := ofRank (enumeration.read text).1.toNat

end Severity

end Collections.Log
