import Collections.Log.Config
import Collections.Text.Calendar
import Collections.Text.Location

/-!
# Messages and their written form

A message is written as one line: the time, the severity, the thread, the component if it is
shown, the place in source text, and the text. The time is a date or a number of seconds since
1970, both with microseconds.
-/

set_option autoImplicit false

namespace Collections.Log

/-- A message. -/
structure Message (τ : Type) where
  severity : Severity
  origin : Option (Origin τ)
  location : Text.Location
  /-- Microseconds since the start of the year 1970. -/
  time : Int
  nickname : Bytes
  text : Bytes

/-- How times are written. -/
inductive TimeForm where
  | seconds
  | date
  deriving DecidableEq, Repr

namespace Message

variable {τ : Type} [BEq τ]

/-- The written form of a time. Whole seconds are cut off toward zero. -/
def timeText (form : TimeForm) (time : Int) : Bytes :=
  let seconds := time.tdiv 1000000
  let fraction := Bytes.ofString "." ++ Text.padded 6 (time.tmod 1000000)
  match form with
  | .seconds => Bytes.ofInt seconds ++ fraction
  | .date => Text.dateAndTime seconds ++ fraction ++ Bytes.ofString " +0000"

/-- The line of a message. -/
def line (message : Message τ) (config : Config τ) (form : TimeForm) : Bytes :=
  let component := match config.show? message.origin with
    | none => []
    | some name => name ++ Bytes.ofString ": "
  timeText form message.time ++ Bytes.ofString s!" [{message.severity.label}]: T" ++
    message.nickname ++ Bytes.ofString ": " ++ component ++ message.location.render ++
    Bytes.ofString ": " ++ message.text ++ Bytes.ofString "\n"

/-- The lines of those messages that are to be logged, one after the other. -/
def lines (messages : List (Message τ)) (config : Config τ) (form : TimeForm) : Bytes :=
  (messages.filter fun message => config.shouldLog message.severity message.origin).flatMap
    (·.line config form)

/-- Whether a message goes to the stream for errors when there are two. -/
def isUrgent (message : Message τ) : Bool := message.severity.passes .warning

/-- The lines of ordinary messages, and those of urgent ones. -/
def splitLines (messages : List (Message τ)) (config : Config τ) (form : TimeForm) :
    Bytes × Bytes :=
  let (urgent, ordinary) := messages.partition isUrgent
  (lines ordinary config form, lines urgent config form)

end Message

end Collections.Log
