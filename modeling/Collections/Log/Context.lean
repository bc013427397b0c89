import Collections.Log.Config
import Collections.Log.Notice
import Collections.Log.Redaction

/-!
# Contexts

A context says to which logger an object writes and as which component. Contexts can be copied and
exchanged. To move a context takes it away from where it was, except when it is moved to where it
is already.

Here there are two loggers. One takes everything, the other takes warnings and what is more severe.
Both know the names of the components of this library.
-/

set_option autoImplicit false

namespace Collections.Log

/-- A logger. -/
inductive Sink where
  /-- Takes everything. -/
  | everything
  /-- Takes warnings and what is more severe. -/
  | warnings
  deriving DecidableEq, Repr

def Sink.limit : Sink → Severity
  | everything => .data
  | warnings => .warning

/-- The names that the loggers show components by. -/
def componentNames : Config Unit :=
  (({} : Config Unit).register () 0 Component.names.length).registerNames () [] false
    Component.names

/-- The text that a component is shown by. There is none for no component. -/
def componentText (component : Option UInt32) : Bytes :=
  (componentNames.show? (component.map (⟨(), ·⟩))).getD []

/-- Where an object logs and as which component, known by its number. -/
structure Context where
  sink : Option Sink := none
  component : Option UInt32 := none
  deriving DecidableEq, Repr, Inhabited

namespace Context

/-- The logger that takes a message of a severity. -/
def sinkFor (context : Context) (severity : Severity) : Option Sink :=
  context.sink.filter fun sink => severity.passes sink.limit

end Context

/-- A message as it was taken. -/
structure Taken where
  sink : Sink
  severity : Severity
  /-- The text that the component is shown by. -/
  component : Bytes
  text : Bytes
  deriving DecidableEq, Repr

/-- A place for a context. -/
inductive Register where
  | a
  | b
  | c
  deriving DecidableEq, Repr

/-- Three contexts, and the messages that were taken. -/
structure Contexts where
  context : Register → Context := fun _ => {}
  taken : List Taken := []

namespace Contexts

def set (contexts : Contexts) (register : Register) (context : Context) : Contexts :=
  { contexts with
    context := fun other => if other = register then context else contexts.context other }

def copy (contexts : Contexts) (target source : Register) : Contexts :=
  contexts.set target (contexts.context source)

/-- Move a context to a temporary place, and from there to its target. -/
def moveThrough (contexts : Contexts) (target source : Register) : Contexts :=
  (contexts.set source {}).set target (contexts.context source)

/-- Move a context. Where it was is empty afterwards, unless it has stayed there. -/
def move (contexts : Contexts) (target source : Register) : Contexts :=
  if target = source then contexts else contexts.moveThrough target source

def swap (contexts : Contexts) (left right : Register) : Contexts :=
  (contexts.set left (contexts.context right)).set right (contexts.context left)

/-- Hand a message to a logger, if it takes it. Tells whether it does. -/
def log (contexts : Contexts) (context : Context) (severity : Severity) (text : Bytes) :
    Bool × Contexts :=
  match context.sinkFor severity with
  | none => (false, contexts)
  | some sink =>
      let message := ⟨sink, severity, componentText context.component, redact text⟩
      (true, { contexts with taken := contexts.taken ++ [message] })

/-- The message of a thread that has taken a nickname. -/
def nicknameText (nickname : Bytes) : Bytes :=
  Bytes.ofString "Thread ID [ID] now logs under nickname [" ++ nickname ++ Bytes.ofString "]."

/-- The messages that a logger has taken, in order. -/
def takenBy (contexts : Contexts) (sink : Sink) : List Taken :=
  contexts.taken.filter (·.sink = sink)

/-! ## Steps -/

inductive Step where
  | make (register : Register) (context : Context)
  | copy (target source : Register)
  | move (target source : Register)
  | moveThrough (target source : Register)
  | swap (left right : Register)
  /-- Log a text with an exclamation mark behind it. -/
  | log (register : Register) (severity : Severity) (text : Bytes)
  /-- Give the thread a nickname. An empty one is none. -/
  | nickname (register : Register) (name : Bytes)

inductive Answer where
  | done
  | flag (value : Bool)
  | nickname (value : Bytes)

def step (contexts : Contexts) : Step → Answer × Contexts
  | .make register context => (.done, contexts.set register context)
  | .copy target source => (.done, contexts.copy target source)
  | .move target source => (.done, contexts.move target source)
  | .moveThrough target source => (.done, contexts.moveThrough target source)
  | .swap left right => (.done, contexts.swap left right)
  | .log register severity text =>
      (contexts.log (contexts.context register) severity (text ++ Bytes.ofString "!")).map .flag id
  | .nickname register name =>
      let speaker := { contexts.context register with component := some Component.log.number.toUInt32 }
      (.nickname name, (contexts.log speaker .info (nicknameText name)).2)

/-- Make steps, with the contexts after each. -/
def run (contexts : Contexts) : List Step → List (Answer × Contexts) × Contexts
  | [] => ([], contexts)
  | first :: rest =>
      let (answer, contexts) := contexts.step first
      let (answers, last) := contexts.run rest
      ((answer, contexts) :: answers, last)

end Contexts

end Collections.Log
