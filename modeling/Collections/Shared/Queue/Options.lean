import Collections.Setting

/-!
# Options of queues
-/

set_option autoImplicit false

namespace Collections.Shared

structure QueueOptions where
  /-- At first the largest word. -/
  capacity : UInt64 := 18446744073709551615
  deriving DecidableEq, Repr

namespace QueueOptions

/-- The options as settings. -/
def settings (options : QueueOptions) : List Setting :=
  [.make "capacity" (Bytes.ofNat options.capacity.toNat)
    ("The maximum number of elements the queue holds at once.  While it is full, offer() fails " ++
      "(possibly after waiting), and put() blocks until another thread removes an element.  " ++
      "Must be positive.  The default is effectively unbounded.")]

/-- Set an option from a text. -/
def set? (options : QueueOptions) (name text : Bytes) : Option QueueOptions :=
  if name = Bytes.ofString "capacity" then
    (Setting.word? text).map fun capacity => { options with capacity }
  else none

instance : Settings QueueOptions where
  initial := {}
  caption := "Per-sync::Synchronized_queue option values"
  list := settings
  set? := set?

end QueueOptions

end Collections.Shared
