import Collections.Log.Severity

/-!
# Which messages are logged

Messages come from components. Components form families, and a component is known by its family
and its number there. A configuration lays the families out one after the other: a family is
registered with an offset, and the place of a component is the sum of offset and number, as
32-bit words. The last word tells of a component that its family is not registered. A component of
a registered family may come to lie there too, and is then taken for one of those.

Each place may have a limit of its own. The limits stand in one array, which grows as families are
registered, each as the rank of a severity. A mark that is no rank stands where there is no limit.
A component is logged up to the limit of its place, and up to the common limit if its place has
none, or is that of the last word.

Places have names, by which a limit can be set in any case of letters, and by which components are
shown.
-/

set_option autoImplicit false

namespace Collections.Log

/-- A component of some family. -/
structure Origin (τ : Type) where
  family : τ
  number : UInt32
  deriving DecidableEq, Repr

/-- Limits and names of components. -/
structure Config (τ : Type) where
  /-- The limit of components without one of their own. -/
  limit : Severity := .info
  offsets : List (τ × UInt32) := []
  /-- The limits of places, by rank, or the mark of a place without a limit. -/
  limits : Array UInt8 := #[]
  /-- The texts that places are shown by. -/
  shown : List (UInt32 × Bytes) := []
  /-- The places that names stand for. -/
  places : List (Bytes × UInt32) := []

namespace Config

variable {τ : Type} [BEq τ]

/-! ## Registration -/

/-- What stands at a place without a limit of its own. -/
def unset : UInt8 := 255

/-- Register a family at an offset. Its numbers are below a given length. There is room for the
limits of all its components then. -/
def register (config : Config τ) (family : τ) (offset : UInt32) (length : Nat) : Config τ :=
  { config with
    offsets := (family, offset) :: config.offsets
    limits := config.limits ++
      Array.replicate (offset.toNat + length - config.limits.size) unset }

/-- The word that tells of a component that its family is not registered. -/
def nowhere : UInt32 := -1

/-- The place of a component. -/
def place (config : Config τ) (origin : Origin τ) : UInt32 :=
  match config.offsets.lookup origin.family with
  | none => nowhere
  | some offset => offset + origin.number

/-- Name a place. A place that is shown by names shows all of them, and only the first with what
stands in front of the names of its family. -/
def namePlace (config : Config τ) (front : Bytes) (numeric : Bool) (place : UInt32)
    (name : Bytes) : Config τ :=
  let bare := Bytes.upper name
  let full := Bytes.upper front ++ bare
  let shown := match config.shown.lookup place with
    | none => full
    | some earlier => earlier ++ Bytes.ofString "," ++ bare
  { config with
    places := (full, place) :: config.places
    shown := if numeric then config.shown else (place, shown) :: config.shown }

/-- Name components of a family. Names that are to be shown numerically serve for setting limits
only. -/
def registerNames (config : Config τ) (family : τ) (front : Bytes) (numeric : Bool)
    (names : List (UInt32 × Bytes)) : Config τ :=
  names.foldl
    (fun config (number, name) =>
      config.namePlace front numeric (config.place ⟨family, number⟩) name)
    config

/-! ## Limits -/

/-- Set the common limit, and possibly forget all limits of places. -/
def setCommon (config : Config τ) (limit : Severity) (reset : Bool) : Config τ :=
  { config with limit, limits := if reset then config.limits.map fun _ => unset else config.limits }

/-- Set the limit of a place. -/
def setPlace (config : Config τ) (place : UInt32) (limit : Severity) : Config τ :=
  { config with limits := config.limits.setIfInBounds place.toNat limit.rank.toUInt8 }

/-- Set the limit of a component, and tell whether its family is taken to be registered. -/
def set (config : Config τ) (origin : Origin τ) (limit : Severity) : Bool × Config τ :=
  let place := config.place origin
  if place = nowhere then (false, config) else (true, config.setPlace place limit)

/-- Set the limit of the place that a name stands for, and tell whether there is one. -/
def setNamed (config : Config τ) (name : Bytes) (limit : Severity) : Bool × Config τ :=
  match config.places.lookup (Bytes.upper name) with
  | none => (false, config)
  | some place => (true, config.setPlace place limit)

/-! ## Questions -/

/-- The limit of a place, if it has one. What stands at the last word does not count. -/
def placeLimit? (config : Config τ) (place : UInt32) : Option Severity :=
  if place = nowhere then none
  else do
    let mark ← config.limits[place.toNat]?
    if mark = unset then none else some (Severity.ofRank mark.toNat)

/-- The limit of a component, or of messages without one. -/
def limitOf (config : Config τ) (origin : Option (Origin τ)) : Severity :=
  let own := do config.placeLimit? (config.place (← origin))
  own.getD config.limit

/-- Whether a message is to be logged. -/
def shouldLog (config : Config τ) (severity : Severity) (origin : Option (Origin τ)) : Bool :=
  severity.passes (config.limitOf origin)

/-- The severities of messages that are logged for a component. -/
def levels (config : Config τ) (origin : Option (Origin τ)) : List Severity :=
  Severity.all.filter fun severity => severity != .none && config.shouldLog severity origin

/-- The text that a component is shown by: the names of its place, or its number if there are
none. A component whose family is taken not to be registered is not shown. -/
def show? (config : Config τ) (origin : Option (Origin τ)) : Option Bytes := do
  let place := config.place (← origin)
  if place = nowhere then none
  else return (config.shown.lookup place).getD (Bytes.ofNat place.toNat)

/-! ## Steps -/

/-- A change of a configuration, or a question to it. -/
inductive Step (τ : Type) where
  | register (family : τ) (offset : UInt32) (length : Nat) (front : Bytes) (numeric : Bool)
      (names : List (UInt32 × Bytes))
  | setCommon (limit : Severity) (reset : Bool)
  | set (limit : Severity) (origin : Origin τ)
  | setNamed (limit : Severity) (name : Bytes)
  | shouldLog (severity : Severity) (origin : Option (Origin τ))
  | levels (origin : Option (Origin τ))
  | name (origin : Option (Origin τ))

inductive Answer where
  | done
  | flag (value : Bool)
  | levels (values : List Severity)
  | name (value : Option Bytes)

def step (config : Config τ) : Step τ → Answer × Config τ
  | .register family offset length front numeric names =>
      (.done, (config.register family offset length).registerNames family front numeric names)
  | .setCommon limit reset => (.done, config.setCommon limit reset)
  | .set limit origin => (config.set origin limit).map .flag id
  | .setNamed limit name => (config.setNamed name limit).map .flag id
  | .shouldLog severity origin => (.flag (config.shouldLog severity origin), config)
  | .levels origin => (.levels (config.levels origin), config)
  | .name origin => (.name (config.show? origin), config)

def run (config : Config τ) : List (Step τ) → List Answer × Config τ
  | [] => ([], config)
  | first :: rest =>
      let (answer, config) := config.step first
      let (answers, config) := config.run rest
      (answer :: answers, config)

end Config

end Collections.Log
