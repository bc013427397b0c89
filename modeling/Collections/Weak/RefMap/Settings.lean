import Collections.Setting
import Collections.Weak.RefMap.Options

/-!
# Options of reference maps as settings
-/

set_option autoImplicit false

namespace Collections.Weak.RefMapOptions

/-- The name of a kind of reference, if there is such a kind. -/
def kindText (kind : Option RefType) : Bytes := Bytes.ofString ((kind.map RefType.name).getD "")

/-- The options as settings. -/
def settings (options : RefMapOptions) : List Setting :=
  [.make "initial-capacity" (Bytes.ofNat options.initialCapacity.toNat)
      "The number of entries the map is sized for when created.  It grows past that as needed.",
    .make "segment-count" (Bytes.ofNat options.segmentCount.toNat)
      ("The number of independently locked segments the map is split into; rounded up to a power " ++
        "of 2.  Threads touching keys in different segments never wait on each other.  Must be " ++
        "positive."),
    .make "key-ref-type" (kindText options.keyKind)
      ("How the map refers to its keys: STRONG (keeps them alive), WEAK (an entry vanishes once " ++
        "its key is reclaimed elsewhere), or SOFT (currently same as STRONG)."),
    .make "value-ref-type" (kindText options.valueKind)
      "How the map refers to its values; same choices as for keys."]

/-- Set an option from a text. -/
def set? (options : RefMapOptions) (name text : Bytes) : Option RefMapOptions :=
  if name = Bytes.ofString "initial-capacity" then
    (Setting.word? text).map fun initialCapacity => { options with initialCapacity }
  else if name = Bytes.ofString "segment-count" then
    (Setting.word? text).map fun segmentCount => { options with segmentCount }
  else if name = Bytes.ofString "key-ref-type" then
    some { options with keyKind := some (RefType.read text) }
  else if name = Bytes.ofString "value-ref-type" then
    some { options with valueKind := some (RefType.read text) }
  else none

instance : Settings RefMapOptions where
  initial := {}
  caption := "Per-weak::Concurrent_ref_map option values"
  list := settings
  set? := set?

end Collections.Weak.RefMapOptions
