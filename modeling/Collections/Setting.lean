import Collections.Enumeration

/-!
# Settings

Options are shown to users as settings: a name, the text of the value, and what the option is for.
A name derived from an identifier drops the mark of a static field and joins its words by dashes.
-/

set_option autoImplicit false

namespace Collections

/-- An option as its users see it. -/
structure Setting where
  name : Bytes
  value : Bytes
  description : Bytes
  deriving DecidableEq, Repr

namespace Setting

/-- The mark of identifiers of static fields. -/
def staticMark : Bytes := Bytes.ofString "m_st_"

/-- An underscore becomes a dash. -/
def dashed (byte : UInt8) : UInt8 := if byte = 95 then 45 else byte

/-- The name of an option with a given identifier. -/
def nameOf (identifier : Bytes) : Bytes :=
  let bare := if staticMark.isPrefixOf identifier then identifier.drop staticMark.length
    else identifier
  bare.map dashed

def make (name : String) (value : Bytes) (description : String) : Setting :=
  ⟨Bytes.ofString name, value, Bytes.ofString description⟩

/-- Name and value with an equals sign between them. -/
def render (setting : Setting) : Bytes := setting.name ++ Bytes.ofString "=" ++ setting.value

/-- The word that a text of decimal digits stands for. -/
def word? (text : Bytes) : Option UInt64 := do
  let value ← Enumeration.number? text
  if value < UInt64.size then some value.toUInt64 else none

end Setting

/-- Options that can be shown, and set by name from texts. -/
class Settings (ο : Type) where
  /-- The options before anything is set. -/
  initial : ο
  caption : String
  list : ο → List Setting
  set? : ο → Bytes → Bytes → Option ο

namespace Settings

variable {ο : Type} [Settings ο]

/-- Set several options, in order. There is no answer when a name or a text means nothing. -/
def setAll? (options : ο) (texts : List (Bytes × Bytes)) : Option ο :=
  texts.foldlM (fun options (name, text) => set? options name text) options

/-- The names and values of all options. -/
def render (options : ο) : List Bytes := (list options).map Setting.render

end Settings

end Collections
