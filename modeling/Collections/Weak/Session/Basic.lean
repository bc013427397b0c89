import Collections.Failure
import Collections.Weak.Holding
import Collections.Weak.RefType

/-!
# Sessions with reclaimable objects

In a session, objects are made and held by name, are let go, and are given to a container that may
or may not keep them alive. After every step the session tells the number of live members of the
container, which may change although nobody has touched it.
-/

set_option autoImplicit false

namespace Collections.Weak

/-- Objects that are held, and a container that is used with them. -/
structure Session (γ : Type) where
  container : γ
  holdings : Holdings := {}

/-- A step of a session, over operations of some kind on the container. -/
inductive SessionStep (ρ : Type) where
  /-- Make an object and hold it by its name. -/
  | new (name : Bytes) (value : Int)
  /-- Let the object of a name go. -/
  | drop (name : Bytes)
  | dropRange (range : NameRange)
  | use (operation : ρ)

/-- What a step of a session answers. Objects are shown by their names. -/
inductive SessionAnswer where
  | done
  | flag (value : Bool)
  | count (value : Nat)
  | number (value : Option Int)
  | name (value : Option Bytes)
  | names (values : List Bytes)
  /-- Objects and numbers that belong to them. -/
  | numbered (entries : List (Bytes × Int))
  /-- Pairs of objects. -/
  | paired (entries : List (Bytes × Bytes))
  /-- Whether an element was added, and the element that is there. -/
  | inserted (added : Bool) (present : Bytes)
  /-- The elements that were removed, and their number. -/
  | removed (values : List Bytes) (count : Nat)
  | kinds (key value : RefType) (segments : UInt64)
  | failed (cause : WeakError)

namespace Session

variable {γ ρ : Type}

def withHoldings (session : Session γ) (holdings : Holdings) : Session γ :=
  { session with holdings }

def withContainer (session : Session γ) (container : γ) : Session γ :=
  { session with container }

/-- Make a step. There is no answer when the operation does not apply, such as one on a name that
is not bound. -/
def step? (perform? : Session γ → ρ → Option (SessionAnswer × Session γ)) (session : Session γ) :
    SessionStep ρ → Option (SessionAnswer × Session γ)
  | .new name value => some (.done, session.withHoldings (session.holdings.new name value).2)
  | .drop name => some (.done, session.withHoldings (session.holdings.drop name))
  | .dropRange range =>
      let (count, holdings) := session.holdings.dropAll range.names
      some (.count count, session.withHoldings holdings)
  | .use operation => perform? session operation

/-- Make steps, with the number of live members after each. -/
def run? (perform? : Session γ → ρ → Option (SessionAnswer × Session γ)) (size : Session γ → Nat)
    (session : Session γ) :
    List (SessionStep ρ) → Option (List (SessionAnswer × Nat) × Session γ)
  | [] => some ([], session)
  | first :: rest => do
      let (answer, session) ← session.step? perform? first
      let (answers, last) ← session.run? perform? size rest
      return ((answer, size session) :: answers, last)

/-- Make the objects of a range, hold each by its name, and give each to the container as soon as
it is made. -/
def giveEach (give : Session γ → Object → Session γ) (session : Session γ) (range : NameRange) :
    Session γ :=
  range.numbers.foldl
    (fun session number =>
      let (object, holdings) := session.holdings.new (range.name number) number
      give (session.withHoldings holdings) object)
    session

end Session

end Collections.Weak
