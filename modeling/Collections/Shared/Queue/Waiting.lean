import Collections.Shared.Queue.Operations

/-!
# Callers that wait on a queue

A caller that finds the queue full may fall asleep until it is woken, and so may one that finds
it empty. A woken caller looks again, and goes on if it can or falls asleep anew. Between its
being woken and its looking other callers may come first, so to be woken is no promise. A caller
may also stir without having been woken, and then looks as well.

A caller may wait for some time only. When the time is up it looks a last time, and leaves
whether it found what it wanted or not.

A world is a queue with the callers that wait on it. `World.rouse` carries out the wakes of an
operation, `World.ask` lets a caller ask for an operation, `World.resumeInserter` and
`World.resumeTaker` let a waiting caller look, and `World.expireInserter` and `World.expireTaker`
let one look whose time is up. `World.happen` is all of them as one step.
-/

set_option autoImplicit false

namespace Collections.Shared

open SharedQueue (Operation Result)

/-- How a waiting caller stands. -/
inductive Stance where
  /-- It sleeps until it is woken or stirs. -/
  | asleep
  /-- It has been woken, and has not looked since. -/
  | woken
  /-- It has stirred by itself, and has not looked since. -/
  | stirred
  deriving DecidableEq, Repr

/-- A caller that waits: what it brings, how it stands, and whether its time is limited. -/
structure Waiter (ρ : Type) where
  request : ρ
  stance : Stance := .asleep
  timed : Bool := false
  deriving DecidableEq, Repr

namespace Waiter

variable {ρ : Type}

def isAsleep (waiter : Waiter ρ) : Bool := waiter.stance = .asleep

def isWoken (waiter : Waiter ρ) : Bool := waiter.stance = .woken

def sleep (waiter : Waiter ρ) : Waiter ρ := { waiter with stance := .asleep }

def wake (waiter : Waiter ρ) : Waiter ρ :=
  if waiter.isAsleep then { waiter with stance := .woken } else waiter

def stir (waiter : Waiter ρ) : Waiter ρ :=
  if waiter.isAsleep then { waiter with stance := .stirred } else waiter

/-- The position of a sleeping caller: a preferred one if that caller sleeps, else the first. -/
def sleeper (preferred : Nat) (waiters : List (Waiter ρ)) : Nat :=
  if waiters[preferred]?.any isAsleep then preferred else waiters.findIdx isAsleep

/-- Wake one caller that sleeps, if there is one. -/
def wakeOne (preferred : Nat) (waiters : List (Waiter ρ)) : List (Waiter ρ) :=
  waiters.modify (sleeper preferred waiters) wake

/-- Wake all callers that sleep. -/
def wakeAll (waiters : List (Waiter ρ)) : List (Waiter ρ) := waiters.map wake

/-- The caller at a position, if it is about to look. -/
def runnable? (waiters : List (Waiter ρ)) (position : Nat) : Option (Waiter ρ) :=
  waiters[position]?.filter fun waiter => !waiter.isAsleep

/-- The caller at a position, if it is about to look and its time can be up. -/
def due? (waiters : List (Waiter ρ)) (position : Nat) : Option (Waiter ρ) :=
  (runnable? waiters position).filter (·.timed)

end Waiter

/-- A queue and the callers that wait on it: those that bring an element, and those that want
one. -/
structure World (α : Type) where
  queue : SharedQueue α
  inserters : List (Waiter α) := []
  takers : List (Waiter Unit) := []

/-- What can happen next. The callers that wait are told apart by their positions. -/
inductive Event (α : Type) where
  /-- A caller comes and asks for an operation. -/
  | ask (operation : Operation α)
  /-- A sleeping caller stirs by itself. -/
  | stirInserter (position : Nat)
  | stirTaker (position : Nat)
  /-- A caller that has been woken or has stirred looks. -/
  | resumeInserter (position : Nat)
  | resumeTaker (position : Nat)
  /-- Such a caller looks a last time. -/
  | expireInserter (position : Nat)
  | expireTaker (position : Nat)

namespace World

variable {α : Type}

/-- Carry out a wake, with a preference among the callers that sleep. -/
def rouseOne (preferred : Nat) (world : World α) : Wake → World α
  | .oneTaker => { world with takers := Waiter.wakeOne preferred world.takers }
  | .oneInserter => { world with inserters := Waiter.wakeOne preferred world.inserters }
  | .allInserters => { world with inserters := Waiter.wakeAll world.inserters }

/-- Carry out wakes in order. -/
def rouse (preferred : Nat) (world : World α) (wakes : List Wake) : World α :=
  wakes.foldl (rouseOne preferred) world

/-! ## Asking -/

/-- What a caller is answered whose element has entered. -/
def inserted (timed : Bool) : Result α := if timed then .flag true else .done

/-- A caller asks to insert an element, and waits if there is no space. -/
def put (preferred : Nat) (world : World α) (item : α) : Option (Result α) × World α :=
  match world.queue.put? item with
  | some (queue, wakes) => (some (inserted false), { world with queue }.rouse preferred wakes)
  | none =>
      (none, { world with queue := world.queue.say SharedQueue.awaitsSpaceNotice
                          inserters := world.inserters ++ [{ request := item }] })

/-- A caller asks to insert an element within a time, and waits if there is no space. -/
def offerInTime (preferred : Nat) (world : World α) (item : α) : Option (Result α) × World α :=
  match world.queue.put? item with
  | some (queue, wakes) => (some (inserted true), { world with queue }.rouse preferred wakes)
  | none =>
      (none, { world with inserters := world.inserters ++ [{ request := item, timed := true }] })

/-- A caller asks for an element, and waits if there is none. -/
def take (preferred : Nat) (world : World α) : Option (Result α) × World α :=
  match world.queue.pop? with
  | some (item, queue, wakes) =>
      (some (.item (some item)), { world with queue }.rouse preferred wakes)
  | none =>
      (none, { world with queue := world.queue.say SharedQueue.awaitsElementNotice
                          takers := world.takers ++ [{ request := () }] })

/-- A caller asks for an element within a time, and waits if there is none. -/
def pollInTime (preferred : Nat) (world : World α) : Option (Result α) × World α :=
  match world.queue.pop? with
  | some (item, queue, wakes) =>
      (some (.item (some item)), { world with queue }.rouse preferred wakes)
  | none =>
      (none, { world with takers := world.takers ++ [{ request := (), timed := true }] })

/-- A caller asks for an operation for which nobody waits. -/
def carryOut [BEq α] (preferred : Nat) (world : World α) (operation : Operation α) :
    Option (Result α) × World α :=
  match world.queue.perform? operation with
  | some (result, queue, wakes) => (some result, { world with queue }.rouse preferred wakes)
  | none => (none, world)

/-- A caller asks for an operation. Answers what it is told, unless it has to wait. -/
def ask [BEq α] (preferred : Nat) (world : World α) (operation : Operation α) :
    Option (Result α) × World α :=
  match operation with
  | .put item => world.put preferred item
  | .offerInTime item => world.offerInTime preferred item
  | .take => world.take preferred
  | .pollInTime => world.pollInTime preferred
  | operation => world.carryOut preferred operation

/-! ## Looking again -/

/-- The inserter at a position looks again. It inserts if there is space, and falls asleep
otherwise. -/
def resumeInserter (preferred : Nat) (world : World α) (position : Nat) :
    Option (Result α) × World α :=
  match Waiter.runnable? world.inserters position with
  | none => (none, world)
  | some inserter =>
      match world.queue.put? inserter.request with
      | some (queue, wakes) =>
          (some (inserted inserter.timed),
            { world with queue, inserters := world.inserters.eraseIdx position }.rouse
              preferred wakes)
      | none => (none, { world with inserters := world.inserters.modify position .sleep })

/-- The taker at a position looks again. It takes an element if there is one, and falls asleep
otherwise. -/
def resumeTaker (preferred : Nat) (world : World α) (position : Nat) :
    Option (Result α) × World α :=
  match Waiter.runnable? world.takers position with
  | none => (none, world)
  | some _ =>
      match world.queue.pop? with
      | some (item, queue, wakes) =>
          (some (.item (some item)),
            { world with queue, takers := world.takers.eraseIdx position }.rouse preferred wakes)
      | none => (none, { world with takers := world.takers.modify position .sleep })

/-- The time of the inserter at a position is up. It inserts if there is space, and leaves. -/
def expireInserter (preferred : Nat) (world : World α) (position : Nat) :
    Option (Result α) × World α :=
  match Waiter.due? world.inserters position with
  | none => (none, world)
  | some inserter =>
      let (inserted, queue, wakes) := world.queue.offerInTime inserter.request
      (some (.flag inserted),
        { world with queue, inserters := world.inserters.eraseIdx position }.rouse
          preferred wakes)

/-- The time of the taker at a position is up. It takes an element if there is one, and leaves. -/
def expireTaker (preferred : Nat) (world : World α) (position : Nat) :
    Option (Result α) × World α :=
  match Waiter.due? world.takers position with
  | none => (none, world)
  | some _ =>
      let (item, queue, wakes) := world.queue.pollInTime
      (some (.item item),
        { world with queue, takers := world.takers.eraseIdx position }.rouse preferred wakes)

/-- One thing happens. Answers what a caller is told that leaves. -/
def happen [BEq α] (preferred : Nat) (world : World α) :
    Event α → Option (Result α) × World α
  | .ask operation => world.ask preferred operation
  | .stirInserter position =>
      (none, { world with inserters := world.inserters.modify position .stir })
  | .stirTaker position => (none, { world with takers := world.takers.modify position .stir })
  | .resumeInserter position => world.resumeInserter preferred position
  | .resumeTaker position => world.resumeTaker preferred position
  | .expireInserter position => world.expireInserter preferred position
  | .expireTaker position => world.expireTaker preferred position

end World

end Collections.Shared
