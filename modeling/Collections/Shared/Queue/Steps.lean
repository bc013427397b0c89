import Collections.Shared.Queue.Waiting

/-!
# Steps on a queue

Steps of one caller, and steps in which a second caller is asleep on the queue and an operation
of the first lets it go on. A step that would put the only caller to sleep is refused, and so is
one whose operation leaves no room for the second caller. When there is room but the operation
woke nobody, the second caller goes on as soon as its time is up, or sleeps for good
(`StepResult.stranded`). Nothing follows such a step.
-/

set_option autoImplicit false

namespace Collections.Shared.SharedQueue

/-- How the second caller came to be asleep. -/
inductive Sleeper where
  /-- Without a limit of time. -/
  | patient
  /-- Within a limit of time that is long enough. -/
  | timed
  deriving DecidableEq, Repr

/-- A step on a queue. -/
inductive QueueStep (α : Type) where
  | plain (operation : Operation α)
  /-- A second caller waits for space, and an operation makes some. -/
  | blockedInsert (sleeper : Sleeper) (item : α) (helper : Operation α)
  /-- A second caller waits for an element, and one is offered. -/
  | blockedTake (sleeper : Sleeper) (item : α)

/-- What a step answers. -/
inductive StepResult (α : Type) where
  | plain (result : Result α)
  | inserted (helper : Result α)
  | taken (item : α)
  /-- The second caller sleeps for good. -/
  | stranded (helper : Result α)

def StepResult.isStranded {α : Type} : StepResult α → Bool
  | .stranded _ => true
  | _ => false

variable {α : Type} [BEq α]

/-- A second caller asks to insert an element. -/
def Sleeper.insert (sleeper : Sleeper) (queue : SharedQueue α) (item : α) :
    Option (Result α) × World α :=
  match sleeper with
  | .patient => World.put 0 { queue } item
  | .timed => World.offerInTime 0 { queue } item

/-- A second caller asks for an element. -/
def Sleeper.take (sleeper : Sleeper) (queue : SharedQueue α) : Option (Result α) × World α :=
  match sleeper with
  | .patient => World.take 0 { queue }
  | .timed => World.pollInTime 0 { queue }

/-- What becomes of the second caller after an operation of the first. -/
def Sleeper.goOn? (sleeper : Sleeper) (helper : Result α) (world : World α) :
    Option (StepResult α × SharedQueue α) :=
  match world.resumeInserter 0 0 with
  | (some _, world) => some (.inserted helper, world.queue)
  | (none, _) =>
      if world.queue.isFull then none
      else
        match sleeper with
        | .patient => some (.stranded helper, world.queue)
        | .timed =>
            let (_, world) := world.happen 0 (.stirInserter 0)
            let (_, world) := world.expireInserter 0 0
            some (.inserted helper, world.queue)

/-- Make a step, or refuse it. -/
def step? (queue : SharedQueue α) : QueueStep α → Option (StepResult α × SharedQueue α)
  | .plain operation =>
      (queue.perform? operation).map fun (result, queue, _) => (.plain result, queue)
  | .blockedInsert sleeper item helper => do
      let (none, world) := sleeper.insert queue item | none
      let (result, queue, wakes) ← world.queue.perform? helper
      sleeper.goOn? result ({ world with queue }.rouse 0 wakes)
  | .blockedTake sleeper item => do
      let (none, world) := sleeper.take queue | none
      let (true, queue, wakes) := world.queue.offer item | none
      match ({ world with queue }.rouse 0 wakes).resumeTaker 0 0 with
      | (some (.item (some item)), world) => return (.taken item, world.queue)
      | _ => none

/-- Make steps, with the content after each, or refuse them. -/
def run? (queue : SharedQueue α) :
    List (QueueStep α) → Option (List (StepResult α × List α) × SharedQueue α)
  | [] => some ([], queue)
  | first :: rest => do
      let (result, queue) ← queue.step? first
      if result.isStranded then return ([(result, queue.items)], queue)
      let (results, last) ← queue.run? rest
      return ((result, queue.items) :: results, last)

end Collections.Shared.SharedQueue
