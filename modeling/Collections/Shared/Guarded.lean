import Collections.Shared.Walk

/-!
# Guarded containers

A guarded container is used by one caller at a time. The caller that holds the lock may use the
container again from inside: it may make several steps together, and it may walk the container
and make further steps on the way. Places survive such steps as the container's grip says, so a
walk goes on behind an edit.

An iteration that removed something and returned is noted (`Guarded.step`); one that was left is
not.
-/

set_option autoImplicit false

namespace Collections.Shared

open Log (Notice)

/-- A container behind a lock, and what was noted about it. -/
structure Guarded (α : Type) where
  container : Container α
  notices : List Notice := []

mutual

/-- A step on a guarded container, over plain operations of some kind. -/
inductive Step (ρ : Type) where
  | plain (operation : ρ)
  /-- Walk the container. -/
  | iterate (script : List (Item ρ))
  /-- Make steps without giving up the lock. -/
  | together (steps : List (Step ρ))

/-- What a callback does during an iteration. -/
inductive Item (ρ : Type) where
  | cue (cue : Cue)
  /-- Make a step on the container that is being walked. -/
  | within (step : Step ρ)

end

/-- What a step answers. -/
inductive Answer (α β : Type) where
  | plain (answer : β)
  | reply (reply : Reply α)
  | several (answers : List (Answer α β))

namespace Guarded

variable {α ρ β : Type}

def size (guarded : Guarded α) : Nat := guarded.container.items.length

def items (guarded : Guarded α) : List α := guarded.container.items

/-- Note something. -/
def say (guarded : Guarded α) (notice : Notice) : Guarded α :=
  { guarded with notices := guarded.notices ++ [notice] }

/-- Note that an iteration removed elements, if it did. -/
def sayRemoved (guarded : Guarded α) (report : Nat → Nat → Notice) (removed : Nat) : Guarded α :=
  if removed = 0 then guarded else guarded.say (report removed guarded.size)

/-- Walk through the container, removing the elements that satisfy a test: the elements delivered
and the number removed. -/
def removeWhere (guarded : Guarded α) (report : Nat → Nat → Notice) (slot : Nat)
    (drop : α → Bool) : (List α × Nat) × Guarded α :=
  let (items, walk) := (Walk.start guarded.container slot).sweep drop
  ((items, walk.removed),
    { guarded with container := walk.container }.sayRemoved report walk.removed)

section Steps

variable (apply : Nat → Guarded α → ρ → β × Guarded α) (report : Nat → Nat → Notice)

mutual

/-- Make a step. Walks that are under way use the slots below the given one. -/
def step (slot : Nat) (guarded : Guarded α) : Step ρ → Answer α β × Guarded α
  | .plain operation =>
      let (answer, guarded) := apply slot guarded operation
      (.plain answer, guarded)
  | .iterate script =>
      let walk := Walk.start guarded.container slot
      let (answers, returned, removed, guarded) :=
        playItems slot 0 { guarded with container := walk.container } script
      (.several answers, if returned then guarded.sayRemoved report removed else guarded)
  | .together steps =>
      let (answers, guarded) := stepAll slot guarded steps
      (.several answers, guarded)

/-- Make steps one after the other. -/
def stepAll (slot : Nat) (guarded : Guarded α) : List (Step ρ) → List (Answer α β) × Guarded α
  | [] => ([], guarded)
  | first :: rest =>
      let (answer, guarded) := step slot guarded first
      let (answers, guarded) := stepAll slot guarded rest
      (answer :: answers, guarded)

/-- Follow the items of a script: what was seen, whether the callback returned, and how many
elements it removed. -/
def playItems (slot removed : Nat) (guarded : Guarded α) :
    List (Item ρ) → List (Answer α β) × Bool × Nat × Guarded α
  | [] => ([], true, removed, guarded)
  | first :: rest =>
      match playItem slot removed guarded first with
      | (answer, true, removed, guarded) =>
          let (answers, returned, removed, guarded) := playItems slot removed guarded rest
          (answer :: answers, returned, removed, guarded)
      | (answer, false, removed, guarded) => ([answer], false, removed, guarded)

/-- Follow one item of a script. -/
def playItem (slot removed : Nat) (guarded : Guarded α) :
    Item ρ → Answer α β × Bool × Nat × Guarded α
  | .cue cue =>
      let (reply, more, walk) := Walk.follow ⟨guarded.container, slot, removed⟩ cue
      (.reply reply, more, walk.removed, { guarded with container := walk.container })
  | .within inner =>
      let (answer, guarded) := step (slot + 1) guarded inner
      (answer, true, removed, guarded)

end

end Steps

end Guarded

end Collections.Shared
