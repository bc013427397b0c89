/-!
# Callbacks that may be absent

A callback is a function that may not be there. One that is not there can be set, one that is can
be called, and it can be taken away.
-/

set_option autoImplicit false

namespace Collections

/-- A function that may be absent. -/
structure Callback (α β : Type) where
  function : Option (α → β) := none

namespace Callback

variable {α β : Type}

def isEmpty (callback : Callback α β) : Bool := callback.function.isNone

def set (_callback : Callback α β) (function : α → β) : Callback α β := ⟨some function⟩

def clear (_callback : Callback α β) : Callback α β := {}

/-- Call the function, if it is there. -/
def call? (callback : Callback α β) (argument : α) : Option β :=
  callback.function.map (· argument)

end Callback

/-- What a step with a number on a callback of integers answers. -/
inductive CallbackAnswer where
  | empty (value : Bool)
  | result (value : Int)

namespace Callback

/-- Without a number, take the function away. With one, call the function, or set it to the
addition of that number if it is absent. -/
def step (callback : Callback Int Int) : Option Int → CallbackAnswer × Callback Int Int
  | none =>
      let cleared := callback.clear
      (.empty cleared.isEmpty, cleared)
  | some number =>
      match callback.call? number with
      | some result => (.result result, callback)
      | none =>
          let callback := callback.set (· + number)
          (.empty callback.isEmpty, callback)

def run (callback : Callback Int Int) : List (Option Int) → List CallbackAnswer
  | [] => []
  | first :: rest =>
      let (answer, callback) := callback.step first
      answer :: callback.run rest

end Callback

end Collections
