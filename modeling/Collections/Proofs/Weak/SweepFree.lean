import Collections.Proofs.Weak.Map
import Collections.Proofs.Weak.Set

/-!
# Weak containers without their sweeps

Weak maps and weak sets sweep their tables when these have grown, and the callers need not know
when. What is put together here is that they cannot: a list of pairs that is never swept unless this
is asked for gives the same answers, except that a requested sweep of the list finds more.
-/

set_option autoImplicit false

namespace Collections.Weak

variable {κ ν : Type}

/-- **Weak maps and weak sets answer as lists do** in which an entry counts only while its object is
alive, for any equivalence of objects, any hash that respects it, and any run of calls with
reclamations between them. Of what the containers throw out on their own, only the count of a
requested sweep tells: it and the number of slots that were thrown out before make the number of
entries of the list that do not count.

In every state that is reached, no two live slots hold equal objects, every slot lies under the hash
of its object, equal objects do not take the place of the one that is there, an entry vanishes with
its object, and calls without an object change nothing. -/
theorem weakMap_and_weakSet_refine_plainMap [DecidableEq κ] (keying : Keying κ) :
    (∀ occasions : List (Occasion (WeakMap.Call κ ν) κ),
      let told := serve WeakMap.step { container := { keying } } occasions
      let plain := serve WeakMap.attend (.ofKeys keying) occasions
      List.Forall₂ (fun told other => Reply.Agrees told.1 told.2 other) told.1 plain.1 ∧
        (told.2.container.entries told.2.alive).Perm plain.2.entries ∧
        WeakMap.Orderly told.2) ∧
    ∀ occasions : List (Occasion (WeakSet.Call κ) κ),
      let told := serve WeakSet.step { container := { keying } } occasions
      let plain := serve WeakSet.attend (.ofKeys keying) occasions
      List.Forall₂ (fun told other => WeakSet.Reply.Agrees told.1 told.2 other) told.1 plain.1 ∧
        (told.2.container.elements told.2.alive).Perm (WeakSet.elementsOf plain.2) ∧
        WeakSet.Orderly told.2 :=
  ⟨WeakMap.answers_as_pairs keying, WeakSet.answers_as_elements keying⟩

/-- A key is mapped, an equal one is mapped over it, and the first is reclaimed. The mapping is gone
with it. -/
example :
    (serve WeakMap.step { container := { keying := Keying.colliding } }
      [.call (.put (some ⟨1, [], 5⟩) 1), .call (.put (some ⟨2, [], 5⟩) 2), .reclaim (·.id ≠ 1),
        .call (.get ⟨2, [], 5⟩), .call .purge]).1 =
      [(0, .value none), (0, .value (some 1)), (0, .done), (0, .value none), (0, .purged 1)] := by
  rfl

/-- Sixteen elements are inserted and reclaimed, and the set throws them out when one more is
inserted. So a requested sweep finds none of them in the set, and all of them in the list. -/
example :
    let occasions : List (Occasion (WeakSet.Call Object) Object) :=
      (List.range 16).map (fun number => .call (.insert (some ⟨number, [], number⟩))) ++
        [.reclaim (·.id = 16), .call (.insert (some ⟨16, [], 16⟩)), .call .purge]
    (serve WeakSet.step { container := { keying := Keying.plain } } occasions).1.getLast? =
        some (16, .purged 0) ∧
      (serve WeakSet.attend (.ofKeys Keying.plain) occasions).1.getLast? = some (.purged 16) :=
  ⟨rfl, rfl⟩

end Collections.Weak
