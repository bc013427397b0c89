import Collections.Shared.Guarded
import Mathlib.Data.List.Perm.Basic

/-!
# What a walk removes

When elements leave a list the others stay in order, and those that left and those that stay are
together what was there (`Thinned`). A search that looks for none of those that left finds what it
found before (`Thinned.find?_eq`).

A callback that walks a locked container learns what it removes: the element that was delivered last
before each removal that succeeded (`Walk.removedFrom`). These elements, and no others, have left
the container, however the callback ends (`Walk.Holds.thinned_play`). A callback that makes no steps of
its own on the guarded container plays its script on the container in it (`Guarded.step_iterate`).
-/

set_option autoImplicit false

namespace Collections

variable {α : Type}

/-! ## Lists that lose elements -/

/-- Some elements have left a list, and the others stay in order. -/
structure Thinned (before gone after : List α) : Prop where
  sublist : after.Sublist before
  perm : before.Perm (gone ++ after)

namespace Thinned

variable {before between gone later after : List α}

theorem refl (items : List α) : Thinned items [] items := ⟨.refl items, .refl items⟩

theorem trans (first : Thinned before gone between) (second : Thinned between later after) :
    Thinned before (gone ++ later) after := by
  refine ⟨second.sublist.trans first.sublist, ?_⟩
  rw [List.append_assoc]
  exact first.perm.trans (second.perm.append_left gone)

theorem front (gone after : List α) : Thinned (gone ++ after) gone after :=
  ⟨List.sublist_append_right gone after, .refl _⟩

theorem all (items : List α) : Thinned items items [] := by
  have every := front items []
  rwa [List.append_nil] at every

theorem eraseIdx {index : Nat} {item : α} (there : before[index]? = some item) :
    Thinned before [item] (before.eraseIdx index) := by
  obtain ⟨inRange, rfl⟩ := List.getElem?_eq_some_iff.mp there
  exact ⟨List.eraseIdx_sublist before index, (List.getElem_cons_eraseIdx_perm inRange).symm⟩

theorem filter (items : List α) (drop : α → Bool) :
    Thinned items (items.filter drop) (items.filter fun item => !drop item) :=
  ⟨List.filter_sublist, (List.filter_append_perm drop items).symm⟩

/-- A search that looks for nothing that left finds what it found before. -/
theorem find?_eq (thinned : Thinned before gone after) {wanted : α → Bool}
    (spared : ∀ item ∈ gone, wanted item = false) : after.find? wanted = before.find? wanted := by
  have none : gone.filter wanted = [] := by
    simpa [List.filter_eq_nil_iff] using spared
  have counted := (thinned.perm.filter wanted).length_eq
  rw [List.filter_append, none, List.nil_append] at counted
  have same := (thinned.sublist.filter wanted).eq_of_length counted.symm
  rw [← List.head?_filter, ← List.head?_filter, same]

end Thinned

namespace Shared

/-! ## Walks -/

namespace Walk

/-- The element that a callback may still remove, after one more reply. -/
def holding (last : Option α) : Reply α → Option α
  | .item value => some value
  | .done => none
  | _ => last

/-- What a callback removed, read off one reply. -/
def removedBy (last : Option α) : Reply α → List α
  | .done => last.toList
  | _ => []

/-- What a callback removed, read off its replies: whatever had been delivered last before each
removal. -/
def removedFrom (last : Option α) : List (Reply α) → List α
  | [] => []
  | reply :: rest => removedBy last reply ++ removedFrom (holding last reply) rest

/-- If the walk can remove an element, it is this one. -/
def Holds (walk : Walk α) (last : Option α) : Prop :=
  ∀ index, walk.container.current? walk.slot = some index → walk.container.items[index]? = last

variable {walk : Walk α} {last : Option α}

theorem holds_start (container : Container α) (slot : Nat) : (start container slot).Holds last := by
  intro index current
  simp [start, Container.current?, Container.openPlace] at current

/-- What is seen of a walk, what it holds and what has left its container fit together. -/
structure Follows (walk after : Walk α) (last : Option α) (reply : Reply α) : Prop where
  holds : after.Holds (holding last reply)
  thinned : Thinned walk.container.items (removedBy last reply) after.container.items

/-- A reply that tells of no element and no removal comes from a walk that stays as it is. -/
theorem Holds.follows_unchanged (holds : walk.Holds last) {reply : Reply α}
    (same : holding last reply = last) (nothing : removedBy last reply = []) :
    Follows walk walk last reply := by
  constructor
  · rwa [same]
  · rw [nothing]
    exact .refl _

theorem follows_next {item : α} {after : Walk α} (delivered : walk.next = (.ok item, after)) :
    Follows walk after last (.item item) := by
  unfold Walk.next at delivered
  split at delivered
  next found container stepped =>
    cases delivered
    simp only [Container.step?, Option.bind_eq_bind, Option.bind_eq_some_iff, pure,
      Option.some.injEq, Prod.mk.injEq] at stepped
    obtain ⟨position, -, found, there, rfl, rfl⟩ := stepped
    refine ⟨fun index current => ?_, .refl _⟩
    have last := (Option.filter_eq_some_iff.mp current).1
    simp only [Table.get_set_self, Place.stepped, Option.some.injEq] at last
    rw [← last]
    exact there
  next => cases delivered

theorem Holds.follows_remove (holds : walk.Holds last) {after : Walk α}
    (removed : walk.remove = (.ok (), after)) : Follows walk after last .done := by
  unfold Walk.remove at removed
  split at removed
  next container found =>
    cases removed
    simp only [Container.removeCurrent?, Option.bind_eq_bind, Option.bind_eq_some_iff, pure,
      Option.some.injEq] at found
    obtain ⟨index, current, rfl⟩ := found
    refine ⟨fun other current => ?_, ?_⟩
    · simp [Container.current?] at current
    · have inRange := (Option.filter_eq_some_iff.mp current).2
      have there := holds index current
      rw [List.getElem?_eq_getElem (by simpa using inRange)] at there
      subst there
      exact .eraseIdx (List.getElem?_eq_getElem _)
  next => cases removed

theorem Holds.follows_perform (holds : walk.Holds last) {action : Action} {reply : Reply α}
    {after : Walk α} (performed : walk.perform action = (.ok reply, after)) :
    Follows walk after last reply := by
  cases action with
  | hasNext =>
      cases performed
      exact holds.follows_unchanged rfl rfl
  | next =>
      rw [Walk.perform] at performed
      rcases delivered : walk.next with ⟨_ | item, next⟩
      · rw [delivered] at performed
        cases performed
      · rw [delivered] at performed
        cases performed
        exact follows_next delivered
  | remove =>
      rw [Walk.perform] at performed
      rcases removed : walk.remove with ⟨_ | _, next⟩
      · rw [removed] at performed
        cases performed
      · rw [removed] at performed
        cases performed
        exact holds.follows_remove removed
  | removedCount =>
      cases performed
      exact holds.follows_unchanged rfl rfl

/-- An action that fails leaves the walk as it is. -/
theorem perform_of_error {action : Action} {cause : CursorError} {after : Walk α}
    (failed : walk.perform action = (.error cause, after)) : after = walk := by
  cases action with
  | hasNext => cases failed
  | next =>
      simp only [Walk.perform, Walk.next] at failed
      split at failed <;> cases failed
      rfl
  | remove =>
      simp only [Walk.perform, Walk.remove] at failed
      split at failed <;> cases failed
      rfl
  | removedCount => cases failed

theorem slot_follow (walk : Walk α) (cue : Cue) : (walk.follow cue).2.2.slot = walk.slot := by
  cases cue with
  | stop => rfl
  | act action manner =>
      have kept : (walk.perform action).2.slot = walk.slot := by
        cases action with
        | next =>
            simp only [perform, next]
            split <;> rfl
        | remove =>
            simp only [perform, remove]
            split <;> rfl
        | _ => rfl
      rw [← kept, follow]
      rcases walk.perform action with ⟨_ | _, after⟩
      · cases manner <;> rfl
      · rfl

/-- Every cue leaves the walk as its reply tells. -/
theorem Holds.follows_follow (holds : walk.Holds last) (cue : Cue) :
    Follows walk (walk.follow cue).2.2 last (walk.follow cue).1 := by
  cases cue with
  | stop => exact holds.follows_unchanged rfl rfl
  | act action manner =>
      rw [Walk.follow]
      rcases performed : walk.perform action with ⟨cause | reply, after⟩
      · obtain rfl := perform_of_error performed
        cases manner <;> exact holds.follows_unchanged rfl rfl
      · exact holds.follows_perform performed

/-- **A callback that walks a container removes what it was delivered before each removal, and
nothing else.** -/
theorem Holds.thinned_play (holds : walk.Holds last) (script : List Cue) :
    Thinned walk.container.items (removedFrom last (walk.play script).1)
      (walk.play script).2.2.container.items := by
  induction script generalizing walk last with
  | nil => exact .refl _
  | cons cue rest hypothesis =>
      have followed := holds.follows_follow cue
      rw [Walk.play]
      generalize walk.follow cue = outcome at followed
      obtain ⟨reply, goesOn, after⟩ := outcome
      cases goesOn with
      | false => exact followed.thinned.trans (.refl _)
      | true => exact followed.thinned.trans (hypothesis followed.holds)

end Walk

/-! ## Iterations -/

namespace Guarded

variable {ρ β : Type} (apply : Nat → Guarded α → ρ → β × Guarded α)
  (report : Nat → Nat → Log.Notice)

/-- A script of cues is followed as a walk plays them. -/
theorem playItems_cues (slot removed : Nat) (guarded : Guarded α) (script : List Cue) :
    let played := (Walk.mk guarded.container slot removed).play script
    playItems apply report slot removed guarded (script.map .cue) =
      (played.1.map .reply, played.2.1, played.2.2.removed,
        { guarded with container := played.2.2.container }) := by
  induction script generalizing removed guarded with
  | nil => simp only [List.map_nil, playItems, Walk.play]
  | cons cue rest hypothesis =>
      simp only [List.map_cons, playItems, playItem, Walk.play]
      have kept := Walk.slot_follow (Walk.mk guarded.container slot removed) cue
      generalize (Walk.mk guarded.container slot removed).follow cue = outcome at kept
      obtain ⟨reply, goesOn, container, place, count⟩ := outcome
      obtain rfl : place = slot := kept
      cases goesOn with
      | false => rfl
      | true => simp only [hypothesis, List.map_cons]

/-- An iteration whose callback makes no steps of its own. -/
theorem step_iterate (slot : Nat) (guarded : Guarded α) (script : List Cue) :
    let played := (Walk.start guarded.container slot).play script
    let walked : Guarded α := { guarded with container := played.2.2.container }
    step apply report slot guarded (.iterate (script.map .cue)) =
      (.several (played.1.map .reply),
        if played.2.1 then walked.sayRemoved report played.2.2.removed else walked) := by
  simp only [step, playItems_cues]
  rfl

theorem container_sayRemoved (guarded : Guarded α) (removed : Nat) :
    (guarded.sayRemoved report removed).container = guarded.container := by
  unfold sayRemoved
  split <;> rfl

end Guarded

end Shared

end Collections
