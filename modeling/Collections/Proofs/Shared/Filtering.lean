import Collections.Shared.Guarded

/-!
# Walks that filter a container

A walk that removes the elements that satisfy a test stands between the elements that stay of those
it has passed, and those it has not reached yet (`Walk.Between`). Each round delivers the first of the
elements ahead, and puts it behind the walk or takes it away. So the walk delivers every element once
and in order, and takes away those that satisfy the test and no others
(`Walk.Between.sweepWithin_eq`, `Guarded.removeWhere_eq`). It does not matter how places hold on when
the container is edited, since a walk that removes goes to where the removed element stood.
-/

set_option autoImplicit false

namespace Collections.Shared

variable {α : Type}

namespace Walk

/-- A walk stands behind some elements of its container, and in front of the rest. -/
structure Between (walk : Walk α) (behind ahead : List α) : Prop where
  items : walk.container.items = behind ++ ahead
  next : (walk.container.places.get walk.slot).next = behind.length

variable {walk : Walk α} {behind ahead : List α} {item : α}

theorem start_between (container : Container α) (slot : Nat) :
    (start container slot).Between [] container.items := by
  refine ⟨rfl, ?_⟩
  simp [start, Container.openPlace]

namespace Between

theorem next_of_nil (between : walk.Between behind []) :
    walk.next = (.error .pastEnd, walk) := by
  have exhausted : walk.container.hasStep walk.slot .forward = false := by
    simp [Container.hasStep, between.next, between.items]
  rw [Walk.next, Container.step?_of_hasStep_eq_false exhausted]

/-- The first element ahead is delivered, and may be removed next. -/
theorem next_of_cons (between : walk.Between behind (item :: ahead)) :
    ∃ after, walk.next = (.ok item, after) ∧ after.Between (behind ++ [item]) ahead ∧
      (after.container.places.get after.slot).last = some behind.length ∧
      after.removed = walk.removed := by
  have there : walk.container.items[behind.length]? = some item := by
    rw [between.items]
    simp
  have delivered : walk.next = (.ok item, { walk with container := { walk.container with
      places := walk.container.places.set walk.slot
        ((walk.container.places.get walk.slot).stepped behind.length .forward) } }) := by
    simp [Walk.next, Container.step?, Place.ahead, between.next, there]
  refine ⟨_, delivered, ⟨?_, ?_⟩, ?_, rfl⟩
  · simp [between.items]
  · simp [Place.stepped]
  · simp [Place.stepped]

/-- What was delivered last may be removed. -/
theorem remove (between : walk.Between (behind ++ [item]) ahead)
    (last : (walk.container.places.get walk.slot).last = some behind.length) :
    walk.remove.2.Between behind ahead ∧ walk.remove.2.removed = walk.removed + 1 := by
  have current : walk.container.current? walk.slot = some behind.length := by
    simp [Container.current?, last, between.items]
  rw [Walk.remove, Container.removeCurrent?, current]
  refine ⟨⟨?_, ?_⟩, rfl⟩
  · show walk.container.items.eraseIdx behind.length = behind ++ ahead
    rw [between.items]
    simp [List.eraseIdx_append_of_length_le]
  · simp

/-- **A walk that filters delivers what is ahead, and takes away what satisfies the test.** -/
theorem sweepWithin_eq (between : walk.Between behind ahead) (drop : α → Bool)
    {rounds : Nat} (enough : ahead.length ≤ rounds) :
    (sweepWithin drop rounds walk).1 = ahead ∧
      (sweepWithin drop rounds walk).2.container.items =
        behind ++ ahead.filter (fun item => !drop item) ∧
      (sweepWithin drop rounds walk).2.removed =
        walk.removed + (ahead.filter drop).length := by
  -- An element ahead goes behind the walk in its round, unless the round removes it.
  induction rounds generalizing walk behind ahead with
  | zero =>
      obtain rfl : ahead = [] := List.length_eq_zero_iff.mp (Nat.le_zero.mp enough)
      exact ⟨rfl, between.items, rfl⟩
  | succ rounds hypothesis =>
      cases ahead with
      | nil =>
          rw [sweepWithin, between.next_of_nil]
          exact ⟨rfl, between.items, rfl⟩
      | cons item ahead =>
          have fewer : ahead.length ≤ rounds := Nat.le_of_succ_le_succ enough
          obtain ⟨after, delivered, further, last, same⟩ := between.next_of_cons
          rw [sweepWithin, delivered]
          dsimp only
          cases dropped : drop item with
          | true =>
              obtain ⟨shorter, one⟩ := further.remove last
              obtain ⟨rest, items, removed⟩ := hypothesis shorter fewer
              have leaves : (item :: ahead).filter (fun item => !drop item) =
                  ahead.filter fun item => !drop item :=
                List.filter_cons_of_neg (by simp [dropped])
              rw [if_pos rfl, leaves, List.filter_cons_of_pos dropped, List.length_cons]
              exact ⟨congrArg _ rest, items, by omega⟩
          | false =>
              obtain ⟨rest, items, removed⟩ := hypothesis further fewer
              have stays : (item :: ahead).filter (fun item => !drop item) =
                  item :: ahead.filter fun item => !drop item :=
                List.filter_cons_of_pos (by simp [dropped])
              rw [if_neg Bool.false_ne_true, stays, List.filter_cons_of_neg (by simp [dropped])]
              refine ⟨congrArg _ rest, ?_, by omega⟩
              rw [items, List.append_assoc]
              rfl

end Between

end Walk

/-- **Filtering a guarded container visits all of it and keeps what does not satisfy the test.** -/
theorem Guarded.removeWhere_eq (guarded : Guarded α) (report : Nat → Nat → Log.Notice) (slot : Nat)
    (drop : α → Bool) :
    (guarded.removeWhere report slot drop).1 =
        (guarded.items, (guarded.items.filter drop).length) ∧
      (guarded.removeWhere report slot drop).2.items =
        guarded.items.filter (fun item => !drop item) := by
  obtain ⟨visited, kept, removed⟩ :=
    (Walk.start_between guarded.container slot).sweepWithin_eq drop (Nat.le_refl _)
  have counted : ((Walk.start guarded.container slot).sweep drop).2.removed =
      (guarded.items.filter drop).length :=
    removed.trans (Nat.zero_add _)
  refine ⟨Prod.ext visited counted, ?_⟩
  unfold Guarded.removeWhere Guarded.sayRemoved
  dsimp only
  split <;> exact kept

end Collections.Shared
