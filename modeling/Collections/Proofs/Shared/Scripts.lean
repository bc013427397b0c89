import Collections.Proofs.Shared.Filtering
import Collections.Proofs.Shared.Queue.Accounting
import Collections.Proofs.Shared.Removals
import Collections.Shared.List
import Collections.Shared.Session.Map
import Collections.Shared.Set

/-!
# Scripts on the cursor of a locked container

What a callback has come to can be read off its replies: the elements that it was delivered, and the
positions of those that it removed (`Progress`). These tell where the walk stands. The elements
delivered are the first ones of the content, the container holds those of them that were not removed
and all that are still ahead, and the cursor stands between the two (`Progress.Tracks`).

Every action is answered accordingly, and an action that fails changes nothing
(`Progress.Tracks.perform`). So after any script, however it ends, the container has lost exactly what
was removed (`Walk.edits_play`), and the loop that removes the elements that satisfy a test is one of
these scripts (`Walk.sweep_eq_play`). An iteration of a map, a set, a list or a queue plays its script
on the container behind the lock (`Guarded.step_iterate`).
-/

set_option autoImplicit false

namespace Collections

variable {α : Type}

/-! ## Lists without some positions -/

/-- A list without the elements at some positions. -/
def without (items : List α) (removed : List Nat) : List α :=
  (items.zipIdx.filter fun (_, position) => position ∉ removed).map (·.1)

/-- What lies behind all of the positions stays. -/
theorem without_append {front : List α} {removed : List Nat}
    (inFront : ∀ position ∈ removed, position < front.length) (back : List α) :
    without (front ++ back) removed = without front removed ++ back := by
  have stays : ∀ entry ∈ back.zipIdx front.length,
      (decide (entry.2 ∉ removed)) = true := by
    rintro ⟨item, position⟩ member
    have behind := (List.mem_zipIdx member).1
    refine decide_eq_true fun gone => ?_
    exact Nat.not_lt.mpr behind (inFront position gone)
  rw [without, List.zipIdx_append, List.filter_append, List.map_append, Nat.zero_add,
    List.filter_eq_self.mpr stays]
  simp [without]

/-- To remove the last position is to leave the last element out. -/
theorem without_last (front : List α) (item : α) (removed : List Nat) :
    without (front ++ [item]) (front.length :: removed) = without front removed := by
  have same : ∀ entry ∈ front.zipIdx,
      decide (entry.2 ∉ front.length :: removed) = decide (entry.2 ∉ removed) := by
    rintro ⟨other, position⟩ member
    have before := (List.mem_zipIdx member).2.1
    have differ : position ≠ front.length := by omega
    simp [differ]
  rw [without, List.zipIdx_append, List.filter_append, List.filter_congr same]
  simp [without]

namespace Shared

/-- To remove what was delivered last succeeds, and then nothing is left to be removed. -/
theorem Walk.Between.remove_succeeds {walk : Walk α} {behind ahead : List α} {item : α}
    (between : walk.Between (behind ++ [item]) ahead)
    (last : (walk.container.places.get walk.slot).last = some behind.length) :
    walk.remove.1 = .ok () ∧
      (walk.remove.2.container.places.get walk.remove.2.slot).last = none := by
  have current : walk.container.current? walk.slot = some behind.length := by
    simp [Container.current?, last, between.items]
  rw [Walk.remove, Container.removeCurrent?, current]
  exact ⟨rfl, by simp⟩

/-! ## Progress -/

/-- Whether an element has been removed. -/
def Reply.isDone : Reply α → Bool
  | .done => true
  | _ => false

/-- How far a callback has come: the elements that it was delivered, and the positions of those that
it removed. -/
structure Progress (α : Type) where
  delivered : List α := []
  removed : List Nat := []

namespace Progress

/-- The progress after one more reply. What is removed is what was delivered last. -/
def after (progress : Progress α) : Reply α → Progress α
  | .item value => { progress with delivered := progress.delivered ++ [value] }
  | .done => { progress with removed := (progress.delivered.length - 1) :: progress.removed }
  | _ => progress

/-- The progress that replies tell of. -/
def of (replies : List (Reply α)) : Progress α := replies.foldl after {}

theorem length_removed_after (progress : Progress α) (reply : Reply α) :
    (progress.after reply).removed.length =
      progress.removed.length + [reply].countP Reply.isDone := by
  cases reply <;> simp [after, Reply.isDone]

theorem length_removed_of (replies : List (Reply α)) :
    (of replies).removed.length = replies.countP Reply.isDone := by
  suffices counted : ∀ progress : Progress α, (replies.foldl after progress).removed.length =
      progress.removed.length + replies.countP Reply.isDone by
    simpa [of] using counted {}
  induction replies with
  | nil => exact fun _ => rfl
  | cons reply rest hypothesis =>
      intro progress
      rw [List.foldl_cons, hypothesis, length_removed_after, ← List.singleton_append (l := rest),
        List.countP_append, Nat.add_assoc]

/-- There is an element that was delivered last, and it has not been removed. -/
def Holding (progress : Progress α) : Prop :=
  progress.delivered ≠ [] ∧ progress.delivered.length - 1 ∉ progress.removed

instance (progress : Progress α) : Decidable progress.Holding :=
  have : Decidable (progress.delivered ≠ []) :=
    decidable_of_iff (progress.delivered.length ≠ 0) List.length_eq_zero_iff.not
  inferInstanceAs (Decidable (_ ∧ _))

/-- What an action is answered, with some elements ahead. -/
def answer (progress : Progress α) (ahead : List α) : Action → Except CursorError (Reply α)
  | .hasNext => .ok (.flag !ahead.isEmpty)
  | .next =>
      match ahead with
      | [] => .error .pastEnd
      | item :: _ => .ok (.item item)
  | .remove => if progress.Holding then .ok .done else .error .noCurrent
  | .removedCount => .ok (.count progress.removed.length)

/-- The progress of a callback tells where its walk stands. -/
structure Tracks (progress : Progress α) (ahead : List α) (walk : Walk α) : Prop where
  between : walk.Between (without progress.delivered progress.removed) ahead
  last : (walk.container.places.get walk.slot).last =
    if progress.Holding then some ((without progress.delivered progress.removed).length - 1)
    else none
  inside : ∀ position ∈ progress.removed, position < progress.delivered.length
  once : progress.removed.Nodup
  count : walk.removed = progress.removed.length

theorem tracks_start (container : Container α) (slot : Nat) :
    Tracks {} container.items (Walk.start container slot) where
  between := Walk.start_between container slot
  last := by simp [Walk.start, Container.openPlace, Holding]
  inside := by simp
  once := .nil
  count := rfl

namespace Tracks

variable {progress : Progress α} {ahead : List α} {walk : Walk α} {item : α}

theorem current_of_holding (tracks : progress.Tracks ahead walk) (holding : progress.Holding) :
    ∃ front item, progress.delivered = front ++ [item] ∧
      walk.Between (without front progress.removed ++ [item]) ahead ∧
      (walk.container.places.get walk.slot).last = some (without front progress.removed).length := by
  obtain ⟨some, stays⟩ := holding
  obtain ⟨front, item, whole⟩ := (List.eq_nil_or_concat' progress.delivered).resolve_left some
  have inFront : ∀ position ∈ progress.removed, position < front.length := by
    intro position member
    have inside := tracks.inside position member
    have differ : position ≠ progress.delivered.length - 1 := fun same => stays (same ▸ member)
    rw [whole, List.length_append, List.length_singleton] at inside differ
    omega
  have behind : without progress.delivered progress.removed =
      without front progress.removed ++ [item] := by
    rw [whole, without_append inFront]
  refine ⟨front, item, whole, behind ▸ tracks.between, ?_⟩
  rw [tracks.last, if_pos ⟨some, stays⟩, behind, List.length_append]
  rfl

theorem next (tracks : progress.Tracks (item :: ahead) walk) :
    ∃ after, walk.next = (.ok item, after) ∧
      (progress.after (.item item)).Tracks ahead after := by
  obtain ⟨after, delivered, between, last, same⟩ := tracks.between.next_of_cons
  have stays := without_append tracks.inside [item]
  have fresh : progress.delivered.length ∉ progress.removed :=
    fun member => Nat.lt_irrefl _ (tracks.inside _ member)
  refine ⟨after, delivered, stays ▸ between, ?_, ?_, tracks.once, same.trans tracks.count⟩
  · have holding : (progress.after (.item item)).Holding := by
      refine ⟨by simp [Progress.after], ?_⟩
      simpa [Progress.after] using fresh
    rw [if_pos holding, last]
    simp [Progress.after, stays]
  · intro position member
    have inside := tracks.inside position member
    simp only [Progress.after, List.length_append, List.length_singleton]
    omega

theorem remove (tracks : progress.Tracks ahead walk) (holding : progress.Holding) :
    ∃ after, walk.remove = (.ok (), after) ∧ (progress.after .done).Tracks ahead after := by
  obtain ⟨front, item, whole, between, last⟩ := tracks.current_of_holding holding
  obtain ⟨shorter, one⟩ := between.remove last
  obtain ⟨succeeds, nothing⟩ := between.remove_succeeds last
  have position : progress.delivered.length - 1 = front.length := by simp [whole]
  refine ⟨walk.remove.2, Prod.ext succeeds rfl, ?_, ?_, ?_, ?_, ?_⟩
  · simp only [Progress.after, position]
    rw [whole, without_last]
    exact shorter
  · have gone : ¬ (progress.after .done).Holding := fun holding =>
      holding.2 (by simp [Progress.after])
    rw [nothing, if_neg gone]
  · intro other member
    rcases List.mem_cons.mp member with rfl | member
    · simp [Progress.after, whole]
    · exact tracks.inside other member
  · exact List.nodup_cons.mpr ⟨holding.2, tracks.once⟩
  · rw [one, tracks.count]
    rfl

theorem remove_of_not_holding (tracks : progress.Tracks ahead walk)
    (nothing : ¬ progress.Holding) : walk.remove = (.error .noCurrent, walk) := by
  have last := tracks.last
  rw [if_neg nothing] at last
  simp [Walk.remove, Container.removeCurrent?, Container.current?, last]

/-- **An action is answered as the progress tells.** -/
theorem perform_fst (tracks : progress.Tracks ahead walk) (action : Action) :
    (walk.perform action).1 = progress.answer ahead action := by
  cases action with
  | hasNext =>
      show Except.ok (Reply.flag (walk.container.hasStep walk.slot .forward)) = _
      rw [Container.hasStep, tracks.between.next, tracks.between.items]
      cases ahead <;> simp [answer]
  | next =>
      cases ahead with
      | nil => rw [Walk.perform, tracks.between.next_of_nil]; rfl
      | cons item ahead =>
          obtain ⟨after, delivered, -⟩ := tracks.next
          rw [Walk.perform, delivered]
          rfl
  | remove =>
      by_cases holding : progress.Holding
      · obtain ⟨after, removed, -⟩ := tracks.remove holding
        rw [Walk.perform, removed, answer, if_pos holding]
        rfl
      · rw [Walk.perform, tracks.remove_of_not_holding holding, answer, if_neg holding]
        rfl
  | removedCount => exact congrArg (fun count => Except.ok (Reply.count count)) tracks.count

end Tracks

/-- A walk stands in a content where the progress of its callback tells. -/
def Describes (progress : Progress α) (content : List α) (walk : Walk α) : Prop :=
  ∃ ahead, progress.delivered ++ ahead = content ∧ progress.Tracks ahead walk

namespace Describes

variable {progress : Progress α} {content : List α} {walk : Walk α}

theorem perform (describes : progress.Describes content walk) {action : Action} {reply : Reply α}
    {after : Walk α} (performed : walk.perform action = (.ok reply, after)) :
    (progress.after reply).Describes content after := by
  obtain ⟨ahead, whole, tracks⟩ := describes
  have told : progress.answer ahead action = .ok reply := by
    rw [← tracks.perform_fst, performed]
  cases action with
  | hasNext =>
      cases performed
      exact ⟨ahead, whole, tracks⟩
  | next =>
      cases ahead with
      | nil => cases told
      | cons item ahead =>
          cases told
          obtain ⟨other, delivered, further⟩ := tracks.next
          rw [Walk.perform, delivered] at performed
          cases performed
          exact ⟨ahead, by simpa [Progress.after] using whole, further⟩
  | remove =>
      rw [answer] at told
      split at told
      next holding =>
        cases told
        obtain ⟨other, removed, shorter⟩ := tracks.remove holding
        rw [Walk.perform, removed] at performed
        cases performed
        exact ⟨ahead, whole, shorter⟩
      next => cases told
  | removedCount =>
      cases performed
      exact ⟨ahead, whole, tracks⟩

/-- A cue leaves the walk where its reply tells. -/
theorem follow (describes : progress.Describes content walk) (cue : Cue) :
    (progress.after (walk.follow cue).1).Describes content (walk.follow cue).2.2 := by
  cases cue with
  | stop => exact describes
  | act action manner =>
      rw [Walk.follow]
      rcases performed : walk.perform action with ⟨cause | reply, after⟩
      · obtain rfl := Walk.perform_of_error performed
        cases manner <;> exact describes
      · exact describes.perform performed

/-- **Whatever the script and however it ends, the replies tell where the walk stands.** -/
theorem play (describes : progress.Describes content walk) (script : List Cue) :
    ((walk.play script).1.foldl after progress).Describes content (walk.play script).2.2 := by
  induction script generalizing walk progress with
  | nil => exact describes
  | cons cue rest hypothesis =>
      have followed := describes.follow cue
      rw [Walk.play]
      generalize walk.follow cue = outcome at followed
      obtain ⟨reply, goesOn, after⟩ := outcome
      cases goesOn with
      | false => exact followed
      | true => exact hypothesis followed

theorem count_of_follow (describes : progress.Describes content walk) {cue : Cue} {number : Nat}
    (told : (walk.follow cue).1 = .count number) : number = progress.removed.length := by
  cases cue with
  | stop => cases told
  | act action manner =>
      rw [Walk.follow] at told
      rcases performed : walk.perform action with ⟨cause | reply, after⟩
      · rw [performed] at told
        cases manner <;> cases told
      · rw [performed] at told
        obtain rfl : reply = .count number := told
        obtain ⟨ahead, -, tracks⟩ := describes
        have answered : progress.answer ahead action = .ok (.count number) := by
          rw [← tracks.perform_fst, performed]
        cases action with
        | hasNext => cases answered
        | next => cases ahead <;> cases answered
        | remove =>
            rw [answer] at answered
            split at answered <;> cases answered
        | removedCount =>
            cases answered
            rfl

/-- What is told of the number of removals is their number by then. -/
theorem count_of_play (describes : progress.Describes content walk) {script : List Cue}
    {front back : List (Reply α)} {number : Nat}
    (told : (walk.play script).1 = front ++ .count number :: back) :
    number = progress.removed.length + front.countP Reply.isDone := by
  induction script generalizing walk progress front with
  | nil => simp [Walk.play] at told
  | cons cue rest hypothesis =>
      have followed := describes.follow cue
      have first : ∀ number, (walk.follow cue).1 = .count number →
          number = progress.removed.length := fun _ => describes.count_of_follow
      rw [Walk.play] at told
      generalize walk.follow cue = outcome at followed first told
      obtain ⟨reply, goesOn, after⟩ := outcome
      cases front with
      | nil =>
          cases goesOn with
          | false =>
              cases told
              exact first number rfl
          | true =>
              cases told
              exact first number rfl
      | cons other front =>
          cases goesOn with
          | false => simp at told
          | true =>
              obtain ⟨rfl, later⟩ := List.cons.inj told
              rw [hypothesis followed later, length_removed_after, Nat.add_assoc,
                ← List.countP_append]
              rfl

end Describes

end Progress

/-! ## What a callback has edited -/

/-- What a callback was told and what it left of a content fit together. -/
structure Edits (content : List α) (replies : List (Reply α)) (left : List α) : Prop where
  /-- The elements delivered are the first ones, in order. -/
  delivered : (Progress.of replies).delivered <+: content
  /-- Nothing is removed that was not delivered, and nothing is removed twice. -/
  removed_inside : ∀ position ∈ (Progress.of replies).removed,
    position < (Progress.of replies).delivered.length
  removed_once : (Progress.of replies).removed.Nodup
  /-- What is left is the content without what was removed, in order. -/
  left_eq : left = without content (Progress.of replies).removed
  size_eq : left.length + replies.countP Reply.isDone = content.length
  /-- Whenever the number of removals is asked for, it is told. -/
  count_eq : ∀ front number back, replies = front ++ .count number :: back →
    number = front.countP Reply.isDone

namespace Walk

/-- **Whatever the script and however it ends, the container has lost what was removed.** -/
theorem edits_play (container : Container α) (slot : Nat) (script : List Cue) :
    let played := (start container slot).play script
    Edits container.items played.1 played.2.2.container.items ∧
      played.2.2.removed = played.1.countP Reply.isDone ∧
      ∃ ahead, (Progress.of played.1).delivered ++ ahead = container.items ∧
        (Progress.of played.1).Tracks ahead played.2.2 := by
  intro played
  have start : Progress.Describes {} container.items (start container slot) :=
    ⟨container.items, rfl, Progress.tracks_start container slot⟩
  obtain ⟨ahead, whole, tracks⟩ := start.play script
  have left : played.2.2.container.items =
      without container.items (Progress.of played.1).removed := by
    rw [tracks.between.items, ← whole]
    exact (without_append tracks.inside ahead).symm
  have count : played.2.2.removed = played.1.countP Reply.isDone :=
    tracks.count.trans (Progress.length_removed_of played.1)
  have counted : played.2.2.container.items.length + played.2.2.removed = container.items.length :=
    (handled_play _ script).trans (handled_start container slot)
  refine ⟨⟨⟨ahead, whole⟩, tracks.inside, tracks.once, left, count ▸ counted, ?_⟩, count, ahead,
    whole, tracks⟩
  intro front number back told
  simpa using start.count_of_play told

/-! ## Loops -/

/-- The script that asks for every element in turn, and removes it if it satisfies a test. -/
def loop (drop : α → Bool) : List α → List Cue
  | [] => [.act .hasNext .told]
  | item :: rest =>
      [.act .hasNext .told, .act .next .told] ++
        (if drop item then [.act .remove .told] else []) ++ loop drop rest

theorem play_cons_of_ok {walk after : Walk α} {action : Action} {manner : Manner}
    {reply : Reply α} (performed : walk.perform action = (.ok reply, after)) (rest : List Cue) :
    walk.play (.act action manner :: rest) =
      (reply :: (after.play rest).1, (after.play rest).2) := by
  rw [play, follow, performed]

theorem Between.play_loop {walk : Walk α} {behind ahead : List α}
    (between : walk.Between behind ahead) (drop : α → Bool) {rounds : Nat}
    (enough : ahead.length ≤ rounds) :
    (walk.play (loop drop ahead)).2.2 = (sweepWithin drop rounds walk).2 := by
  induction rounds generalizing walk behind ahead with
  | zero =>
      obtain rfl : ahead = [] := List.length_eq_zero_iff.mp (Nat.le_zero.mp enough)
      rfl
  | succ rounds hypothesis =>
      cases ahead with
      | nil =>
          rw [sweepWithin, between.next_of_nil]
          rfl
      | cons item ahead =>
          have fewer : ahead.length ≤ rounds := Nat.le_of_succ_le_succ enough
          obtain ⟨after, delivered, further, last, -⟩ := between.next_of_cons
          have asked : walk.perform .hasNext = (.ok (.flag walk.hasNext), walk) := rfl
          have told : walk.perform .next = (.ok (.item item), after) := by
            rw [perform, delivered]
            rfl
          rw [sweepWithin, delivered, loop, List.append_assoc, List.cons_append, List.cons_append,
            List.nil_append, play_cons_of_ok asked, play_cons_of_ok told]
          dsimp only
          cases dropped : drop item with
          | true =>
              obtain ⟨shorter, -⟩ := further.remove last
              have removed : after.perform .remove = (.ok .done, after.remove.2) := by
                have succeeds : after.remove = (.ok (), after.remove.2) :=
                  Prod.ext (further.remove_succeeds last).1 rfl
                rw [perform, succeeds]
                rfl
              rw [if_pos rfl, if_pos rfl, List.cons_append, List.nil_append,
                play_cons_of_ok removed]
              exact hypothesis shorter fewer
          | false => exact hypothesis further fewer

/-- **The loop that removes the elements that satisfy a test is a script.** -/
theorem sweep_eq_play (container : Container α) (slot : Nat) (drop : α → Bool) :
    ((start container slot).sweep drop).2 =
      ((start container slot).play (loop drop container.items)).2.2 :=
  ((start_between container slot).play_loop drop (Nat.le_refl _)).symm

end Walk

/-! ## Iterations -/

/-- An iteration answers the replies of a callback that has edited a content. -/
def Iterated {β : Type} (content : List α) (answer : Answer α β) (left : List α) : Prop :=
  ∃ replies : List (Reply α), answer = .several (replies.map .reply) ∧ Edits content replies left

theorem Guarded.iterated_step {ρ β : Type} (apply : Nat → Guarded α → ρ → β × Guarded α)
    (report : Nat → Nat → Log.Notice) (slot : Nat) (guarded : Guarded α) (script : List Cue) :
    let told := Guarded.step apply report slot guarded (.iterate (script.map .cue))
    Iterated guarded.items told.1 told.2.items := by
  intro told
  have played := Guarded.step_iterate apply report slot guarded script
  have edits := (Walk.edits_play guarded.container slot script).1
  refine ⟨_, congrArg Prod.fst played, ?_⟩
  have left : told.2.container =
      ((Walk.start guarded.container slot).play script).2.2.container := by
    rw [show told.2 = _ from congrArg Prod.snd played]
    split
    · exact Guarded.container_sayRemoved report _ _
    · rfl
  show Edits _ _ told.2.container.items
  rw [left]
  exact edits

theorem SharedQueue.edits_iterate (queue : SharedQueue α) (script : List Cue) :
    Edits queue.items (queue.iterate script).1 (queue.iterate script).2.1.items := by
  have edits := (Walk.edits_play queue.container 0 script).1
  unfold SharedQueue.iterate
  dsimp only
  split <;> exact edits

/-- **A callback that walks a locked container removes what it tells, and nothing else.** Whatever the
container and whatever the script, and whether the callback returns, stops or is left because an action
failed: the elements delivered are the first ones of the content, and what is left of it is the content
without the positions that were removed, in order. Their number is what the cursor counts, and by how
much the container is shorter (`Edits`). In every state that is reached, an action is answered as the
progress of the callback tells (`Progress.answer`): there is a next element as long as some are ahead,
and an element to be removed if one was delivered last and has not been removed. An action that fails
changes nothing.

So it is with the iterations of maps, sets, lists and queues. The loop that removes the elements that
satisfy a test is such a script. It is delivered every element once, and leaves those that do not
satisfy it. -/
theorem scripts_remove_what_they_tell {κ : Type} [BEq α] [Ord α] [BEq κ] [Ord κ] :
    (∀ (container : Container α) (slot : Nat) (script : List Cue),
      let played := (Walk.start container slot).play script
      let progress := Progress.of played.1
      let walk := played.2.2
      Edits container.items played.1 walk.container.items ∧
        walk.removed = played.1.countP Reply.isDone ∧
        ∀ action,
          (walk.perform action).1 =
              progress.answer (container.items.drop progress.delivered.length) action ∧
            ∀ cause, (walk.perform action).1 = .error cause → (walk.perform action).2 = walk) ∧
      (∀ (map : SharedMap κ Int) (script : List Cue),
        let told := map.step (.iterate (script.map .cue))
        Iterated map.items told.1 told.2.items) ∧
      (∀ (set : SharedSet α) (script : List Cue),
        let told := set.step (.iterate (script.map .cue))
        Iterated set.items told.1 told.2.items) ∧
      (∀ (list : SharedList α) (script : List Cue),
        let told := list.step (.iterate (script.map .cue))
        Iterated list.items told.1 told.2.items) ∧
      (∀ (queue : SharedQueue α) (script : List Cue),
        let told := queue.iterate script
        Edits queue.items told.1 told.2.1.items) ∧
      ∀ (guarded : Guarded α) (report : Nat → Nat → Log.Notice) (slot : Nat) (drop : α → Bool),
        let filtered := guarded.removeWhere report slot drop
        let played := (Walk.start guarded.container slot).play (Walk.loop drop guarded.items)
        filtered.1 = (guarded.items, played.2.2.removed) ∧
          filtered.2.items = played.2.2.container.items ∧
          filtered.2.items = guarded.items.filter (fun item => !drop item) := by
  refine ⟨?_, ?_, ?_, ?_, SharedQueue.edits_iterate, ?_⟩
  · intro container slot script played progress walk
    obtain ⟨edits, count, ahead, whole, tracks⟩ := Walk.edits_play container slot script
    refine ⟨edits, count, fun action => ⟨?_, ?_⟩⟩
    · rw [← whole, List.drop_left]
      exact tracks.perform_fst action
    · intro cause failed
      exact Walk.perform_of_error (Prod.ext failed rfl)
  · intro map script
    exact Guarded.iterated_step _ _ 0 map.toGuarded script
  · intro set script
    exact Guarded.iterated_step _ _ 0 set.toGuarded script
  · intro list script
    exact Guarded.iterated_step _ _ 0 list.toGuarded script
  · intro guarded report slot drop filtered played
    obtain ⟨visited, kept⟩ := guarded.removeWhere_eq report slot drop
    have looped : played.2.2 = ((Walk.start guarded.container slot).sweep drop).2 :=
      (Walk.sweep_eq_play guarded.container slot drop).symm
    have all : filtered.1.1 = guarded.items := by rw [show filtered.1 = _ from visited]
    rw [looped]
    refine ⟨Prod.ext all rfl, ?_, kept⟩
    exact congrArg Container.items (Guarded.container_sayRemoved report _ _)

/-- A callback that removes before it was delivered anything, removes twice, and is left by a failure. -/
def clumsyScript : List Cue :=
  [.act .remove .told, .act .next .told, .act .remove .told, .act .remove .thrown,
    .act .removedCount .told, .act .next .told, .act .next .told, .act .remove .told,
    .act .remove .leaving, .act .next .told]

/-- A linked container with equal elements, after `clumsyScript`. -/
theorem scripts_remove_what_they_tell_on_clumsyScript :
    let container : Container Nat := { grip := .element, items := [5, 7, 5, 8] }
    let played := (Walk.start container 0).play clumsyScript
    played.1 = [.failed .noCurrent false, .item 5, .done, .failed .noCurrent true, .count 1, .item 7,
        .item 5, .done, .failed .noCurrent true] ∧
      played.2.2.container.items = [7, 8] ∧
      (played.2.2.perform .remove).1 = .error .noCurrent ∧
      (played.2.2.perform .remove).2 = played.2.2 := by
  intro container played
  obtain ⟨walks, -⟩ := scripts_remove_what_they_tell (α := Nat) (κ := Nat)
  obtain ⟨edits, -, acts⟩ := walks container 0 clumsyScript
  obtain ⟨answered, unchanged⟩ := acts .remove
  have failed : (played.2.2.perform .remove).1 = .error .noCurrent := answered
  exact ⟨rfl, edits.left_eq, failed, unchanged _ failed⟩

end Shared

end Collections
