import Collections.Proofs.Runs
import Collections.Proofs.Shared.Queue.Accounting
import Collections.Proofs.Shared.Removals
import Collections.Shared.Queue.Waiting

/-!
# What becomes of the elements of a queue

Whoever watches a queue can keep its books: which elements have entered, which have been given out
and which have been deleted, read off what callers are told (`Event.entry`). An element that a caller
brought counts as accepted when that caller is told so, which may be long after it asked.

Every event accepts one element at the back, or gives out elements at the front, or deletes some
from anywhere (`Posts`, `World.tells_happen`). So the books balance after every run. What was given
out and what is left stand in the order in which it was accepted, and together with what was deleted
they are all of it (`Conserved`, `queue_conserves_elements`).
-/

set_option autoImplicit false

namespace Collections.Shared

open SharedQueue (Operation Result)
open scoped List

variable {α : Type}

/-! ## Books -/

/-- What an event enters in the books of a queue. -/
structure Entry (α : Type) where
  accepted : List α := []
  given : List α := []
  deleted : List α := []

namespace Entry

/-- The books over many events. -/
def total (entries : List (Entry α)) : Entry α where
  accepted := entries.flatMap accepted
  given := entries.flatMap given
  deleted := entries.flatMap deleted

/-- A caller that brought an element is told whether it has entered. -/
def ofInsertion (item : α) : Option (Result α) → Entry α
  | some (.flag true) | some .done => { accepted := [item] }
  | _ => {}

/-- A caller that wants an element is given it, if there is one. -/
def ofTaking : Option (Result α) → Entry α
  | some (.item item) => { given := item.toList }
  | _ => {}

end Entry

/-- What an operation on a queue with some elements enters in its books, by what its caller is
told. -/
def SharedQueue.Operation.entry [BEq α] (items : List α) : Operation α → Option (Result α) → Entry α
  | .offer item, answer | .offerInTime item, answer | .put item, answer =>
      .ofInsertion item answer
  | .poll, answer | .pollInTime, answer | .take, answer => .ofTaking answer
  | .drainTo _ target, some (.drained _ filled) => { given := filled.drop target.length }
  | .remove item, some (.flag true) => { deleted := (items.find? (· == item)).toList }
  | .clear, some .done => { deleted := items }
  | .iterate _, some (.replies replies) => { deleted := Walk.removedFrom none replies }
  | _, _ => {}

/-- What an event enters in the books, by what the caller is told that leaves. -/
def Event.entry [BEq α] (world : World α) : Event α → Option (Result α) → Entry α
  | .ask operation, answer => operation.entry world.queue.items answer
  | .resumeInserter position, answer | .expireInserter position, answer =>
      match world.inserters[position]? with
      | some inserter => .ofInsertion inserter.request answer
      | none => {}
  | .resumeTaker _, answer | .expireTaker _, answer => .ofTaking answer
  | .stirInserter _, _ | .stirTaker _, _ => {}

/-- One thing happens, and is entered in the books. -/
def World.record [BEq α] (preferred : Nat) (world : World α) (event : Event α) :
    Entry α × World α :=
  let (answer, after) := world.happen preferred event
  (event.entry world answer, after)

/-- Things happen one after the other, each with a preference among the callers that sleep. -/
def World.recordAll [BEq α] (world : World α) (events : List (Nat × Event α)) :
    List (Entry α) × World α :=
  serve (fun world event => world.record event.1 event.2) world events

/-! ## Entries -/

/-- What one event may do to the elements of a queue. -/
inductive Posts (before after : List α) : Entry α → Prop where
  | accepted (item : α) (entered : after = before ++ [item]) : Posts before after ⟨[item], [], []⟩
  | given (items : List α) (left : before = items ++ after) : Posts before after ⟨[], items, []⟩
  | deleted (gone : List α) (thinned : Thinned before gone after) :
      Posts before after ⟨[], [], gone⟩

namespace Posts

theorem unchanged (items : List α) : Posts items items {} := .given [] rfl

/-- What is given out stood in front. -/
theorem front {before after : List α} {entry : Entry α} (posts : Posts before after entry) :
    entry.given = [] ∨ before = entry.given ++ after := by
  cases posts with
  | accepted item entered => exact .inl rfl
  | given items left => exact .inr left
  | deleted gone thinned => exact .inl rfl

end Posts

/-- The books of a queue balance. What was given out and what is there are in the order in which it
was accepted, and with what was deleted they are all of it. -/
structure Conserved (initial contents : List α) (books : Entry α) : Prop where
  order : books.given ++ contents <+ initial ++ books.accepted
  whole : initial ++ books.accepted ~ books.given ++ contents ++ books.deleted

namespace Conserved

variable {initial between contents : List α}

theorem refl (contents : List α) : Conserved contents contents (.total []) := by
  constructor <;> simp [Entry.total]

theorem of_posts {entry : Entry α} (posts : Posts initial contents entry) :
    Conserved initial contents entry := by
  cases posts with
  | accepted item entered =>
      subst entered
      constructor <;> simp
  | given items left =>
      subst left
      constructor <;> simp
  | deleted gone thinned =>
      constructor
      · simpa using thinned.sublist
      · simpa using thinned.perm.trans List.perm_append_comm

/-- Books that balance one after the other balance together. -/
theorem cons {entry : Entry α} {entries : List (Entry α)} (first : Conserved initial between entry)
    (rest : Conserved between contents (.total entries)) :
    Conserved initial contents (.total (entry :: entries)) := by
  constructor
  · have later := (rest.order.append_left entry.given)
    have earlier := first.order.append_right (Entry.total entries).accepted
    rw [List.append_assoc] at earlier
    simpa [Entry.total] using later.trans earlier
  · let later := Entry.total entries
    have whole : initial ++ (entry.accepted ++ later.accepted) ~
        entry.given ++ later.given ++ contents ++ (entry.deleted ++ later.deleted) := by
      calc
        initial ++ (entry.accepted ++ later.accepted) ~
            entry.given ++ between ++ entry.deleted ++ later.accepted := by
          rw [← List.append_assoc]
          exact first.whole.append_right later.accepted
        _ ~ entry.given ++ (between ++ later.accepted) ++ entry.deleted := by
          simp only [List.append_assoc]
          exact (List.perm_append_comm.append_left between).append_left entry.given
        _ ~ entry.given ++ (later.given ++ contents ++ later.deleted) ++ entry.deleted :=
          (rest.whole.append_left entry.given).append_right entry.deleted
        _ ~ entry.given ++ later.given ++ contents ++ (entry.deleted ++ later.deleted) := by
          simp only [List.append_assoc]
          exact ((List.perm_append_comm.append_left contents).append_left _).append_left entry.given
    simpa [later, Entry.total] using whole

/-- If nothing was deleted, what was given out comes first and what is left follows. -/
theorem eq_of_deleted_eq_nil {books : Entry α} (conserved : Conserved initial contents books)
    (none : books.deleted = []) : initial ++ books.accepted = books.given ++ contents := by
  have counted := conserved.whole.length_eq
  rw [none, List.append_nil] at counted
  exact (conserved.order.eq_of_length counted.symm).symm

end Conserved

/-! ## Operations -/

/-- Whether a caller is told of a failure, or has to wait and is told nothing. -/
def emptyHanded : Option (Result α) → Bool
  | none | some (.flag false) | some (.item none) => true
  | _ => false

/-- What a caller is told, what is entered in the books and what happened to a queue fit
together. -/
structure Recorded (before after : SharedQueue α) (answer : Option (Result α)) (entry : Entry α) :
    Prop where
  posts : Posts before.items after.items entry
  /-- A caller that is told of an element is told of the front one. -/
  first : ∀ item, answer = some (.item item) → item = before.items.head?
  /-- What fails, or has to wait, changes nothing. -/
  idle : emptyHanded answer = true → after.container = before.container
  capacity : after.capacity = before.capacity

namespace SharedQueue

variable {queue after : SharedQueue α} {item : α} {wakes : List Wake}

theorem items_of_push (queue : SharedQueue α) (item : α) :
    (queue.push item).1.items = queue.items ++ [item] :=
  List.insertIdx_length_self

end SharedQueue

namespace Recorded

variable {queue after : SharedQueue α} {item : α} {answer : Option (Result α)} {wakes : List Wake}

/-- What only notes something or asks something enters nothing. -/
theorem untouched (same : after.container = queue.container)
    (capacity : after.capacity = queue.capacity)
    (first : ∀ item, answer = some (.item item) → item = queue.items.head?) :
    Recorded queue after answer {} := by
  refine ⟨?_, first, fun _ => same, capacity⟩
  show Posts queue.container.items after.container.items {}
  rw [same]
  exact .unchanged _

/-- What an operation answers may be told in another form. -/
theorem of_map {β : Type} {effect : SharedQueue.Effect α β} {tell : β → Result α}
    {result : Result α} (entry : Option (Result α) → Entry α)
    (recorded : Recorded queue effect.2.1 (some (tell effect.1)) (entry (some (tell effect.1))))
    (told : some (effect.map tell id) = some (result, after, wakes)) :
    Recorded queue after (some result) (entry (some result)) := by
  have same : effect.map tell id = (result, after, wakes) := Option.some.inj told
  obtain rfl : tell effect.1 = result := congrArg Prod.fst same
  obtain rfl : effect.2.1 = after := congrArg (fun effect => effect.2.1) same
  exact recorded

theorem of_push (item : α) (told : answer = some (.flag true) ∨ answer = some .done) :
    Recorded queue (queue.push item).1 answer (.ofInsertion item answer) := by
  have posts : Posts queue.items (queue.push item).1.items { accepted := [item] } :=
    .accepted item (queue.items_of_push item)
  rcases told with rfl | rfl <;> exact ⟨posts, nofun, nofun, rfl⟩

theorem of_put? (put : queue.put? item = some (after, wakes))
    (told : answer = some (.flag true) ∨ answer = some .done) :
    Recorded queue after answer (.ofInsertion item answer) := by
  unfold SharedQueue.put? at put
  split at put
  next => cases put
  next =>
    obtain rfl := congrArg Prod.fst (Option.some.inj put)
    exact of_push item told

theorem of_pop? (popped : queue.pop? = some (item, after, wakes)) :
    Recorded queue after (some (.item (some item))) (.ofTaking (some (.item (some item)))) := by
  have items := SharedQueue.items_of_pop? popped
  refine ⟨.given [item] items, ?_, nofun, ?_⟩
  · intro told same
    cases same
    rw [items]
    rfl
  · unfold SharedQueue.pop? at popped
    split at popped
    next => cases popped
    next =>
      cases popped
      rfl

theorem of_pop?_eq_none (empty : queue.pop? = none) (same : after.container = queue.container)
    (capacity : after.capacity = queue.capacity) :
    Recorded queue after (some (.item none)) (.ofTaking (some (.item none))) := by
  refine untouched same capacity ?_
  intro told same
  cases same
  rw [SharedQueue.items_of_pop?_eq_none empty]
  rfl

theorem offer (queue : SharedQueue α) (item : α) :
    let answer := some (Result.flag (queue.offer item).1)
    Recorded queue (queue.offer item).2.1 answer (.ofInsertion item answer) := by
  unfold SharedQueue.offer
  split
  next => exact untouched rfl rfl nofun
  next => exact of_push item (.inl rfl)

theorem offerInTime (queue : SharedQueue α) (item : α) :
    let answer := some (Result.flag (queue.offerInTime item).1)
    Recorded queue (queue.offerInTime item).2.1 answer (.ofInsertion item answer) := by
  unfold SharedQueue.offerInTime
  split
  next => exact untouched rfl rfl nofun
  next => exact of_push item (.inl rfl)

theorem poll (queue : SharedQueue α) :
    let answer := some (Result.item queue.poll.1)
    Recorded queue queue.poll.2.1 answer (.ofTaking answer) := by
  unfold SharedQueue.poll
  split
  next popped => exact of_pop? popped
  next empty => exact of_pop?_eq_none empty rfl rfl

theorem pollInTime (queue : SharedQueue α) :
    let answer := some (Result.item queue.pollInTime.1)
    Recorded queue queue.pollInTime.2.1 answer (.ofTaking answer) := by
  unfold SharedQueue.pollInTime
  split
  next popped => exact of_pop? popped
  next empty => exact of_pop?_eq_none empty rfl rfl

theorem drainTo (queue : SharedQueue α) (limit : Nat) (target : List α) :
    Recorded queue (queue.drainTo limit target).2.1
      (some (.drained (queue.drainTo limit target).1.1 (queue.drainTo limit target).1.2))
      { given := (queue.drainTo limit target).1.2.drop target.length } := by
  obtain ⟨after, drained, left, capacity⟩ := queue.drainTo_eq limit target
  rw [drained]
  refine ⟨?_, nofun, nofun, capacity⟩
  show Posts queue.items after.items { given := (target ++ queue.items.take limit).drop target.length }
  rw [List.drop_left, left]
  exact .given _ (List.take_append_drop _ _).symm

theorem remove [BEq α] (queue : SharedQueue α) (item : α) :
    let answer := some (Result.flag (queue.remove item).1)
    Recorded queue (queue.remove item).2.1 answer
      ((Operation.remove item).entry queue.items answer) := by
  unfold SharedQueue.remove
  split
  next index found =>
    have searched : queue.items.findIdx? (· == item) = some index := found
    have there : queue.items.find? (· == item) = queue.items[index]? := by
      rw [List.find?_eq_bind_findIdx?_getElem?, searched]
      rfl
    obtain ⟨inRange, -⟩ := List.findIdx?_eq_some_iff_findIdx_eq.mp searched
    have present : queue.items[index]? = some queue.items[index] := List.getElem?_eq_getElem inRange
    refine ⟨?_, nofun, nofun, rfl⟩
    show Posts queue.items (queue.items.eraseIdx index)
      { deleted := (queue.items.find? (· == item)).toList }
    rw [there, present]
    exact .deleted _ (.eraseIdx present)
  next => exact untouched rfl rfl nofun

theorem clear (queue : SharedQueue α) :
    Recorded queue queue.clear.1 (some .done) { deleted := queue.items } :=
  ⟨.deleted _ (.all _), nofun, nofun, rfl⟩

theorem iterate (queue : SharedQueue α) (script : List Cue) :
    Recorded queue (queue.iterate script).2.1 (some (.replies (queue.iterate script).1))
      { deleted := Walk.removedFrom none (queue.iterate script).1 } := by
  have holds : (Walk.start queue.container 0).Holds none := Walk.holds_start queue.container 0
  have thinned := holds.thinned_play script
  unfold SharedQueue.iterate
  dsimp only
  split <;> exact ⟨.deleted _ thinned, nofun, nofun, rfl⟩

end Recorded

/-- **Every operation that is carried out is recorded as its caller is told.** -/
theorem SharedQueue.recorded_perform? [BEq α] {queue after : SharedQueue α}
    {operation : Operation α} {result : Result α} {wakes : List Wake}
    (performed : queue.perform? operation = some (result, after, wakes)) :
    Recorded queue after (some result) (operation.entry queue.items (some result)) := by
  cases operation with
  | offer item => exact .of_map _ (.offer queue item) performed
  | offerInTime item => exact .of_map _ (.offerInTime queue item) performed
  | put item =>
      obtain ⟨⟨_, _⟩, put, same⟩ := Option.map_eq_some_iff.mp performed
      cases same
      exact .of_put? put (.inr rfl)
  | poll => exact .of_map _ (.poll queue) performed
  | pollInTime => exact .of_map _ (.pollInTime queue) performed
  | take =>
      obtain ⟨⟨_, _, _⟩, popped, same⟩ := Option.map_eq_some_iff.mp performed
      cases same
      exact .of_pop? popped
  | remove item => exact .of_map _ (.remove queue item) performed
  | drainTo limit target =>
      exact .of_map ((Operation.drainTo limit target).entry queue.items) (.drainTo queue limit target)
        performed
  | clear => cases performed; exact .clear queue
  | iterate script =>
      exact .of_map ((Operation.iterate script).entry queue.items) (.iterate queue script) performed
  | peek =>
      cases performed
      refine .untouched rfl rfl ?_
      intro item told
      cases told
      rfl
  | contains item => cases performed; exact .untouched rfl rfl nofun
  | size => cases performed; exact .untouched rfl rfl nofun
  | empty => cases performed; exact .untouched rfl rfl nofun
  | capacity => cases performed; exact .untouched rfl rfl nofun
  | remainingCapacity => cases performed; exact .untouched rfl rfl nofun
  | forEach => cases performed; exact .untouched rfl rfl nofun

/-! ## Events -/

namespace World

variable {preferred : Nat} {world : World α}

@[simp]
theorem queue_rouse (preferred : Nat) (world : World α) (wakes : List Wake) :
    (world.rouse preferred wakes).queue = world.queue := by
  induction wakes generalizing world with
  | nil => rfl
  | cons wake rest hypothesis =>
      refine (hypothesis (world.rouseOne preferred wake)).trans ?_
      cases wake <;> rfl

/-- What happened to the queue of a world fits together with what a caller is told and with what
is entered for it. -/
def Tells (world : World α) (told : Option (Result α) × World α)
    (entry : Option (Result α) → Entry α) : Prop :=
  Recorded world.queue told.2.queue told.1 (entry told.1)

/-- To wake callers makes no difference to the queue. -/
theorem Tells.rouse {after : World α} {answer : Option (Result α)}
    {entry : Option (Result α) → Entry α} {wakes : List Wake}
    (recorded : Recorded world.queue after.queue answer (entry answer)) :
    world.Tells (answer, after.rouse preferred wakes) entry := by
  show Recorded world.queue (after.rouse preferred wakes).queue answer (entry answer)
  rw [queue_rouse]
  exact recorded

/-- A caller that has to wait leaves the elements as they are. -/
theorem tells_none {after : World α} {entry : Option (Result α) → Entry α}
    (same : after.queue.container = world.queue.container)
    (capacity : after.queue.capacity = world.queue.capacity) (nothing : entry none = {}) :
    world.Tells (none, after) entry := by
  show Recorded world.queue after.queue none (entry none)
  rw [nothing]
  exact .untouched same capacity nofun

theorem tells_put (item : α) : world.Tells (world.put preferred item) (.ofInsertion item) := by
  unfold put
  split
  next put => exact .rouse (.of_put? put (.inr rfl))
  next => exact tells_none rfl rfl rfl

theorem tells_offerInTime (item : α) :
    world.Tells (world.offerInTime preferred item) (.ofInsertion item) := by
  unfold offerInTime
  split
  next put => exact .rouse (.of_put? put (.inl rfl))
  next => exact tells_none rfl rfl rfl

theorem tells_take : world.Tells (world.take preferred) .ofTaking := by
  unfold take
  split
  next popped => exact .rouse (.of_pop? popped)
  next => exact tells_none rfl rfl rfl

theorem tells_pollInTime : world.Tells (world.pollInTime preferred) .ofTaking := by
  unfold pollInTime
  split
  next popped => exact .rouse (.of_pop? popped)
  next => exact tells_none rfl rfl rfl

theorem tells_carryOut [BEq α] (operation : Operation α) :
    world.Tells (world.carryOut preferred operation) (operation.entry world.queue.items) := by
  unfold carryOut
  split
  next performed => exact .rouse (SharedQueue.recorded_perform? performed)
  next => exact tells_none rfl rfl (by cases operation <;> rfl)

theorem tells_ask [BEq α] (operation : Operation α) :
    world.Tells (world.ask preferred operation) (operation.entry world.queue.items) := by
  cases operation with
  | put item => exact tells_put item
  | offerInTime item => exact tells_offerInTime item
  | take => exact tells_take
  | pollInTime => exact tells_pollInTime
  | _ => exact tells_carryOut _

/-- A caller that is about to look waits at its position. -/
theorem getElem?_of_runnable? {ρ : Type} {waiters : List (Waiter ρ)} {position : Nat}
    {waiter : Waiter ρ} (found : Waiter.runnable? waiters position = some waiter) :
    waiters[position]? = some waiter :=
  (Option.filter_eq_some_iff.mp found).1

theorem getElem?_of_due? {ρ : Type} {waiters : List (Waiter ρ)} {position : Nat}
    {waiter : Waiter ρ} (found : Waiter.due? waiters position = some waiter) :
    waiters[position]? = some waiter :=
  getElem?_of_runnable? (Option.filter_eq_some_iff.mp found).1

theorem tells_resumeTaker (position : Nat) :
    world.Tells (world.resumeTaker preferred position) .ofTaking := by
  unfold resumeTaker
  split
  next => exact tells_none rfl rfl rfl
  next =>
    split
    next popped => exact .rouse (.of_pop? popped)
    next => exact tells_none rfl rfl rfl

theorem tells_expireTaker (position : Nat) :
    world.Tells (world.expireTaker preferred position) .ofTaking := by
  unfold expireTaker
  split
  next => exact tells_none rfl rfl rfl
  next => exact .rouse (.pollInTime world.queue)

section Entries

variable [BEq α] {position : Nat}

/-- The inserter at a position brought its element. -/
theorem entry_of_inserter {inserter : Waiter α} {event : Event α}
    (waits : world.inserters[position]? = some inserter)
    (comes : event = .resumeInserter position ∨ event = .expireInserter position) :
    event.entry world = Entry.ofInsertion inserter.request := by
  funext answer
  rcases comes with rfl | rfl <;> simp only [Event.entry, waits]

theorem entry_none (event : Event α) : event.entry world none = {} := by
  cases event with
  | ask operation => cases operation <;> rfl
  | resumeInserter position | expireInserter position =>
      simp only [Event.entry]
      cases world.inserters[position]? <;> rfl
  | _ => rfl

theorem tells_resumeInserter (position : Nat) :
    world.Tells (world.resumeInserter preferred position)
      ((Event.resumeInserter position).entry world) := by
  unfold resumeInserter
  split
  next => exact tells_none rfl rfl (entry_none _)
  next inserter found =>
    rw [entry_of_inserter (getElem?_of_runnable? found) (.inl rfl)]
    split
    next put =>
      refine .rouse (.of_put? put ?_)
      cases inserter.timed
      · exact .inr rfl
      · exact .inl rfl
    next => exact tells_none rfl rfl rfl

theorem tells_expireInserter (position : Nat) :
    world.Tells (world.expireInserter preferred position)
      ((Event.expireInserter position).entry world) := by
  unfold expireInserter
  split
  next => exact tells_none rfl rfl (entry_none _)
  next inserter found =>
    rw [entry_of_inserter (getElem?_of_due? found) (.inr rfl)]
    exact .rouse (.offerInTime world.queue inserter.request)

/-- **Every event is recorded as its caller is told.** -/
theorem tells_happen (preferred : Nat) (event : Event α) :
    world.Tells (world.happen preferred event) (event.entry world) := by
  cases event with
  | ask operation => exact tells_ask operation
  | stirInserter position => exact tells_none rfl rfl rfl
  | stirTaker position => exact tells_none rfl rfl rfl
  | resumeInserter position => exact tells_resumeInserter position
  | resumeTaker position => exact tells_resumeTaker position
  | expireInserter position => exact tells_expireInserter position
  | expireTaker position => exact tells_expireTaker position

end Entries

/-! ## Giving out -/

section GivingOut

variable [BEq α]

theorem ask_drainTo (preferred : Nat) (world : World α) (limit : Nat) (target : List α) :
    let drained := world.ask preferred (.drainTo limit target)
    let count := min limit world.queue.items.length
    drained.1 = some (.drained count (target ++ world.queue.items.take count)) ∧
      drained.2.queue.items = world.queue.items.drop count := by
  obtain ⟨after, effect, left, -⟩ := world.queue.drainTo_eq limit target
  intro drained count
  have performed : world.queue.perform? (.drainTo limit target) =
      some (.drained count (target ++ world.queue.items.take limit), after,
        if count = 0 then [] else [.allInserters]) := by
    rw [SharedQueue.perform?, effect]
    rfl
  have asked : drained = (some (.drained count (target ++ world.queue.items.take limit)),
      rouse preferred { world with queue := after } (if count = 0 then [] else [.allInserters])) := by
    show world.carryOut preferred (.drainTo limit target) = _
    rw [carryOut, performed]
  rw [asked, queue_rouse, List.take_eq_take_min, List.drop_eq_drop_min.symm]
  exact ⟨rfl, left⟩

theorem happen_poll (preferred : Nat) {world : World α} {item : α} {rest : List α}
    (items : world.queue.items = item :: rest) :
    (world.happen preferred (.ask .poll)).1 = some (.item (some item)) ∧
      (world.happen preferred (.ask .poll)).2.queue.items = rest := by
  have recorded := world.tells_happen preferred (.ask .poll)
  have told : (world.happen preferred (.ask .poll)).1 = some (.item (some item)) := by
    have front := recorded.first world.queue.poll.1 rfl
    rw [items, List.head?_cons] at front
    rw [← front]
    rfl
  refine ⟨told, ?_⟩
  have posts := recorded.posts
  rw [told, items] at posts
  cases posts with
  | given _ left => exact (List.cons.inj left).2.symm

/-- As many polls as there are elements in front give out these. -/
theorem serve_polls (preferred : Nat) {world : World α} {front rest : List α}
    (items : world.queue.items = front ++ rest) :
    let polled := serve (happen preferred) world (List.replicate front.length (.ask .poll))
    polled.1 = front.map (fun item => some (.item (some item))) ∧
      polled.2.queue.items = rest := by
  induction front generalizing world with
  | nil => exact ⟨rfl, items⟩
  | cons item front hypothesis =>
      obtain ⟨told, left⟩ := happen_poll preferred items
      obtain ⟨answers, last⟩ := hypothesis left
      refine ⟨?_, last⟩
      simp only [List.length_cons, List.replicate_succ, serve, List.map_cons, told, answers]

end GivingOut

/-- Every run keeps the books balanced. -/
theorem conserved_recordAll [BEq α] (world : World α) (events : List (Nat × Event α)) :
    let run := world.recordAll events
    Conserved world.queue.items run.2.queue.items (.total run.1) := by
  induction events generalizing world with
  | nil => exact .refl _
  | cons event rest hypothesis =>
      have first := (world.tells_happen event.1 event.2).posts
      exact (Conserved.of_posts first).cons (hypothesis (world.happen event.1 event.2).2)

end World

/-- **A queue neither loses nor duplicates nor reorders elements.** Whatever happens on a queue, in
whatever order callers come, wait, are woken and leave, its books balance. What is left of the initial
elements and the accepted ones is in their order, even behind what was given out; each of them is
left, given out or deleted once; and if nothing was deleted they are what was given out followed by
what is left. Whatever happens next gives out elements from the front only, and what fails or has
to wait changes nothing. To drain a number of elements is to poll as often, as long as there
are any. -/
theorem queue_conserves_elements [BEq α] (queue : SharedQueue α)
    (events : List (Nat × Event α)) :
    let run := World.recordAll { queue } events
    let books := Entry.total run.1
    let world := run.2
    let contents := world.queue.items
    contents <+ queue.items ++ books.accepted ∧
      books.given ++ contents <+ queue.items ++ books.accepted ∧
      queue.items ++ books.accepted ~ books.given ++ contents ++ books.deleted ∧
      (books.deleted = [] → queue.items ++ books.accepted = books.given ++ contents) ∧
      (∀ preferred event,
        let told := world.happen preferred event
        let entry := event.entry world told.1
        (entry.given = [] ∨ contents = entry.given ++ told.2.queue.items) ∧
          (∀ item, told.1 = some (.item item) → item = contents.head?) ∧
          (emptyHanded told.1 = true → told.2.queue.container = world.queue.container) ∧
          told.2.queue.capacity = world.queue.capacity) ∧
      ∀ preferred limit target,
        let drained := world.ask preferred (.drainTo limit target)
        let count := min limit contents.length
        let polled := serve (World.happen preferred) world (List.replicate count (.ask .poll))
        drained.1 = some (.drained count (target ++ contents.take count)) ∧
          polled.1 = (contents.take count).map (fun item => some (.item (some item))) ∧
          polled.2.queue.items = drained.2.queue.items := by
  intro run books world contents
  have conserved : Conserved queue.items contents books := World.conserved_recordAll { queue } events
  refine ⟨(List.sublist_append_right _ _).trans conserved.order, conserved.order, conserved.whole,
    conserved.eq_of_deleted_eq_nil, ?_, ?_⟩
  · intro preferred event told entry
    have recorded := world.tells_happen preferred event
    exact ⟨recorded.posts.front, recorded.first, recorded.idle, recorded.capacity⟩
  · intro preferred limit target drained count polled
    obtain ⟨answer, left⟩ := world.ask_drainTo preferred limit target
    have items : contents = contents.take count ++ contents.drop count :=
      (List.take_append_drop count contents).symm
    have polls := World.serve_polls preferred items
    rw [List.length_take, Nat.min_eq_left (Nat.min_le_right _ _)] at polls
    exact ⟨answer, polls.1, polls.2.trans left.symm⟩

/-- An inserter waits until an element is taken. Then elements leave by value, by cursor and from the
front, and an offer fails on the way. -/
def everyWayOut : List (Nat × Event Nat) :=
  [(0, .ask (.put 4)), (0, .ask (.offer 9)), (0, .ask .poll), (0, .resumeInserter 0),
    (0, .ask (.remove 3)),
    (0, .ask (.iterate [.act .next .told, .act .next .told, .act .remove .told, .stop])),
    (0, .ask (.offer 5)), (0, .ask .take)]

/-- The books of a full queue of three after `everyWayOut`. -/
theorem queue_conserves_elements_on_everyWayOut :
    let queue : SharedQueue Nat :=
      { container := { items := [1, 2, 3] }, capacity := 3, capacity_pos := by decide }
    let run := World.recordAll { queue } everyWayOut
    let books := Entry.total run.1
    let contents := run.2.queue.items
    books.accepted = [4, 5] ∧ books.given = [1, 2] ∧ books.deleted = [3, 4] ∧ contents = [5] ∧
      contents <+ queue.items ++ books.accepted ∧
      queue.items ++ books.accepted ~ books.given ++ contents ++ books.deleted := by
  intro queue run books contents
  obtain ⟨order, -, whole, -⟩ := queue_conserves_elements queue everyWayOut
  exact ⟨by decide, by decide, by decide, by decide, order, whole⟩

end Collections.Shared
