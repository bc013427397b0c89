import Collections.Proofs.Shared.Map
import Collections.Proofs.Weak.RefMap.Bidding

/-!
# Callers that race for a key

A key that is absent is left to callers that put their own value if it is absent, to callers that
ask for it, and to whatever does not touch it. A call is carried out while no other is, so any number
of callers that race make one sequence of calls. However they come, one of the bids wins, and what the
others are told is the winner's value (`putIfAbsent_has_one_winner`). Shared maps and reference maps
with strong or soft references agree in this, since a step of either shows the value of the key as it
is and changes it only by a bid for a key without one (`SharedMap.honest_watch`,
`Usage.honest_watch`).
-/

set_option autoImplicit false

namespace Collections

open Shared (SharedMap)
open Weak (Keying Object RefMap RefMapOptions RefType Usage Occurrence)

/-- **Of the callers that put a value for an absent key exactly one finds it absent.** Let a shared map,
ordered or not, be without a key, and let calls come in any order that leave the key alone, ask for it
or bid for it, while other keys are put, replaced, erased and walked over at will. Then everybody who
asks or bids is answered, the first bid is told of no value, every later bid and every later question
is told of its value, and the map has that value in the end. So it is for a reference map of any number
of segments, if it refers to keys and values strongly or softly, after anything that has happened to
it, and while objects are let go and segments are swept between the calls. -/
theorem putIfAbsent_has_one_winner :
    (∀ {κ ν : Type} [BEq κ] [EquivBEq κ] [Ord κ] [BEq ν] (map : SharedMap κ ν) (key : κ)
      (accesses : List (SharedMap.Access κ ν)), map.get? key = none →
      Admits (SharedMap.watch key) (SharedMap.Access.Spares key) map accesses →
        let run := serve (SharedMap.watch key) map accesses
        run.1.reduceOption.map Sight.wanted = accesses.filterMap (SharedMap.Access.asks key) ∧
          OneWinner run.1.reduceOption (run.2.get? key)) ∧
    ∀ {κ ν : Type} [DecidableEq κ] [DecidableEq ν] (keying : Keying κ) (sameValue : ν → ν → Bool)
      (options : RefMapOptions) (keyKind valueKind : RefType),
      options.keyKind = some keyKind → options.valueKind = some valueKind →
      keyKind.isWeak = false → valueKind.isWeak = false →
      0 < options.segmentCount → options.segmentCount.toNat ≤ 2 ^ 63 →
        ∃ map, RefMap.make? keying sameValue options = some (.ok map) ∧
          ∀ (before occurrences : List (Occurrence κ ν)) (key : κ),
            let reached := (serve Usage.occur { map } before).2
            reached.value? key = none →
            (∀ occurrence ∈ occurrences, occurrence.Spares keying.same key) →
              let run := serve (Usage.watch keying key) reached occurrences
              run.1.reduceOption.map Sight.wanted =
                  occurrences.filterMap (Occurrence.asks keying.same key) ∧
                OneWinner run.1.reduceOption (run.2.value? key) := by
  constructor
  · intro κ ν _ _ _ _ map key accesses absent spared
    refine ⟨wanted_serve (SharedMap.wanted_watch key) map accesses, ?_⟩
    exact (SharedMap.honest_watch key).oneWinner trivial absent spared
  · intro κ ν _ _ keying sameValue options keyKind valueKind keys values lastingKeys lastingValues
      positive bounded
    obtain ⟨map, made, unused, rfl, rfl, rfl, rfl⟩ :=
      RefMap.exists_make? keying sameValue keys values positive bounded
    refine ⟨map, made, fun before occurrences key => ?_⟩
    intro reached absent spares
    have start : Usage.Backed map.keying { map } :=
      ⟨_, Weak.Mirrors.start map unused, ⟨rfl, lastingKeys, lastingValues⟩⟩
    have backed : reached.Backed map.keying :=
      serve_keeps (fun occurrence backed => backed.occur occurrence) start before
    refine ⟨wanted_serve (Usage.wanted_watch map.keying key) reached occurrences, ?_⟩
    exact (Usage.honest_watch map.keying key).oneWinner backed absent (admits_of_forall spares)

/-- Two callers bid for `5` and others ask for it, while another key is mapped and walked over. -/
def contestedAccesses : List (SharedMap.Access Nat Nat) :=
  [.call (.get 5), .call (.put 1 10), .call (.putIfAbsent 5 7), .call (.putIfAbsent 1 3),
    .iterate [.act .next .told, .act .remove .told], .call (.putIfAbsent 5 8), .call (.get 5)]

/-- Two callers bid for one key with objects of their own, while segments are swept and whoever held
an object lets it go. -/
def contestedOccurrences (first second value other : Object) : List (Occurrence Object Object) :=
  [.event (.call (.get first)), .sweep [0],
    .event (.call (.putIfAbsent (some first) (some value))),
    .event (.hold ⟨fun _ => false, fun _ => false⟩), .sweep [1, 2],
    .event (.call (.putIfAbsent (some second) (some other))), .event (.call (.get second))]

/-- The second bid and the last question are told of the first bid. -/
theorem putIfAbsent_has_one_winner_for_contested :
    let first : Object := ⟨1, [], 7⟩
    let second : Object := ⟨2, [], 7⟩
    let value : Object := ⟨3, [], 0⟩
    let other : Object := ⟨4, [], 9⟩
    let sameValue (left right : Object) : Bool := left.value == right.value
    let run := serve (SharedMap.watch 5) (.wrap .ascending [(3, 4)]) contestedAccesses
    (run.1.reduceOption = [.look none, .bid 7 none, .bid 8 (some 7), .look (some 7)] ∧
      OneWinner run.1.reduceOption (run.2.get? 5)) ∧
    ∃ map, RefMap.make? Keying.plain sameValue { segmentCount := 3, valueKind := some .soft } =
        some (.ok map) ∧
      let reached := (serve Usage.occur { map } [.event (.call (.put (some other) (some other)))]).2
      let run := serve (Usage.watch Keying.plain first) reached
        (contestedOccurrences first second value other)
      run.1.reduceOption =
          [.look none, .bid value none, .bid other (some value), .look (some value)] ∧
        OneWinner run.1.reduceOption (run.2.value? first) := by
  intro first second value other sameValue run
  obtain ⟨shared, reference⟩ := putIfAbsent_has_one_winner
  refine ⟨⟨by decide, ?_⟩, ?_⟩
  · have admitted : Admits (SharedMap.watch 5) (SharedMap.Access.Spares 5)
        (SharedMap.wrap .ascending [(3, 4)]) contestedAccesses := by
      refine ⟨trivial, rfl, trivial, trivial, ?_, trivial, trivial, trivial⟩
      show ∀ entry ∈ [(1, 10)], (5 == Prod.fst entry) = false
      decide
    exact (shared _ 5 contestedAccesses rfl admitted).2
  · obtain ⟨map, made, runs⟩ := reference Keying.plain sameValue
      { segmentCount := 3, valueKind := some .soft } .strong .soft rfl rfl rfl rfl
      (by decide) (by decide)
    have spares : ∀ occurrence ∈ contestedOccurrences first second value other,
        occurrence.Spares Keying.plain.same first := by
      simp [contestedOccurrences, Occurrence.Spares, Weak.Call.Spares]
    refine ⟨map, made, ?_, (runs [_] _ first ?_ spares).2⟩
    · obtain rfl := Except.ok.inj (Option.some.inj made)
      decide
    · obtain rfl := Except.ok.inj (Option.some.inj made)
      decide

end Collections
