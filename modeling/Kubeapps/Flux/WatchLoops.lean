/-
  The loops of the flux plugin that read a watch, up to and after the closing of its channel
  (cache.go: processEvents; conditions.go: waitUntilChartPullComplete).

  Kubernetes closes the channel of a watch that expires, and a receive gives `zeroEvent` from then
  on. `waitUntilChartPullComplete` takes it for an unexpected event and returns an error.
  `processEvents` passes it over, as an event that "seems to happen quite often", so it receives
  for ever and nobody starts another watch (`stops_never`).
-/
import Kubeapps.Flux.HelmChart
import Kubeapps.Lib.Receive

namespace Kubeapps.Flux

open Kubeapps.Lib

variable {β : Type}

/-- The zero value of `watch.Event`. -/
def zeroEvent : Event := ⟨.other "", none⟩

/-- One turn of `waitUntilChartPullComplete`. -/
def waitTurn (env : Env β) (_ : Unit) (event : Event) : Unit ⊕ Except String String :=
  if event.type = .modified then
    match event.object with
    | none => .inr (.error "Could not cast to unstructured.Unstructured")
    | some unstructuredChart =>
        match isChartPullComplete env unstructuredChart with
        | .error err => .inr (.error err)
        | .ok true => .inr (chartURL env unstructuredChart)
        | .ok false => .inl ()
  else .inr (.error ("got unexpected event: " ++ printEvent env event))

/-- One turn of `processEvents`, with the handlers it has started. There is no way out. -/
def processTurn (started : List (Handler β)) (event : Event) :
    List (Handler β) ⊕ List (Handler β) :=
  if event.type = .other "" then .inl started
  else .inl (started ++ (spawn event).toList)

/-- What is wanted of a watch with these events that is closed then: both loops return, and
    `processEvents` has started one handler for each event that has one. -/
structure Stops (env : Env β) (sent : List Event) : Prop where
  wait : ∃ n result, waitUntilChartPullComplete env (receives zeroEvent sent n) = some result
  process : ∃ n, loop processTurn ([] : List (Handler β)) (receives zeroEvent sent n) =
    .inr (sent.filterMap spawn)

/-! ## The wait -/

theorem waitUntilChartPullComplete_eq_loop (env : Env β) (events : List Event) :
    waitUntilChartPullComplete env events = (loop (waitTurn env) () events).getRight? := by
  induction events with
  | nil => rfl
  | cons event rest ih =>
      unfold waitUntilChartPullComplete loop waitTurn
      by_cases htype : event.type = .modified
      · rw [if_pos htype, if_pos htype]
        cases event.object with
        | none => rfl
        | some chart =>
            dsimp only
            cases isChartPullComplete env chart with
            | error err => rfl
            | ok done =>
                cases done with
                | false => exact ih
                | true => rfl
      · rw [if_neg htype, if_neg htype]
        rfl

/-- One receive after the close at the latest. -/
theorem wait_returns (env : Env β) (sent : List Event) :
    ∃ result, waitUntilChartPullComplete env (receives zeroEvent sent (sent.length + 1)) =
      some result := by
  have hzero : ∀ s, ∃ r, waitTurn env s zeroEvent = .inr r :=
    fun _ => ⟨.error ("got unexpected event: " ++ printEvent env zeroEvent), rfl⟩
  obtain ⟨result, hloop⟩ := loop_returns_of_zero hzero () sent
  refine ⟨result, ?_⟩
  rw [waitUntilChartPullComplete_eq_loop, hloop]
  rfl

/-! ## The handlers -/

theorem processTurn_eq (started : List (Handler β)) (event : Event) :
    processTurn started event = .inl (started ++ (spawn event).toList) := by
  unfold processTurn
  by_cases hzero : event.type = .other ""
  · have hspawn : (spawn event : Option (Handler β)) = none := by
      unfold spawn
      rw [hzero]
    rw [if_pos hzero, hspawn, Option.toList_none, List.append_nil]
  · rw [if_neg hzero]

theorem foldl_spawn (started : List (Handler β)) (events : List Event) :
    events.foldl (fun started event => started ++ (spawn event).toList) started =
      started ++ events.filterMap spawn := by
  induction events generalizing started with
  | nil => rw [List.foldl_nil, List.filterMap_nil, List.append_nil]
  | cons event rest ih =>
      rw [List.foldl_cons, ih, List.append_assoc, List.filterMap_cons]
      cases (spawn event : Option (Handler β)) with
      | none => rfl
      | some h => rfl

/-- After any number of receives `processEvents` reads on, and has started one handler for each
    event sent so far that has one. -/
theorem processEvents_reads (sent : List Event) (n : Nat) :
    loop processTurn ([] : List (Handler β)) (receives zeroEvent sent n) =
      .inl ((sent.take n).filterMap spawn) := by
  have hzeros : (List.replicate (n - sent.length) zeroEvent).filterMap
      (spawn : Event → Option (Handler β)) = [] := by
    apply List.filterMap_eq_nil_iff.mpr
    intro event hevent
    rw [(List.mem_replicate.mp hevent).2]
    rfl
  rw [loop_of_inl processTurn_eq, foldl_spawn, List.nil_append]
  unfold receives
  rw [List.filterMap_append, hzeros, List.append_nil]

/-- An Added, Modified or Deleted event of an object has a handler, no other event has. -/
theorem spawn_isSome_iff (event : Event) : (spawn event : Option (Handler β)).isSome = true ↔
    (event.type = .added ∨ event.type = .modified ∨ event.type = .deleted) ∧
      event.object ≠ none := by
  obtain ⟨type, object⟩ := event
  cases type <;> cases object <;> simp [spawn]

/-- `processEvents` never stops: the wait for a chart returns one receive after the close at the
    latest, but `processEvents` still reads after any number of receives, with one handler started
    for each event that has one. -/
theorem stops_never (env : Env β) (sent : List Event) :
    ¬ Stops env sent ∧
      (∃ result, waitUntilChartPullComplete env (receives zeroEvent sent (sent.length + 1)) =
        some result) ∧
      ∀ n, loop processTurn ([] : List (Handler β)) (receives zeroEvent sent n) =
        .inl ((sent.take n).filterMap spawn) := by
  refine ⟨?_, wait_returns env sent, processEvents_reads sent⟩
  intro hstops
  obtain ⟨n, hreturned⟩ := hstops.process
  rw [processEvents_reads] at hreturned
  cases hreturned

/-- A repository is added and deleted, then the watch expires. -/
theorem not_stops_expired : ¬ Stops emptyIndexEnv addThenDelete := by
  intro hstops
  obtain ⟨n, hreturned⟩ := hstops.process
  rw [processEvents_reads] at hreturned
  cases hreturned

end Kubeapps.Flux
