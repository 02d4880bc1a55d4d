import Xdb.Persistence.Common

/-!
# Materialised Command Results

`PrepareStateExecution` hands the worker the results of the commands its last wait-until
call asked for. `prepareWaitUntilCommandResults` builds them by walking the stored command
request: one timer result per timer command and one local-queue result per local-queue
command, in command order, each read from the entry of the stored results JSON at the
command's own index. A timer entry says whether the timer fired (`Completed`) or was
skipped (`Skipped`); a local-queue entry carries the messages the command consumed
(`Completed`). A command with no entry is still `Waiting`.

The results JSON is an object keyed by index; `lookup` reads it. Since the loops only look
up the indices of the command lists, entries at any other index are never read.

## Theorems

* `timerResults_getElem?`: The timer result at an index reads the entry at that index.
* `localQueueResults_getElem?`: So does the local-queue result, with the command's queue.
* `prepareWaitUntilCommandResults_congr`: Entries outside the command lists have no effect.
* `command_results_zip_stored_results`: The whole zip, case by case.
-/

namespace Xdb

section

variable (results : CommandResultsJson) (request : CommandRequest)

@[simp] theorem prepareWaitUntilCommandResults_timerResults_length :
    (prepareWaitUntilCommandResults results request).timerResults.length =
      request.timerCommands.length := by
  simp [prepareWaitUntilCommandResults]

@[simp] theorem prepareWaitUntilCommandResults_localQueueResults_length :
    (prepareWaitUntilCommandResults results request).localQueueResults.length =
      request.localQueueCommands.length := by
  simp [prepareWaitUntilCommandResults, List.enum_length]

/-- The timer result at the index of a timer command reads the entry at that index. -/
theorem timerResults_getElem? {i : Nat} (hi : i < request.timerCommands.length) :
    (prepareWaitUntilCommandResults results request).timerResults[i]? =
      some (match results.timerResults.lookup i with
        | some true => .completedCommand
        | some false => .skippedCommand
        | none => .waitingCommand) := by
  simp only [prepareWaitUntilCommandResults, List.getElem?_map, List.getElem?_range hi]
  rfl

/-- The local-queue result at an index carries the command's queue name and reads the
    entry at that index. -/
theorem localQueueResults_getElem? (i : Nat) :
    (prepareWaitUntilCommandResults results request).localQueueResults[i]? =
      request.localQueueCommands[i]?.map fun c =>
        match results.localQueueResults.lookup i with
        | some ms => ⟨.completedCommand, c.queueName, ms⟩
        | none => ⟨.waitingCommand, c.queueName, []⟩ := by
  simp only [prepareWaitUntilCommandResults, List.getElem?_map, List.getElem?_enum,
    Option.map_map]
  rfl

/-- Two results objects that agree at the indices of the command lists give the same
    command results. -/
theorem prepareWaitUntilCommandResults_congr {results' : CommandResultsJson}
    (ht : ∀ i < request.timerCommands.length,
      results'.timerResults.lookup i = results.timerResults.lookup i)
    (hl : ∀ i < request.localQueueCommands.length,
      results'.localQueueResults.lookup i = results.localQueueResults.lookup i) :
    prepareWaitUntilCommandResults results' request =
      prepareWaitUntilCommandResults results request := by
  simp only [prepareWaitUntilCommandResults, CommandResults.mk.injEq]
  constructor
  · exact List.map_congr_left fun i hi => by rw [ht i (List.mem_range.1 hi)]
  · exact List.map_congr_left fun p hp => by rw [hl p.1 (List.fst_lt_of_mem_enum hp)]

end

/-- `prepareWaitUntilCommandResults` returns one result per command, in command order: the
    i-th timer result is completed, skipped or waiting as the entry at `i` says true, false
    or nothing; the i-th local-queue result names the i-th command's queue and is completed
    with exactly the entry's messages, or waiting with none; and entries at other indices
    have no effect. -/
theorem command_results_zip_stored_results (results : CommandResultsJson)
    (request : CommandRequest) :
    let r := prepareWaitUntilCommandResults results request
    r.timerResults.length = request.timerCommands.length ∧
      r.localQueueResults.length = request.localQueueCommands.length ∧
      (∀ i < request.timerCommands.length,
        (results.timerResults.lookup i = some true →
          r.timerResults[i]? = some .completedCommand) ∧
        (results.timerResults.lookup i = some false →
          r.timerResults[i]? = some .skippedCommand) ∧
        (results.timerResults.lookup i = none → r.timerResults[i]? = some .waitingCommand)) ∧
      (∀ i c, request.localQueueCommands[i]? = some c →
        (∀ ms, results.localQueueResults.lookup i = some ms →
          r.localQueueResults[i]? = some ⟨.completedCommand, c.queueName, ms⟩) ∧
        (results.localQueueResults.lookup i = none →
          r.localQueueResults[i]? = some ⟨.waitingCommand, c.queueName, []⟩)) ∧
      ∀ results' : CommandResultsJson,
        (∀ i < request.timerCommands.length,
          results'.timerResults.lookup i = results.timerResults.lookup i) →
        (∀ i < request.localQueueCommands.length,
          results'.localQueueResults.lookup i = results.localQueueResults.lookup i) →
        prepareWaitUntilCommandResults results' request = r := by
  refine ⟨by simp, by simp, fun i hi => ?_, fun i c hc => ?_,
    fun _ ht hl => prepareWaitUntilCommandResults_congr results request ht hl⟩
  · rw [timerResults_getElem? results request hi]
    exact ⟨fun h => by rw [h], fun h => by rw [h], fun h => by rw [h]⟩
  · rw [localQueueResults_getElem?, hc]
    exact ⟨fun ms h => by rw [Option.map_some', h], fun h => by rw [Option.map_some', h]⟩

/-- Two timers, the first fired, and one local-queue command whose entry sits at the wrong
    index: the second timer and the local-queue command are still waiting. -/
example : prepareWaitUntilCommandResults
    { timerResults := [(0, true)], localQueueResults := [(3, [])] }
    { timerCommands := [⟨5⟩, ⟨9⟩], localQueueCommands := [⟨"q", none⟩] } =
    ⟨[.completedCommand, .waitingCommand], [⟨.waitingCommand, "q", []⟩]⟩ := by decide

end Xdb
