import Xdb.Theory.StartUnique
import Xdb.Engine.Describe

/-!
# Describe Joins on the Process Id Alone

In every reachable state the pointers and the process rows agree (`PointerInv`): a pointer
names a process row of its own namespace and process id, and every process row is the one
its pair's pointer names. Starts insert both together, and no other transaction touches a
pointer or the pair of a row.

So `DescribeLatestProcess` answers not found exactly when the pair has no pointer, and
otherwise with the pointer's execution id. The rest of the answer comes from the first
process row the join returns, and the join matches rows on the process id alone: the row
is the pointer's own, or the row of another namespace that reuses the process id
(`describe_reads_first_row_with_process_id`). Which one depends on the database's scan
order, and with two namespaces sharing a process id the type, URL and start time of one
execution are reported under the id of the other (`describe_mixes_namespaces`).

## Main definitions

* `ProcessExecutionRow.owner`: The pair a process row belongs to.
* `PointerInv`: Pointers and process rows agree.

## Theorems

* `transition_owners`: Every transaction but a start keeps the pointers and the owners.
* `reachable_pointerInv`: Every reachable state keeps `PointerInv`.
* `PointerInv.describeLatestProcess_of_latest`: A pointer makes describe answer from a row
  with its process id.
* `describe_reads_first_row_with_process_id`: What describe answers.
-/

namespace Xdb

/-- The namespace and process id a process row belongs to. -/
def ProcessExecutionRow.owner (p : ProcessExecutionRow) : String × String :=
  (p.namespaceName, p.processId)

/-- Every pointer names a process row of its own pair, and every process row is the one its
    pair's pointer names. -/
structure PointerInv (s : Store) : Prop where
  row_of_latest : ∀ ns pid id, s.latestProcessExecutions ns pid = some id →
    ∃ p, s.processExecutions id = some p ∧ p.owner = (ns, pid)
  latest_of_row : ∀ id p, s.processExecutions id = some p →
    s.latestProcessExecutions p.namespaceName p.processId = some id

/-- Every transaction but a start keeps the pointers and the owner of every process row. -/
theorem transition_owners {e : Engine} {s' : Store} (h : Transition e s') :
    (s'.latestProcessExecutions = e.store.latestProcessExecutions ∧
      ∀ id, (s'.processExecutions id).map ProcessExecutionRow.owner =
        (e.store.processExecutions id).map ProcessExecutionRow.owner) ∨
      ∃ request, s' = (startProcess e.store request e.now).2 := by
  cases h with
  | stay | fireTimer | delete => exact .inl ⟨rfl, fun _ => rfl⟩
  | startProcess request => exact .inr ⟨request, rfl⟩
    -- the other transactions add no pointer and rewrite no owner
  | waitUntil =>
    exact .inl ⟨processWaitUntilExecution_latest _ _, fun _ => by
      rw [processWaitUntilExecution_processExecutions]⟩
  | execute =>
    -- a completion rewrites the close of its row, not who owns it
    refine .inl ⟨completeExecuteExecution_latest _ _, fun id => ?_⟩
    rcases completeExecuteExecution_processExecutions e.store _ id with he | ⟨-, p, m, hp, -, he⟩
    · rw [he]
    · rw [he, hp]
      rfl
  | backoff =>
    exact .inl ⟨backoffImmediateTask_latest _ _, fun _ => by
      rw [backoffImmediateTask_processExecutions]⟩

theorem PointerInv.of_owners {s s' : Store} (hi : PointerInv s)
    (hl : s'.latestProcessExecutions = s.latestProcessExecutions)
    (ho : ∀ id, (s'.processExecutions id).map ProcessExecutionRow.owner =
      (s.processExecutions id).map ProcessExecutionRow.owner) : PointerInv s' := by
  constructor
  · intro ns pid id h
    rw [hl] at h
    obtain ⟨p, hp, hpo⟩ := hi.row_of_latest ns pid id h
    have h' := ho id
    rw [hp, Option.map_some'] at h'
    obtain ⟨p', hp', hpo'⟩ := Option.map_eq_some'.1 h'
    exact ⟨p', hp', hpo'.trans hpo⟩
  · intro id p' h
    have h' := ho id
    rw [h, Option.map_some'] at h'
    obtain ⟨p, hp, hpo⟩ := Option.map_eq_some'.1 h'.symm
    simp only [ProcessExecutionRow.owner, Prod.mk.injEq] at hpo
    rw [hl, ← hpo.1, ← hpo.2]
    exact hi.latest_of_row id p hp

theorem PointerInv.startProcess {s : Store} (hi : PointerInv s)
    (request : ProcessExecutionStartRequest) (now : Int) :
    PointerInv (startProcess s request now).2 := by
  rcases startProcess_snd s request now with he | ⟨id, hs⟩
  · rw [he]
    exact hi
  obtain ⟨hnone, hl, hpn, ⟨p, hp, hns, hpid, -⟩, -⟩ := startProcess_startAdds hs
  constructor
  · intro ns pid id' h
    rw [hl] at h
    split at h
    · cases h
      exact ⟨p, by rw [hp, if_pos rfl], by simp [ProcessExecutionRow.owner, hns, hpid, *]⟩
    · obtain ⟨p₀, hp₀, hpo⟩ := hi.row_of_latest ns pid id' h
      have hne : id' ≠ id := by
        rintro rfl
        rw [hpn] at hp₀
        cases hp₀
      exact ⟨p₀, by rw [hp, if_neg hne, hp₀], hpo⟩
  · intro i p' h
    rw [hp] at h
    rw [hl]
    split at h
    · cases h
      rw [if_pos ⟨hns, hpid⟩, ‹i = id›]
    · have hold := hi.latest_of_row i p' h
      rw [if_neg fun hq => by rw [hq.1, hq.2, hnone] at hold; cases hold]
      exact hold

/-- Every reachable state keeps `PointerInv`. -/
theorem reachable_pointerInv {cfg : ProcessorConfig} {e : Engine} (hr : Reachable cfg e) :
    PointerInv e.store := by
  induction hr with
  | init => exact ⟨fun _ _ _ h => (nomatch h), fun _ _ h => (nomatch h)⟩
  | step _ _ hs ih =>
    rcases transition_owners (step_transition hs) with ⟨hl, ho⟩ | ⟨request, he⟩
    · exact ih.of_owners hl ho
    · rw [he]
      exact ih.startProcess request _

/-! ### What describe answers -/

section

variable {s : Store} {order : List Uuid} {ns pid : String}

theorem describeLatestProcess_of_none (h : s.latestProcessExecutions ns pid = none) :
    describeLatestProcess s order ns pid = .ok none := by
  simp [describeLatestProcess, selectCurrentProcessExecution, h]

theorem describeLatestProcess_of_some {id : Uuid} (h : s.latestProcessExecutions ns pid = some id)
    {row : ProcessExecutionRow} {rest : List ProcessExecutionRow}
    (hrows : order.filterMap (fun i => (s.processExecutions i).filter (·.processId == pid)) =
      row :: rest) :
    describeLatestProcess s order ns pid =
      .ok (some ⟨id, row.info.processType, row.info.workerURL, int32Of row.startTime⟩) := by
  simp [describeLatestProcess, selectCurrentProcessExecution, h, hrows]

/-- Under `PointerInv`, and for a scan order that lists every row, a pointer makes describe
    answer from a row with the same process id: the pointer's own row unless that row belongs
    to another namespace. -/
theorem PointerInv.describeLatestProcess_of_latest (hi : PointerInv s)
    (horder : ∀ i p, s.processExecutions i = some p → i ∈ order) {id : Uuid}
    (h : s.latestProcessExecutions ns pid = some id) :
    ∃ q p, s.processExecutions q = some p ∧ p.processId = pid ∧
      (p.namespaceName = ns → q = id) ∧
      describeLatestProcess s order ns pid =
        .ok (some ⟨id, p.info.processType, p.info.workerURL, int32Of p.startTime⟩) := by
  obtain ⟨p₀, hp₀, hpo⟩ := hi.row_of_latest ns pid id h
  simp only [ProcessExecutionRow.owner, Prod.mk.injEq] at hpo
  cases hrows : order.filterMap fun i => (s.processExecutions i).filter (·.processId == pid) with
  | nil =>
    have h' := List.filterMap_eq_nil_iff.1 hrows id (horder id p₀ hp₀)
    simp [hp₀, hpo.2] at h'
  | cons row rest =>
    obtain ⟨q, -, hq⟩ := List.mem_filterMap.1 (hrows ▸ List.mem_cons_self row rest)
    obtain ⟨hqrow, hpid⟩ := Option.filter_eq_some.1 hq
    have hpid : row.processId = pid := by simpa using hpid
    refine ⟨q, row, hqrow, hpid, fun hns => ?_, describeLatestProcess_of_some h hrows⟩
    have hq' := hi.latest_of_row q row hqrow
    rw [hns, hpid, h] at hq'
    exact (Option.some.inj hq').symm

end

/-- In every reachable state, and for every scan order of the process table that lists each
    of its rows: describe answers not found exactly when the pair has no pointer; otherwise it
    answers with the pointer's execution id and the type, worker URL and `int32` start time of
    a process row with the same process id, which is the pointer's own row unless it belongs to
    another namespace. -/
theorem describe_reads_first_row_with_process_id {cfg : ProcessorConfig} {e : Engine}
    (hr : Reachable cfg e) {order : List Uuid}
    (horder : ∀ i p, e.store.processExecutions i = some p → i ∈ order) (ns pid : String) :
    (describeLatestProcess e.store order ns pid = .ok none ↔
      e.store.latestProcessExecutions ns pid = none) ∧
    ∀ id, e.store.latestProcessExecutions ns pid = some id →
      ∃ q p, e.store.processExecutions q = some p ∧ p.processId = pid ∧
        (p.namespaceName = ns → q = id) ∧
        describeLatestProcess e.store order ns pid =
          .ok (some ⟨id, p.info.processType, p.info.workerURL, int32Of p.startTime⟩) := by
  have hi := reachable_pointerInv hr
  refine ⟨⟨fun hd => ?_, describeLatestProcess_of_none⟩,
    fun _ h => hi.describeLatestProcess_of_latest horder h⟩
  cases hl : e.store.latestProcessExecutions ns pid with
  | none => rfl
  | some id =>
    obtain ⟨q, p, -, -, -, hd'⟩ := hi.describeLatestProcess_of_latest horder hl
    rw [hd'] at hd
    cases hd

/-- Start process "p" in namespace `ns`, of type `processType`. -/
def startOfP (ns processType : String) : ProcessExecutionStartRequest :=
  ⟨ns, "p", processType, "u", none, none, none, none⟩

/-- Start process "p" in namespace "a" with type "ta", then in namespace "b" with type
    "tb". -/
def twoNamespaceRun : List Action :=
  [.startProcess (startOfP "a" "ta"), .startProcess (startOfP "b" "tb")]

theorem describe_mixes_namespaces :
    ∃ e, run exampleConfig (Engine.init exampleConfig 0) twoNamespaceRun = some e ∧
      e.store.latestProcessExecutions "b" "p" = some (.minted 1) ∧
      (e.store.processExecutions (.minted 1)).map (·.info.processType) = some "tb" ∧
      describeLatestProcess e.store [.minted 0, .minted 1] "b" "p" =
        .ok (some ⟨.minted 1, "ta", "u", 0⟩) ∧
      ((describeLatestProcess e.store [.minted 0, .minted 1] "b" "p" = .ok none ↔
          e.store.latestProcessExecutions "b" "p" = none) ∧
        ∀ id, e.store.latestProcessExecutions "b" "p" = some id →
          ∃ q p, e.store.processExecutions q = some p ∧ p.processId = "p" ∧
            (p.namespaceName = "b" → q = id) ∧
            describeLatestProcess e.store [.minted 0, .minted 1] "b" "p" =
              .ok (some ⟨id, p.info.processType, p.info.workerURL, int32Of p.startTime⟩)) := by
  let s₁ := (startProcess Store.empty (startOfP "a" "ta") 0).2
  let s₂ := (startProcess s₁ (startOfP "b" "tb") 0).2
  obtain ⟨-, -, -, ⟨p₁, hp₁, -⟩, -⟩ :=
    @startProcess_startAdds Store.empty s₁ (startOfP "a" "ta") 0 (.minted 0) rfl
  obtain ⟨-, -, -, ⟨p₂, hp₂, -⟩, -⟩ :=
    @startProcess_startAdds s₁ s₂ (startOfP "b" "tb") 0 (.minted 1) rfl
  refine ⟨_, rfl, rfl, rfl, rfl, describe_reads_first_row_with_process_id
    (@reachable_of_run exampleConfig _ _ (.init 0) twoNamespaceRun rfl) (fun i p h => ?_) "b" "p"⟩
  replace h : s₂.processExecutions i = some p := h
  rw [hp₂, hp₁] at h
  split_ifs at h with h₁ h₀
  · simp [h₁]
  · simp [h₀]
  · cases h

end Xdb
