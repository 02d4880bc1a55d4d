import Mathlib.Data.List.AList
import Mathlib.Data.Finset.Basic

/-!
# State Execution Sequence Maps

The blob a process row carries in `state_execution_sequence_maps`: a per-state-id counter
of the sequences used so far, and the pending-execution map from state id to the set of
sequences still running. `CompleteExecuteExecution` decodes it, removes the finishing
execution, starts the next states and tests the map for emptiness with `len`, which counts
state ids, not pairs.

The methods live in the persistence package, which is not among the sources, so they are
modelled from the spec: "assign a new `StateIdSequence` from a per-state-id counter" and
"remove `(StateId, StateIdSequence)`; if absent, fail". A state id whose set becomes empty
is removed with it, which is what makes `len` of the map agree with the set of pairs;
`NoEmptyEntry` names that fact and `noEmptyEntry_startNewStateExecution` and
`noEmptyEntry_completeNewStateExecution` show every operation keeps it.

## Main definitions

* `StateExecutionSequenceMaps`: The decoded blob.
* `StateExecutionSequenceMaps.IsPending`: A pair is in the pending-execution map.
* `StateExecutionSequenceMaps.startNewStateExecution`: `StartNewStateExecution`.
* `StateExecutionSequenceMaps.completeNewStateExecution`: `CompleteNewStateExecution`.
* `StateExecutionSequenceMaps.NoEmptyEntry`: No state id maps to an empty set.

## Theorems

* `isEmpty_iff_forall_not_isPending`: Under `NoEmptyEntry`, the map has no key exactly when
  no pair is pending.
* `isPending_startNewStateExecution`: Starting adds exactly the new pair.
* `isSome_completeNewStateExecution`: Completing succeeds exactly on a pending pair.
* `isPending_completeNewStateExecution`: Completing removes exactly that pair.
-/

namespace Xdb

/-- The process row's sequence maps: per-state-id counters and the pending executions. -/
structure StateExecutionSequenceMaps where
  sequenceMap : String → Nat
  pendingExecutionMap : AList (fun _ : String => Finset Nat)

namespace StateExecutionSequenceMaps

/-- The blob of a process with no state executions. -/
def empty : StateExecutionSequenceMaps :=
  ⟨fun _ => 0, ∅⟩

/-- The state execution `(stateId, seq)` is in the pending-execution map. -/
def IsPending (m : StateExecutionSequenceMaps) (stateId : String) (seq : Nat) : Prop :=
  ∃ seqs, m.pendingExecutionMap.lookup stateId = some seqs ∧ seq ∈ seqs

instance (m : StateExecutionSequenceMaps) (stateId : String) (seq : Nat) :
    Decidable (m.IsPending stateId seq) :=
  decidable_of_iff (seq ∈ (m.pendingExecutionMap.lookup stateId).getD ∅) (by
    unfold IsPending
    cases m.pendingExecutionMap.lookup stateId <;> simp)

/-- `len(PendingExecutionMap) == 0`. -/
def isPendingEmpty (m : StateExecutionSequenceMaps) : Bool :=
  m.pendingExecutionMap.entries.isEmpty

/-- No state id of the pending-execution map holds an empty set of sequences. -/
def NoEmptyEntry (m : StateExecutionSequenceMaps) : Prop :=
  ∀ stateId seqs, m.pendingExecutionMap.lookup stateId = some seqs → seqs.Nonempty

/-- `StartNewStateExecution(stateId)`: bump the counter and mark the new sequence pending.
    Modelled from the spec: the persistence package is not among the sources. -/
def startNewStateExecution (m : StateExecutionSequenceMaps) (stateId : String) :
    Nat × StateExecutionSequenceMaps :=
  let seq := m.sequenceMap stateId + 1
  (seq, ⟨fun s => if s = stateId then seq else m.sequenceMap s,
    m.pendingExecutionMap.insert stateId
      (insert seq ((m.pendingExecutionMap.lookup stateId).getD ∅))⟩)

/-- `CompleteNewStateExecution(stateId, seq)`: remove a pending pair, dropping the state id
    once its set is empty, and fail if the pair is not pending.
    Modelled from the spec: the persistence package is not among the sources. -/
def completeNewStateExecution (m : StateExecutionSequenceMaps) (stateId : String)
    (seq : Nat) : Option StateExecutionSequenceMaps :=
  match m.pendingExecutionMap.lookup stateId with
  | none => none
  | some seqs =>
    if seq ∈ seqs then
      let rest := seqs.erase seq
      some ⟨m.sequenceMap, if rest = ∅ then m.pendingExecutionMap.erase stateId
        else m.pendingExecutionMap.insert stateId rest⟩
    else none

/-- The pending-execution map emptied by a force close. -/
def clearPending (m : StateExecutionSequenceMaps) : StateExecutionSequenceMaps :=
  ⟨m.sequenceMap, ∅⟩

@[simp] theorem startNewStateExecution_fst (m : StateExecutionSequenceMaps) (stateId : String) :
    (m.startNewStateExecution stateId).1 = m.sequenceMap stateId + 1 := rfl

@[simp] theorem startNewStateExecution_sequenceMap (m : StateExecutionSequenceMaps)
    (stateId s : String) : (m.startNewStateExecution stateId).2.sequenceMap s =
      if s = stateId then m.sequenceMap stateId + 1 else m.sequenceMap s := rfl

@[simp] theorem clearPending_sequenceMap (m : StateExecutionSequenceMaps) :
    m.clearPending.sequenceMap = m.sequenceMap := rfl

theorem not_isPending_clearPending (m : StateExecutionSequenceMaps) (stateId : String)
    (seq : Nat) : ¬m.clearPending.IsPending stateId seq := by
  simp [IsPending, clearPending]

theorem isPendingEmpty_clearPending (m : StateExecutionSequenceMaps) :
    m.clearPending.isPendingEmpty = true := rfl

theorem noEmptyEntry_clearPending (m : StateExecutionSequenceMaps) :
    m.clearPending.NoEmptyEntry := by
  intro stateId seqs h
  simp [clearPending] at h

theorem isPendingEmpty_iff (m : StateExecutionSequenceMaps) :
    m.isPendingEmpty = true ↔ ∀ stateId, m.pendingExecutionMap.lookup stateId = none := by
  constructor
  · intro h stateId
    have : m.pendingExecutionMap.entries = [] := by simpa [isPendingEmpty] using h
    simp [AList.lookup, this]
  · intro h
    rcases hm : m.pendingExecutionMap.entries with _ | ⟨⟨k, v⟩, rest⟩
    · simp [isPendingEmpty, hm]
    · have hk : k ∈ m.pendingExecutionMap := by simp [AList.mem_keys, AList.keys, hm]
      exact absurd (h k) (by simpa [AList.lookup_eq_none] using hk)

/-- Under `NoEmptyEntry`, `len(PendingExecutionMap) == 0` tests for no pending pair. -/
theorem isEmpty_iff_forall_not_isPending {m : StateExecutionSequenceMaps}
    (h : m.NoEmptyEntry) :
    m.isPendingEmpty = true ↔ ∀ stateId seq, ¬m.IsPending stateId seq := by
  rw [isPendingEmpty_iff]
  constructor
  · rintro hn stateId seq ⟨seqs, hl, -⟩
    simp [hn stateId] at hl
  · intro hn stateId
    cases hl : m.pendingExecutionMap.lookup stateId with
    | none => rfl
    | some seqs =>
      obtain ⟨seq, hs⟩ := h stateId seqs hl
      exact absurd ⟨seqs, hl, hs⟩ (hn stateId seq)

theorem isPending_startNewStateExecution (m : StateExecutionSequenceMaps) (stateId s : String)
    (seq : Nat) : (m.startNewStateExecution stateId).2.IsPending s seq ↔
      m.IsPending s seq ∨ (s = stateId ∧ seq = m.sequenceMap stateId + 1) := by
  unfold startNewStateExecution IsPending
  by_cases hs : s = stateId
  · subst hs
    cases hl : m.pendingExecutionMap.lookup s <;> simp [hl, or_comm]
  · simp [AList.lookup_insert_ne hs, hs]

theorem noEmptyEntry_startNewStateExecution {m : StateExecutionSequenceMaps}
    (h : m.NoEmptyEntry) (stateId : String) :
    (m.startNewStateExecution stateId).2.NoEmptyEntry := by
  intro s seqs hl
  by_cases hs : s = stateId
  · subst hs
    simp only [startNewStateExecution, AList.lookup_insert, Option.some.injEq] at hl
    exact hl ▸ Finset.insert_nonempty _ _
  · exact h s seqs (by simpa [startNewStateExecution, AList.lookup_insert_ne hs] using hl)

theorem isSome_completeNewStateExecution (m : StateExecutionSequenceMaps) (stateId : String)
    (seq : Nat) : (m.completeNewStateExecution stateId seq).isSome ↔ m.IsPending stateId seq := by
  unfold completeNewStateExecution IsPending
  cases hl : m.pendingExecutionMap.lookup stateId with
  | none => simp
  | some seqs => by_cases h : seq ∈ seqs <;> simp [h]

theorem completeNewStateExecution_sequenceMap {m m' : StateExecutionSequenceMaps}
    {stateId : String} {seq : Nat} (h : m.completeNewStateExecution stateId seq = some m') :
    m'.sequenceMap = m.sequenceMap := by
  unfold completeNewStateExecution at h
  split at h
  · cases h
  · split at h
    · cases h; rfl
    · cases h

theorem isPending_completeNewStateExecution {m m' : StateExecutionSequenceMaps}
    {stateId : String} {seq : Nat} (h : m.completeNewStateExecution stateId seq = some m')
    (s : String) (n : Nat) :
    m'.IsPending s n ↔ m.IsPending s n ∧ ¬(s = stateId ∧ n = seq) := by
  unfold completeNewStateExecution at h
  split at h
  · cases h
  · rename_i seqs hl
    split at h
    · cases h
      unfold IsPending
      by_cases hs : s = stateId
      · subst hs
        split
        · rename_i he
          have : n ∈ seqs → n = seq := fun hn => by
            by_contra hne
            have : n ∈ seqs.erase seq := Finset.mem_erase.2 ⟨hne, hn⟩
            simp [he] at this
          simp [hl]
          exact this
        · simp [hl, Finset.mem_erase, and_comm]
      · split <;> simp [AList.lookup_erase_ne hs, AList.lookup_insert_ne hs, hs]
    · cases h

theorem noEmptyEntry_completeNewStateExecution {m m' : StateExecutionSequenceMaps}
    {stateId : String} {seq : Nat} (hm : m.NoEmptyEntry)
    (h : m.completeNewStateExecution stateId seq = some m') : m'.NoEmptyEntry := by
  unfold completeNewStateExecution at h
  split at h
  · cases h
  · split at h
    · cases h
      intro s seqs' hl'
      by_cases hs : s = stateId
      · subst hs
        split at hl'
        · simp at hl'
        · rename_i hne
          simp only [AList.lookup_insert, Option.some.injEq] at hl'
          exact hl' ▸ Finset.nonempty_iff_ne_empty.2 hne
      · refine hm s seqs' ?_
        split at hl' <;> simpa [AList.lookup_erase_ne hs, AList.lookup_insert_ne hs] using hl'
    · cases h

end StateExecutionSequenceMaps

end Xdb
