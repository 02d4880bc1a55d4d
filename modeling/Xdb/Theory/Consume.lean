import Xdb.Model.WaitingQueues

/-!
# Consuming Local-Queue Messages

What `ProcessLocalQueueMessage` does to the waiting-queue blob, for every blob and every list
of inbound messages. The consumption is modelled from the spec (see `Model.WaitingQueues`):
each message goes to the first free command of its queue, a state execution whose commands
are satisfied leaves the blob with the messages they took, and a message no command takes
stays unconsumed.

Three facts make this a sound mailbox. No message is lost or duplicated: what the blob holds
afterwards, together with what the released state executions took, is what it held before
plus the inbound messages, up to order (`consumeMessages_conserves_messages`). No state
execution is left waiting once its commands are satisfied (`consumeMessages_leaves_none_satisfied`):
only the state execution of the command that took the message can become satisfied, and it
is released on the spot. And no message is kept unconsumed while a free command of its queue
waits (`consumeMessages_leaves_no_free_match`), since the kept messages are offered again
before the inbound ones.

As the sources stand the blob that reaches the transaction is always empty, because the
locking query never selects its column, so these are properties of the consumption the
transaction performs once the blob is read.

## Main definitions

* `StateExecutionWaitingQueues.messages`: Every message the blob keeps.
* `StateExecutionWaitingQueues.released`: The messages released state executions take.
* `StateExecutionWaitingQueues.NoneSatisfied`: No waiting state execution is satisfied.
* `StateExecutionWaitingQueues.NoFreeMatch`: No kept message has a free command of its queue.

## Theorems

* `consumeMessages_conserves_messages`: Consumption loses and duplicates no message.
* `consumeMessages_leaves_none_satisfied`: Every satisfied state execution is released.
* `consumeMessages_leaves_no_free_match`: A kept message finds no free command.
-/

open scoped List

namespace Xdb

namespace StateExecutionWaitingQueues

/-- The messages the waiting commands hold. -/
def held (cs : List WaitingCommand) : List LocalQueueMessageInfoJson :=
  cs.filterMap (·.consumed)

/-- Every message the blob keeps: held by a waiting command, or not taken yet. -/
def messages (q : StateExecutionWaitingQueues) : List LocalQueueMessageInfoJson :=
  held q.waiting ++ q.unconsumedMessages

/-- The messages released state executions take with them. -/
def released (rs : List SatisfiedStateExecution) : List LocalQueueMessageInfoJson :=
  rs.flatMap fun r => r.results.filterMap id

/-- One round of the loop in `consumeMessages`. -/
def consumeStep (acc : StateExecutionWaitingQueues × List SatisfiedStateExecution)
    (m : LocalQueueMessageInfoJson) : StateExecutionWaitingQueues × List SatisfiedStateExecution :=
  ((consumeMessage acc.1 m).1, acc.2 ++ (consumeMessage acc.1 m).2)

theorem consumeMessages_eq (q : StateExecutionWaitingQueues)
    (inbound : List LocalQueueMessageInfoJson) :
    q.consumeMessages inbound = (q.unconsumedMessages ++ inbound).foldl consumeStep
      ({ q with unconsumedMessages := [] }, []) :=
  rfl

/-! ### Assigning one message -/

/-- An assignment fills one free command of the message's queue and changes nothing else. -/
theorem assign_eq_some {m : LocalQueueMessageInfoJson} : ∀ {ws cs : List WaitingCommand},
    assign m ws = some cs → ∃ pre d post, ws = pre ++ d :: post ∧
      cs = pre ++ { d with consumed := some m } :: post ∧
      d.command.queueName = m.queueName ∧ d.consumed = none
  | [], _, h => nomatch h
  | c :: ws, cs, h => by
    unfold assign at h
    split_ifs at h with hc
    · cases h
      exact ⟨[], c, ws, rfl, rfl, hc.1, hc.2⟩
    · obtain ⟨cs', h', rfl⟩ := Option.map_eq_some'.1 h
      obtain ⟨pre, d, post, rfl, rfl, hq, hd⟩ := assign_eq_some h'
      exact ⟨c :: pre, d, post, rfl, rfl, hq, hd⟩

/-- A message no command takes finds every command of its queue full. -/
theorem assign_eq_none {m : LocalQueueMessageInfoJson} : ∀ {ws : List WaitingCommand},
    assign m ws = none → ∀ c ∈ ws, c.command.queueName = m.queueName → c.consumed.isSome
  | [], _ => fun _ h => nomatch h
  | c :: ws, h => by
    unfold assign at h
    split_ifs at h with hc
    intro c' hc' hq
    rcases List.mem_cons.1 hc' with rfl | hc'
    · exact Option.isSome_iff_ne_none.2 fun hn => hc ⟨hq, hn⟩
    · exact assign_eq_none (Option.map_eq_none'.1 h) c' hc' hq

theorem mem_assigned {pre post : List WaitingCommand} {d c : WaitingCommand}
    {m : LocalQueueMessageInfoJson} (hc : c ∈ pre ++ { d with consumed := some m } :: post) :
    c ∈ pre ++ d :: post ∨ c = { d with consumed := some m } := by
  simp only [List.mem_append, List.mem_cons] at hc ⊢
  rcases hc with hc | rfl | hc
  · exact .inl (.inl hc)
  · exact .inr rfl
  · exact .inl (.inr (.inr hc))

/-! ### No message lost or duplicated -/

theorem held_assigned {pre post : List WaitingCommand} {d : WaitingCommand}
    {m : LocalQueueMessageInfoJson} (hd : d.consumed = none) :
    held (pre ++ { d with consumed := some m } :: post) ~ m :: held (pre ++ d :: post) := by
  simp only [held, List.filterMap_append, List.filterMap_cons, hd]
  exact List.perm_middle

theorem held_filter_perm (p : WaitingCommand → Bool) (cs : List WaitingCommand) :
    held (cs.filter p) ++ held (cs.filter fun c => !p c) ~ held cs := by
  rw [held, held, ← List.filterMap_append]
  exact (List.filter_append_perm p cs).filterMap _

/-- Moving the messages of one state execution out of the blob, past the unconsumed ones. -/
theorem perm_release {α : Type} {F C H U : List α} (h : F ++ C ~ H) : F ++ U ++ C ~ H ++ U :=
  calc F ++ U ++ C = F ++ (U ++ C) := List.append_assoc ..
    _ ~ F ++ (C ++ U) := List.perm_append_comm.append_left F
    _ = F ++ C ++ U := (List.append_assoc ..).symm
    _ ~ H ++ U := h.append_right U

theorem held_release_perm (cs : List WaitingCommand) (sid : String) (seq : Nat) :
    held (cs.filter fun d => ¬(d.stateId = sid ∧ d.stateIdSequence = seq)) ++
      held (commandsOf cs sid seq) ~ held cs := by
  simpa only [decide_not, commandsOf] using List.perm_append_comm.trans
    (held_filter_perm (fun d => decide (d.stateId = sid ∧ d.stateIdSequence = seq)) cs)

/-- One message in: the blob and the released state executions hold it once more. -/
theorem consumeMessage_messages (q : StateExecutionWaitingQueues)
    (m : LocalQueueMessageInfoJson) :
    (q.consumeMessage m).1.messages ++ released (q.consumeMessage m).2 ~ q.messages ++ [m] := by
  unfold consumeMessage
  split
  · simp [messages, released]
  · rename_i cs hcs
    have hh : held cs ++ q.unconsumedMessages ~ q.messages ++ [m] := by
      obtain ⟨pre, d, post, hw, rfl, -, hd⟩ := assign_eq_some hcs
      rw [messages, hw]
      exact ((held_assigned hd).append_right _).trans (List.perm_append_singleton m _).symm
    split
    · simpa [messages, released] using hh
    · rename_i c _
      refine List.Perm.trans ?_ hh
      simp only [messages, released, List.flatMap_cons, List.flatMap_nil, List.append_nil,
        List.filterMap_map, Function.id_comp]
      exact perm_release (held_release_perm cs c.stateId c.stateIdSequence)

theorem foldl_consumeStep_messages : ∀ (ms : List LocalQueueMessageInfoJson)
    (acc : StateExecutionWaitingQueues × List SatisfiedStateExecution),
    (ms.foldl consumeStep acc).1.messages ++ released (ms.foldl consumeStep acc).2 ~
      acc.1.messages ++ released acc.2 ++ ms
  | [], acc => by simp
  | m :: ms, acc => by
    have h := List.perm_iff_count.1 (consumeMessage_messages acc.1 m)
    refine (foldl_consumeStep_messages ms (consumeStep acc m)).trans
      (List.perm_iff_count.2 fun a => ?_)
    have ha := h a
    simp only [consumeStep, released, List.flatMap_append, List.count_append,
      List.count_cons, List.count_nil] at ha ⊢
    omega

/-- Consumption loses and duplicates no message: the blob afterwards and the released state
    executions hold, up to order, what the blob held before and the inbound messages. -/
theorem consumeMessages_conserves_messages (q : StateExecutionWaitingQueues)
    (inbound : List LocalQueueMessageInfoJson) :
    (q.consumeMessages inbound).1.messages ++ released (q.consumeMessages inbound).2 ~
      q.messages ++ inbound := by
  rw [consumeMessages_eq]
  refine (foldl_consumeStep_messages _ _).trans ?_
  simp [messages, released]

/-! ### Unconsumed messages -/

/-- No message the blob keeps unconsumed has a free command of its queue waiting. -/
def NoFreeMatch (q : StateExecutionWaitingQueues) : Prop :=
  ∀ m ∈ q.unconsumedMessages, ∀ c ∈ q.waiting, c.command.queueName = m.queueName →
    c.consumed.isSome

/-- One message in keeps `NoFreeMatch`: a message no command takes found its queue's
    commands full, and filling or releasing commands frees none. -/
theorem consumeMessage_noFreeMatch {q : StateExecutionWaitingQueues} (h : NoFreeMatch q)
    (m : LocalQueueMessageInfoJson) : NoFreeMatch (q.consumeMessage m).1 := by
  unfold consumeMessage
  split
  · rename_i hn
    intro m' hm' c hc hq
    rcases List.mem_append.1 hm' with hm' | hm'
    · exact h m' hm' c hc hq
    · rw [List.mem_singleton.1 hm'] at hq
      exact assign_eq_none hn c hc hq
  · rename_i cs hcs
    obtain ⟨pre, d, post, hw, rfl, -, -⟩ := assign_eq_some hcs
    have hkept : ∀ m' ∈ q.unconsumedMessages, ∀ c ∈ pre ++ { d with consumed := some m } :: post,
        c.command.queueName = m'.queueName → c.consumed.isSome := fun m' hm' c hc hq =>
      (mem_assigned hc).elim (fun hc => h m' hm' c (hw ▸ hc) hq) fun hc => hc ▸ rfl
    split
    · exact hkept
    · exact fun m' hm' c hc => hkept m' hm' c (List.mem_of_mem_filter hc)

theorem foldl_consumeStep_noFreeMatch : ∀ (ms : List LocalQueueMessageInfoJson)
    {acc : StateExecutionWaitingQueues × List SatisfiedStateExecution}, NoFreeMatch acc.1 →
    NoFreeMatch (ms.foldl consumeStep acc).1
  | [], _, h => h
  | m :: ms, _, h => foldl_consumeStep_noFreeMatch ms (consumeMessage_noFreeMatch h m)

/-- After consumption no kept message has a free command of its queue waiting, whatever the
    blob held before: the kept messages are offered again first. -/
theorem consumeMessages_leaves_no_free_match (q : StateExecutionWaitingQueues)
    (inbound : List LocalQueueMessageInfoJson) : NoFreeMatch (q.consumeMessages inbound).1 :=
  foldl_consumeStep_noFreeMatch _ fun _ h => nomatch h

/-! ### Released state executions -/

/-- No waiting state execution is satisfied: each would have been released. -/
def NoneSatisfied (q : StateExecutionWaitingQueues) : Prop :=
  ∀ c ∈ q.waiting, isSatisfied q.waiting c = false

instance : DecidablePred NoneSatisfied := fun q =>
  inferInstanceAs (Decidable (∀ c ∈ q.waiting, _))

theorem isSatisfied_congr {cs cs' : List WaitingCommand} {c : WaitingCommand}
    (h : commandsOf cs c.stateId c.stateIdSequence = commandsOf cs' c.stateId c.stateIdSequence) :
    isSatisfied cs c = isSatisfied cs' c := by
  simp only [isSatisfied, h]

/-- Filling a command of one state execution leaves the commands of every other one. -/
theorem commandsOf_assigned {pre post : List WaitingCommand} {d : WaitingCommand}
    {m : LocalQueueMessageInfoJson} {sid : String} {seq : Nat}
    (h : ¬(d.stateId = sid ∧ d.stateIdSequence = seq)) :
    commandsOf (pre ++ { d with consumed := some m } :: post) sid seq =
      commandsOf (pre ++ d :: post) sid seq := by
  simp [commandsOf, List.filter_append, h]

/-- Filling a command leaves every other state execution as satisfied as it was. -/
theorem isSatisfied_assigned {pre post : List WaitingCommand} {d c : WaitingCommand}
    {m : LocalQueueMessageInfoJson}
    (hne : ¬(c.stateId = d.stateId ∧ c.stateIdSequence = d.stateIdSequence)) :
    isSatisfied (pre ++ { d with consumed := some m } :: post) c =
      isSatisfied (pre ++ d :: post) c :=
  isSatisfied_congr (commandsOf_assigned fun h' => hne ⟨h'.1.symm, h'.2.symm⟩)

/-- Releasing one state execution leaves the commands of every other one. -/
theorem commandsOf_release {cs : List WaitingCommand} {sid sid₀ : String} {seq seq₀ : Nat}
    (h : ¬(sid = sid₀ ∧ seq = seq₀)) :
    commandsOf (cs.filter fun d => ¬(d.stateId = sid₀ ∧ d.stateIdSequence = seq₀)) sid seq =
      commandsOf cs sid seq := by
  unfold commandsOf
  rw [List.filter_filter]
  refine List.filter_congr fun x _ => ?_
  by_cases hx : x.stateId = sid ∧ x.stateIdSequence = seq
  · obtain ⟨h₁, h₂⟩ := hx
    subst h₁ h₂
    simp [h]
  · simp [hx]

/-- One message in keeps `NoneSatisfied`. -/
theorem consumeMessage_noneSatisfied {q : StateExecutionWaitingQueues} (h : NoneSatisfied q)
    (m : LocalQueueMessageInfoJson) : NoneSatisfied (q.consumeMessage m).1 := by
  unfold consumeMessage
  split
  · exact h
  · rename_i cs hcs
    obtain ⟨pre, d, post, hw, rfl, -, -⟩ := assign_eq_some hcs
    -- the assignment leaves every other state execution as unsatisfied as it was
    have hother : ∀ c ∈ pre ++ { d with consumed := some m } :: post,
        ¬(c.stateId = d.stateId ∧ c.stateIdSequence = d.stateIdSequence) →
          isSatisfied (pre ++ { d with consumed := some m } :: post) c = false := by
      intro c hc hne
      rw [isSatisfied_assigned hne, ← hw]
      exact h c (hw ▸ (mem_assigned hc).resolve_right fun hc => hne (hc ▸ ⟨rfl, rfl⟩))
    split
    · rename_i hn
      exact fun c hc => Bool.eq_false_iff.2 (List.find?_eq_none.1 hn c hc)
    · rename_i c₀ hc₀
      have hkey : c₀.stateId = d.stateId ∧ c₀.stateIdSequence = d.stateIdSequence := by
        by_contra hne
        have hsat := List.find?_some hc₀
        rw [hother c₀ (List.mem_of_find?_eq_some hc₀) hne] at hsat
        cases hsat
      intro c hc
      obtain ⟨hc, hne⟩ := List.mem_filter.1 hc
      have hne : ¬(c.stateId = c₀.stateId ∧ c.stateIdSequence = c₀.stateIdSequence) :=
        of_decide_eq_true hne
      rw [isSatisfied_congr (commandsOf_release hne)]
      exact hother c hc (hkey.1 ▸ hkey.2 ▸ hne)

theorem foldl_consumeStep_noneSatisfied : ∀ (ms : List LocalQueueMessageInfoJson)
    {acc : StateExecutionWaitingQueues × List SatisfiedStateExecution}, NoneSatisfied acc.1 →
    NoneSatisfied (ms.foldl consumeStep acc).1
  | [], _, h => h
  | m :: ms, _, h => foldl_consumeStep_noneSatisfied ms (consumeMessage_noneSatisfied h m)

/-- Consumption leaves no satisfied state execution waiting: only the state execution whose
    command takes a message can become satisfied, and it is released at once. -/
theorem consumeMessages_leaves_none_satisfied {q : StateExecutionWaitingQueues}
    (h : NoneSatisfied q) (inbound : List LocalQueueMessageInfoJson) :
    NoneSatisfied (q.consumeMessages inbound).1 :=
  foldl_consumeStep_noneSatisfied _ h

/-- A state execution "S" that waits for one message on "a" and one on "b". -/
def allOfTwoQueues : StateExecutionWaitingQueues :=
  { waiting := [⟨"S", 1, ⟨"a", none⟩, false, none⟩, ⟨"S", 1, ⟨"b", none⟩, false, none⟩] }

/-- A message on the given queue. -/
def messageOn (queue : String) : LocalQueueMessageInfoJson :=
  ⟨queue, .minted 0, none⟩

example : (allOfTwoQueues.consumeMessages [messageOn "a", messageOn "b"]).2 =
    [⟨"S", 1, [some (messageOn "a"), some (messageOn "b")]⟩] := by
  decide

theorem half_served_state_keeps_waiting :
    NoneSatisfied allOfTwoQueues ∧
      NoneSatisfied (allOfTwoQueues.consumeMessages [messageOn "a"]).1 :=
  ⟨by decide, consumeMessages_leaves_none_satisfied (by decide) _⟩

end StateExecutionWaitingQueues

end Xdb
