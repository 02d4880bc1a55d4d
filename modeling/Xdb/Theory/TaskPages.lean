import Xdb.Persistence.TaskPages

/-!
# What a Page Holds

A queue reads a page, works through it, and reads the next one, so it relies on three things:
the page is the start of what it asks for in the query's order, a page that is not full holds
everything there is, and deleting the page's range deletes the page and nothing else.

`timer_page_holds_first_due_timers` is the first two for the timer queue: every task of the page
is a due timer task of the shard, the page is in fire-time and sequence order, the response
says it is full exactly when it holds a page size of rows, and a due timer task missing from
it sorts after every task in it and comes with a full page. `timer_page_response_bounds` says
what the response reports about a page in that order: its first and last fire times and its
least and greatest sequences bound the page's and are taken from it. The sequences are taken
from it only when they fit in an `int64`; a larger one would leave `math.MaxInt64` in place.

The third is about the immediate-task page, and there it fails: a sequence is drawn when its
row is inserted and the row is seen when its transaction commits, so the range delete of a
page also takes rows no page returned (`Theory.TaskCommits`).

## Main definitions

* `ResponseBounds`: What the response reports about a page.
* `SequenceBounds`: What the loop over a page keeps.

## Theorems

* `sequenceBounds_foldl`: The loop keeps its bounds.
* `timer_page_holds_first_due_timers`: A timer page is the start of the due timer tasks.
* `timer_page_response_bounds`: The response bounds a page in the query's order.
-/

namespace Xdb

/-! ### Sorted pages -/

/-- What a `take` of a sorted list leaves out sorts after everything it keeps. -/
theorem rel_of_not_mem_take {α : Type} {R : α → α → Prop} {l : List α} (h : l.Pairwise R)
    (n : Nat) {a b : α} (ha : a ∈ l.take n) (hb : b ∈ l) (hn : b ∉ l.take n) : R a b := by
  rw [← List.take_append_drop n l] at h hb
  exact (List.pairwise_append.1 h).2.2 a ha b ((List.mem_append.1 hb).resolve_left hn)

/-- A `take` shorter than asked for took everything. -/
theorem take_eq_self_of_length_ne {α : Type} {l : List α} {n : Nat}
    (h : (l.take n).length ≠ n) : l.take n = l :=
  List.take_of_length_le (by rw [List.length_take] at h; omega)

theorem timerOrder_trans {a b c : TimerTaskRow} (h₁ : timerOrder a b) (h₂ : timerOrder b c) :
    timerOrder a c := by
  simp only [timerOrder, Bool.or_eq_true, Bool.and_eq_true, decide_eq_true_eq] at *
  omega

theorem timerOrder_total (a b : TimerTaskRow) : (timerOrder a b || timerOrder b a) = true := by
  simp only [timerOrder, Bool.or_eq_true, Bool.and_eq_true, decide_eq_true_eq]
  omega

theorem fire_le_of_timerOrder {a b : TimerTaskRow} (h : timerOrder a b) :
    a.fireTimeUnixSeconds ≤ b.fireTimeUnixSeconds := by
  simp only [timerOrder, Bool.or_eq_true, Bool.and_eq_true, decide_eq_true_eq] at h
  omega

/-! ### The timer page -/

section TimerPage

variable (s : Store) (filter : TimerTaskRangeSelectFilter)

theorem timerOrder_sorted (l : List TimerTaskRow) :
    (l.mergeSort timerOrder).Pairwise (fun a b => timerOrder a b) :=
  @List.sorted_mergeSort _ timerOrder (fun _ _ _ => timerOrder_trans) timerOrder_total l

theorem mem_batchSelectTimerTasks {t : TimerTaskRow} (h : t ∈ batchSelectTimerTasks s filter) :
    t ∈ s.timerTasks ∧ t.shardId = filter.shardId ∧
      t.fireTimeUnixSeconds ≤ filter.maxFireTimeUnixSecondsInclusive := by
  simpa [batchSelectTimerTasks] using List.mem_of_mem_take h

variable {s filter} {t : TimerTaskRow} (ht : t ∈ s.timerTasks) (hs : t.shardId = filter.shardId)
  (hf : t.fireTimeUnixSeconds ≤ filter.maxFireTimeUnixSecondsInclusive)
include ht hs hf

/-- A due timer task the page leaves out sorts after every task of it. -/
theorem batchSelectTimerTasks_rest (hn : t ∉ batchSelectTimerTasks s filter) :
    ∀ r ∈ batchSelectTimerTasks s filter, timerOrder r t := fun _ hr =>
  rel_of_not_mem_take (timerOrder_sorted _) _ hr
    (List.mem_mergeSort.2 (List.mem_filter.2 ⟨ht, by simp [hs, hf]⟩)) hn

/-- A page shorter than the page size holds every due timer task. -/
theorem batchSelectTimerTasks_complete
    (hl : (batchSelectTimerTasks s filter).length ≠ filter.pageSize) :
    t ∈ batchSelectTimerTasks s filter := by
  rw [batchSelectTimerTasks, take_eq_self_of_length_ne hl]
  simp [ht, hs, hf]

end TimerPage

/-- The timer queue's page: every task of it is a due timer task of the filter's shard, it is
    in fire-time and sequence order, the response carries its rows as tasks and says it is full
    exactly when it holds a page size of rows, and a due timer task of the shard that the page
    leaves out sorts after every task in it and comes with a full page. -/
theorem timer_page_holds_first_due_timers (s : Store) (filter : TimerTaskRangeSelectFilter) :
    let page := batchSelectTimerTasks s filter
    let resp := createGetTimerTaskResponse filter.shardId page (some filter.pageSize)
    resp.tasks = page.map (toTimerTask filter.shardId) ∧
      page.Pairwise (fun a b => timerOrder a b) ∧
      (∀ t ∈ page, t ∈ s.timerTasks ∧ t.shardId = filter.shardId ∧
        t.fireTimeUnixSeconds ≤ filter.maxFireTimeUnixSecondsInclusive) ∧
      (resp.fullPage = true ↔ page.length = filter.pageSize) ∧
      ∀ t ∈ s.timerTasks, t.shardId = filter.shardId →
        t.fireTimeUnixSeconds ≤ filter.maxFireTimeUnixSecondsInclusive → t ∉ page →
          resp.fullPage = true ∧ ∀ r ∈ page, timerOrder r t := by
  intro page resp
  have hfull : resp.fullPage = true ↔ page.length = filter.pageSize := by
    rw [createGetTimerTaskResponse_fullPage, Option.some.injEq, eq_comm]
  refine ⟨createGetTimerTaskResponse_tasks .., (timerOrder_sorted _).sublist
    (List.take_sublist _ _), fun t ht => mem_batchSelectTimerTasks s filter ht, hfull,
    fun t ht hs hf hn => ⟨hfull.2 (Decidable.byContradiction fun hl =>
      hn (batchSelectTimerTasks_complete ht hs hf hl)), batchSelectTimerTasks_rest ht hs hf hn⟩⟩

/-! ### The response's bounds -/

/-- What the loop over a page keeps: `b'` bounds the sequences read, each of its ends is `b`'s
    or a sequence read, and it only widened `b`. -/
structure SequenceBounds (rows : List TimerTaskRow) (b b' : Int × Int) : Prop where
  below : ∀ t ∈ rows, b'.1 ≤ t.taskSequence
  above : ∀ t ∈ rows, (t.taskSequence : Int) ≤ b'.2
  lo_le : b'.1 ≤ b.1
  le_hi : b.2 ≤ b'.2
  lo_of : b'.1 = b.1 ∨ ∃ t ∈ rows, b'.1 = t.taskSequence
  hi_of : b'.2 = b.2 ∨ ∃ t ∈ rows, b'.2 = t.taskSequence

/-- The loop keeps its bounds. -/
theorem sequenceBounds_foldl : ∀ (rows : List TimerTaskRow) (b : Int × Int),
    SequenceBounds rows b (rows.foldl sequenceBoundsStep b)
  | [], _ =>
    ⟨(fun _ h => nomatch h), (fun _ h => nomatch h), le_rfl, le_rfl, .inl rfl, .inl rfl⟩
  | t :: rest, b => by
    have ih := sequenceBounds_foldl rest (sequenceBoundsStep b t)
    have h₁ : (sequenceBoundsStep b t).1 ≤ b.1 ∧ (sequenceBoundsStep b t).1 ≤ t.taskSequence ∧
        ((sequenceBoundsStep b t).1 = b.1 ∨ (sequenceBoundsStep b t).1 = t.taskSequence) := by
      simp only [sequenceBoundsStep]
      split <;> omega
    have h₂ : b.2 ≤ (sequenceBoundsStep b t).2 ∧ t.taskSequence ≤ (sequenceBoundsStep b t).2 ∧
        ((sequenceBoundsStep b t).2 = b.2 ∨ (sequenceBoundsStep b t).2 = t.taskSequence) := by
      simp only [sequenceBoundsStep]
      split <;> omega
    refine ⟨fun u hu => ?_, fun u hu => ?_, ih.lo_le.trans h₁.1, h₂.1.trans ih.le_hi, ?_, ?_⟩
    · rcases List.mem_cons.1 hu with rfl | hu
      · exact ih.lo_le.trans h₁.2.1
      · exact ih.below u hu
    · rcases List.mem_cons.1 hu with rfl | hu
      · exact h₂.2.1.trans ih.le_hi
      · exact ih.above u hu
    · rcases ih.lo_of with h | ⟨u, hu, h⟩
      · exact h₁.2.2.imp h.trans fun h' => ⟨t, List.mem_cons_self _ _, h.trans h'⟩
      · exact .inr ⟨u, List.mem_cons_of_mem _ hu, h⟩
    · rcases ih.hi_of with h | ⟨u, hu, h⟩
      · exact h₂.2.2.imp h.trans fun h' => ⟨t, List.mem_cons_self _ _, h.trans h'⟩
      · exact .inr ⟨u, List.mem_cons_of_mem _ hu, h⟩

/-- What the response reports about a page: its fire times and sequences bound the page's, and
    each is the fire time or sequence of a task of it. -/
structure ResponseBounds (resp : GetTimerTasksResponse) (rows : List TimerTaskRow) : Prop where
  fires : ∀ t ∈ rows, resp.minFireTimestampSecondsInclusive ≤ t.fireTimeUnixSeconds ∧
    t.fireTimeUnixSeconds ≤ resp.maxFireTimestampSecondsInclusive
  sequences : ∀ t ∈ rows, resp.minSequenceInclusive ≤ t.taskSequence ∧
    (t.taskSequence : Int) ≤ resp.maxSequenceInclusive
  minFire_mem : ∃ t ∈ rows, resp.minFireTimestampSecondsInclusive = t.fireTimeUnixSeconds
  maxFire_mem : ∃ t ∈ rows, resp.maxFireTimestampSecondsInclusive = t.fireTimeUnixSeconds
  minSequence_mem : ∃ t ∈ rows, resp.minSequenceInclusive = t.taskSequence
  maxSequence_mem : ∃ t ∈ rows, resp.maxSequenceInclusive = t.taskSequence

/-- The response for a non-empty page in the query's order whose sequences fit in an `int64`
    reports bounds of the page taken from it. -/
theorem timer_page_response_bounds (shardId : Nat) (rows : List TimerTaskRow)
    (reqPageSize : Option Nat) (hsorted : rows.Pairwise (fun a b => timerOrder a b))
    (hfit : ∀ t ∈ rows, (t.taskSequence : Int) ≤ maxInt64) (hne : rows ≠ []) :
    ResponseBounds (createGetTimerTaskResponse shardId rows reqPageSize) rows := by
  obtain ⟨first, rest, rfl⟩ := List.exists_cons_of_ne_nil hne
  obtain ⟨ys, hys⟩ := List.getLast?_eq_some_iff.1
    (List.getLast?_eq_getLast (first :: rest) (List.cons_ne_nil _ _))
  set last := (first :: rest).getLast (List.cons_ne_nil _ _)
  obtain ⟨hmin, hmax, hlo, hhi⟩ := @createGetTimerTaskResponse_of_getLast? shardId
    (first :: rest) first last reqPageSize rfl (List.getLast?_eq_getLast _ (List.cons_ne_nil _ _))
  have hb := sequenceBounds_foldl (first :: rest) (maxInt64, minInt64)
  have hfirst : ∀ t ∈ first :: rest, first.fireTimeUnixSeconds ≤ t.fireTimeUnixSeconds := by
    intro t ht
    rcases List.mem_cons.1 ht with rfl | ht
    · exact le_rfl
    · exact fire_le_of_timerOrder (List.rel_of_pairwise_cons hsorted ht)
  have hlast : ∀ t ∈ first :: rest, t.fireTimeUnixSeconds ≤ last.fireTimeUnixSeconds := by
    rw [hys] at hsorted ⊢
    intro t ht
    rcases List.mem_append.1 ht with ht | ht
    · exact fire_le_of_timerOrder
        ((List.pairwise_append.1 hsorted).2.2 t ht last (List.mem_singleton_self _))
    · exact List.mem_singleton.1 ht ▸ le_rfl
  have hmem : first ∈ first :: rest := List.mem_cons_self _ _
  refine ⟨fun t ht => ⟨hmin ▸ hfirst t ht, hmax ▸ hlast t ht⟩,
    fun t ht => ⟨hlo ▸ hb.below t ht, hhi ▸ hb.above t ht⟩, ⟨first, hmem, hmin⟩,
    ⟨last, List.getLast_mem _, hmax⟩, ?_, ?_⟩
  · rcases hb.lo_of with h | h
    · have h₁ := hb.below first hmem
      have h₂ := hfit first hmem
      dsimp only at h
      exact ⟨first, hmem, by omega⟩
    · exact hlo ▸ h
  · rcases hb.hi_of with h | h
    · have h₁ := hb.above first hmem
      have h₂ : minInt64 < 0 := by unfold minInt64; omega
      have h₃ : (0 : Int) ≤ first.taskSequence := Int.natCast_nonneg _
      dsimp only at h
      omega
    · exact hhi ▸ h

/-- A page of two due timers, in the query's order. -/
def exampleTimerPage : List TimerTaskRow :=
  [⟨0, 5, 0, .minted 0, "S", 1, .waitUntil, {}⟩, ⟨0, 7, 1, .minted 0, "T", 1, .execute, {}⟩]

theorem example_timer_page_response_bounds :
    exampleTimerPage.Pairwise (fun a b => timerOrder a b) ∧
      (∀ t ∈ exampleTimerPage, (t.taskSequence : Int) ≤ maxInt64) ∧ exampleTimerPage ≠ [] ∧
      ResponseBounds (createGetTimerTaskResponse 0 exampleTimerPage (some 2)) exampleTimerPage :=
  have hsorted : exampleTimerPage.Pairwise (fun a b => timerOrder a b) := by decide
  have hfit : ∀ t ∈ exampleTimerPage, (t.taskSequence : Int) ≤ maxInt64 := by
    simp [exampleTimerPage, maxInt64]
  ⟨hsorted, hfit, List.cons_ne_nil _ _,
    timer_page_response_bounds 0 exampleTimerPage (some 2) hsorted hfit (List.cons_ne_nil _ _)⟩

end Xdb
