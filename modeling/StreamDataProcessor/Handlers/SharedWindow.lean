import StreamDataProcessor.Handlers.GroupDispatcher
import StreamDataProcessor.Handlers.LateRows

/-!
# Groups in one window handler

A window is cut where the fields of neighbours in the buffer differ, whatever their groups
are, and what is not cut is emitted with the metadata of its first batch. Neighbours of
different groups stay apart when their fields differ, or when the first of them is forgotten
before a boundary that the second is emitted at.
-/

namespace StreamDataProcessor.Handlers.Window

open Foundation Foundation.Effect Foundation.HoppingWindow Arrow Metadata Utils

set_option autoImplicit false

def schemaGroup (schema : Schema) : RecordBatchGroup := schema.metadata.group.getD {}

/-- With the same fields, two schemas are of the same group. -/
def Compatible (first second : Schema) : Prop :=
  first.equalFields second → schemaGroup first = schemaGroup second

instance (first second : Schema) : Decidable (Compatible first second) :=
  inferInstanceAs (Decidable (_ → _))

def isOld (oldest : Int) (batch : RecordBatch) : Bool :=
  (times batch).all fun time => decide (time < oldest)

/-- The schemas in a buffer, from its first batch with a row that is not old. -/
def heldSchemas (oldest : Int) (buffer : List RecordBatch) : List Schema :=
  (buffer.dropWhile (isOld oldest)).map RecordBatch.schema

def nextOf (handler : WindowHandler) (batch : RecordBatch) : Int :=
  if handler.nextEmit = 0 then firstEmit handler.options ((arrived batch).headD 0)
  else handler.nextEmit

def comingSchemas (upper : Int) (batch : RecordBatch) : List Schema :=
  if (times batch).any fun time => decide (time < upper) then [batch.schema] else []

/-- At every boundary that the batch reaches, neighbours with the same fields are of the same
group, in what is still held and the rows of the batch before the boundary. -/
def Unmixed (handler : WindowHandler) (batch : RecordBatch) : Prop :=
  ∀ index < dueCount (nextOf handler batch) handler.options.every (clock batch),
    let upper := boundary (nextOf handler batch) handler.options.every index
    (heldSchemas (upper - handler.options.period) handler.bufferedRecordBatches ++
      comingSchemas upper batch).IsChain Compatible

instance (handler : WindowHandler) (batch : RecordBatch) : Decidable (Unmixed handler batch) :=
  inferInstanceAs (Decidable (∀ index < _, _))

/-- A batch that waits in a buffer, cut from one that came in. -/
def PartOf (inputs : List RecordBatch) (part : RecordBatch) : Prop :=
  ∃ input ∈ inputs, part.schema = input.schema ∧ List.Subperm part.rows input.rows

/-- The rows of a batch are those of parts of incoming batches, all of the group that the batch
carries. -/
def OneGroup (inputs : List RecordBatch) (batch : RecordBatch) : Prop :=
  ∃ parts : List (List Row), batch.rows = parts.flatten ∧ ∀ part ∈ parts, ∃ input ∈ inputs,
    extractGroup input = extractGroup batch ∧ input.schema.equalFields batch.schema ∧
      List.Subperm part input.rows

section Held

variable {name : String}

theorem held_append (oldest : Int) (earlier later : List RecordBatch) :
    heldSchemas oldest (earlier ++ later) =
      if heldSchemas oldest earlier = [] then heldSchemas oldest later
      else heldSchemas oldest earlier ++ later.map RecordBatch.schema := by
  unfold heldSchemas
  rw [List.dropWhile_append]
  by_cases forgotten : earlier.dropWhile (isOld oldest) = []
  · rw [forgotten]
    rfl
  · rw [if_neg (by simpa using forgotten), if_neg (by simpa using forgotten), List.map_append]

/-- From some time on, one buffer is held as another is. -/
def HeldAs (oldest : Int) (stream buffer : List RecordBatch) : Prop :=
  ∀ later, oldest ≤ later → heldSchemas later buffer = heldSchemas later stream

theorem held_as_refl (oldest : Int) (buffer : List RecordBatch) : HeldAs oldest buffer buffer :=
  fun _ _ => rfl

theorem held_as_trans {oldest later : Int} {stream middle buffer : List RecordBatch}
    (le : oldest ≤ later) (first : HeldAs oldest stream middle)
    (second : HeldAs later middle buffer) : HeldAs later stream buffer := by
  intro time after
  rw [second time after, first time (le.trans after)]

theorem held_as_append {oldest : Int} {stream buffer : List RecordBatch}
    (held : HeldAs oldest stream buffer) (coming : List RecordBatch) :
    HeldAs oldest (stream ++ coming) (buffer ++ coming) := by
  intro later after
  rw [held_append, held_append, held later after]

/-- A trimmed buffer is held as the buffer was, and none of it is old. -/
theorem trimmed_held {oldest : Int} {buffer kept : List RecordBatch}
    (trimmed : Trimmed oldest buffer kept) (keeps : ∀ batch ∈ buffer, Kept name batch) :
    HeldAs oldest buffer kept ∧ heldSchemas oldest kept = kept.map RecordBatch.schema := by
  induction trimmed with
  | empty => exact ⟨held_as_refl _ _, rfl⟩
  | @dropped batch rest kept old others induction =>
      obtain ⟨held, whole⟩ := induction fun other member => keeps other (by simp [member])
      refine ⟨?_, whole⟩
      intro later after
      have allOld : isOld later batch = true := by
        rw [isOld, List.all_eq_true]
        intro time member
        obtain ⟨row, inRows, rfl⟩ := List.mem_map.mp member
        have before := old (keeps batch (by simp)).chronological row inRows
        exact decide_eq_true (by omega)
      rw [held later after, heldSchemas, heldSchemas, List.dropWhile_cons_of_pos allOld]
  | @cut batch rest position recent filtered =>
      have rows := filtered (keeps batch (by simp)).chronological
      have left : times (batch.sliceFrom position) =
          (times batch).filter fun time => decide (oldest ≤ time) := by
        rw [times, times, List.filter_map, rows]
        rfl
      have same : ∀ later, oldest ≤ later →
          isOld later (batch.sliceFrom position) = isOld later batch := by
        intro later after
        rw [isOld, isOld, left, List.all_filter]
        apply List.all_congr rfl
        intro time
        by_cases old : time < oldest
        · have before : time < later := by omega
          simp [before]
        · simp [Int.not_lt.mp old]
      constructor
      · intro later after
        unfold heldSchemas
        rw [List.dropWhile_cons, List.dropWhile_cons, same later after]
        split <;> rfl
      · have inhabited : ¬isOld oldest (batch.sliceFrom position) = true := by
          rw [isOld, left, List.all_filter, Bool.not_eq_true, List.all_eq_false]
          obtain ⟨row, member⟩ := List.exists_mem_of_ne_nil _ recent
          rw [rows] at member
          obtain ⟨inRows, notOld⟩ := List.mem_filter.mp member
          refine ⟨batchSeconds batch row, List.mem_map_of_mem inRows, ?_⟩
          have after := of_decide_eq_true notOld
          simp [after]
        rw [heldSchemas, List.dropWhile_cons_of_neg inhabited]

theorem compatible_refl (schema : Schema) : Compatible schema schema := fun _ => rfl

theorem constant_chain {schema : Schema} {schemas : List Schema}
    (constant : ∀ other ∈ schemas, other = schema) : schemas.IsChain Compatible := by
  induction schemas with
  | nil => exact .nil
  | cons first rest induction =>
      rw [List.forall_mem_cons] at constant
      rw [List.isChain_cons]
      refine ⟨?_, induction constant.2⟩
      intro second isHead
      rw [constant.1, constant.2 second (List.mem_of_mem_head? isHead)]
      exact compatible_refl _

theorem held_parts_chain {oldest : Int} {buffer slices : List RecordBatch} {schema : Schema}
    {coming : List Schema} (chain : (heldSchemas oldest buffer ++ coming).IsChain Compatible)
    (constant : ∀ slice ∈ slices, slice.schema = schema)
    (comes : slices ≠ [] → coming = [schema]) :
    (heldSchemas oldest (buffer ++ slices)).IsChain Compatible := by
  have same : ∀ other ∈ slices.map RecordBatch.schema, other = schema :=
    List.forall_mem_map.mpr constant
  rw [held_append]
  split
  · apply constant_chain
    intro other member
    apply same
    exact ((List.dropWhile_sublist _).map _).subset member
  · rw [List.isChain_append] at chain ⊢
    refine ⟨chain.1, constant_chain same, ?_⟩
    intro last isLast first isFirst
    rw [same first (List.mem_of_mem_head? isFirst)]
    apply chain.2.2 last isLast
    rw [comes (by rintro rfl; cases isFirst)]
    rfl

end Held

section Emitted

theorem compatible_run {run : List RecordBatch} {schema : Schema}
    (chain : (run.map RecordBatch.schema).IsChain Compatible)
    (fields : ∀ batch ∈ run, batch.schema.equalFields schema)
    (first : ∀ batch ∈ run.head?, schemaGroup batch.schema = schemaGroup schema) :
    ∀ batch ∈ run, schemaGroup batch.schema = schemaGroup schema := by
  induction run with
  | nil => exact fun _ member => by cases member
  | cons batch rest induction =>
      rw [List.forall_mem_cons] at fields ⊢
      have own := first batch rfl
      rw [List.map_cons, List.isChain_cons] at chain
      refine ⟨own, induction chain.2 fields.2 ?_⟩
      intro next isHead
      have neighbour := chain.1 next.schema (by
        rw [List.head?_map, Option.mem_def.mp isHead]
        rfl)
      have same := fields.2 next (List.mem_of_mem_head? isHead)
      rw [← neighbour (fields.1.trans same.symm), own]

theorem compatible_windows {inputs kept window : List RecordBatch}
    (emitted : EmittedAs kept window) (parts : ∀ batch ∈ kept, PartOf inputs batch)
    (chain : (kept.map RecordBatch.schema).IsChain Compatible) :
    ∀ batch ∈ window, OneGroup inputs batch := by
  intro result member
  obtain ⟨⟨runs, covers, joined⟩, _⟩ := emitted
  obtain ⟨run, inRuns, own⟩ := exists_of_forall₂ joined.flip member
  have inside : run <:+: kept := covers ▸ List.infix_of_mem_flatten inRuns
  have neighbours : (run.map RecordBatch.schema).IsChain Compatible := chain.infix (inside.map _)
  have same := compatible_run neighbours own.fields (by
    intro batch isHead
    have schema := own.schema
    rw [Option.mem_def.mp isHead, Option.map_some, Option.some.injEq] at schema
    rw [schema])
  refine ⟨run.map RecordBatch.rows, own.rows, ?_⟩
  rw [List.forall_mem_map]
  intro part inRun
  obtain ⟨input, listed, schema, rows⟩ := parts part (inside.subset inRun)
  refine ⟨input, listed, ?_, ?_, rows⟩
  · have group := same part inRun
    rw [schema] at group
    exact group
  · rw [← schema]
    exact own.fields part inRun

end Emitted

/-- The handler that several groups share holds parts of what came in. -/
structure Shared (name : String) (inputs : List RecordBatch) (handler : WindowHandler) : Prop where
  kept : ∀ batch ∈ handler.bufferedRecordBatches, Kept name batch
  parts : ∀ batch ∈ handler.bufferedRecordBatches, PartOf inputs batch

/-- A batch with rows that all have times under the name. -/
structure Arriving (name : String) (batch : RecordBatch) : Prop where
  timed : ∃ time, timeColumn batch.schema = some time ∧ time.name = name
  nonempty : batch.rows ≠ []
  full : FullyTimed batch.schema batch.rows

section Turns

variable {name : String} {inputs : List RecordBatch}

theorem part_of_subperm {part whole : RecordBatch} (known : PartOf inputs whole)
    (schema : part.schema = whole.schema) (rows : List.Subperm part.rows whole.rows) :
    PartOf inputs part := by
  obtain ⟨input, listed, isSchema, subperm⟩ := known
  exact ⟨input, listed, schema.trans isSchema, rows.trans subperm⟩

theorem trimmed_parts {oldest : Int} {buffer kept : List RecordBatch}
    (trimmed : Trimmed oldest buffer kept) (parts : ∀ batch ∈ buffer, PartOf inputs batch) :
    ∀ batch ∈ kept, PartOf inputs batch := by
  induction trimmed with
  | empty => exact parts
  | dropped old others induction =>
      exact induction fun batch member => parts batch (by simp [member])
  | @cut batch rest position recent filtered =>
      rw [List.forall_mem_cons] at parts ⊢
      exact ⟨part_of_subperm parts.1 rfl (List.drop_sublist _ _).subperm, parts.2⟩

/-- Between the turns of a call: the buffer is held as the one that the call found, followed by
parts of its batch. -/
structure Turning (name : String) (inputs : List RecordBatch) (ready : WindowHandler)
    (sorted : RecordBatch) (handler : WindowHandler) (rest : RecordBatch) : Prop where
  shared : Shared name inputs handler
  own : Kept name rest
  part : PartOf inputs rest
  sameOptions : handler.options = ready.options
  atBoundary : ∃ index, handler.nextEmit = boundary ready.nextEmit ready.options.every index
  schema : rest.schema = sorted.schema
  rows : ∀ time ∈ times rest, time ∈ times sorted
  held : ∃ slices, (∀ slice ∈ slices, slice.schema = sorted.schema) ∧
    (slices ≠ [] → ∃ time ∈ times sorted, time < handler.nextEmit) ∧
    HeldAs (handler.nextEmit - ready.options.period) (ready.bufferedRecordBatches ++ slices)
      handler.bufferedRecordBatches

theorem turning_start {ready : WindowHandler} {sorted : RecordBatch}
    (shared : Shared name inputs ready) (own : Kept name sorted) (part : PartOf inputs sorted) :
    Turning name inputs ready sorted ready sorted where
  shared := shared
  own := own
  part := part
  sameOptions := rfl
  atBoundary := ⟨0, by simp [boundary]⟩
  schema := rfl
  rows := fun _ member => member
  held := by
    refine ⟨[], fun _ member => (by cases member), fun inhabited => absurd rfl inhabited, ?_⟩
    rw [List.append_nil]
    exact held_as_refl _ _

/-- The buffer of a due turn is the one before, and a part of the batch that is not empty. -/
theorem due_buffer_cases {handler : WindowHandler} {sortedRecordBatch : RecordBatch}
    {position : Nat} {kept final window : List RecordBatch}
    (own : Kept name sortedRecordBatch)
    (turn : DueTurn handler sortedRecordBatch position kept final window) :
    ∃ coming, dueBuffer handler sortedRecordBatch position =
        handler.bufferedRecordBatches ++ coming ∧
      ∀ slice ∈ coming, slice.schema = sortedRecordBatch.schema ∧ Kept name slice ∧
        List.Subperm slice.rows sortedRecordBatch.rows ∧
        ∃ time ∈ times sortedRecordBatch, time < handler.nextEmit := by
  unfold dueBuffer
  split
  · next started =>
    refine ⟨[sortedRecordBatch.slice 0 position], rfl, ?_⟩
    rw [List.forall_mem_singleton]
    have taken := (turn.cuts own.chronological).1
    have rows : (sortedRecordBatch.slice 0 position).rows =
        sortedRecordBatch.rows.take position := by rw [slice_rows, List.drop_zero]
    have inhabited : (sortedRecordBatch.slice 0 position).rows ≠ [] := by
      intro empty
      have length := congrArg List.length empty
      have remains := turn.remains
      simp only [rows, List.length_take, List.length_nil] at length
      omega
    obtain ⟨row, member⟩ := List.exists_mem_of_ne_nil _ inhabited
    rw [rows, taken] at member
    obtain ⟨inRows, before⟩ := List.mem_filter.mp member
    refine ⟨slice_schema _ _ _, ⟨⟨own.buffered.timed, inhabited⟩, own.named, ?_⟩, ?_,
      ⟨_, List.mem_map_of_mem inRows, of_decide_eq_true before⟩⟩
    · exact List.Pairwise.sublist (List.take_sublist _ _) own.chronological
    · rw [rows]
      exact (List.take_sublist _ _).subperm
  · next none =>
    exact ⟨[], (List.append_nil _).symm, fun _ member => by cases member⟩

/-- A due turn keeps the parts of the groups, and emits one group in each batch where the
neighbours at its boundary are compatible. -/
theorem turning_turn {ready : WindowHandler} {sorted : RecordBatch} {handler : WindowHandler}
    {rest : RecordBatch} {position : Nat} {kept final window : List RecordBatch}
    (positive : 1 ≤ ready.options.every)
    (turning : Turning name inputs ready sorted handler rest)
    (turn : DueTurn handler rest position kept final window) :
    Turning name inputs ready sorted
        { handler with
          bufferedRecordBatches := final
          emittedFirst := true
          nextEmit := handler.nextEmit + handler.options.every }
        (rest.sliceFrom position) ∧
      ((heldSchemas (handler.nextEmit - ready.options.period) ready.bufferedRecordBatches ++
        comingSchemas handler.nextEmit sorted).IsChain Compatible →
        ∀ batch ∈ window, OneGroup inputs batch) := by
  obtain ⟨shared, own, part, sameOptions, ⟨index, isBoundary⟩, schema, rows, slices, constant,
    early, held⟩ := turning
  obtain ⟨coming, isDue, comes⟩ := due_buffer_cases own turn
  have keptDue : ∀ batch ∈ dueBuffer handler rest position, Kept name batch := by
    rw [isDue, List.forall_mem_append]
    exact ⟨shared.kept, fun slice member => (comes slice member).2.1⟩
  have partsDue : ∀ batch ∈ dueBuffer handler rest position, PartOf inputs batch := by
    rw [isDue, List.forall_mem_append]
    exact ⟨shared.parts, fun slice member =>
      part_of_subperm part (comes slice member).1 (comes slice member).2.2.1⟩
  have partsKept := trimmed_parts turn.trims partsDue
  have turnTimes := due_turn_times shared.kept own turn
  obtain ⟨heldKept, wholeKept⟩ := trimmed_held turn.trims keptDue
  obtain ⟨keptKept, _⟩ := trimmed_times turn.trims keptDue
  obtain ⟨heldFinal, _⟩ := trimmed_held turn.advances keptKept
  have constantToo : ∀ slice ∈ slices ++ coming, slice.schema = sorted.schema := by
    rw [List.forall_mem_append]
    exact ⟨constant, fun slice member => ((comes slice member).1).trans schema⟩
  have earlyToo : slices ++ coming ≠ [] → ∃ time ∈ times sorted, time < handler.nextEmit := by
    intro inhabited
    rcases List.eq_nil_or_concat' coming with rfl | ⟨_, slice, isComing⟩
    · exact early (by simpa using inhabited)
    · obtain ⟨_, _, _, time, inRest, before⟩ := comes slice (by simp [isComing])
      exact ⟨time, rows time inRest, before⟩
  have heldDue : HeldAs (handler.nextEmit - ready.options.period)
      (ready.bufferedRecordBatches ++ (slices ++ coming)) kept := by
    rw [← List.append_assoc]
    rw [sameOptions, isDue] at heldKept
    exact held_as_trans (Int.le_refl _) (held_as_append held coming) heldKept
  refine ⟨⟨⟨turnTimes.kept, trimmed_parts turn.advances partsKept⟩, turnTimes.rest,
    part_of_subperm part rfl (List.drop_sublist _ _).subperm, sameOptions, ⟨index + 1, ?_⟩, schema,
    ?_, slices ++ coming, constantToo, ?_, ?_⟩, ?_⟩
  · dsimp only
    rw [boundary_add, ← isBoundary, sameOptions]
    simp [boundary]
  · intro time member
    apply rows
    rw [turnTimes.split]
    exact List.mem_append_right _ member
  · intro inhabited
    obtain ⟨time, member, before⟩ := earlyToo inhabited
    refine ⟨time, member, ?_⟩
    dsimp only
    rw [sameOptions]
    omega
  · dsimp only
    rw [sameOptions] at heldFinal ⊢
    exact held_as_trans (by omega) heldDue heldFinal
  · intro chain
    apply compatible_windows turn.emits partsKept
    rw [sameOptions] at wholeKept
    rw [← wholeKept, heldDue _ (Int.le_refl _)]
    apply held_parts_chain chain constantToo
    intro inhabited
    obtain ⟨time, member, before⟩ := earlyToo inhabited
    rw [comingSchemas, if_pos (List.any_eq_true.mpr ⟨time, member, decide_eq_true before⟩)]

end Turns

section Calls

variable {name : String} {inputs : List RecordBatch}

theorem coming_sorted (upper : Int) (batch : RecordBatch) (index : Nat) :
    comingSchemas upper (batch.sortRows index) = comingSchemas upper batch := by
  have perm : List.Perm (times (batch.sortRows index)) (times batch) :=
    (sort_rows_perm batch index).map _
  have same : (times (batch.sortRows index)).any (fun time => decide (time < upper)) =
      (times batch).any fun time => decide (time < upper) := by
    rw [Bool.eq_iff_iff, List.any_eq_true, List.any_eq_true]
    simp only [perm.mem_iff]
  rw [comingSchemas, comingSchemas, same]
  rfl

theorem next_of_started {handler : WindowHandler} {batch : RecordBatch} {time : TimeColumn}
    (found : timeColumn batch.schema = some time)
    (full : FullyTimed batch.schema batch.rows) :
    (started handler (batch.sortRows time.index)).nextEmit = nextOf handler batch := by
  unfold started startedIn nextOf
  split
  · rw [first_seconds_arrived found full]
  · rfl

/-- The handler and the rest of the batch that a call leaves to the next one. -/
theorem shared_buffering {handler : WindowHandler} {rest : RecordBatch}
    (shared : Shared name inputs handler) (own : Kept name rest) (part : PartOf inputs rest) :
    Shared name inputs
      { handler with bufferedRecordBatches := handler.bufferedRecordBatches ++ [rest] } := by
  constructor
  · rw [List.forall_mem_append, List.forall_mem_singleton]
    exact ⟨shared.kept, own⟩
  · rw [List.forall_mem_append, List.forall_mem_singleton]
    exact ⟨shared.parts, part⟩

/-- A call that finds its groups unmixed emits one group in each batch. -/
theorem shared_call {handler : WindowHandler} {batch : RecordBatch}
    (arriving : Arriving name batch) (listed : batch ∈ inputs)
    (shared : Shared name inputs handler) :
    Ends (fun fault _ => fault = .diverges)
      (fun windows after => Shared name inputs after ∧
        (Unmixed handler batch → ∀ window ∈ windows, OneGroup inputs window))
      (handle batch handler) := by
  obtain ⟨⟨time, found, rfl⟩, nonempty, full⟩ := arriving
  have own := kept_sort_rows found nonempty full
  have part : PartOf inputs (batch.sortRows time.index) :=
    ⟨batch, listed, rfl, (sort_rows_perm batch time.index).subperm⟩
  have sharedToo : Shared time.name inputs (started handler (batch.sortRows time.index)) := by
    constructor
    · rw [started_buffer]
      exact shared.kept
    · rw [started_buffer]
      exact shared.parts
  have running : Running time (lastSeconds (batch.sortRows time.index))
      (started handler (batch.sortRows time.index)) (batch.sortRows time.index) :=
    ⟨found, own.buffered.nonempty, rfl, fun other member => (sharedToo.kept other member).buffered⟩
  by_cases due : (started handler (batch.sortRows time.index)).nextEmit ≤
      lastSeconds (batch.sortRows time.index)
  · by_cases positive : 1 ≤ handler.options.every
    · obtain ⟨emissions, rest, after, looped, final, _, _, each, _⟩ := @emission_turns_return time
        (lastSeconds (batch.sortRows time.index))
        (Turning time.name inputs (started handler (batch.sortRows time.index))
          (batch.sortRows time.index))
        (fun emission => Unmixed handler batch →
          ∀ window ∈ emission.window, OneGroup inputs window)
        (by
          intro middle sorted position kept final window turning reached _ turn
          obtain ⟨next, emits⟩ := turning_turn (by rw [started_options]; exact positive) turning turn
          refine ⟨next, fun unmixed => emits ?_⟩
          obtain ⟨index, isBoundary⟩ := turning.atBoundary
          rw [started_options, next_of_started found full] at isBoundary
          rw [started_options, started_buffer, coming_sorted, isBoundary]
          apply unmixed
          rw [lt_due_count_iff (by omega), ← clock_eq found full, ← isBoundary]
          exact reached)
        (turnBound (lastSeconds (batch.sortRows time.index))
          (started handler (batch.sortRows time.index)).nextEmit) _ _ running
        (turning_start sharedToo own part) (by rw [started_options]; exact positive)
        (lt_turn_bound _ _)
      rw [handle, handle_eq_emitting, bind_apply, handle_emitting_in_eq found nonempty]
      simp only [looped, buffer_rest_ok]
      refine ⟨shared_buffering final.shared final.own final.part, ?_⟩
      intro unmixed window member
      obtain ⟨emission, emitted, inWindow⟩ := List.mem_flatMap.mp member
      exact each emission emitted unmixed window inWindow
    · obtain ⟨after, diverged⟩ := emission_loop_diverges
        (turnBound (lastSeconds (batch.sortRows time.index))
          (started handler (batch.sortRows time.index)).nextEmit) []
        running due (by rw [started_options]; omega)
      rw [handle_eq found nonempty]
      simp only [diverged, buffer_rest_error]
      rfl
  · rw [handle_eq found nonempty]
    simp only [emission_loop_early time.name (batch.sortRows time.index) [] (not_le.mp due),
      buffer_rest_ok]
    exact ⟨shared_buffering sharedToo own part, fun _ _ member => by cases member⟩

def emittedWindows : WindowHandler → List RecordBatch → List RecordBatch
  | _, [] => []
  | handler, batch :: rest =>
      match handle batch handler with
      | .ok windows after => windows ++ emittedWindows after rest
      | .error _ _ => []

def UnmixedCalls : WindowHandler → List RecordBatch → Prop
  | _, [] => True
  | handler, batch :: rest =>
      Unmixed handler batch ∧
      match handle batch handler with
      | .ok _ after => UnmixedCalls after rest
      | .error _ _ => True

def decideUnmixedCalls : (handler : WindowHandler) → (batches : List RecordBatch) →
    Decidable (UnmixedCalls handler batches)
  | _, [] => .isTrue trivial
  | handler, batch :: rest =>
      match returned : handle batch handler with
      | .ok _ after =>
          have := decideUnmixedCalls after rest
          decidable_of_iff (Unmixed handler batch ∧ UnmixedCalls after rest)
            (by rw [UnmixedCalls, returned])
      | .error _ _ =>
          decidable_of_iff (Unmixed handler batch) (by rw [UnmixedCalls, returned, and_true])

instance (handler : WindowHandler) (batches : List RecordBatch) :
    Decidable (UnmixedCalls handler batches) := decideUnmixedCalls handler batches

/-- Calls of one handler for the batches of a flush. -/
theorem shared_calls {handler : WindowHandler} {batches : List RecordBatch}
    (arriving : ∀ batch ∈ batches, Arriving name batch)
    (listed : ∀ batch ∈ batches, batch ∈ inputs) (shared : Shared name inputs handler) :
    Ends (fun fault _ => fault = .diverges)
        (fun windows after => Shared name inputs after ∧
          windows = emittedWindows handler batches)
        (handleVector handle batches handler) ∧
      (UnmixedCalls handler batches →
        ∀ window ∈ emittedWindows handler batches, OneGroup inputs window) := by
  induction batches generalizing handler with
  | nil => exact ⟨⟨shared, rfl⟩, fun _ _ member => by cases member⟩
  | cons batch rest induction =>
      rw [List.forall_mem_cons] at arriving listed
      have first := shared_call arriving.1 listed.1 shared
      change Ends _ _ ((handle batch >>= fun windows =>
        handleVector handle rest >>= fun later => pure (windows ++ later)) handler) ∧ _
      rw [bind_apply, emittedWindows, UnmixedCalls]
      cases returned : handle batch handler with
      | error fault after =>
          rw [returned] at first
          exact ⟨first, fun _ _ member => by cases member⟩
      | ok windows after =>
          rw [returned] at first
          obtain ⟨others, unmixedOthers⟩ := induction arriving.2 listed.2 first.1
          constructor
          · dsimp only
            refine ends_bind others ?_
            rintro later final ⟨sharedFinal, rfl⟩
            exact ⟨sharedFinal, rfl⟩
          · rintro ⟨unmixed, calls⟩
            rw [List.forall_mem_append]
            exact ⟨first.2 unmixed, unmixedOthers calls⟩

end Calls

end StreamDataProcessor.Handlers.Window
