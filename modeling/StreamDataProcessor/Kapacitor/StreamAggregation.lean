import StreamDataProcessor.Handlers.SharedWindow
import StreamDataProcessor.Kapacitor.GroupIsolation

/-!
# Groups in the stream aggregate

One window handler takes the batches of all groups. In a run in which every call of it finds
its groups unmixed, every window has the rows of one group, and so has every result.
-/

namespace StreamDataProcessor.Kapacitor.StreamAggregation

open Foundation Foundation.Effect Arrow Metadata Utils Handlers PointsConverter
open Window (WindowHandler Shared Arriving OneGroup UnmixedCalls emittedWindows)

set_option autoImplicit false

section Arrivals

variable {options : ConversionOptions} {points : List Point} {groupString : String}

theorem converted_time_column {recordBatch : RecordBatch}
    (converted : convertPointsGroup options groupString points = .ok recordBatch) :
    timeColumn recordBatch.schema = some ⟨options.timeColumnName, 0, .nano⟩ := by
  obtain ⟨_, _, schema, _⟩ := convert_points_group_result converted
  unfold convertPointsGroup at converted
  dsimp only at converted
  split at converted
  · cases converted
  · obtain ⟨timedBatch, timed, _⟩ := except_bind_ok_cases converted
    have onlyTime : (columnNames options points).count options.timeColumnName = 1 := by
      rw [← group_schema_names]
      exact column_located_of_set timed
    have names : recordBatch.schema.fieldNames = columnNames options points := by
      rw [schema]
      exact group_schema_names _
    have located : recordBatch.schema.fieldIndex options.timeColumnName = some 0 := by
      rw [Schema.fieldIndex, names, if_pos onlyTime, columnNames, List.idxOf_cons_self]
    have named : recordBatch.schema.metadata.timeColumnName = some options.timeColumnName := by
      rw [schema]
    have typed : recordBatch.schema.types[0]? = some (.timestamp .nano) := by
      rw [schema]
      rfl
    simp only [timeColumn, named, located, typed, Option.bind_eq_bind, Option.bind_some]

theorem converted_arrives {recordBatch : RecordBatch} (points_some : points ≠ [])
    (converted : convertPointsGroup options groupString points = .ok recordBatch) :
    Arriving options.timeColumnName recordBatch := by
  have found := converted_time_column converted
  obtain ⟨_, _, _, rows⟩ := convert_points_group_result converted
  refine ⟨⟨_, found, rfl⟩, ?_, ?_⟩
  · rw [rows, ne_eq, List.map_eq_nil_iff]
    exact points_some
  · intro time isTime row member
    rw [found, Option.some.injEq] at isTime
    subst isTime
    rw [rows] at member
    obtain ⟨point, _, rfl⟩ := List.mem_map.mp member
    exact ⟨point.time, rfl⟩

end Arrivals

variable (orders : MapOrders) (renderScalar : DataType → Value → String) (codec : PointsCodec)
variable (options : Aggregate.AggregateOptions) (tolerance : Int)

abbrev udf : StreamUdf WindowHandler := streamAggregateUdf orders renderScalar options tolerance

def arrivingBatches (points : List Point) : List RecordBatch :=
  match (basePointsConverter orders.pointGroups renderScalar).convertToRecordBatches points with
  | .ok recordBatches => recordBatches
  | .error _ => []

def inputsUpTo (flushes : List (List Point)) (count : Nat) : List RecordBatch :=
  (flushes.take count).flatMap (arrivingBatches orders renderScalar)

/-- What the UDF has after the first flushes of a run; nothing once an exception has ended it. -/
def contentsAt (flushes : List (List Point)) (count : Nat) : Option (Contents WindowHandler) :=
  Machine.stateAt ((udf orders renderScalar options tolerance).turn renderScalar codec)
    (some (udf orders renderScalar options tolerance).fresh) flushes count

/-- A result is what the windows of one group aggregate to, and their rows are of the group. -/
def AggregatedAlone (inputs windows : List RecordBatch) (result : RecordBatch) : Prop :=
  ∃ front ∈ windows.head?, ∃ group raw,
    Aggregate.aggregateGroup renderScalar
      { options with aggregateColumns := orders.aggregateColumns options.aggregateColumns }
      front windows (Aggregate.batchesOf group windows) = .ok raw ∧
    raw.trusted = .ok result ∧
    ∀ window ∈ Aggregate.batchesOf group windows, OneGroup inputs window

/-- In every flush of a run, every window has the rows of one group, and every result is of the
windows of one group. -/
def AggregatesPerGroup (flushes : List (List Point)) : Prop :=
  ∀ count, (bound : count < flushes.length) → ∀ contents,
    contentsAt orders renderScalar codec options tolerance flushes count = some contents →
    let inputs := inputsUpTo orders renderScalar flushes (count + 1)
    let arriving := arrivingBatches orders renderScalar flushes[count]
    let windows := emittedWindows contents.handler arriving
    (∀ window ∈ windows, OneGroup inputs window) ∧
      ∀ results after, streamAggregatePipeline orders renderScalar options arriving
          contents.handler = .ok results after →
        ∀ result ∈ results, AggregatedAlone orders renderScalar options inputs windows result

/-- A flush of a UDF that is still there finds its groups unmixed in every call. -/
def UnmixedTurn : Option (Contents WindowHandler) → List Point → Prop
  | none, _ => True
  | some contents, points =>
      UnmixedCalls contents.handler (arrivingBatches orders renderScalar points)

instance (contents : Option (Contents WindowHandler)) (points : List Point) :
    Decidable (UnmixedTurn orders renderScalar contents points) :=
  match contents with
  | none => .isTrue trivial
  | some contents => inferInstanceAs (Decidable (UnmixedCalls contents.handler _))

section Pipeline

variable {orders renderScalar options tolerance}
variable {inputs recordBatches : List RecordBatch} {handler : WindowHandler}

theorem aggregated_alone {windows results : List RecordBatch}
    (returned : Aggregate.handle renderScalar orders.batchGroups
      { options with aggregateColumns := orders.aggregateColumns options.aggregateColumns }
      windows = .ok results)
    (each : ∀ window ∈ windows, OneGroup inputs window) :
    ∀ result ∈ results, AggregatedAlone orders renderScalar options inputs windows result := by
  intro result member
  obtain ⟨raws, made, trusted⟩ := except_bind_ok_cases returned
  obtain ⟨raw, inRaws, isResult⟩ := mem_of_map_m trusted member
  cases windows with
  | nil =>
      cases made
      cases inRaws
  | cons front rest =>
      obtain ⟨_, _, built⟩ := except_bind_ok_cases made
      obtain ⟨group, _, own⟩ := mem_of_map_m built inRaws
      exact ⟨front, rfl, group, raw, own, isResult, fun window inGroup =>
        each window (List.mem_filter.mp inGroup).1⟩

theorem pipeline_eq :
    streamAggregatePipeline orders renderScalar options recordBatches =
      (handleVector Window.handle recordBatches >>= fun windows =>
        ofExcept (Aggregate.handle renderScalar orders.batchGroups
          { options with aggregateColumns := orders.aggregateColumns options.aggregateColumns }
          windows)) := by
  unfold streamAggregatePipeline
  simp only [PipelineHandler.handle, bind_pure]

/-- The pipeline leaves a handler that holds parts of what came in, or never returns. -/
theorem pipeline_ends (arriving : ∀ batch ∈ recordBatches, Arriving "time" batch)
    (listed : ∀ batch ∈ recordBatches, batch ∈ inputs) (shared : Shared "time" inputs handler) :
    Ends (fun fault after => fault = .diverges ∨ Shared "time" inputs after)
      (fun results after => Shared "time" inputs after ∧
        (UnmixedCalls handler recordBatches → ∀ result ∈ results,
          AggregatedAlone orders renderScalar options inputs
            (emittedWindows handler recordBatches) result))
      (streamAggregatePipeline orders renderScalar options recordBatches handler) := by
  obtain ⟨ends, unmixed⟩ := Window.shared_calls arriving listed shared
  rw [pipeline_eq]
  refine ends_bind (ends_mono ends (fun _ _ => .inl) fun _ _ both => both) ?_
  rintro windows after ⟨sharedAfter, rfl⟩
  apply ends_of_except
  · intro fault _
    exact .inr sharedAfter
  · intro results aggregated
    exact ⟨sharedAfter, fun calls => aggregated_alone aggregated (unmixed calls)⟩

end Pipeline

section Runs

theorem shared_more {inputs more : List RecordBatch} {handler : WindowHandler}
    (subset : inputs ⊆ more) (shared : Shared "time" inputs handler) :
    Shared "time" more handler := by
  refine ⟨shared.kept, ?_⟩
  intro batch member
  obtain ⟨input, listed, cut⟩ := shared.parts batch member
  exact ⟨input, subset listed, cut⟩

theorem inputs_succ {flushes : List (List Point)} {count : Nat} (bound : count < flushes.length) :
    inputsUpTo orders renderScalar flushes (count + 1) =
      inputsUpTo orders renderScalar flushes count ++
        arrivingBatches orders renderScalar flushes[count] := by
  rw [inputsUpTo, List.take_succ_eq_append_getElem bound, List.flatMap_append,
    List.flatMap_singleton]
  rfl

variable (visits : ∀ points, Visits (orders.pointGroups points) points)
include visits

theorem arriving_timed (points : List Point) :
    ∀ batch ∈ arrivingBatches orders renderScalar points, Arriving "time" batch := by
  intro batch member
  unfold arrivingBatches at member
  split at member
  · next recordBatches converted =>
    obtain ⟨groupString, inOrder, own⟩ := mem_of_map_m converted member
    obtain ⟨point, inPoints, isGroup⟩ := ((visits points).covers groupString).mp inOrder
    have inGroup : point ∈ pointsOf groupString points := by
      simpa [pointsOf] using ⟨inPoints, isGroup⟩
    exact converted_arrives (List.ne_nil_of_mem inGroup) own
  · cases member

theorem flush_shares {inputs : List RecordBatch} {points : List Point} {handler : WindowHandler}
    (listed : ∀ batch ∈ arrivingBatches orders renderScalar points, batch ∈ inputs)
    (shared : Shared "time" inputs handler)
    (survives : ((udf orders renderScalar options tolerance).flushed renderScalar points
      handler).escaping = none) :
    Shared "time" inputs ((udf orders renderScalar options tolerance).flushed renderScalar points
      handler).handler := by
  by_cases empty : points = []
  · rw [empty, StreamUdf.flushed_none]
    exact shared
  · cases converted : (basePointsConverter orders.pointGroups renderScalar).convertToRecordBatches
        points with
    | error fault =>
        rw [StreamUdf.flushed_unconverted _ renderScalar empty converted]
        exact shared
    | ok recordBatches =>
        have isArriving : arrivingBatches orders renderScalar points = recordBatches := by
          rw [arrivingBatches, converted]
        have arriving := arriving_timed orders renderScalar visits points
        rw [isArriving] at arriving listed
        have ends := @pipeline_ends orders renderScalar options inputs recordBatches handler
          arriving listed shared
        rw [StreamUdf.flushed_converted _ renderScalar empty converted] at survives ⊢
        change Flushed.escaping (StreamUdf.flushedBy _ renderScalar
          (streamAggregatePipeline orders renderScalar options recordBatches handler)) = none
          at survives
        change Shared "time" inputs (Flushed.handler (StreamUdf.flushedBy _ renderScalar
          (streamAggregatePipeline orders renderScalar options recordBatches handler)))
        cases handled : streamAggregatePipeline orders renderScalar options recordBatches
            handler with
        | error fault after =>
            rw [handled] at ends survives
            rcases ends with rfl | sharedAfter
            · cases survives
            · exact sharedAfter
        | ok results after =>
            rw [handled] at ends
            exact ends.1

theorem contents_share {flushes : List (List Point)} {count : Nat}
    (bound : count ≤ flushes.length) {contents : Contents WindowHandler}
    (reached : contentsAt orders renderScalar codec options tolerance flushes count =
      some contents) :
    contents.points = [] ∧
      Shared "time" (inputsUpTo orders renderScalar flushes count) contents.handler := by
  induction count generalizing contents with
  | zero =>
      obtain rfl := Option.some.inj reached
      exact ⟨rfl, fun _ member => (by cases member), fun _ member => (by cases member)⟩
  | succ count induction =>
      rw [contentsAt, Machine.state_at_succ _ _ _ _ bound, ← contentsAt] at reached
      cases before : contentsAt orders renderScalar codec options tolerance flushes count with
      | none =>
          rw [before] at reached
          cases reached
      | some earlier =>
          rw [before] at reached
          obtain ⟨waiting, shared⟩ := induction (by omega) before
          obtain ⟨_, left⟩ := (udf orders renderScalar options tolerance).turn_flushed renderScalar
            codec waiting flushes[count]
          cases escaping : ((udf orders renderScalar options tolerance).flushed renderScalar
              flushes[count] earlier.handler).escaping with
          | some fault =>
              rw [escaping] at left
              rw [left] at reached
              cases reached
          | none =>
              rw [escaping] at left
              obtain ⟨after, isAfter, none, isHandler⟩ := left
              obtain rfl := Option.some.inj (isAfter.symm.trans reached)
              refine ⟨none, ?_⟩
              rw [isHandler]
              apply flush_shares orders renderScalar options tolerance visits _ _ escaping
              · intro batch member
                rw [inputs_succ orders renderScalar bound]
                exact List.mem_append_right _ member
              · rw [inputs_succ orders renderScalar bound]
                exact shared_more (List.subset_append_left _ _) shared

/-- A run whose calls all find their groups unmixed aggregates each group by itself. -/
theorem unmixed_calls_aggregate_per_group (flushes : List (List Point))
    (unmixed : Machine.StepsMeet
      ((udf orders renderScalar options tolerance).turn renderScalar codec)
      (UnmixedTurn orders renderScalar)
      (some (udf orders renderScalar options tolerance).fresh) flushes) :
    AggregatesPerGroup orders renderScalar codec options tolerance flushes := by
  rw [Machine.steps_meet_iff] at unmixed
  intro count bound contents reached
  have calls := unmixed count bound
  rw [← contentsAt, reached] at calls
  obtain ⟨_, shared⟩ := contents_share orders renderScalar codec options tolerance visits
    (by omega) reached
  have sharedToo : Shared "time" (inputsUpTo orders renderScalar flushes (count + 1))
      contents.handler := by
    rw [inputs_succ orders renderScalar bound]
    exact shared_more (List.subset_append_left _ _) shared
  have listed : ∀ batch ∈ arrivingBatches orders renderScalar flushes[count],
      batch ∈ inputsUpTo orders renderScalar flushes (count + 1) := by
    intro batch member
    rw [inputs_succ orders renderScalar bound]
    exact List.mem_append_right _ member
  have arriving := arriving_timed orders renderScalar visits flushes[count]
  constructor
  · exact (Window.shared_calls arriving listed sharedToo).2 calls
  · intro results after returned
    have ends := @pipeline_ends orders renderScalar options _ _ contents.handler arriving listed
      sharedToo
    rw [returned] at ends
    exact ends.2 calls

end Runs

section Hosts

open BatchAggregateRequestHandler (keptOrders timesCodec)
open GroupedUdf (kept_orders_visit hostPointAt)

def hostsInTurn : List (List Point) :=
  [[hostPointAt 100 "host=a", hostPointAt 150 "host=b"], [hostPointAt 165 "host=a"]]

theorem hosts_in_turn_aggregate_per_group :
    AggregatesPerGroup keptOrders (fun _ _ => "") timesCodec {} 10 hostsInTurn :=
  unmixed_calls_aggregate_per_group keptOrders (fun _ _ => "") timesCodec {} 10 kept_orders_visit
    hostsInTurn (by decide +kernel)

def hostsTogether : List (List Point) :=
  [[hostPointAt 100 "host=a", hostPointAt 101 "host=b"], [hostPointAt 200 "host=a"]]

theorem one_group_rows {inputs : List RecordBatch} {batch : RecordBatch}
    (one : OneGroup inputs batch) : ∀ row ∈ batch.rows, ∃ input ∈ inputs,
      extractGroup input = extractGroup batch ∧ row ∈ input.rows := by
  obtain ⟨parts, rows, own⟩ := one
  intro row member
  rw [rows] at member
  obtain ⟨part, inParts, inPart⟩ := List.mem_flatten.mp member
  obtain ⟨input, listed, group, _, subperm⟩ := own part inParts
  exact ⟨input, listed, group, subperm.subset inPart⟩

def strayRow (contents : Contents WindowHandler) : Bool :=
  (emittedWindows contents.handler
    (arrivingBatches keptOrders (fun _ _ => "") [hostPointAt 200 "host=a"])).any fun window =>
      window.rows.any fun row =>
        (inputsUpTo keptOrders (fun _ _ => "") hostsTogether 2).all fun input =>
          decide (extractGroup input = extractGroup window → row ∉ input.rows)

/-- Hosts with the same fields are aggregated together, as the first of them. -/
theorem hosts_are_aggregated_together :
    ¬∀ (orders : MapOrders) (renderScalar : DataType → Value → String) (codec : PointsCodec)
      (options : Aggregate.AggregateOptions) (tolerance : Int) (flushes : List (List Point)),
      (∀ points, Visits (orders.pointGroups points) points) →
      AggregatesPerGroup orders renderScalar codec options tolerance flushes := by
  intro claim
  have perGroup := claim keptOrders (fun _ _ => "") timesCodec {} 10 hostsTogether
    kept_orders_visit 1 (by decide)
  have strays : (contentsAt keptOrders (fun _ _ => "") timesCodec {} 10 hostsTogether 1).map
      strayRow = some true := by decide +kernel
  obtain ⟨contents, reached, stray⟩ := Option.map_eq_some_iff.mp strays
  obtain ⟨window, emitted, inWindow⟩ := List.any_eq_true.mp stray
  obtain ⟨row, member, foreign⟩ := List.any_eq_true.mp inWindow
  obtain ⟨input, listed, group, own⟩ :=
    one_group_rows ((perGroup contents reached).1 window emitted) row member
  have apart := of_decide_eq_true (List.all_eq_true.mp foreign input listed)
  exact apart group own

end Hosts

end StreamDataProcessor.Kapacitor.StreamAggregation
