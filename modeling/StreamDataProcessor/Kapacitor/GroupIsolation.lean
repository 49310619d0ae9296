import StreamDataProcessor.Foundation.Machine
import StreamDataProcessor.Kapacitor.Flushes
import StreamDataProcessor.Kapacitor.PointsRoundTrip

/-!
# Groups of points under a dispatcher

In a flush that no group makes fail, each group is handled as if it had come alone: its
responses are those of the run with its points alone, and so is the state that is kept for it.
-/

namespace StreamDataProcessor.Kapacitor

open Foundation Foundation.Binary64 Foundation.Effect Arrow Metadata Handlers PointsConverter
open DynamicWindowRequestHandler (ConvertOptions)

set_option autoImplicit false

/-- A converter that makes a batch of the points of each group, with the group that the string
of the group parses to. -/
structure GroupConverter (order : List Point → List String) where
  converter : Converter
  convertGroup : String → List Point → Outcome RecordBatch
  converts : ∀ points recordBatches,
    converter.convertToRecordBatches points = .ok recordBatches ↔
      List.Forall₂ (fun groupString recordBatch =>
        convertGroup groupString (pointsOf groupString points) = .ok recordBatch)
        (order points) recordBatches
  parses : ∀ groupString points recordBatch, convertGroup groupString points = .ok recordBatch →
    GroupingUtils.parse groupString "name" = some (extractGroup recordBatch)

section Converters

variable (order : List Point → List String) (renderScalar : DataType → Value → String)

def baseGroups : GroupConverter order where
  converter := basePointsConverter order renderScalar
  convertGroup := convertPointsGroup defaultToRecordBatchesOptions
  converts points recordBatches := map_m_ok_iff
  parses groupString points recordBatch converted := by
    obtain ⟨group, parsed, schema, _⟩ := convert_points_group_result converted
    have own : extractGroup recordBatch = group := by
      rw [extractGroup, schema]
      rfl
    rw [own]
    exact parsed

theorem checked_twice {refused accepted : Prop} [Decidable refused] [Decidable accepted]
    {Value : Type} {value result : Value} {first second : Outcome Value} {fault other : Fault}
    (returned : (if refused then first else if accepted then .ok value else second) = .ok result)
    (fails : first = .error fault) (failsToo : second = .error other) : result = value := by
  rw [fails, failsToo] at returned
  split at returned
  · cases returned
  · split at returned
    · exact (Except.ok.inj returned).symm
    · cases returned

theorem set_time_unit_keeps {recordBatch result : RecordBatch} {columnName : String}
    {unit : Metadata.TimeUnit}
    (set : setTimeUnitMetadata recordBatch columnName unit = .ok result) :
    extractGroup result = extractGroup recordBatch := by
  unfold setTimeUnitMetadata at set
  split at set
  · cases set
  · rw [checked_twice set rfl rfl]
    rfl

theorem set_option_time_unit_keeps {option : Option (String × Metadata.TimeUnit)}
    {recordBatch result : RecordBatch} (set : setOptionTimeUnit option recordBatch = .ok result) :
    extractGroup result = extractGroup recordBatch := by
  unfold setOptionTimeUnit at set
  split at set
  · cases set
    rfl
  · split at set
    · cases set
      rfl
    · exact set_time_unit_keeps set

def windowGroups (options : ConvertOptions) : GroupConverter order where
  converter := windowOptionsConverterDecorator options (basePointsConverter order renderScalar)
  convertGroup groupString points := do
    let recordBatch ← convertPointsGroup defaultToRecordBatchesOptions groupString points
    setOptionsTimeUnits options recordBatch
  converts points recordBatches := map_m_map_m_ok_iff
  parses groupString points recordBatch converted := by
    obtain ⟨base, based, set⟩ := except_bind_ok_cases converted
    obtain ⟨everySet, every, period⟩ := except_bind_ok_cases set
    rw [set_option_time_unit_keeps period, set_option_time_unit_keeps every]
    exact (baseGroups order renderScalar).parses groupString points base based

end Converters

/-- A stream UDF over a `GroupDispatcher`, with a batch for each group of points. -/
structure GroupedUdf (order : List Point → List String) (State : Type) where
  groups : GroupConverter order
  createHandler : State
  handle : BatchHandler State
  providesBatch : Bool
  handlesPoints : Bool := false

namespace GroupedUdf

section Udfs

variable (orders : MapOrders) (renderScalar : DataType → Value → String)

def dynamicWindow (options : DynamicWindowRequestHandler.WindowOptions) :
    GroupedUdf orders.pointGroups Window.WindowHandler where
  groups := windowGroups orders.pointGroups renderScalar options.convertOptions
  createHandler := { options := options.windowHandlerOptions }
  handle := DynamicWindow.handle DynamicWindow.windowHandler
    { periodColumnName := options.convertOptions.periodOption.map Prod.fst
      everyColumnName := options.convertOptions.everyOption.map Prod.fst }
  providesBatch := true

def derivative (calculator : Derivative.DerivativeCalculator)
    (options : Derivative.DerivativeOptions) :
    GroupedUdf orders.pointGroups Derivative.DerivativeHandler where
  groups := baseGroups orders.pointGroups renderScalar
  createHandler := {}
  handle := Derivative.handle calculator options
  providesBatch := false

def statefulThreshold (options : Threshold.Options Double) :
    GroupedUdf orders.pointGroups (Threshold.ThresholdState Double) where
  groups := baseGroups orders.pointGroups renderScalar
  createHandler := Threshold.initialState options
  handle := Threshold.handle options
  providesBatch := false
  handlesPoints := true

end Udfs

variable {order : List Point → List String} {State : Type} (grouped : GroupedUdf order State)
variable (renderScalar : DataType → Value → String)

def udf : StreamUdf (GroupsStates State) :=
  dispatchUdf grouped.groups.converter grouped.createHandler grouped.handle grouped.providesBatch
    grouped.handlesPoints

theorem udfs_grouped (orders : MapOrders) (window : DynamicWindowRequestHandler.WindowOptions)
    (calculator : Derivative.DerivativeCalculator) (options : Derivative.DerivativeOptions)
    (threshold : Threshold.Options Double) :
    (dynamicWindow orders renderScalar window).udf = dynamicWindowUdf orders renderScalar window ∧
    (derivative orders renderScalar calculator options).udf =
      derivativeUdf orders renderScalar calculator options ∧
    (statefulThreshold orders renderScalar threshold).udf =
      statefulThresholdUdf orders renderScalar threshold :=
  ⟨rfl, rfl, rfl⟩

/-- The batch of the group converts, is handled from the state of its group, and its results
are written, all without a fault. -/
def Succeeds (groupString : String) (points : List Point) (groupsStates : GroupsStates State) :
    Prop :=
  ∃ recordBatch resultBatches after responses,
    grouped.groups.convertGroup groupString (pointsOf groupString points) = .ok recordBatch ∧
    grouped.handle recordBatch (Dispatch.current grouped.createHandler groupsStates
      (extractGroup recordBatch)) = .ok resultBatches after ∧
    (grouped.udf.storage renderScalar).responsesOf grouped.groups.converter resultBatches =
      (responses, none)

/-- A flush of one group that nothing escapes from, or of groups that all succeed. -/
def Harmless (groupsStates : GroupsStates State) (points : List Point) : Prop :=
  ((∃ groupString, ∀ point ∈ points, point.group = groupString) ∧
    (grouped.udf.flushed renderScalar points groupsStates).escaping = none) ∨
  ∀ groupString ∈ order points, grouped.Succeeds renderScalar groupString points groupsStates

section Order

variable (visits : ∀ points, Visits (order points) points)
include visits

theorem order_nil : order [] = [] := by
  apply List.eq_nil_iff_forall_not_mem.mpr
  intro groupString member
  obtain ⟨point, inPoints, _⟩ := ((visits []).covers groupString).mp member
  cases inPoints

theorem order_one {groupString : String} {points : List Point} (points_some : points ≠ [])
    (one : ∀ point ∈ points, point.group = groupString) : order points = [groupString] := by
  apply List.perm_singleton.mp
  rw [List.perm_ext_iff_of_nodup (visits points).nodup (List.nodup_singleton _)]
  intro other
  rw [(visits points).covers, List.mem_singleton]
  constructor
  · rintro ⟨point, member, rfl⟩
    exact one point member
  · rintro rfl
    obtain ⟨point, member⟩ := List.exists_mem_of_ne_nil points points_some
    exact ⟨point, member, one point member⟩

theorem points_of_some {groupString : String} {points : List Point}
    (member : groupString ∈ order points) : pointsOf groupString points ≠ [] := by
  obtain ⟨point, inPoints, own⟩ := ((visits points).covers groupString).mp member
  have inGroup : point ∈ pointsOf groupString points := by simpa [pointsOf] using ⟨inPoints, own⟩
  exact List.ne_nil_of_mem inGroup

theorem order_alone {groupString : String} {points : List Point}
    (member : groupString ∈ order points) :
    order (pointsOf groupString points) = [groupString] :=
  order_one visits (points_of_some visits member) fun _ inGroup => (points_of_group inGroup).2

end Order

abbrev parsed (groupString : String) : Option RecordBatchGroup :=
  GroupingUtils.parse groupString "name"

def Agree (groupString : String) (first second : GroupsStates State) : Prop :=
  ∀ group, parsed groupString = some group → first group = second group

/-- What a flush of the points of one group leaves depends on what is kept for that group, and
it leaves the rest as it was. -/
structure SameFlush (groupString : String) (before : GroupsStates State)
    (first second : Flushed (GroupsStates State)) : Prop where
  responses : first.responses = second.responses
  fault : first.fault = second.fault
  agree : Agree groupString first.handler second.handler
  kept : ∀ group, parsed groupString ≠ some group → first.handler group = before group

theorem one_group_converted {groupString : String} {points : List Point}
    {recordBatches : List RecordBatch} (ordered : order points = [groupString])
    (converted : grouped.groups.converter.convertToRecordBatches points = .ok recordBatches) :
    ∃ recordBatch, recordBatches = [recordBatch] ∧
      grouped.groups.convertGroup groupString (pointsOf groupString points) = .ok recordBatch ∧
      parsed groupString = some (extractGroup recordBatch) := by
  have each := (grouped.groups.converts points recordBatches).mp converted
  rw [ordered, List.forall₂_cons_left_iff] at each
  obtain ⟨recordBatch, others, own, rest, rfl⟩ := each
  rw [List.forall₂_nil_left_iff] at rest
  exact ⟨recordBatch, by rw [rest], own, grouped.groups.parses _ _ _ own⟩

theorem one_group_flushed {groupString : String} {points : List Point}
    (points_some : points ≠ []) (ordered : order points = [groupString])
    {first second : GroupsStates State} (agree : Agree groupString first second) :
    SameFlush groupString first (grouped.udf.flushed renderScalar points first)
      (grouped.udf.flushed renderScalar points second) := by
  cases converted : grouped.groups.converter.convertToRecordBatches points with
  | error fault =>
      rw [grouped.udf.flushed_unconverted renderScalar points_some converted,
        grouped.udf.flushed_unconverted renderScalar points_some converted]
      exact ⟨rfl, rfl, agree, fun _ _ => rfl⟩
  | ok recordBatches =>
      obtain ⟨recordBatch, rfl, _, parses⟩ := grouped.one_group_converted ordered converted
      have one : grouped.udf.handler [recordBatch] =
          GroupDispatcher.handle grouped.createHandler grouped.handle recordBatch :=
        Dispatch.each_singleton _ _
      have same : Dispatch.current grouped.createHandler second (extractGroup recordBatch) =
          Dispatch.current grouped.createHandler first (extractGroup recordBatch) := by
        rw [Dispatch.current, Dispatch.current, agree _ parses]
      rw [grouped.udf.flushed_converted renderScalar points_some converted,
        grouped.udf.flushed_converted renderScalar points_some converted, one,
        GroupDispatcher.handle, Dispatch.dispatch_eq, Dispatch.dispatch_eq, same]
      have updated : ∀ own, Agree groupString
          (Function.update first (extractGroup recordBatch) (some own))
          (Function.update second (extractGroup recordBatch) (some own)) := by
        intro own group isGroup
        obtain rfl : extractGroup recordBatch = group :=
          Option.some.inj (parses.symm.trans isGroup)
        rw [Function.update_self, Function.update_self]
      have kept : ∀ own group, parsed groupString ≠ some group →
          Function.update first (extractGroup recordBatch) (some own) group = first group := by
        intro own group apart
        apply Function.update_of_ne
        rintro rfl
        exact apart parses
      cases grouped.handle recordBatch
          (Dispatch.current grouped.createHandler first (extractGroup recordBatch)) with
      | error fault own => exact ⟨rfl, rfl, updated own, kept own⟩
      | ok resultBatches own => exact ⟨rfl, rfl, updated own, kept own⟩

section Together

variable (visits : ∀ points, Visits (order points) points)
include visits

/-- The flush of the points of a group alone, from a state that agrees on it. -/
theorem flushed_alone {groupString : String} {points : List Point}
    (member : groupString ∈ order points) {recordBatch : RecordBatch}
    {resultBatches : List RecordBatch} {before alone : GroupsStates State} {own : State}
    (agree : Agree groupString before alone)
    (converted : grouped.groups.convertGroup groupString (pointsOf groupString points) =
      .ok recordBatch)
    (handled : grouped.handle recordBatch (Dispatch.current grouped.createHandler before
      (extractGroup recordBatch)) = .ok resultBatches own) :
    grouped.udf.flushed renderScalar (pointsOf groupString points) alone =
      grouped.udf.flushedBy renderScalar (.ok resultBatches
        (Function.update alone (extractGroup recordBatch) (some own))) := by
  have again : pointsOf groupString (pointsOf groupString points) =
      pointsOf groupString points := by
    simp [pointsOf, List.filter_filter]
  have all : grouped.groups.converter.convertToRecordBatches (pointsOf groupString points) =
      .ok [recordBatch] := by
    rw [grouped.groups.converts, order_alone visits member]
    refine .cons ?_ .nil
    rw [again]
    exact converted
  have parses := grouped.groups.parses _ _ _ converted
  rw [Dispatch.current, agree _ parses] at handled
  have one : grouped.udf.handler [recordBatch] =
      GroupDispatcher.handle grouped.createHandler grouped.handle recordBatch :=
    Dispatch.each_singleton _ _
  rw [grouped.udf.flushed_converted renderScalar (points_of_some visits member) all, one,
    GroupDispatcher.handle, Dispatch.dispatch_eq, Dispatch.current, handled]
  rfl

/-- Each group of a flush gets what it would get alone. -/
structure Together (points : List Point) (before : GroupsStates State)
    (alone : String → GroupsStates State) : Prop where
  responses : (grouped.udf.flushed renderScalar points before).responses =
    (order points).flatMap fun groupString =>
      (grouped.udf.flushed renderScalar (pointsOf groupString points)
        (alone groupString)).responses
  escaping : (grouped.udf.flushed renderScalar points before).escaping = none
  escapingAlone : ∀ groupString ∈ order points,
    (grouped.udf.flushed renderScalar (pointsOf groupString points)
      (alone groupString)).escaping = none
  agree : ∀ groupString ∈ order points,
    Agree groupString (grouped.udf.flushed renderScalar points before).handler
      (grouped.udf.flushed renderScalar (pointsOf groupString points) (alone groupString)).handler
  kept : ∀ group, (∀ groupString ∈ order points, parsed groupString ≠ some group) →
    (grouped.udf.flushed renderScalar points before).handler group = before group

omit visits in
theorem flushed_by_escaping {resultBatches : List RecordBatch} {responses : List Response}
    (written : (grouped.udf.storage renderScalar).responsesOf grouped.groups.converter
      resultBatches = (responses, none)) (after : GroupsStates State) :
    (grouped.udf.flushedBy renderScalar (.ok resultBatches after)).escaping = none := by
  have noFault : (grouped.udf.flushedBy renderScalar (.ok resultBatches after)).fault = none :=
    congrArg Prod.snd written
  rw [Flushed.escaping, noFault]
  rfl

omit visits in
theorem batches_apart {points : List Point} {recordBatches : List RecordBatch}
    (nodup : (order points).Nodup)
    (apart : ∀ first ∈ order points, ∀ second ∈ order points,
      parsed first = parsed second → first = second)
    (converted : List.Forall₂ (fun groupString recordBatch =>
      grouped.groups.convertGroup groupString (pointsOf groupString points) = .ok recordBatch)
      (order points) recordBatches) : (recordBatches.map extractGroup).Nodup := by
  have parses : recordBatches.map (some ∘ extractGroup) = (order points).map parsed := by
    generalize order points = groupStrings at converted
    induction converted with
    | nil => rfl
    | cons head _ induction =>
        rw [List.map_cons, List.map_cons, induction]
        exact congrArg (· :: List.map parsed _) (grouped.groups.parses _ _ _ head).symm
  apply List.Nodup.of_map some
  rw [List.map_map, parses]
  exact nodup.map_on fun first inFirst second inSecond same =>
    apart first inFirst second inSecond same

theorem succeeding_groups_together {points : List Point} (points_some : points ≠ [])
    {before : GroupsStates State} {alone : String → GroupsStates State}
    (apart : ∀ first ∈ order points, ∀ second ∈ order points,
      parsed first = parsed second → first = second)
    (agree : ∀ groupString ∈ order points, Agree groupString before (alone groupString))
    (succeed : ∀ groupString ∈ order points,
      grouped.Succeeds renderScalar groupString points before) :
    grouped.Together renderScalar points before alone := by
  obtain ⟨recordBatches, returned⟩ : ∃ recordBatches, (order points).mapM (fun groupString =>
      grouped.groups.convertGroup groupString (pointsOf groupString points)) =
        .ok recordBatches := by
    apply map_m_returns
    intro groupString member
    obtain ⟨recordBatch, _, _, _, converted, _⟩ := succeed groupString member
    exact ⟨recordBatch, converted⟩
  have each := map_m_ok_iff.mp returned
  have nodup := grouped.batches_apart (visits points).nodup apart each
  have answered : ∀ recordBatch ∈ recordBatches, ∃ resultBatches own,
      grouped.handle recordBatch (Dispatch.current grouped.createHandler before
        (extractGroup recordBatch)) = .ok resultBatches own := by
    intro recordBatch member
    obtain ⟨groupString, inOrder, converted⟩ := mem_of_map_m returned member
    obtain ⟨other, resultBatches, own, _, convertedToo, handled, _⟩ := succeed groupString inOrder
    obtain rfl : recordBatch = other := Except.ok.inj (converted.symm.trans convertedToo)
    exact ⟨resultBatches, own, handled⟩
  obtain ⟨outputs, after, handled⟩ :=
    Dispatch.each_dispatch_returns nodup (fun _ _ => rfl) answered
  obtain ⟨⟨parts, rfl, answers⟩, kept⟩ :=
    Dispatch.each_dispatch_apart nodup (fun _ _ => rfl) handled
  have whole : List.Forall₂ (fun groupString part =>
      let own := grouped.udf.flushed renderScalar (pointsOf groupString points)
        (alone groupString)
      (grouped.udf.storage renderScalar).responsesOf grouped.groups.converter part =
          (own.responses, none) ∧
        own.escaping = none ∧ Agree groupString after own.handler) (order points) parts := by
    apply forall₂_comp_of_mem each answers
    rintro groupString member recordBatch part converted ⟨own, ownHandled, isOwn⟩
    obtain ⟨other, resultBatches, final, responses, convertedToo, handledToo, written⟩ :=
      succeed groupString member
    obtain rfl : recordBatch = other := Except.ok.inj (converted.symm.trans convertedToo)
    obtain ⟨rfl, rfl⟩ := EStateM.Result.ok.inj (ownHandled.symm.trans handledToo)
    dsimp only
    rw [grouped.flushed_alone renderScalar visits member (agree groupString member) converted
      ownHandled]
    have noFault : (grouped.udf.storage renderScalar).responsesOf grouped.groups.converter part =
        (((grouped.udf.storage renderScalar).responsesOf grouped.groups.converter part).1, none) := by
      rw [written]
    refine ⟨noFault, grouped.flushed_by_escaping renderScalar noFault _, ?_⟩
    intro group isGroup
    obtain rfl : extractGroup recordBatch = group :=
      Option.some.inj ((grouped.groups.parses _ _ _ converted).symm.trans isGroup)
    change after (extractGroup recordBatch) = Function.update (alone groupString)
      (extractGroup recordBatch) (some own) (extractGroup recordBatch)
    rw [Function.update_self, isOwn]
  have full : grouped.udf.flushed renderScalar points before =
      grouped.udf.flushedBy renderScalar (.ok parts.flatten after) :=
    (grouped.udf.flushed_converted renderScalar points_some
      ((grouped.groups.converts points recordBatches).mpr each) before).trans
      (congrArg _ handled)
  have written := (grouped.udf.storage renderScalar).responses_of_flatten grouped.groups.converter
    (whole.imp fun _ _ own => own.1)
  constructor
  · rw [full]
    exact congrArg Prod.fst written
  · rw [full]
    exact grouped.flushed_by_escaping renderScalar written after
  · intro groupString member
    obtain ⟨part, _, own⟩ := exists_of_forall₂ whole member
    exact own.2.1
  · intro groupString member
    obtain ⟨part, _, own⟩ := exists_of_forall₂ whole member
    rw [full]
    exact own.2.2
  · intro group foreign
    rw [full]
    apply kept group
    intro listed
    obtain ⟨recordBatch, member, rfl⟩ := List.mem_map.mp listed
    obtain ⟨groupString, inOrder, converted⟩ := mem_of_map_m returned member
    exact foreign groupString inOrder (grouped.groups.parses _ _ _ converted)

theorem empty_together (before : GroupsStates State) (alone : String → GroupsStates State) :
    grouped.Together renderScalar [] before alone := by
  have none : order [] = [] := order_nil visits
  constructor
  · rw [none, StreamUdf.flushed_none]
    rfl
  · rw [StreamUdf.flushed_none]
    rfl
  · rw [none]
    exact fun _ member => absurd member List.not_mem_nil
  · rw [none]
    exact fun _ member => absurd member List.not_mem_nil
  · intro group _
    rw [StreamUdf.flushed_none]

theorem one_group_together {groupString : String} {points : List Point}
    (points_some : points ≠ []) (one : ∀ point ∈ points, point.group = groupString)
    {before : GroupsStates State} {alone : String → GroupsStates State}
    (agree : Agree groupString before (alone groupString))
    (escaping : (grouped.udf.flushed renderScalar points before).escaping = none) :
    grouped.Together renderScalar points before alone := by
  have ordered := order_one visits points_some one
  have all : pointsOf groupString points = points := by
    rw [pointsOf, List.filter_eq_self]
    intro point member
    exact decide_eq_true (one point member)
  have same := grouped.one_group_flushed renderScalar points_some ordered agree
  constructor
  · rw [ordered, List.flatMap_singleton, all]
    exact same.responses
  · exact escaping
  · rw [ordered, List.forall_mem_singleton, all, Flushed.escaping, ← same.fault]
    exact escaping
  · rw [ordered, List.forall_mem_singleton, all]
    exact same.agree
  · intro group foreign
    rw [ordered, List.forall_mem_singleton] at foreign
    exact same.kept group foreign

theorem harmless_together {points : List Point} {before : GroupsStates State}
    {alone : String → GroupsStates State}
    (apart : ∀ first ∈ order points, ∀ second ∈ order points, ∀ group,
      parsed first = some group → parsed second = some group → first = second)
    (agree : ∀ groupString ∈ order points, Agree groupString before (alone groupString))
    (harmless : grouped.Harmless renderScalar before points) :
    grouped.Together renderScalar points before alone := by
  by_cases empty : points = []
  · rw [empty]
    exact grouped.empty_together renderScalar visits before alone
  · rcases harmless with ⟨⟨groupString, one⟩, escaping⟩ | succeed
    · have member : groupString ∈ order points := by
        rw [order_one visits empty one]
        exact List.mem_singleton_self _
      exact grouped.one_group_together renderScalar visits empty one (agree _ member) escaping
    · refine grouped.succeeding_groups_together renderScalar visits empty ?_ agree succeed
      intro first inFirst second inSecond same
      obtain ⟨recordBatch, _, _, _, converted, _⟩ := succeed first inFirst
      have parses := grouped.groups.parses _ _ _ converted
      exact apart first inFirst second inSecond _ parses (same ▸ parses)

end Together

section Runs

variable (codec : PointsCodec)

def alone (groupString : String) (flushes : List (List Point)) : List (List Point) :=
  flushes.map (pointsOf groupString)

/-- What the UDF has after the first flushes of a run; nothing once an exception has ended it. -/
def contentsAt (flushes : List (List Point)) (count : Nat) :
    Option (Contents (GroupsStates State)) :=
  Machine.stateAt (grouped.udf.turn renderScalar codec) (some grouped.udf.fresh) flushes count

def answerAt (flushes : List (List Point)) (count : Nat) : List Response :=
  (grouped.udf.turn renderScalar codec (grouped.contentsAt renderScalar codec flushes count)
    (flushes.getD count [])).2

/-- The responses to each flush are those of the runs of its groups alone, in the order in
which the groups are visited, and what is kept for a group is the same as in its own run. -/
structure Isolated (flushes : List (List Point)) : Prop where
  responses : ∀ count, (bound : count < flushes.length) →
    grouped.answerAt renderScalar codec flushes count =
      (order flushes[count]).flatMap fun groupString =>
        grouped.answerAt renderScalar codec (alone groupString flushes) count
  states : ∀ count ≤ flushes.length, ∀ point ∈ flushes.flatten, ∀ group,
    parsed point.group = some group →
    (grouped.contentsAt renderScalar codec flushes count).map (·.handler group) =
      (grouped.contentsAt renderScalar codec (alone point.group flushes) count).map
        (·.handler group)

/-- Points with different group strings are of different groups. -/
def Separate (flushes : List (List Point)) : Prop :=
  ∀ first ∈ flushes.flatten, ∀ second ∈ flushes.flatten, ∀ group,
    parsed first.group = some group → parsed second.group = some group →
      first.group = second.group

theorem separate_of_parsed {flushes : List (List Point)}
    (apart : ∀ first ∈ flushes.flatten, ∀ second ∈ flushes.flatten,
      parsed first.group = parsed second.group → first.group = second.group) :
    Separate flushes := by
  intro first inFirst second inSecond group isFirst isSecond
  exact apart first inFirst second inSecond (isFirst.trans isSecond.symm)

/-- A flush of a UDF that is still there is harmless. -/
def HarmlessTurn : Option (Contents (GroupsStates State)) → List Point → Prop
  | none, _ => True
  | some contents, points => grouped.Harmless renderScalar contents.handler points

/-- Between two flushes, the run and the run of each of its groups agree on the group. -/
structure Agreed (flushes : List (List Point)) (count : Nat)
    (contents : Contents (GroupsStates State)) : Prop where
  reached : grouped.contentsAt renderScalar codec flushes count = some contents
  waiting : contents.points = []
  own : ∀ point ∈ flushes.flatten, ∃ other,
    grouped.contentsAt renderScalar codec (alone point.group flushes) count = some other ∧
      other.points = [] ∧ Agree point.group contents.handler other.handler

theorem run_turn {flushes : List (List Point)} {count : Nat} (bound : count < flushes.length)
    {contents : Contents (GroupsStates State)}
    (reached : grouped.contentsAt renderScalar codec flushes count = some contents)
    (waiting : contents.points = []) :
    let flushed := grouped.udf.flushed renderScalar flushes[count] contents.handler
    grouped.answerAt renderScalar codec flushes count = flushed.responses ∧
      (flushed.escaping = none → ∃ after,
        grouped.contentsAt renderScalar codec flushes (count + 1) = some after ∧
          after.points = [] ∧ after.handler = flushed.handler) := by
  obtain ⟨responses, left⟩ := grouped.udf.turn_flushed renderScalar codec waiting flushes[count]
  have next : grouped.contentsAt renderScalar codec flushes (count + 1) =
      (grouped.udf.turn renderScalar codec (some contents) flushes[count]).1 := by
    rw [contentsAt, Machine.state_at_succ _ _ _ _ bound, ← contentsAt, reached]
  constructor
  · rw [answerAt, reached, List.getD_eq_getElem _ _ bound]
    exact responses
  · intro escaping
    rw [escaping] at left
    rw [next]
    exact left

theorem alone_turn {flushes : List (List Point)} {count : Nat} (bound : count < flushes.length)
    (groupString : String) {contents : Contents (GroupsStates State)}
    (reached : grouped.contentsAt renderScalar codec (alone groupString flushes) count =
      some contents)
    (waiting : contents.points = []) :
    let flushed := grouped.udf.flushed renderScalar (pointsOf groupString flushes[count])
      contents.handler
    grouped.answerAt renderScalar codec (alone groupString flushes) count = flushed.responses ∧
      (flushed.escaping = none → ∃ after,
        grouped.contentsAt renderScalar codec (alone groupString flushes) (count + 1) =
            some after ∧
          after.points = [] ∧ after.handler = flushed.handler) := by
  have inAlone : count < (alone groupString flushes).length := by
    rw [alone, List.length_map]
    exact bound
  have turned := grouped.run_turn renderScalar codec inAlone reached waiting
  simp only [alone, List.getElem_map] at turned
  exact turned

variable (visits : ∀ points, Visits (order points) points)
include visits

/-- A harmless flush keeps the agreement, and is answered group by group. -/
theorem agreed_step {flushes : List (List Point)} (separate : Separate flushes) {count : Nat}
    (bound : count < flushes.length) {contents : Contents (GroupsStates State)}
    (agreed : grouped.Agreed renderScalar codec flushes count contents)
    (harmless : grouped.Harmless renderScalar contents.handler flushes[count]) :
    (∃ after, grouped.Agreed renderScalar codec flushes (count + 1) after) ∧
      grouped.answerAt renderScalar codec flushes count =
        (order flushes[count]).flatMap fun groupString =>
          grouped.answerAt renderScalar codec (alone groupString flushes) count := by
  have occurs : ∀ groupString ∈ order flushes[count],
      ∃ point ∈ flushes.flatten, point.group = groupString := by
    intro groupString member
    obtain ⟨point, inPoints, own⟩ := ((visits _).covers groupString).mp member
    exact ⟨point, List.mem_flatten.mpr ⟨_, List.getElem_mem bound, inPoints⟩, own⟩
  let aloneStates : String → GroupsStates State := fun groupString =>
    ((grouped.contentsAt renderScalar codec (alone groupString flushes) count).map
      Contents.handler).getD contents.handler
  have isAlone : ∀ groupString other,
      grouped.contentsAt renderScalar codec (alone groupString flushes) count = some other →
      aloneStates groupString = other.handler := by
    intro groupString other reached
    simp only [aloneStates, reached, Option.map_some, Option.getD_some]
  have agree : ∀ groupString ∈ order flushes[count],
      Agree groupString contents.handler (aloneStates groupString) := by
    intro groupString member
    obtain ⟨point, inRun, rfl⟩ := occurs groupString member
    obtain ⟨other, reached, _, same⟩ := agreed.own point inRun
    rw [isAlone _ other reached]
    exact same
  have apart : ∀ first ∈ order flushes[count], ∀ second ∈ order flushes[count], ∀ group,
      parsed first = some group → parsed second = some group → first = second := by
    intro first inFirst second inSecond group isFirst isSecond
    obtain ⟨left, inLeft, rfl⟩ := occurs first inFirst
    obtain ⟨right, inRight, rfl⟩ := occurs second inSecond
    exact separate left inLeft right inRight group isFirst isSecond
  have together := grouped.harmless_together renderScalar visits apart agree harmless
  obtain ⟨answered, goesOn⟩ := grouped.run_turn renderScalar codec bound agreed.reached
    agreed.waiting
  obtain ⟨after, reached, waiting, isAfter⟩ := goesOn together.escaping
  constructor
  · refine ⟨after, reached, waiting, ?_⟩
    intro point inRun
    obtain ⟨other, reachedOther, waitingOther, same⟩ := agreed.own point inRun
    obtain ⟨_, goesOnAlone⟩ := grouped.alone_turn renderScalar codec bound point.group
      reachedOther waitingOther
    by_cases member : point.group ∈ order flushes[count]
    · have escaping := together.escapingAlone point.group member
      have ownAgree := together.agree point.group member
      rw [isAlone _ other reachedOther] at escaping ownAgree
      obtain ⟨final, reachedFinal, waitingFinal, isFinal⟩ := goesOnAlone escaping
      refine ⟨final, reachedFinal, waitingFinal, ?_⟩
      rw [isAfter, isFinal]
      exact ownAgree
    · have nothing : pointsOf point.group flushes[count] = [] := by
        rw [pointsOf, List.filter_eq_nil_iff]
        intro arrival inPoints own
        exact member (((visits _).covers _).mpr ⟨arrival, inPoints, of_decide_eq_true own⟩)
      rw [nothing, StreamUdf.flushed_none] at goesOnAlone
      obtain ⟨final, reachedFinal, waitingFinal, isFinal⟩ := goesOnAlone rfl
      refine ⟨final, reachedFinal, waitingFinal, ?_⟩
      intro group isGroup
      rw [isAfter, isFinal, together.kept group, same group isGroup]
      intro groupString inOrder parses
      obtain ⟨arrival, inRunToo, rfl⟩ := occurs groupString inOrder
      exact member (separate arrival inRunToo point inRun group parses isGroup ▸ inOrder)
  · rw [answered, together.responses]
    apply List.flatMap_congr
    intro groupString member
    obtain ⟨point, inRun, rfl⟩ := occurs groupString member
    obtain ⟨other, reachedOther, waitingOther, _⟩ := agreed.own point inRun
    obtain ⟨answeredAlone, _⟩ := grouped.alone_turn renderScalar codec bound point.group
      reachedOther waitingOther
    rw [answeredAlone, isAlone _ other reachedOther]

/-- Where every flush of a run is harmless, the groups of the run are isolated. -/
theorem harmless_flushes_isolated (flushes : List (List Point)) (separate : Separate flushes)
    (harmless : Machine.StepsMeet (grouped.udf.turn renderScalar codec)
      (grouped.HarmlessTurn renderScalar) (some grouped.udf.fresh) flushes) :
    grouped.Isolated renderScalar codec flushes := by
  rw [Machine.steps_meet_iff] at harmless
  have agreed : ∀ count ≤ flushes.length, ∃ contents,
      grouped.Agreed renderScalar codec flushes count contents := by
    intro count
    induction count with
    | zero =>
        intro _
        exact ⟨grouped.udf.fresh, rfl, rfl, fun point _ => ⟨grouped.udf.fresh, rfl, rfl,
          fun _ _ => rfl⟩⟩
    | succ count induction =>
        intro bound
        obtain ⟨contents, before⟩ := induction (by omega)
        have meets := harmless count bound
        rw [← contentsAt, before.reached] at meets
        exact (grouped.agreed_step renderScalar codec visits separate bound before meets).1
  constructor
  · intro count bound
    obtain ⟨contents, before⟩ := agreed count (by omega)
    have meets := harmless count bound
    rw [← contentsAt, before.reached] at meets
    exact (grouped.agreed_step renderScalar codec visits separate bound before meets).2
  · intro count bound point member group isGroup
    obtain ⟨contents, after⟩ := agreed count bound
    obtain ⟨other, reached, _, same⟩ := after.own point member
    rw [after.reached, reached, Option.map_some, Option.map_some, same group isGroup]

end Runs

section Decide

variable (groupsStates : GroupsStates State)

def checkSucceeds (groupString : String) (points : List Point) : Bool :=
  match grouped.groups.convertGroup groupString (pointsOf groupString points) with
  | .error _ => false
  | .ok recordBatch =>
      match grouped.handle recordBatch (Dispatch.current grouped.createHandler groupsStates
        (extractGroup recordBatch)) with
      | .error _ _ => false
      | .ok resultBatches _ =>
          ((grouped.udf.storage renderScalar).responsesOf grouped.groups.converter
            resultBatches).2.isNone

theorem check_succeeds_iff (groupString : String) (points : List Point) :
    grouped.checkSucceeds renderScalar groupsStates groupString points = true ↔
      grouped.Succeeds renderScalar groupString points groupsStates := by
  unfold checkSucceeds Succeeds
  constructor
  · intro checked
    split at checked
    · cases checked
    · next recordBatch converted =>
      split at checked
      · cases checked
      · next resultBatches after handled =>
        exact ⟨recordBatch, resultBatches, after, _, converted, handled,
          Prod.ext rfl (Option.isNone_iff_eq_none.mp checked)⟩
  · rintro ⟨recordBatch, resultBatches, after, responses, converted, handled, written⟩
    rw [converted]
    dsimp only
    rw [handled]
    dsimp only
    rw [written]
    rfl

instance (groupString : String) (points : List Point) :
    Decidable (grouped.Succeeds renderScalar groupString points groupsStates) :=
  decidable_of_iff _ (grouped.check_succeeds_iff renderScalar groupsStates groupString points)

theorem one_group_iff (points : List Point) :
    (∀ point ∈ points, point.group = (points.head?.map Point.group).getD "") ↔
      ∃ groupString, ∀ point ∈ points, point.group = groupString := by
  constructor
  · intro one
    exact ⟨_, one⟩
  · rintro ⟨groupString, one⟩ point member
    cases points with
    | nil => cases member
    | cons first rest =>
        rw [one point member, List.head?_cons, Option.map_some, Option.getD_some,
          one first List.mem_cons_self]

instance (points : List Point) :
    Decidable (∃ groupString, ∀ point ∈ points, point.group = groupString) :=
  decidable_of_iff _ (one_group_iff points)

instance (points : List Point) : Decidable (grouped.Harmless renderScalar groupsStates points) :=
  inferInstanceAs (Decidable (_ ∨ _))

instance (contents : Option (Contents (GroupsStates State))) (points : List Point) :
    Decidable (grouped.HarmlessTurn renderScalar contents points) :=
  match contents with
  | none => .isTrue trivial
  | some contents =>
      inferInstanceAs (Decidable (grouped.Harmless renderScalar contents.handler points))

end Decide

section Windows

abbrev staticWindow : GroupedUdf BatchAggregateRequestHandler.keptOrders.pointGroups
    Window.WindowHandler :=
  dynamicWindow BatchAggregateRequestHandler.keptOrders (fun _ _ => "")
    { windowHandlerOptions := ⟨10, 10, false⟩, emitTimeout := 1 }

theorem kept_orders_visit (points : List Point) :
    Visits (BatchAggregateRequestHandler.keptOrders.pointGroups points) points where
  nodup := List.nodup_dedup _
  covers groupString := by
    rw [BatchAggregateRequestHandler.keptOrders, List.mem_dedup, List.mem_map]

def hostPointAt (second : Int) (groupString : String) : Point :=
  { time := second * 1000000000, group := groupString }

def hostFlushes : List (List Point) :=
  [[hostPointAt 100 "host=a", hostPointAt 101 "host=b"], [hostPointAt 200 "host=a"]]

theorem host_flushes_isolated :
    staticWindow.Isolated (fun _ _ => "") BatchAggregateRequestHandler.timesCodec hostFlushes := by
  apply harmless_flushes_isolated staticWindow (fun _ _ => "")
    BatchAggregateRequestHandler.timesCodec kept_orders_visit hostFlushes
  · exact separate_of_parsed (by decide +kernel)
  · decide +kernel

def brokenFlush : List (List Point) :=
  [[hostPointAt 100 "host=a", hostPointAt 101 "broken"]]

def keepsHost (flushes : List (List Point)) : Option Bool :=
  (staticWindow.contentsAt (fun _ _ => "") BatchAggregateRequestHandler.timesCodec flushes 1).map
    fun contents => (contents.handler ⟨["host"], ["a"]⟩).isSome

/-- A group string that cannot be parsed takes the points of the other groups with it. -/
theorem broken_group_drops_others :
    ¬∀ (orders : MapOrders) (renderScalar : DataType → Value → String) (codec : PointsCodec)
      (options : DynamicWindowRequestHandler.WindowOptions) (flushes : List (List Point)),
      (∀ points, Visits (orders.pointGroups points) points) → Separate flushes →
      (dynamicWindow orders renderScalar options).Isolated renderScalar codec flushes := by
  intro claim
  have isolated := claim BatchAggregateRequestHandler.keptOrders (fun _ _ => "")
    BatchAggregateRequestHandler.timesCodec
    { windowHandlerOptions := ⟨10, 10, false⟩, emitTimeout := 1 } brokenFlush kept_orders_visit
    (separate_of_parsed (by decide +kernel))
  have same := isolated.states 1 (Nat.le_refl 1) (hostPointAt 100 "host=a") List.mem_cons_self
    ⟨["host"], ["a"]⟩ (by decide +kernel)
  have together : keepsHost brokenFlush = some false := by decide +kernel
  have onItsOwn : keepsHost (alone "host=a" brokenFlush) = some true := by decide +kernel
  have kept := congrArg (Option.map Option.isSome) same
  rw [Option.map_map, Option.map_map] at kept
  have differs : keepsHost brokenFlush = keepsHost (alone "host=a" brokenFlush) := kept
  rw [together, onItsOwn] at differs
  cases differs

end Windows

end GroupedUdf

end StreamDataProcessor.Kapacitor
