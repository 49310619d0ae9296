import StreamDataProcessor.Handlers.GroupHandler
import StreamDataProcessor.Handlers.GroupDispatcher
import StreamDataProcessor.Kapacitor.GroupStrings

/-!
# Keyed streams

A group handler with a group dispatcher behind it, in one pipeline: the rows of a stream of
batches are sorted out by their keys, and the machine of a key sees of each batch the rows with
its key, and nothing else. Keys are told apart by their texts, so the texts of the cells have to
be equal just when the cells are.
-/

namespace StreamDataProcessor.Handlers.Group

open Foundation Foundation.Grouping Foundation.Effect Foundation.Dispatch Arrow Metadata Utils
open Kapacitor.GroupingUtils

set_option autoImplicit false

/-- The texts of cells in the columns with the names are equal just when the cells are. -/
def Legible (renderScalar : DataType → Value → String) (schema : Schema)
    (columnNames : List String) (rows : List Row) : Prop :=
  ∀ first ∈ rows, ∀ second ∈ rows, ∀ columnName ∈ columnNames,
    columnText renderScalar schema first columnName =
        columnText renderScalar schema second columnName ↔
      cellsAgree (schema.cell columnName first) (schema.cell columnName second)

def batchHandler {State : Type} (renderScalar : DataType → Value → String)
    (groupingColumns : List String) : BatchHandler State :=
  fun recordBatch => ofExcept (handle renderScalar groupingColumns recordBatch)

def keyedPipeline {State : Type} (renderScalar : DataType → Value → String)
    (groupingColumns : List String) (createHandler : State) (machine : BatchHandler State) :
    VectorHandler (GroupsStates State) :=
  PipelineHandler.handle [handleVector (batchHandler renderScalar groupingColumns),
    handleVector (GroupDispatcher.handle createHandler machine)]

def runKeyed {State : Type} (renderScalar : DataType → Value → String)
    (groupingColumns : List String) (createHandler : State) (machine : BatchHandler State) :
    VectorHandler (GroupsStates State) :=
  handleVector fun recordBatch =>
    keyedPipeline renderScalar groupingColumns createHandler machine [recordBatch]

/-- What of a stream belongs to a group: of each batch that has rows of the group one batch
with these, and of the others none. -/
inductive Given (groupOf : Row → RecordBatchGroup) (group : RecordBatchGroup) :
    List RecordBatch → List RecordBatch → Prop
  | done : Given groupOf group [] []
  | absent {batch : RecordBatch} {batches parts : List RecordBatch}
      (foreign : ∀ row ∈ batch.rows, groupOf row ≠ group)
      (given : Given groupOf group batches parts) : Given groupOf group (batch :: batches) parts
  | present {batch part : RecordBatch} {batches parts : List RecordBatch}
      (some : part.rows ≠ []) (rows : part.rows.Perm (batch.rows.filter (groupOf · = group)))
      (named : extractGroup part = group) (given : Given groupOf group batches parts) :
      Given groupOf group (batch :: batches) (part :: parts)

section Groups

variable {renderScalar : DataType → Value → String} {schema : Schema} {columnNames : List String}

theorem row_group_iff {rows : List Row} (legible : Legible renderScalar schema columnNames rows)
    {names : List String} (within : names ⊆ columnNames) (covers : columnNames ⊆ names)
    {first second : Row} (inFirst : first ∈ rows) (inSecond : second ∈ rows) :
    rowGroup renderScalar schema names first = rowGroup renderScalar schema names second ↔
      RowsAgree schema columnNames first second := by
  rw [rowGroup, rowGroup, construct_group_inj]
  constructor
  · intro same columnName listed
    have texts := congrArg (·[columnName]?) same
    rw [row_texts_get, row_texts_get, listedText, listedText, if_pos (covers listed),
      if_pos (covers listed)] at texts
    exact (legible first inFirst second inSecond columnName listed).mp texts
  · intro agree
    apply Std.ExtTreeMap.ext_getElem?
    intro columnName
    rw [row_texts_get, row_texts_get, listedText, listedText]
    split
    · next listed =>
      exact (legible first inFirst second inSecond columnName (within listed)).mpr
        (agree columnName (within listed))
    · rfl

variable {groupingColumns : List String} {source : RecordBatch}

theorem parts_of_group {parts : List RecordBatch}
    (legible : Legible renderScalar source.schema groupingColumns source.rows)
    (named : (extractGroup source).groupColumnsNames ⊆ groupingColumns)
    (groups : Groups (RowsAgree source.schema groupingColumns) source.rows
      (parts.map RecordBatch.rows))
    (described : ∀ part ∈ parts, Described renderScalar groupingColumns source part.rows part)
    (group : RecordBatchGroup) {batches given : List RecordBatch}
    (rest : Given (rowGroup renderScalar source.schema (namesOf groupingColumns source)) group
      batches given) :
    Given (rowGroup renderScalar source.schema (namesOf groupingColumns source)) group
      (source :: batches) (parts.filter (extractGroup · = group) ++ given) := by
  have within : namesOf groupingColumns source ⊆ groupingColumns :=
    List.append_subset.mpr ⟨named, fun _ member => member⟩
  have cut : Groups (fun first second =>
      rowGroup renderScalar source.schema (namesOf groupingColumns source) first =
        rowGroup renderScalar source.schema (namesOf groupingColumns source) second) source.rows
      (parts.map RecordBatch.rows) :=
    groups_congr groups fun first inFirst second inSecond =>
      (row_group_iff legible within (List.subset_append_right _ _) inFirst inSecond).symm
  have own : ∀ part ∈ parts, (extractGroup part = group ↔ part.rows.head?.map
      (rowGroup renderScalar source.schema (namesOf groupingColumns source)) = some group) := by
    intro part listed
    obtain ⟨first, others, rows⟩ := List.exists_cons_of_ne_nil
      (groups.nonempty _ (List.mem_map_of_mem listed))
    have schema := (described part listed).schema first (by rw [rows]; rfl)
    rw [rows, List.head?_cons, Option.map_some, Option.some.injEq, extractGroup, schema]
    rfl
  obtain ⟨whole, atMost⟩ := groups_of_value cut group
  have sameParts : (parts.map RecordBatch.rows).filter (fun rows => rows.head?.map
      (rowGroup renderScalar source.schema (namesOf groupingColumns source)) = some group) =
        (parts.filter (extractGroup · = group)).map RecordBatch.rows := by
    rw [List.filter_map]
    congr 1
    apply List.filter_congr
    intro part listed
    exact decide_eq_decide.mpr (own part listed).symm
  rw [sameParts] at whole atMost
  have listed : ∀ part ∈ parts.filter (extractGroup · = group),
      part.rows ≠ [] ∧ extractGroup part = group := by
    intro part member
    obtain ⟨inParts, isGroup⟩ := List.mem_filter.mp member
    exact ⟨groups.nonempty _ (List.mem_map_of_mem inParts), of_decide_eq_true isGroup⟩
  revert whole atMost listed
  generalize parts.filter (extractGroup · = group) = kept
  intro whole atMost listed
  rcases kept with _ | ⟨part, _ | ⟨second, others⟩⟩
  · have missing := List.nil_perm.mp whole
    rw [List.filter_eq_nil_iff] at missing
    exact .absent (fun row member isOwn => missing row member (decide_eq_true isOwn)) rest
  · rw [List.map_singleton, List.flatten_singleton] at whole
    obtain ⟨some, named⟩ := listed part List.mem_cons_self
    exact .present some whole named rest
  · rw [List.length_map, List.length_cons, List.length_cons] at atMost
    omega

theorem stream_given {batches : List RecordBatch}
    (schemas : ∀ batch ∈ batches, batch.schema = schema)
    (filled : ∀ batch ∈ batches, batch.rows ≠ [])
    (comparable : ∀ batch ∈ batches, KeysComparable schema groupingColumns batch.rows)
    (legible : ∀ batch ∈ batches, Legible renderScalar schema groupingColumns batch.rows)
    (named : (schema.metadata.group.getD {}).groupColumnsNames ⊆ groupingColumns) :
    ∃ parts, List.Forall₂ (fun batch own =>
        handle renderScalar groupingColumns batch = .ok own) batches parts ∧
      ∀ group, Given (rowGroup renderScalar schema
          ((schema.metadata.group.getD {}).groupColumnsNames ++ groupingColumns)) group batches
        (parts.flatten.filter (extractGroup · = group)) := by
  induction batches with
  | nil => exact ⟨[], .nil, fun _ => .done⟩
  | cons batch rest induction =>
      rw [List.forall_mem_cons] at schemas filled comparable legible
      obtain ⟨parts, handled, given⟩ := induction schemas.2 filled.2 comparable.2 legible.2
      obtain ⟨same, _⟩ := schemas
      subst same
      obtain ⟨own, returned, groups, described⟩ :=
        @comparable_cut_up renderScalar groupingColumns batch filled.1 comparable.1
      refine ⟨own :: parts, .cons returned handled, fun group => ?_⟩
      rw [List.flatten_cons, List.filter_append]
      exact parts_of_group legible.1 named groups described group (given group)

end Groups

section Runs

variable {State : Type} {renderScalar : DataType → Value → String} {groupingColumns : List String}
  {createHandler : State} {machine : BatchHandler State}

theorem keyed_pipeline_eq {batch : RecordBatch} {parts : List RecordBatch}
    (handled : handle renderScalar groupingColumns batch = .ok parts) :
    keyedPipeline renderScalar groupingColumns createHandler machine [batch] =
      handleVector (GroupDispatcher.handle createHandler machine) parts := by
  funext states
  have grouped : handleVector (batchHandler renderScalar groupingColumns) [batch] states =
      .ok parts states := by
    rw [handleVector, each_singleton, batchHandler, handled]
    rfl
  change (handleVector (batchHandler renderScalar groupingColumns) [batch] >>= fun result =>
    handleVector (GroupDispatcher.handle createHandler machine) result >>= pure) states = _
  rw [bind_of_ok grouped, bind_pure]

/-- The pipeline hands the parts of all batches to the dispatcher, in order. -/
theorem run_keyed_eq {batches : List RecordBatch} {parts : List (List RecordBatch)}
    (handled : List.Forall₂ (fun batch own => handle renderScalar groupingColumns batch = .ok own)
      batches parts) :
    runKeyed renderScalar groupingColumns createHandler machine batches =
      handleVector (GroupDispatcher.handle createHandler machine) parts.flatten := by
  induction handled with
  | nil => rfl
  | cons head _ induction =>
      rw [List.flatten_cons, handleVector, each_append]
      rw [runKeyed, handleVector, each, keyed_pipeline_eq head]
      rw [runKeyed, handleVector] at induction
      rw [induction]
      rfl

end Runs

def countRows : BatchHandler Nat := fun recordBatch count =>
  .ok [recordBatch] (count + recordBatch.numRows)

end StreamDataProcessor.Handlers.Group
