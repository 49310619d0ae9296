import StreamDataProcessor.Handlers.JoinLaw

/-!
# Time units in a join

A builder has the unit that its column has first, and an append writes the number that a row
has in its own unit. A timestamp keeps its instant where the units agree, or where it is the
instant from which all units count.
-/

namespace StreamDataProcessor.Handlers.Join

open Foundation Foundation.Effect Arrow Metadata Utils

set_option autoImplicit false

def coarser (left right : Arrow.TimeUnit) : Arrow.TimeUnit :=
  if left.perSecond ≤ right.perSecond then left else right

/-- Two timestamps denote one instant, when both are truncated to the coarser unit. -/
def SameInstant (leftUnit : Arrow.TimeUnit) (left : Int) (rightUnit : Arrow.TimeUnit)
    (right : Int) : Prop :=
  convertTimestamp leftUnit (coarser leftUnit rightUnit) left =
    convertTimestamp rightUnit (coarser leftUnit rightUnit) right

theorem tdiv_eq_self_iff {value factor : Int} (large : 2 ≤ factor) :
    value.tdiv factor = value ↔ value = 0 := by
  constructor
  · intro same
    by_contra nonzero
    have positive : 0 < value.natAbs := Int.natAbs_pos.mpr nonzero
    have smaller : value.natAbs / factor.natAbs < value.natAbs :=
      Nat.div_lt_self positive (by omega)
    have magnitude : (value.tdiv factor).natAbs = value.natAbs / factor.natAbs :=
      Int.natAbs_tdiv value factor
    rw [same] at magnitude
    omega
  · rintro rfl
    exact Int.zero_tdiv factor

theorem convert_to_coarser {fine coarse : Arrow.TimeUnit}
    (finer : coarse.perSecond < fine.perSecond) (value : Int) :
    convertTimestamp fine coarse value = value ↔ value = 0 := by
  have large : 2 ≤ fine.perSecond / coarse.perSecond := by
    revert finer
    cases fine <;> cases coarse <;> decide
  rw [convertTimestamp, if_neg (by omega), tdiv_eq_self_iff large]

theorem per_second_injective {left right : Arrow.TimeUnit}
    (same : left.perSecond = right.perSecond) : left = right := by
  revert same
  cases left <;> cases right <;> decide

/-- One number in two units is one instant only if the units or the number make no
difference. -/
theorem same_number_iff (leftUnit rightUnit : Arrow.TimeUnit) (value : Int) :
    SameInstant leftUnit value rightUnit value ↔ leftUnit = rightUnit ∨ value = 0 := by
  unfold SameInstant coarser
  rcases lt_trichotomy leftUnit.perSecond rightUnit.perSecond with finer | same | finer
  · have other : leftUnit ≠ rightUnit := by
      rintro rfl
      omega
    rw [if_pos (by omega), convert_timestamp_same, eq_comm, convert_to_coarser finer]
    tauto
  · obtain rfl := per_second_injective same
    tauto
  · have other : leftUnit ≠ rightUnit := by
      rintro rfl
      omega
    rw [if_neg (by omega), convert_timestamp_same, convert_to_coarser finer]
    tauto

section Kept

variable (recordBatches : List RecordBatch)

/-- A cell of a timestamp column denotes the instant of the cell that it was taken from. -/
def KeepsInstant (column : String × DataType) (cluster : List JoinValue) (cell : Scalar) : Prop :=
  ∀ unit source, column.2 = .timestamp unit →
    clusterSource recordBatches column.1 cluster = some source →
      ∃ value rowUnit own, cell = some (.integer value) ∧
        source = (.timestamp rowUnit, some (.integer own)) ∧ SameInstant unit value rowUnit own

/-- The instant in a column of the row that a cluster took the column from, in nanoseconds. -/
def sourceInstant (name : String) (cluster : List JoinValue) : WithTop Int :=
  match clusterSource recordBatches name cluster with
  | some (.timestamp unit, some (.integer value)) => convertTimestamp unit .nano value
  | _ => ⊤

def TimeColumnNamed (timeColumnName : String) : Prop :=
  ∃ front, recordBatches.head? = some front ∧
    getTimeColumnNameMetadata front = .ok timeColumnName

/-- The timestamps of the result are the instants they were taken from, and its rows are in the
order of the instants of the time column. -/
def InstantsKept (renderScalar : DataType → Value → String) (joinOnColumns : List String)
    (tolerance : Int) (results : List RecordBatch) : Prop :=
  ∃ timeColumnName keyed result arranged, results = [result] ∧
    TimeColumnNamed recordBatches timeColumnName ∧
    keyedRows renderScalar joinOnColumns timeColumnName recordBatches = .ok keyed ∧
    arranged.Perm (joinClusters tolerance keyed) ∧
    Joins recordBatches timeColumnName arranged result result.rows ∧
    List.Forall₂ (fun cluster row => List.Forall₂ (fun column cell =>
      KeepsInstant recordBatches column cluster cell) (columnsOf result.schema) row)
      arranged result.rows ∧
    arranged.Pairwise fun earlier later =>
      sourceInstant recordBatches timeColumnName earlier ≤
        sourceInstant recordBatches timeColumnName later

/-- What a cluster takes a timestamp from is no null, and is in the unit that the column has
first unless it is zero. -/
def UnitsAgree (renderScalar : DataType → Value → String) (joinOnColumns : List String)
    (tolerance : Int) : Prop :=
  ∀ timeColumnName keyed, TimeColumnNamed recordBatches timeColumnName →
    keyedRows renderScalar joinOnColumns timeColumnName recordBatches = .ok keyed →
    ∀ cluster ∈ joinClusters tolerance keyed, ∀ name rowUnit scalar,
      clusterSource recordBatches name cluster = some (.timestamp rowUnit, scalar) →
        ∃ own, scalar = some (.integer own) ∧
          (firstType recordBatches name = some (.timestamp rowUnit) ∨ own = 0)

variable {recordBatches}

theorem timestamp_cell {name : String} {type : DataType} {cluster : List JoinValue}
    {rowUnit : Arrow.TimeUnit} {scalar cell : Scalar}
    (source : clusterSource recordBatches name cluster = some (.timestamp rowUnit, scalar))
    (appended : clusterCell recordBatches name type cluster = .ok cell) :
    ∃ unit, type = .timestamp unit ∧ cell = some (.integer (integerValue scalar)) := by
  obtain ⟨value, _, found⟩ := List.exists_of_findSome?_eq_some source
  rw [cluster_cell_of_source source] at appended
  rcases fits_cases (fits_of_append appended).2 with ⟨other, _⟩ | ⟨unit, own, rfl, same⟩
  · cases other
  · rw [append_timestamp (source_admits found), Except.ok.injEq] at appended
    exact ⟨unit, rfl, appended.symm⟩

theorem timestamp_source {name : String} {unit : Arrow.TimeUnit} {cluster : List JoinValue}
    {rowType : DataType} {scalar cell : Scalar}
    (source : clusterSource recordBatches name cluster = some (rowType, scalar))
    (appended : clusterCell recordBatches name (.timestamp unit) cluster = .ok cell) :
    ∃ rowUnit, rowType = .timestamp rowUnit := by
  rw [cluster_cell_of_source source] at appended
  rcases fits_cases (fits_of_append appended).2 with ⟨_, same⟩ | ⟨_, rowUnit, _, same⟩
  · exact ⟨unit, same.symm⟩
  · exact ⟨rowUnit, same⟩

theorem keeps_instant_iff {name : String} {unit rowUnit : Arrow.TimeUnit}
    {cluster : List JoinValue} {scalar cell : Scalar}
    (source : clusterSource recordBatches name cluster = some (.timestamp rowUnit, scalar))
    (appended : clusterCell recordBatches name (.timestamp unit) cluster = .ok cell) :
    KeepsInstant recordBatches (name, .timestamp unit) cluster cell ↔
      ∃ own, scalar = some (.integer own) ∧ (unit = rowUnit ∨ own = 0) := by
  obtain ⟨_, _, isCell⟩ := timestamp_cell source appended
  constructor
  · intro keeps
    obtain ⟨value, ownUnit, own, isValue, same, instant⟩ := keeps unit _ rfl source
    cases same
    cases isCell.symm.trans isValue
    exact ⟨own, rfl, (same_number_iff unit rowUnit own).mp instant⟩
  · rintro ⟨own, rfl, agrees⟩ ownUnit given isUnit isSource
    cases isUnit
    cases source.symm.trans isSource
    exact ⟨own, rowUnit, own, isCell, rfl, (same_number_iff unit rowUnit own).mpr agrees⟩

theorem convert_zero (source target : Arrow.TimeUnit) : convertTimestamp source target 0 = 0 := by
  cases source <;> cases target <;> rfl

/-- The time of a row of a result, in nanoseconds, is the one that its cluster has. -/
theorem source_instant_eq {name : String} {unit : Arrow.TimeUnit} {cluster : List JoinValue}
    {cell : Scalar}
    (appended : clusterCell recordBatches name (.timestamp unit) cluster = .ok cell)
    (keeps : KeepsInstant recordBatches (name, .timestamp unit) cluster cell) :
    sourceInstant recordBatches name cluster =
      (cellTime cell).map (convertTimestamp unit .nano) := by
  cases source : clusterSource recordBatches name cluster with
  | none =>
      rw [clusterCell, source, Except.ok.injEq] at appended
      rw [sourceInstant, source, ← appended]
      rfl
  | some own =>
      obtain ⟨rowType, scalar⟩ := own
      obtain ⟨rowUnit, rfl⟩ := timestamp_source source appended
      obtain ⟨own, rfl, agrees⟩ := (keeps_instant_iff source appended).mp keeps
      obtain ⟨_, _, rfl⟩ := timestamp_cell source appended
      have same : convertTimestamp rowUnit .nano own = convertTimestamp unit .nano own := by
        rcases agrees with rfl | rfl
        · rfl
        · rw [convert_zero, convert_zero]
      rw [sourceInstant, source]
      exact congrArg ((↑) : Int → WithTop Int) same

variable {renderScalar : DataType → Value → String} {joinOnColumns : List String}
  {tolerance : Int} {results : List RecordBatch}

theorem units_agree_of_kept
    (kept : InstantsKept recordBatches renderScalar joinOnColumns tolerance results) :
    UnitsAgree recordBatches renderScalar joinOnColumns tolerance := by
  obtain ⟨ownName, ownKeyed, result, arranged, _, isNamed, isKeyed, perm, joins, keeps, _⟩ := kept
  intro timeColumnName keyed named rows cluster listed name rowUnit scalar source
  have same : timeColumnName = ownName ∧ keyed = ownKeyed := by
    obtain ⟨front, first, read⟩ := named
    obtain ⟨ownFront, ownFirst, ownRead⟩ := isNamed
    cases first.symm.trans ownFirst
    cases read.symm.trans ownRead
    cases rows.symm.trans isKeyed
    exact ⟨rfl, rfl⟩
  obtain ⟨rfl, rfl⟩ := same
  have both := List.Forall₂.mp (fun _ _ cells keeps => And.intro cells keeps) joins.cells keeps
  obtain ⟨row, _, cells, keepsRow⟩ := exists_of_forall₂ both (perm.mem_iff.mpr listed)
  have bothCells := List.Forall₂.mp (fun _ _ cell keeps => And.intro cell keeps) cells keepsRow
  obtain ⟨value, _, found⟩ := List.exists_of_findSome?_eq_some source
  obtain ⟨type, column⟩ := column_of_source joins found
  obtain ⟨cell, _, appended, keepsCell⟩ := exists_of_forall₂ bothCells column
  obtain ⟨unit, rfl, _⟩ := timestamp_cell source appended
  obtain ⟨own, isOwn, agrees⟩ := (keeps_instant_iff source appended).mp keepsCell
  refine ⟨own, isOwn, agrees.imp_left fun same => ?_⟩
  rw [← same]
  exact joins.first _ column

theorem kept_of_units_agree {timeColumnName : String} {keyed : List (String × JoinValue)}
    {result : RecordBatch} {joinedRows : List Row}
    (agree : UnitsAgree recordBatches renderScalar joinOnColumns tolerance)
    (named : TimeColumnNamed recordBatches timeColumnName)
    (rows : keyedRows renderScalar joinOnColumns timeColumnName recordBatches = .ok keyed)
    (joins : Joins recordBatches timeColumnName (joinClusters tolerance keyed) result joinedRows) :
    InstantsKept recordBatches renderScalar joinOnColumns tolerance [result] := by
  obtain ⟨arranged, flipped, perm⟩ := List.perm_comp_forall₂ joins.perm joins.cells.flip
  have cells := flipped.flip
  have keeps : List.Forall₂ (fun cluster row => List.Forall₂ (fun column cell =>
      KeepsInstant recordBatches column cluster cell) (columnsOf result.schema) row)
      arranged result.rows := by
    have listed := (List.forall₂_and_left _ _).mpr ⟨fun _ => perm.mem_iff.mp, cells⟩
    refine listed.imp fun cluster row own => ?_
    have firsts := (List.forall₂_and_left _ _).mpr ⟨joins.first, own.2⟩
    refine firsts.imp fun column cell both => ?_
    rintro unit ⟨rowType, scalar⟩ isUnit source
    obtain ⟨name, type⟩ := column
    obtain rfl : type = .timestamp unit := isUnit
    obtain ⟨rowUnit, rfl⟩ := timestamp_source source both.2
    obtain ⟨value, isValue, agrees⟩ :=
      agree timeColumnName keyed named rows cluster own.1 name rowUnit scalar source
    refine (keeps_instant_iff source both.2).mpr ⟨value, isValue, agrees.imp_left fun same => ?_⟩
      unit _ rfl source
    cases both.1.symm.trans same
    rfl
  refine ⟨timeColumnName, keyed, result, arranged, rfl, named, rows, perm,
    ⟨joins.distinct, joins.named, joins.first, cells, .refl _, joins.timed, joins.sorted⟩, keeps,
    ?_⟩
  obtain ⟨index, unit, located, typed⟩ := joins.timed
  have instants : arranged.map (sourceInstant recordBatches timeColumnName) =
      result.rows.map fun row => (cellTime (result.schema.cell timeColumnName row)).map
        (convertTimestamp unit .nano) := by
    rw [← List.forall₂_eq_eq_eq, List.forall₂_map_left_iff, List.forall₂_map_right_iff]
    apply List.Forall₂.mp _ cells keeps
    intro cluster row own keepsRow
    exact source_instant_eq (relates_at own located typed) (relates_at keepsRow located typed)
  rw [← List.pairwise_map (f := sourceInstant recordBatches timeColumnName)
    (R := fun earlier later => earlier ≤ later), instants, List.pairwise_map]
  exact joins.sorted.imp fun before =>
    Monotone.withTop_map (fun _ _ => convert_timestamp_mono unit .nano) before

/-- A result keeps the instants just when no cluster takes a timestamp of another unit. -/
theorem instants_kept_iff {visitKeys : KeysToRows → KeysToRows}
    {visitColumns : List ColumnBuilder → List ColumnBuilder}
    (visits : ∀ keysToRows, (visitKeys keysToRows).Perm keysToRows)
    (arranges : ∀ builders, (visitColumns builders).Perm builders)
    (nonempty : recordBatches ≠ [])
    (returned : handle renderScalar visitKeys visitColumns joinOnColumns tolerance recordBatches =
      .ok results) :
    InstantsKept recordBatches renderScalar joinOnColumns tolerance results ↔
      UnitsAgree recordBatches renderScalar joinOnColumns tolerance := by
  constructor
  · exact units_agree_of_kept
  · intro agree
    obtain ⟨front, timeColumnName, keyed, result, rows, first, named, isKeyed, rfl, joins⟩ :=
      handle_ok visits arranges nonempty returned
    exact kept_of_units_agree agree ⟨front, first, named⟩ isKeyed joins

end Kept

def instantBatch (unit : Arrow.TimeUnit) (time : Int) : RecordBatch where
  schema := {
    fields := [⟨"time", .timestamp unit, true, {}⟩]
    metadata := { timeColumnName := some "time" } }
  rows := [[some (.integer time)]]
  conforms := by
    rw [List.forall_mem_singleton]
    exact .cons rfl .nil

def rowsOf : Outcome (List RecordBatch) → Option (List (List Row))
  | .ok results => some (results.map RecordBatch.rows)
  | .error _ => none

theorem seconds_joined :
    ∃ results, handle (fun _ _ => "") id id [] 0 [instantBatch .second 1, instantBatch .second 5] =
        .ok results ∧
      (InstantsKept [instantBatch .second 1, instantBatch .second 5] (fun _ _ => "") [] 0 results ↔
        UnitsAgree [instantBatch .second 1, instantBatch .second 5] (fun _ _ => "") [] 0) := by
  have returned : rowsOf (handle (fun _ _ => "") id id [] 0
      [instantBatch .second 1, instantBatch .second 5]) =
        some [[[some (.integer 1)], [some (.integer 5)]]] := by
    decide +kernel
  cases outcome : handle (fun _ _ => "") id id [] 0
      [instantBatch .second 1, instantBatch .second 5] with
  | error fault =>
      rw [outcome] at returned
      cases returned
  | ok results =>
      exact ⟨results, rfl, instants_kept_iff (fun _ => .refl _) (fun _ => .refl _)
        (List.cons_ne_nil _ _) outcome⟩

/-- Five seconds, in milliseconds, are returned as five thousand seconds. -/
theorem milliseconds_joined_as_seconds :
    ∃ results, handle (fun _ _ => "") id id [] 0
        [instantBatch .second 1, instantBatch .milli 5000] = .ok results ∧
      results.map RecordBatch.rows = [[[some (.integer 1)], [some (.integer 5000)]]] ∧
      ¬InstantsKept [instantBatch .second 1, instantBatch .milli 5000] (fun _ _ => "") [] 0
        results := by
  have returned : rowsOf (handle (fun _ _ => "") id id [] 0
      [instantBatch .second 1, instantBatch .milli 5000]) =
        some [[[some (.integer 1)], [some (.integer 5000)]]] := by
    decide +kernel
  cases outcome : handle (fun _ _ => "") id id [] 0
      [instantBatch .second 1, instantBatch .milli 5000] with
  | error fault =>
      rw [outcome] at returned
      cases returned
  | ok results =>
      rw [outcome, rowsOf, Option.some.injEq] at returned
      refine ⟨results, rfl, returned, ?_⟩
      intro kept
      obtain ⟨own, isOwn, agrees⟩ := units_agree_of_kept kept "time"
        [("", ⟨0, 0, 1⟩), ("", ⟨1, 0, 5⟩)] ⟨_, rfl, rfl⟩ (by decide +kernel) [⟨1, 0, 5⟩]
        (by decide +kernel) "time" .milli (some (.integer 5000)) (by decide +kernel)
      cases isOwn
      revert agrees
      decide

end StreamDataProcessor.Handlers.Join
