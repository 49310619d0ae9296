import StreamDataProcessor.Parsers.GraphiteMemory
import StreamDataProcessor.Foundation.KeyedMerge
import Mathlib.Data.Int.ConditionallyCompleteOrder
import Mathlib.Data.String.Basic
import Mathlib.Data.Finset.Card
import Mathlib.Data.Prod.Lex

/-!
# Rows of a Graphite buffer

The metrics of one timestamp, measurement and tags belong to one point of a series. The parser
tells points apart by their timestamps and key strings, and merges the lines of one key into a
row: the rows are the points just when the key strings tell the points apart.
-/

namespace StreamDataProcessor.Parsers.Graphite

open Foundation Foundation.Effect Arrow Utils.StringUtils

set_option autoImplicit false

structure Identity where
  timestamp : Int
  measurementName : String
  tags : Std.ExtTreeMap String String
  deriving DecidableEq

def Metric.identity (metric : Metric) : Identity :=
  ⟨metric.timestamp, metric.measurementName, metric.tags⟩

/-- What the set of parsed metrics tells them by, in its order. -/
abbrev Key := Bool ×ₗ Int ×ₗ String

def metricKey (metric : Metric) : Key :=
  toLex (decide (metric.timestamp = -1), toLex (metric.timestamp, metric.getKeyString))

section Order

theorem metric_key_eq_iff (first second : Metric) :
    metricKey first = metricKey second ↔
      first.timestamp = second.timestamp ∧ first.getKeyString = second.getKeyString := by
  unfold metricKey
  rw [toLex_inj, Prod.mk.injEq, toLex_inj, Prod.mk.injEq]
  constructor
  · exact And.right
  · intro same
    exact ⟨by rw [same.1], same⟩

theorem comes_before_iff (first second : Metric) :
    comesBefore first second = true ↔ metricKey first < metricKey second := by
  unfold metricKey comesBefore
  rw [Prod.Lex.toLex_lt_toLex, Prod.Lex.toLex_lt_toLex]
  dsimp only
  by_cases same : first.timestamp = second.timestamp
  · simp [same]
  · rw [if_neg same]
    by_cases missing : first.timestamp = -1
    · have other : second.timestamp ≠ -1 := fun also => same (missing.trans also.symm)
      simp [missing, other]
    · by_cases absent : second.timestamp = -1
      · simp [missing, absent]
      · simp [same, missing, absent]

theorem merge_keeps (held metric : Metric) (same : metricKey held = metricKey metric) :
    metricKey (held.mergeWith metric) = metricKey held := by
  obtain ⟨sameTime, sameKey⟩ := (metric_key_eq_iff held metric).mp same
  rw [Metric.mergeWith, if_neg (not_not.mpr sameKey), metric_key_eq_iff]
  refine ⟨?_, rfl⟩
  split
  · exact sameTime.symm
  · rfl

theorem insert_metric_eq (metric : Metric) (metrics : List Metric) :
    insertMetric metric metrics = KeyedMerge.insert metricKey Metric.mergeWith metric metrics := by
  induction metrics with
  | nil => rfl
  | cons parsed rest induction =>
      rw [insertMetric, KeyedMerge.insert, induction]
      simp only [comes_before_iff]

end Order

section Lines

variable (parser : GraphiteParser)

def lineMetrics (buffer : String) : List Metric :=
  (split buffer "\n").filterMap (lineMetric parser)

variable {parser}

theorem metrics_of_holds (buffer : String) :
    KeyedMerge.Holds metricKey Metric.mergeWith (lineMetrics parser buffer)
      (metricsOf parser buffer) := by
  have inserted : metricsOf parser buffer = (lineMetrics parser buffer).foldl
      (fun held metric => KeyedMerge.insert metricKey Metric.mergeWith metric held) [] := by
    rw [metricsOf, lineMetrics, List.foldl_filterMap]
    congr 1
    funext held metricString
    rw [insertLine]
    cases lineMetric parser metricString with
    | none => rfl
    | some metric => exact insert_metric_eq metric held
  rw [inserted]
  exact KeyedMerge.holds_insertions merge_keeps _

end Lines

section Merged

theorem lookup_add_field (fields : List (String × String)) (field : String × String)
    (name : String) :
    (addField fields field).lookup name = (fields ++ [field]).lookup name := by
  unfold addField
  split
  · next present =>
    rw [List.lookup_append]
    cases found : fields.lookup name with
    | some value => rw [Option.some_or]
    | none =>
        rw [Option.none_or]
        have other : name ≠ field.1 := by
          rintro rfl
          rw [List.lookup_eq_none_iff] at found
          obtain ⟨own, listed, same⟩ := List.mem_map.mp present
          simpa [same] using found own listed
        rw [List.lookup_cons, beq_false_of_ne other]
        rfl
  · rfl

theorem lookup_add_fields (added fields : List (String × String)) (name : String) :
    (added.foldl addField fields).lookup name = (fields ++ added).lookup name := by
  induction added generalizing fields with
  | nil => rw [List.foldl_nil, List.append_nil]
  | cons field rest induction =>
      rw [List.foldl_cons, induction, List.lookup_append, lookup_add_field, ← List.lookup_append,
        List.append_assoc]
      rfl

theorem merged_eq (first : Metric) (rest : List Metric)
    (same : ∀ metric ∈ rest, metricKey metric = metricKey first) :
    rest.foldl Metric.mergeWith first =
      { first with fields := (rest.flatMap Metric.fields).foldl addField first.fields } := by
  induction rest generalizing first with
  | nil => rfl
  | cons metric rest induction =>
      rw [List.forall_mem_cons] at same
      obtain ⟨sameTime, sameKey⟩ := (metric_key_eq_iff metric first).mp same.1
      have merged : first.mergeWith metric =
          { first with fields := metric.fields.foldl addField first.fields } := by
        rw [Metric.mergeWith, if_neg (not_not.mpr sameKey.symm), sameTime, ite_id]
      have others := induction { first with fields := metric.fields.foldl addField first.fields }
        same.2
      rw [List.foldl_cons, merged, others, List.flatMap_cons, List.foldl_append]

end Merged

section Rows

def seriesLines (lines : List Metric) (identity : Identity) : List Metric :=
  lines.filter fun metric => metric.identity = identity

/-- The row of a point: each field has the value of the first of the point's lines that has the
field, and is null where none has. -/
def seriesRow (now : Int) (tags : List String) (fieldsTypes : FieldsTypes) (lines : List Metric)
    (identity : Identity) : Row :=
  some (.integer (if identity.timestamp ≠ -1 then identity.timestamp else now)) ::
    some (.string identity.measurementName) ::
    (tags.map fun name => (identity.tags[name]?).map Value.string) ++
    fieldsTypes.toList.map fun field =>
      (((seriesLines lines identity).flatMap Metric.fields).lookup field.1).bind (cellOf field.2)

/-- A batch with a column for each tag and field of the lines and a row for each point. -/
structure SeriesRows (parser : GraphiteParser) (now : Int) (lines : List Metric)
    (recordBatch : RecordBatch) (tags : List String) (fieldsTypes : FieldsTypes) : Prop where
  names : recordBatch.schema.fieldNames = (resultFields parser tags fieldsTypes).map Field.name
  types : recordBatch.schema.types = (resultFields parser tags fieldsTypes).map Field.type
  tagged : ∀ name, name ∈ tags ↔ ∃ line ∈ lines, name ∈ line.tags
  valued : ∀ name, name ∈ fieldsTypes ↔ ∃ line ∈ lines, name ∈ line.fields.map Prod.fst
  rows : recordBatch.rows.Perm
    ((lines.map Metric.identity).dedup.map (seriesRow now tags fieldsTypes lines))

/-- A fresh parser returns the rows of the points of the buffer. -/
def MergesSeries (visitFields : List (String × String) → List (String × String))
    (parser : GraphiteParser) (now : Int) (buffer : String) : Prop :=
  ∃ batches after, parserCall visitFields parser (now, buffer) {} = .ok batches after ∧
    ((split buffer "\n" = [] ∧ batches = []) ∨
      ∃ recordBatch tags fieldsTypes, batches = [recordBatch] ∧
        SeriesRows parser now (lineMetrics parser buffer) recordBatch tags fieldsTypes)

/-- Lines with the same timestamp and key string are of one point. -/
def KeysTell (lines : List Metric) : Prop :=
  ∀ first ∈ lines, ∀ second ∈ lines, first.timestamp = second.timestamp →
    first.getKeyString = second.getKeyString →
      first.measurementName = second.measurementName ∧ first.tags = second.tags

theorem key_of_identity {first second : Metric} (same : first.identity = second.identity) :
    metricKey first = metricKey second := by
  rw [Metric.identity, Metric.identity, Identity.mk.injEq] at same
  rw [metric_key_eq_iff]
  refine ⟨same.1, ?_⟩
  rw [Metric.getKeyString, Metric.getKeyString, same.2.1, same.2.2]

theorem identity_of_key {lines : List Metric} (tell : KeysTell lines) {first second : Metric}
    (inLines : first ∈ lines) (inLinesToo : second ∈ lines)
    (same : metricKey first = metricKey second) : first.identity = second.identity := by
  obtain ⟨sameTime, sameKey⟩ := (metric_key_eq_iff first second).mp same
  obtain ⟨sameName, sameTags⟩ := tell first inLines second inLinesToo sameTime sameKey
  rw [Metric.identity, Metric.identity, sameTime, sameName, sameTags]

def Identity.key (identity : Identity) : Key :=
  metricKey ⟨identity.measurementName, identity.tags, [], identity.timestamp⟩

theorem keys_of_lines (lines : List Metric) :
    (lines.map metricKey).toFinset = (lines.map Metric.identity).toFinset.image Identity.key := by
  ext key
  rw [List.mem_toFinset, Finset.mem_image]
  simp only [List.mem_toFinset, List.mem_map]
  constructor
  · rintro ⟨line, listed, rfl⟩
    exact ⟨line.identity, ⟨line, listed, rfl⟩, rfl⟩
  · rintro ⟨_, ⟨line, listed, rfl⟩, rfl⟩
    exact ⟨line, listed, rfl⟩

/-- Where there are as many keys as points, the keys tell the points apart. -/
theorem keys_tell_of_counts {lines : List Metric}
    (counts : (lines.map metricKey).dedup.length = (lines.map Metric.identity).dedup.length) :
    KeysTell lines := by
  rw [← List.card_toFinset, ← List.card_toFinset, keys_of_lines, Finset.card_image_iff] at counts
  intro first inLines second inLinesToo sameTime sameKey
  have same : first.identity = second.identity := by
    apply counts
    · exact List.mem_toFinset.mpr (List.mem_map_of_mem inLines)
    · exact List.mem_toFinset.mpr (List.mem_map_of_mem inLinesToo)
    · exact (metric_key_eq_iff first second).mpr ⟨sameTime, sameKey⟩
  rw [Metric.identity, Metric.identity, Identity.mk.injEq] at same
  exact same.2

/-- Where keys tell the points apart, the metric of a key has the first values of its point. -/
theorem merged_of_point {lines : List Metric} (tell : KeysTell lines) {line : Metric}
    (listed : line ∈ lines) :
    ∃ merged, KeyedMerge.mergedAt metricKey Metric.mergeWith lines (metricKey line) = some merged ∧
      merged.identity = line.identity ∧
      (∀ name, merged.fields.lookup name =
        ((seriesLines lines line.identity).flatMap Metric.fields).lookup name) := by
  have same : lines.filter (fun metric => metricKey metric = metricKey line) =
      seriesLines lines line.identity := by
    apply List.filter_congr
    intro metric inLines
    rw [decide_eq_decide]
    exact ⟨identity_of_key tell inLines listed, key_of_identity⟩
  have own : line ∈ seriesLines lines line.identity :=
    List.mem_filter.mpr ⟨listed, decide_eq_true rfl⟩
  unfold KeyedMerge.mergedAt
  rw [same]
  cases isLines : seriesLines lines line.identity with
  | nil =>
      rw [isLines] at own
      cases own
  | cons first rest =>
      have all : ∀ metric ∈ first :: rest, metric.identity = line.identity := by
        intro metric member
        rw [← isLines] at member
        exact of_decide_eq_true (List.mem_filter.mp member).2
      rw [List.forall_mem_cons] at all
      have merged := merged_eq first rest fun metric member =>
        key_of_identity ((all.2 metric member).trans all.1.symm)
      refine ⟨_, rfl, ?_, ?_⟩
      · rw [merged]
        exact all.1
      · intro name
        rw [merged, lookup_add_fields, List.flatMap_cons]

variable {parser : GraphiteParser}

theorem mem_metrics_of (buffer : String) (metric : Metric) :
    metric ∈ metricsOf parser buffer ↔ ∃ line ∈ lineMetrics parser buffer,
      KeyedMerge.mergedAt metricKey Metric.mergeWith (lineMetrics parser buffer)
        (metricKey line) = some metric := by
  rw [KeyedMerge.mem_iff_merged (metrics_of_holds buffer)]
  constructor
  · intro merged
    have present : metricKey metric ∈ (lineMetrics parser buffer).map metricKey := by
      by_contra absent
      rw [KeyedMerge.merged_at_none_iff.mpr absent] at merged
      cases merged
    obtain ⟨line, listed, same⟩ := List.mem_map.mp present
    exact ⟨line, listed, by rw [same, merged]⟩
  · rintro ⟨line, _, merged⟩
    rwa [KeyedMerge.key_of_merged merge_keeps merged]

theorem tag_columns {buffer : String} (tell : KeysTell (lineMetrics parser buffer))
    (name : String) :
    (∃ metric ∈ metricsOf parser buffer, name ∈ metric.tags) ↔
      ∃ line ∈ lineMetrics parser buffer, name ∈ line.tags := by
  constructor
  · rintro ⟨metric, listed, tagged⟩
    obtain ⟨line, inLines, isMerged⟩ := (mem_metrics_of buffer metric).mp listed
    obtain ⟨merged, found, same, _⟩ := merged_of_point tell inLines
    cases found.symm.trans isMerged
    have tags : metric.tags = line.tags := congrArg Identity.tags same
    exact ⟨line, inLines, tags ▸ tagged⟩
  · rintro ⟨line, inLines, tagged⟩
    obtain ⟨merged, found, same, _⟩ := merged_of_point tell inLines
    have tags : merged.tags = line.tags := congrArg Identity.tags same
    exact ⟨merged, (mem_metrics_of buffer merged).mpr ⟨line, inLines, found⟩, tags ▸ tagged⟩

theorem has_field_iff (fields : List (String × String)) (name : String) :
    name ∈ fields.map Prod.fst ↔ (fields.lookup name).isSome = true := by
  rw [← Bool.not_eq_false, Option.isSome_eq_false_iff, Option.isNone_iff_eq_none,
    List.lookup_eq_none_iff]
  simp only [List.mem_map, bne_iff_ne, ne_eq, not_forall, not_not]
  constructor
  · rintro ⟨field, listed, same⟩
    exact ⟨field, listed, same.symm⟩
  · rintro ⟨field, listed, same⟩
    exact ⟨field, listed, same.symm⟩

theorem field_columns {buffer : String} (tell : KeysTell (lineMetrics parser buffer))
    (name : String) :
    (∃ metric ∈ metricsOf parser buffer, name ∈ metric.fields.map Prod.fst) ↔
      ∃ line ∈ lineMetrics parser buffer, name ∈ line.fields.map Prod.fst := by
  have ofPoint : ∀ line : Metric, name ∈ ((seriesLines (lineMetrics parser buffer) line.identity).flatMap
      Metric.fields).map Prod.fst ↔ ∃ own ∈ lineMetrics parser buffer,
        own.identity = line.identity ∧ name ∈ own.fields.map Prod.fst := by
    intro line
    simp only [seriesLines, List.mem_map, List.mem_flatMap, List.mem_filter, decide_eq_true_eq]
    constructor
    · rintro ⟨field, ⟨own, ⟨inLines, same⟩, listed⟩, isName⟩
      exact ⟨own, inLines, same, field, listed, isName⟩
    · rintro ⟨own, inLines, same, field, listed, isName⟩
      exact ⟨field, ⟨own, ⟨inLines, same⟩, listed⟩, isName⟩
  constructor
  · rintro ⟨metric, listed, valued⟩
    obtain ⟨line, inLines, isMerged⟩ := (mem_metrics_of buffer metric).mp listed
    obtain ⟨merged, found, _, values⟩ := merged_of_point tell inLines
    cases found.symm.trans isMerged
    rw [has_field_iff, values, ← has_field_iff, ofPoint] at valued
    obtain ⟨own, inLinesToo, _, named⟩ := valued
    exact ⟨own, inLinesToo, named⟩
  · rintro ⟨line, inLines, valued⟩
    obtain ⟨merged, found, _, values⟩ := merged_of_point tell inLines
    refine ⟨merged, (mem_metrics_of buffer merged).mpr ⟨line, inLines, found⟩, ?_⟩
    rw [has_field_iff, values, ← has_field_iff, ofPoint]
    exact ⟨line, inLines, rfl, valued⟩

theorem rows_of_points {buffer : String} (tell : KeysTell (lineMetrics parser buffer)) (now : Int)
    (tags : List String) (fieldsTypes : FieldsTypes) :
    ((metricsOf parser buffer).map (rowOf now tags fieldsTypes)).Perm
      (((lineMetrics parser buffer).map Metric.identity).dedup.map
        (seriesRow now tags fieldsTypes (lineMetrics parser buffer))) := by
  have keys : ((lineMetrics parser buffer).map metricKey).dedup.Perm
      (((lineMetrics parser buffer).map Metric.identity).dedup.map Identity.key) := by
    apply (List.perm_ext_iff_of_nodup (List.nodup_dedup _) ?_).mpr
    · intro key
      have same := congrArg (key ∈ ·) (keys_of_lines (lineMetrics parser buffer))
      simp only [List.mem_toFinset, Finset.mem_image, eq_iff_iff] at same
      rw [List.mem_dedup, same, List.mem_map]
      simp only [List.mem_dedup]
    · apply List.Nodup.map_on _ (List.nodup_dedup _)
      intro first inFirst second inSecond same
      obtain ⟨line, inLines, rfl⟩ := List.mem_map.mp (List.mem_dedup.mp inFirst)
      obtain ⟨other, inLinesToo, rfl⟩ := List.mem_map.mp (List.mem_dedup.mp inSecond)
      exact identity_of_key tell inLines inLinesToo same
  have whole := (KeyedMerge.holds_perm merge_keeps (@metrics_of_holds parser buffer)).trans
    (keys.filterMap _)
  have rows := whole.map (rowOf now tags fieldsTypes)
  rw [List.filterMap_map, List.map_filterMap] at rows
  refine rows.trans (.of_eq ?_)
  rw [← @List.filterMap_eq_map _ _ (seriesRow now tags fieldsTypes (lineMetrics parser buffer))]
  apply List.filterMap_congr
  intro identity listed
  obtain ⟨line, inLines, rfl⟩ := List.mem_map.mp (List.mem_dedup.mp listed)
  obtain ⟨merged, found, same, values⟩ := merged_of_point tell inLines
  have isMerged : (KeyedMerge.mergedAt metricKey Metric.mergeWith (lineMetrics parser buffer) ∘
      Identity.key) line.identity = some merged := found
  rw [isMerged, Option.map_some, Function.comp_apply, Option.some.injEq, rowOf, seriesRow]
  simp only [values, ← same]
  rfl

end Rows

section Calls

variable {parser : GraphiteParser} {visitFields : List (String × String) → List (String × String)}

theorem apart_iff {buffer : String} (tell : KeysTell (lineMetrics parser buffer)) :
    NamesApart parser (IsColumn (metricsOf parser buffer)) ↔
      NamesApart parser (IsColumn (lineMetrics parser buffer)) := by
  have same : ∀ name, IsColumn (metricsOf parser buffer) name ↔
      IsColumn (lineMetrics parser buffer) name := by
    intro name
    simp only [IsColumn, and_or_left, exists_or]
    rw [tag_columns tell, field_columns tell]
  simp only [NamesApart, same]

/-- Rows that are those of the points tell of keys that tell the points apart. -/
theorem keys_tell_of_merges (visits : ∀ fields, (visitFields fields).Perm fields) {now : Int}
    {buffer : String} (nonempty : split buffer "\n" ≠ [])
    (merges : MergesSeries visitFields parser now buffer) :
    KeysTell (lineMetrics parser buffer) ∧
      NamesApart parser (IsColumn (lineMetrics parser buffer)) := by
  obtain ⟨batches, after, returned, ⟨isEmpty, _⟩ |
    ⟨recordBatch, tags, fieldsTypes, rfl, series⟩⟩ := merges
  · exact absurd isEmpty nonempty
  obtain ⟨named, same, _, _, rows⟩ := call_returns visits nonempty returned
  cases same
  have keys := KeyedMerge.holds_length merge_keeps (@metrics_of_holds parser buffer)
  have tell : KeysTell (lineMetrics parser buffer) := by
    apply keys_tell_of_counts
    have lengths := series.rows.length_eq
    rwa [rows, List.length_map, List.length_map, keys] at lengths
  have apart := (call_answers_iff visits now nonempty).mp ⟨_, _, returned⟩
  exact ⟨tell, (apart_iff tell).mp apart⟩

/-- The rows are those of the points just when the key strings tell the points apart and no tag
or field has the name of the column of times or of measurements. -/
theorem merges_series_iff (visits : ∀ fields, (visitFields fields).Perm fields) (now : Int)
    (buffer : String) :
    MergesSeries visitFields parser now buffer ↔
      (split buffer "\n" = [] ∨ (KeysTell (lineMetrics parser buffer) ∧
        NamesApart parser (IsColumn (lineMetrics parser buffer)))) := by
  by_cases empty : split buffer "\n" = []
  · have returned : parserCall visitFields parser (now, buffer) {} = .ok [] {} := by
      rw [parserCall, parseRecordBatches, if_pos empty]
      rfl
    exact ⟨fun _ => .inl empty, fun _ => ⟨[], {}, returned, .inl ⟨empty, rfl⟩⟩⟩
  simp only [empty, false_or]
  constructor
  · exact keys_tell_of_merges visits empty
  · rintro ⟨tell, apart⟩
    obtain ⟨batches, after, returned⟩ :=
      (call_answers_iff visits now empty).mpr ((apart_iff tell).mpr apart)
    obtain ⟨named, rfl, names, types, rows⟩ := call_returns visits empty returned
    refine ⟨[named], after, returned, .inr ⟨named, _, _, rfl, names, types, ?_, ?_, ?_⟩⟩
    · intro name
      rw [mem_tag_names, tag_columns tell]
    · intro name
      rw [mem_fields_types_of visits, field_columns tell]
    · rw [rows]
      exact rows_of_points tell now _ _

end Calls

/-- The parser of the templates `measurement.measurement h=1` and
`measurement.measurement.measurement`. -/
def hostParser : GraphiteParser where
  templates := [
    { parts := [.measurement, .measurement]
      additionalTags := (∅ : Std.ExtTreeMap String String).insert "h" "1" },
    { parts := [.measurement, .measurement, .measurement] }]

theorem two_lines_of_a_point : MergesSeries id hostParser 0 "cpu.a 1 10\ncpu.a 2 10" := by
  apply (merges_series_iff (fun _ => .refl _) 0 _).mpr
  refine .inr ⟨?_, ?_⟩
  · unfold KeysTell
    decide +kernel
  · decide +kernel

/-- The key string of a tag is that of a measurement whose name looks like it. -/
theorem two_points_merged : ¬MergesSeries id hostParser 0 "cpu.a 1 10\ncpu.a.h=1 2 10" := by
  intro merges
  have tell := (keys_tell_of_merges (fun _ => .refl _) (by decide +kernel) merges).1
  revert tell
  unfold KeysTell
  decide +kernel

end StreamDataProcessor.Parsers.Graphite
