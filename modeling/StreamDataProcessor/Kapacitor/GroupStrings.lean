import StreamDataProcessor.Kapacitor.GroupingUtils
import StreamDataProcessor.Utils.StringSplits
import StreamDataProcessor.Foundation.Entries

/-!
# Decoding group strings

The group string of a group decodes to the group just when no separator stands in its tags, and no
line break in its measurement.
-/

namespace StreamDataProcessor.Kapacitor.GroupingUtils

open Metadata Utils

set_option autoImplicit false

/-- A text without the separators of tags. -/
def Plain (text : String) : Prop := '\n' ∉ text.toList ∧ ',' ∉ text.toList ∧ '=' ∉ text.toList

/-- The value of a column can be told in a group string. -/
def Encodable (measurementColumnName : String) (column : String × String) : Prop :=
  if column.1 = measurementColumnName then '\n' ∉ column.2.toList
  else Plain column.1 ∧ Plain column.2

instance (text : String) : Decidable (Plain text) := inferInstanceAs (Decidable (_ ∧ _))

instance (measurementColumnName : String) (column : String × String) :
    Decidable (Encodable measurementColumnName column) :=
  inferInstanceAs (Decidable (ite _ _ _))

section Encode

variable {groupMap : Std.ExtTreeMap String String} {measurementColumnName : String}
  {columnTypes : List (String × ColumnType)}

theorem group_columns (groupMap : Std.ExtTreeMap String String) :
    (constructGroupFromOrderedMap groupMap).groupColumnsNames.zip
      (constructGroupFromOrderedMap groupMap).groupColumnsValues = groupMap.toList := by
  rw [constructGroupFromOrderedMap, ← List.zip_of_prod rfl rfl]

theorem construct_group_inj {first second : Std.ExtTreeMap String String} :
    constructGroupFromOrderedMap first = constructGroupFromOrderedMap second ↔
      first = second := by
  constructor
  · intro same
    have columns := group_columns first
    rw [same, group_columns] at columns
    exact (Std.ExtTreeMap.toList_inj.mp columns).symm
  · rintro rfl
    rfl

def tagStrings (groupMap : Std.ExtTreeMap String String) (measurementColumnName : String) :
    List String :=
  (groupMap.toList.filter fun column => column.1 ≠ measurementColumnName).map fun column =>
    column.1 ++ "=" ++ column.2

def measurementLine (groupMap : Std.ExtTreeMap String String) (measurementColumnName : String) :
    String :=
  match groupMap[measurementColumnName]? with
  | some measurement => measurement ++ "\n"
  | none => ""

theorem last_of_columns {columns : List (String × String)}
    (distinct : (columns.map Prod.fst).Nodup) (name before : String) :
    columns.foldl (fun earlier column =>
        if column.1 = name then column.2 ++ "\n" else earlier) before =
      match columns.lookup name with
      | some value => value ++ "\n"
      | none => before := by
  induction columns generalizing before with
  | nil => rfl
  | cons column rest induction =>
      rw [List.map_cons, List.nodup_cons] at distinct
      rw [List.foldl_cons, induction distinct.2, List.lookup_cons]
      by_cases same : column.1 = name
      · have absent := Foundation.Entries.lookup_of_absent (same ▸ distinct.1)
        simp [same, absent]
      · have other : (name == column.1) = false := beq_false_of_ne (Ne.symm same)
        simp [same, other]

theorem columns_distinct (groupMap : Std.ExtTreeMap String String) :
    (groupMap.toList.map Prod.fst).Nodup := by
  rw [Std.ExtTreeMap.map_fst_toList_eq_keys]
  exact Std.ExtTreeMap.nodup_keys

theorem lookup_columns (groupMap : Std.ExtTreeMap String String) (name : String) :
    groupMap.toList.lookup name = groupMap[name]? := by
  apply Option.ext
  intro value
  rw [← Std.ExtTreeMap.mem_toList_iff_getElem?_eq_some]
  exact Foundation.Entries.lookup_iff_mem (columns_distinct groupMap)

theorem encode_eq (tags : ∀ name ∈ groupMap, name ≠ measurementColumnName →
      columnTypes.lookup name = some .tag) :
    encode (constructGroupFromOrderedMap groupMap) measurementColumnName columnTypes =
      measurementLine groupMap measurementColumnName ++
        ",".intercalate (tagStrings groupMap measurementColumnName) := by
  have filtered : (groupMap.toList.filter fun column => column.1 ≠ measurementColumnName ∧
      columnTypes.lookup column.1 = some .tag) =
        groupMap.toList.filter fun column => column.1 ≠ measurementColumnName := by
    apply List.filter_congr
    rintro ⟨name, value⟩ listed
    have present : name ∈ groupMap := by
      rw [Std.ExtTreeMap.mem_iff_isSome_getElem?,
        Std.ExtTreeMap.mem_toList_iff_getElem?_eq_some.mp listed, Option.isSome_some]
    rw [decide_eq_decide]
    exact ⟨fun both => both.1, fun other => ⟨other, tags name present other⟩⟩
  have line := last_of_columns (columns_distinct groupMap) measurementColumnName ""
  rw [lookup_columns] at line
  unfold encode
  rw [group_columns]
  dsimp only
  rw [line, filtered]
  rfl

end Encode

section Decode

theorem plain_tag {name value : String} (plainName : Plain name) (plainValue : Plain value) :
    StringUtils.split (name ++ "=" ++ value) "=" = [name, value] := by
  have joined : "=".intercalate [name, value] = name ++ "=" ++ value := by
    simp [String.append_assoc]
  rw [← joined]
  apply @StringUtils.split_joined "=" '=' rfl
  · intro part listed
    simp only [List.mem_cons, List.not_mem_nil, or_false] at listed
    rcases listed with rfl | rfl
    · exact plainName.2.2
    · exact plainValue.2.2
  · rw [joined]
    intro none
    have length := congrArg String.length none
    simp at length

/-- Tags that are written plainly are read in their order. -/
theorem parse_tags {columns : List (String × String)}
    (plain : ∀ column ∈ columns, Plain column.1 ∧ Plain column.2)
    (groupMap : Std.ExtTreeMap String String) :
    (columns.map fun column => column.1 ++ "=" ++ column.2).foldlM parseTagValue groupMap =
      some (columns.foldl (fun filled column => filled.insert column.1 column.2) groupMap) := by
  induction columns generalizing groupMap with
  | nil => rfl
  | cons column rest induction =>
      rw [List.forall_mem_cons] at plain
      have read : parseTagValue groupMap (column.1 ++ "=" ++ column.2) =
          some (groupMap.insert column.1 column.2) := by
        rw [parseTagValue, plain_tag plain.1.1 plain.1.2]
      rw [List.map_cons, List.foldlM_cons, read]
      exact induction plain.2 _

theorem tags_split {columns : List (String × String)}
    (plain : ∀ column ∈ columns, Plain column.1 ∧ Plain column.2) :
    StringUtils.split (",".intercalate (columns.map fun column =>
      column.1 ++ "=" ++ column.2)) "," = columns.map fun column => column.1 ++ "=" ++ column.2 := by
  cases columns with
  | nil => rfl
  | cons first rest =>
      apply @StringUtils.split_joined "," ',' rfl
      · intro part listed
        obtain ⟨column, member, rfl⟩ := List.mem_map.mp listed
        obtain ⟨name, value⟩ := plain column member
        simp [name.2.1, value.2.1]
      · intro none
        have length := congrArg String.length none
        cases rest with
        | nil => simp at length
        | cons second rest => simp at length

theorem inserted_columns (columns : List (String × String)) (name : String)
    (distinct : (columns.map Prod.fst).Nodup) (groupMap : Std.ExtTreeMap String String) :
    (columns.foldl (fun filled column => filled.insert column.1 column.2) groupMap)[name]? =
      (columns.lookup name).or groupMap[name]? := by
  induction columns generalizing groupMap with
  | nil => rfl
  | cons column rest induction =>
      rw [List.map_cons, List.nodup_cons] at distinct
      rw [List.foldl_cons, induction distinct.2, List.lookup_cons, Std.ExtTreeMap.getElem?_insert]
      by_cases same : column.1 = name
      · have absent := Foundation.Entries.lookup_of_absent (same ▸ distinct.1)
        simp [same, absent]
      · have other : (name == column.1) = false := beq_false_of_ne (Ne.symm same)
        simp [same, other]

theorem no_break_in_tags {columns : List (String × String)}
    (plain : ∀ column ∈ columns, Plain column.1 ∧ Plain column.2) :
    '\n' ∉ (",".intercalate (columns.map fun column =>
      column.1 ++ "=" ++ column.2)).toList := by
  induction columns with
  | nil => simp
  | cons column rest induction =>
      rw [List.forall_mem_cons] at plain
      cases rest with
      | nil => simp [plain.1.1.1, plain.1.2.1]
      | cons next rest =>
          have later := induction plain.2
          rw [List.map_cons] at later
          rw [List.map_cons, List.map_cons, String.intercalate_cons_cons]
          simp only [String.toList_append, List.mem_append, not_or]
          exact ⟨⟨⟨⟨plain.1.1.1, by decide⟩, plain.1.2.1⟩, by decide⟩, later⟩

variable {groupMap : Std.ExtTreeMap String String} {measurementColumnName : String}

theorem map_of_columns (groupMap : Std.ExtTreeMap String String) (measurementColumnName : String)
    (base : Std.ExtTreeMap String String)
    (isBase : ∀ name, base[name]? =
      if name = measurementColumnName then groupMap[name]? else none) :
    (groupMap.toList.filter fun column => column.1 ≠ measurementColumnName).foldl
      (fun filled column => filled.insert column.1 column.2) base = groupMap := by
  have distinct : ((groupMap.toList.filter fun column =>
      column.1 ≠ measurementColumnName).map Prod.fst).Nodup :=
    (columns_distinct groupMap).sublist (List.filter_sublist.map Prod.fst)
  apply Std.ExtTreeMap.ext_getElem?
  intro name
  rw [inserted_columns _ _ distinct, isBase]
  by_cases same : name = measurementColumnName
  · have absent : (groupMap.toList.filter fun column =>
        column.1 ≠ measurementColumnName).lookup name = none := by
      apply Foundation.Entries.lookup_of_absent
      simp [same]
    rw [absent, Option.none_or, if_pos same]
  · rw [if_neg same, Option.or_none]
    apply Option.ext
    intro value
    rw [Foundation.Entries.lookup_iff_mem distinct, List.mem_filter,
      Std.ExtTreeMap.mem_toList_iff_getElem?_eq_some]
    simp [same]

theorem parse_tag_values (clean : ∀ column ∈ groupMap.toList,
      Encodable measurementColumnName column) (base : Std.ExtTreeMap String String)
    (isBase : ∀ name, base[name]? =
      if name = measurementColumnName then groupMap[name]? else none) :
    parseTagValues base (",".intercalate (tagStrings groupMap measurementColumnName)) =
      some (constructGroupFromOrderedMap groupMap) := by
  have plain : ∀ column ∈ groupMap.toList.filter fun column =>
      column.1 ≠ measurementColumnName, Plain column.1 ∧ Plain column.2 := by
    intro column listed
    obtain ⟨member, other⟩ := List.mem_filter.mp listed
    have encodable := clean column member
    rwa [Encodable, if_neg (of_decide_eq_true other)] at encodable
  rw [parseTagValues, tagStrings, tags_split plain, parse_tags plain,
    map_of_columns groupMap measurementColumnName base isBase]
  rfl

theorem decode_of_encodable (clean : ∀ column ∈ groupMap.toList,
      Encodable measurementColumnName column) :
    parse (measurementLine groupMap measurementColumnName ++
        ",".intercalate (tagStrings groupMap measurementColumnName)) measurementColumnName =
      some (constructGroupFromOrderedMap groupMap) := by
  have plain : ∀ column ∈ groupMap.toList.filter fun column =>
      column.1 ≠ measurementColumnName, Plain column.1 ∧ Plain column.2 := by
    intro column listed
    obtain ⟨member, other⟩ := List.mem_filter.mp listed
    have encodable := clean column member
    rwa [Encodable, if_neg (of_decide_eq_true other)] at encodable
  have tagLine := no_break_in_tags plain
  rw [← tagStrings] at tagLine
  unfold measurementLine parse
  cases found : groupMap[measurementColumnName]? with
  | some measurement =>
      have whole : measurement ++ "\n" ++
          ",".intercalate (tagStrings groupMap measurementColumnName) =
            "\n".intercalate [measurement,
              ",".intercalate (tagStrings groupMap measurementColumnName)] := by
        simp [String.append_assoc]
      have encodable := clean _ (Std.ExtTreeMap.mem_toList_iff_getElem?_eq_some.mpr found)
      rw [Encodable, if_pos rfl] at encodable
      have lines : StringUtils.split (measurement ++ "\n" ++
          ",".intercalate (tagStrings groupMap measurementColumnName)) "\n" =
            [measurement, ",".intercalate (tagStrings groupMap measurementColumnName)] := by
        rw [whole]
        apply @StringUtils.split_joined "\n" '\n' rfl
        · simp only [List.forall_mem_cons, List.not_mem_nil, false_implies, implies_true, and_true]
          exact ⟨encodable, tagLine⟩
        · rw [← whole]
          intro none
          have length := congrArg String.length none
          simp at length
      dsimp only
      rw [lines]
      apply parse_tag_values clean
      intro name
      rw [Std.ExtTreeMap.getElem?_insert]
      simp only [Std.LawfulEqCmp.compare_eq_iff_eq, eq_comm (a := measurementColumnName)]
      split
      · next same => rw [same, found]
      · exact Std.ExtTreeMap.getElem?_empty
  | none =>
      dsimp only
      rw [String.empty_append]
      have tagged := @parse_tag_values groupMap measurementColumnName clean ∅ (by
        intro name
        split
        · next same => rw [same, found, Std.ExtTreeMap.getElem?_empty]
        · exact Std.ExtTreeMap.getElem?_empty)
      by_cases empty : ",".intercalate (tagStrings groupMap measurementColumnName) = ""
      · rw [empty] at tagged ⊢
        exact tagged
      · have lines : StringUtils.split
            (",".intercalate (tagStrings groupMap measurementColumnName)) "\n" =
              [",".intercalate (tagStrings groupMap measurementColumnName)] := by
          have joined := @StringUtils.split_joined "\n" '\n' rfl
            [",".intercalate (tagStrings groupMap measurementColumnName)] (by simpa using tagLine)
            (by simpa using empty)
          simpa using joined
        rw [lines]
        exact tagged

/-- What a group string decodes to has no separators in its tags. -/
theorem parse_tag_encodable {filled result : Std.ExtTreeMap String String} {tagValue : String}
    (encodable : ∀ column ∈ filled.toList, Encodable measurementColumnName column)
    (clean : '\n' ∉ tagValue.toList ∧ ',' ∉ tagValue.toList)
    (read : parseTagValue filled tagValue = some result) :
    ∀ column ∈ result.toList, Encodable measurementColumnName column := by
  unfold parseTagValue at read
  split at read
  · next tag value parts =>
    cases read
    have plain : ∀ part ∈ StringUtils.split tagValue "=", Plain part := by
      intro part listed
      have own := @StringUtils.mem_split "=" '=' rfl _ _ listed
      exact ⟨fun inPart => clean.1 (own.2 _ inPart), fun inPart => clean.2 (own.2 _ inPart), own.1⟩
    rw [parts] at plain
    rintro ⟨name, text⟩ listed
    rw [Std.ExtTreeMap.mem_toList_iff_getElem?_eq_some, Std.ExtTreeMap.getElem?_insert] at listed
    simp only [Std.LawfulEqCmp.compare_eq_iff_eq] at listed
    split at listed
    · next same =>
      cases same
      cases listed
      have plainTag := plain tag (by simp)
      have plainValue := plain value (by simp)
      rw [Encodable]
      split
      · exact plainValue.1
      · exact ⟨plainTag, plainValue⟩
    · exact encodable _ (Std.ExtTreeMap.mem_toList_iff_getElem?_eq_some.mpr listed)
  · cases read

theorem parse_tags_encodable {base : Std.ExtTreeMap String String} {tagValues : String}
    (encodable : ∀ column ∈ base.toList, Encodable measurementColumnName column)
    (clean : '\n' ∉ tagValues.toList)
    (read : parseTagValues base tagValues = some (constructGroupFromOrderedMap groupMap)) :
    ∀ column ∈ groupMap.toList, Encodable measurementColumnName column := by
  have each : ∀ (parts : List String) (filled result : Std.ExtTreeMap String String),
      (∀ part ∈ parts, '\n' ∉ part.toList ∧ ',' ∉ part.toList) →
        (∀ column ∈ filled.toList, Encodable measurementColumnName column) →
          parts.foldlM parseTagValue filled = some result →
            ∀ column ∈ result.toList, Encodable measurementColumnName column := by
    intro parts
    induction parts with
    | nil =>
        intro filled result _ encodable same
        cases same
        exact encodable
    | cons part rest induction =>
        intro filled result clean encodable read
        rw [List.forall_mem_cons] at clean
        rw [List.foldlM_cons] at read
        obtain ⟨next, first, others⟩ := Option.bind_eq_some_iff.mp read
        exact induction next result clean.2 (parse_tag_encodable encodable clean.1 first) others
  obtain ⟨result, all, same⟩ := Option.bind_eq_some_iff.mp read
  cases construct_group_inj.mp (Option.some.inj same)
  apply each _ base _ _ encodable all
  intro part listed
  have own := @StringUtils.mem_split "," ',' rfl _ _ listed
  exact ⟨fun inPart => clean (own.2 _ inPart), own.1⟩

/-- What decodes to a group has no separator in the tags, nor a line break in the measurement. -/
theorem encodable_of_decode {groupString : String}
    (read : parse groupString measurementColumnName =
      some (constructGroupFromOrderedMap groupMap)) :
    ∀ column ∈ groupMap.toList, Encodable measurementColumnName column := by
  have clean : ∀ line ∈ StringUtils.split groupString "\n", '\n' ∉ line.toList := fun line listed =>
    (@StringUtils.mem_split "\n" '\n' rfl _ _ listed).1
  unfold parse at read
  split at read
  · have same : (∅ : Std.ExtTreeMap String String) = groupMap :=
      construct_group_inj.mp (Option.some.inj read)
    cases same
    simp
  · next tagValues lines =>
    rw [lines] at clean
    apply parse_tags_encodable _ (clean tagValues (by simp)) read
    simp
  · next measurement tagValues lines =>
    rw [lines] at clean
    apply parse_tags_encodable _ (clean tagValues (by simp)) read
    rintro ⟨name, value⟩ listed
    rw [Std.ExtTreeMap.mem_toList_iff_getElem?_eq_some, Std.ExtTreeMap.getElem?_insert] at listed
    simp only [Std.LawfulEqCmp.compare_eq_iff_eq, Std.ExtTreeMap.getElem?_empty,
      Option.ite_none_right_eq_some, Option.some.injEq] at listed
    rw [Encodable, if_pos listed.1.symm, ← listed.2]
    exact clean measurement (by simp)
  · cases read

end Decode

/-- A group string decodes to its group just when no separator stands in the group's tags, and no
line break in its measurement. -/
theorem group_decodes_iff {groupMap : Std.ExtTreeMap String String} {measurementColumnName : String}
    {columnTypes : List (String × ColumnType)}
    (tags : ∀ name ∈ groupMap, name ≠ measurementColumnName →
      columnTypes.lookup name = some .tag) :
    parse (encode (constructGroupFromOrderedMap groupMap) measurementColumnName columnTypes)
        measurementColumnName = some (constructGroupFromOrderedMap groupMap) ↔
      ∀ column ∈ groupMap.toList, Encodable measurementColumnName column := by
  rw [encode_eq tags]
  exact ⟨encodable_of_decode, decode_of_encodable⟩

theorem group_strings_apart {first second : Std.ExtTreeMap String String}
    {measurementColumnName : String} {firstTypes secondTypes : List (String × ColumnType)}
    (firstTags : ∀ name ∈ first, name ≠ measurementColumnName →
      firstTypes.lookup name = some .tag)
    (secondTags : ∀ name ∈ second, name ≠ measurementColumnName →
      secondTypes.lookup name = some .tag)
    (firstClean : ∀ column ∈ first.toList, Encodable measurementColumnName column)
    (secondClean : ∀ column ∈ second.toList, Encodable measurementColumnName column)
    (same : encode (constructGroupFromOrderedMap first) measurementColumnName firstTypes =
      encode (constructGroupFromOrderedMap second) measurementColumnName secondTypes) :
    first = second := by
  rw [encode_eq firstTags, encode_eq secondTags] at same
  have decoded := decode_of_encodable firstClean
  rw [same, decode_of_encodable secondClean] at decoded
  exact (construct_group_inj.mp (Option.some.inj decoded)).symm

def hostGroup : Std.ExtTreeMap String String :=
  ((∅ : Std.ExtTreeMap String String).insert "host" "a").insert "name" "cpu"

theorem host_decodes :
    parse (encode (constructGroupFromOrderedMap hostGroup) "name" [("host", .tag)]) "name" =
      some (constructGroupFromOrderedMap hostGroup) := by
  have tags : ∀ name ∈ hostGroup, name ≠ "name" →
      [("host", ColumnType.tag)].lookup name = some .tag := by
    simp only [← Std.ExtTreeMap.mem_keys]
    decide +kernel
  exact (group_decodes_iff tags).mpr (by decide +kernel)

/-- The comma in a value ends its tag. -/
theorem comma_in_a_tag :
    parse (encode (constructGroupFromOrderedMap
        ((∅ : Std.ExtTreeMap String String).insert "host" "a,b")) "name" [("host", .tag)]) "name" ≠
      some (constructGroupFromOrderedMap
        ((∅ : Std.ExtTreeMap String String).insert "host" "a,b")) := by
  decide +kernel

end StreamDataProcessor.Kapacitor.GroupingUtils
