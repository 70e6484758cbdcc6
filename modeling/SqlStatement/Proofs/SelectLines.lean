import SqlStatement.Proofs.Identifiers
import SqlStatement.Proofs.Lines
import SqlStatement.Proofs.OrderedAliases
import SqlStatement.Proofs.SelectDefects

/-!
# The text of selects

A select is a line for each of its clauses, and the selects inside it are written
by the same rule.  Line breaks at the end of a select go.  Nearly always that is
the one behind the last line.  If the last line is FROM and ends with an alias that
is a line break itself, the alias goes along with it.

* `Level.lines`: the lines of a select, with what decides on each of them.
* `Level.Unbroken`: none of the texts that may end a line ends in a line break.
* `Level.DropsAlias`: the alias of the base table is a line break, and ends the text.
* `Level.lines_of_compile`: every select of a statement is its lines.
* `Level.not_lines_brokenAlias`: an alias that goes.
-/

namespace SqlStatement

open Script

/-! ### The clauses behind WHERE -/

namespace Selection

/-- GROUP BY and ORDER BY if something is listed, LIMIT if it is not zero, FOR UPDATE if the rows
are to be locked. -/
def tailLines (n : Naming) (s : Selection) : List String :=
  (if s.group.isEmpty then [] else ["GROUP BY " ++ commas (s.group.map n.qualify)])
    ++ (if s.order.isEmpty then []
      else ["ORDER BY " ++ commas (s.order.map (OrderField.written n))])
    ++ (if 0 < s.limit then ["LIMIT " ++ s.offset.toNat.repr ++ "," ++ s.limit.toNat.repr] else [])
    ++ (if s.locked then ["FOR UPDATE"] else [])

theorem listedLine_eq (heading : String) {α : Type} (items : List α) (f : α → String) :
    listedLine heading (items.map f)
      = Text.ofLines (if items.isEmpty then [] else [heading ++ commas (items.map f)]) := by
  cases items with
  | nil => rfl
  | cons a rest => simp [listedLine]

theorem written_tailLines (schema : String) (n : Naming) (s : Selection) :
    written schema (s.tailScript n) = (Text.ofLines (s.tailLines n)).toList := by
  have hLimit : s.limitLine = Text.ofLines (if 0 < s.limit then
      ["LIMIT " ++ s.offset.toNat.repr ++ "," ++ s.limit.toNat.repr] else []) := by
    rw [limitLine]
    split
    · rw [Text.ofLines_singleton]
    · rfl
  have hLock : s.lockLine = Text.ofLines (if s.locked then ["FOR UPDATE"] else []) := by
    rw [lockLine]
    split
    · rfl
    · rfl
  rw [written_tailScript, tailLines, Text.ofLines_append, Text.ofLines_append, Text.ofLines_append,
    groupLine, orderLine, listedLine_eq, listedLine_eq, hLimit, hLock]

theorem unbroken_tailLines {s : Selection} (n : Naming) (hGroup : ∀ f ∈ s.group, Text.Unbroken f)
    (hOrder : ∀ o ∈ s.order, Text.Unbroken o.field) :
    ∀ line ∈ s.tailLines n, Text.Unbroken line ∧ line ≠ "" := by
  have hListed : ∀ (heading : String) (items : List String), Text.Unbroken heading →
      heading ≠ "" → (∀ item ∈ items, Text.Unbroken item) →
      Text.Unbroken (heading ++ commas items) ∧ heading ++ commas items ≠ "" :=
    fun heading items hHeading hne hItems =>
      ⟨hHeading.append (Text.unbroken_intercalate (by decide) hItems), by simp [hne]⟩
  simp only [tailLines, List.forall_mem_append]
  refine ⟨⟨⟨?_, ?_⟩, ?_⟩, ?_⟩
  · split
    · simp
    · refine List.forall_mem_singleton.mpr (hListed _ _ (by decide) (by decide) ?_)
      exact List.forall_mem_map.mpr fun f hf => Naming.unbroken_qualify (hGroup f hf) n
  · split
    · simp
    · refine List.forall_mem_singleton.mpr (hListed _ _ (by decide) (by decide) ?_)
      refine List.forall_mem_map.mpr fun o ho => (Naming.unbroken_qualify (hOrder o ho) n).append ?_
      split <;> decide
  · split
    · have hNumber := Text.unbroken_of_not_mem (Nat.not_mem_repr s.limit.toNat)
      have hComma : Text.Unbroken ("LIMIT " ++ s.offset.toNat.repr ++ ",") :=
        .behind (by decide) (by decide) _
      exact List.forall_mem_singleton.mpr ⟨hComma.append hNumber, by simp⟩
    · simp
  · split
    · exact List.forall_mem_singleton.mpr (by decide)
    · simp

theorem tailLines_eq_nil_iff {n : Naming} {s : Selection} : s.tailLines n = []
    ↔ s.group = [] ∧ s.order = [] ∧ ¬ 0 < s.limit ∧ s.locked = false := by
  have hIf : ∀ (p : Prop) [Decidable p] (line : String),
      (if p then [] else [line]) = [] ↔ p := by
    intro p _ line
    split <;> simp [*]
  have hIf' : ∀ (p : Prop) [Decidable p] (line : String),
      (if p then [line] else []) = [] ↔ ¬ p := by
    intro p _ line
    split <;> simp [*]
  simp only [tailLines, List.append_eq_nil_iff, hIf, hIf', List.isEmpty_iff, Bool.not_eq_true,
    and_assoc]

end Selection

/-! ### The alias of the base table -/

/-- An alias ends in a line break only if it is one: the first character of the table, when no alias
was asked for. -/
theorem Naming.eq_newline_of_free? {taken : List String} {table base : String}
    {requested : Option String} (hRequested : ∀ a, requested = some a → Text.Unbroken a)
    (hFree : free? taken table requested = some base) (hBase : ¬ Text.Unbroken base) :
    base = "\n" ∧ requested = none ∧ table.toList.head? = some '\n' := by
  have hLetters : ∀ l ∈ letters, Text.Unbroken l := by decide
  rw [free?, candidates] at hFree
  rcases List.mem_cons.mp (List.mem_of_find?_eq_some hFree) with rfl | hLetter
  · cases requested with
    | some a => exact absurd (hRequested a rfl) hBase
    | none =>
      cases hTable : table.toList with
      | nil =>
        rw [preferred, hTable] at hBase
        exact absurd Text.unbroken_empty hBase
      | cons c rest =>
        rw [preferred, hTable] at hBase ⊢
        have hc : c = '\n' := by
          by_contra hc
          refine hBase ?_
          rw [Text.Unbroken]
          simpa using hc
        rw [hc]
        exact ⟨rfl, rfl, rfl⟩
  · exact absurd (hLetters base hLetter) hBase

namespace Level

/-! ### The lines of a level -/

section Lines

variable (schema : String) (l : Level)

/-- A JSON sub-select as it stands in the level around it. -/
def jsonText (sub : JsonSelect) : String :=
  "(" ++ String.ofList (nestedText schema (json l sub).script) ++ ")"

/-- The select list: fields and then JSON sub-selects with their names, or all columns. -/
def listLine : String :=
  "SELECT " ++ (if l.select.selection.distinct then "DISTINCT " else "")
    ++ if l.select.selection.fields.isEmpty ∧ l.select.json.isEmpty then "*"
      else commas (l.select.selection.fields.map (SelectField.written l.naming)
        ++ l.select.json.map fun sub => l.jsonText schema sub ++ " " ++ sub.name)

/-- The rows as objects: a pair of a key and an expression for every field and then for every JSON
sub-select. -/
def objectLine : String :=
  "SELECT JSON_ARRAYAGG(JSON_OBJECT("
    ++ commas (l.select.selection.fields.map (fun f =>
        "'" ++ f.outputName ++ "', " ++ f.expression l.naming)
      ++ l.select.json.map fun sub => "'" ++ sub.name ++ "', " ++ l.jsonText schema sub) ++ "))"

/-- The base table, its alias unless it stands alone, and the JSON tables. -/
def fromLine : String :=
  "FROM " ++ schema ++ "." ++ l.select.source.table
    ++ (if l.correlation.isNone ∧ l.select.source.joins.isEmpty ∧ l.select.json.isEmpty
        ∧ l.select.selection.jsonTables.isEmpty then "" else " " ++ l.naming.base)
    ++ String.join (l.select.selection.jsonTables.map (JsonTable.text l.naming))

/-- The lines of a level that writes these joins and these parts of its filter. -/
def lines (joins : List Join) (rendered : List Compiled) : List String :=
  [if l.correlation.isSome then l.objectLine schema else l.listLine schema, l.fromLine schema]
    ++ joins.map (Join.lineText schema l.naming)
    ++ whereLines l.naming l.correlation l.select.source.row l.select.filter rendered
    ++ l.select.selection.tailLines l.naming

end Lines

/-- No text that may end a line of the level ends in a line break. -/
structure Unbroken (l : Level) : Prop where
  table : Text.Unbroken l.select.source.table
  requested : ∀ a, l.select.source.requested = some a → Text.Unbroken a
  jsonTables : ∀ t ∈ l.select.selection.jsonTables, Text.Unbroken t.name
  joins : ∀ j ∈ l.select.source.joins, ∀ foreign ∈ j.foreignFields, Text.Unbroken foreign
  outer : ∀ around sub, l = json around sub → Text.Unbroken sub.outer
  group : ∀ f ∈ l.select.selection.group, Text.Unbroken f
  order : ∀ o ∈ l.select.selection.order, Text.Unbroken o.field

/-- No alias was asked for, the table begins with a line break, which becomes its alias, and nothing
is written behind that. -/
structure DropsAlias (l : Level) (joins : List Join) : Prop where
  requested : l.select.source.requested = none
  table : l.select.source.table.toList.head? = some '\n'
  base : l.naming.base = "\n"
  jsonTables : l.select.selection.jsonTables = []
  joins : joins = []
  correlation : l.correlation = none
  row : l.select.source.row = none
  occurrences : l.select.filter.occurrences = []
  group : l.select.selection.group = []
  order : l.select.selection.order = []
  limit : ¬ 0 < l.select.selection.limit
  locked : l.select.selection.locked = false

/-! ### What the script of a level writes -/

section Written

variable {schema : String} {l : Level}

theorem written_body {sub : JsonSelect} (h : failure? (sub.script l.naming).body = none) :
    written schema (sub.script l.naming).body = (l.jsonText schema sub).toList := by
  obtain ⟨name, query, inner, outer⟩ := sub
  rw [JsonSelect.script] at h ⊢
  by_cases hWidth : query.width < 2
  · simp [hWidth] at h
  · rw [if_neg hWidth]
    simp [jsonText, nestedText, script, select, correlation, JsonSelect.tie]

theorem name_script (n : Naming) : ∀ sub : JsonSelect, (sub.script n).name = sub.name
  | ⟨_, _, _, _⟩ => rfl

theorem written_objectScript (hBody : ∀ sub ∈ l.select.json,
      written schema (sub.script l.naming).body = (l.jsonText schema sub).toList) :
    written schema (l.select.selection.objectScript l.naming
      (l.select.json.map (JsonSelect.script l.naming))) = (l.objectLine schema ++ "\n").toList := by
  have hMembers : (l.select.selection.members l.naming
        (l.select.json.map (JsonSelect.script l.naming))).map (written schema)
      = (l.select.selection.fields.map (fun f =>
          "'" ++ f.outputName ++ "', " ++ f.expression l.naming)
        ++ l.select.json.map fun sub => "'" ++ sub.name ++ "', " ++ l.jsonText schema sub).map
          String.toList := by
    rw [Selection.members, List.map_append, List.map_append, List.map_map, List.map_map,
      List.map_map, List.map_map, List.map_map]
    refine congrArg₂ _ (List.map_congr_left fun f _ => ?_) (List.map_congr_left fun sub hSub => ?_)
    · simp [Selection.key]
    · simp [Selection.key, name_script, hBody sub hSub]
  unfold Selection.objectScript objectLine commas
  simp only [written_append, written, pieceWritten, written_joined, hMembers, List.cons_append]
  simp

theorem written_listScript (hBody : ∀ sub ∈ l.select.json,
      written schema (sub.script l.naming).body = (l.jsonText schema sub).toList) :
    written schema (l.select.selection.listScript l.naming
      (l.select.json.map (JsonSelect.script l.naming))) = (l.listLine schema ++ "\n").toList := by
  have hItems : (l.select.selection.items l.naming
        (l.select.json.map (JsonSelect.script l.naming))).map (written schema)
      = (l.select.selection.fields.map (SelectField.written l.naming)
        ++ l.select.json.map fun sub => l.jsonText schema sub ++ " " ++ sub.name).map
          String.toList := by
    rw [Selection.items, List.map_append, List.map_append, List.map_map, List.map_map,
      List.map_map, List.map_map, List.map_map]
    refine congrArg₂ _ (List.map_congr_left fun f _ => ?_) (List.map_congr_left fun sub hSub => ?_)
    · simp
    · simp [name_script, hBody sub hSub]
  have hEmpty : (l.select.selection.items l.naming
        (l.select.json.map (JsonSelect.script l.naming))).isEmpty = true
      ↔ l.select.selection.fields.isEmpty ∧ l.select.json.isEmpty := by
    simp [Selection.items]
  have hHeading : (if l.select.selection.distinct then "SELECT DISTINCT " else "SELECT ")
      = "SELECT " ++ if l.select.selection.distinct then "DISTINCT " else "" := by
    cases l.select.selection.distinct <;> rfl
  rw [Selection.listScript, listLine, commas, hHeading]
  by_cases hAll : l.select.selection.fields.isEmpty ∧ l.select.json.isEmpty
  · rw [if_pos hAll, if_pos (hEmpty.mpr hAll)]
    simp
  · rw [if_neg hAll, if_neg (mt hEmpty.mp hAll)]
    simp only [written_append, written, pieceWritten, written_joined, hItems, List.cons_append]
    simp

theorem written_headScript
    (h : (JsonSelect.scripts l.naming l.select.json).findSome? (failure? ·.body) = none) :
    written schema (l.select.selection.headScript l.correlation.isSome l.naming
        (JsonSelect.scripts l.naming l.select.json))
      = ((if l.correlation.isSome then l.objectLine schema else l.listLine schema)
          ++ "\n").toList := by
  rw [JsonSelect.scripts_eq_map] at h ⊢
  rw [List.findSome?_map, List.findSome?_eq_none_iff] at h
  have hBody : ∀ sub ∈ l.select.json, written schema (sub.script l.naming).body
      = (l.jsonText schema sub).toList := fun sub hSub => written_body (h sub hSub)
  cases l.correlation.isSome with
  | true => exact written_objectScript hBody
  | false => exact written_listScript hBody

theorem suffix_eq (h : failure? l.script = none) : l.naming.suffix
    = if l.correlation.isNone ∧ l.select.source.joins.isEmpty ∧ l.select.json.isEmpty
        ∧ l.select.selection.jsonTables.isEmpty then "" else " " ++ l.naming.base := by
  have hAlone : l.IsAlone ↔ l.correlation.isNone ∧ l.select.source.joins.isEmpty
      ∧ l.select.json.isEmpty ∧ l.select.selection.jsonTables.isEmpty := by
    simp only [Option.isNone_iff_eq_none, List.isEmpty_iff]
    exact ⟨fun h => ⟨h.1, h.2, h.3, h.4⟩, fun h => ⟨h.1, h.2.1, h.2.2.1, h.2.2.2⟩⟩
  simp only [← hAlone, ← inUse_eq_false_iff h]
  cases l.naming <;> rfl

theorem fromLine_eq (schema : String) (h : failure? l.script = none) : l.fromLine schema
    = "FROM " ++ schema ++ "." ++ l.select.source.table ++ l.naming.suffix
      ++ String.join (l.select.selection.jsonTables.map (JsonTable.text l.naming)) := by
  rw [fromLine, suffix_eq h]

/-- A planned level without errors writes its lines. -/
theorem exists_written_lines_of_plan (schema : String) {p : Plan}
    (hPlan : l.select.plan l.correlation = .ok p) (h : failure? l.script = none) :
    ∃ rendered, Part.renderAll schema l.naming l.select.filter.parts = some rendered ∧
      written schema l.script = (Text.ofLines (l.lines schema p.joins rendered)).toList := by
  have hNaming := naming_of_plan hPlan
  have hNone := h
  rw [script, Select.failure?_script, hPlan] at hNone
  simp only [← hNaming, Option.or_eq_none_iff] at hNone
  obtain ⟨hJson, hTables, hJoins, hTerms⟩ := hNone
  rw [← Selection.failure?_fromScript l.naming l.select.source.table] at hTables
  have hFrom : written schema (l.select.selection.fromScript l.naming l.select.source.table)
      = (l.fromLine schema ++ "\n").toList := by
    rw [Selection.written_fromScript hTables, Selection.fromLine, fromLine_eq schema h]
  obtain ⟨rendered, hRendered, -, hWhere⟩ :=
    exists_rendered_of_whereScript schema l.correlation l.select.source.row hTerms
  refine ⟨rendered, hRendered, ?_⟩
  rw [script, Select.script_eq hPlan, ← hNaming, lines]
  simp only [written_append, written_headScript hJson, hFrom,
    Join.written_scripts_eq hJoins, Join.join_text, hWhere, Selection.written_tailLines,
    Text.ofLines_append]
  simp [Text.ofLines]

/-- A level without errors writes its lines. -/
theorem exists_written_lines (schema : String) (h : failure? l.script = none) :
    ∃ joins rendered, l.select.source.Writes l.select.Uses joins ∧
      Part.renderAll schema l.naming l.select.filter.parts = some rendered ∧
      written schema l.script = (Text.ofLines (l.lines schema joins rendered)).toList := by
  obtain ⟨p, hPlan, -⟩ := exists_plan h
  obtain ⟨rendered, hRendered, hWritten⟩ := exists_written_lines_of_plan schema hPlan h
  exact ⟨p.joins, rendered, (Select.writes_of_plan hPlan).1, hRendered, hWritten⟩

end Written

/-! ### Where the lines end -/

section Ends

variable {l : Level} {joins : List Join} {rendered : List Compiled}

theorem unbroken_fromLine (schema : String) (hNone : failure? l.script = none) (h : l.Unbroken)
    (hBase : Text.Unbroken l.naming.base ∨ l.select.selection.jsonTables ≠ []) :
    Text.Unbroken (l.fromLine schema) ∧ l.fromLine schema ≠ "" := by
  have hTable : ∀ t ∈ l.select.selection.jsonTables, Text.Unbroken (t.text l.naming) := by
    intro t ht
    have hColumns : Text.Unbroken (", JSON_TABLE(" ++ t.sourceText l.naming ++ t.columnText) :=
      .behind (.behind (by decide) (by decide) _) (by simp) _
    exact hColumns.append (h.jsonTables t ht)
  have hTables : Text.Unbroken
      (String.join (l.select.selection.jsonTables.map (JsonTable.text l.naming))) :=
    Text.unbroken_join (List.forall_mem_map.mpr hTable)
  rw [fromLine_eq schema hNone]
  refine ⟨?_, by simp⟩
  rcases hBase with hBase | hSome
  · have hDot : Text.Unbroken ("FROM " ++ schema ++ ".") := .behind (by decide) (by decide) _
    have hSuffix : Text.Unbroken l.naming.suffix := by
      cases hNaming : l.naming with
      | bare => exact Text.unbroken_empty
      | aliased base tables =>
        rw [hNaming] at hBase
        exact .append (by decide) hBase
    exact ((hDot.append h.table).append hSuffix).append hTables
  · obtain ⟨t, rest, hList⟩ := List.exists_cons_of_ne_nil hSome
    exact hTables.behind (by simp [hList, JsonTable.text]) _

/-- The lines behind FROM never end in a break. -/
theorem unbroken_lines (schema : String) (h : l.Unbroken)
    (hWrites : l.select.source.Writes l.select.Uses joins)
    (hRendered : Part.renderAll schema l.naming l.select.filter.parts = some rendered) :
    ∀ line ∈ joins.map (Join.lineText schema l.naming)
      ++ whereLines l.naming l.correlation l.select.source.row l.select.filter rendered
      ++ l.select.selection.tailLines l.naming, Text.Unbroken line ∧ line ≠ "" := by
  have hJoins : ∀ j ∈ joins, j ∈ l.select.source.joins := by
    intro j hj
    cases hPrune : l.select.source.prune with
    | true => exact (((hWrites.1 hPrune).mem_iff j).mp hj).mem
    | false => rwa [hWrites.2 hPrune] at hj
  have hOuter : ∀ c, l.correlation = some c → Text.Unbroken c.outer := by
    intro c hc
    cases hLevel : l with
    | outermost s | subquery around query => rw [hLevel] at hc; cases hc
    | json around sub =>
      rw [hLevel] at hc
      obtain rfl := Option.some.inj hc
      exact Naming.unbroken_qualify (h.outer around sub hLevel) around.naming
  refine List.forall_mem_append.mpr ⟨List.forall_mem_append.mpr ⟨?_, ?_⟩, ?_⟩
  · refine List.forall_mem_map.mpr fun j hj => ⟨?_, by simp [Join.lineText]⟩
    exact Join.unbroken_lineText (h.joins j (hJoins j hj)) schema l.naming
  · exact unbroken_whereLines hOuter hRendered
  · exact Selection.unbroken_tailLines l.naming h.group h.order

/-- An alias ends in a line break only if it is one: the first character of the table, when no alias
was asked for. -/
theorem base_eq_newline (hNone : failure? l.script = none) (h : l.Unbroken)
    (hBase : ¬ Text.Unbroken l.naming.base) : l.naming.base = "\n" ∧
      l.select.source.requested = none ∧ l.select.source.table.toList.head? = some '\n' := by
  obtain ⟨p, hPlan, hNaming⟩ := exists_plan hNone
  have hAssign := Source.assign_of_plan hPlan
  rw [hNaming] at hAssign
  by_cases hUse : (l.correlation.isSome || !l.select.json.isEmpty
      || !l.select.selection.jsonTables.isEmpty) = true ∨ l.select.source.joins ≠ []
  · have hFree := ((Naming.assign_eq_ok hAssign).2.2 hUse).2
    exact Naming.eq_newline_of_free? h.requested hFree hBase
  · rw [(Naming.assign_of_not_needed hUse).2] at hAssign
    rw [← Except.ok.inj hAssign] at hBase
    exact absurd Text.unbroken_empty hBase

theorem dropsAlias_of_not_unbroken (schema : String) (hNone : failure? l.script = none)
    (h : l.Unbroken) (hBase : ¬ Text.Unbroken l.naming.base)
    (hTables : l.select.selection.jsonTables = [])
    (hBehind : joins.map (Join.lineText schema l.naming)
      ++ whereLines l.naming l.correlation l.select.source.row l.select.filter rendered
      ++ l.select.selection.tailLines l.naming = []) : l.DropsAlias joins := by
  obtain ⟨hNewline, hRequested, hTable⟩ := base_eq_newline hNone h hBase
  obtain ⟨hFront, hTail⟩ := List.append_eq_nil_iff.mp hBehind
  obtain ⟨hJoins, hWhere⟩ := List.append_eq_nil_iff.mp hFront
  obtain ⟨hGroup, hOrder, hLimit, hLock⟩ := Selection.tailLines_eq_nil_iff.mp hTail
  obtain ⟨hCorrelation, hRow, hOccurrences⟩ := whereLines_eq_nil_iff.mp hWhere
  exact ⟨hRequested, hTable, hNewline, hTables, List.map_eq_nil_iff.mp hJoins,
    hCorrelation, hRow, hOccurrences, hGroup, hOrder, hLimit, hLock⟩

/-- Only the alias of the base table goes, with the break it is. -/
theorem chomp_lines_of_dropsAlias (schema : String) (hNone : failure? l.script = none)
    (h : l.DropsAlias joins) : Text.chomp (Text.ofLines (l.lines schema joins rendered)) ++ "\n"
      = "\n".intercalate (l.lines schema joins rendered) := by
  have hBehind : joins.map (Join.lineText schema l.naming)
      ++ whereLines l.naming l.correlation l.select.source.row l.select.filter rendered
      ++ l.select.selection.tailLines l.naming = [] := by
    rw [List.append_eq_nil_iff, List.append_eq_nil_iff, List.map_eq_nil_iff, whereLines_eq_nil_iff,
      Selection.tailLines_eq_nil_iff]
    exact ⟨⟨h.joins, h.correlation, h.row, h.occurrences⟩, h.group, h.order, h.limit, h.locked⟩
  have hSuffix : l.naming.suffix = " \n" := by
    have hBase := h.base
    cases hNaming : l.naming with
    | bare => rw [hNaming] at hBase; exact absurd hBase (by decide)
    | aliased base tables =>
      rw [hNaming] at hBase
      rw [Naming.suffix, show base = "\n" from hBase]
      rfl
  obtain ⟨front, hFront, hText⟩ : ∃ front, Text.Unbroken front ∧
      "\n".intercalate (l.lines schema joins rendered) = front ++ "\n" := by
    refine ⟨(if l.correlation.isSome then l.objectLine schema else l.listLine schema) ++ "\n"
      ++ "FROM " ++ schema ++ "." ++ l.select.source.table ++ " ",
      .behind (by decide) (by decide) _, ?_⟩
    rw [lines, List.append_assoc, List.append_assoc, ← List.append_assoc (joins.map _), hBehind,
      List.append_nil, fromLine_eq schema hNone, hSuffix, h.jsonTables]
    apply String.toList_injective
    simp
  rw [Text.ofLines_eq (by simp [lines]), hText, Text.chomp_append_newline,
    Text.chomp_append_newline, hFront.chomp]

/-- In all other cases nothing goes but the break behind the last line. -/
theorem chomp_lines (schema : String) (hNone : failure? l.script = none) (h : l.Unbroken)
    (hWrites : l.select.source.Writes l.select.Uses joins)
    (hRendered : Part.renderAll schema l.naming l.select.filter.parts = some rendered)
    (hDrops : ¬ l.DropsAlias joins) : Text.chomp (Text.ofLines (l.lines schema joins rendered))
      = "\n".intercalate (l.lines schema joins rendered) := by
  have hBehind := unbroken_lines schema h hWrites hRendered
  rw [lines, List.append_assoc, List.append_assoc, ← List.append_assoc (joins.map _)]
  by_cases hNil : joins.map (Join.lineText schema l.naming)
      ++ whereLines l.naming l.correlation l.select.source.row l.select.filter rendered
      ++ l.select.selection.tailLines l.naming = []
  · have hBase : Text.Unbroken l.naming.base ∨ l.select.selection.jsonTables ≠ [] := by
      by_contra hNot
      rw [not_or, Classical.not_not] at hNot
      exact hDrops (dropsAlias_of_not_unbroken schema hNone h hNot.1 hNot.2 hNil)
    rw [hNil, List.append_nil]
    refine Text.chomp_ofLines [_] (List.cons_ne_nil _ []) ?_
    exact List.forall_mem_singleton.mpr (unbroken_fromLine schema hNone h hBase)
  · exact Text.chomp_ofLines _ hNil hBehind

end Ends

/-- Every select of a statement that compiles is its lines, with breaks between them and none behind
the last one.  An alias that is a line break itself and would end the text is missing. -/
theorem lines_of_compile {schema : String} {s : Select} {c : Compiled}
    (h : (Statement.select s).compile schema = .ok c) {l : Level} (hIn : IsIn s l)
    (hUnbroken : l.Unbroken) :
    c.sql.toList = nestedText schema (outermost s).script ∧
    ∃ joins rendered, l.select.source.Writes l.select.Uses joins ∧
      Part.renderAll schema l.naming l.select.filter.parts = some rendered ∧
      (¬ l.DropsAlias joins → String.ofList (nestedText schema l.script)
        = "\n".intercalate (l.lines schema joins rendered)) ∧
      (l.DropsAlias joins → String.ofList (nestedText schema l.script) ++ "\n"
        = "\n".intercalate (l.lines schema joins rendered)) := by
  obtain ⟨hNone, hCompiled⟩ := compile_eq_ok_iff.mp h
  have hLevel := (infix_of_isIn hNone hIn).1
  obtain ⟨joins, rendered, hWrites, hRendered, hWritten⟩ := exists_written_lines schema hLevel
  have hText : String.ofList (nestedText schema l.script)
      = Text.chomp (Text.ofLines (l.lines schema joins rendered)) := by
    rw [nestedText, hWritten, Text.chomp]
  refine ⟨?_, joins, rendered, hWrites, hRendered, fun hKeeps => ?_, fun hDrops => ?_⟩
  · rw [← hCompiled, compiled, String.toList_ofList]
    rfl
  · rw [hText]
    exact chomp_lines schema hLevel hUnbroken hWrites hRendered hKeeps
  · rw [hText]
    exact chomp_lines_of_dropsAlias schema hLevel hDrops

/-- The orders of a user. -/
def orders : JsonSelect :=
  ⟨"orders", (Select.ofTable "orders").fields [.plain "sku", .plain "price"], "user_id", "id"⟩

/-- The latest ten users with their orders. -/
def customers : Select :=
  (Select.ofTable "users").fields [.plain "id"]
    |>.jsonSelect orders.name orders.query orders.inner orders.outer
    |>.orderBy [.desc "id"] |>.limit 0 10

theorem lines_of_compile_customers : ∃ c, (Statement.select customers).compile "shop" = .ok c ∧
    c.sql = "SELECT u.id, (SELECT JSON_ARRAYAGG(JSON_OBJECT('sku', o.sku, 'price', o.price))\n"
      ++ "FROM shop.orders o\nWHERE o.user_id=u.id) orders\nFROM shop.users u\n"
      ++ "ORDER BY u.id DESC\nLIMIT 0,10" ∧
    ∃ joins rendered, String.ofList (nestedText "shop" (json (outermost customers) orders).script)
      = "\n".intercalate ((json (outermost customers) orders).lines "shop" joins rendered) := by
  obtain ⟨c, hCompile, hSql⟩ : ∃ c, (Statement.select customers).compile "shop" = .ok c ∧
      c.sql = "SELECT u.id, (SELECT JSON_ARRAYAGG(JSON_OBJECT('sku', o.sku, 'price', o.price))\n"
        ++ "FROM shop.orders o\nWHERE o.user_id=u.id) orders\nFROM shop.users u\n"
        ++ "ORDER BY u.id DESC\nLIMIT 0,10" := ⟨_, rfl, by decide +kernel⟩
  have hIn : IsIn customers (json (outermost customers) orders) :=
    .json .outermost (List.mem_singleton.mpr rfl)
  have hUnbroken : Unbroken (json (outermost customers) orders) := by
    constructor
    · decide
    · rintro a ⟨⟩
    · decide
    · rintro j ⟨⟩
    · rintro around sub ⟨rfl, rfl⟩
      decide
    · decide
    · decide
  obtain ⟨-, joins, rendered, -, -, hText, -⟩ := lines_of_compile hCompile hIn hUnbroken
  exact ⟨c, hCompile, hSql, joins, rendered, hText fun hDrops => nomatch hDrops.correlation⟩

/-- The join is not needed, but it brings in an alias for the table. -/
def brokenAlias : Select :=
  Select.ofTable "\nlog" |>.join ⟨.left, "clients", "c", "id", "client_id", []⟩ |>.pruneJoins

theorem not_lines_brokenAlias : ∃ c, (Statement.select brokenAlias).compile "" = .ok c ∧
    (∀ t ∈ brokenAlias.texts, Text.Unbroken t) ∧ brokenAlias.source.Writes brokenAlias.Uses [] ∧
    Part.renderAll "" (outermost brokenAlias).naming brokenAlias.filter.parts = some [] ∧
    (outermost brokenAlias).lines "" [] [] = ["SELECT *", "FROM .\nlog \n"] ∧
    c.sql = "SELECT *\nFROM .\nlog " ∧
    c.sql ≠ "\n".intercalate ((outermost brokenAlias).lines "" [] []) := by
  have hPlan : brokenAlias.plan none
      = .ok ⟨.aliased "\n" [("c", "clients"), ("\n", "\nlog")], []⟩ := by cbv
  have hNaming : (outermost brokenAlias).naming
      = .aliased "\n" [("c", "clients"), ("\n", "\nlog")] := by
    rw [naming, namingOf, hPlan]
  have hWrites := (Select.writes_of_plan hPlan).1
  have hLines : (outermost brokenAlias).lines "" [] [] = ["SELECT *", "FROM .\nlog \n"] := by
    rw [lines, listLine, fromLine, hNaming]
    decide +kernel
  have hCompile : (Statement.select brokenAlias).compile ""
      = .ok (compiled "" (brokenAlias.script none)) := compile_eq_ok_iff.mpr ⟨by cbv, rfl⟩
  have hSql : (compiled "" (brokenAlias.script none)).sql = "SELECT *\nFROM .\nlog " := by cbv
  refine ⟨_, hCompile, by decide +kernel, hWrites, by rw [hNaming]; rfl, hLines, hSql, ?_⟩
  rw [hSql, hLines]
  decide

end Level

end SqlStatement
