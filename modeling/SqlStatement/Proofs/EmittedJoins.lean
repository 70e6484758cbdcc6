import SqlStatement.Proofs.SelectLines
import SqlStatement.Proofs.UpdateLines

/-!
# The joins in the text of a statement

A statement that prunes its joins has one line for each join that it needs, in the
order in which joins can be written.  No other line of it begins like a join.  The
text of a select inside another one stands in the text of that one
(`Level.infix_of_isIn`), with joins of its own.

* `Join.Opens`: a line that begins like a join.
* `Delete.lines`: the lines of a delete, as `Level.lines` and `Update.lines` are
  those of a select and an update.
* `Join.Emitted`: a text with its lines, and the joins that they write.
* `emitted_of_plan`: the joins that selects, updates and deletes emit.
-/

namespace SqlStatement

open Script

/-! ### Lines that begin like a join -/

namespace Join

def openings : List String := ["INNER JOIN ", "LEFT JOIN "]

/-- The line begins like a join. -/
def Opens (line : String) : Prop := ∃ opening ∈ openings, opening.toList <+: line.toList

instance (line : String) : Decidable (Opens line) := inferInstanceAs (Decidable (∃ _ ∈ _, _))

theorem opens_lineText (schema : String) (n : Naming) (j : Join) : Opens (j.lineText schema n) := by
  have hKeyword : j.mode.keyword ++ " " ∈ openings := by cases j.mode <;> decide
  refine ⟨j.mode.keyword ++ " ", hKeyword, ?_⟩
  rw [lineText]
  simp only [String.toList_append, List.append_assoc]
  exact (List.prefix_append_right_inj _).mpr (List.prefix_append _ _)

/-- The text parts from both ways to begin a join, whatever follows it. -/
def Apart (s : String) : Prop :=
  ∀ opening ∈ openings, ¬ opening.toList <+: s.toList ∧ ¬ s.toList <+: opening.toList

instance (s : String) : Decidable (Apart s) := inferInstanceAs (Decidable (∀ _ ∈ _, _))

theorem Apart.append {s : String} (h : Apart s) (rest : String) : Apart (s ++ rest) := by
  intro opening hOpening
  obtain ⟨hLonger, hShorter⟩ := h opening hOpening
  rw [String.toList_append]
  constructor
  · intro hPrefix
    rcases List.prefix_or_prefix_of_prefix hPrefix (List.prefix_append _ _) with hs | hs
    · exact hLonger hs
    · exact hShorter hs
  · intro hPrefix
    exact hShorter ((List.prefix_append _ _).trans hPrefix)

theorem Apart.not_opens {line : String} (h : Apart line) : ¬ Opens line := by
  rintro ⟨opening, hOpening, hPrefix⟩
  exact (h opening hOpening).1 hPrefix

/-- Between lines that do not begin like a join, the joins are the ones that do. -/
theorem filter_opens {front back : List String} (hFront : ∀ line ∈ front, ¬ Opens line)
    (hBack : ∀ line ∈ back, ¬ Opens line) (schema : String) (n : Naming) (joins : List Join) :
    (front ++ joins.map (lineText schema n) ++ back).filter Opens
      = joins.map (lineText schema n) := by
  have hDropped : ∀ lines : List String, (∀ line ∈ lines, ¬ Opens line) →
      lines.filter Opens = [] := by
    intro lines h
    refine List.filter_eq_nil_iff.mpr fun line hLine => ?_
    simpa using h line hLine
  have hJoins : (joins.map (lineText schema n)).filter Opens = joins.map (lineText schema n) := by
    refine List.filter_eq_self.mpr (List.forall_mem_map.mpr fun j _ => ?_)
    exact decide_eq_true (opens_lineText schema n j)
  rw [List.filter_append, List.filter_append, hDropped front hFront, hJoins,
    hDropped back hBack, List.nil_append, List.append_nil]

/-- A text is these lines without the breaks at its end, and those of them that begin like a join
are the lines of these joins. -/
structure Emitted (schema : String) (n : Naming) (joins : List Join) (lines : List String)
    (sql : String) : Prop where
  sql_eq : sql = Text.chomp (Text.ofLines lines)
  filter_eq : lines.filter Opens = joins.map (lineText schema n)

theorem emitted_of_compile {schema : String} {n : Naming} {joins : List Join}
    {lines : List String} {s : Script} {c : Compiled} (h : compile schema s = .ok c)
    (hWritten : written schema s = (Text.ofLines lines).toList)
    (hFilter : lines.filter Opens = joins.map (lineText schema n)) :
    Emitted schema n joins lines c.sql := by
  obtain ⟨-, hCompiled⟩ := compile_eq_ok_iff.mp h
  refine ⟨?_, hFilter⟩
  rw [← hCompiled, compiled, hWritten, Text.chomp]

end Join

theorem not_opens_whereLines {n : Naming} {correlation : Option Correlation}
    {row : Option UInt64} {f : Filter} {rendered : List Compiled} :
    ∀ line ∈ whereLines n correlation row f rendered, ¬ Join.Opens line := by
  have hWhere : Join.Apart "WHERE " := by decide
  rw [whereLines]
  split
  · intro line hLine
    exact absurd hLine List.not_mem_nil
  · exact List.forall_mem_singleton.mpr (hWhere.append _).not_opens

theorem Selection.not_opens_tailLines (n : Naming) (s : Selection) :
    ∀ line ∈ s.tailLines n, ¬ Join.Opens line := by
  have hGroup : Join.Apart "GROUP BY " := by decide
  have hOrder : Join.Apart "ORDER BY " := by decide
  have hLimit : Join.Apart "LIMIT " := by decide
  have hLock : Join.Apart "FOR UPDATE" := by decide
  simp only [tailLines, List.forall_mem_append]
  refine ⟨⟨⟨?_, ?_⟩, ?_⟩, ?_⟩
  · split
    · simp
    · exact List.forall_mem_singleton.mpr (hGroup.append _).not_opens
  · split
    · simp
    · exact List.forall_mem_singleton.mpr (hOrder.append _).not_opens
  · split
    · exact List.forall_mem_singleton.mpr (((hLimit.append _).append _).append _).not_opens
    · simp
  · split
    · exact List.forall_mem_singleton.mpr hLock.not_opens
    · simp

/-! ### Selects -/

namespace Level

theorem not_opens_head (schema : String) (l : Level) :
    ¬ Join.Opens (if l.correlation.isSome then l.objectLine schema else l.listLine schema) := by
  have hObject : Join.Apart "SELECT JSON_ARRAYAGG(JSON_OBJECT(" := by decide
  have hList : Join.Apart "SELECT " := by decide
  split
  · exact ((hObject.append _).append _).not_opens
  · exact ((hList.append _).append _).not_opens

theorem not_opens_fromLine (schema : String) (l : Level) : ¬ Join.Opens (l.fromLine schema) := by
  have hFrom : Join.Apart "FROM " := by decide
  exact (((((hFrom.append _).append _).append _).append _).append _).not_opens

theorem filter_opens_lines (schema : String) (l : Level) (joins : List Join)
    (rendered : List Compiled) : (l.lines schema joins rendered).filter Join.Opens
      = joins.map (Join.lineText schema l.naming) := by
  rw [lines, List.append_assoc]
  refine Join.filter_opens ?_ ?_ schema l.naming joins
  · refine List.forall_mem_cons.mpr ⟨l.not_opens_head schema, ?_⟩
    exact List.forall_mem_singleton.mpr (l.not_opens_fromLine schema)
  · refine List.forall_mem_append.mpr ⟨not_opens_whereLines, ?_⟩
    exact l.select.selection.not_opens_tailLines l.naming

/-- A select that compiles emits the joins of its plan. -/
theorem exists_emitted {l : Level} {p : Plan} (hPlan : l.select.plan l.correlation = .ok p)
    {schema : String} {c : Compiled} (h : Script.compile schema l.script = .ok c) :
    ∃ rendered, Part.renderAll schema p.naming l.select.filter.parts = some rendered ∧
      Join.Emitted schema p.naming p.joins (l.lines schema p.joins rendered) c.sql := by
  have hNone := (compile_eq_ok_iff.mp h).1
  obtain ⟨rendered, hRendered, hWritten⟩ := exists_written_lines_of_plan schema hPlan hNone
  have hFilter := l.filter_opens_lines schema p.joins rendered
  rw [← naming_of_plan hPlan]
  exact ⟨rendered, hRendered, Join.emitted_of_compile h hWritten hFilter⟩

end Level

/-! ### Updates -/

namespace Update

theorem filter_opens_lines (schema : String) (u : Update) (n : Naming) (joins : List Join)
    (entries : Assignments) (rendered : List Compiled) :
    (u.lines schema n joins entries rendered).filter Join.Opens
      = joins.map (Join.lineText schema n) := by
  have hUpdate : Join.Apart "UPDATE " := by decide
  have hSet : Join.Apart "SET " := by decide
  rw [lines, List.append_assoc]
  refine Join.filter_opens ?_ ?_ schema n joins
  · refine List.forall_mem_singleton.mpr (Join.Apart.not_opens ?_)
    exact (((hUpdate.append _).append _).append _).append _
  · refine List.forall_mem_append.mpr ⟨?_, not_opens_whereLines⟩
    exact List.forall_mem_singleton.mpr (hSet.append _).not_opens

/-- An update that compiles emits the joins of its plan. -/
theorem exists_emitted {u : Update} {p : Plan} (hPlan : u.plan = .ok p) {schema : String}
    {c : Compiled} (h : (Statement.update u).compile schema = .ok c) :
    ∃ entries rendered, u.fields.sorted = .ok entries ∧
      Part.renderAll schema p.naming u.filter.parts = some rendered ∧
      Join.Emitted schema p.naming p.joins
        (u.lines schema p.naming p.joins entries rendered) c.sql := by
  have hNone := (compile_eq_ok_iff.mp h).1
  obtain ⟨entries, p', hSorted, hSome, hPlan', hJoins, hTerms⟩ := exists_plan_of_failure? hNone
  obtain rfl := Except.ok.inj (hPlan'.symm.trans hPlan)
  obtain ⟨rendered, hRendered, -, hWritten⟩ :=
    exists_written_lines_of_plan schema hSorted hSome hPlan hJoins hTerms
  have hFilter := u.filter_opens_lines schema p'.naming p'.joins entries rendered
  exact ⟨entries, rendered, hSorted, hRendered, Join.emitted_of_compile h hWritten hFilter⟩

end Update

/-! ### Deletes -/

namespace Delete

/-- The alias of the table whose rows go stands in front of FROM, if there is one. -/
def lines (schema : String) (d : Delete) (n : Naming) (joins : List Join)
    (rendered : List Compiled) : List String :=
  ["DELETE " ++ victim n ++ "FROM " ++ schema ++ "." ++ d.source.table ++ n.suffix]
    ++ joins.map (Join.lineText schema n) ++ whereLines n none d.source.row d.filter rendered

theorem filter_opens_lines (schema : String) (d : Delete) (n : Naming) (joins : List Join)
    (rendered : List Compiled) : (d.lines schema n joins rendered).filter Join.Opens
      = joins.map (Join.lineText schema n) := by
  have hDelete : Join.Apart "DELETE " := by decide
  rw [lines]
  refine Join.filter_opens ?_ not_opens_whereLines schema n joins
  refine List.forall_mem_singleton.mpr (Join.Apart.not_opens ?_)
  exact (((((hDelete.append _).append _).append _).append _).append _).append _

variable {d : Delete} {p : Plan}

theorem script_eq (h : d.plan = .ok p) :
    d.script = [.aliases p.naming, .text ("DELETE " ++ victim p.naming ++ "FROM "),
        .table d.source.table, .text (p.naming.suffix ++ "\n")]
      ++ Join.scripts p.naming p.joins
      ++ whereScript p.naming none d.source.row (d.filter.terms p.naming) := by
  rw [script, h]

/-- A planned delete without errors writes its lines. -/
theorem exists_written_lines_of_plan (schema : String) (hPlan : d.plan = .ok p)
    (h : failure? d.script = none) :
    ∃ rendered, Part.renderAll schema p.naming d.filter.parts = some rendered ∧
      written schema d.script
        = (Text.ofLines (d.lines schema p.naming p.joins rendered)).toList := by
  rw [failure?_script, hPlan] at h
  simp only [Option.or_eq_none_iff] at h
  obtain ⟨hJoins, hTerms⟩ := h
  obtain ⟨rendered, hRendered, -, hWhere⟩ :=
    exists_rendered_of_whereScript schema none d.source.row hTerms
  refine ⟨rendered, hRendered, ?_⟩
  rw [script_eq hPlan, lines]
  simp only [written_append, hWhere, Join.written_scripts_eq hJoins, Join.join_text,
    Text.ofLines_append, Text.ofLines_singleton]
  simp

/-- A delete that compiles emits the joins of its plan. -/
theorem exists_emitted (hPlan : d.plan = .ok p) {schema : String} {c : Compiled}
    (h : (Statement.delete d).compile schema = .ok c) :
    ∃ rendered, Part.renderAll schema p.naming d.filter.parts = some rendered ∧
      Join.Emitted schema p.naming p.joins (d.lines schema p.naming p.joins rendered) c.sql := by
  have hNone := (compile_eq_ok_iff.mp h).1
  obtain ⟨rendered, hRendered, hWritten⟩ := exists_written_lines_of_plan schema hPlan hNone
  have hFilter := d.filter_opens_lines schema p.naming p.joins rendered
  exact ⟨rendered, hRendered, Join.emitted_of_compile h hWritten hFilter⟩

end Delete

/-! ### Pruned joins -/

/-- The joins planned for a pruned select, at any level, update or delete are the ones it needs, each
once and behind the joins that its ON clause names.  The text it compiles to has a line for each of
them, in this order, and no other line of it begins like a join. -/
theorem emitted_of_plan :
    (∀ (l : Level) (p : Plan), l.select.source.prune = true →
      l.select.plan l.correlation = .ok p →
      Join.Pruned l.select.source.joins (Mentions l.select.Uses) p.joins ∧
        ∀ schema c, Script.compile schema l.script = .ok c →
          ∃ rendered, Part.renderAll schema p.naming l.select.filter.parts = some rendered ∧
            Join.Emitted schema p.naming p.joins (l.lines schema p.joins rendered) c.sql) ∧
    (∀ (u : Update) (p : Plan), u.source.prune = true → u.plan = .ok p →
      Join.Pruned u.source.joins (Mentions u.Uses) p.joins ∧
        ∀ schema c, (Statement.update u).compile schema = .ok c →
          ∃ entries rendered, u.fields.sorted = .ok entries ∧
            Part.renderAll schema p.naming u.filter.parts = some rendered ∧
            Join.Emitted schema p.naming p.joins
              (u.lines schema p.naming p.joins entries rendered) c.sql) ∧
    ∀ (d : Delete) (p : Plan), d.source.prune = true → d.plan = .ok p →
      Join.Pruned d.source.joins (Mentions d.filter.Has) p.joins ∧
        ∀ schema c, (Statement.delete d).compile schema = .ok c →
          ∃ rendered, Part.renderAll schema p.naming d.filter.parts = some rendered ∧
            Join.Emitted schema p.naming p.joins
              (d.lines schema p.naming p.joins rendered) c.sql := by
  refine ⟨?_, ?_, ?_⟩
  · intro l p hPrune hPlan
    have hPruned := Source.pruned_of_plan_eq_ok (fun _ => Select.mem_mentioned_iff) hPrune hPlan
    exact ⟨hPruned, fun _ _ hCompile => Level.exists_emitted hPlan hCompile⟩
  · intro u p hPrune hPlan
    have hPruned := Source.pruned_of_plan_eq_ok (fun _ => Update.mem_mentioned_iff) hPrune hPlan
    exact ⟨hPruned, fun _ _ hCompile => Update.exists_emitted hPlan hCompile⟩
  · intro d p hPrune hPlan
    have hPruned := Source.pruned_of_plan_eq_ok (fun _ => Filter.mem_fields_iff) hPrune hPlan
    exact ⟨hPruned, fun _ _ hCompile => Delete.exists_emitted hPlan hCompile⟩

def Source.chainedNaming : Naming :=
  .aliased "o" [("r", "regions"), ("u", "users"), ("t", "tags"), ("c", "cities"), ("o", "orders")]

/-- From the near end, without the join that nothing needs. -/
def Source.chainedJoins : List Join :=
  [⟨.inner, "users", "u", "id", "user_id", []⟩,
    ⟨.left, "cities", "c", "id", "u.city_id", [.column "country" "u.country"]⟩,
    ⟨.left, "regions", "r", "id", "c.region_id", []⟩]

/-- The select needs three of the joins, the update two and the delete one. -/
theorem emitted_of_plan_chained :
    (∃ p c rendered, Select.chained.plan none = .ok p ∧
      (Statement.select .chained).compile "shop" = .ok c ∧
      c.sql = "SELECT *\nFROM shop.orders o\nINNER JOIN shop.users u ON u.id=o.user_id\n"
        ++ "LEFT JOIN shop.cities c ON c.id=u.city_id AND c.country=u.country\n"
        ++ "LEFT JOIN shop.regions r ON r.id=c.region_id\nGROUP BY r.name" ∧
      Join.Pruned Source.chained.joins (Mentions Select.chained.Uses) p.joins ∧
      Join.Emitted "shop" p.naming p.joins
        ((Level.outermost .chained).lines "shop" p.joins rendered) c.sql) ∧
    (∃ p c entries rendered, Update.chained.plan = .ok p ∧
      (Statement.update .chained).compile "shop" = .ok c ∧
      c.sql = "UPDATE shop.orders o\nINNER JOIN shop.users u ON u.id=o.user_id\n"
        ++ "LEFT JOIN shop.cities c ON c.id=u.city_id AND c.country=u.country\nSET c.size=?" ∧
      Join.Pruned Source.chained.joins (Mentions Update.chained.Uses) p.joins ∧
      Join.Emitted "shop" p.naming p.joins
        (Update.chained.lines "shop" p.naming p.joins entries rendered) c.sql) ∧
    ∃ p c rendered, Delete.chained.plan = .ok p ∧
      (Statement.delete .chained).compile "shop" = .ok c ∧
      c.sql = "DELETE o FROM shop.orders o\nINNER JOIN shop.users u ON u.id=o.user_id\n"
        ++ "WHERE (u.name IS NULL)" ∧
      Join.Pruned Source.chained.joins (Mentions Delete.chained.filter.Has) p.joins ∧
      Join.Emitted "shop" p.naming p.joins
        (Delete.chained.lines "shop" p.naming p.joins rendered) c.sql := by
  refine ⟨?_, ?_, ?_⟩
  · have hPlan : Select.chained.plan none
        = .ok ⟨Source.chainedNaming, Source.chainedJoins⟩ := by cbv
    have hCompile : (Statement.select .chained).compile "shop" = .ok (compiled "shop" _) :=
      compile_of_eq "shop" (Select.script_eq hPlan) rfl
    obtain ⟨hPruned, hText⟩ := emitted_of_plan.1 (.outermost .chained) _ rfl hPlan
    obtain ⟨rendered, -, hEmitted⟩ := hText "shop" _ hCompile
    exact ⟨_, _, rendered, hPlan, hCompile, by decide +kernel, hPruned, hEmitted⟩
  · have hSorted : Update.chained.fields.sorted = .ok Update.chained.fields := by cbv
    have hPlan : Update.chained.plan
        = .ok ⟨Source.chainedNaming, Source.chainedJoins.take 2⟩ := by cbv
    have hCompile : (Statement.update .chained).compile "shop" = .ok (compiled "shop" _) :=
      compile_of_eq "shop" (Update.script_eq hSorted (by decide) hPlan) rfl
    obtain ⟨hPruned, hText⟩ := emitted_of_plan.2.1 _ _ rfl hPlan
    obtain ⟨entries, rendered, -, -, hEmitted⟩ := hText "shop" _ hCompile
    exact ⟨_, _, entries, rendered, hPlan, hCompile, by decide +kernel, hPruned, hEmitted⟩
  · have hPlan : Delete.chained.plan
        = .ok ⟨Source.chainedNaming, Source.chainedJoins.take 1⟩ := by cbv
    have hCompile : (Statement.delete .chained).compile "shop" = .ok (compiled "shop" _) :=
      compile_of_eq "shop" (Delete.script_eq hPlan) rfl
    obtain ⟨hPruned, hText⟩ := emitted_of_plan.2.2 _ _ rfl hPlan
    obtain ⟨rendered, -, hEmitted⟩ := hText "shop" _ hCompile
    exact ⟨_, _, rendered, hPlan, hCompile, by decide +kernel, hPruned, hEmitted⟩

end SqlStatement
