import SqlStatement.Proofs.Defects
import SqlStatement.Proofs.InsertText
import SqlStatement.Proofs.SortedFields

/-!
# The rows of a bulk insert

The first row must have fields, every later one the same fields as the first, and
none may repeat a field.  As long as rows fit, a bulk insert holds what they give
to the columns; the first one that does not fit is what it fails with, whatever
comes after it.

* `BulkInsert.Unfit`: what is wrong with a row behind others.
* `BulkInsert.row_taken_of_fits`, `BulkInsert.row_taken_of_unfit`: one more row.
* `BulkInsert.foldl_row_of_fitting`, `BulkInsert.ofRows_of_unfit`: whole runs.
* `BulkInsert.compile_ofRows`: what any rows compile to.
-/

namespace SqlStatement

open Script

namespace BulkInsert

variable {table : String} {before rows : List Assignments} {fields : Assignments}

/-- What is wrong with a row behind those that were taken: it repeats a field, it is the first one and
empty, or it does not have the fields of the first one. -/
inductive Unfit (table : String) : List Assignments → Assignments → CompileError → Prop
  | repeated {before : List Assignments} {row : Assignments} {field : String} :
      IsLeast {f | row.Repeats f} field → Unfit table before row (.duplicateField field)
  | empty : Unfit table [] [] (.emptyFieldList table)
  | other {first : Assignments} {rest : List Assignments} {row : Assignments} :
      (∀ field, ¬ row.Repeats field) → ¬ (∀ field, field ∈ row.fields ↔ field ∈ first.fields) →
      Unfit table (first :: rest) row (.rowInconsistency (first :: rest).length)

/-- Each row fits behind those before it. -/
def Fitting (table : String) (rows : List Assignments) : Prop :=
  ∀ before row after, rows = before ++ row :: after → ∀ e, ¬ Unfit table before row e

theorem fitting_nil (table : String) : Fitting table [] := by
  intro before row after h
  exact absurd h.symm (List.append_ne_nil_of_right_ne_nil before (List.cons_ne_nil row after))

theorem fitting_concat_iff : Fitting table (rows ++ [fields]) ↔
    Fitting table rows ∧ ∀ e, ¬ Unfit table rows fields e := by
  constructor
  · intro h
    refine ⟨fun before row after hSplit => ?_, h rows fields [] rfl⟩
    exact h before row (after ++ [fields]) (by rw [hSplit]; simp)
  · rintro ⟨hRows, hLast⟩ before row after hSplit
    rcases eq_or_exists_of_concat_eq hSplit with ⟨-, rfl, rfl⟩ | ⟨front, -, hFront⟩
    · exact hLast
    · exact hRows before row front hFront

theorem Fitting.nodup (h : Fitting table rows) (hMem : fields ∈ rows) : fields.fields.Nodup := by
  obtain ⟨before, after, hSplit⟩ := List.append_of_mem hMem
  by_contra hNot
  obtain ⟨field, hLeast⟩ := Assignments.exists_isLeast_of_not_nodup hNot
  exact h before fields after hSplit _ (.repeated hLeast)

/-- Rows that fit have the fields of the first one. -/
theorem Fitting.mem_fields_iff {first : Assignments} {rest : List Assignments}
    (h : Fitting table (first :: rest)) (hMem : fields ∈ first :: rest) (field : String) :
    field ∈ fields.fields ↔ field ∈ first.fields := by
  obtain ⟨before, after, hSplit⟩ := List.append_of_mem hMem
  cases before with
  | nil => rw [(List.cons.inj hSplit).1]
  | cons a before =>
    obtain ⟨rfl, -⟩ := List.cons.inj hSplit
    by_contra hNot
    have hRepeats := Assignments.nodup_iff.mp (h.nodup hMem)
    exact h _ fields after hSplit _ (.other hRepeats fun hSame => hNot (hSame field))

/-! ### One row -/

/-- The fields of the first row, in their order. -/
def columnsOf : List Assignments → List String
  | [] => []
  | first :: _ => first.byField.fields

/-- The state after rows that were all taken. -/
def taken (table : String) (rows : List Assignments) : BulkInsert :=
  ⟨table, columnsOf rows, rows.map Assignments.boundValues, none, none⟩

theorem fit_taken_nil (h : fields.fields.Nodup) : (taken table []).fit fields =
    if fields = [] then .error (.emptyFieldList table) else .ok fields.byField := by
  have hEmpty : fields.byField = [] ↔ fields = [] := by
    rw [← List.length_eq_zero_iff, fields.byField_perm.length_eq, List.length_eq_zero_iff]
  rw [fit, Assignments.sorted_eq_ok_of_nodup h]
  simp only [taken, List.map_nil, List.isEmpty_nil, if_true, List.isEmpty_iff, hEmpty]

theorem fit_taken_cons {first : Assignments} {rest : List Assignments} (h : fields.fields.Nodup) :
    (taken table (first :: rest)).fit fields =
      if fields.byField.fields = first.byField.fields then .ok fields.byField
      else .error (.rowInconsistency (first :: rest).length) := by
  rw [fit, Assignments.sorted_eq_ok_of_nodup h]
  simp only [taken, columnsOf, List.map_cons, List.isEmpty_cons, Bool.false_eq_true, if_false,
    List.length_cons, List.length_map]

theorem fit_of_isLeast (b : BulkInsert) {field : String}
    (h : IsLeast {f | fields.Repeats f} field) : b.fit fields = .error (.duplicateField field) := by
  rw [fit, Assignments.sorted_eq_error_iff.mpr ⟨field, h, rfl⟩]

/-- A row that fits is taken as the next one. -/
theorem row_taken_of_fits (hBefore : Fitting table before)
    (h : ∀ e, ¬ Unfit table before fields e) :
    (taken table before).row fields = taken table (before ++ [fields]) := by
  have hNodup : fields.fields.Nodup :=
    (fitting_concat_iff.mpr ⟨hBefore, h⟩).nodup (List.mem_append_right _ List.mem_cons_self)
  unfold row
  cases before with
  | nil =>
    have hNe : fields ≠ [] := by
      rintro rfl
      exact h _ .empty
    rw [fit_taken_nil hNodup, if_neg hNe]
    rfl
  | cons first rest =>
    have hAll : Fitting table (first :: (rest ++ [fields])) := fitting_concat_iff.mpr ⟨hBefore, h⟩
    have hColumns : fields.byField.fields = first.byField.fields :=
      (Assignments.fields_byField_eq_iff hNodup (hBefore.nodup List.mem_cons_self)).mpr
        (hAll.mem_fields_iff (by simp))
    -- The row sets the columns anew, but to what the first one has made them.
    rw [fit_taken_cons hNodup, if_pos hColumns]
    simp only [hColumns, taken, columnsOf, List.cons_append, List.map_cons, List.map_append]
    rfl

/-- A row that does not is remembered as the reason why nothing will compile. -/
theorem row_taken_of_unfit (hBefore : Fitting table before) {e : CompileError}
    (h : Unfit table before fields e) :
    (taken table before).row fields = { taken table before with refusal := some e } := by
  have hFit : (taken table before).fit fields = .error e := by
    cases h with
    | repeated hLeast => exact fit_of_isLeast _ hLeast
    | empty => rw [fit_taken_nil (show (Assignments.fields []).Nodup from List.nodup_nil), if_pos rfl]
    | @other first rest _ hRepeats hOther =>
      have hNodup := Assignments.nodup_iff.mpr hRepeats
      rw [fit_taken_cons hNodup, if_neg]
      intro hSame
      exact hOther ((Assignments.fields_byField_eq_iff hNodup
        (hBefore.nodup List.mem_cons_self)).mp hSame)
  unfold row
  rw [hFit]
  rfl

/-- What is done on a duplicate key has no say in which rows are taken. -/
theorem row_upserting (b : BulkInsert) (u : Upsert) (fields : Assignments) :
    (b.upserting u).row fields = (b.row fields).upserting u := by
  have hFit : (b.upserting u).fit fields = b.fit fields := rfl
  unfold row
  rw [hFit]
  cases hRefusal : b.refusal with
  | some e => simp only [upserting, hRefusal]
  | none =>
    simp only [upserting, hRefusal]
    cases b.fit fields <;> rfl

/-! ### Runs -/

theorem foldl_row_of_refused {b : BulkInsert} {e : CompileError} (h : b.refusal = some e) :
    ∀ rows : List Assignments, rows.foldl row b = b
  | [] => rfl
  | fields :: rest => by
    have hRow : b.row fields = b := by rw [row, h]
    rw [List.foldl_cons, hRow, foldl_row_of_refused h rest]

theorem foldl_row_of_fitting (h : Fitting table rows) :
    rows.foldl row (into table) = taken table rows := by
  induction rows using List.reverseRecOn with
  | nil => rfl
  | append_singleton rows fields ih =>
    obtain ⟨hRows, hLast⟩ := fitting_concat_iff.mp h
    rw [List.foldl_append, ih hRows, List.foldl_cons, List.foldl_nil,
      row_taken_of_fits hRows hLast]

theorem ofRows_of_fitting (h : Fitting table rows) (upsert : Option Upsert) :
    ofRows table upsert rows = { taken table rows with upsert } := by
  rw [ofRows, foldl_row_of_fitting h]

/-- The first row that does not fit decides, whatever comes after it. -/
theorem ofRows_of_unfit (hBefore : Fitting table before) {e : CompileError}
    (h : Unfit table before fields e) (after : List Assignments) (upsert : Option Upsert) :
    ofRows table upsert (before ++ fields :: after)
      = { taken table before with refusal := some e, upsert } := by
  rw [ofRows, List.foldl_append, foldl_row_of_fitting hBefore, List.foldl_cons,
    row_taken_of_unfit hBefore h, foldl_row_of_refused rfl]

theorem exists_unfit_of_not_fitting (h : ¬ Fitting table rows) :
    ∃ before row after e, rows = before ++ row :: after ∧ Fitting table before ∧
      Unfit table before row e := by
  induction rows using List.reverseRecOn with
  | nil => exact absurd (fitting_nil table) h
  | append_singleton rows fields ih =>
    by_cases hRows : Fitting table rows
    · have hLast : ∃ e, Unfit table rows fields e := by
        by_contra hNot
        exact h (fitting_concat_iff.mpr ⟨hRows, not_exists.mp hNot⟩)
      obtain ⟨e, he⟩ := hLast
      exact ⟨rows, fields, [], e, rfl, hRows, he⟩
    · obtain ⟨before, row, after, e, rfl, hBefore, he⟩ := ih hRows
      exact ⟨before, row, after ++ [fields], e, by simp, hBefore, he⟩

/-- Nothing is refused if all rows fit, and only then. -/
theorem fitting_iff : Fitting table rows ↔ (rows.foldl row (into table)).refusal = none := by
  constructor
  · intro h
    rw [foldl_row_of_fitting h]
    rfl
  · intro h
    by_contra hNot
    obtain ⟨before, row, after, e, rfl, hBefore, he⟩ := exists_unfit_of_not_fitting hNot
    have hRefused := congrArg refusal (ofRows_of_unfit hBefore he after none)
    rw [ofRows, h] at hRefused
    cases hRefused

/-! ### The values -/

theorem columnsOf_eq (h : Fitting table rows) (hMem : fields ∈ rows) :
    columnsOf rows = fields.byField.fields := by
  cases rows with
  | nil => exact absurd hMem List.not_mem_nil
  | cons first rest =>
    refine (Assignments.fields_byField_eq_iff (h.nodup List.mem_cons_self) (h.nodup hMem)).mpr ?_
    exact fun field => (h.mem_fields_iff hMem field).symm

theorem length_boundValues (h : Fitting table rows) (hMem : fields ∈ rows) :
    fields.boundValues.length = (columnsOf rows).length := by
  rw [columnsOf_eq h hMem]
  simp only [Assignments.boundValues, Assignments.fields, List.length_map]

theorem length_of_mem_map (h : Fitting table rows) :
    ∀ values ∈ rows.map Assignments.boundValues, values.length = (columnsOf rows).length :=
  List.forall_mem_map.mpr fun _ hRow => length_boundValues h hRow

theorem length_rows_taken (table : String) (rows : List Assignments) :
    (taken table rows).rows.length = rows.length := List.length_map _

theorem rows_taken_ne_nil (table : String) (h : rows ≠ []) : (taken table rows).rows ≠ [] :=
  mt List.map_eq_nil_iff.mp h

/-- What a row gives to a column stands where the column does. -/
theorem getElem?_boundValues (h : fields.fields.Nodup) {a : Assignment} (ha : a ∈ fields) {j : Nat}
    (hColumn : fields.byField.fields[j]? = some a.field) :
    fields.boundValues[j]? = some a.value := by
  rw [Assignments.fields, List.getElem?_map, Option.map_eq_some_iff] at hColumn
  obtain ⟨other, hOther, hField⟩ := hColumn
  have hMem : other ∈ fields := fields.byField_perm.mem_iff.mp (List.mem_of_getElem? hOther)
  -- Without repeated fields there is one entry for each of them.
  obtain rfl := List.inj_on_of_nodup_map h hMem ha hField
  rw [Assignments.boundValues, List.getElem?_map, hOther]
  rfl

/-- Rows of one length after each other. -/
theorem getElem?_flatten {α : Type} {width : Nat} : ∀ {rows : List (List α)},
    (∀ row ∈ rows, row.length = width) → ∀ {i j : Nat} {row : List α}, rows[i]? = some row →
    j < width → rows.flatten[i * width + j]? = row[j]?
  | [], _, _, _, _, hRow, _ => by cases hRow
  | first :: rest, h, 0, j, row, hRow, hj => by
    obtain ⟨hFirst, -⟩ := List.forall_mem_cons.mp h
    obtain rfl : first = row := Option.some.inj hRow
    rw [List.flatten_cons, Nat.zero_mul, Nat.zero_add, List.getElem?_append_left (hFirst ▸ hj)]
  | first :: rest, h, i + 1, j, row, hRow, hj => by
    obtain ⟨hFirst, hRest⟩ := List.forall_mem_cons.mp h
    have hIndex : (i + 1) * width + j = first.length + (i * width + j) := by
      rw [hFirst, Nat.add_mul]
      omega
    rw [List.flatten_cons, hIndex, List.getElem?_append_right (Nat.le_add_right _ _),
      Nat.add_sub_cancel_left]
    exact getElem?_flatten hRest hRow hj

theorem length_flatten {α : Type} {width : Nat} {rows : List (List α)}
    (h : ∀ row ∈ rows, row.length = width) : rows.flatten.length = rows.length * width := by
  rw [List.length_flatten, List.map_congr_left h, List.map_const', List.sum_replicate]
  rfl

/-- The values of rows that fit, by row and column. -/
theorem getElem?_params (h : Fitting table rows) {i : Nat} (hRow : rows[i]? = some fields) {j : Nat}
    {a : Assignment} (ha : a ∈ fields) (hColumn : (columnsOf rows)[j]? = some a.field) :
    (rows.map Assignments.boundValues).flatten[i * (columnsOf rows).length + j]?
      = some a.value := by
  have hMem : fields ∈ rows := List.mem_of_getElem? hRow
  have hValues : (rows.map Assignments.boundValues)[i]? = some fields.boundValues := by
    rw [List.getElem?_map, hRow]
    rfl
  obtain ⟨hj, -⟩ := List.getElem?_eq_some_iff.mp hColumn
  rw [getElem?_flatten (length_of_mem_map h) hValues hj]
  refine getElem?_boundValues (h.nodup hMem) ha ?_
  rwa [← columnsOf_eq h hMem]

/-- Columns in ascending order, each row with just these fields, and the values row by row, each where
its column is. -/
structure Tabulates (rows : List Assignments) (columns : List String) (params : List Value) :
    Prop where
  ascending : columns.Pairwise (· < ·)
  mem_iff : ∀ row ∈ rows, ∀ field, field ∈ columns ↔ field ∈ row.fields
  length_eq : params.length = rows.length * columns.length
  getElem?_eq : ∀ (i : Nat) (row : Assignments), rows[i]? = some row → ∀ j : Nat, ∀ a ∈ row,
    columns[j]? = some a.field → params[i * columns.length + j]? = some a.value

/-- Any row tells the columns. -/
theorem Tabulates.columns_eq {columns columns' : List String} {params : List Value}
    (h : Tabulates rows columns params) (hRow : fields ∈ rows)
    (hAscending : columns'.Pairwise (· < ·))
    (hMem : ∀ field, field ∈ columns' ↔ field ∈ fields.fields) : columns = columns' := by
  refine h.ascending.eq_of_mem_iff hAscending fun field => ?_
  rw [h.mem_iff fields hRow, hMem]

theorem tabulates_of_fitting (h : Fitting table rows) (hNe : rows ≠ []) :
    Tabulates rows (columnsOf rows) (rows.map Assignments.boundValues).flatten := by
  have hMem : rows.head hNe ∈ rows := List.head_mem hNe
  constructor
  · rw [columnsOf_eq h hMem]
    exact Assignments.pairwise_fields_byField (h.nodup hMem)
  · intro row hRow field
    rw [columnsOf_eq h hRow, Assignments.mem_fields_byField]
  · rw [length_flatten (length_of_mem_map h), List.length_map]
  · intro i row hRow j a ha hColumn
    exact getElem?_params h hRow ha hColumn

/-- Rows that fit compile to one list of columns, as many groups of placeholders, and what each row
gives to each column.  Otherwise the first row that does not fit is reported, and rows after it change
nothing.  A statement without rows does not compile either. -/
theorem compile_ofRows (table : String) (rows : List Assignments) :
    (Fitting table rows → rows ≠ [] → ∃ columns params, Tabulates rows columns params ∧
      ∀ schema, (Statement.bulkInsert (ofRows table none rows)).compile schema
        = .ok ⟨rowLines schema table columns rows.length, params⟩) ∧
    (∀ before row after e, rows = before ++ row :: after → Fitting table before →
      Unfit table before row e → ∀ upsert,
        (ofRows table upsert rows).length = before.length ∧
        (∀ more, ofRows table upsert (rows ++ more) = ofRows table upsert (before ++ [row])) ∧
        ∀ schema, (Statement.bulkInsert (ofRows table upsert rows)).compile schema = .error e) ∧
    (¬ Fitting table rows → ∃ before row after e, rows = before ++ row :: after ∧
      Fitting table before ∧ Unfit table before row e) ∧
    (rows = [] → ∀ upsert schema,
      (Statement.bulkInsert (ofRows table upsert rows)).compile schema = .error (.noRows table)) ∧
    ∀ (b : BulkInsert) (u : Upsert) (fields : Assignments),
      (b.upserting u).row fields = (b.row fields).upserting u := by
  refine ⟨?_, ?_, exists_unfit_of_not_fitting, ?_, row_upserting⟩
  · intro h hNe
    refine ⟨_, _, tabulates_of_fitting h hNe, fun schema => ?_⟩
    rw [ofRows_of_fitting h]
    have hCompile := compile_eq_ok_of_none schema (b := taken table rows) rfl
      (rows_taken_ne_nil table hNe) (length_of_mem_map h) rfl
    rwa [length_rows_taken] at hCompile
  · rintro before row after e rfl hBefore he upsert
    refine ⟨?_, fun more => ?_, fun schema => ?_⟩
    · rw [ofRows_of_unfit hBefore he]
      exact List.length_map _
    · rw [List.append_assoc, List.cons_append, ofRows_of_unfit hBefore he, ofRows_of_unfit hBefore he]
    · rw [ofRows_of_unfit hBefore he]
      exact compile_eq_error_iff.mpr rfl
  · rintro rfl upsert schema
    exact compile_eq_error_iff.mpr rfl

/-- Two readings, the first one listed from its end. -/
def readings : List Assignments :=
  [[⟨"level", .assign, .int 7⟩, ⟨"day", .assign, .int 1⟩],
    [⟨"day", .assign, .int 2⟩, ⟨"level", .increment, .null⟩]]

theorem fitting_readings : Fitting "logs" readings := fitting_iff.mpr (by cbv)

/-- The third row lacks a column, and the one after it has a field twice. -/
theorem compile_ofRows_readings :
    (∃ params, (Statement.bulkInsert (ofRows "logs" none readings)).compile "shop"
        = .ok ⟨"INSERT shop.logs (day, level)\nVALUES (?,?),(?,?)", params⟩ ∧
      params.length = 4 ∧ params[0]? = some (.int 1) ∧ params[3]? = some .null) ∧
    (Statement.bulkInsert (ofRows "logs" (some (.only ["year"]))
      (readings ++ [[⟨"day", .assign, .int 3⟩], [⟨"day", .assign, .null⟩, ⟨"day", .assign, .null⟩]]))
        ).compile "shop" = .error (.rowInconsistency 2) ∧
    (Statement.bulkInsert (ofRows "logs" none [])).compile "shop" = .error (.noRows "logs") := by
  refine ⟨?_, ?_, (compile_ofRows "logs" []).2.2.2.1 rfl none "shop"⟩
  · obtain ⟨columns, params, hTabulates, hCompile⟩ :=
      (compile_ofRows "logs" readings).1 fitting_readings (List.cons_ne_nil _ _)
    obtain rfl : columns = ["day", "level"] :=
      hTabulates.columns_eq List.mem_cons_self (by decide) (by simp [Assignments.fields, or_comm])
    refine ⟨params, (hCompile "shop").trans (by rfl), hTabulates.length_eq, ?_, ?_⟩
    · exact hTabulates.getElem?_eq 0 _ rfl 0 ⟨"day", .assign, .int 1⟩ (by simp) rfl
    · exact hTabulates.getElem?_eq 1 _ rfl 1 ⟨"level", .increment, .null⟩ (by simp) rfl
  · have hUnfit : Unfit "logs" readings [⟨"day", .assign, .int 3⟩] (.rowInconsistency 2) := by
      refine .other (Assignments.nodup_iff.mp (List.nodup_singleton _)) fun hSame => ?_
      exact absurd ((hSame "level").mpr List.mem_cons_self) (by decide)
    exact ((compile_ofRows "logs" _).2.1 readings _ _ _ rfl fitting_readings hUnfit _).2.2 "shop"

end BulkInsert

end SqlStatement
