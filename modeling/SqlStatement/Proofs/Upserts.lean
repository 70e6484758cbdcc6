import SqlStatement.Proofs.BulkRows

/-!
# What a duplicate key replaces

The fields to replace are checked in the order in which they were asked for, but
written in the order of the fields of the statement, those that were asked for
picked out.  A request that passes the check picks out just what it names.

* `Upsert.Invalid`: what is wrong with a request, and
  `Upsert.check_eq_error_iff`: the check finds it.
* `Upsert.lists_filter`: what is picked out of the fields that are written.
* `Insert.finds_defects`: the order in which an insert is checked.
* `Upsert.replaced_of_compile`: inserts of one row and of many.
-/

namespace SqlStatement

open Script

namespace Upsert

variable {table : String} {written : List String} {u : Upsert}

/-- What is wrong with a request: it names nothing, or this is the first field in it that is not
written. -/
inductive Invalid (table : String) (written : List String) : Upsert → Defect
  | empty : Invalid table written (.only []) (.emptyFieldList table)
  | unknown {requested before after : List String} {field : String} :
      requested = before ++ field :: after → (∀ f ∈ before, f ∈ written) → field ∉ written →
      Invalid table written (.only requested) (.invalidUpsertField field)

/-- The first field in a request that is not written. -/
theorem find?_not_contains_eq_some_iff {requested : List String} {field : String} :
    (requested.find? fun f => !written.contains f) = some field ↔ ∃ before after,
      requested = before ++ field :: after ∧ (∀ f ∈ before, f ∈ written) ∧ field ∉ written := by
  simp only [List.find?_eq_some_iff_append, Bool.not_eq_true', List.contains_eq_mem,
    decide_eq_false_iff_not, Bool.not_not, decide_eq_true_eq]
  constructor
  · rintro ⟨hField, before, after, hSplit, hBefore⟩
    exact ⟨before, after, hSplit, hBefore, hField⟩
  · rintro ⟨before, after, hSplit, hBefore, hField⟩
    exact ⟨hField, before, after, hSplit, hBefore⟩

theorem check_of_find?_eq_some {requested : List String} {field : String}
    (h : (requested.find? fun f => !written.contains f) = some field) :
    check table written (some (.only requested)) = .error (.invalidUpsertField field) := by
  cases requested with
  | nil => cases h
  | cons a rest => simp only [check, h]

theorem check_of_find?_eq_none {requested : List String} (hNe : requested ≠ [])
    (h : (requested.find? fun f => !written.contains f) = none) :
    check table written (some (.only requested)) = .ok () := by
  cases requested with
  | nil => exact absurd rfl hNe
  | cons a rest => simp only [check, h]

theorem check_eq_error_iff {e : CompileError} :
    check table written (some u) = .error e ↔ Invalid table written u e := by
  constructor
  · intro h
    cases u with
    | all => cases h
    | only requested =>
      by_cases hNil : requested = []
      · subst hNil
        obtain rfl := Except.error.inj h
        exact .empty
      · cases hFind : requested.find? fun f => !written.contains f with
        | none =>
          rw [check_of_find?_eq_none hNil hFind] at h
          cases h
        | some field =>
          rw [check_of_find?_eq_some hFind] at h
          obtain rfl := Except.error.inj h
          obtain ⟨before, after, hSplit, hBefore, hField⟩ := find?_not_contains_eq_some_iff.mp hFind
          exact .unknown hSplit hBefore hField
  · intro h
    cases h with
    | empty => rfl
    | unknown hSplit hBefore hField =>
      exact check_of_find?_eq_some
        (find?_not_contains_eq_some_iff.mpr ⟨_, _, hSplit, hBefore, hField⟩)

/-- A request that passes asks for something, and only for what is written. -/
theorem subset_of_check_eq_ok {requested : List String}
    (h : check table written (some (.only requested)) = .ok ()) :
    requested ≠ [] ∧ requested ⊆ written := by
  refine ⟨?_, ?_⟩
  · rintro rfl
    cases h
  · cases hFind : requested.find? fun f => !written.contains f with
    | some field =>
      rw [check_of_find?_eq_some hFind] at h
      cases h
    | none =>
      intro field hField
      simpa using List.find?_eq_none.mp hFind field hField

/-! ### What is picked out -/

/-- The fields that are asked for. -/
def Requests (written : List String) : Upsert → String → Prop
  | .all, field => field ∈ written
  | .only requested, field => field ∈ requested

/-- A list of just the fields that are asked for, each of them once and in order. -/
structure Lists (u : Upsert) (written listed : List String) : Prop where
  ascending : listed.Pairwise (· < ·)
  mem_iff : ∀ field, field ∈ listed ↔ u.Requests written field
  ne_nil : listed ≠ []

theorem lists_filter (h : check table written (some u) = .ok ()) (hNe : written ≠ [])
    (hAscending : written.Pairwise (· < ·)) : u.Lists written (written.filter u.includes) := by
  have hMem : ∀ field, field ∈ written.filter u.includes ↔ u.Requests written field := by
    intro field
    rw [List.mem_filter]
    cases u with
    | all => exact and_iff_left rfl
    | only requested =>
      rw [includes, List.contains_iff_mem]
      exact and_iff_right_of_imp fun hField => (subset_of_check_eq_ok h).2 hField
  refine ⟨hAscending.filter _, hMem, ?_⟩
  cases u with
  | all =>
    obtain ⟨field, hField⟩ := List.exists_mem_of_ne_nil written hNe
    exact List.ne_nil_of_mem ((hMem field).mpr hField)
  | only requested =>
    obtain ⟨field, hField⟩ := List.exists_mem_of_ne_nil requested (subset_of_check_eq_ok h).1
    exact List.ne_nil_of_mem ((hMem field).mpr hField)

/-- The order of the fields that are written does not matter. -/
theorem Invalid.congr {written' : List String} (h : ∀ field, field ∈ written ↔ field ∈ written')
    {e : CompileError} (hInvalid : Invalid table written u e) : Invalid table written' u e := by
  cases hInvalid with
  | empty => exact .empty
  | unknown hSplit hBefore hField =>
    exact .unknown hSplit (fun f hf => (h f).mp (hBefore f hf)) (mt (h _).mpr hField)

theorem Invalid.unique {e e' : CompileError} (h : Invalid table written u e)
    (h' : Invalid table written u e') : e = e' := by
  have hSame := (check_eq_error_iff.mpr h).symm.trans (check_eq_error_iff.mpr h')
  exact Except.error.inj hSame

/-- The check finds what is wrong with a request, if there is one. -/
theorem finds_invalid (table : String) {written' : List String}
    (h : ∀ field, field ∈ written ↔ field ∈ written') (upsert : Option Upsert) :
    Finds (errorOf? (check table written upsert))
      [fun e => ∃ u, upsert = some u ∧ Invalid table written' u e] := by
  cases upsert with
  | none =>
    refine .absent ?_
    rintro e ⟨u, hNone, -⟩
    cases hNone
  | some u =>
    cases hCheck : check table written (some u) with
    | error e => exact .present ⟨u, rfl, (check_eq_error_iff.mp hCheck).congr h⟩
    | ok _ =>
      refine .absent ?_
      rintro e ⟨u', hSome, hInvalid⟩
      obtain rfl := Option.some.inj hSome
      rw [check_eq_error_iff.mpr (hInvalid.congr fun field => (h field).symm)] at hCheck
      cases hCheck

end Upsert

/-! ### One row -/

theorem Assignments.finds_repeated (l : Assignments) : Finds (errorOf? l.sorted)
    [fun e => ∃ field, IsLeast {f | l.Repeats f} field ∧ e = .duplicateField field] := by
  cases hSorted : l.sorted with
  | error e => exact .present (sorted_eq_error_iff.mp hSorted)
  | ok entries =>
    refine .absent fun e he => ?_
    rw [sorted_eq_error_iff.mpr he] at hSorted
    cases hSorted

namespace Insert

/-- What can be wrong with an insert: a field is repeated, there are none, or the request for a
duplicate key is invalid. -/
def defects (i : Insert) : List Defect :=
  [fun e => ∃ field, IsLeast {f | i.fields.Repeats f} field ∧ e = .duplicateField field,
    fun e => i.fields = [] ∧ e = .emptyFieldList i.table,
    fun e => ∃ u, i.upsert = some u ∧ Upsert.Invalid i.table i.fields.fields u e]

theorem defects_unique (i : Insert) : ∀ d ∈ i.defects, ∀ e e', d e → d e' → e = e' := by
  intro d hd e e' h h'
  simp only [defects, List.mem_cons, List.not_mem_nil, or_false] at hd
  rcases hd with rfl | rfl | rfl
  · obtain ⟨field, hLeast, rfl⟩ := h
    obtain ⟨other, hOther, rfl⟩ := h'
    rw [hLeast.unique hOther]
  · rw [h.2, h'.2]
  · obtain ⟨u, hUpsert, hInvalid⟩ := h
    obtain ⟨u', hUpsert', hInvalid'⟩ := h'
    obtain rfl := Option.some.inj (hUpsert.symm.trans hUpsert')
    exact hInvalid.unique hInvalid'

/-- An insert is checked for these, one after the other. -/
theorem finds_defects (i : Insert) : Finds (failure? i.script) i.defects := by
  have hFields := i.fields.finds_repeated
  rw [failure?_script]
  cases hSorted : i.fields.sorted with
  | error e =>
    rw [hSorted] at hFields
    exact hFields.append_right _
  | ok entries =>
    rw [hSorted] at hFields
    obtain ⟨hPerm, -⟩ := Assignments.sorted_eq_ok_iff.mp hSorted
    refine hFields.append fun _ => ?_
    cases entries with
    | nil =>
      have hNone : i.fields = [] := List.nil_perm.mp hPerm
      exact (Finds.present ⟨hNone, rfl⟩).append_right _
    | cons a rest =>
      have hFilled : i.fields ≠ [] := by
        intro hNil
        rw [hNil] at hPerm
        exact List.cons_ne_nil _ _ (List.perm_nil.mp hPerm)
      refine Finds.append (.absent fun e he => hFilled he.1) fun _ => ?_
      -- What is written are the fields in their order, which makes no difference to the check.
      have hRequest := Upsert.finds_invalid i.table
        (fun _ => (Assignments.fields_perm hPerm).mem_iff) i.upsert
      cases hCheck : Upsert.check i.table (Assignments.fields (a :: rest)) i.upsert with
      | error e => rwa [hCheck] at hRequest
      | ok _ => rwa [hCheck] at hRequest

/-- What was checked of an insert without errors. -/
theorem exists_sorted_of_failure? {i : Insert} (h : failure? i.script = none) :
    ∃ entries, i.fields.sorted = .ok entries ∧ entries ≠ [] ∧
      Upsert.check i.table entries.fields i.upsert = .ok () := by
  rw [failure?_script] at h
  cases hSorted : i.fields.sorted with
  | error e =>
    rw [hSorted] at h
    cases h
  | ok entries =>
    rw [hSorted] at h
    cases entries with
    | nil => cases h
    | cons a rest =>
      refine ⟨a :: rest, rfl, List.cons_ne_nil a rest, ?_⟩
      cases hCheck : Upsert.check i.table (Assignments.fields (a :: rest)) i.upsert with
      | error e =>
        simp only [hCheck] at h
        cases h
      | ok _ => rfl

/-- An insert that compiles with a request lists just what is asked for, and binds the values of all
entries and then once more those that are listed. -/
theorem listed_of_compile {schema : String} {i : Insert} {u : Upsert} (hUpsert : i.upsert = some u)
    {c : Compiled} (h : compile schema i.script = .ok c) : ∃ entries listed : Assignments,
      entries.Perm i.fields ∧ (entries.Pairwise fun a b => a.field < b.field) ∧
      listed.Sublist entries ∧ u.Lists entries.fields listed.fields ∧
      c = ⟨setLines schema i.table entries ++ "\n" ++ upsertLine listed,
        entries.map (·.value) ++ listed.map (·.value)⟩ := by
  obtain ⟨hNone, -⟩ := compile_eq_ok_iff.mp h
  obtain ⟨entries, hSorted, hNe, hCheck⟩ := exists_sorted_of_failure? hNone
  obtain ⟨hPerm, hAscending⟩ := Assignments.sorted_eq_ok_iff.mp hSorted
  rw [hUpsert] at hCheck
  have hFields : Assignments.fields (entries.filter fun a => u.includes a.field)
      = entries.fields.filter u.includes := by
    rw [Assignments.fields, Assignments.fields, List.filter_map]
    rfl
  have hLists : u.Lists entries.fields
      (Assignments.fields (entries.filter fun a => u.includes a.field)) := by
    rw [hFields]
    exact Upsert.lists_filter hCheck (mt List.map_eq_nil_iff.mp hNe) (List.pairwise_map.mpr hAscending)
  have hListed : entries.filter (fun a => u.includes a.field) ≠ [] :=
    mt List.map_eq_nil_iff.mpr hLists.ne_nil
  have hCompile := compile_eq_ok schema hUpsert hSorted hCheck rfl hListed
  refine ⟨entries, _, hPerm, hAscending, List.filter_sublist, hLists, ?_⟩
  exact Except.ok.inj (h.symm.trans hCompile)

end Insert

/-! ### Many rows -/

namespace BulkInsert

variable {table : String} {rows : List Assignments} {u : Upsert}

theorem columnsOf_ne_nil (h : Fitting table rows) (hNe : rows ≠ []) : columnsOf rows ≠ [] := by
  obtain ⟨first, rest, rfl⟩ := List.exists_cons_of_ne_nil hNe
  intro hNil
  have hEmpty : first = [] := by
    rw [columnsOf, Assignments.fields, List.map_eq_nil_iff] at hNil
    exact List.nil_perm.mp (hNil ▸ first.byField_perm)
  subst hEmpty
  exact h [] [] rest rfl _ .empty

/-- Rows that fit only fail with what is wrong with the request. -/
theorem failure?_ofRows_eq_some_iff (h : Fitting table rows) (hNe : rows ≠ []) {e : CompileError} :
    failure? (ofRows table (some u) rows).script = some e ↔
      Upsert.Invalid table (columnsOf rows) u e := by
  obtain ⟨first, rest, rfl⟩ := List.exists_cons_of_ne_nil hNe
  rw [ofRows_of_fitting h, failure?_script, ← Upsert.check_eq_error_iff]
  simp only [taken, List.map_cons]
  cases Upsert.check table (columnsOf (first :: rest)) (some u) with
  | error e' => simp
  | ok _ => simp

/-- Rows that compile with a request list just what is asked for, and bind nothing more. -/
theorem listed_of_compile {schema : String} (h : Fitting table rows) (hNe : rows ≠ [])
    {c : Compiled} (hc : compile schema (ofRows table (some u) rows).script = .ok c) :
    ∃ listed, u.Lists (columnsOf rows) listed ∧
      c = ⟨rowLines schema table (columnsOf rows) rows.length ++ "\n" ++ upsertLine listed,
        (rows.map Assignments.boundValues).flatten⟩ := by
  obtain ⟨hNone, -⟩ := compile_eq_ok_iff.mp hc
  have hCheck : Upsert.check table (columnsOf rows) (some u) = .ok () := by
    cases hCheck : Upsert.check table (columnsOf rows) (some u) with
    | error e =>
      have hInvalid := Upsert.check_eq_error_iff.mp hCheck
      rw [(failure?_ofRows_eq_some_iff h hNe).mpr hInvalid] at hNone
      cases hNone
    | ok _ => rfl
  have hAscending : (columnsOf rows).Pairwise (· < ·) := (tabulates_of_fitting h hNe).ascending
  have hLists := Upsert.lists_filter hCheck (columnsOf_ne_nil h hNe) hAscending
  rw [ofRows_of_fitting h] at hc
  have hCompile := compile_eq_ok schema (b := { taken table rows with upsert := some u }) rfl
    (rows_taken_ne_nil table hNe) (length_of_mem_map h) rfl hCheck rfl hLists.ne_nil
  rw [hc] at hCompile
  refine ⟨_, hLists, ?_⟩
  rw [← length_rows_taken table rows]
  exact Except.ok.inj hCompile

end BulkInsert

/-- An insert, and one of many rows that fit, fails on a duplicate key's account only if its request
is invalid.  Otherwise the request is written as the fields it names, each once and in order, an
insert binding their values once more and rows referring to those they have. -/
theorem Upsert.replaced_of_compile :
    (∀ (schema : String) (i : Insert),
      (∀ e, (Statement.insert i).compile schema = .error e ↔ First i.defects e) ∧
      ∀ u, i.upsert = some u → ∀ c, (Statement.insert i).compile schema = .ok c →
        ∃ entries listed : Assignments, entries.Perm i.fields ∧
          (entries.Pairwise fun a b => a.field < b.field) ∧
          listed.Sublist entries ∧ u.Lists entries.fields listed.fields ∧
          c = ⟨Insert.setLines schema i.table entries ++ "\n" ++ Insert.upsertLine listed,
            entries.map (·.value) ++ listed.map (·.value)⟩) ∧
    ∀ (table : String) (rows : List Assignments), BulkInsert.Fitting table rows → rows ≠ [] →
      ∃ columns params, BulkInsert.Tabulates rows columns params ∧ ∀ (schema : String) (u : Upsert),
        (∀ e, (Statement.bulkInsert (.ofRows table (some u) rows)).compile schema = .error e ↔
          u.Invalid table columns e) ∧
        ∀ c, (Statement.bulkInsert (.ofRows table (some u) rows)).compile schema = .ok c →
          ∃ listed, u.Lists columns listed ∧
            c = ⟨BulkInsert.rowLines schema table columns rows.length ++ "\n"
              ++ BulkInsert.upsertLine listed, params⟩ := by
  refine ⟨fun schema i => ⟨fun e => ?_, ?_⟩, ?_⟩
  · exact compile_eq_error_iff.trans (i.finds_defects.eq_some_iff i.defects_unique)
  · exact fun u hUpsert c h => Insert.listed_of_compile hUpsert h
  · intro table rows h hNe
    refine ⟨_, _, BulkInsert.tabulates_of_fitting h hNe, fun schema u => ⟨fun e => ?_, fun c hc => ?_⟩⟩
    · exact compile_eq_error_iff.trans (BulkInsert.failure?_ofRows_eq_some_iff h hNe)
    · exact BulkInsert.listed_of_compile h hNe hc

/-- A user comes by once more. -/
def Insert.visit : Insert :=
  ⟨"users", [⟨"logins", .increment, .int 1⟩, ⟨"email", .assign, .text "a"⟩], some (.only ["logins"])⟩

theorem Upsert.replaced_of_compile_visit :
    (∃ c, (Statement.insert .visit).compile "shop" = .ok c ∧ ∃ entries listed : Assignments,
      entries.fields = ["email", "logins"] ∧ listed.fields = ["logins"] ∧
      c.params = entries.map (·.value) ++ listed.map (·.value)) ∧
    (Statement.insert { Insert.visit with upsert := some (.only ["email", "age", "name"]) }).compile
      "shop" = .error (.invalidUpsertField "age") ∧
    ∃ params, (Statement.bulkInsert (.ofRows "logs" (some (.only ["level", "day", "level"]))
        BulkInsert.readings)).compile "shop"
      = .ok ⟨"INSERT shop.logs (day, level)\nVALUES (?,?),(?,?)\nON DUPLICATE KEY UPDATE "
        ++ "day=VALUES(day),level=VALUES(level)", params⟩ := by
  obtain ⟨hInsert, hRows⟩ := replaced_of_compile
  refine ⟨?_, ?_, ?_⟩
  · have hSorted : Insert.visit.fields.sorted = .ok Insert.visit.fields.reverse :=
      Assignments.sorted_eq_ok_iff.mpr ⟨List.reverse_perm _, by decide⟩
    have hPicked : (Insert.visit.fields.reverse.filter fun a => (only ["logins"]).includes a.field)
        = [⟨"logins", .increment, .int 1⟩] := rfl
    obtain ⟨c, hCompile⟩ : ∃ c, (Statement.insert .visit).compile "shop" = .ok c :=
      ⟨_, Insert.compile_eq_ok "shop" rfl hSorted rfl hPicked (List.cons_ne_nil _ _)⟩
    obtain ⟨entries, listed, hPerm, hAscending, -, hLists, rfl⟩ :=
      (hInsert "shop" .visit).2 _ rfl c hCompile
    have hStrict : entries.fields.Pairwise (· < ·) := List.pairwise_map.mpr hAscending
    have hFields : entries.fields = ["email", "logins"] := by
      refine hStrict.eq_of_mem_iff (by decide) fun field => ?_
      rw [(Assignments.fields_perm hPerm).mem_iff]
      simp [Insert.visit, Assignments.fields, or_comm]
    have hListed : listed.fields = ["logins"] :=
      hLists.ascending.eq_of_mem_iff (List.pairwise_singleton _ _) hLists.mem_iff
    exact ⟨_, hCompile, entries, listed, hFields, hListed, rfl⟩
  · refine ((hInsert "shop" _).1 _).mpr (.tail ?_ (.tail ?_ (.head ?_)))
    · rintro e ⟨field, ⟨hRepeats, -⟩, -⟩
      exact Assignments.nodup_iff.mp (by decide) field hRepeats
    · rintro e ⟨hNil, -⟩
      exact List.cons_ne_nil _ _ hNil
    · have hSplit : ["email", "age", "name"] = ["email"] ++ "age" :: ["name"] := rfl
      exact ⟨_, rfl, .unknown hSplit (by decide) (by decide)⟩
  · obtain ⟨columns, params, hTabulates, hCompile⟩ :=
      hRows "logs" _ BulkInsert.fitting_readings (List.cons_ne_nil _ _)
    obtain rfl : columns = ["day", "level"] :=
      hTabulates.columns_eq List.mem_cons_self (by decide) (by simp [Assignments.fields, or_comm])
    have hValid : ∀ e, ¬ (only ["level", "day", "level"]).Invalid "logs" ["day", "level"] e := by
      intro e he
      cases check_eq_error_iff.mpr he
    cases hOk : (Statement.bulkInsert (.ofRows "logs" (some (.only ["level", "day", "level"]))
      BulkInsert.readings)).compile "shop" with
    | error e => exact absurd (((hCompile "shop" _).1 e).mp hOk) (hValid e)
    | ok c =>
      obtain ⟨listed, hLists, rfl⟩ := (hCompile "shop" _).2 c hOk
      have hListed : ∀ field, field ∈ listed ↔ field ∈ ["day", "level"] := by
        intro field
        rw [hLists.mem_iff]
        simp [Requests, or_comm, or_left_comm]
      obtain rfl : listed = ["day", "level"] := hLists.ascending.eq_of_mem_iff (by decide) hListed
      exact ⟨params, rfl⟩

end SqlStatement
