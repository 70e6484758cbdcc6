import SqlStatement.Proofs.JoinOrder
import SqlStatement.Proofs.SortedFields

/-!
# The order of fields

Whatever is written or checked of assignments comes from the sorted ones, and the
joins of an update depend only on which fields are there.  So the order in which
fields are given has no say in what a statement compiles to.

* `Source.plan_congr`: plans read the fields a statement mentions as a set.
* `BulkInsert.row_of_perm`: a permuted row leads to the same state.
* `Statement.Reordered`: statements that differ in the order of their fields.
* `Statement.compile_of_reordered`: they compile to the same, and what sorting
  comes to.
-/

namespace SqlStatement

/-! ### Plans -/

theorem Join.resolve_congr {joins : List Join} {base : String} {referenced referenced' : List String}
    (h : ∀ a, a ∈ referenced ↔ a ∈ referenced') :
    resolve joins base referenced = resolve joins base referenced' := by
  have hNamed : ∀ j : Join, referenced.contains j.name = referenced'.contains j.name := by
    intro j
    rw [Bool.eq_iff_iff, List.contains_iff_mem, List.contains_iff_mem]
    exact h j.name
  have hSurvivors : survivors joins base referenced = survivors joins base referenced' := by
    simp only [survivors, hNamed]
  simp only [resolve, hSurvivors]

theorem Source.plan_congr {mentioned mentioned' : List String}
    (h : ∀ field, field ∈ mentioned ↔ field ∈ mentioned') (s : Source) (force : Bool)
    (reserved : List String) : s.plan force reserved mentioned = s.plan force reserved mentioned' := by
  have hQualifiers : ∀ a, a ∈ Field.qualifiers mentioned ↔ a ∈ Field.qualifiers mentioned' := by
    intro a
    unfold Field.qualifiers
    rw [List.mem_filterMap, List.mem_filterMap]
    simp only [h]
  unfold plan
  simp only [Join.resolve_congr hQualifiers]

theorem Update.plan_of_perm {u : Update} {fields : Assignments} (h : fields.Perm u.fields) :
    (u.withFields fields).plan = u.plan := by
  refine Source.plan_congr (fun field => ?_) u.source false []
  show field ∈ fields.fields ++ _ ++ u.filter.fields ↔ field ∈ u.fields.fields ++ _ ++ u.filter.fields
  rw [List.mem_append, List.mem_append, List.mem_append, List.mem_append,
    (Assignments.fields_perm h).mem_iff]
  rfl

/-! ### Statements -/

theorem Insert.script_of_perm {i : Insert} {fields : Assignments} (h : fields.Perm i.fields) :
    (i.withFields fields).script = i.script := by
  unfold script
  rw [show (i.withFields fields).fields.sorted = i.fields.sorted from Assignments.sorted_eq_of_perm h]
  rfl

theorem Update.script_of_perm {u : Update} {fields : Assignments} (h : fields.Perm u.fields) :
    (u.withFields fields).script = u.script := by
  unfold script
  rw [show (u.withFields fields).fields.sorted = u.fields.sorted from
    Assignments.sorted_eq_of_perm h, plan_of_perm h]
  rfl

namespace BulkInsert

/-- A row leads to the same state in whichever order it lists its fields. -/
theorem row_of_perm {fields fields' : Assignments} (h : fields.Perm fields') (b : BulkInsert) :
    b.row fields = b.row fields' := by
  have hFit : b.fit fields = b.fit fields' := by rw [fit, fit, Assignments.sorted_eq_of_perm h]
  unfold row
  rw [hFit]

theorem ofRows_of_perm {rows rows' : List Assignments} (h : List.Forall₂ List.Perm rows rows')
    (table : String) (upsert : Option Upsert) : ofRows table upsert rows = ofRows table upsert rows' := by
  have hRows : ∀ b : BulkInsert, rows.foldl row b = rows'.foldl row b := by
    induction h with
    | nil => exact fun _ => rfl
    | cons hRow _ ih =>
      intro b
      rw [List.foldl_cons, List.foldl_cons, row_of_perm hRow, ih]
  rw [ofRows, ofRows, hRows]

end BulkInsert

theorem Filter.equalities_of_perm {pairs pairs' : List (String × Value)} (h : pairs.Perm pairs')
    (hNodup : (pairs.map Prod.fst).Nodup) (f : Filter) : f.equalities pairs = f.equalities pairs' := by
  unfold equalities
  rw [KeyOrder.mergeSort_eq_of_perm h hNodup]

namespace Statement

/-- The same statement but for the order in which its fields, or those of each of its rows, are
listed. -/
inductive Reordered : Statement → Statement → Prop
  | insert {i : Insert} {fields : Assignments} : fields.Perm i.fields →
      Reordered (.insert (i.withFields fields)) (.insert i)
  | update {u : Update} {fields : Assignments} : fields.Perm u.fields →
      Reordered (.update (u.withFields fields)) (.update u)
  | bulkInsert {table : String} {upsert : Option Upsert} {rows rows' : List Assignments} :
      List.Forall₂ List.Perm rows rows' →
      Reordered (.bulkInsert (.ofRows table upsert rows)) (.bulkInsert (.ofRows table upsert rows'))

theorem Reordered.script_eq {s s' : Statement} (h : Reordered s s') : s.script = s'.script := by
  cases h with
  | insert h => exact Insert.script_of_perm h
  | update h => exact Update.script_of_perm h
  | bulkInsert h => exact congrArg BulkInsert.script (BulkInsert.ofRows_of_perm h _ _)

/-- Sorting fails with the least field that is repeated, or gives the one permutation that ascends.
The order of the fields makes no difference to what a statement compiles to, to a state in between
the rows, or to a list of equalities. -/
theorem compile_of_reordered :
    (∀ l : Assignments,
      ((∃ e, l.sorted = .error e) ↔ ∃ field, l.Repeats field) ∧
      (∀ e, l.sorted = .error e ↔
        ∃ field, IsLeast {f | l.Repeats f} field ∧ e = .duplicateField field) ∧
      ∀ entries, l.sorted = .ok entries ↔
        entries.Perm l ∧ entries.Pairwise fun a b => a.field < b.field) ∧
    (∀ s s', Reordered s s' → ∀ schema, s.compile schema = s'.compile schema) ∧
    (∀ (b : BulkInsert) (fields fields' : Assignments), fields.Perm fields' →
      b.row fields = b.row fields') ∧
    ∀ (f : Filter) (pairs pairs' : List (String × Value)), pairs.Perm pairs' →
      (pairs.map Prod.fst).Nodup → f.equalities pairs = f.equalities pairs' := by
  refine ⟨fun l => ⟨?_, ?_, ?_⟩, ?_, ?_, ?_⟩
  · exact Assignments.exists_sorted_eq_error_iff
  · exact fun e => Assignments.sorted_eq_error_iff
  · exact fun entries => Assignments.sorted_eq_ok_iff
  · intro s s' h schema
    rw [compile, compile, h.script_eq]
  · exact fun b fields fields' h => b.row_of_perm h
  · exact fun f pairs pairs' h hNodup => f.equalities_of_perm h hNodup

end Statement

/-- One of its fields needs two of the joins. -/
def Update.recounted : Update :=
  Update.chained.withFields [⟨"c.size", .increment, .int 1⟩, ⟨"amount", .assign, .int 2⟩]

/-- Two rows of points, the second one from its end. -/
def Assignments.points : List Assignments :=
  [[⟨"y", .assign, .int 1⟩, ⟨"x", .assign, .int 2⟩], [⟨"x", .assign, .int 3⟩, ⟨"y", .assign, .int 4⟩]]

theorem Statement.compile_of_reordered_reverse :
    (∃ p, Update.recounted.plan = .ok p ∧ p.joins.map Join.name = ["u", "c"]) ∧
    (update (Update.recounted.withFields Update.recounted.fields.reverse)).compile "shop"
      = (update .recounted).compile "shop" ∧
    (bulkInsert (.ofRows "points" none (Assignments.points.map List.reverse))).compile "shop"
      = (bulkInsert (.ofRows "points" none Assignments.points)).compile "shop" ∧
    Filter.any.equalities [("y", .int 1), ("x", .null)]
      = Filter.any.equalities [("x", .null), ("y", .int 1)] ∧
    Assignments.sorted [⟨"y", .assign, .int 1⟩, ⟨"x", .assign, .int 2⟩, ⟨"y", .assign, .int 3⟩,
      ⟨"x", .assign, .int 4⟩] = .error (.duplicateField "x") := by
  obtain ⟨hSorted, hCompile, -, hEqualities⟩ := compile_of_reordered
  refine ⟨exists_ok_of_toOption (by cbv), ?_, ?_, ?_, ?_⟩
  · exact hCompile _ _ (.update (List.reverse_perm _)) "shop"
  · refine hCompile _ _ (.bulkInsert ?_) "shop"
    exact .cons (List.reverse_perm _) (.cons (List.reverse_perm _) .nil)
  · exact hEqualities _ _ _ (List.Perm.swap _ _ _) (by decide)
  · refine ((hSorted _).2.1 _).mpr ⟨"x", ⟨?_, ?_⟩, rfl⟩
    · exact List.duplicate_iff_two_le_count.mpr (by decide)
    · have hAll : ∀ field ∈ ["y", "x", "y", "x"], "x" ≤ field := by decide
      exact fun field hRepeats => hAll field hRepeats.mem

end SqlStatement
