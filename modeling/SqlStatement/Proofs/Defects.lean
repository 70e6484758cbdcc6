import Mathlib.Data.List.Induction
import SqlStatement.Proofs.Clauses
import SqlStatement.Proofs.JoinOrder

/-!
# Defects

What can be wrong with the parts of a statement, and that each check finds it.

* `Defect`, `First`: a possible defect, and the error of the first that is there.
* `Finds`: a check that finds the first defect of a list.  Checks one after the
  other find the first defect of both lists (`Finds.append`).
* `Source.planDefects`, `JsonTable.defect`, `Join.defects`, `Condition.clash`,
  `Test.emptyList`: the single defects.
-/

namespace SqlStatement

open Script

/-- What can be wrong: the errors that say so, none if it is not the case. -/
abbrev Defect := CompileError → Prop

/-- The error of the first defect that is there. -/
inductive First : List Defect → CompileError → Prop
  | head {d : Defect} {rest : List Defect} {e : CompileError} : d e → First (d :: rest) e
  | tail {d : Defect} {rest : List Defect} {e : CompileError} : (∀ e, ¬ d e) → First rest e →
      First (d :: rest) e

theorem First.exists_mem {defects : List Defect} {e : CompileError} (h : First defects e) :
    ∃ d ∈ defects, d e := by
  induction h with
  | head h => exact ⟨_, List.mem_cons_self, h⟩
  | tail _ _ ih =>
    obtain ⟨d, hd, he⟩ := ih
    exact ⟨d, List.mem_cons_of_mem _ hd, he⟩

/-- Defects that each have one error at most. -/
theorem First.unique {defects : List Defect} {e e' : CompileError}
    (hUnique : ∀ d ∈ defects, ∀ e e', d e → d e' → e = e') (h : First defects e)
    (h' : First defects e') : e = e' := by
  induction h with
  | head h =>
    cases h' with
    | head h' => exact hUnique _ List.mem_cons_self _ _ h h'
    | tail hAbsent _ => exact absurd h (hAbsent _)
  | tail hAbsent _ ih =>
    cases h' with
    | head h' => exact absurd h' (hAbsent _)
    | tail _ h' => exact ih (fun d hd => hUnique d (List.mem_cons_of_mem _ hd)) h'

/-- A check fails with the error of the first of these defects, if one is there. -/
structure Finds (found : Option CompileError) (defects : List Defect) : Prop where
  first_of_some : ∀ e, found = some e → First defects e
  absent_of_none : found = none → ∀ d ∈ defects, ∀ e, ¬ d e

namespace Finds

theorem nil : Finds none [] := by
  constructor
  · intro e he
    cases he
  · intro _ d hd
    exact absurd hd List.not_mem_nil

/-- A single defect that is there. -/
theorem present {d : Defect} {e : CompileError} (h : d e) : Finds (some e) [d] := by
  constructor
  · intro e' he
    obtain rfl := Option.some.inj he
    exact .head h
  · intro he
    cases he

/-- A single defect that is not there. -/
theorem absent {d : Defect} (h : ∀ e, ¬ d e) : Finds none [d] := by
  constructor
  · intro e he
    cases he
  · intro _
    exact List.forall_mem_singleton.mpr h

theorem append_right {e : CompileError} {a : List Defect} (h : Finds (some e) a)
    (b : List Defect) : Finds (some e) (a ++ b) := by
  constructor
  · intro e' he
    have hFirst := h.first_of_some e' he
    clear h he
    induction hFirst with
    | head h => exact .head h
    | tail hAbsent _ ih => exact .tail hAbsent ih
  · intro he
    cases he

/-- The second check only runs if the first one finds nothing. -/
theorem append {found found' : Option CompileError} {a b : List Defect} (ha : Finds found a)
    (hb : found = none → Finds found' b) : Finds (found.or found') (a ++ b) := by
  cases found with
  | some e => exact ha.append_right b
  | none =>
    have hAbsent := ha.absent_of_none rfl
    constructor
    · intro e h
      have hFirst := (hb rfl).first_of_some e h
      clear ha
      induction a with
      | nil => exact hFirst
      | cons d rest ih =>
        obtain ⟨hd, hRest⟩ := List.forall_mem_cons.mp hAbsent
        exact .tail hd (ih hRest)
    · intro h
      exact List.forall_mem_append.mpr ⟨hAbsent, (hb rfl).absent_of_none h⟩

theorem flatMap {α : Type} {found : α → Option CompileError} {defects : α → List Defect}
    {l : List α} (h : ∀ x ∈ l, Finds (found x) (defects x)) :
    Finds (l.findSome? found) (l.flatMap defects) := by
  induction l with
  | nil => exact nil
  | cons x rest ih =>
    obtain ⟨hx, hRest⟩ := List.forall_mem_cons.mp h
    rw [findSome?_cons_or, List.flatMap_cons]
    exact hx.append fun _ => ih hRest

/-- A check that finds a defect as soon as there is one. -/
theorem exists_iff {found : Option CompileError} {defects : List Defect} (h : Finds found defects) :
    (∃ e, found = some e) ↔ ∃ d ∈ defects, ∃ e, d e := by
  constructor
  · rintro ⟨e, he⟩
    obtain ⟨d, hd, hError⟩ := (h.first_of_some e he).exists_mem
    exact ⟨d, hd, e, hError⟩
  · rintro ⟨d, hd, e, he⟩
    cases hFound : found with
    | some e' => exact ⟨e', rfl⟩
    | none => exact absurd he (h.absent_of_none hFound d hd e)

/-- With one error for each defect, the check fails with that of the first one and no other. -/
theorem eq_some_iff {found : Option CompileError} {defects : List Defect}
    (h : Finds found defects) (hUnique : ∀ d ∈ defects, ∀ e e', d e → d e' → e = e')
    {e : CompileError} : found = some e ↔ First defects e := by
  refine ⟨h.first_of_some e, fun hFirst => ?_⟩
  cases hFound : found with
  | none =>
    obtain ⟨d, hd, he⟩ := hFirst.exists_mem
    exact absurd he (h.absent_of_none hFound d hd e)
  | some e' => rw [(h.first_of_some e' hFound).unique hUnique hFirst]

end Finds

def errorOf? {α : Type} : Except CompileError α → Option CompileError
  | .error e => some e
  | .ok _ => none

/-! ### Plans -/

namespace Source

/-- A join whose alias is taken, or no alias left for the base table. -/
def aliasDefects (s : Source) (force : Bool) (reserved : List String) : List Defect :=
  [fun e => ∃ j, Naming.Collides reserved s.joins j ∧ e = .joinAliasCollision j.name j.table,
    fun e => (force = true ∨ s.joins ≠ []) ∧
      (Naming.preferred s.table s.requested = "" ∨
        Naming.preferred s.table s.requested ∈ reserved ++ s.joins.map Join.name) ∧
      (∀ l ∈ Naming.letters, l ∈ reserved ++ s.joins.map Join.name) ∧ e = .aliasExhausted s.table]

/-- A cycle among the joins that are needed, of which some are reported. -/
def cycleDefect (s : Source) (uses : String → Prop) : Defect := fun e =>
  s.prune = true ∧ Join.Circular s.joins (Mentions uses) ∧
    ∃ aliases, e = .circularJoinDependency aliases ∧ aliases ≠ [] ∧
      ∀ a ∈ aliases, ∃ j, Join.Needed s.joins (Mentions uses) j ∧ j.name = a

/-- What keeps a source from being planned. -/
def planDefects (s : Source) (force : Bool) (reserved : List String) (uses : String → Prop) :
    List Defect :=
  s.aliasDefects force reserved ++ [s.cycleDefect uses]

/-- The joins that are written, in their order. -/
def Writes (s : Source) (uses : String → Prop) (written : List Join) : Prop :=
  (s.prune = true → Join.Pruned s.joins (Mentions uses) written) ∧
    (s.prune = false → written = s.joins)

theorem Writes.unique {s : Source} {uses : String → Prop} {a b : List Join}
    (ha : s.Writes uses a) (hb : s.Writes uses b) : a = b := by
  cases hPrune : s.prune with
  | true => exact (ha.1 hPrune).unique (hb.1 hPrune)
  | false => rw [ha.2 hPrune, hb.2 hPrune]

theorem writes_of_plan {s : Source} {force : Bool} {reserved mentioned : List String}
    {uses : String → Prop} (hUses : ∀ field, field ∈ mentioned ↔ uses field) {p : Plan}
    (h : s.plan force reserved mentioned = .ok p) : s.Writes uses p.joins := by
  refine ⟨fun hPrune => pruned_of_plan_eq_ok hUses hPrune h, fun hPrune => ?_⟩
  rw [plan] at h
  split at h
  · cases h
  · rw [hPrune, Bool.false_and, if_neg Bool.false_ne_true] at h
    obtain rfl := Except.ok.inj h
    rfl

theorem finds_assign (s : Source) (force : Bool) (reserved : List String) :
    Finds (errorOf? (Naming.assign s.table s.requested s.joins force reserved))
      (s.aliasDefects force reserved) := by
  cases hAssign : Naming.assign s.table s.requested s.joins force reserved with
  | error e =>
    show Finds (some e) ([_] ++ [_])
    rcases Naming.assign_eq_error_iff.mp hAssign with ⟨j, hj, rfl⟩ | ⟨hClear, hUse, hFree, rfl⟩
    · exact (Finds.present ⟨j, hj, rfl⟩).append_right _
    · obtain ⟨hPreferred, hLetters⟩ := Naming.free?_eq_none_iff.mp hFree
      refine Finds.append (.absent ?_) fun _ => .present ⟨hUse, hPreferred, hLetters, rfl⟩
      rintro e ⟨j, hj, -⟩
      exact hj.not_clear hClear
  | ok naming =>
    obtain ⟨hClear, -, hAliased⟩ := Naming.assign_eq_ok hAssign
    show Finds none ([_] ++ [_])
    refine Finds.append (.absent ?_) fun _ => .absent ?_
    · rintro e ⟨j, hj, -⟩
      exact hj.not_clear hClear
    · rintro e ⟨hUse, hPreferred, hLetters, -⟩
      have hFree := (hAliased hUse).2
      rw [Naming.free?_eq_none_iff.mpr ⟨hPreferred, hLetters⟩] at hFree
      cases hFree

theorem finds_resolve {s : Source} {base : String} {mentioned : List String}
    {uses : String → Prop} (hUses : ∀ field, field ∈ mentioned ↔ uses field)
    (hNodup : (s.joins.map Join.name).Nodup) (hBase : base ∉ s.joins.map Join.name)
    (hPrune : s.prune = true) :
    Finds (errorOf? (Join.resolve s.joins base (Field.qualifiers mentioned)))
      [s.cycleDefect uses] := by
  unfold cycleDefect
  rw [← mem_qualifiers_iff hUses]
  cases hResolve : Join.resolve s.joins base (Field.qualifiers mentioned) with
  | error e =>
    have hCircular := (Join.exists_resolve_eq_error_iff hNodup hBase).mp ⟨e, hResolve⟩
    exact .present ⟨hPrune, hCircular, Join.resolve_eq_error hNodup hBase hResolve⟩
  | ok written =>
    have hAcyclic := (Join.pruned_of_resolve hNodup hBase hResolve).2
    refine .absent ?_
    intro e he
    exact hAcyclic he.2.1

theorem finds_plan (s : Source) (force : Bool) (reserved : List String) {mentioned : List String}
    {uses : String → Prop} (hUses : ∀ field, field ∈ mentioned ↔ uses field) :
    Finds (errorOf? (s.plan force reserved mentioned)) (s.planDefects force reserved uses) := by
  have hAssign := s.finds_assign force reserved
  rw [plan]
  cases h : Naming.assign s.table s.requested s.joins force reserved with
  | error e =>
    rw [h] at hAssign
    exact hAssign.append_right _
  | ok naming =>
    obtain ⟨⟨hNodup, -⟩, hBase, -⟩ := Naming.assign_eq_ok h
    rw [h] at hAssign
    refine hAssign.append fun _ => ?_
    by_cases hUse : (s.prune && !s.joins.isEmpty) = true
    · simp only [if_pos hUse]
      have hPrune : s.prune = true := (Bool.and_eq_true _ _ ▸ hUse).1
      have hResolve := finds_resolve hUses hNodup hBase hPrune
      cases hr : Join.resolve s.joins naming.base (Field.qualifiers mentioned) with
      | error e => rw [hr] at hResolve; exact hResolve
      | ok written => rw [hr] at hResolve; exact hResolve
    · simp only [if_neg hUse]
      refine .absent ?_
      rintro e ⟨hPrune, ⟨j, hNeeded, -⟩, -⟩
      have hJoins : s.joins = [] := by simpa [hPrune] using hUse
      exact absurd (hJoins ▸ hNeeded.mem) List.not_mem_nil

end Source

/-! ### Tables, joins and conditions -/

/-- A JSON table without a source or without columns. -/
def JsonTable.defect (t : JsonTable) : Defect := fun e =>
  (t.source = none ∨ t.columns = []) ∧ e = .incompleteJsonTable t.name

theorem JsonTable.finds_defect (n : Naming) (t : JsonTable) :
    Finds (failure? (t.script n)) [t.defect] := by
  have hComplete : t.isComplete = true ↔ ¬ (t.source = none ∨ t.columns = []) := by
    rw [isComplete]
    cases t.source <;> cases t.columns <;> simp
  rw [failure?_script]
  split
  · next h =>
    refine .absent ?_
    intro e he
    exact hComplete.mp h he.1
  · next h => exact .present ⟨Classical.not_not.mp (mt hComplete.mpr h), rfl⟩

/-- An ON term that neither compares nor tests for null. -/
def OnTerm.defect (name : String) (t : OnTerm) : Defect := fun e =>
  (t.operator.isComparison = false ∧ t.operator.isNullTest = false) ∧
    e = .unsupportedJoinOperator name t.operator

def Join.defects (j : Join) : List Defect := j.terms.map (OnTerm.defect j.name)

theorem OnTerm.finds_defect (n : Naming) (name : String) (t : OnTerm) :
    Finds (failure? (t.script n name)) [t.defect name] := by
  rw [failure?_script]
  split
  · next h =>
    refine .absent ?_
    intro e he
    rw [Operator.joins, he.1.1, he.1.2] at h
    cases h
  · next h =>
    rw [Operator.joins, Bool.or_eq_true, not_or, Bool.not_eq_true, Bool.not_eq_true] at h
    exact .present ⟨h.symm, rfl⟩

theorem Join.finds_defects (n : Naming) (joins : List Join) :
    Finds (failure? (Join.scripts n joins)) (joins.flatMap Join.defects) := by
  rw [failure?_scripts]
  refine .flatMap fun j _ => ?_
  rw [defects, List.map_eq_flatMap]
  exact .flatMap fun t _ => t.finds_defect n j.name

namespace Source

/-- Some join that is written has an ON term that neither compares nor tests for null. -/
def joinDefect (s : Source) (uses : String → Prop) : Defect := fun e =>
  ∃ written, s.Writes uses written ∧ First (written.flatMap Join.defects) e

theorem finds_joinDefect {s : Source} {uses : String → Prop} (n : Naming) {written : List Join}
    (h : s.Writes uses written) :
    Finds (failure? (Join.scripts n written)) [s.joinDefect uses] := by
  have hJoins := Join.finds_defects n written
  cases hFound : failure? (Join.scripts n written) with
  | some e => exact .present ⟨written, h, hJoins.first_of_some e hFound⟩
  | none =>
    refine .absent ?_
    rintro e ⟨other, hOther, hFirst⟩
    obtain ⟨d, hd, hError⟩ := hFirst.exists_mem
    rw [hOther.unique h] at hd
    exact hJoins.absent_of_none hFound d hd e hError

end Source

/-- The latest of the conditions on the same field has an operator that this one may not follow. -/
def Condition.clash (earlier : List Condition) (c : Condition) : Defect := fun e =>
  ∃ before latest after, earlier = before ++ latest :: after ∧ latest.field = c.field ∧
    (∀ other ∈ after, other.field ≠ c.field) ∧ latest.operator.admits c.operator = false ∧
    e = .incompatibleOperator c.field latest.operator c.operator

/-- Operators with their fields, the latest first. -/
def Condition.seen (earlier : List Condition) : List (String × Operator) :=
  (earlier.map fun c => (c.field, c.operator)).reverse

theorem Condition.seen_concat (earlier : List Condition) (c : Condition) :
    seen (earlier ++ [c]) = (c.field, c.operator) :: seen earlier := by
  simp [seen]

/-- The last element is the one picked out, or stands behind it. -/
theorem eq_or_exists_of_concat_eq {α : Type} {rest before after : List α} {c x : α}
    (h : rest ++ [c] = before ++ x :: after) :
    after = [] ∧ rest = before ∧ c = x ∨
      ∃ front, after = front ++ [c] ∧ rest = before ++ x :: front := by
  rcases List.eq_nil_or_concat after with rfl | ⟨front, last, rfl⟩
  · obtain ⟨hRest, hLast⟩ := List.append_inj' h rfl
    exact .inl ⟨rfl, hRest, (List.cons_eq_cons.mp hLast).1⟩
  · rw [List.concat_eq_append] at h ⊢
    rw [← List.cons_append, ← List.append_assoc] at h
    obtain ⟨hRest, hLast⟩ := List.append_inj' h rfl
    rw [(List.cons_eq_cons.mp hLast).1]
    exact .inr ⟨front, rfl, hRest⟩

/-- The latest operator that was used on a field. -/
theorem Condition.lookup_seen_eq_some_iff {earlier : List Condition} {field : String}
    {op : Operator} : (seen earlier).lookup field = some op ↔
      ∃ before latest after, earlier = before ++ latest :: after ∧ latest.field = field ∧
        (∀ other ∈ after, other.field ≠ field) ∧ latest.operator = op := by
  induction earlier using List.reverseRecOn with
  | nil => simp [seen]
  | append_singleton rest c ih =>
    rw [seen_concat, List.lookup_cons]
    by_cases hc : field = c.field
    · rw [beq_iff_eq.mpr hc]
      constructor
      · intro h
        exact ⟨rest, c, [], rfl, hc.symm, by simp, Option.some.inj h⟩
      · rintro ⟨before, latest, after, hSplit, -, hAfter, rfl⟩
        rcases eq_or_exists_of_concat_eq hSplit with ⟨-, -, rfl⟩ | ⟨front, rfl, -⟩
        · rfl
        · have hOther := hAfter c (List.mem_append_right _ List.mem_cons_self)
          exact absurd hc.symm hOther
    · rw [beq_false_of_ne hc]
      rw [ih]
      constructor
      · rintro ⟨before, latest, after, rfl, hField, hAfter, hOp⟩
        refine ⟨before, latest, after ++ [c], by simp, hField, ?_, hOp⟩
        exact List.forall_mem_append.mpr ⟨hAfter, by simpa using Ne.symm hc⟩
      · rintro ⟨before, latest, after, hSplit, hField, hAfter, hOp⟩
        rcases eq_or_exists_of_concat_eq hSplit with ⟨-, -, rfl⟩ | ⟨front, rfl, rfl⟩
        · exact absurd hField.symm hc
        · exact ⟨before, latest, front, rfl, hField, (List.forall_mem_append.mp hAfter).1, hOp⟩

theorem Condition.finds_clash (earlier : List Condition) (c : Condition) :
    Finds (errorOf? (Filter.check (seen earlier) c.field c.operator)) [clash earlier c] := by
  rw [Filter.check]
  cases hSeen : (seen earlier).lookup c.field with
  | none =>
    refine .absent ?_
    rintro e ⟨before, latest, after, hSplit, hField, hAfter, -, -⟩
    rw [lookup_seen_eq_some_iff.mpr ⟨before, latest, after, hSplit, hField, hAfter, rfl⟩] at hSeen
    cases hSeen
  | some op =>
    simp only [Operator.checkFollowedBy]
    split
    · next hAdmits =>
      refine .absent ?_
      rintro e ⟨before, latest, after, hSplit, hField, hAfter, hNot, -⟩
      rw [lookup_seen_eq_some_iff.mpr ⟨before, latest, after, hSplit, hField, hAfter, rfl⟩] at hSeen
      obtain rfl := Option.some.inj hSeen
      rw [hAdmits] at hNot
      cases hNot
    · next hAdmits =>
      obtain ⟨before, latest, after, hSplit, hField, hAfter, rfl⟩ :=
        lookup_seen_eq_some_iff.mp hSeen
      exact .present ⟨before, latest, after, hSplit, hField, hAfter,
        Bool.eq_false_iff.mpr hAdmits, rfl⟩

/-- An IN or NOT IN without values. -/
def Test.emptyList (field : String) (op : Operator) (values : List Value) : Defect := fun e =>
  values = [] ∧ e = .emptyInList field op

theorem Test.finds_emptyList (field : String) (op : Operator) (values : List Value) :
    Finds (failure? (Filter.listOperand field op values)) [emptyList field op values] := by
  rw [Filter.failure?_listOperand]
  split
  · next h => exact .present ⟨h, rfl⟩
  · next h =>
    refine .absent ?_
    intro e he
    exact h he.1

end SqlStatement
