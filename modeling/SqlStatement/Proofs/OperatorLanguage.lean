import SqlStatement.Proofs.Defects
import SqlStatement.Proofs.FilterMeaning

/-!
# The operators on one field

The conditions of a clause are checked one after the other, each against the
latest one on the same field.  This local rule comes to one language for each
field, whatever stands on other fields in between: null tests and membership
tests in subqueries by turns, and at the end at most one operator that closes the
field, or bounds by turns.

* `Operator.Accepted`: the language, and `Operator.accepted_iff_isChain`: its
  words are those in which each operator admits the next.
* `Filter.checkAll`: the check of a clause, and
  `Filter.conditionTerms_of_checkAll_eq_error`: what is written if it fails.
* `Condition.FirstRefused`: the earliest condition that leaves the language.
* `Filter.clauses`: the clauses of a filter that are checked, and
  `Filter.findSome?_terms_eq_none_iff`: nothing is wrong with a filter but one of
  these or a single condition.
* `Filter.written_iff_accepted`: what is checked, what is reported, and what makes
  no difference.
-/

namespace SqlStatement

open Script

/-! ### Words of two kinds -/

section Alternates

variable {α : Type} {p q : α → Bool} {a : α} {l : List α}

/-- One element of each kind. -/
def Turn (p q : α → Bool) (a b : α) : Prop := p a ∧ q b ∨ q a ∧ p b

/-- Elements of two kinds by turns. -/
def Alternates (p q : α → Bool) (l : List α) : Prop := (∀ a ∈ l, p a ∨ q a) ∧ l.IsChain (Turn p q)

theorem Turn.left {b : α} (h : Turn p q a b) : p a ∨ q a := h.imp And.left And.left

theorem Turn.right {b : α} (h : Turn p q a b) : p b ∨ q b := h.symm.imp And.right And.right

theorem alternates_nil : Alternates p q [] := ⟨List.forall_mem_nil _, .nil⟩

theorem alternates_cons :
    Alternates p q (a :: l) ↔ (p a ∨ q a) ∧ (∀ b ∈ l.head?, Turn p q a b) ∧ Alternates p q l := by
  rw [Alternates, Alternates, List.forall_mem_cons, List.isChain_cons]
  tauto

end Alternates

namespace Operator

/-! ### The language -/

def isSubquery (op : Operator) : Bool := op == .inSubquery

/-- Nothing may follow on the same field. -/
def closes : Operator → Bool
  | .eq | .notEq | .between | .notBetween | .inList | .notIn => true
  | _ => false

/-- What may stand at the end: nothing, one operator that closes the field, or bounds by turns. -/
inductive IsEnd : List Operator → Prop
  | nothing : IsEnd []
  | closing {op : Operator} : op.closes → IsEnd [op]
  | range {ops : List Operator} : Alternates isLowerBound isUpperBound ops → IsEnd ops

/-- The operators that may follow each other on one field. -/
def Accepted (ops : List Operator) : Prop :=
  ∃ tests rest, ops = tests ++ rest ∧ Alternates isNullTest isSubquery tests ∧ IsEnd rest

/-! ### Each operator admits the next -/

/-- Whether the second operator may follow the first one on the same field. -/
abbrev Admits (a b : Operator) : Prop := a.admits b

theorem test_or_closes_or_bound (a : Operator) :
    (a.isNullTest ∨ a.isSubquery) ∨ a.closes ∨ a.isLowerBound ∨ a.isUpperBound := by
  cases a <;> decide

theorem not_test_of_closes_or_bound {a : Operator} :
    a.closes ∨ a.isLowerBound ∨ a.isUpperBound → ¬ (a.isNullTest ∨ a.isSubquery) := by
  cases a <;> decide

theorem not_closes_of_bound {a : Operator} : a.isLowerBound ∨ a.isUpperBound → ¬ a.closes := by
  cases a <;> decide

theorem admits_of_test {a b : Operator} : a.isNullTest ∨ a.isSubquery →
    (Admits a b ↔ Turn isNullTest isSubquery a b ∨ b.closes ∨ b.isLowerBound ∨ b.isUpperBound) := by
  rw [Turn]
  cases a <;> cases b <;> decide

theorem admits_of_bound {a b : Operator} : a.isLowerBound ∨ a.isUpperBound →
    (Admits a b ↔ Turn isLowerBound isUpperBound a b) := by
  rw [Turn]
  cases a <;> cases b <;> decide

theorem not_admits_of_closes {a b : Operator} : a.closes → ¬ Admits a b := by
  cases a <;> cases b <;> decide

theorem IsEnd.isChain {ops : List Operator} (h : IsEnd ops) : ops.IsChain Admits := by
  cases h with
  | nothing => exact .nil
  | closing _ => exact .singleton _
  | range hRange => exact hRange.2.imp fun a b hTurn => (admits_of_bound hTurn.left).mpr hTurn

/-- At the end an operator stands that may follow any test. -/
theorem IsEnd.closes_or_bound {b : Operator} {rest : List Operator} (h : IsEnd (b :: rest)) :
    b.closes ∨ b.isLowerBound ∨ b.isUpperBound := by
  cases h with
  | closing hClosing => exact .inl hClosing
  | range hRange => exact .inr (hRange.1 b List.mem_cons_self)

theorem Accepted.isChain {ops : List Operator} (h : Accepted ops) : ops.IsChain Admits := by
  obtain ⟨tests, rest, rfl, hTests, hRest⟩ := h
  refine List.isChain_append.mpr ⟨?_, hRest.isChain, ?_⟩
  · exact hTests.2.imp fun a b hTurn => (admits_of_test hTurn.left).mpr (.inl hTurn)
  · intro a ha b hb
    obtain ⟨after, rfl⟩ := List.head?_eq_some_iff.mp hb
    have hTest := hTests.1 a (List.mem_of_mem_getLast? ha)
    exact (admits_of_test hTest).mpr (.inr hRest.closes_or_bound)

theorem Accepted.nil : Accepted [] := ⟨[], [], rfl, alternates_nil, .nothing⟩

/-- One more operator in front of an accepted word. -/
theorem Accepted.cons {a : Operator} {ops : List Operator} (h : Accepted ops)
    (ha : ∀ b ∈ ops.head?, Admits a b) : Accepted (a :: ops) := by
  obtain ⟨tests, rest, rfl, hTests, hRest⟩ := h
  rcases a.test_or_closes_or_bound with hTest | hCloses | hBound
  · -- A test goes to the tests; the first of those, if any, is of the other kind.
    refine ⟨a :: tests, rest, rfl, alternates_cons.mpr ⟨hTest, ?_, hTests⟩, hRest⟩
    intro b hb
    obtain ⟨after, rfl⟩ := List.head?_eq_some_iff.mp hb
    refine ((admits_of_test hTest).mp (ha b rfl)).resolve_right fun hOther => ?_
    exact not_test_of_closes_or_bound hOther (hTests.1 b List.mem_cons_self)
  · -- Nothing follows an operator that closes the field.
    cases hOps : tests ++ rest with
    | nil => exact ⟨[], [a], rfl, alternates_nil, .closing hCloses⟩
    | cons b after =>
      rw [hOps] at ha
      exact absurd (ha b rfl) (not_admits_of_closes hCloses)
  · -- A bound is only followed by a bound of the other kind, so there are no tests.
    have hNext : ∀ b ∈ (tests ++ rest).head?, Turn isLowerBound isUpperBound a b :=
      fun b hb => (admits_of_bound hBound).mp (ha b hb)
    obtain rfl : tests = [] := by
      cases tests with
      | nil => rfl
      | cons b after =>
        have hNotTest := not_test_of_closes_or_bound (.inr (hNext b rfl).right)
        exact absurd (hTests.1 b List.mem_cons_self) hNotTest
    refine ⟨[], a :: rest, rfl, alternates_nil, .range ?_⟩
    cases hRest with
    | nothing => exact alternates_cons.mpr ⟨hBound, hNext, alternates_nil⟩
    | closing hCloses => exact absurd hCloses (not_closes_of_bound (hNext _ rfl).right)
    | range hRange => exact alternates_cons.mpr ⟨hBound, hNext, hRange⟩

/-- A word is accepted as soon as each operator admits the next. -/
theorem accepted_iff_isChain {ops : List Operator} : Accepted ops ↔ ops.IsChain Admits := by
  refine ⟨Accepted.isChain, fun h => ?_⟩
  induction ops with
  | nil => exact .nil
  | cons a rest ih =>
    obtain ⟨hNext, hRest⟩ := List.isChain_cons.mp h
    exact (ih hRest).cons hNext

instance : DecidablePred Accepted := fun _ => decidable_of_iff _ accepted_iff_isChain.symm

example : Accepted [.null, .inSubquery, .notNull, .lt, .gtEq] := by decide

example : ¬ Accepted [.gt, .inSubquery] := by decide

/-- Accepting one more operator is a matter of the latest one alone. -/
theorem accepted_concat {ops : List Operator} {next : Operator} :
    Accepted (ops ++ [next]) ↔ Accepted ops ∧ ∀ latest ∈ ops.getLast?, Admits latest next := by
  rw [accepted_iff_isChain, accepted_iff_isChain, List.isChain_append]
  simp

end Operator

/-! ### The check of a clause -/

namespace Condition

/-- The operators that are used on a field, in their order. -/
def operatorsOn (field : String) (conditions : List Condition) : List Operator :=
  (conditions.filter (·.field == field)).map (·.operator)

theorem operatorsOn_append (field : String) (a b : List Condition) :
    operatorsOn field (a ++ b) = operatorsOn field a ++ operatorsOn field b := by
  simp [operatorsOn]

theorem operatorsOn_singleton_self (c : Condition) : operatorsOn c.field [c] = [c.operator] := by
  simp [operatorsOn]

theorem operatorsOn_singleton_of_ne {field : String} {c : Condition} (h : c.field ≠ field) :
    operatorsOn field [c] = [] := by
  simp [operatorsOn, h]

/-- What is remembered of a field is the latest operator on it. -/
theorem lookup_seen (field : String) (earlier : List Condition) :
    (seen earlier).lookup field = (operatorsOn field earlier).getLast? := by
  induction earlier using List.reverseRecOn with
  | nil => rfl
  | append_singleton rest c ih =>
    rw [seen_concat, operatorsOn_append, List.lookup_cons]
    by_cases hField : c.field = field
    · subst hField
      simp [operatorsOn_singleton_self]
    · rw [operatorsOn_singleton_of_ne hField, List.append_nil,
        beq_false_of_ne (Ne.symm hField), ih]

/-- The earliest condition with which a field leaves the language, and what is reported of it. -/
def FirstRefused (conditions : List Condition) (e : CompileError) : Prop :=
  ∃ (before : List Condition) (c : Condition) (after : List Condition) (latest : Operator),
    conditions = before ++ c :: after ∧
    (∀ field, Operator.Accepted (operatorsOn field before)) ∧
    ¬ Operator.Accepted (operatorsOn c.field (before ++ [c])) ∧
    (operatorsOn c.field before).getLast? = some latest ∧
    e = .incompatibleOperator c.field latest c.operator

end Condition

namespace Filter

open Condition

/-- Checks the conditions of a clause one after the other. -/
def checkAll (seen : List (String × Operator)) : List Condition → Except CompileError Unit
  | [] => .ok ()
  | c :: rest => match check seen c.field c.operator with
    | .error e => .error e
    | .ok () => checkAll ((c.field, c.operator) :: seen) rest

theorem check_seen_eq_ok_iff {earlier : List Condition} {c : Condition} :
    check (seen earlier) c.field c.operator = .ok () ↔
      ∀ latest ∈ (operatorsOn c.field earlier).getLast?, Operator.Admits latest c.operator := by
  rw [check, lookup_seen]
  cases (operatorsOn c.field earlier).getLast? with
  | none => simp
  | some latest => simp [Operator.checkFollowedBy, Operator.Admits]

theorem check_seen_eq_error_iff {earlier : List Condition} {c : Condition} {e : CompileError} :
    check (seen earlier) c.field c.operator = .error e ↔
      ∃ latest, (operatorsOn c.field earlier).getLast? = some latest ∧
        ¬ Operator.Admits latest c.operator ∧
        e = .incompatibleOperator c.field latest c.operator := by
  rw [check, lookup_seen]
  cases (operatorsOn c.field earlier).getLast? with
  | none => simp
  | some latest =>
    simp only [Operator.checkFollowedBy, Operator.Admits, Option.some.injEq, exists_eq_left']
    split
    · next hAdmits => simp [hAdmits]
    · next hAdmits => simp [hAdmits, eq_comm]

/-- One more condition: the language of its field decides, that of the others is not touched. -/
theorem accepted_concat_iff {earlier : List Condition} {c : Condition} :
    (∀ field, Operator.Accepted (operatorsOn field (earlier ++ [c]))) ↔
      (∀ field, Operator.Accepted (operatorsOn field earlier)) ∧
        check (seen earlier) c.field c.operator = .ok () := by
  have hSelf : Operator.Accepted (operatorsOn c.field (earlier ++ [c])) ↔
      Operator.Accepted (operatorsOn c.field earlier) ∧
        check (seen earlier) c.field c.operator = .ok () := by
    rw [operatorsOn_append, operatorsOn_singleton_self, Operator.accepted_concat,
      check_seen_eq_ok_iff]
  constructor
  · intro h
    refine ⟨fun field => ?_, (hSelf.mp (h c.field)).2⟩
    by_cases hField : c.field = field
    · exact hField ▸ (hSelf.mp (h c.field)).1
    · have hOther := h field
      rwa [operatorsOn_append, operatorsOn_singleton_of_ne hField, List.append_nil] at hOther
  · rintro ⟨hEarlier, hCheck⟩ field
    by_cases hField : c.field = field
    · exact hField ▸ hSelf.mpr ⟨hEarlier c.field, hCheck⟩
    · rw [operatorsOn_append, operatorsOn_singleton_of_ne hField, List.append_nil]
      exact hEarlier field

theorem accepted_of_append {a b : List Condition}
    (h : ∀ field, Operator.Accepted (operatorsOn field (a ++ b))) (field : String) :
    Operator.Accepted (operatorsOn field a) := by
  have hAll := h field
  rw [operatorsOn_append, Operator.accepted_iff_isChain] at hAll
  exact Operator.accepted_iff_isChain.mpr hAll.left_of_append

/-- The check passes what is accepted, after conditions that are accepted. -/
theorem checkAll_seen_eq_ok_iff {earlier rest : List Condition}
    (hEarlier : ∀ field, Operator.Accepted (operatorsOn field earlier)) :
    checkAll (seen earlier) rest = .ok () ↔
      ∀ field, Operator.Accepted (operatorsOn field (earlier ++ rest)) := by
  induction rest generalizing earlier with
  | nil => simpa [checkAll] using hEarlier
  | cons c rest ih =>
    rw [checkAll, List.append_cons]
    cases hCheck : check (seen earlier) c.field c.operator with
    | ok u =>
      rw [← seen_concat]
      exact ih (accepted_concat_iff.mpr ⟨hEarlier, hCheck⟩)
    | error e =>
      constructor
      · intro h
        cases h
      · intro h
        rw [(accepted_concat_iff.mp (accepted_of_append h)).2] at hCheck
        cases hCheck

/-- The check fails at the first condition that is not compatible with what was seen. -/
theorem checkAll_seen_eq_error_iff {earlier rest : List Condition} {e : CompileError} :
    checkAll (seen earlier) rest = .error e ↔
      ∃ (before : List Condition) (c : Condition) (after : List Condition),
        rest = before ++ c :: after ∧ checkAll (seen earlier) before = .ok () ∧
        check (seen (earlier ++ before)) c.field c.operator = .error e := by
  induction rest generalizing earlier with
  | nil => simp [checkAll]
  | cons c rest ih =>
    rw [checkAll]
    cases hCheck : check (seen earlier) c.field c.operator with
    | error e' =>
      constructor
      · intro h
        obtain rfl := Except.error.inj h
        exact ⟨[], c, rest, rfl, rfl, by rwa [List.append_nil]⟩
      · rintro ⟨before, d, after, hSplit, hBefore, hd⟩
        cases before with
        | nil =>
          obtain ⟨rfl, -⟩ := List.cons.inj hSplit
          rwa [List.append_nil, hCheck] at hd
        | cons b before =>
          obtain ⟨rfl, -⟩ := List.cons.inj hSplit
          rw [checkAll, hCheck] at hBefore
          cases hBefore
    | ok u =>
      rw [← seen_concat]
      constructor
      · intro h
        obtain ⟨before, d, after, rfl, hBefore, hd⟩ := ih.mp h
        refine ⟨c :: before, d, after, rfl, ?_, by rwa [List.append_cons]⟩
        rwa [checkAll, hCheck, ← seen_concat]
      · rintro ⟨before, d, after, hSplit, hBefore, hd⟩
        cases before with
        | nil =>
          obtain ⟨rfl, -⟩ := List.cons.inj hSplit
          rw [List.append_nil, hCheck] at hd
          cases hd
        | cons b before =>
          obtain ⟨rfl, rfl⟩ := List.cons.inj hSplit
          rw [checkAll, hCheck, ← seen_concat] at hBefore
          rw [List.append_cons] at hd
          exact ih.mpr ⟨before, d, after, rfl, hBefore, hd⟩

theorem checkAll_eq_ok_iff {conditions : List Condition} :
    checkAll [] conditions = .ok () ↔
      ∀ field, Operator.Accepted (operatorsOn field conditions) :=
  @checkAll_seen_eq_ok_iff [] conditions fun _ => .nil

theorem checkAll_eq_error_iff {conditions : List Condition} {e : CompileError} :
    checkAll [] conditions = .error e ↔ FirstRefused conditions e := by
  rw [show ([] : List (String × Operator)) = seen [] from rfl, checkAll_seen_eq_error_iff]
  constructor
  · rintro ⟨before, c, after, rfl, hBefore, hCheck⟩
    obtain ⟨latest, hLatest, hRefused, rfl⟩ := check_seen_eq_error_iff.mp hCheck
    refine ⟨before, c, after, latest, rfl, checkAll_eq_ok_iff.mp hBefore, ?_, hLatest, rfl⟩
    intro hAccepted
    rw [operatorsOn_append, operatorsOn_singleton_self, Operator.accepted_concat] at hAccepted
    exact hRefused (hAccepted.2 latest hLatest)
  · rintro ⟨before, c, after, latest, rfl, hBefore, hRefused, hLatest, rfl⟩
    refine ⟨before, c, after, rfl, checkAll_eq_ok_iff.mpr hBefore, ?_⟩
    refine check_seen_eq_error_iff.mpr ⟨latest, hLatest, ?_, rfl⟩
    intro hAdmits
    refine hRefused ?_
    rw [operatorsOn_append, operatorsOn_singleton_self, Operator.accepted_concat]
    refine ⟨hBefore c.field, fun other hOther => ?_⟩
    obtain rfl := Option.some.inj (hLatest.symm.trans hOther)
    exact hAdmits

/-- What is accepted is a matter of the conditions on each field by themselves. -/
theorem checkAll_eq_ok_congr {conditions others : List Condition}
    (h : ∀ field, others.filter (·.field == field) = conditions.filter (·.field == field)) :
    checkAll [] others = .ok () ↔ checkAll [] conditions = .ok () := by
  rw [checkAll_eq_ok_iff, checkAll_eq_ok_iff]
  simp only [operatorsOn, h]

/-! ### What is written of a clause -/

theorem conditionTerms_of_checkAll_eq_ok (n : Naming) : ∀ {conditions : List Condition}
    {seen : List (String × Operator)}, checkAll seen conditions = .ok () →
    conditionTerms n seen conditions = conditionScripts n conditions
  | [], _, _ => rfl
  | ⟨field, test⟩ :: rest, seen, h => by
    rw [checkAll] at h
    rw [conditionTerms, conditionScripts]
    cases hCheck : check seen field test.operator with
    | error e =>
      rw [Condition.operator, hCheck] at h
      cases h
    | ok u =>
      rw [Condition.operator, hCheck] at h
      rw [guarded, conditionTerms_of_checkAll_eq_ok n h]

/-- The conditions that pass are written; the first one that does not ends the statement. -/
theorem conditionTerms_of_checkAll_eq_error (n : Naming) {e : CompileError} :
    ∀ {conditions : List Condition} {seen : List (String × Operator)},
    checkAll seen conditions = .error e →
      ∃ (before : List Condition) (c : Condition) (after : List Condition) (rest : List Script),
      conditions = before ++ c :: after ∧ checkAll seen before = .ok () ∧
      conditionTerms n seen conditions = conditionScripts n before ++ [.fail e] :: rest
  | [], _, h => by cases h
  | ⟨field, test⟩ :: rest, seen, h => by
    rw [checkAll, Condition.operator] at h
    rw [conditionTerms]
    cases hCheck : check seen field test.operator with
    | error e' =>
      rw [hCheck] at h
      obtain rfl := Except.error.inj h
      exact ⟨[], ⟨field, test⟩, rest, _, rfl, rfl, rfl⟩
    | ok u =>
      rw [hCheck] at h
      obtain ⟨before, c, after, others, rfl, hBefore, hTerms⟩ :=
        conditionTerms_of_checkAll_eq_error n h
      refine ⟨⟨field, test⟩ :: before, c, after, others, rfl, ?_, ?_⟩
      · rwa [checkAll, Condition.operator, hCheck]
      · rw [guarded, hTerms, conditionScripts, List.cons_append]

theorem findSome?_conditionScripts_eq_none_iff (n : Naming) : ∀ conditions : List Condition,
    (conditionScripts n conditions).findSome? failure? = none ↔
      ∀ c ∈ conditions, failure? (Test.script n c.field c.test) = none
  | [] => by simp [conditionScripts]
  | ⟨field, test⟩ :: rest => by
    rw [conditionScripts, findSome?_cons_or, Option.or_eq_none_iff, List.forall_mem_cons,
      findSome?_conditionScripts_eq_none_iff n rest]

theorem findSome?_conditionTerms_eq_none_iff (n : Naming) (conditions : List Condition) :
    (conditionTerms n [] conditions).findSome? failure? = none ↔
      checkAll [] conditions = .ok () ∧
        ∀ c ∈ conditions, failure? (Test.script n c.field c.test) = none := by
  rw [← findSome?_conditionScripts_eq_none_iff]
  cases hCheck : checkAll [] conditions with
  | ok u => rw [conditionTerms_of_checkAll_eq_ok n hCheck, and_iff_right rfl]
  | error e =>
    obtain ⟨before, c, after, rest, -, -, hTerms⟩ := conditionTerms_of_checkAll_eq_error n hCheck
    simp [hTerms, List.findSome?_append]

/-! ### The clauses of a filter -/

/-- The conditions that are checked together: those of the clause that is wrapped, its own.  Those of
the groups are alternatives and not checked. -/
def clauses : Filter → List (List Condition)
  | ⟨none, conditions, _⟩ => [conditions]
  | ⟨some wrapped, conditions, _⟩ => clauses wrapped ++ [conditions]

theorem clauses_orGroup (f group : Filter) : (f.orGroup group).clauses = f.clauses := by
  obtain ⟨wrapped, conditions, groups⟩ := f
  cases wrapped <;> rfl

theorem clauses_wrap (f inner : Filter) : (f.wrap inner).clauses = inner.clauses ++ [f.conditions] :=
  rfl

variable (n : Naming)

mutual

theorem findSome?_alternatives_eq_none_iff : ∀ f : Filter,
    (alternatives n f).findSome? failure? = none ↔
      ∀ c ∈ f.occurrences, failure? (Test.script n c.field c.test) = none
  | ⟨none, conditions, groups⟩ => by
    rw [alternatives, occurrences, List.findSome?_append, Option.or_eq_none_iff,
      findSome?_conditionScripts_eq_none_iff, findSome?_groupTerms_eq_none_iff groups,
      List.forall_mem_append]
  | ⟨some wrapped, conditions, groups⟩ => by
    rw [alternatives, occurrences, List.findSome?_append, List.findSome?_append,
      Option.or_eq_none_iff, Option.or_eq_none_iff, findSome?_alternatives_eq_none_iff wrapped,
      findSome?_conditionScripts_eq_none_iff, findSome?_groupTerms_eq_none_iff groups,
      List.forall_mem_append, List.forall_mem_append]

/-- In a group only single conditions can be wrong. -/
theorem findSome?_groupTerms_eq_none_iff : ∀ groups : List Filter,
    (groupTerms n groups).findSome? failure? = none ↔
      ∀ c ∈ groupOccurrences groups, failure? (Test.script n c.field c.test) = none
  | [] => by simp [groupTerms, groupOccurrences]
  | group :: rest => by
    rw [groupTerms, groupOccurrences, List.findSome?_append, Option.or_eq_none_iff,
      failure?_parenthesised, findSome?_alternatives_eq_none_iff group,
      findSome?_groupTerms_eq_none_iff rest, List.forall_mem_append]

end

/-- A filter is written if each clause passes the check and no single condition is wrong. -/
theorem findSome?_terms_eq_none_iff : ∀ f : Filter,
    (f.terms n).findSome? failure? = none ↔ (∀ clause ∈ f.clauses, checkAll [] clause = .ok ()) ∧
      ∀ c ∈ f.occurrences, failure? (Test.script n c.field c.test) = none
  | ⟨none, conditions, groups⟩ => by
    rw [terms, clauses, occurrences, List.findSome?_append, Option.or_eq_none_iff,
      findSome?_conditionTerms_eq_none_iff, findSome?_groupTerms_eq_none_iff,
      List.forall_mem_singleton, List.forall_mem_append, and_assoc]
  | ⟨some wrapped, conditions, groups⟩ => by
    rw [terms, clauses, occurrences, List.findSome?_append, List.findSome?_append,
      Option.or_eq_none_iff, Option.or_eq_none_iff, findSome?_terms_eq_none_iff wrapped,
      findSome?_conditionTerms_eq_none_iff, findSome?_groupTerms_eq_none_iff,
      List.forall_mem_append, List.forall_mem_append, List.forall_mem_append,
      List.forall_mem_singleton]
    tauto

/-- A clause passes if on each field the operators are in the language; what is reported is the
earliest condition that leaves it, with the one before it on the same field.  A filter is written as
soon as its clauses pass and no single condition is wrong.  Groups add no clause, and a clause that
is wrapped only those of its own. -/
theorem written_iff_accepted :
    (∀ conditions,
      (checkAll [] conditions = .ok () ↔
        ∀ field, Operator.Accepted (operatorsOn field conditions)) ∧
      (∀ e, checkAll [] conditions = .error e ↔ FirstRefused conditions e) ∧
      (∀ others,
        (∀ field, others.filter (·.field == field) = conditions.filter (·.field == field)) →
        (checkAll [] others = .ok () ↔ checkAll [] conditions = .ok ())) ∧
      ∀ n, match checkAll [] conditions with
        | .ok () => conditionTerms n [] conditions = conditionScripts n conditions
        | .error e => ∃ before c after rest, conditions = before ++ c :: after ∧
            checkAll [] before = .ok () ∧
            conditionTerms n [] conditions = conditionScripts n before ++ [.fail e] :: rest) ∧
    ∀ f : Filter,
      (∀ n correlation row context,
        (∃ after, runIn (whereScript n correlation row (f.terms n)) context = .ok after) ↔
          (∀ clause ∈ f.clauses, checkAll [] clause = .ok ()) ∧
            ∀ c ∈ f.occurrences, ∃ after, runIn (Test.script n c.field c.test) context = .ok after) ∧
      ∀ added, (f.orGroup added).clauses = f.clauses ∧
        (f.wrap added).clauses = added.clauses ++ [f.conditions] := by
  refine ⟨fun conditions => ⟨checkAll_eq_ok_iff, fun e => checkAll_eq_error_iff,
    fun others => checkAll_eq_ok_congr, fun n => ?_⟩, fun f => ⟨?_, fun added => ?_⟩⟩
  · cases hCheck : checkAll [] conditions with
    | ok u => exact conditionTerms_of_checkAll_eq_ok n hCheck
    | error e => exact conditionTerms_of_checkAll_eq_error n hCheck
  · intro n correlation row context
    simp only [← failure?_eq_none_iff]
    rw [failure?_whereScript, findSome?_terms_eq_none_iff]
  · exact ⟨f.clauses_orGroup added, f.clauses_wrap added⟩

/-- Ages from both sides and names: none of them are kept, then those of a list. -/
theorem written_iff_accepted_interleaved :
    let age := [Condition.mk "age" (.compare .gtEq (.int 18)), ⟨"age", .compare .lt (.int 65)⟩]
    let name := [Condition.mk "name" .null, ⟨"name", .inSubquery (.ofTable "names")⟩,
      ⟨"name", .inList [.text "a", .text "b"]⟩]
    let mixed := [Condition.mk "name" .null, ⟨"age", .compare .gtEq (.int 18)⟩,
      ⟨"name", .inSubquery (.ofTable "names")⟩, ⟨"age", .compare .lt (.int 65)⟩,
      ⟨"name", .inList [.text "a", .text "b"]⟩]
    (∀ field, mixed.filter (·.field == field) = (age ++ name).filter (·.field == field)) ∧
      checkAll [] mixed = .ok () := by
  intro age name mixed
  have hFields : ∀ field,
      mixed.filter (·.field == field) = (age ++ name).filter (·.field == field) := by
    intro field
    by_cases hAge : "age" = field
    · subst hAge
      rfl
    · by_cases hName : "name" = field
      · subst hName
        rfl
      · simp [mixed, age, name, hAge, hName]
  have hPasses : checkAll [] (age ++ name) = .ok () := rfl
  exact ⟨hFields, ((written_iff_accepted.1 (age ++ name)).2.2.1 mixed hFields).mpr hPasses⟩

end Filter

end SqlStatement
