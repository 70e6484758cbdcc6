import SqlStatement.Proofs.FilterMeaning

/-!
# WHERE lines are read as their filters

The text of a condition is one predicate, that of a group alternatives in
parentheses, and the terms of a filter stand between `AND`s.  So the line is read
as the conjunction of the formulas of the filter, whatever its shape: the terms
of a wrapped clause are terms of the line, or alternatives of the group the
clause is wrapped in, and never mix with what stands beside them.

* `Test.spells_script`: the text of a condition.
* `Filter.forall₂_factor_terms`: the text of each term stands for its formula.
* `Statement.filter_of_compile`: the WHERE line of a statement that compiles is
  read as the meaning of its filter.
-/

namespace SqlStatement

open Script Reading

/-! ### Names -/

theorem Naming.isName_qualify {n : Naming} {field : String}
    (hBase : n.inUse = true → IsName n.base) (h : IsName field) : IsName (n.qualify field) := by
  cases n with
  | bare => exact h
  | aliased base tables =>
    rw [qualify]
    split
    · exact h
    · exact (hBase rfl).qualified h

/-! ### Conditions -/

theorem written_placeholders (schema : String) (v : Value) (values : List Value) :
    written schema (placeholders (v :: values)) = '?' :: values.flatMap fun _ => [',', '?'] := by
  induction values generalizing v with
  | nil => rfl
  | cons w rest ih =>
    have hRest := ih w
    rw [placeholders, List.map_cons] at hRest
    rw [placeholders, List.map_cons, List.map_cons, joined_cons_cons, written_append]
    simp only [written, pieceWritten]
    rw [hRest]
    simp

theorem Reading.tokens_members (values : List Value) :
    tokens ((values.flatMap fun _ => [',', '?']) ++ [')'])
      = moreMembers values.length ++ [.right] := by
  induction values with
  | nil => rfl
  | cons v rest ih =>
    rw [List.flatMap_cons, List.append_assoc, tokens_append_of_single_left rfl, ih]
    rfl

/-- A name, the words of a membership test up to the first placeholder, and the others. -/
theorem Reading.spells_members {s : String} {op : Operator} {words : List Char} (hName : IsName s)
    (values : List Value) (hHead : words.head?.map classOf ≠ some .word)
    (hLast : words.getLast? = some '?')
    (hItems : ∀ rest, items? (.name s :: (tokens words ++ rest)) = members? s op 1 rest) :
    Spells (s.toList ++ (words ++ ((values.flatMap fun _ => [',', '?']) ++ [')'])))
      [.predicate (.test s op (1 + values.length))] := by
  have hWords : words ≠ [] := by
    rintro rfl
    cases hLast
  have hSingle : words.getLast?.map classOf = some .single := by
    rw [hLast]
    rfl
  have hTokens : tokens (words ++ ((values.flatMap fun _ => [',', '?']) ++ [')']))
      = tokens words ++ (moreMembers values.length ++ [.right]) := by
    rw [tokens_append_of_single_left hSingle, tokens_members]
  refine spells_predicate hName (by simp) ?_ ?_ fun rest => ?_
  · rwa [List.head?_append_of_ne_nil _ hWords]
  · rw [← List.append_assoc, List.getLast?_concat]
    exact nofun
  · rw [hTokens, List.append_assoc, hItems, List.append_assoc, List.singleton_append,
      members?_moreMembers]

/-- A condition is written as its predicate. -/
theorem Test.spells_script (schema : String) {n : Naming} {field : String} {test : Test}
    (hName : IsName (n.qualify field)) (hQuery : test.operator ≠ .inSubquery)
    (hNone : failure? (Test.script n field test) = none) :
    Spells (written schema (Test.script n field test))
      [.predicate (Condition.predicate n ⟨field, test⟩)] := by
  cases test with
  | compare c v =>
    have hText : written schema (Test.script n field (.compare c v))
        = (n.qualify field).toList ++ (c.operator.fragment.toList ++ ['?']) := by
      simp [Test.script]
    rw [hText]
    cases c <;> exact spells_predicate hName (by simp) (by decide) (by decide) fun _ => rfl
  | null =>
    have hText : written schema (Test.script n field .null)
        = (n.qualify field).toList ++ " IS NULL".toList := by
      simp [Test.script, Operator.fragment]
    rw [hText]
    exact spells_predicate hName (by simp) (by decide) (by decide) fun _ => rfl
  | notNull =>
    have hText : written schema (Test.script n field .notNull)
        = (n.qualify field).toList ++ " IS NOT NULL".toList := by
      simp [Test.script, Operator.fragment]
    rw [hText]
    exact spells_predicate hName (by simp) (by decide) (by decide) fun _ => rfl
  | between low high =>
    have hText : written schema (Test.script n field (.between low high))
        = (n.qualify field).toList ++ " BETWEEN ? AND ?".toList := by
      simp [Test.script, Operator.fragment, Filter.rangeOperand]
    rw [hText]
    exact spells_predicate hName (by simp) (by decide) (by decide) fun _ => rfl
  | notBetween low high =>
    have hText : written schema (Test.script n field (.notBetween low high))
        = (n.qualify field).toList ++ " NOT BETWEEN ? AND ?".toList := by
      simp [Test.script, Operator.fragment, Filter.rangeOperand]
    rw [hText]
    exact spells_predicate hName (by simp) (by decide) (by decide) fun _ => rfl
  | inList values =>
    cases values with
    | nil => simp [Test.script, Filter.listOperand] at hNone
    | cons v rest =>
      have hText : written schema (Test.script n field (.inList (v :: rest)))
          = (n.qualify field).toList
            ++ (" IN (?".toList ++ ((rest.flatMap fun _ => [',', '?']) ++ [')'])) := by
        simp [Test.script, Operator.fragment, Filter.listOperand, written_placeholders]
      rw [hText, Condition.predicate, Test.boundValues, List.length_cons, Nat.add_comm]
      exact spells_members hName rest (by decide) rfl fun _ => rfl
  | notIn values =>
    cases values with
    | nil => simp [Test.script, Filter.listOperand] at hNone
    | cons v rest =>
      have hText : written schema (Test.script n field (.notIn (v :: rest)))
          = (n.qualify field).toList
            ++ (" NOT IN (?".toList ++ ((rest.flatMap fun _ => [',', '?']) ++ [')'])) := by
        simp [Test.script, Operator.fragment, Filter.listOperand, written_placeholders]
      rw [hText, Condition.predicate, Test.boundValues, List.length_cons, Nat.add_comm]
      exact spells_members hName rest (by decide) rfl fun _ => rfl
  | inSubquery query => exact absurd rfl hQuery

/-! ### Filters -/

/-- A condition that is no subquery, on a field that is written as a name. -/
def Condition.IsReadable (n : Naming) (c : Condition) : Prop :=
  IsName (n.qualify c.field) ∧ c.operator ≠ .inSubquery

section

variable (schema : String) {n : Naming}

theorem Condition.factor_script {c : Condition} (h : c.IsReadable n)
    (hNone : failure? (Test.script n c.field c.test) = none) :
    Factor (written schema (Test.script n c.field c.test)) (.predicate (c.predicate n)) :=
  factor_of_spells (Test.spells_script schema h.1 h.2 hNone)

namespace Filter

theorem forall₂_factor_conditionScripts : ∀ {conditions : List Condition},
    (∀ c ∈ conditions, c.IsReadable n) →
    (conditionScripts n conditions).findSome? failure? = none →
    List.Forall₂ Factor ((conditionScripts n conditions).map (written schema))
      (conditions.map fun c => .predicate (c.predicate n))
  | [], _, _ => .nil
  | ⟨field, test⟩ :: rest, hReadable, hNone => by
    rw [conditionScripts, findSome?_cons_or, Option.or_eq_none_iff] at hNone
    refine .cons (Condition.factor_script schema (hReadable _ List.mem_cons_self) hNone.1) ?_
    exact forall₂_factor_conditionScripts (fun c hc => hReadable c (List.mem_cons_of_mem _ hc))
      hNone.2

theorem forall₂_factor_parenthesised {alternatives : List Script} {as : List Formula}
    (h : List.Forall₂ Factor (alternatives.map (written schema)) as) :
    List.Forall₂ Factor ((parenthesised alternatives).map (written schema))
      (Formula.disjunction? as).toList := by
  cases alternatives with
  | nil =>
    cases h
    exact .nil
  | cons t rest =>
    cases h with
    | cons ht hRest =>
      refine .cons ?_ .nil
      have hText : written schema (.text "(" :: joined " OR " (t :: rest) ++ [.text ")"])
          = ['('] ++ (" OR ".toList.intercalate (written schema t :: rest.map (written schema))
            ++ [')']) := by
        simp [written_joined]
      rw [hText]
      exact factor_parenthesised ht hRest

end Filter

mutual

theorem Filter.forall₂_factor_alternatives : ∀ f : Filter,
    (∀ c ∈ f.occurrences, c.IsReadable n) →
    (f.alternatives n).findSome? failure? = none →
    List.Forall₂ Factor ((f.alternatives n).map (written schema)) (f.alternativeFactors n)
  | ⟨none, conditions, groups⟩, hReadable, hNone => by
    rw [Filter.alternatives, List.findSome?_append, Option.or_eq_none_iff] at hNone
    rw [Filter.occurrences, List.forall_mem_append] at hReadable
    rw [Filter.alternatives, Filter.alternativeFactors, List.map_append]
    exact List.rel_append
      (Filter.forall₂_factor_conditionScripts schema hReadable.1 hNone.1)
      (Filter.forall₂_factor_groupTerms groups hReadable.2 hNone.2)
  | ⟨some wrapped, conditions, groups⟩, hReadable, hNone => by
    rw [Filter.alternatives, List.findSome?_append, List.findSome?_append, Option.or_eq_none_iff,
      Option.or_eq_none_iff] at hNone
    rw [Filter.occurrences, List.forall_mem_append, List.forall_mem_append] at hReadable
    rw [Filter.alternatives, Filter.alternativeFactors, List.map_append, List.map_append]
    exact List.rel_append (List.rel_append
      (Filter.forall₂_factor_alternatives wrapped hReadable.1.1 hNone.1.1)
      (Filter.forall₂_factor_conditionScripts schema hReadable.1.2 hNone.1.2))
      (Filter.forall₂_factor_groupTerms groups hReadable.2 hNone.2)

theorem Filter.forall₂_factor_groupTerms : ∀ groups : List Filter,
    (∀ c ∈ Filter.groupOccurrences groups, c.IsReadable n) →
    (Filter.groupTerms n groups).findSome? failure? = none →
    List.Forall₂ Factor ((Filter.groupTerms n groups).map (written schema))
      (Filter.groupFactors n groups)
  | [], _, _ => .nil
  | group :: rest, hReadable, hNone => by
    rw [Filter.groupTerms, List.findSome?_append, Filter.failure?_parenthesised,
      Option.or_eq_none_iff] at hNone
    rw [Filter.groupOccurrences, List.forall_mem_append] at hReadable
    rw [Filter.groupTerms, Filter.groupFactors, List.map_append]
    exact List.rel_append
      (Filter.forall₂_factor_parenthesised schema
        (Filter.forall₂_factor_alternatives group hReadable.1 hNone.1))
      (Filter.forall₂_factor_groupTerms rest hReadable.2 hNone.2)

end

/-- The text of each term of a filter stands for its formula. -/
theorem Filter.forall₂_factor_terms : ∀ f : Filter,
    (∀ c ∈ f.occurrences, c.IsReadable n) → (f.terms n).findSome? failure? = none →
    List.Forall₂ Factor ((f.terms n).map (written schema)) (f.factors n)
  | ⟨none, conditions, groups⟩, hReadable, hNone => by
    rw [Filter.terms, List.findSome?_append, Option.or_eq_none_iff] at hNone
    rw [Filter.occurrences, List.forall_mem_append] at hReadable
    have hConditions := Filter.conditionTerms_eq hNone.1
    rw [hConditions] at hNone
    rw [Filter.terms, Filter.factors, List.map_append, hConditions]
    exact List.rel_append
      (Filter.forall₂_factor_conditionScripts schema hReadable.1 hNone.1)
      (Filter.forall₂_factor_groupTerms schema groups hReadable.2 hNone.2)
  | ⟨some wrapped, conditions, groups⟩, hReadable, hNone => by
    rw [Filter.terms, List.findSome?_append, List.findSome?_append, Option.or_eq_none_iff,
      Option.or_eq_none_iff] at hNone
    rw [Filter.occurrences, List.forall_mem_append, List.forall_mem_append] at hReadable
    have hConditions := Filter.conditionTerms_eq hNone.1.2
    rw [hConditions] at hNone
    rw [Filter.terms, Filter.factors, List.map_append, List.map_append, hConditions]
    exact List.rel_append (List.rel_append
      (Filter.forall₂_factor_terms wrapped hReadable.1.1 hNone.1.1)
      (Filter.forall₂_factor_conditionScripts schema hReadable.1.2 hNone.1.2))
      (Filter.forall₂_factor_groupTerms schema groups hReadable.2 hNone.2)

end

/-! ### WHERE lines -/

/-- The test for the one row of a statement, as it is written. -/
def Source.rowPredicate (n : Naming) (id : UInt64) : Predicate :=
  .equality (n.qualify "id") id.toNat.repr

/-- The meaning of a filter with the test for the row, which comes first. -/
def Filter.holdsWith (truth : Nat → Bool) (f : Filter) : Option UInt64 → Bool
  | none => f.holds truth 0
  | some _ => truth 0 && f.holds truth 1

theorem Source.factor_rowTerm (schema : String) {n : Naming}
    (hBase : n.inUse = true → IsName n.base) (id : UInt64) :
    Factor (written schema (rowTerm n id)) (.predicate (rowPredicate n id)) := by
  have hName : IsName (n.qualify "id") := Naming.isName_qualify hBase (by decide)
  have hText : written schema (rowTerm n id)
      = (n.qualify "id").toList ++ (['='] ++ id.toNat.repr.toList) := by
    simp [rowTerm]
  rw [hText]
  exact factor_of_spells (spells_equality hName (isName_natRepr id.toNat))

/-- The line of a filter with a condition is read as what the filter means. -/
theorem Filter.read?_whereScript (schema : String) {n : Naming} (row : Option UInt64) {f : Filter}
    (hBase : n.inUse = true → IsName n.base) (hReadable : ∀ c ∈ f.occurrences, c.IsReadable n)
    (hSome : f.occurrences ≠ []) (hNone : (f.terms n).findSome? failure? = none) :
    ∃ before c a, written schema (whereScript n none row (f.terms n)) = before ++ [c] ++ ['\n'] ∧
      classOf c ≠ .blank ∧ Formula.read? (before ++ [c]) = some a ∧
      a.predicates = (row.map (Source.rowPredicate n)).toList
        ++ f.occurrences.map (·.predicate n) ∧
      ∀ truth, a.value truth 0 = f.holdsWith truth row := by
  have hTerms : List.Forall₂ Factor ((whereTerms n none row (f.terms n)).map (written schema))
      ((row.map fun id => .predicate (Source.rowPredicate n id)).toList ++ f.factors n) := by
    rw [whereTerms, List.map_append]
    refine List.rel_append ?_ (f.forall₂_factor_terms schema hReadable hNone)
    cases row with
    | none => exact .nil
    | some id => exact .cons (Source.factor_rowTerm schema hBase id) .nil
  have hPredicates := f.predicates_factors n
  cases hFormulas : (row.map fun id => Formula.predicate (Source.rowPredicate n id)).toList
      ++ f.factors n with
  | nil =>
    rw [(List.append_eq_nil_iff.mp hFormulas).2] at hPredicates
    exact absurd (List.map_eq_nil_iff.mp hPredicates.symm) hSome
  | cons a as =>
    rw [hFormulas] at hTerms
    obtain ⟨l, ls, hFirst, hRest, hTexts⟩ := List.forall₂_cons_right_iff.mp hTerms
    obtain ⟨hRead, before, c, hLine, hLast⟩ := read?_conjunction hFirst hRest
    have hNe : whereTerms n none row (f.terms n) ≠ [] := by
      intro hNil
      rw [hNil] at hTexts
      cases hTexts
    refine ⟨before, c, as.foldl .both a, ?_, hLast, hLine ▸ hRead, ?_, fun truth => ?_⟩
    · rw [whereScript_eq, if_neg hNe, ← hLine, ← hTexts]
      simp [written_joined]
    · rw [Formula.predicates_foldl_both, ← hFormulas, List.flatMap_append, hPredicates]
      cases row <;> rfl
    · rw [Formula.value_foldl_both, ← hFormulas, Formula.allHold_append, allHold_factors]
      cases row <;> simp [Formula.allHold, Formula.value, holdsWith, Formula.size,
        Formula.predicates]

/-! ### Statements -/

/-- The statement keeps the rows of `f` under these aliases, or one row of them. -/
inductive Statement.Keeps : Statement → Naming → Option UInt64 → Filter → Prop
  | select {s : Select} {p : Plan} : s.plan none = .ok p →
      Keeps (.select s) p.naming s.source.row s.filter
  | update {u : Update} {p : Plan} : u.plan = .ok p →
      Keeps (.update u) p.naming u.source.row u.filter
  | delete {d : Delete} {p : Plan} : d.plan = .ok p →
      Keeps (.delete d) p.naming d.source.row d.filter
  | union {u : Union} {p : Plan} : u.outer.plan none = .ok p →
      Keeps (.union u) p.naming u.outer.source.row u.outer.filter

theorem Select.where_infix_script {s : Select} {p : Plan} (h : s.plan none = .ok p) :
    whereScript p.naming none s.source.row (s.filter.terms p.naming) <:+: s.script none := by
  obtain ⟨source, selection, filter, json⟩ := s
  rw [script, h]
  exact List.infix_append _ _ _

theorem Update.where_infix_script {u : Update} {p : Plan} (h : u.plan = .ok p)
    (hNone : failure? u.script = none) :
    whereScript p.naming none u.source.row (u.filter.terms p.naming) <:+: u.script := by
  rw [script] at hNone ⊢
  cases hSorted : u.fields.sorted with
  | error e => simp [hSorted] at hNone
  | ok entries =>
    cases hEmpty : entries.isEmpty && u.removal.isNone with
    | true => simp [hSorted, hEmpty] at hNone
    | false =>
      simp only [h, hEmpty]
      exact (List.suffix_append _ _).isInfix

theorem Delete.where_infix_script {d : Delete} {p : Plan} (h : d.plan = .ok p) :
    whereScript p.naming none d.source.row (d.filter.terms p.naming) <:+: d.script := by
  rw [script, h]
  exact (List.suffix_append _ _).isInfix

theorem Union.where_infix_script {u : Union} {p : Plan} (h : u.outer.plan none = .ok p)
    (hNone : failure? u.script = none) :
    whereScript p.naming none u.outer.source.row (u.outer.filter.terms p.naming)
      <:+: u.script := by
  rw [script] at hNone ⊢
  by_cases hCount : u.members.length < 2
  · simp [hCount] at hNone
  · rw [if_neg hCount, h]
    exact List.infix_append _ _ _

/-- The WHERE line of a filter stands in its statement. -/
theorem Statement.where_infix_script {s : Statement} {n : Naming} {row : Option UInt64}
    {f : Filter} (h : s.Keeps n row f) (hNone : failure? s.script = none) :
    whereScript n none row (f.terms n) <:+: s.script := by
  cases h with
  | select hPlan => exact Select.where_infix_script hPlan
  | update hPlan => exact Update.where_infix_script hPlan hNone
  | delete hPlan => exact Delete.where_infix_script hPlan
  | union hPlan => exact Union.where_infix_script hPlan hNone

/-- A line of a statement stands in the compiled text, also if it is the last one. -/
theorem Script.toList_compiled {schema : String} {front body tail : Script} {before : List Char}
    {c : Char} (hLine : written schema body = before ++ [c] ++ ['\n']) (hBreak : c ≠ '\n') :
    (compiled schema (front ++ body ++ tail)).sql.toList = written schema front ++ (before ++ [c])
      ++ Text.dropEndWhile (· == '\n') ('\n' :: written schema tail) := by
  have hWritten : written schema (front ++ body ++ tail)
      = written schema front ++ before ++ [c] ++ ('\n' :: written schema tail) := by
    rw [written_append, written_append, hLine]
    simp
  have hDrop : Text.dropEndWhile (· == '\n')
        (written schema front ++ before ++ [c] ++ ('\n' :: written schema tail))
      = written schema front ++ before ++ [c]
        ++ Text.dropEndWhile (· == '\n') ('\n' :: written schema tail) :=
    Text.dropEndWhile_concat_append _ _ (beq_eq_false_iff_ne.mpr hBreak)
  rw [compiled, String.toList_ofList, hWritten, hDrop, List.append_assoc _ before]

/-- The WHERE line of a statement that compiles is read as the meaning of its filter, with the test
for the row in front. -/
theorem Statement.filter_of_compile {schema : String} {s : Statement} {c : Compiled} {n : Naming}
    {row : Option UInt64} {f : Filter} (h : s.compile schema = .ok c) (hKeeps : s.Keeps n row f)
    (hBase : n.inUse = true → IsName n.base)
    (hColumns : ∀ o ∈ f.occurrences, IsName o.field ∧ o.operator ≠ .inSubquery)
    (hSome : f.occurrences ≠ []) :
    ∃ front tail line a, front ++ whereScript n none row (f.terms n) ++ tail = s.script ∧
      c.sql.toList = written schema front ++ line
        ++ Text.dropEndWhile (· == '\n') ('\n' :: written schema tail) ∧
      Formula.read? line = some a ∧
      a.predicates = (row.map (Source.rowPredicate n)).toList
        ++ f.occurrences.map (·.predicate n) ∧
      ∀ truth, a.value truth 0 = f.holdsWith truth row := by
  obtain ⟨hNone, rfl⟩ := compile_eq_ok_iff.mp h
  obtain ⟨front, tail, hScript⟩ := where_infix_script hKeeps hNone
  have hTerms : (f.terms n).findSome? failure? = none := by
    rw [← hScript, failure?_append, failure?_append, Option.or_eq_none_iff,
      Option.or_eq_none_iff, failure?_whereScript] at hNone
    exact hNone.1.2
  have hReadable : ∀ o ∈ f.occurrences, o.IsReadable n := fun o ho =>
    ⟨Naming.isName_qualify hBase (hColumns o ho).1, (hColumns o ho).2⟩
  obtain ⟨before, c, a, hLine, hLast, hRead, hPredicates, hValue⟩ :=
    Filter.read?_whereScript schema row hBase hReadable hSome hTerms
  refine ⟨front, tail, before ++ [c], a, hScript, ?_, hRead, hPredicates, hValue⟩
  have hBreak : c ≠ '\n' := by
    rintro rfl
    exact hLast rfl
  rw [← hScript]
  exact Script.toList_compiled hLine hBreak

/-- A clause with an alternative of ranges around one with alternatives of its own, one group of
which is empty and one of which wraps a clause. -/
def Filter.nested : Filter :=
  Filter.any
    |>.wrap (Filter.any
      |>.compare .eq "state" (.text "open")
      |>.orGroup (Filter.any |>.orGroup .any)
      |>.orGroup (Filter.any
        |>.condition "size" (.between (.uint 1) (.uint 5))
        |>.condition "size" .null))
    |>.compare .gtEq "o.total" (.uint 100)
    |>.orGroup (Filter.any
      |>.wrap (Filter.any.condition "kind" (.inList [.uint 1, .uint 2]))
      |>.compare .notEq "name" .null
      |>.orGroup (Filter.any
        |>.condition "size" (.notBetween (.uint 3) (.uint 4))
        |>.condition "rank" (.notIn [.uint 7])))

def Select.nested : Select :=
  Select.byId "users" 5
    |>.join ⟨.inner, "orders", "o", "user_id", "id", []⟩
    |>.filtered .nested

theorem Statement.filter_of_compile_nested :
    ∃ c front tail line a, (Statement.select .nested).compile "shop" = .ok c ∧
      c.sql.toList = written "shop" front ++ line
        ++ Text.dropEndWhile (· == '\n') ('\n' :: written "shop" tail) ∧
      Formula.read? line = some a ∧
      a.predicates.take 4 = [.equality "u.id" "5", .test "u.state" .eq 1,
        .test "u.size" .between 2, .test "u.size" .null 0] ∧
      ∀ truth, a.value truth 0 = (truth 0 && (truth 1 && (truth 2 || truth 3) && truth 4
        && (truth 5 || truth 6 || truth 7 || truth 8))) := by
  have hPlan : Select.nested.plan none
      = .ok ⟨.aliased "u" [("o", "orders"), ("u", "users")], Select.nested.source.joins⟩ := rfl
  have hColumns : ∀ o ∈ Filter.nested.occurrences, IsName o.field ∧ o.operator ≠ .inSubquery := by
    decide
  obtain ⟨front, tail, line, a, -, hText, hRead, hPredicates, hValue⟩ :=
    @filter_of_compile "shop" (.select .nested) _ _ _ _ rfl (.select hPlan) (by decide) hColumns
      (List.cons_ne_nil _ _)
  refine ⟨_, front, tail, line, a, rfl, hText, hRead, ?_, fun truth => ?_⟩
  · rw [hPredicates]
    rfl
  · rw [hValue]
    simp [Select.nested, Select.filtered, Select.join, Select.byId, Source.join, Filter.nested,
      Filter.any, Filter.wrap, Filter.compare, Filter.condition, Filter.orGroup,
      Filter.holdsWith, Filter.holds, Filter.groupsHold, Filter.occurrences,
      Filter.groupOccurrences, List.range', Bool.and_assoc, Bool.or_assoc]

end SqlStatement
