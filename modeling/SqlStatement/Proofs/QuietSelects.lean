import SqlStatement.Proofs.QuietClauses
import SqlStatement.Proofs.RuledStatements

/-!
# Selects in front of their ORDER BY

A select whose identifiers are tame is a whole text, and everything in front of
its ORDER BY and LIMIT is quiet: what its sub-selects and subqueries say of order
and number stands in parentheses.

* `Select.whole_script`, by induction over selects and filters.
* `Selection.tail`: ORDER BY and LIMIT as they are written.
* `Selection.clauseLine_orderLine`, `Selection.clauseLine_limitLine`: each begins
  with its clause word and holds no other one.
* `Select.written_script_eq`, `Select.opens_bodyScript`: what stands in front of it.
-/

namespace SqlStatement

open Script Text Surface

variable {schema : String}

/-! ### Plans -/

namespace Source

variable {s : Source} {force : Bool} {reserved mentioned : List String} {p : Plan}

theorem isQuiet_naming (h : ∀ t ∈ s.texts, Tame t) (hp : s.plan force reserved mentioned = .ok p) :
    p.naming.IsQuiet := by
  have hTable : Tame s.table := h _ (by simp [texts])
  have hRequested : ∀ t ∈ s.requested, Tame t := fun t ht =>
    h t (by simp [texts, Option.mem_def.mp ht])
  exact Naming.isQuiet_of_assign hTable hRequested (assign_of_plan hp)

theorem opens_joins (hSchema : Tame schema) (h : ∀ t ∈ s.texts, Tame t)
    (hp : s.plan force reserved mentioned = .ok p) :
    Opens (written schema (Join.scripts p.naming p.joins)) := by
  refine Join.opens_scripts hSchema (isQuiet_naming h hp) fun j hj t ht => ?_
  exact h t (List.mem_append_right _ (List.mem_flatMap.mpr ⟨j, mem_of_plan hp hj, ht⟩))

end Source

/-! ### The end of a select -/

/-- A line that begins with a clause word, has no other one on its surface and nothing that runs on
behind it; no line at all if the clause is absent. -/
structure ClauseLine (w : ClauseWord) (present : Prop) (l : List Char) : Prop where
  whole : Whole l
  last_eq : ∀ c ∈ l.getLast?, isWordChar c = false
  eq_nil : ¬ present → l = []
  tokens_eq : present → ∃ rest, tokens l = .clause w :: rest ∧ ∀ t ∈ rest, t.isClause = false

theorem ClauseLine.absent {w : ClauseWord} {present : Prop} (h : ¬ present) :
    ClauseLine w present [] :=
  ⟨Whole.nil, fun _ hc => (nomatch hc), fun _ => rfl, fun hPresent => absurd hPresent h⟩

theorem ClauseLine.of_divides {w : ClauseWord} {present : Prop} {word rest : List Char}
    (h : present) (hWhole : Whole word) (hWord : tokens word = [.clause w]) (hRest : Divides rest) :
    ClauseLine w present (word ++ rest) where
  whole := hWhole.append hRest.toOpens.quiet.whole
  last_eq c hc := by
    rw [List.getLast?_append_of_ne_nil _ hRest.ne_nil] at hc
    exact hRest.last_eq c hc
  eq_nil hAbsent := absurd h hAbsent
  tokens_eq _ := by
    have hApart : Apart word rest := fun x _ y hy => by
      rw [hRest.head_eq y hy, Bool.and_false]
    exact ⟨tokens rest, by rw [tokens_append hWhole hApart, hWord]; rfl,
      hRest.toOpens.quiet.isClause_eq⟩

theorem ClauseLine.tokens_eq_nil_iff {w : ClauseWord} {present : Prop} {l : List Char}
    (h : ClauseLine w present l) : tokens l = [] ↔ ¬ present := by
  constructor
  · intro hNil hPresent
    obtain ⟨rest, hTokens, -⟩ := h.tokens_eq hPresent
    rw [hTokens] at hNil
    cases hNil
  · intro hAbsent
    rw [h.eq_nil hAbsent, tokens_nil]

/-- The clause word comes first, and no other one comes after it. -/
theorem ClauseLine.clauses {w : ClauseWord} {present : Prop} {l : List Char}
    (h : ClauseLine w present l) : (∀ t ∈ (tokens l).head?, t = .clause w) ∧
      ∀ t ∈ tokens l, t.isClause = true → t = .clause w := by
  by_cases hPresent : present
  · obtain ⟨rest, hTokens, hRest⟩ := h.tokens_eq hPresent
    rw [hTokens]
    refine ⟨fun t ht => (Option.some.inj ht).symm, List.forall_mem_cons.mpr ⟨fun _ => rfl, ?_⟩⟩
    exact fun t ht hClause => absurd hClause (by simp [hRest t ht])
  · rw [h.tokens_eq_nil_iff.mpr hPresent]
    exact ⟨fun t ht => (nomatch ht), fun t ht => absurd ht List.not_mem_nil⟩

namespace Selection

variable {n : Naming} {s : Selection}

/-- ORDER BY and LIMIT, each if there is something to say. -/
def tail (n : Naming) (s : Selection) : String := s.orderLine n ++ s.limitLine

theorem clauseLine_orderLine (hn : n.IsQuiet) (h : ∀ o ∈ s.order, Tame o.field) :
    ClauseLine .order (s.order ≠ []) (s.orderLine n).toList := by
  by_cases hNil : s.order = []
  · have hText : (s.orderLine n).toList = [] := by simp [orderLine, listedLine, hNil]
    rw [hText]
    exact .absent (not_not_intro hNil)
  · have hItems : ∀ t ∈ s.order.map (OrderField.written n), Quiet t.toList := by
      intro t ht
      obtain ⟨o, ho, rfl⟩ := List.mem_map.mp ht
      rw [OrderField.written, String.toList_append]
      refine (Naming.quiet_qualify hn (h o ho).quiet).append_closes ?_
      cases o.descending <;> decide
    have hText : (s.orderLine n).toList = "ORDER".toList ++ (" BY ".toList
        ++ (commas (s.order.map (OrderField.written n))).toList ++ "\n".toList) := by
      simp [orderLine, listedLine, hNil]
    rw [hText]
    exact .of_divides hNil (by decide) (by decide)
      ((by decide : Divides " BY ".toList).around (quiet_commas hItems) (by decide))

theorem clauseLine_limitLine (s : Selection) :
    ClauseLine .limit (0 < s.limit) s.limitLine.toList := by
  by_cases hSome : 0 < s.limit
  · have hText : s.limitLine.toList = "LIMIT".toList ++ (" ".toList ++ (s.offset.toNat.repr.toList
        ++ ",".toList ++ s.limit.toNat.repr.toList) ++ "\n".toList) := by
      simp [limitLine, hSome]
    rw [hText]
    exact .of_divides hSome (by decide) (by decide) ((by decide : Divides " ".toList).around
      ((quiet_natRepr _).divided (by decide) (quiet_natRepr _)) (by decide))
  · have hText : s.limitLine.toList = [] := by simp [limitLine, hSome]
    rw [hText]
    exact .absent hSome

theorem whole_tail (hn : n.IsQuiet) (h : ∀ o ∈ s.order, Tame o.field) :
    Whole (s.tail n).toList := by
  rw [tail, String.toList_append]
  exact (clauseLine_orderLine hn h).whole.append (clauseLine_limitLine s).whole

theorem whole_lockLine (s : Selection) : Whole s.lockLine.toList := by
  rw [lockLine]
  split <;> decide

end Selection

/-! ### Selects and filters -/

theorem Selection.forall_mem_texts {P : String → Prop} {s : Selection} :
    (∀ t ∈ s.texts, P t) ↔ (∀ f ∈ s.fields, ∀ t ∈ f.texts, P t) ∧
      (∀ t ∈ s.jsonTables, ∀ p ∈ t.texts, P p) ∧ (∀ f ∈ s.group, P f) ∧
        ∀ o ∈ s.order, P o.field := by
  simp only [texts, List.forall_mem_append, List.forall_mem_map, List.forall_mem_flatMap,
    and_assoc]

theorem Select.forall_mem_texts {P : String → Prop} {s : Select} :
    (∀ t ∈ s.texts, P t) ↔ (∀ t ∈ s.source.texts, P t) ∧ (∀ t ∈ s.selection.texts, P t) ∧
      (∀ t ∈ s.filter.texts, P t) ∧ ∀ t ∈ JsonSelect.texts s.json, P t := by
  cases s
  simp only [texts, List.forall_mem_append, and_assoc]

namespace Select

variable {s : Select} {correlation : Option Correlation} {p : Plan}

/-- What a select writes between its select list and its ORDER BY. -/
def bodyScript (s : Select) (correlation : Option Correlation) (p : Plan) : Script :=
  s.selection.fromScript p.naming s.source.table ++ Join.scripts p.naming p.joins
    ++ whereScript p.naming correlation s.source.row (s.filter.terms p.naming)
    ++ Selection.listed "GROUP BY " (s.selection.group.map p.naming.qualify)

theorem written_script_eq (h : s.plan correlation = .ok p) : written schema (s.script correlation)
      = written schema (s.selection.headScript correlation.isSome p.naming
          (JsonSelect.scripts p.naming s.json))
        ++ written schema (s.bodyScript correlation p) ++ (s.selection.tail p.naming).toList
        ++ s.selection.lockLine.toList := by
  rw [script_eq h, bodyScript]
  simp [Selection.written_tailScript, Selection.written_listed, Selection.groupLine, Selection.tail]

theorem opens_bodyScript (hSchema : Tame schema) (hPlan : s.plan correlation = .ok p)
    (hSource : ∀ t ∈ s.source.texts, Tame t) (hSelection : ∀ t ∈ s.selection.texts, Tame t)
    (hCorrelation : ∀ c ∈ correlation, c.IsQuiet)
    (hTerms : ∀ t ∈ s.filter.terms p.naming, Quiet (written schema t)) :
    Opens (written schema (s.bodyScript correlation p)) := by
  obtain ⟨-, hTables, hGroup, -⟩ := Selection.forall_mem_texts.mp hSelection
  have hn : p.naming.IsQuiet := Source.isQuiet_naming hSource hPlan
  have hTable : Tame s.source.table := hSource _ (by simp [Source.texts])
  have hItems : ∀ t ∈ s.selection.group.map p.naming.qualify, Quiet t.toList :=
    List.forall_mem_map.mpr fun t ht => Naming.quiet_qualify hn (hGroup t ht).quiet
  have hFrom := Selection.opens_fromScript hSchema hn hTable hTables
  have hJoins := Source.opens_joins hSchema hSource hPlan
  have hWhere := opens_whereScript hn hCorrelation s.source.row hTerms
  have hGroupLine := Selection.opens_listed (by decide : Opens "GROUP BY ".toList) hItems
  rw [bodyScript, written_append, written_append, written_append, Selection.written_listed]
  exact ((hFrom.append_opens hJoins).append_opens hWhere).append_opens hGroupLine

end Select

mutual

theorem Select.whole_script : ∀ (s : Select) (correlation : Option Correlation), Tame schema →
    (∀ t ∈ s.texts, Tame t) → (∀ c ∈ correlation, c.IsQuiet) →
    Whole (written schema (s.script correlation))
  | ⟨source, selection, filter, json⟩, correlation, hSchema, h, hc => by
    obtain ⟨hSource, hSelection, hFilter, hJson⟩ := Select.forall_mem_texts.mp h
    cases hPlan : Select.plan ⟨source, selection, filter, json⟩ correlation with
    | error e =>
      rw [Select.script, hPlan]
      exact Whole.nil
    | ok p =>
      have hn : p.naming.IsQuiet := Source.isQuiet_naming hSource hPlan
      have hNested := JsonSelect.isQuiet_scripts p.naming json hSchema hn hJson
      have hBody := Select.opens_bodyScript hSchema hPlan hSource hSelection hc
        (Filter.quiet_terms p.naming filter hSchema hn hFilter)
      obtain ⟨hFields, -, -, hOrder⟩ := Selection.forall_mem_texts.mp hSelection
      have hHead : Whole (written schema (selection.headScript correlation.isSome p.naming
          (JsonSelect.scripts p.naming json))) := by
        cases correlation.isSome with
        | true => exact Selection.whole_objectScript hn hFields hNested
        | false => exact (Selection.opens_listScript hn hFields hNested).quiet.whole
      rw [Select.written_script_eq hPlan]
      exact ((hHead.append hBody.quiet.whole).append (Selection.whole_tail hn hOrder)).append
        selection.whole_lockLine

theorem JsonSelect.isQuiet_scripts : ∀ (n : Naming) (json : List JsonSelect), Tame schema →
    n.IsQuiet → (∀ t ∈ JsonSelect.texts json, Tame t) →
    ∀ j ∈ JsonSelect.scripts n json, j.IsQuiet schema
  | _, [], _, _, _ => fun _ hj => absurd hj List.not_mem_nil
  | n, ⟨name, query, inner, outer⟩ :: rest, hSchema, hn, h => by
    simp only [JsonSelect.texts, List.forall_mem_append, List.forall_mem_cons] at h
    obtain ⟨⟨⟨hName, hInner, hOuter, -⟩, hQuery⟩, hRest⟩ := h
    intro j hj
    rw [JsonSelect.scripts] at hj
    rcases List.mem_cons.mp hj with rfl | hj
    · rw [JsonSelect.script]
      refine ⟨hName, ?_⟩
      split
      · exact quiet_nil
      · have hTied : Correlation.IsQuiet ⟨n.aliases, inner, n.qualify outer⟩ :=
          ⟨hInner.quiet, Naming.quiet_qualify hn hOuter.quiet⟩
        have hBody := Select.whole_script query (some ⟨n.aliases, inner, n.qualify outer⟩) hSchema
          hQuery fun c hc => Option.some.inj hc ▸ hTied
        exact quiet_group hBody.dropEndWhile
    · exact JsonSelect.isQuiet_scripts n rest hSchema hn hRest j hj

theorem Filter.quiet_terms : ∀ (n : Naming) (f : Filter), Tame schema → n.IsQuiet →
    (∀ t ∈ f.texts, Tame t) → ∀ s ∈ Filter.terms n f, Quiet (written schema s)
  | n, ⟨none, conditions, groups⟩, hSchema, hn, h => by
    simp only [Filter.texts, List.forall_mem_append] at h
    rw [Filter.terms, List.forall_mem_append]
    exact ⟨Filter.quiet_conditionTerms n [] conditions hSchema hn h.1,
      Filter.quiet_groupTerms n groups hSchema hn h.2⟩
  | n, ⟨some wrapped, conditions, groups⟩, hSchema, hn, h => by
    simp only [Filter.texts, List.forall_mem_append] at h
    rw [Filter.terms, List.forall_mem_append, List.forall_mem_append]
    exact ⟨⟨Filter.quiet_terms n wrapped hSchema hn h.1,
      Filter.quiet_conditionTerms n [] conditions hSchema hn h.2.1⟩,
      Filter.quiet_groupTerms n groups hSchema hn h.2.2⟩

theorem Filter.quiet_conditionTerms : ∀ (n : Naming) (seen : List (String × Operator))
    (conditions : List Condition), Tame schema → n.IsQuiet →
    (∀ t ∈ Condition.texts conditions, Tame t) →
    ∀ s ∈ Filter.conditionTerms n seen conditions, Quiet (written schema s)
  | _, _, [], _, _, _ => fun _ hs => absurd hs List.not_mem_nil
  | n, seen, ⟨field, test⟩ :: rest, hSchema, hn, h => by
    simp only [Condition.texts, List.forall_mem_append, List.forall_mem_cons] at h
    rw [Filter.conditionTerms, List.forall_mem_cons]
    exact ⟨Filter.quiet_guarded (Test.quiet_script n field test hSchema hn h.1.1 h.1.2),
      Filter.quiet_conditionTerms n _ rest hSchema hn h.2⟩

theorem Filter.quiet_groupTerms : ∀ (n : Naming) (groups : List Filter), Tame schema →
    n.IsQuiet → (∀ t ∈ Filter.groupTexts groups, Tame t) →
    ∀ s ∈ Filter.groupTerms n groups, Quiet (written schema s)
  | _, [], _, _, _ => fun _ hs => absurd hs List.not_mem_nil
  | n, group :: rest, hSchema, hn, h => by
    simp only [Filter.groupTexts, List.forall_mem_append] at h
    rw [Filter.groupTerms, List.forall_mem_append]
    exact ⟨Filter.quiet_parenthesised (Filter.quiet_alternatives n group hSchema hn h.1),
      Filter.quiet_groupTerms n rest hSchema hn h.2⟩

theorem Filter.quiet_alternatives : ∀ (n : Naming) (f : Filter), Tame schema → n.IsQuiet →
    (∀ t ∈ f.texts, Tame t) → ∀ s ∈ Filter.alternatives n f, Quiet (written schema s)
  | n, ⟨none, conditions, groups⟩, hSchema, hn, h => by
    simp only [Filter.texts, List.forall_mem_append] at h
    rw [Filter.alternatives, List.forall_mem_append]
    exact ⟨Filter.quiet_conditionScripts n conditions hSchema hn h.1,
      Filter.quiet_groupTerms n groups hSchema hn h.2⟩
  | n, ⟨some wrapped, conditions, groups⟩, hSchema, hn, h => by
    simp only [Filter.texts, List.forall_mem_append] at h
    rw [Filter.alternatives, List.forall_mem_append, List.forall_mem_append]
    exact ⟨⟨Filter.quiet_alternatives n wrapped hSchema hn h.1,
      Filter.quiet_conditionScripts n conditions hSchema hn h.2.1⟩,
      Filter.quiet_groupTerms n groups hSchema hn h.2.2⟩

theorem Filter.quiet_conditionScripts : ∀ (n : Naming) (conditions : List Condition),
    Tame schema → n.IsQuiet → (∀ t ∈ Condition.texts conditions, Tame t) →
    ∀ s ∈ Filter.conditionScripts n conditions, Quiet (written schema s)
  | _, [], _, _, _ => fun _ hs => absurd hs List.not_mem_nil
  | n, ⟨field, test⟩ :: rest, hSchema, hn, h => by
    simp only [Condition.texts, List.forall_mem_append, List.forall_mem_cons] at h
    rw [Filter.conditionScripts, List.forall_mem_cons]
    exact ⟨Test.quiet_script n field test hSchema hn h.1.1 h.1.2,
      Filter.quiet_conditionScripts n rest hSchema hn h.2⟩

theorem Test.quiet_script : ∀ (n : Naming) (field : String) (test : Test), Tame schema →
    n.IsQuiet → Tame field → (∀ t ∈ test.texts, Tame t) →
    Quiet (written schema (Test.script n field test))
  | n, field, test, hSchema, hn, hField, h => by
    have hLeft : ∀ op : Operator, Quiet (n.qualify field ++ op.fragment).toList := fun op => by
      rw [String.toList_append]
      exact (Naming.quiet_qualify hn hField.quiet).append_closes op.closes_fragment
    cases test with
    | compare c v => exact (hLeft _).append_closes (by decide : Closes ['?'])
    | null => exact (hLeft _).append_closes closes_nil
    | notNull => exact (hLeft _).append_closes closes_nil
    | between low high => exact (hLeft _).append_closes (Filter.closes_rangeOperand low high)
    | notBetween low high => exact (hLeft _).append_closes (Filter.closes_rangeOperand low high)
    | inList values => exact (hLeft _).append_closes (Filter.closes_listOperand field _ values)
    | notIn values => exact (hLeft _).append_closes (Filter.closes_listOperand field _ values)
    | inSubquery query =>
      rw [Test.texts] at h
      have hQuery := Select.whole_script query none hSchema h (by simp)
      have hText : written schema (Test.script n field (.inSubquery query))
          = (n.qualify field ++ Operator.inSubquery.fragment).toList
            ++ ' ' :: '(' :: (dropEndWhile (· == '\n') (written schema (query.script none))
              ++ [')']) := by
        simp [Test.script]
      rw [hText]
      exact (hLeft _).append_closes (Filter.closes_enclosed hQuery.dropEndWhile)

end

end SqlStatement
