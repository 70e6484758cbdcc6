import SqlStatement.Proofs.BoundValues
import SqlStatement.Proofs.JoinGraph
import SqlStatement.Proofs.RuledClauses

/-!
# Statements that keep a rule

A statement whose identifiers are names of a rule is written in texts that keep
the rule, provided the literals in its ON clauses do.

* `Select.meets_script`, by induction over selects and filters, and the lemmas for
  the other statements.
* `Statement.meets_script`: all of them together.
-/

namespace SqlStatement

open Script Text TextRule

variable {R : TextRule}

/-! ### Plans -/

namespace Source

variable {s : Source} {force : Bool} {reserved mentioned : List String} {p : Plan}

theorem keeps_naming (h : ∀ t ∈ s.texts, R.Name t) (hp : s.plan force reserved mentioned = .ok p) :
    p.naming.Keeps R := by
  have hTable : R.Name s.table := h _ (by simp [texts])
  have hRequested : ∀ t ∈ s.requested, R.Name t := fun t ht =>
    h t (by simp [texts, Option.mem_def.mp ht])
  exact Naming.keeps_assign hTable hRequested (assign_of_plan hp)

/-- Resolution only selects among the declared joins. -/
theorem mem_of_resolve {joins resolved : List Join} {base : String} {referenced : List String}
    (h : Join.resolve joins base referenced = .ok resolved) {j : Join} (hj : j ∈ resolved) :
    j ∈ joins := by
  rw [Join.resolve] at h
  split at h
  · cases h
  · rw [← Except.ok.inj h, List.mem_mergeSort] at hj
    exact Join.mem_of_mem_survivors hj

theorem mem_of_plan (hp : s.plan force reserved mentioned = .ok p) {j : Join} (hj : j ∈ p.joins) :
    j ∈ s.joins := by
  rw [plan] at hp
  split at hp
  · cases hp
  · split at hp
    · split at hp
      · cases hp
      · next hResolve =>
        rw [← Except.ok.inj hp] at hj
        exact mem_of_resolve hResolve hj
    · rw [← Except.ok.inj hp] at hj
      exact hj

theorem meets_joins (h : ∀ t ∈ s.texts, R.Name t) (hValues : ∀ v ∈ s.values, R.Good v.literal)
    (hp : s.plan force reserved mentioned = .ok p) : Meets R (Join.scripts p.naming p.joins) := by
  refine Join.meets_scripts (keeps_naming h hp) (fun j hj t ht => ?_) fun j hj v hv => ?_
  · exact h t (List.mem_append_right _ (List.mem_flatMap.mpr ⟨j, mem_of_plan hp hj, ht⟩))
  · exact hValues v (List.mem_flatMap.mpr ⟨j, mem_of_plan hp hj, hv⟩)

end Source

/-! ### Selects and filters -/

mutual

theorem Select.meets_script : ∀ (s : Select) (correlation : Option Correlation),
    (∀ t ∈ s.texts, R.Name t) → (∀ v ∈ s.onValues, R.Good v.literal) →
    (∀ c ∈ correlation, c.Keeps R) → Meets R (s.script correlation)
  | ⟨source, selection, filter, json⟩, correlation, h, hv, hc => by
    simp only [Select.texts, List.forall_mem_append] at h
    simp only [Select.onValues, List.forall_mem_append] at hv
    obtain ⟨⟨⟨hSource, hSelection⟩, hFilter⟩, hJson⟩ := h
    obtain ⟨⟨hJoined, hTested⟩, hShown⟩ := hv
    simp only [Selection.texts, List.forall_mem_append, List.forall_mem_map,
      List.forall_mem_flatMap] at hSelection
    obtain ⟨⟨⟨hFields, hTables⟩, hGroup⟩, hOrder⟩ := hSelection
    rw [Select.script]
    split
    · exact ⟨trivial, trivial⟩
    · next p hPlan =>
      have hn : p.naming.Keeps R := Source.keeps_naming hSource hPlan
      have hNested := JsonSelect.meets_scripts p.naming json hn hJson hShown
      have hTable : R.Name source.table := hSource _ (by simp [Source.texts])
      simp only [meets_append]
      refine ⟨⟨⟨⟨⟨trivial, ?_⟩, ?_⟩, ?_⟩, ?_⟩, ?_⟩
      · split
        · exact Selection.meets_objectScript hn hFields hNested
        · exact Selection.meets_listScript hn hFields hNested
      · exact Selection.meets_fromScript hn hTable hTables
      · exact Source.meets_joins hSource hJoined hPlan
      · exact meets_whereScript hn hc _ (Filter.meets_terms p.naming filter hn hFilter hTested)
      · exact Selection.meets_tailScript hn hGroup hOrder

theorem JsonSelect.meets_scripts : ∀ (n : Naming) (json : List JsonSelect), n.Keeps R →
    (∀ t ∈ JsonSelect.texts json, R.Name t) →
    (∀ v ∈ JsonSelect.onValues json, R.Good v.literal) →
    ∀ j ∈ JsonSelect.scripts n json, j.Meets R
  | _, [], _, _, _ => fun _ hj => absurd hj List.not_mem_nil
  | n, ⟨name, query, inner, outer⟩ :: rest, hn, h, hv => by
    simp only [JsonSelect.texts, List.forall_mem_append, List.forall_mem_cons] at h
    simp only [JsonSelect.onValues, List.forall_mem_append] at hv
    obtain ⟨⟨⟨hName, hInner, hOuter, -⟩, hQuery⟩, hRest⟩ := h
    intro j hj
    rw [JsonSelect.scripts] at hj
    rcases List.mem_cons.mp hj with rfl | hj
    · rw [JsonSelect.script]
      refine ⟨hName, ?_⟩
      split
      · exact ⟨trivial, trivial⟩
      · have hTied : Correlation.Keeps R ⟨n.aliases, inner, n.qualify outer⟩ :=
          ⟨hInner, Naming.name_qualify hn hOuter⟩
        have hBody := Select.meets_script query (some ⟨n.aliases, inner, n.qualify outer⟩) hQuery
          hv.1 fun c hc => Option.some.inj hc ▸ hTied
        exact ⟨good_of_plain (by decide), hBody, good_of_plain (by decide), trivial⟩
    · exact JsonSelect.meets_scripts n rest hn hRest hv.2 j hj

theorem Filter.meets_terms : ∀ (n : Naming) (f : Filter), n.Keeps R →
    (∀ t ∈ f.texts, R.Name t) → (∀ v ∈ f.onValues, R.Good v.literal) →
    ∀ s ∈ Filter.terms n f, Meets R s
  | n, ⟨none, conditions, groups⟩, hn, h, hv => by
    simp only [Filter.texts, List.forall_mem_append] at h
    simp only [Filter.onValues, List.forall_mem_append] at hv
    rw [Filter.terms, List.forall_mem_append]
    exact ⟨Filter.meets_conditionTerms n [] conditions hn h.1 hv.1,
      Filter.meets_groupTerms n groups hn h.2 hv.2⟩
  | n, ⟨some wrapped, conditions, groups⟩, hn, h, hv => by
    simp only [Filter.texts, List.forall_mem_append] at h
    simp only [Filter.onValues, List.forall_mem_append] at hv
    rw [Filter.terms, List.forall_mem_append, List.forall_mem_append]
    exact ⟨⟨Filter.meets_terms n wrapped hn h.1 hv.1,
      Filter.meets_conditionTerms n [] conditions hn h.2.1 hv.2.1⟩,
      Filter.meets_groupTerms n groups hn h.2.2 hv.2.2⟩

theorem Filter.meets_conditionTerms : ∀ (n : Naming) (seen : List (String × Operator))
    (conditions : List Condition), n.Keeps R → (∀ t ∈ Condition.texts conditions, R.Name t) →
    (∀ v ∈ Condition.onValues conditions, R.Good v.literal) →
    ∀ s ∈ Filter.conditionTerms n seen conditions, Meets R s
  | _, _, [], _, _, _ => fun _ hs => absurd hs List.not_mem_nil
  | n, seen, ⟨field, test⟩ :: rest, hn, h, hv => by
    simp only [Condition.texts, List.forall_mem_append, List.forall_mem_cons] at h
    simp only [Condition.onValues, List.forall_mem_append] at hv
    rw [Filter.conditionTerms, List.forall_mem_cons]
    exact ⟨Filter.meets_guarded (Test.meets_script n field test hn h.1.1 h.1.2 hv.1),
      Filter.meets_conditionTerms n _ rest hn h.2 hv.2⟩

theorem Filter.meets_groupTerms : ∀ (n : Naming) (groups : List Filter), n.Keeps R →
    (∀ t ∈ Filter.groupTexts groups, R.Name t) →
    (∀ v ∈ Filter.groupOnValues groups, R.Good v.literal) →
    ∀ s ∈ Filter.groupTerms n groups, Meets R s
  | _, [], _, _, _ => fun _ hs => absurd hs List.not_mem_nil
  | n, group :: rest, hn, h, hv => by
    simp only [Filter.groupTexts, List.forall_mem_append] at h
    simp only [Filter.groupOnValues, List.forall_mem_append] at hv
    rw [Filter.groupTerms, List.forall_mem_append]
    exact ⟨Filter.meets_parenthesised (Filter.meets_alternatives n group hn h.1 hv.1),
      Filter.meets_groupTerms n rest hn h.2 hv.2⟩

theorem Filter.meets_alternatives : ∀ (n : Naming) (f : Filter), n.Keeps R →
    (∀ t ∈ f.texts, R.Name t) → (∀ v ∈ f.onValues, R.Good v.literal) →
    ∀ s ∈ Filter.alternatives n f, Meets R s
  | n, ⟨none, conditions, groups⟩, hn, h, hv => by
    simp only [Filter.texts, List.forall_mem_append] at h
    simp only [Filter.onValues, List.forall_mem_append] at hv
    rw [Filter.alternatives, List.forall_mem_append]
    exact ⟨Filter.meets_conditionScripts n conditions hn h.1 hv.1,
      Filter.meets_groupTerms n groups hn h.2 hv.2⟩
  | n, ⟨some wrapped, conditions, groups⟩, hn, h, hv => by
    simp only [Filter.texts, List.forall_mem_append] at h
    simp only [Filter.onValues, List.forall_mem_append] at hv
    rw [Filter.alternatives, List.forall_mem_append, List.forall_mem_append]
    exact ⟨⟨Filter.meets_alternatives n wrapped hn h.1 hv.1,
      Filter.meets_conditionScripts n conditions hn h.2.1 hv.2.1⟩,
      Filter.meets_groupTerms n groups hn h.2.2 hv.2.2⟩

theorem Filter.meets_conditionScripts : ∀ (n : Naming) (conditions : List Condition), n.Keeps R →
    (∀ t ∈ Condition.texts conditions, R.Name t) →
    (∀ v ∈ Condition.onValues conditions, R.Good v.literal) →
    ∀ s ∈ Filter.conditionScripts n conditions, Meets R s
  | _, [], _, _, _ => fun _ hs => absurd hs List.not_mem_nil
  | n, ⟨field, test⟩ :: rest, hn, h, hv => by
    simp only [Condition.texts, List.forall_mem_append, List.forall_mem_cons] at h
    simp only [Condition.onValues, List.forall_mem_append] at hv
    rw [Filter.conditionScripts, List.forall_mem_cons]
    exact ⟨Test.meets_script n field test hn h.1.1 h.1.2 hv.1,
      Filter.meets_conditionScripts n rest hn h.2 hv.2⟩

theorem Test.meets_script : ∀ (n : Naming) (field : String) (test : Test), n.Keeps R →
    R.Name field → (∀ t ∈ test.texts, R.Name t) → (∀ v ∈ test.onValues, R.Good v.literal) →
    Meets R (Test.script n field test)
  | n, field, test, hn, hField, h, hv => by
    have hLeft : ∀ op : Operator, R.Name (n.qualify field ++ op.fragment) := fun op =>
      (Naming.name_qualify hn hField).append (name_of_plain (Operator.isPlain_fragment op))
    cases test with
    | compare c v => exact ⟨(hLeft _).good, trivial, trivial⟩
    | null => exact ⟨(hLeft _).good, trivial⟩
    | notNull => exact ⟨(hLeft _).good, trivial⟩
    | between low high => exact ⟨(hLeft _).good, Filter.meets_rangeOperand low high⟩
    | notBetween low high => exact ⟨(hLeft _).good, Filter.meets_rangeOperand low high⟩
    | inList values => exact ⟨(hLeft _).good, Filter.meets_listOperand _ _ values⟩
    | notIn values => exact ⟨(hLeft _).good, Filter.meets_listOperand _ _ values⟩
    | inSubquery query =>
      rw [Test.texts] at h
      rw [Test.onValues] at hv
      have hQuery := Select.meets_script query none h hv (by simp)
      exact ⟨((hLeft .inSubquery).append (name_of_plain (by decide))).good, hQuery,
        good_of_plain (by decide), trivial⟩

end

/-! ### Writes -/

section Writes

variable {n : Naming}

theorem Assignment.meets_set (hn : n.Keeps R) {a : Assignment} (h : R.Name a.field) :
    Meets R (a.set n) :=
  ⟨((Naming.name_qualify hn h).append (name_of_plain (by decide))).good, trivial, trivial⟩

theorem Assignment.meets_update (hn : n.Keeps R) {a : Assignment} (h : R.Name a.field) :
    Meets R (a.update n) := by
  have hField := Naming.name_qualify hn h
  rw [update]
  split
  · exact meets_set hn h
  · exact ⟨(((hField.append (name_of_plain (by decide))).append hField).append
      (name_of_plain (by decide))).good, trivial, trivial⟩

/-- Sorting keeps the fields. -/
theorem Assignments.name_sorted {l entries : Assignments} (h : l.sorted = .ok entries)
    (hl : ∀ f ∈ l.fields, R.Name f) : ∀ a ∈ entries, R.Name a.field := by
  intro a ha
  rw [sorted_eq_ok h, byField, List.mem_mergeSort] at ha
  exact hl a.field (List.mem_map.mpr ⟨a, ha, rfl⟩)

theorem Insert.meets_script (i : Insert) (h : ∀ t ∈ i.table :: i.fields.fields, R.Name t) :
    Meets R i.script := by
  rw [List.forall_mem_cons] at h
  rw [script]
  split
  · exact ⟨trivial, trivial⟩
  · exact ⟨trivial, trivial⟩
  · next entries _ hSorted =>
    have hEntries := Assignments.name_sorted hSorted h.2
    split
    · exact ⟨trivial, trivial⟩
    · rw [meets_append, meets_append, meets_append]
      refine ⟨⟨⟨?_, meets_joined (good_of_plain (by decide)) fun s hs => ?_⟩, ?_⟩, ?_⟩
      · exact ⟨good_of_plain (by decide), h.1, good_of_plain (by decide), trivial⟩
      · obtain ⟨a, ha, rfl⟩ := List.mem_map.mp hs
        exact Assignment.meets_set Naming.keeps_bare (hEntries a ha)
      · exact ⟨good_of_plain (by decide), trivial⟩
      · cases i.upsert with
        | none => trivial
        | some u =>
          rw [upsertScript, List.cons_append, Meets, meets_append]
          refine ⟨good_of_plain (by decide), meets_joined (good_of_plain (by decide))
            fun s hs => ?_, good_of_plain (by decide), trivial⟩
          obtain ⟨a, ha, rfl⟩ := List.mem_map.mp hs
          exact Assignment.meets_update Naming.keeps_bare (hEntries a (List.mem_filter.mp ha).1)

theorem BulkInsert.meets_script (b : BulkInsert) (h : ∀ t ∈ b.table :: b.columns, R.Name t) :
    Meets R b.script := by
  rw [List.forall_mem_cons] at h
  have hColumns : R.Good (" (" ++ ", ".intercalate b.columns ++ ")\nVALUES ") :=
    R.good_append (R.good_append (good_of_plain (by decide))
      (good_intercalate (good_of_plain (by decide)) fun c hc => (h.2 c hc).good))
      (good_of_plain (by decide))
  rw [script]
  split
  · exact ⟨trivial, trivial⟩
  · exact ⟨trivial, trivial⟩
  · split
    · exact ⟨trivial, trivial⟩
    · rw [meets_append, meets_append, meets_append]
      refine ⟨⟨⟨?_, meets_joined (good_of_plain (by decide)) fun s hs => ?_⟩, ?_⟩, ?_⟩
      · exact ⟨good_of_plain (by decide), h.1, hColumns, trivial⟩
      · obtain ⟨row, _, rfl⟩ := List.mem_map.mp hs
        rw [rowScript, List.cons_append, Meets, meets_append]
        exact ⟨good_of_plain (by decide), meets_placeholders row, good_of_plain (by decide),
          trivial⟩
      · exact ⟨good_of_plain (by decide), trivial⟩
      · cases b.upsert with
        | none => trivial
        | some u =>
          have hFields : R.Good (",".intercalate ((b.columns.filter u.includes).map assignment)) := by
            refine good_intercalate (good_of_plain (by decide)) fun s hs => ?_
            obtain ⟨c, hc, rfl⟩ := List.mem_map.mp hs
            have hc := h.2 c (List.mem_filter.mp hc).1
            exact (((hc.append (name_of_plain (by decide))).append hc).append
              (name_of_plain (by decide))).good
          exact ⟨R.good_append (R.good_append (good_of_plain (by decide)) hFields)
            (good_of_plain (by decide)), trivial⟩

theorem Update.meets_setScripts (hn : n.Keeps R) {entries : Assignments}
    (hEntries : ∀ a ∈ entries, R.Name a.field) {removal : Option JsonRemoval}
    (hRemoval : ∀ r ∈ removal, R.Name r.field ∧ R.Name r.path) :
    ∀ s ∈ setScripts n entries removal, Meets R s := by
  intro s hs
  rcases List.mem_append.mp hs with hs | hs
  · obtain ⟨a, ha, rfl⟩ := List.mem_map.mp hs
    exact Assignment.meets_update hn (hEntries a ha)
  · rw [Option.mem_toList, Option.map_eq_some_iff] at hs
    obtain ⟨r, hr, rfl⟩ := hs
    obtain ⟨hField, hPath⟩ := hRemoval r hr
    have hField := Naming.name_qualify hn hField
    have hHead := ((hField.append (name_of_plain (by decide : IsPlain "=JSON_REMOVE("))).append
      hField).good
    have hQuoted : R.Good (", '" ++ r.path ++ "')") :=
      good_between (a := ", ") (b := ")") rfl rfl (by decide) (by decide) hPath
    refine ⟨show R.Good _ from ?_, trivial⟩
    simpa only [String.append_assoc] using R.good_append hHead hQuoted

theorem Update.meets_script (u : Update) (h : ∀ t ∈ (Statement.update u).texts, R.Name t)
    (hv : ∀ v ∈ (Statement.update u).onValues, R.Good v.literal) : Meets R u.script := by
  simp only [Statement.texts, List.forall_mem_append] at h
  simp only [Statement.onValues, List.forall_mem_append] at hv
  obtain ⟨⟨⟨hSource, hFields⟩, hRemoval⟩, hFilter⟩ := h
  have hRemoval : ∀ r ∈ u.removal, R.Name r.field ∧ R.Name r.path := fun r hr =>
    ⟨hRemoval _ (by simp [Option.mem_def.mp hr]), hRemoval _ (by simp [Option.mem_def.mp hr])⟩
  have hTable : R.Name u.source.table := hSource _ (by simp [Source.texts])
  rw [script]
  split
  · exact ⟨trivial, trivial⟩
  · next entries hSorted =>
    split
    · exact ⟨trivial, trivial⟩
    · split
      · exact ⟨trivial, trivial⟩
      · next p hPlan =>
        have hn : p.naming.Keeps R := Source.keeps_naming hSource hPlan
        have hSet : ∀ s ∈ setScripts p.naming entries u.removal, Meets R s :=
          meets_setScripts hn (Assignments.name_sorted hSorted hFields) hRemoval
        simp only [meets_append]
        refine ⟨⟨⟨⟨⟨trivial, good_of_plain (by decide), hTable, ?_, trivial⟩, ?_⟩, ?_⟩, ?_⟩, ?_⟩
        · exact ((Naming.name_suffix hn).append (name_of_plain (by decide))).good
        · exact Source.meets_joins hSource hv.1 hPlan
        · exact ⟨good_of_plain (by decide), meets_joined (good_of_plain (by decide)) hSet⟩
        · exact ⟨good_of_plain (by decide), trivial⟩
        · exact meets_whereScript hn (by simp) _ (Filter.meets_terms _ _ hn hFilter hv.2)

theorem Delete.meets_script (d : Delete) (h : ∀ t ∈ (Statement.delete d).texts, R.Name t)
    (hv : ∀ v ∈ (Statement.delete d).onValues, R.Good v.literal) : Meets R d.script := by
  simp only [Statement.texts, List.forall_mem_append] at h
  simp only [Statement.onValues, List.forall_mem_append] at hv
  obtain ⟨hSource, hFilter⟩ := h
  have hTable : R.Name d.source.table := hSource _ (by simp [Source.texts])
  rw [script]
  split
  · exact ⟨trivial, trivial⟩
  · next p hPlan =>
    have hn : p.naming.Keeps R := Source.keeps_naming hSource hPlan
    have hVictim : R.Name (victim p.naming) := by
      cases hp : p.naming with
      | bare => exact name_of_plain (by decide)
      | aliased base tables =>
        rw [hp] at hn
        exact hn.append (name_of_plain (by decide))
    rw [meets_append, meets_append]
    refine ⟨⟨⟨trivial, ?_, hTable, ?_, trivial⟩, ?_⟩, ?_⟩
    · exact (((name_of_plain (by decide)).append hVictim).append (name_of_plain (by decide))).good
    · exact ((Naming.name_suffix hn).append (name_of_plain (by decide))).good
    · exact Source.meets_joins hSource hv.1 hPlan
    · exact meets_whereScript hn (by simp) _ (Filter.meets_terms _ _ hn hFilter hv.2)

end Writes

/-! ### Unions, and all statements -/

theorem Union.meets_script (u : Union) (h : ∀ t ∈ (Statement.union u).texts, R.Name t)
    (hv : ∀ v ∈ (Statement.union u).onValues, R.Good v.literal) : Meets R u.script := by
  simp only [Statement.texts, List.forall_mem_append, List.forall_mem_flatMap] at h
  simp only [Statement.onValues, List.forall_mem_append, List.forall_mem_flatMap] at hv
  obtain ⟨hOuter, hMembers⟩ := h
  obtain ⟨hOuterValues, hMemberValues⟩ := hv
  obtain ⟨⟨source, selection, filter, json⟩, members, keepDuplicates⟩ := u
  simp only [Select.texts, Selection.texts, List.forall_mem_append, List.forall_mem_map,
    List.forall_mem_flatMap] at hOuter
  simp only [Select.onValues, List.forall_mem_append] at hOuterValues
  obtain ⟨⟨⟨hSource, ⟨⟨hFields, -⟩, hGroup⟩, hOrder⟩, hFilter⟩, hJson⟩ := hOuter
  obtain ⟨⟨hJoined, hTested⟩, hShown⟩ := hOuterValues
  rw [script]
  split
  · exact ⟨trivial, trivial⟩
  · split
    · exact ⟨trivial, trivial⟩
    · next p hPlan =>
      have hn : p.naming.Keeps R := Source.keeps_naming hSource hPlan
      have hName : R.Name (name p.naming) := by
        cases hp : p.naming with
        | bare => exact name_of_plain (by decide)
        | aliased base tables => rw [hp] at hn; exact hn
      have hSeparator : R.Good (if keepDuplicates then "UNION ALL\n" else "UNION\n") := by
        split <;> exact good_of_plain (by decide)
      simp only [meets_append]
      refine ⟨⟨⟨⟨⟨⟨trivial, ?_⟩, good_of_plain (by decide), ?_⟩, ?_⟩, ?_⟩, ?_⟩, ?_⟩
      · exact Selection.meets_listScript hn hFields
          (JsonSelect.meets_scripts p.naming json hn hJson hShown)
      · refine meets_joined hSeparator fun s hs => ?_
        obtain ⟨query, hQuery, rfl⟩ := List.mem_map.mp hs
        exact ⟨Select.meets_script query none (hMembers query hQuery)
          (hMemberValues query hQuery) (by simp), good_of_plain (by decide), trivial⟩
      · exact ⟨(((name_of_plain (by decide)).append hName).append
          (name_of_plain (by decide))).good, trivial⟩
      · exact Source.meets_joins hSource hJoined hPlan
      · exact meets_whereScript hn (by simp) _ (Filter.meets_terms _ _ hn hFilter hTested)
      · exact Selection.meets_tailScript hn hGroup hOrder

theorem Statement.meets_script (s : Statement) (h : ∀ t ∈ s.texts, R.Name t)
    (hv : ∀ v ∈ s.onValues, R.Good v.literal) : Meets R s.script := by
  cases s with
  | select s => exact s.meets_script none h hv (by simp)
  | insert i => exact i.meets_script h
  | bulkInsert b => exact b.meets_script h
  | update u => exact u.meets_script h hv
  | delete d => exact d.meets_script h hv
  | union u => exact u.meets_script h hv

end SqlStatement
