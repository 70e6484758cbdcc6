import SqlStatement.Proofs.AliasFreshness
import SqlStatement.Proofs.Frame
import SqlStatement.Proofs.JoinOrder

/-!
# One table for each alias

The base table gets an alias that nothing else has, and the joins may not take
one that is taken.  So within one statement no join line and no base table have
the alias of another or of a JSON table, nor does a JSON sub-select reuse one of
the selects it is tied to.  JSON tables are not compared with each other, nor with
the selects around them.

* `Plan.introduced`: the aliases of the base table and of the join lines.
* `Source.introduced_of_plan`: they differ from each other and from all that are
  reserved.
* `Level.Within`: the selects anywhere inside a statement.
* `Statement.distinct_of_compile`: in a statement that compiles, for the statement
  itself and for all selects within.
-/

namespace SqlStatement

open Script

/-- The aliases of the base table and of the joins that are written. -/
def Plan.introduced (p : Plan) : List String := p.naming.base :: p.joins.map Join.name

namespace Source

variable {s : Source} {force : Bool} {reserved mentioned : List String} {p : Plan}

/-- Pruned or not, a plan writes declared joins, none twice. -/
theorem joins_of_plan (h : s.plan force reserved mentioned = .ok p) :
    p.joins ⊆ s.joins ∧ (p.joins.map Join.name).Nodup := by
  have hAssign := assign_of_plan h
  obtain ⟨⟨hNodup, -⟩, -, -⟩ := Naming.assign_eq_ok hAssign
  cases hPrune : s.prune with
  | true =>
    have hPruned : Join.Pruned s.joins (Mentions (· ∈ mentioned)) p.joins :=
      pruned_of_plan_eq_ok (fun _ => Iff.rfl) hPrune h
    refine ⟨fun j hj => ?_, hPruned.names_nodup⟩
    exact ((hPruned.mem_iff j).mp hj).mem
  | false =>
    have hSame : s.withJoins s.joins false = s := by rw [withJoins, ← hPrune]
    rw [← hSame, plan_withJoins_false hAssign] at h
    have hJoins : s.joins = p.joins := congrArg Plan.joins (Except.ok.inj h)
    rw [hJoins] at hNodup ⊢
    exact ⟨List.Subset.refl _, hNodup⟩

theorem introduced_of_plan (h : s.plan force reserved mentioned = .ok p)
    (hForce : force = true ∨ reserved = []) :
    p.introduced.Nodup ∧ ∀ a ∈ p.introduced, a ∉ reserved := by
  obtain ⟨hSubset, hNodup⟩ := joins_of_plan h
  obtain ⟨hClear, hBase, hAliased⟩ := Naming.assign_eq_ok (assign_of_plan h)
  refine ⟨?_, ?_⟩
  · refine List.nodup_cons.mpr ⟨fun hMem => ?_, hNodup⟩
    obtain ⟨j, hj, hName⟩ := List.mem_map.mp hMem
    exact hBase (List.mem_map.mpr ⟨j, hSubset hj, hName⟩)
  · intro a ha
    rcases hForce with hForce | rfl
    · rcases List.mem_cons.mp ha with rfl | ha
      · obtain ⟨-, hFree⟩ := hAliased (.inl hForce)
        obtain ⟨-, hNew⟩ := Naming.not_mem_of_free? hFree
        exact fun hMem => hNew (List.mem_append_left _ hMem)
      · obtain ⟨j, hj, rfl⟩ := List.mem_map.mp ha
        exact hClear.2 j (hSubset hj)
    · exact List.not_mem_nil

end Source

/-- A select that reserves aliases has an alias for its own table. -/
theorem Select.force_or_reserved (s : Select) (c : Option Correlation) :
    (s.frame c).force = true ∨ (s.frame c).reserved = [] := by
  cases c with
  | some c => exact .inl rfl
  | none =>
    by_cases hTables : s.selection.jsonTables = []
    · right
      simp [frame, hTables]
    · left
      simp [frame, hTables]

theorem Statement.force_or_reserved {s : Statement} {source : Source} {f : Frame}
    (h : s.frame? = some (source, f)) : f.force = true ∨ f.reserved = [] := by
  cases s with
  | select s => cases h; exact s.force_or_reserved none
  | update u => cases h; exact .inr rfl
  | delete d => cases h; exact .inr rfl
  | union u => cases h; exact u.outer.force_or_reserved none
  | insert i => cases h
  | bulkInsert b => cases h

/-! ### The selects within a statement -/

theorem Filter.failure?_query {n : Naming} {f : Filter} {query : Select} (hQuery : f.HasQuery query)
    (hNone : (f.terms n).findSome? failure? = none) : failure? (query.script none) = none := by
  obtain ⟨term, hTerm, hEncloses⟩ := exists_mem_terms hQuery hNone
  exact hEncloses.failure?_eq_none (List.findSome?_eq_none_iff.mp hNone term hTerm)

/-- A select has a plan, and none of the selects in it has an error. -/
def Select.Sound (c : Option Correlation) (s : Select) : Prop :=
  ∃ p, s.plan c = .ok p ∧ (JsonSelect.scripts p.naming s.json).findSome? (failure? ·.body) = none ∧
    (s.filter.terms p.naming).findSome? failure? = none

theorem Select.sound_of_failure? {s : Select} {c : Option Correlation}
    (h : failure? (s.script c) = none) : s.Sound c := by
  obtain ⟨p, hPlan⟩ := exists_plan h
  rw [failure?_script, hPlan] at h
  simp only [Option.or_eq_none_iff] at h
  exact ⟨p, hPlan, h.1, h.2.2.2⟩

theorem Union.sound_of_failure? {u : Union} (h : failure? u.script = none) :
    u.outer.Sound none ∧ ∀ query ∈ u.members, query.Sound none := by
  rw [failure?_script] at h
  split at h
  · cases h
  · cases hPlan : u.outer.plan none with
    | error e =>
      rw [hPlan] at h
      cases h
    | ok p =>
      rw [hPlan] at h
      simp only [Option.or_eq_none_iff] at h
      obtain ⟨hJson, hMembers, -, hFilter⟩ := h
      refine ⟨⟨p, hPlan, hJson, hFilter⟩, fun query hQuery => ?_⟩
      exact Select.sound_of_failure? (List.findSome?_eq_none_iff.mp hMembers query hQuery)

theorem Update.exists_naming_of_failure? {u : Update} (h : failure? u.script = none) :
    ∃ n, (u.filter.terms n).findSome? failure? = none := by
  rw [script_eq_frame] at h
  obtain ⟨-, p, -, -, -, hBack⟩ := Frame.exists_plan h
  refine ⟨p.naming, ?_⟩
  simpa [frame, failure?_joined, failure?_setScripts, failure?_whereScript] using hBack

theorem Delete.exists_naming_of_failure? {d : Delete} (h : failure? d.script = none) :
    ∃ n, (d.filter.terms n).findSome? failure? = none := by
  rw [script_eq_frame] at h
  obtain ⟨-, p, -, -, -, hBack⟩ := Frame.exists_plan h
  refine ⟨p.naming, ?_⟩
  simpa [frame, failure?_whereScript] using hBack

namespace Level

theorem sound_of_isIn {s : Select} {l : Level} (h : s.Sound none) (hIn : IsIn s l) :
    l.select.Sound l.correlation := by
  induction hIn with
  | outermost => exact h
  | subquery _ hQuery ih =>
    obtain ⟨p, -, -, hFilter⟩ := ih
    exact Select.sound_of_failure? (Filter.failure?_query hQuery hFilter)
  | @json around sub _ hSub ih =>
    obtain ⟨p, hPlan, hJson, -⟩ := ih
    have hNaming : p.naming = around.naming := (naming_of_plan hPlan).symm
    have hBody := List.findSome?_eq_none_iff.mp hJson _ (JsonSelect.mem_scripts hSub)
    have hNone := (JsonSelect.encloses_script hBody).failure?_eq_none hBody
    rw [hNaming] at hNone
    exact Select.sound_of_failure? hNone

/-- The levels of all selects in a statement, those of the outer select of a union without the
union itself. -/
inductive Within : Statement → Level → Prop
  | select {s : Select} {l : Level} : IsIn s l → Within (.select s) l
  | update {u : Update} {query : Select} {l : Level} : u.filter.HasQuery query → IsIn query l →
      Within (.update u) l
  | delete {d : Delete} {query : Select} {l : Level} : d.filter.HasQuery query → IsIn query l →
      Within (.delete d) l
  | member {u : Union} {query : Select} {l : Level} : query ∈ u.members → IsIn query l →
      Within (.union u) l
  | outer {u : Union} {l : Level} : IsIn u.outer l → l ≠ outermost u.outer → Within (.union u) l

/-- Each of them is a level of a select that has a plan. -/
theorem Within.exists_sound {s : Statement} {l : Level} (h : Within s l)
    (hNone : failure? s.script = none) : ∃ root : Select, root.Sound none ∧ IsIn root l := by
  cases h with
  | @select s _ hIn => exact ⟨s, Select.sound_of_failure? hNone, hIn⟩
  | @update u query _ hQuery hIn =>
    obtain ⟨n, hFilter⟩ := Update.exists_naming_of_failure? hNone
    exact ⟨query, Select.sound_of_failure? (Filter.failure?_query hQuery hFilter), hIn⟩
  | @delete d query _ hQuery hIn =>
    obtain ⟨n, hFilter⟩ := Delete.exists_naming_of_failure? hNone
    exact ⟨query, Select.sound_of_failure? (Filter.failure?_query hQuery hFilter), hIn⟩
  | @member u query _ hQuery hIn =>
    exact ⟨query, (Union.sound_of_failure? hNone).2 query hQuery, hIn⟩
  | @outer u _ hIn _ => exact ⟨u.outer, (Union.sound_of_failure? hNone).1, hIn⟩

/-- No alias of the base table or of a join line stands for another table as well. -/
structure Distinct (l : Level) (p : Plan) : Prop where
  nodup : p.introduced.Nodup
  not_mem_jsonTables : ∀ a ∈ p.introduced, a ∉ l.select.selection.jsonTables.map (·.name)
  not_mem_tied : ∀ e ∈ l.tied, ∀ a ∈ p.introduced, a ∉ e.taken
  /-- These are the lines that introduce them. -/
  lines_infix : l.select.selection.fromScript p.naming l.select.source.table
    ++ Join.scripts p.naming p.joins <:+: l.script

theorem distinct_of_isIn {root : Select} {l : Level} (hSound : root.Sound none)
    (hIn : IsIn root l) : ∃ p, l.select.plan l.correlation = .ok p ∧ Distinct l p := by
  have hPlans : ∀ l, IsIn root l →
      ∃ p, l.select.plan l.correlation = .ok p ∧ p.naming = l.naming := by
    intro l hIn
    obtain ⟨p, hPlan, -, -⟩ := sound_of_isIn hSound hIn
    refine ⟨p, hPlan, ?_⟩
    rw [naming_eq, namingOf, hPlan]
  obtain ⟨p, hPlan, -⟩ := hPlans l hIn
  obtain ⟨hNodup, hReserved⟩ := Source.introduced_of_plan hPlan
    (l.select.force_or_reserved l.correlation)
  have hReserved : ∀ a ∈ p.introduced, a ∉ l.reserved := hReserved
  refine ⟨p, hPlan, hNodup, ?_, ?_, ?_⟩
  · intro a ha hMem
    exact hReserved a ha (List.mem_append_left _ hMem)
  · intro e he a ha hMem
    cases hIn with
    | outermost => exact absurd he List.not_mem_nil
    | subquery _ _ => exact absurd he List.not_mem_nil
    | @json around sub hAround hSub =>
      have hKnown := taken_subset_aliases_of_plans hPlans hAround (List.ne_nil_of_mem hSub) e he
      exact hReserved a ha (aliases_subset_reserved around sub (hKnown hMem))
  · rw [script, Select.script_eq hPlan]
    refine List.IsInfix.trans ?_ (List.prefix_append _ _).isInfix
    refine List.IsInfix.trans ?_ (List.prefix_append _ _).isInfix
    rw [List.append_assoc _ _ (Join.scripts p.naming p.joins)]
    exact (List.suffix_append _ _).isInfix

end Level

/-- In a statement that compiles each alias of a base table or of a join line is the alias of
nothing else: neither on the lines of the same statement nor, in a JSON sub-select, on those of the
selects it is tied to. -/
theorem Statement.distinct_of_compile {schema : String} {s : Statement} {c : Compiled}
    (h : s.compile schema = .ok c) :
    (∀ source f, s.frame? = some (source, f) → ∃ p, f.plan source = .ok p ∧
      s.script = f.front p.naming ++ Join.scripts p.naming p.joins ++ f.back p.naming ∧
      p.introduced.Nodup ∧ ∀ a ∈ p.introduced, a ∉ s.jsonTables.map (·.name)) ∧
    ∀ l, Level.Within s l → ∃ p, l.select.plan l.correlation = .ok p ∧ Level.Distinct l p := by
  obtain ⟨hNone, -⟩ := compile_eq_ok_iff.mp h
  refine ⟨?_, ?_⟩
  · intro source f hFrame
    rw [script_of_frame? hFrame] at hNone
    obtain ⟨hRefusal, p, hPlan, -⟩ := Frame.exists_plan hNone
    obtain ⟨hNodup, hReserved⟩ := Source.introduced_of_plan hPlan (force_or_reserved hFrame)
    refine ⟨p, hPlan, ?_, hNodup, ?_⟩
    · rw [script_of_frame? hFrame, Frame.script_of_plan hRefusal hPlan]
    · rwa [← reserved_of_frame? hFrame]
  · intro l hWithin
    obtain ⟨root, hSound, hIn⟩ := hWithin.exists_sound hNone
    exact Level.distinct_of_isIn hSound hIn

/-- The users that a document is about. -/
def JsonSelect.subjects : JsonSelect :=
  ⟨"subjects", Select.ofTable "users" |>.fields [.plain "id", .plain "name"], "doc_id", "id"⟩

/-- A JSON table has the letter of the base table, a join that of the sub-select. -/
def Select.tagged : Select :=
  ⟨{ Source.ofTable "docs" with joins := [⟨.left, "users", "u", "id", "user_id", []⟩] },
    { Selection.all with
      jsonTables := [(JsonTable.named "d").fromDocument "tags" "$[*]"
        |>.column "name" "TEXT" "$"] },
    .any, [.subjects]⟩

theorem Statement.distinct_of_compile_tagged :
    ∃ c, (select .tagged).compile "shop" = .ok c ∧
      (∃ p, Select.tagged.plan none = .ok p ∧ p.introduced = ["a", "u"] ∧
        Level.Distinct (.outermost .tagged) p) ∧
      ∃ p, JsonSelect.subjects.query.plan
          (Level.json (.outermost .tagged) .subjects).correlation = .ok p ∧
        p.introduced = ["b"] ∧ Level.Distinct (.json (.outermost .tagged) .subjects) p := by
  obtain ⟨c, hCompile⟩ : ∃ c, (select .tagged).compile "shop" = .ok c := ⟨_, rfl⟩
  obtain ⟨-, hWithin⟩ := distinct_of_compile hCompile
  have hRoot : Level.Within (select .tagged) (.outermost .tagged) := .select .outermost
  have hBelow : Level.Within (select .tagged) (.json (.outermost .tagged) .subjects) :=
    .select (.json .outermost List.mem_cons_self)
  refine ⟨c, hCompile, ?_, ?_⟩
  · obtain ⟨p, hPlan, hDistinct⟩ := hWithin _ hRoot
    obtain rfl : _ = p := Except.ok.inj hPlan
    exact ⟨_, rfl, by decide, hDistinct⟩
  · obtain ⟨p, hPlan, hDistinct⟩ := hWithin _ hBelow
    obtain rfl : _ = p := Except.ok.inj hPlan
    exact ⟨_, rfl, by decide, hDistinct⟩

/-! ### What is not compared -/

/-- Two JSON tables with one alias. -/
def Select.twice : Select :=
  Select.ofTable "docs"
    |>.jsonTable ((JsonTable.named "j").fromDocument "tags" "$[*]" |>.column "name" "TEXT" "$")
    |>.jsonTable ((JsonTable.named "j").fromDocument "links" "$[*]" |>.column "name" "TEXT" "$")

/-- A JSON sub-select may have an alias of a select around the subquery it is in, and two JSON
tables may have the same one. -/
theorem Level.not_all_distinct :
    (∃ c p q, (Statement.select .amongItems).compile "shop" = .ok c ∧
      Within (.select .amongItems) (json (subquery (outermost .amongItems) .items) .orders) ∧
      Select.amongItems.plan none = .ok p ∧
      JsonSelect.orders.query.plan
        (json (subquery (outermost .amongItems) .items) .orders).correlation = .ok q ∧
      ¬ ∀ a ∈ q.introduced, a ∉ p.introduced) ∧
    ∃ c p, (Statement.select .twice).compile "shop" = .ok c ∧ Select.twice.plan none = .ok p ∧
      ¬ (p.introduced ++ Select.twice.selection.jsonTables.map (·.name)).Nodup := by
  refine ⟨⟨_, _, _, rfl, ?_, rfl, rfl, by decide⟩, ⟨_, _, rfl, rfl, by decide⟩⟩
  exact .select (.json (.subquery .outermost (.condition List.mem_cons_self)) List.mem_cons_self)

end SqlStatement
