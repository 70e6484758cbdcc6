import Mathlib
import SqlStatement.Proofs.Aliases
import SqlStatement.Proofs.Frame

/-!
# Namings that cannot be told apart

What is written under some aliases shows the alias of the base table and nothing
else of them.  Which other aliases are taken matters to the JSON sub-selects
alone, which must avoid them, and for that their order is of no interest.

* `Script.Same`: scripts that compile to the same.
* `Naming.Alike`: the same alias for the base table, the same aliases taken.
* `Naming.alike_assign`: assigning aliases with the same ones to avoid.
* `Filter.terms_congr`, `JsonSelect.same_scripts`: what is written under such
  namings is the same, by induction over filters and over sub-selects.
* `Frame.same_script`: and so are statements around the same join lines.
-/

namespace SqlStatement

/-! ### Scripts that compile to the same -/

namespace Script

structure Same (a b : Script) : Prop where
  failure?_eq : failure? a = failure? b
  written_eq : ∀ schema, written schema a = written schema b
  bound_eq : bound a = bound b

namespace Same

variable {a b a' b' : Script}

theorem refl (a : Script) : Same a a := ⟨rfl, fun _ => rfl, rfl⟩

theorem of_eq (h : a = b) : Same a b := h ▸ refl a

theorem append (h : Same a b) (h' : Same a' b') : Same (a ++ a') (b ++ b') := by
  refine ⟨?_, fun schema => ?_, ?_⟩
  · rw [failure?_append, failure?_append, h.failure?_eq, h'.failure?_eq]
  · rw [written_append, written_append, h.written_eq, h'.written_eq]
  · rw [bound_append, bound_append, h.bound_eq, h'.bound_eq]

theorem cons (p : Piece) (h : Same a b) : Same (p :: a) (p :: b) := (refl [p]).append h

theorem aliases (n n' : Naming) : Same [.aliases n] [.aliases n'] := ⟨rfl, fun _ => rfl, rfl⟩

theorem nested (h : Same a b) : Same [.nested a] [.nested b] := by
  refine ⟨?_, fun schema => ?_, ?_⟩
  · simp [h.failure?_eq]
  · simp [h.written_eq]
  · simp [h.bound_eq]

theorem joined (separator : String) {scripts scripts' : List Script}
    (h : List.Forall₂ Same scripts scripts') :
    Same (joined separator scripts) (joined separator scripts') := by
  induction h with
  | nil => exact refl _
  | @cons s s' rest rest' hHead hRest ih =>
    cases hRest with
    | nil => simpa using hHead
    | cons _ _ =>
      rw [joined_cons_cons, joined_cons_cons]
      exact hHead.append (ih.cons _)

theorem compile_eq (h : Same a b) (schema : String) : compile schema a = compile schema b := by
  rw [Script.compile_eq, Script.compile_eq, h.failure?_eq, compiled, compiled, h.written_eq,
    h.bound_eq]

end Same

end Script

open Script

/-! ### Aliases -/

namespace Naming

inductive Alike : Naming → Naming → Prop
  | bare : Alike .bare .bare
  | aliased {base : String} {tables tables' : List (String × String)} :
      (∀ a, a ∈ tables.map (·.1) ↔ a ∈ tables'.map (·.1)) →
      Alike (.aliased base tables) (.aliased base tables')

variable {n n' : Naming}

theorem Alike.base_eq (h : Alike n n') : n.base = n'.base := by
  cases h <;> rfl

theorem Alike.qualify_eq (h : Alike n n') : n.qualify = n'.qualify := by
  cases h <;> rfl

theorem Alike.suffix_eq (h : Alike n n') : n.suffix = n'.suffix := by
  cases h <;> rfl

theorem Alike.mem_aliases_iff (h : Alike n n') (a : String) : a ∈ n.aliases ↔ a ∈ n'.aliases := by
  cases h with
  | bare => exact Iff.rfl
  | aliased hMem => exact hMem a

end Naming

/-- Two results that are the same error, or two values that belong together. -/
inductive Agree {α : Type} (R : α → α → Prop) :
    Except CompileError α → Except CompileError α → Prop
  | error (e : CompileError) : Agree R (.error e) (.error e)
  | ok {a b : α} : R a b → Agree R (.ok a) (.ok b)

theorem Agree.elim {α : Type} {R : α → α → Prop} {r r' : Except CompileError α} (h : Agree R r r') :
    (∃ e, r = .error e ∧ r' = .error e) ∨ ∃ a b, r = .ok a ∧ r' = .ok b ∧ R a b := by
  cases h with
  | error e => exact .inl ⟨e, rfl, rfl⟩
  | ok h => exact .inr ⟨_, _, rfl, rfl, h⟩

namespace Naming

section Assign

variable {taken taken' : List String} {joins joins' : List Join}

theorem Clear.congr (hTaken : ∀ a, a ∈ taken ↔ a ∈ taken') (h : Clear taken joins) :
    Clear taken' joins :=
  ⟨h.1, fun j hj hMem => h.2 j hj ((hTaken j.name).mpr hMem)⟩

theorem Collides.congr {j : Join} (hTaken : ∀ a, a ∈ taken ↔ a ∈ taken')
    (h : Collides taken joins j) : Collides taken' joins j := by
  obtain ⟨before, after, hSplit, hClear, hMem⟩ := h
  refine ⟨before, after, hSplit, hClear.congr hTaken, ?_⟩
  rw [List.mem_append] at hMem ⊢
  rwa [← hTaken]

theorem free?_congr (hTaken : ∀ a, a ∈ taken ↔ a ∈ taken') (table : String)
    (requested : Option String) : free? taken table requested = free? taken' table requested := by
  have hContains : ∀ a, taken.contains a = taken'.contains a := by
    intro a
    rw [Bool.eq_iff_iff, List.contains_iff_mem, List.contains_iff_mem]
    exact hTaken a
  simp only [free?, hContains]

/-- Without collisions only the aliases count, not which of them belong to joins. -/
theorem alike_assign_of_clear (table : String) (requested : Option String) {force : Bool}
    (hUse : joins = [] ↔ joins' = []) (hClear : Clear taken joins) (hClear' : Clear taken' joins')
    (hMem : ∀ a, a ∈ taken ++ joins.map Join.name ↔ a ∈ taken' ++ joins'.map Join.name) :
    Agree Alike (assign table requested joins force taken)
      (assign table requested joins' force taken') := by
  by_cases h : force = true ∨ joins ≠ []
  · have h' : force = true ∨ joins' ≠ [] := by rwa [ne_eq, ← hUse]
    rw [assign_of_clear h hClear, assign_of_clear h' hClear', free?_congr hMem]
    cases free? (taken' ++ joins'.map Join.name) table requested with
    | none => exact .error _
    | some base =>
      refine .ok (.aliased fun a => ?_)
      rw [List.map_append, map_fst_claimed, List.map_append, map_fst_claimed]
      exact List.mem_append.trans ((or_congr_left (hMem a)).trans List.mem_append.symm)
  · have h' : ¬ (force = true ∨ joins' ≠ []) := by rwa [ne_eq, ← hUse]
    rw [(assign_of_not_needed h).2, (assign_of_not_needed h').2]
    exact .ok .bare

theorem alike_assign (table : String) (requested : Option String) (joins : List Join)
    (force : Bool) (hTaken : ∀ a, a ∈ taken ↔ a ∈ taken') :
    Agree Alike (assign table requested joins force taken)
      (assign table requested joins force taken') := by
  rcases clear_or_collides taken joins with hClear | ⟨j, hCollides⟩
  · refine alike_assign_of_clear table requested Iff.rfl hClear (hClear.congr hTaken) fun a => ?_
    rw [List.mem_append, List.mem_append, hTaken]
  · rw [assign_of_collides hCollides, assign_of_collides (hCollides.congr hTaken)]
    exact .error _

end Assign

end Naming

/-- The same joins in the same order, under alike namings. -/
structure Plan.Alike (p p' : Plan) : Prop where
  naming : p.naming.Alike p'.naming
  joins_eq : p.joins = p'.joins

theorem Source.alike_plan (s : Source) (force : Bool) {reserved reserved' : List String}
    (mentioned : List String) (hReserved : ∀ a, a ∈ reserved ↔ a ∈ reserved') :
    Agree Plan.Alike (s.plan force reserved mentioned) (s.plan force reserved' mentioned) := by
  rw [plan, plan]
  rcases (Naming.alike_assign s.table s.requested s.joins force hReserved).elim with
    ⟨e, hError, hError'⟩ | ⟨n, n', hOk, hOk', hAlike⟩
  · rw [hError, hError']
    exact .error e
  · rw [hOk, hOk']
    simp only [hAlike.base_eq]
    split
    · cases Join.resolve s.joins n'.base (Field.qualifiers mentioned) with
      | error e => exact .error e
      | ok joins => exact .ok ⟨hAlike, rfl⟩
    · exact .ok ⟨hAlike, rfl⟩

/-! ### Filters -/

section Filters

variable {n n' : Naming}

theorem Test.script_congr (h : n.qualify = n'.qualify) (field : String) (test : Test) :
    Test.script n field test = Test.script n' field test := by
  cases test <;> simp only [Test.script, h]

namespace Filter

theorem conditionTerms_congr (h : n.qualify = n'.qualify) (seen : List (String × Operator)) :
    ∀ conditions, conditionTerms n seen conditions = conditionTerms n' seen conditions
  | [] => rfl
  | ⟨field, test⟩ :: rest => by
    rw [conditionTerms, conditionTerms, Test.script_congr h, conditionTerms_congr h _ rest]

theorem conditionScripts_congr (h : n.qualify = n'.qualify) :
    ∀ conditions, conditionScripts n conditions = conditionScripts n' conditions
  | [] => rfl
  | ⟨field, test⟩ :: rest => by
    rw [conditionScripts, conditionScripts, Test.script_congr h, conditionScripts_congr h rest]

mutual

theorem alternatives_congr (h : n.qualify = n'.qualify) : ∀ f, alternatives n f = alternatives n' f
  | ⟨none, conditions, groups⟩ => by
    rw [alternatives, alternatives, conditionScripts_congr h, groupTerms_congr h groups]
  | ⟨some wrapped, conditions, groups⟩ => by
    rw [alternatives, alternatives, conditionScripts_congr h, groupTerms_congr h groups,
      alternatives_congr h wrapped]

theorem groupTerms_congr (h : n.qualify = n'.qualify) :
    ∀ groups, groupTerms n groups = groupTerms n' groups
  | [] => rfl
  | f :: rest => by
    rw [groupTerms, groupTerms, alternatives_congr h f, groupTerms_congr h rest]

end

theorem terms_congr (h : n.qualify = n'.qualify) : ∀ f, terms n f = terms n' f
  | ⟨none, conditions, groups⟩ => by
    rw [terms, terms, conditionTerms_congr h, groupTerms_congr h]
  | ⟨some wrapped, conditions, groups⟩ => by
    rw [terms, terms, conditionTerms_congr h, groupTerms_congr h, terms_congr h wrapped]

end Filter

end Filters

/-! ### Clauses -/

section Clauses

variable {n n' : Naming}

theorem Join.scripts_congr (h : n.qualify = n'.qualify) (joins : List Join) :
    scripts n joins = scripts n' joins := by
  have hTerm : ∀ name, OnTerm.script n name = OnTerm.script n' name := by
    intro name
    funext t
    simp only [OnTerm.script, h]
  have hLine : script n = script n' := by
    funext j
    simp only [script, h, hTerm]
  rw [scripts, scripts, hLine]

/-- What a sub-select is tied to counts by its text. -/
theorem whereScript_congr {c c' : Option Correlation} (h : n.qualify = n'.qualify)
    (hTie : c.map (fun c => (c.inner, c.outer)) = c'.map fun c => (c.inner, c.outer))
    (row : Option UInt64) (f : Filter) :
    whereScript n c row (f.terms n) = whereScript n' c' row (f.terms n') := by
  have hRow : Source.rowTerm n = Source.rowTerm n' := by
    funext id
    simp only [Source.rowTerm, h]
  have hTied : c.map (Correlation.term n) = c'.map (Correlation.term n') := by
    cases c <;> cases c' <;> simp_all [Correlation.term]
  rw [whereScript_eq, whereScript_eq, whereTerms, whereTerms, hTied, hRow, Filter.terms_congr h]

theorem JsonSource.written_congr (h : n.qualify = n'.qualify) : written n = written n' := by
  funext source
  cases source with
  | document field => exact congrFun h field
  | keyValue field =>
    exact congrArg (fun written => "JSON_KEY_VALUE(" ++ written ++ ", '$')") (congrFun h field)

namespace Selection

variable (s : Selection)

theorem fromScript_congr (h : n.Alike n') (table : String) :
    s.fromScript n table = s.fromScript n' table := by
  have hTable : JsonTable.script n = JsonTable.script n' := by
    funext t
    simp only [JsonTable.script, JsonSource.written_congr h.qualify_eq]
  rw [fromScript, fromScript, h.suffix_eq, hTable]

theorem tailScript_congr (h : n.qualify = n'.qualify) : s.tailScript n = s.tailScript n' := by
  have hOrder : OrderField.written n = OrderField.written n' := by
    funext o
    simp only [OrderField.written, h]
  simp only [tailScript, h, hOrder]

end Selection

/-- Sub-selects of the same name that compile to the same. -/
structure NamedScript.Same (a b : NamedScript) : Prop where
  name_eq : a.name = b.name
  body : Script.Same a.body b.body

theorem Selection.same_headScript (correlated : Bool) (h : n.qualify = n'.qualify) (s : Selection)
    {json json' : List NamedScript} (hJson : List.Forall₂ NamedScript.Same json json') :
    Same (s.headScript correlated n json) (s.headScript correlated n' json') := by
  have hExpression : SelectField.expression n = SelectField.expression n' := by
    funext f
    simp only [SelectField.expression, SelectField.target, h]
  have hWritten : SelectField.written n = SelectField.written n' := by
    funext f
    simp only [SelectField.written, hExpression]
  cases correlated with
  | true =>
    have hMembers : List.Forall₂ Same (s.members n json) (s.members n' json') := by
      rw [members, members, hExpression]
      refine List.rel_append (List.forall₂_same.mpr fun _ _ => .refl _) ?_
      rw [List.forall₂_map_left_iff, List.forall₂_map_right_iff]
      refine hJson.imp fun a b hab => ?_
      rw [hab.name_eq]
      exact hab.body.cons _
    exact ((Same.joined ", " hMembers).cons _).append (.refl _)
  | false =>
    have hItems : List.Forall₂ Same (s.items n json) (s.items n' json') := by
      rw [items, items, hWritten]
      refine List.rel_append (List.forall₂_same.mpr fun _ _ => .refl _) ?_
      rw [List.forall₂_map_left_iff, List.forall₂_map_right_iff]
      refine hJson.imp fun a b hab => ?_
      rw [hab.name_eq]
      exact hab.body.append (.refl _)
    show Same (s.listScript n json) (s.listScript n' json')
    rw [listScript, listScript]
    generalize s.items n json = items at hItems
    generalize s.items n' json' = items' at hItems
    cases hItems with
    | nil => exact .refl _
    | cons hItem hRest => exact ((Same.joined ", " (.cons hItem hRest)).cons _).append (.refl _)

end Clauses

/-! ### Statements -/

/-- What a select is tied to, its aliases in any order. -/
inductive Correlation.Alike : Option Correlation → Option Correlation → Prop
  | none : Alike none none
  | some {enclosing enclosing' : List String} (inner outer : String) :
      (∀ a, a ∈ enclosing ↔ a ∈ enclosing') →
      Alike (some ⟨enclosing, inner, outer⟩) (some ⟨enclosing', inner, outer⟩)

/-- Frames that write the same around their join lines, whatever the aliases. -/
structure Frame.Alike (f f' : Frame) : Prop where
  refusal_eq : f.refusal = f'.refusal
  force_eq : f.force = f'.force
  mem_reserved_iff : ∀ a, a ∈ f.reserved ↔ a ∈ f'.reserved
  mentioned_eq : f.mentioned = f'.mentioned
  front : ∀ {n n' : Naming}, n.Alike n' → Same (f.front n) (f'.front n')
  back : ∀ {n n' : Naming}, n.Alike n' → Same (f.back n) (f'.back n')

namespace Frame

variable {f f' : Frame} {s s' : Source}

theorem Alike.plan (h : f.Alike f') (s : Source) : Agree Plan.Alike (f.plan s) (f'.plan s) := by
  rw [Frame.plan, Frame.plan, h.force_eq, h.mentioned_eq]
  exact s.alike_plan f'.force f'.mentioned h.mem_reserved_iff

theorem same_script (h : f.Alike f') (hPlan : Agree Plan.Alike (f.plan s) (f'.plan s')) :
    Same (f.script s) (f'.script s') := by
  rw [script, script, h.refusal_eq]
  cases f'.refusal with
  | some e => exact .refl _
  | none =>
    rcases hPlan.elim with ⟨e, hError, hError'⟩ | ⟨p, p', hOk, hOk', hAlike⟩
    · rw [hError, hError']
      exact .refl _
    · have hJoins : Join.scripts p.naming p.joins = Join.scripts p'.naming p'.joins := by
        rw [Join.scripts_congr hAlike.naming.qualify_eq, hAlike.joins_eq]
      rw [hOk, hOk']
      exact ((h.front hAlike.naming).append (.of_eq hJoins)).append (h.back hAlike.naming)

end Frame

theorem Select.alike_frame {c c' : Option Correlation} (h : Correlation.Alike c c') (s : Select)
    (hJson : ∀ {n n' : Naming}, n.Alike n' →
      List.Forall₂ NamedScript.Same (JsonSelect.scripts n s.json) (JsonSelect.scripts n' s.json)) :
    (s.frame c).Alike (s.frame c') where
  refusal_eq := rfl
  force_eq := by cases h <;> rfl
  mem_reserved_iff := by
    intro a
    cases h with
    | none => exact Iff.rfl
    | some inner outer hMem =>
      exact List.mem_append.trans ((or_congr_right (hMem a)).trans List.mem_append.symm)
  mentioned_eq := rfl
  front := by
    intro n n' hn
    have hSome : c.isSome = c'.isSome := by cases h <;> rfl
    have hHead := s.selection.same_headScript c'.isSome hn.qualify_eq (hJson hn)
    have hFrom := s.selection.fromScript_congr hn s.source.table
    simp only [frame, hSome]
    exact ((Same.aliases n n').append hHead).append (.of_eq hFrom)
  back := by
    intro n n' hn
    have hTie : c.map (fun c => (c.inner, c.outer)) = c'.map fun c => (c.inner, c.outer) := by
      cases h <;> rfl
    have hWhere := whereScript_congr hn.qualify_eq hTie s.source.row s.filter
    have hTail := s.selection.tailScript_congr hn.qualify_eq
    exact (Same.of_eq hWhere).append (.of_eq hTail)

mutual

theorem Select.same_script : ∀ (s : Select) {c c' : Option Correlation}, Correlation.Alike c c' →
    Same (s.script c) (s.script c')
  | ⟨source, selection, filter, json⟩, c, c', h => by
    have hFrame := Select.alike_frame h ⟨source, selection, filter, json⟩
      (JsonSelect.same_scripts json)
    rw [Select.script_eq_frame, Select.script_eq_frame]
    exact Frame.same_script hFrame (hFrame.plan source)

theorem JsonSelect.same_scripts : ∀ (json : List JsonSelect) {n n' : Naming}, n.Alike n' →
    List.Forall₂ NamedScript.Same (JsonSelect.scripts n json) (JsonSelect.scripts n' json)
  | [], _, _, _ => .nil
  | ⟨name, query, inner, outer⟩ :: rest, n, n', h => by
    rw [JsonSelect.scripts, JsonSelect.scripts, JsonSelect.script, JsonSelect.script]
    refine .cons ⟨rfl, ?_⟩ (JsonSelect.same_scripts rest h)
    split
    · exact .refl _
    · have hQuery := Select.same_script query
        (.some inner (n'.qualify outer) fun a => h.mem_aliases_iff a)
      rw [h.qualify_eq]
      exact (hQuery.nested.append (.refl [.text ")"])).cons _

end

theorem Update.alike_frame (u : Update) : u.frame.Alike u.frame where
  refusal_eq := rfl
  force_eq := rfl
  mem_reserved_iff := fun _ => Iff.rfl
  mentioned_eq := rfl
  front := by
    intro n n' hn
    simp only [frame, hn.suffix_eq]
    exact (Same.aliases n n').append (.refl _)
  back := by
    intro n n' hn
    have hUpdate : Assignment.update n = Assignment.update n' := by
      funext a
      simp only [Assignment.update, Assignment.set, hn.qualify_eq]
    have hRemoval : removalScript n = removalScript n' := by
      funext r
      simp only [removalScript, hn.qualify_eq]
    have hWhere := whereScript_congr (c := none) hn.qualify_eq rfl u.source.row u.filter
    simp only [frame, setScripts, hUpdate, hRemoval, hWhere]
    exact .refl _

theorem Delete.alike_frame (d : Delete) : d.frame.Alike d.frame where
  refusal_eq := rfl
  force_eq := rfl
  mem_reserved_iff := fun _ => Iff.rfl
  mentioned_eq := rfl
  front := by
    intro n n' hn
    have hVictim : victim n = victim n' := by cases hn <;> rfl
    simp only [frame, hn.suffix_eq, hVictim]
    exact (Same.aliases n n').append (.refl _)
  back := by
    intro n n' hn
    exact .of_eq (whereScript_congr (c := none) hn.qualify_eq rfl d.source.row d.filter)

theorem Union.alike_frame (u : Union) : u.frame.Alike u.frame where
  refusal_eq := rfl
  force_eq := rfl
  mem_reserved_iff := fun _ => Iff.rfl
  mentioned_eq := rfl
  front := by
    intro n n' hn
    have hName : name n = name n' := by cases hn <;> rfl
    have hHead := u.outer.selection.same_headScript false hn.qualify_eq
      (JsonSelect.same_scripts u.outer.json hn)
    simp only [frame, hName]
    exact (((Same.aliases n n').append hHead).append (.refl _)).append (.refl _)
  back := by
    intro n n' hn
    exact (Select.alike_frame .none u.outer (JsonSelect.same_scripts u.outer.json)).back hn

theorem Statement.alike_frame {s : Statement} {source : Source} {f : Frame}
    (h : s.frame? = some (source, f)) : f.Alike f := by
  cases s with
  | select s => cases h; exact Select.alike_frame .none s (JsonSelect.same_scripts s.json)
  | update u => cases h; exact u.alike_frame
  | delete d => cases h; exact d.alike_frame
  | union u => cases h; exact u.alike_frame
  | insert i => cases h
  | bulkInsert b => cases h

end SqlStatement
