import SqlStatement.Proofs.AliasFreshness
import SqlStatement.Proofs.SelectDefects

/-!
# Joins that a JSON sub-select is tied to

The equality that ties a JSON sub-select may name a join of any select around it.
Only the select next to it counts that as a use of the join; one further out
prunes by what its own clauses name, and may leave out a join that is named two
levels down.

* `Level.Emits`: the line of a join stands in a level.
* `Level.emits_iff`: a level has the lines of all joins it declares, or if it is
  pruned of those that its own clauses need.
* `Level.tieEmitted_iff_of_compile`: when every join that a tie names is emitted.
* `Level.not_tieEmitted_rated`: a compiled select where one is not.
-/

namespace SqlStatement

open Script

namespace Level

theorem isIn_of_mem_enclosing {s : Select} {l e : Level} (h : IsIn s l) (he : e ∈ l.enclosing) :
    IsIn s e := by
  induction h with
  | outermost => exact absurd he List.not_mem_nil
  | subquery hAround _ ih | json hAround _ ih =>
    rcases List.mem_cons.mp he with rfl | he
    · exact hAround
    · exact ih he

/-- The line of a join stands in the script of a level. -/
def Emits (l : Level) (j : Join) : Prop :=
  ∃ p, l.select.plan l.correlation = .ok p ∧ j ∈ p.joins ∧ j.script p.naming <:+: l.script

theorem emits_iff {l : Level} {p : Plan} (hPlan : l.select.plan l.correlation = .ok p) {j : Join}
    (hj : j ∈ l.select.source.joins) :
    l.Emits j ↔ (l.select.source.prune = true →
      Join.Needed l.select.source.joins (Mentions l.select.Uses) j) := by
  obtain ⟨⟨hPruned, hAll⟩, -⟩ := Select.writes_of_plan hPlan
  constructor
  · rintro ⟨p', hPlan', hMem, -⟩ hPrune
    obtain rfl := Except.ok.inj (hPlan.symm.trans hPlan')
    exact ((hPruned hPrune).mem_iff j).mp hMem
  · intro hNeeded
    have hMem : j ∈ p.joins := by
      cases hPrune : l.select.source.prune with
      | true => exact ((hPruned hPrune).mem_iff j).mpr (hNeeded hPrune)
      | false => rw [hAll hPrune]; exact hj
    have hLine : j.script p.naming <:+: Join.scripts p.naming p.joins := by
      rw [Join.scripts, List.flatMap_def]
      exact List.infix_of_mem_flatten (List.mem_map_of_mem hMem)
    exact ⟨p, hPlan, hMem, hLine.trans (Select.joins_infix_script hPlan)⟩

/-- The tie of a JSON sub-select counts as a use in the select around it. -/
theorem emits_of_owner {around : Level} {sub : JsonSelect} (hNone : failure? around.script = none)
    (hSub : sub ∈ around.select.json) {j : Join} (hj : j ∈ around.select.source.joins)
    (hOwner : around.naming.owner sub.outer = j.name) : around.Emits j := by
  obtain ⟨p, hPlan, hNaming⟩ := exists_plan hNone
  obtain ⟨-, hBase, -⟩ := Naming.assign_eq_ok (Source.assign_of_plan hPlan)
  have hBase : around.naming.owner sub.outer ≠ around.naming.base := by
    rw [hOwner, ← hNaming]
    exact fun hSame => hBase (hSame ▸ List.mem_map_of_mem hj)
  have hQualifier := Naming.qualifier?_of_owner hBase
  rw [hOwner] at hQualifier
  exact (emits_iff hPlan hj).mpr fun _ => .mentioned hj ⟨sub.outer, .correlated hSub, hQualifier⟩

/-- Each join that the tie of a JSON sub-select names is emitted by the select that declares it. -/
def TieEmitted (around : Level) (sub : JsonSelect) : Prop :=
  ∀ e ∈ (json around sub).enclosing, ∀ j ∈ e.select.source.joins,
    around.naming.owner sub.outer = j.name → e.Emits j

/-- In a select that compiles this is so exactly if the selects further out need the joins that the
tie names for their own clauses, as far as they are pruned. -/
theorem tieEmitted_iff_of_compile {schema : String} {s : Select} {c : Compiled} {around : Level}
    {sub : JsonSelect} (h : (Statement.select s).compile schema = .ok c)
    (hIn : IsIn s (json around sub)) :
    TieEmitted around sub ↔ ∀ e ∈ around.enclosing, ∀ j ∈ e.select.source.joins,
      around.naming.owner sub.outer = j.name → e.select.source.prune = true →
        Join.Needed e.select.source.joins (Mentions e.select.Uses) j := by
  obtain ⟨hNone, -⟩ := compile_eq_ok_iff.mp h
  obtain ⟨hAround, hSub⟩ : IsIn s around ∧ sub ∈ around.select.json := by
    cases hIn with
    | json hAround hSub => exact ⟨hAround, hSub⟩
  have hPlans : ∀ e ∈ around.enclosing, ∃ p, e.select.plan e.correlation = .ok p := by
    intro e he
    obtain ⟨p, hPlan, -⟩ := exists_plan (infix_of_isIn hNone (isIn_of_mem_enclosing hAround he)).1
    exact ⟨p, hPlan⟩
  constructor
  · intro hEmitted e he j hj hOwner
    obtain ⟨p, hPlan⟩ := hPlans e he
    exact (emits_iff hPlan hj).mp (hEmitted e (List.mem_cons_of_mem _ he) j hj hOwner)
  · intro hNeeded e he j hj hOwner
    rcases List.mem_cons.mp he with rfl | he
    · exact emits_of_owner (infix_of_isIn hNone hAround).1 hSub hj hOwner
    · obtain ⟨p, hPlan⟩ := hPlans e he
      exact (emits_iff hPlan hj).mpr (hNeeded e he j hj hOwner)

end Level

/-! ### Two levels down -/

/-- The rates of an order for the client of the user. -/
def JsonSelect.rates : JsonSelect :=
  ⟨"rates", Select.ofTable "rates" |>.fields [.plain "sku", .plain "price"], "client_id", "c.id"⟩

def JsonSelect.rated : JsonSelect :=
  ⟨"orders", ⟨.ofTable "orders", { Selection.all with fields := [.plain "sku"] }, .any, [.rates]⟩,
    "user_id", "id"⟩

/-- Users with these fields, and with rates that are tied to their clients. -/
def Select.rated (fields : List SelectField) : Select :=
  ⟨{ Source.ofTable "users" with
      joins := [⟨.left, "clients", "c", "id", "client_id", []⟩], prune := true },
    { Selection.all with fields }, .any, [.rated]⟩

namespace Level

/-- The orders of these users. -/
def rated (fields : List SelectField) : Level := json (outermost (.rated fields)) .rated

theorem isIn_rated (fields : List SelectField) :
    IsIn (.rated fields) (json (rated fields) .rates) :=
  .json (.json .outermost List.mem_cons_self) List.mem_cons_self

theorem tieEmitted_iff_of_compile_rated :
    ∃ c, (Statement.select (.rated [.plain "c.name"])).compile "shop" = .ok c ∧
      IsIn (.rated [.plain "c.name"]) (json (rated [.plain "c.name"]) .rates) ∧
      TieEmitted (rated [.plain "c.name"]) .rates := by
  have hPlan : (Select.rated [.plain "c.name"]).plan none
      = .ok ⟨.aliased "u" [("c", "clients"), ("u", "users")],
          [⟨.left, "clients", "c", "id", "client_id", []⟩]⟩ := by cbv
  have hNone : failure? ((Select.rated [.plain "c.name"]).script none) = none := by
    rw [Select.failure?_script, hPlan]
    rfl
  obtain ⟨c, hCompile⟩ : ∃ c, (Statement.select (.rated [.plain "c.name"])).compile "shop"
      = .ok c := ⟨_, compile_eq_ok_iff.mpr ⟨hNone, rfl⟩⟩
  have hIn := isIn_rated [.plain "c.name"]
  refine ⟨c, hCompile, hIn, (tieEmitted_iff_of_compile hCompile hIn).mpr ?_⟩
  intro e he j hj _ _
  obtain rfl := List.mem_singleton.mp he
  obtain rfl := List.mem_singleton.mp hj
  have hUses : (Select.rated [.plain "c.name"]).Uses "c.name" :=
    .selected (f := .plain "c.name") List.mem_cons_self
  exact .mentioned hj ⟨_, hUses, by decide⟩

/-- Nothing but the tie two levels down names the join, and it is left out. -/
theorem not_tieEmitted_rated :
    ∃ c, (Statement.select (.rated [.plain "id"])).compile "shop" = .ok c ∧
      IsIn (.rated [.plain "id"]) (json (rated [.plain "id"]) .rates) ∧
      ¬ TieEmitted (rated [.plain "id"]) .rates := by
  have hPlan : (Select.rated [.plain "id"]).plan none
      = .ok ⟨.aliased "u" [("c", "clients"), ("u", "users")], []⟩ := by cbv
  have hNone : failure? ((Select.rated [.plain "id"]).script none) = none := by
    rw [Select.failure?_script, hPlan]
    rfl
  refine ⟨_, compile_eq_ok_iff.mpr ⟨hNone, rfl⟩, isIn_rated _, fun hEmitted => ?_⟩
  obtain ⟨p, hPlan', hMem, -⟩ := hEmitted (outermost (.rated [.plain "id"]))
    (List.mem_cons_of_mem _ List.mem_cons_self) _ List.mem_cons_self rfl
  obtain rfl := Except.ok.inj (hPlan.symm.trans hPlan')
  exact absurd hMem List.not_mem_nil

end Level

end SqlStatement
