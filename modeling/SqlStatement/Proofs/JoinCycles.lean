import Mathlib.Data.List.Cycle
import SqlStatement.Proofs.DeclarationOrder

/-!
# Circular joins

Resolving fails exactly when needed joins depend on each other in a circle, and
it reports the joins that the last round of relaxation has changed.  From these a
cycle can be reached, since all other joins have come to their depths by then.
And no round leaves a whole cycle as it is: each of its joins would have to lie
above the next.

* `Join.IsCycle`, `Join.LeadsToCycle`: the cycles of the graph, and the joins that
  depend on one.
* `Join.circular_iff_exists_isCycle`: a needed join reaches itself exactly when
  there is a cycle of needed joins.
* `Join.exists_mem_changes_of_isCycle`: each round changes a join of each cycle.
* `Join.reported_of_resolve`: when resolving fails, and what it reports.
-/

namespace SqlStatement.Join

/-! ### Cycles -/

section Cycles

variable {joins : List Join} {mentioned : String → Prop} {c : Cycle Join} {j k : Join}

/-- Each join of the circle depends on the next. -/
def IsCycle (joins : List Join) (c : Cycle Join) : Prop := c ≠ .nil ∧ c.Chain (DependsOn joins)

/-- The join depends, at some distance or none, on a join of a cycle. -/
def LeadsToCycle (joins : List Join) (j : Join) : Prop :=
  ∃ c, IsCycle joins c ∧ ∃ k ∈ c, Relation.ReflTransGen (DependsOn joins) j k

theorem IsCycle.exists_mem (h : IsCycle joins c) : ∃ j, j ∈ c := by
  induction c using Cycle.induction_on with
  | nil => exact absurd rfl h.1
  | cons first rest _ => exact ⟨first, by simp⟩

theorem IsCycle.transGen (h : IsCycle joins c) (hj : j ∈ c) (hk : k ∈ c) :
    Relation.TransGen (DependsOn joins) j k := by
  have hChain : c.Chain (Relation.TransGen (DependsOn joins)) :=
    h.2.imp fun _ _ => Relation.TransGen.single
  exact Cycle.chain_iff_pairwise.mp hChain j hj k hk

/-- In a circle there is always a next. -/
theorem exists_next_of_chain {α : Type} {r : α → α → Prop} {c : Cycle α} (h : c.Chain r) {a : α}
    (ha : a ∈ c) : ∃ b ∈ c, r a b := by
  induction c using Cycle.induction_on with
  | nil => exact absurd ha (Cycle.notMem_nil a)
  | cons first rest _ =>
    rw [Cycle.chain_coe_cons] at h
    obtain ⟨before, after, hSplit⟩ := List.append_of_mem (Cycle.mem_coe_iff.mp ha)
    rw [← List.cons_append, hSplit, List.append_assoc, List.cons_append] at h
    have hNext := (List.isChain_append.mp h).2.1
    cases after with
    | nil => exact ⟨first, by simp, (List.isChain_cons_cons.mp hNext).1⟩
    | cons b after =>
      refine ⟨b, ?_, (List.isChain_cons_cons.mp hNext).1⟩
      rw [Cycle.mem_coe_iff, hSplit]
      simp

theorem exists_isCycle_of_transGen (h : Relation.TransGen (DependsOn joins) j j) :
    ∃ c, IsCycle joins c ∧ j ∈ c := by
  obtain ⟨k, hFirst, hRest⟩ := Relation.TransGen.head'_iff.mp h
  obtain ⟨rest, hChain, hLast⟩ := List.exists_isChain_cons_of_relationReflTransGen hRest
  refine ⟨(k :: rest : List Join), ⟨by simp, ?_⟩, ?_⟩
  · rw [Cycle.chain_ne_nil _ (List.cons_ne_nil k rest), hLast]
    exact .cons_cons hFirst hChain
  · rw [Cycle.mem_coe_iff, ← hLast]
    exact List.getLast_mem _

theorem Needed.of_transGen (hj : Needed joins mentioned j)
    (h : Relation.TransGen (DependsOn joins) j k) : Needed joins mentioned k := by
  induction h with
  | single hk => exact hj.dependency hk
  | tail _ hk ih => exact ih.dependency hk

theorem circular_iff_exists_isCycle :
    Circular joins mentioned ↔ ∃ c, IsCycle joins c ∧ ∀ j ∈ c, Needed joins mentioned j := by
  constructor
  · rintro ⟨j, hNeeded, hLoop⟩
    obtain ⟨c, hCycle, hj⟩ := exists_isCycle_of_transGen hLoop
    exact ⟨c, hCycle, fun k hk => hNeeded.of_transGen (hCycle.transGen hj hk)⟩
  · rintro ⟨c, hCycle, hNeeded⟩
    obtain ⟨j, hj⟩ := hCycle.exists_mem
    exact ⟨j, hNeeded j hj, hCycle.transGen hj hj⟩

end Cycles

/-! ### What a round changes -/

section Changes

variable {joins kept : List Join} {base : String} {d : Depths} {dependenciesOf : Join → List String}

theorem get_settle_of_not_mem (state : Depths × List String) (j : Join) {a : String}
    (h : a ∉ (settle dependenciesOf state j).2) :
    (settle dependenciesOf state j).1.get a = state.1.get a := by
  rw [settle] at h ⊢
  split
  · rfl
  · next hChanged =>
    rw [if_neg hChanged] at h
    have hName : a ≠ j.name := fun hName =>
      h (List.mem_append_right _ (List.mem_singleton.mpr hName))
    exact Depths.get_set_of_ne _ _ hName

/-- A join that a round leaves alone lay just above its dependencies when its turn came, and the
others that are left alone lay then as they do before and after. -/
theorem exists_above_of_not_mem : ∀ (l : List Join) (state : Depths × List String) {j : Join},
    j ∈ l → j.name ∉ (l.foldl (settle dependenciesOf) state).2 →
    ∃ d : Depths, d.get j.name = above d (dependenciesOf j) ∧
      ∀ a, a ∉ (l.foldl (settle dependenciesOf) state).2 → d.get a = state.1.get a := by
  intro l
  induction l with
  | nil => intro state j hj _; exact absurd hj List.not_mem_nil
  | cons k rest ih =>
    intro state j hj h
    rw [List.foldl_cons] at h ⊢
    have hRecord : (settle dependenciesOf state k).2
        ⊆ (rest.foldl (settle dependenciesOf) (settle dependenciesOf state k)).2 :=
      (prefix_foldl_settle rest _).subset
    rcases List.mem_cons.mp hj with rfl | hj
    · refine ⟨state.1, ?_, fun _ _ => rfl⟩
      have hSame : j.name ∉ (settle dependenciesOf state j).2 := fun hMem => h (hRecord hMem)
      rw [settle] at hSame
      split at hSame
      · next hSettled => exact hSettled
      · exact absurd (List.mem_append_right _ List.mem_cons_self) hSame
    · obtain ⟨d, hAbove, hOthers⟩ := ih _ hj h
      refine ⟨d, hAbove, fun a ha => ?_⟩
      rw [hOthers a ha, get_settle_of_not_mem state k fun hMem => ha (hRecord hMem)]

/-- Two joins that a round leaves alone are as far apart as they must be. -/
theorem get_lt_get_of_not_mem_changes {j : Join} (hj : j ∈ kept)
    (h : j.name ∉ changes dependenciesOf kept d) {a : String} (ha : a ∈ dependenciesOf j)
    (h' : a ∉ changes dependenciesOf kept d) : d.get a < d.get j.name := by
  obtain ⟨d', hAbove, hOthers⟩ := exists_above_of_not_mem kept (d, []) hj h
  have hLe := le_above (d := d') ha
  rw [← hAbove, hOthers a h', hOthers j.name h] at hLe
  exact hLe

/-- Each round changes a join of each cycle: otherwise the depths would go down all around it. -/
theorem exists_mem_changes_of_isCycle (hBase : base ∉ joins.map name) {c : Cycle Join}
    (hCycle : IsCycle joins c) (hMem : ∀ j ∈ c, j ∈ kept) :
    ∃ j ∈ c, j.name ∈ changes (dependencies joins base) kept d := by
  by_contra hNone
  simp only [not_exists, not_and] at hNone
  have hLower : ∀ j ∈ c, ∃ k ∈ c, d.get k.name < d.get j.name := by
    intro j hj
    obtain ⟨k, hk, hDepends⟩ := exists_next_of_chain hCycle.2 hj
    have hDependency := (mem_dependencies hBase).mpr ⟨k, hDepends, rfl⟩
    exact ⟨k, hk, get_lt_get_of_not_mem_changes (hMem j hj) (hNone j hj) hDependency (hNone k hk)⟩
  have hEmpty : ∀ n, ∀ j ∈ c, d.get j.name ≠ n := by
    intro n
    induction n using Nat.strong_induction_on with
    | h n ih =>
      rintro j hj rfl
      obtain ⟨k, hk, hLess⟩ := hLower j hj
      exact ih _ hLess k hk rfl
  obtain ⟨j, hj⟩ := hCycle.exists_mem
  exact hEmpty _ j hj rfl

end Changes

/-! ### What is reported -/

section Report

variable {joins : List Join} {base : String} {referenced : List String}

/-- A failure that names needed joins in the order of their aliases: only such as depend on a cycle,
and some join of each cycle. -/
structure Reports (joins : List Join) (mentioned : String → Prop) (reported : List String) :
    Prop where
  ne_nil : reported ≠ []
  ascending : reported.Pairwise (· < ·)
  leadsToCycle : ∀ a ∈ reported, ∃ j, Needed joins mentioned j ∧ j.name = a ∧ LeadsToCycle joins j
  meets_cycle : ∀ c, IsCycle joins c → (∀ j ∈ c, Needed joins mentioned j) →
    ∃ j ∈ c, j.name ∈ reported

theorem ascending_survivors (hNodup : (joins.map name).Nodup) :
    ((survivors joins base referenced).map name).Pairwise (· < ·) := by
  have hOrdered : ((survivors joins base referenced).map name).Pairwise (· ≤ ·) :=
    List.pairwise_map.mpr ((pairwise_byAlias joins).sublist survivors_sublist)
  refine (hOrdered.and (nodup_survivors hNodup)).imp fun hab => ?_
  exact String.not_le.mp fun hba => hab.2 (String.le_antisymm hab.1 hba)

theorem within_of_not_leadsToCycle (hNodup : (joins.map name).Nodup)
    (hBase : base ∉ joins.map name) {j : Join} (hj : j ∈ survivors joins base referenced)
    (h : ¬ LeadsToCycle joins j) : Within joins joins.length j := by
  refine within_length hNodup hBase hj fun k hk hLoop => ?_
  obtain ⟨c, hCycle, hMem⟩ := exists_isCycle_of_transGen hLoop
  exact h ⟨c, hCycle, k, hMem, hk⟩

/-- Resolving fails exactly if there is a cycle of needed joins, and then reports where it is. -/
theorem reported_of_resolve (hNodup : (joins.map name).Nodup) (hBase : base ∉ joins.map name) :
    ((∃ e, resolve joins base referenced = .error e) ↔
      ∃ c, IsCycle joins c ∧ ∀ j ∈ c, Needed joins (· ∈ referenced) j) ∧
    ∀ e, resolve joins base referenced = .error e →
      ∃ reported, e = .circularJoinDependency reported ∧
        Reports joins (· ∈ referenced) reported := by
  refine ⟨(exists_resolve_eq_error_iff hNodup hBase).trans circular_iff_exists_isCycle, ?_⟩
  intro e h
  have hKept : SelfContained joins base (survivors joins base referenced) :=
    selfContained_survivors hNodup hBase
  rw [resolve] at h
  split at h
  · next hRelax =>
    obtain rfl := Except.error.inj h
    obtain ⟨rfl, hNonempty⟩ := relax_eq_error hRelax
    refine ⟨_, rfl, hNonempty, ?_, fun a ha => ?_, fun c hCycle hNeeded => ?_⟩
    · exact (ascending_survivors hNodup).sublist changes_sublist
    · have hRight := rightWithin_rounds hKept joins.length (mem_initial _) (rightWithin_initial _)
      rw [Nat.zero_add] at hRight
      obtain ⟨j, hj, hName, hLong⟩ := not_within_of_mem_changes hKept hRight ha
      refine ⟨j, (mem_survivors_iff hNodup hBase).mp hj, hName, ?_⟩
      by_contra hNot
      exact hLong (within_of_not_leadsToCycle hNodup hBase hj hNot)
    · exact exists_mem_changes_of_isCycle hBase hCycle fun j hj =>
        (mem_survivors_iff hNodup hBase).mpr (hNeeded j hj)
  · cases h

end Report

/-- Lots, offers and items name each other in a circle; the items also name a row of two joins. -/
def entangled : List Join :=
  [⟨.left, "lots", "e", "id", "c.lot_id", []⟩, ⟨.left, "offers", "d", "id", "e.offer_id", []⟩,
    ⟨.inner, "items", "c", "id", "b.item_id", [.column "offer_id" "d.id"]⟩,
    ⟨.inner, "orders", "b", "client_id", "a.id", []⟩, ⟨.left, "clients", "a", "id", "client_id", []⟩]

/-- Of the three joins in the circle one is reported. -/
theorem reported_of_resolve_entangled :
    resolve entangled "u" ["e"] = .error (.circularJoinDependency ["d"]) ∧
      (∃ c, IsCycle entangled c ∧ ∀ j ∈ c, Needed entangled (· ∈ ["e"]) j) ∧
      Reports entangled (· ∈ ["e"]) ["d"] := by
  have hNodup : (entangled.map name).Nodup := by decide
  have hBase : "u" ∉ entangled.map name := by decide
  have hResolve : resolve entangled "u" ["e"] = .error (.circularJoinDependency ["d"]) := by cbv
  obtain ⟨hCycle, hReports⟩ := reported_of_resolve hNodup hBase
  obtain ⟨reported, hSame, hReported⟩ := hReports _ hResolve
  obtain rfl := CompileError.circularJoinDependency.inj hSame
  exact ⟨hResolve, hCycle.mp ⟨_, hResolve⟩, hReported⟩

end SqlStatement.Join
