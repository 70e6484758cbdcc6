import Mathlib.Data.List.Nodup
import Mathlib.Logic.Relation
import SqlStatement.Join.Resolution

/-!
# The joins that are needed

The ON clauses of the declared joins form a graph: a join depends on the joins
whose aliases it names.  Needed are the joins that the statement mentions and
all that these depend on.

* `Join.DependsOn`, `Join.Needed`: the graph and what is reached in it.
* `Join.mem_dependencies`: the dependencies that are computed are those of the
  graph.
* `Join.SelfContained`: the joins that are kept hold all that they depend on.
* `Join.mem_survivors_iff`: the joins that are kept are the needed ones.  As long
  as growing adds something, the list of kept joins gets longer, so it has
  stopped once as many rounds have passed as there are joins.
-/

namespace SqlStatement.Join

/-- The ON clause of `j` names the alias of the declared join `k`. -/
def DependsOn (joins : List Join) (j k : Join) : Prop :=
  k ∈ joins ∧ k.name ≠ j.name ∧ ∃ field ∈ j.foreignFields, Field.qualifier? field = some k.name

/-- The least set of declared joins that holds what is mentioned and what its members depend on. -/
inductive Needed (joins : List Join) (mentioned : String → Prop) : Join → Prop
  | mentioned {j : Join} : j ∈ joins → mentioned j.name → Needed joins mentioned j
  | dependency {j k : Join} : Needed joins mentioned j → DependsOn joins j k →
      Needed joins mentioned k

theorem Needed.mem {joins : List Join} {mentioned : String → Prop} {j : Join}
    (h : Needed joins mentioned j) : j ∈ joins := by
  cases h with
  | mentioned hj _ => exact hj
  | dependency _ hk => exact hk.1

theorem eq_of_name_eq {joins : List Join} (hNodup : (joins.map name).Nodup) {j k : Join}
    (hj : j ∈ joins) (hk : k ∈ joins) (h : j.name = k.name) : j = k :=
  List.inj_on_of_nodup_map hNodup hj hk h

/-! ### The edges that are computed -/

section Dependencies

variable {joins : List Join} {base : String} {j k : Join} {a : String}

theorem mem_references : a ∈ j.references ↔
    a ≠ j.name ∧ ∃ field ∈ j.foreignFields, Field.qualifier? field = some a := by
  simp [references, Field.qualifiers, and_comm]

theorem mem_dependencies (hBase : base ∉ joins.map name) :
    a ∈ dependencies joins base j ↔ ∃ k, DependsOn joins j k ∧ k.name = a := by
  rw [dependencies, List.mem_filter, mem_references]
  simp only [Bool.and_eq_true, bne_iff_ne, List.any_eq_true, beq_iff_eq]
  constructor
  · rintro ⟨⟨hSelf, hField⟩, -, k, hk, rfl⟩
    exact ⟨k, ⟨hk, hSelf, hField⟩, rfl⟩
  · rintro ⟨k, ⟨hk, hSelf, hField⟩, rfl⟩
    exact ⟨⟨hSelf, hField⟩, fun h => hBase (h ▸ List.mem_map_of_mem hk), k, hk, rfl⟩

theorem dependsOn_of_mem_dependencies (hNodup : (joins.map name).Nodup)
    (hBase : base ∉ joins.map name) (hk : k ∈ joins) (h : k.name ∈ dependencies joins base j) :
    DependsOn joins j k := by
  obtain ⟨k', hDepends, hName⟩ := (mem_dependencies hBase).mp h
  rwa [eq_of_name_eq hNodup hk hDepends.1 hName.symm]

theorem dependencies_perm {joins' : List Join} (h : joins.Perm joins') :
    dependencies joins base j = dependencies joins' base j := by
  have hAny : ∀ a, joins.any (·.name == a) = joins'.any (·.name == a) := fun a => h.any_eq
  simp only [dependencies, hAny]

end Dependencies

/-! ### Growing -/

section Growing

variable {ordered kept : List Join} (base : String)

/-- Growing keeps what there is. -/
theorem sublist_grow (h : kept.Sublist ordered) : kept.Sublist (grow ordered base kept) := by
  have hSelf : kept.filter (fun j => kept.any fun k => k.name == j.name
      || (dependencies ordered base k).contains j.name) = kept := by
    refine List.filter_eq_self.mpr fun j hj => List.any_eq_true.mpr ⟨j, hj, ?_⟩
    rw [beq_self_eq_true, Bool.true_or]
  have hFilter := h.filter fun j => kept.any fun k => k.name == j.name
    || (dependencies ordered base k).contains j.name
  rwa [hSelf] at hFilter

theorem grow_sublist : (grow ordered base kept).Sublist ordered := List.filter_sublist

theorem repeat_grow_sublist (h : kept.Sublist ordered) (m : Nat) :
    (Nat.repeat (grow ordered base) m kept).Sublist ordered := by
  cases m with
  | zero => exact h
  | succ m => exact grow_sublist base

theorem sublist_repeat_grow (h : kept.Sublist ordered) (m : Nat) :
    kept.Sublist (Nat.repeat (grow ordered base) m kept) := by
  induction m with
  | zero => exact List.Sublist.refl kept
  | succ m ih => exact ih.trans (sublist_grow base (repeat_grow_sublist base h m))

/-- After `m` rounds nothing changes any more, or there are at least `m` joins. -/
theorem grow_repeat_grow_or_le_length (h : kept.Sublist ordered) (m : Nat) :
    grow ordered base (Nat.repeat (grow ordered base) m kept)
        = Nat.repeat (grow ordered base) m kept ∨
      m ≤ (Nat.repeat (grow ordered base) m kept).length := by
  induction m with
  | zero => exact .inr (Nat.zero_le _)
  | succ m ih =>
    rw [Nat.repeat]
    have hGrow := sublist_grow base (repeat_grow_sublist base h m)
    by_cases hFixed : grow ordered base (Nat.repeat (grow ordered base) m kept)
        = Nat.repeat (grow ordered base) m kept
    · exact .inl (by rw [hFixed, hFixed])
    · refine .inr ?_
      have hBefore := ih.resolve_left hFixed
      have hLonger : (Nat.repeat (grow ordered base) m kept).length
          ≠ (grow ordered base (Nat.repeat (grow ordered base) m kept)).length :=
        fun he => hFixed (hGrow.eq_of_length he).symm
      have hLength := hGrow.length_le
      omega

theorem grow_repeat_grow (h : kept.Sublist ordered) :
    grow ordered base (Nat.repeat (grow ordered base) ordered.length kept)
      = Nat.repeat (grow ordered base) ordered.length kept := by
  rcases grow_repeat_grow_or_le_length base h ordered.length with hFixed | hLength
  · exact hFixed
  · have hGrow := sublist_grow base (repeat_grow_sublist base h ordered.length)
    exact (hGrow.eq_of_length_le (Nat.le_trans (grow_sublist base).length_le hLength)).symm

end Growing

/-! ### What survives -/

section Survivors

variable {joins : List Join} {base : String} {referenced : List String}

theorem byAlias_perm (joins : List Join) : (byAlias joins).Perm joins := List.mergeSort_perm _ _

/-- Some of the declared joins, each once, with all that they depend on.  Every alias stands for one
table. -/
structure SelfContained (joins : List Join) (base : String) (kept : List Join) : Prop where
  nodup : (joins.map name).Nodup
  base_not_mem : base ∉ joins.map name
  mem_joins : ∀ j ∈ kept, j ∈ joins
  nodup_kept : (kept.map name).Nodup
  closed : ∀ j ∈ kept, ∀ k, DependsOn joins j k → k ∈ kept

theorem SelfContained.mem_of_reflTransGen {kept : List Join} (hKept : SelfContained joins base kept)
    {j k : Join} (hj : j ∈ kept) (h : Relation.ReflTransGen (DependsOn joins) j k) : k ∈ kept := by
  induction h with
  | refl => exact hj
  | tail _ hk ih => exact hKept.closed _ ih _ hk

theorem survivors_sublist : (survivors joins base referenced).Sublist (byAlias joins) :=
  repeat_grow_sublist base List.filter_sublist _

theorem mem_of_mem_survivors {j : Join} (h : j ∈ survivors joins base referenced) : j ∈ joins :=
  (byAlias_perm joins).mem_iff.mp (survivors_sublist.subset h)

theorem nodup_survivors (hNodup : (joins.map name).Nodup) :
    ((survivors joins base referenced).map name).Nodup :=
  (((byAlias_perm joins).map name).nodup_iff.mpr hNodup).sublist (survivors_sublist.map name)

theorem length_survivors_le : (survivors joins base referenced).length ≤ joins.length := by
  rw [← (byAlias_perm joins).length_eq]
  exact survivors_sublist.length_le

/-- The dependencies of what survives survive. -/
theorem mem_survivors_of_dependsOn (hBase : base ∉ joins.map name) {j k : Join}
    (hj : j ∈ survivors joins base referenced) (h : DependsOn joins j k) :
    k ∈ survivors joins base referenced := by
  have hFixed : grow (byAlias joins) base (survivors joins base referenced)
      = survivors joins base referenced := grow_repeat_grow base List.filter_sublist
  rw [← hFixed, grow, List.mem_filter]
  refine ⟨(byAlias_perm joins).mem_iff.mpr h.1, List.any_eq_true.mpr ⟨j, hj, ?_⟩⟩
  rw [Bool.or_eq_true, List.contains_iff_mem, dependencies_perm (byAlias_perm joins)]
  exact .inr ((mem_dependencies hBase).mpr ⟨k, h, rfl⟩)

theorem selfContained_survivors (hNodup : (joins.map name).Nodup)
    (hBase : base ∉ joins.map name) :
    SelfContained joins base (survivors joins base referenced) where
  nodup := hNodup
  base_not_mem := hBase
  mem_joins := fun _ hj => mem_of_mem_survivors hj
  nodup_kept := nodup_survivors hNodup
  closed := fun _ hj _ hk => mem_survivors_of_dependsOn hBase hj hk

theorem needed_of_mem_repeat_grow (hNodup : (joins.map name).Nodup) (hBase : base ∉ joins.map name)
    {mentioned : String → Prop} {kept : List Join} (h : ∀ j ∈ kept, Needed joins mentioned j)
    (m : Nat) : ∀ j ∈ Nat.repeat (grow (byAlias joins) base) m kept, Needed joins mentioned j := by
  induction m with
  | zero => exact h
  | succ m ih =>
    intro j hj
    obtain ⟨hj, hKept⟩ := List.mem_filter.mp hj
    have hj := (byAlias_perm joins).mem_iff.mp hj
    obtain ⟨k, hk, hLink⟩ := List.any_eq_true.mp hKept
    rw [Bool.or_eq_true, beq_iff_eq, List.contains_iff_mem,
      dependencies_perm (byAlias_perm joins)] at hLink
    rcases hLink with hName | hLink
    · rw [← eq_of_name_eq hNodup (ih k hk).mem hj hName]
      exact ih k hk
    · exact .dependency (ih k hk) (dependsOn_of_mem_dependencies hNodup hBase hj hLink)

/-- The joins that survive are the needed ones. -/
theorem mem_survivors_iff (hNodup : (joins.map name).Nodup) (hBase : base ∉ joins.map name)
    {j : Join} : j ∈ survivors joins base referenced ↔ Needed joins (· ∈ referenced) j := by
  constructor
  · intro hj
    refine needed_of_mem_repeat_grow hNodup hBase (fun k hk => ?_) _ j hj
    obtain ⟨hk, hMentioned⟩ := List.mem_filter.mp hk
    exact .mentioned ((byAlias_perm joins).mem_iff.mp hk) (List.contains_iff_mem.mp hMentioned)
  · intro hj
    induction hj with
    | mentioned hj hMentioned =>
      refine (sublist_repeat_grow base List.filter_sublist _).subset (List.mem_filter.mpr ⟨?_, ?_⟩)
      · exact (byAlias_perm joins).mem_iff.mpr hj
      · exact List.contains_iff_mem.mpr hMentioned
    | dependency _ hDepends ih => exact mem_survivors_of_dependsOn hBase ih hDepends

end Survivors

end SqlStatement.Join
