import Mathlib.Order.Bounds.Basic
import SqlStatement.Proofs.JoinGraph

/-!
# The depths of the joins

The depth of a join is the length of the longest path of dependencies that
starts at it.  Relaxation finds the depths when there is no cycle, and fails
otherwise.

* `Join.Settled`: every join lies just above its dependencies.  Then the numbers
  are the depths (`Join.isDepth_of_settled`), and there is no cycle.
* `Join.path_lt_length`: without a cycle every path is shorter than the number
  of joins, which is why the rounds suffice.
* `Join.RightWithin`: the depths up to a bound are right.  A round leaves these
  alone and makes those right that are longer by one
  (`Join.isDepth_foldl_settle`, `Join.rightWithin_rounds`).
* `Join.settled_of_relax`, `Join.exists_relax_eq_ok`, `Join.relax_eq_error`: the
  outcome of relaxation.
-/

namespace SqlStatement.Join

/-! ### Paths -/

/-- A path of `n` dependencies starts at `j`. -/
inductive Path (joins : List Join) : Join → Nat → Prop
  | nil {j : Join} : Path joins j 0
  | cons {j k : Join} {n : Nat} : DependsOn joins j k → Path joins k n → Path joins j (n + 1)

/-- The longest path of dependencies that starts at `j` has length `n`. -/
def IsDepth (joins : List Join) (j : Join) (n : Nat) : Prop := IsGreatest {m | Path joins j m} n

/-- There is a cycle among the joins that are needed. -/
def Circular (joins : List Join) (mentioned : String → Prop) : Prop :=
  ∃ j, Needed joins mentioned j ∧ Relation.TransGen (DependsOn joins) j j

/-- No path that starts at `j` is longer than `n`. -/
def Within (joins : List Join) (n : Nat) (j : Join) : Prop := ∀ m, Path joins j m → m ≤ n

/-- The stored depths are right for the joins within `n`. -/
def RightWithin (joins kept : List Join) (n : Nat) (d : Depths) : Prop :=
  ∀ j ∈ kept, Within joins n j → IsDepth joins j (d.get j.name)

theorem Within.dependency {joins : List Join} {n : Nat} {j k : Join} (h : Within joins (n + 1) j)
    (hk : DependsOn joins j k) : Within joins n k :=
  fun m hm => Nat.le_of_succ_le_succ (h (m + 1) (.cons hk hm))

theorem Within.of_dependsOn {joins : List Join} {n : Nat} {j k : Join} (h : Within joins n j)
    (hk : DependsOn joins j k) : Within joins n k :=
  fun m hm => Nat.le_of_succ_le (h (m + 1) (.cons hk hm))

/-! ### Depths as they are stored -/

namespace Depths

theorem lookup_set (d : Depths) (a b : String) (n : Nat) :
    (d.set a n).lookup b = if b = a then (d.lookup a).map fun _ => n else d.lookup b := by
  induction d with
  | nil => simp [set]
  | cons p rest ih =>
    obtain ⟨c, m⟩ := p
    have hCons : set ((c, m) :: rest) a n = (if c = a then (a, n) else (c, m)) :: set rest a n := by
      simp [set]
    rw [hCons]
    by_cases hc : c = a
    · subst hc
      by_cases hb : b = c
      · simp [hb]
      · simp [List.lookup_cons, beq_false_of_ne hb, hb, ih]
    · rw [if_neg hc]
      by_cases hb : b = c
      · simp [hb, hc]
      · have hac : (a == c) = false := beq_false_of_ne (Ne.symm hc)
        simp [List.lookup_cons, beq_false_of_ne hb, hac, ih]

@[simp] theorem map_fst_set (d : Depths) (a : String) (n : Nat) :
    (d.set a n).map (·.1) = d.map (·.1) := by
  simp only [set, List.map_map]
  refine List.map_congr_left fun p _ => ?_
  by_cases h : p.1 = a <;> simp [h]

theorem get_set_self {d : Depths} {a : String} (n : Nat) (h : a ∈ d.map (·.1)) :
    (d.set a n).get a = n := by
  have hSome : (d.lookup a).isSome = true := by
    rw [List.lookup_isSome_iff]
    obtain ⟨p, hp, rfl⟩ := List.mem_map.mp h
    exact ⟨p, hp, beq_self_eq_true _⟩
  obtain ⟨m, hm⟩ := Option.isSome_iff_exists.mp hSome
  rw [get, lookup_set, if_pos rfl, hm]
  rfl

theorem get_set_of_ne (d : Depths) {a b : String} (n : Nat) (h : b ≠ a) :
    (d.set a n).get b = d.get b := by
  rw [get, lookup_set, if_neg h, get]

end Depths

theorem foldl_max_le_iff (l : List Nat) (m n : Nat) :
    l.foldl max m ≤ n ↔ m ≤ n ∧ ∀ x ∈ l, x ≤ n := by
  induction l generalizing m with
  | nil => simp
  | cons x rest ih => rw [List.foldl_cons, ih, Nat.max_le, List.forall_mem_cons, and_assoc]

theorem above_le_iff {d : Depths} {aliases : List String} {n : Nat} :
    above d aliases ≤ n ↔ ∀ a ∈ aliases, d.get a + 1 ≤ n := by
  simp [above, foldl_max_le_iff]

theorem le_above {d : Depths} {aliases : List String} {a : String} (h : a ∈ aliases) :
    d.get a + 1 ≤ above d aliases :=
  above_le_iff.mp (Nat.le_refl _) a h

/-- If the dependencies of a join are at their depths, the number above them is its depth. -/
theorem isDepth_above {joins : List Join} {base : String} (hBase : base ∉ joins.map name)
    {d : Depths} {j : Join} (h : ∀ k, DependsOn joins j k → IsDepth joins k (d.get k.name)) :
    IsDepth joins j (above d (dependencies joins base j)) := by
  constructor
  · show Path joins j _
    cases hAbove : above d (dependencies joins base j) with
    | zero => exact .nil
    | succ n =>
      have hNot : ¬ above d (dependencies joins base j) ≤ n := by omega
      rw [above_le_iff] at hNot
      simp only [not_forall] at hNot
      obtain ⟨a, ha, hLess⟩ := hNot
      have hLe := above_le_iff.mp (Nat.le_of_eq hAbove) a ha
      obtain ⟨k, hk, rfl⟩ := (mem_dependencies hBase).mp ha
      have hPath := (h k hk).1
      rw [show d.get k.name = n by omega] at hPath
      exact .cons hk hPath
  · intro m hm
    cases hm with
    | nil => exact Nat.zero_le _
    | cons hk hPath =>
      have hLe := le_above (d := d) ((mem_dependencies hBase).mpr ⟨_, hk, rfl⟩)
      exact Nat.le_trans (Nat.succ_le_succ ((h _ hk).2 hPath)) hLe

/-! ### One round -/

section Round

variable {dependenciesOf : Join → List String}

/-- Every join is just above its dependencies. -/
def Settled (dependenciesOf : Join → List String) (kept : List Join) (d : Depths) : Prop :=
  ∀ j ∈ kept, d.get j.name = above d (dependenciesOf j)

theorem map_fst_settle (state : Depths × List String) (j : Join) :
    (settle dependenciesOf state j).1.map (·.1) = state.1.map (·.1) := by
  rw [settle]
  split
  · rfl
  · exact Depths.map_fst_set _ _ _

/-- Settling a join puts it just above its dependencies. -/
theorem get_settle_self {state : Depths × List String} {j : Join}
    (h : j.name ∈ state.1.map (·.1)) :
    (settle dependenciesOf state j).1.get j.name = above state.1 (dependenciesOf j) := by
  rw [settle]
  split
  · next hSettled => exact hSettled
  · exact Depths.get_set_self _ h

theorem get_settle_of_ne (state : Depths × List String) {j : Join} {a : String}
    (h : a ≠ j.name) : (settle dependenciesOf state j).1.get a = state.1.get a := by
  rw [settle]
  split
  · rfl
  · exact Depths.get_set_of_ne _ _ h

theorem map_fst_foldl_settle : ∀ (l : List Join) (state : Depths × List String),
    (l.foldl (settle dependenciesOf) state).1.map (·.1) = state.1.map (·.1) := by
  intro l
  induction l with
  | nil => intro state; rfl
  | cons j rest ih =>
    intro state
    rw [List.foldl_cons, ih, map_fst_settle]

theorem get_foldl_settle_of_not_mem {a : String} : ∀ (l : List Join) (state : Depths × List String),
    a ∉ l.map name → (l.foldl (settle dependenciesOf) state).1.get a = state.1.get a := by
  intro l
  induction l with
  | nil => intro state _; rfl
  | cons j rest ih =>
    intro state h
    rw [List.map_cons, List.mem_cons, not_or] at h
    rw [List.foldl_cons, ih _ h.2, get_settle_of_ne state h.1]

/-- The joins that change come on record behind the others, in the order in which they are settled. -/
theorem exists_sublist_foldl_settle : ∀ (l : List Join) (state : Depths × List String),
    ∃ changed, changed.Sublist (l.map name) ∧
      (l.foldl (settle dependenciesOf) state).2 = state.2 ++ changed := by
  intro l
  induction l with
  | nil => intro state; exact ⟨[], List.Sublist.refl _, (List.append_nil _).symm⟩
  | cons j rest ih =>
    intro state
    obtain ⟨changed, hSublist, hRecord⟩ := ih (settle dependenciesOf state j)
    rw [List.map_cons, List.foldl_cons, hRecord, settle]
    split
    · exact ⟨changed, hSublist.cons j.name, rfl⟩
    · exact ⟨j.name :: changed, hSublist.cons_cons j.name, by simp⟩

theorem prefix_foldl_settle (l : List Join) (state : Depths × List String) :
    state.2 <+: (l.foldl (settle dependenciesOf) state).2 := by
  obtain ⟨changed, -, hRecord⟩ : ∃ changed, changed.Sublist (l.map name) ∧
      (l.foldl (settle dependenciesOf) state).2 = state.2 ++ changed :=
    exists_sublist_foldl_settle l state
  rw [hRecord]
  exact List.prefix_append _ _

/-- A round that changes nothing finds every join just above its dependencies. -/
theorem settled_of_foldl_settle : ∀ (l : List Join) (state : Depths × List String),
    (l.foldl (settle dependenciesOf) state).2 = state.2 →
    (l.foldl (settle dependenciesOf) state).1 = state.1 ∧ Settled dependenciesOf l state.1 := by
  intro l
  induction l with
  | nil =>
    intro state _
    exact ⟨rfl, fun j hj => absurd hj List.not_mem_nil⟩
  | cons j rest ih =>
    intro state h
    rw [List.foldl_cons] at h ⊢
    by_cases hj : state.1.get j.name = above state.1 (dependenciesOf j)
    · have hSettle : settle dependenciesOf state j = state := if_pos hj
      rw [hSettle] at h ⊢
      obtain ⟨hSame, hRest⟩ := ih state h
      exact ⟨hSame, List.forall_mem_cons.mpr ⟨hj, hRest⟩⟩
    · have hSettle : (settle dependenciesOf state j).2 = state.2 ++ [j.name] :=
        congrArg Prod.snd (if_neg hj)
      have hPrefix : (settle dependenciesOf state j).2 <+:
          (rest.foldl (settle dependenciesOf) (settle dependenciesOf state j)).2 :=
        prefix_foldl_settle rest _
      have hLength := hPrefix.length_le
      rw [h, hSettle, List.length_append, List.length_singleton] at hLength
      omega

end Round

/-! ### Settled joins -/

section Graph

variable {joins kept : List Join} {base : String} {d : Depths}

/-- Joins just above their dependencies are at their depths. -/
theorem isDepth_of_settled (hKept : SelfContained joins base kept)
    (hSettled : Settled (dependencies joins base) kept d) :
    ∀ j ∈ kept, IsDepth joins j (d.get j.name) := by
  intro j
  induction hd : d.get j.name using Nat.strong_induction_on generalizing j with
  | h n ih =>
    intro hj
    rw [← hd, hSettled j hj]
    refine isDepth_above hKept.base_not_mem ?_
    intro k hk
    have hMem := (mem_dependencies hKept.base_not_mem).mpr ⟨k, hk, rfl⟩
    have hLess := le_above (d := d) hMem
    rw [← hSettled j hj, hd] at hLess
    exact ih _ hLess k rfl (hKept.closed j hj k hk)

/-- All that a join depends on, at any distance, is kept and not as deep. -/
theorem lt_of_transGen (hKept : SelfContained joins base kept)
    (hSettled : Settled (dependencies joins base) kept d) {j k : Join} (hj : j ∈ kept)
    (h : Relation.TransGen (DependsOn joins) j k) : k ∈ kept ∧ d.get k.name < d.get j.name := by
  have hEdge : ∀ i ∈ kept, ∀ k, DependsOn joins i k → d.get k.name < d.get i.name := by
    intro i hi k hk
    rw [hSettled i hi]
    exact le_above ((mem_dependencies hKept.base_not_mem).mpr ⟨k, hk, rfl⟩)
  induction h with
  | single hk => exact ⟨hKept.closed j hj _ hk, hEdge j hj _ hk⟩
  | tail _ hk ih => exact ⟨hKept.closed _ ih.1 _ hk, Nat.lt_trans (hEdge _ ih.1 _ hk) ih.2⟩

/-! ### Joins without a cycle -/

/-- A path that meets no cycle never comes back to a join, so it is shorter than the number of
joins. -/
theorem path_lt_length (hKept : SelfContained joins base kept) {j : Join} {n : Nat}
    (hj : j ∈ kept) (hAcyclic : ∀ k, Relation.ReflTransGen (DependsOn joins) j k →
      ¬ Relation.TransGen (DependsOn joins) k k) (h : Path joins j n) : n < kept.length := by
  -- `seen` are the joins met on the way to `j`
  have hSeen : ∀ seen : List Join, seen.Nodup → (∀ s ∈ seen, s ∈ kept) →
      (∀ s ∈ seen, Relation.TransGen (DependsOn joins) s j) → seen.length + n < kept.length := by
    induction h with
    | @nil j =>
      intro seen hNodup hSubset hPath
      have hFresh : j ∉ seen := fun hMem => hAcyclic j .refl (hPath j hMem)
      have hLength := (List.nodup_cons.mpr ⟨hFresh, hNodup⟩).length_le_of_subset
        (List.cons_subset.mpr ⟨hj, hSubset⟩)
      rw [List.length_cons] at hLength
      omega
    | @cons j k n hk _ ih =>
      intro seen hNodup hSubset hPath
      have hFresh : j ∉ seen := fun hMem => hAcyclic j .refl (hPath j hMem)
      have hNext := ih (hKept.closed j hj k hk) (fun i hi => hAcyclic i (hi.head hk)) (j :: seen)
        (List.nodup_cons.mpr ⟨hFresh, hNodup⟩) (List.forall_mem_cons.mpr ⟨hj, hSubset⟩)
        (List.forall_mem_cons.mpr ⟨.single hk, fun s hs => (hPath s hs).tail hk⟩)
      rw [List.length_cons] at hNext
      omega
  have hLess := hSeen [] List.nodup_nil (by simp) (by simp)
  rwa [List.length_nil, Nat.zero_add] at hLess

/-! ### Depths that are right -/

/-- A join at its depth is left alone. -/
theorem RightWithin.settle_eq (hKept : SelfContained joins base kept) {n : Nat}
    {state : Depths × List String} (h : RightWithin joins kept n state.1) {j : Join} (hj : j ∈ kept)
    (hWithin : Within joins n j) : settle (dependencies joins base) state j = state := by
  refine if_pos ((h j hj hWithin).unique (isDepth_above hKept.base_not_mem fun k hk => ?_))
  exact h k (hKept.closed j hj k hk) (hWithin.of_dependsOn hk)

/-- Depths that are right stay right. -/
theorem RightWithin.settle (hKept : SelfContained joins base kept) {n : Nat}
    {state : Depths × List String} (h : RightWithin joins kept n state.1) {j : Join}
    (hj : j ∈ kept) : RightWithin joins kept n (settle (dependencies joins base) state j).1 := by
  by_cases hWithin : Within joins n j
  · rw [h.settle_eq hKept hj hWithin]
    exact h
  · intro k hk hShort
    have hName : k.name ≠ j.name := by
      intro hName
      rw [eq_of_name_eq hKept.nodup (hKept.mem_joins k hk) (hKept.mem_joins j hj) hName] at hShort
      exact hWithin hShort
    rw [get_settle_of_ne state hName]
    exact h k hk hShort

/-- A round over depths that are right within `n` finds those within `n + 1`. -/
theorem isDepth_foldl_settle (hKept : SelfContained joins base kept) (n : Nat) :
    ∀ (l : List Join) (state : Depths × List String), (∀ j ∈ l, j ∈ kept) → (l.map name).Nodup →
    (∀ j ∈ kept, j.name ∈ state.1.map (·.1)) →
    RightWithin joins kept n state.1 →
    ∀ k ∈ l, Within joins (n + 1) k →
      IsDepth joins k ((l.foldl (settle (dependencies joins base)) state).1.get k.name) := by
  intro l
  induction l with
  | nil =>
    intro state _ _ _ _ k hk
    exact absurd hk List.not_mem_nil
  | cons j rest ih =>
    intro state hl hNames hKeys h
    obtain ⟨hj, hRest⟩ := List.forall_mem_cons.mp hl
    obtain ⟨hFresh, hNames⟩ := List.nodup_cons.mp hNames
    have hHead : Within joins (n + 1) j →
        IsDepth joins j ((settle (dependencies joins base) state j).1.get j.name) := by
      intro hWithin
      rw [get_settle_self (hKeys j hj)]
      refine isDepth_above hKept.base_not_mem ?_
      intro k hk
      exact h k (hKept.closed j hj k hk) (hWithin.dependency hk)
    have hNext := h.settle hKept hj
    have hKeys : ∀ k ∈ kept, k.name
        ∈ (settle (dependencies joins base) state j).1.map (·.1) := by
      intro k hk
      rw [map_fst_settle]
      exact hKeys k hk
    intro k hk hWithin
    rw [List.foldl_cons]
    rcases List.mem_cons.mp hk with rfl | hk
    · rw [get_foldl_settle_of_not_mem rest _ hFresh]
      exact hHead hWithin
    · exact ih _ hRest hNames hKeys hNext k hk hWithin

/-! ### Rounds until nothing changes -/

/-- The joins that a round over these depths changes. -/
def changes (dependenciesOf : Join → List String) (kept : List Join) (d : Depths) : List String :=
  (round dependenciesOf kept d).2

theorem changes_sublist {dependenciesOf : Join → List String} :
    (changes dependenciesOf kept d).Sublist (kept.map name) := by
  obtain ⟨changed, hSublist, hRecord⟩ : ∃ changed, changed.Sublist (kept.map name) ∧
      changes dependenciesOf kept d = changed := exists_sublist_foldl_settle kept (d, [])
  rw [hRecord]
  exact hSublist

/-- The depths after `n` rounds. -/
def rounds (dependenciesOf : Join → List String) (kept : List Join) (n : Nat) (d : Depths) :
    Depths :=
  (fun d => (round dependenciesOf kept d).1)^[n] d

theorem settled_of_round {dependenciesOf : Join → List String} {d₁ : Depths}
    (h : round dependenciesOf kept d = (d₁, [])) : Settled dependenciesOf kept d₁ := by
  have hRound : kept.foldl (settle dependenciesOf) (d, []) = (d₁, []) := h
  have hNone : (kept.foldl (settle dependenciesOf) (d, [])).2 = [] := by rw [hRound]
  obtain ⟨hSame, hSettled⟩ := settled_of_foldl_settle kept (d, []) hNone
  rw [hRound] at hSame
  rw [show d₁ = d from hSame]
  exact hSettled

theorem settled_of_relax {dependenciesOf : Join → List String} : ∀ {n : Nat} {d d' : Depths},
    relax dependenciesOf kept n d = .ok d' → Settled dependenciesOf kept d' := by
  intro n
  induction n with
  | zero =>
    intro d d' h
    rw [relax] at h
    split at h
    · next d₁ hRound =>
      obtain rfl := Except.ok.inj h
      exact settled_of_round hRound
    · cases h
  | succ n ih =>
    intro d d' h
    rw [relax] at h
    split at h
    · next d₁ hRound =>
      obtain rfl := Except.ok.inj h
      exact settled_of_round hRound
    · exact ih h

/-- A failure reports the joins that the round after the first `n` still changes. -/
theorem relax_eq_error {dependenciesOf : Join → List String} : ∀ {n : Nat} {d : Depths}
    {e : CompileError}, relax dependenciesOf kept n d = .error e →
    e = .circularJoinDependency (changes dependenciesOf kept (rounds dependenciesOf kept n d)) ∧
      changes dependenciesOf kept (rounds dependenciesOf kept n d) ≠ [] := by
  intro n
  induction n with
  | zero =>
    intro d e h
    rw [relax] at h
    split at h
    · cases h
    · next d₁ changed hEmpty hRound =>
      have hChanges : changes dependenciesOf kept (rounds dependenciesOf kept 0 d) = changed :=
        congrArg Prod.snd hRound
      rw [hChanges]
      exact ⟨(Except.error.inj h).symm, hEmpty⟩
  | succ n ih =>
    intro d e h
    rw [relax] at h
    split at h
    · cases h
    · next d₁ changed hEmpty hRound =>
      have hNext : rounds dependenciesOf kept (n + 1) d = rounds dependenciesOf kept n d₁ := by
        rw [rounds, Function.iterate_succ_apply, hRound, rounds]
      rw [hNext]
      exact ih h

/-- Joins that are at their depths are left alone: a round changes only joins with longer paths. -/
theorem not_within_of_mem_changes (hKept : SelfContained joins base kept) {n : Nat}
    (h : RightWithin joins kept n d) {a : String}
    (ha : a ∈ changes (dependencies joins base) kept d) :
    ∃ j ∈ kept, j.name = a ∧ ¬ Within joins n j := by
  have hFold : ∀ (l : List Join) (state : Depths × List String), (∀ j ∈ l, j ∈ kept) →
      RightWithin joins kept n state.1 →
      ∀ a ∈ (l.foldl (settle (dependencies joins base)) state).2,
        a ∈ state.2 ∨ ∃ j ∈ kept, j.name = a ∧ ¬ Within joins n j := by
    intro l
    induction l with
    | nil => intro state _ _ a ha; exact .inl ha
    | cons j rest ih =>
      intro state hl hRight a ha
      obtain ⟨hj, hRest⟩ := List.forall_mem_cons.mp hl
      rw [List.foldl_cons] at ha
      by_cases hWithin : Within joins n j
      · rw [hRight.settle_eq hKept hj hWithin] at ha
        exact ih state hRest hRight a ha
      · rcases ih _ hRest (hRight.settle hKept hj) a ha with hBefore | hFound
        · rw [settle] at hBefore
          split at hBefore
          · exact .inl hBefore
          · rcases List.mem_append.mp hBefore with hBefore | hNew
            · exact .inl hBefore
            · exact .inr ⟨j, hj, (List.mem_singleton.mp hNew).symm, hWithin⟩
        · exact .inr hFound
  exact (hFold kept (d, []) (fun j hj => hj) h a ha).resolve_left List.not_mem_nil

/-- Each round makes the depths right that are longer by one. -/
theorem rightWithin_rounds (hKept : SelfContained joins base kept) (n : Nat) {r : Nat}
    (hKeys : ∀ j ∈ kept, j.name ∈ d.map (·.1)) (h : RightWithin joins kept r d) :
    RightWithin joins kept (r + n) (rounds (dependencies joins base) kept n d) := by
  induction n generalizing d r with
  | zero => exact h
  | succ n ih =>
    have hNext : RightWithin joins kept (r + 1) (round (dependencies joins base) kept d).1 :=
      isDepth_foldl_settle hKept r kept (d, []) (fun j hj => hj) hKept.nodup_kept hKeys h
    have hFst : (round (dependencies joins base) kept d).1.map (·.1) = d.map (·.1) :=
      map_fst_foldl_settle kept (d, [])
    rw [rounds, Function.iterate_succ_apply, Nat.add_comm n, ← Nat.add_assoc]
    exact ih (fun j hj => hFst ▸ hKeys j hj) hNext

/-- Relaxation ends when the depths within `r` are right and `n` more rounds suffice for the rest. -/
theorem exists_relax_eq_ok (hKept : SelfContained joins base kept) {n r : Nat}
    (hKeys : ∀ j ∈ kept, j.name ∈ d.map (·.1)) (hRight : RightWithin joins kept r d)
    (hWithin : ∀ j ∈ kept, Within joins (r + n) j) :
    ∃ d', relax (dependencies joins base) kept n d = .ok d' := by
  cases h : relax (dependencies joins base) kept n d with
  | ok d' => exact ⟨d', rfl⟩
  | error e =>
    obtain ⟨a, ha⟩ := List.exists_mem_of_ne_nil _ (relax_eq_error h).2
    obtain ⟨j, hj, -, hLong⟩ :=
      not_within_of_mem_changes hKept (rightWithin_rounds hKept n hKeys hRight) ha
    exact absurd (hWithin j hj) hLong

end Graph

end SqlStatement.Join
