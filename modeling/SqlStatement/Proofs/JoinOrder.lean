import Mathlib
import SqlStatement.Proofs.Aliases
import SqlStatement.Proofs.JoinDepth
import SqlStatement.Proofs.Mentions

/-!
# Which joins a pruned statement writes

A statement whose joins are pruned writes the joins it needs, each once, by
depth, mode and alias, so that a join stands behind all that its ON clause names.

* `Join.Pruned`: what the written joins have to be; `Join.Pruned.unique` says
  that this leaves one list.
* `Join.pruned_of_resolve`, `Join.exists_resolve_eq_error_iff`: resolving gives this
  list, unless there is a cycle.
* `Source.pruned_of_plan_eq_ok`: the joins of a plan that prunes.
-/

namespace SqlStatement

namespace Join

/-- By depth, then inner before left, then by alias. -/
def Before (depth : Join → Nat) (a b : Join) : Prop :=
  depth a < depth b ∨ depth a = depth b ∧
    (a.mode.rank < b.mode.rank ∨ a.mode.rank = b.mode.rank ∧ a.name < b.name)

structure Pruned (joins : List Join) (mentioned : String → Prop) (written : List Join) : Prop where
  mem_iff : ∀ j, j ∈ written ↔ Needed joins mentioned j
  names_nodup : (written.map name).Nodup
  ordered : ∃ depth : Join → Nat,
    (∀ j ∈ written, IsDepth joins j (depth j)) ∧ written.Pairwise (Before depth)
  dependency_before : ∀ before j after, written = before ++ j :: after →
    ∀ k, DependsOn joins j k → k ∈ before

theorem Before.asymm {depth : Join → Nat} {a b : Join} (h : Before depth a b) :
    ¬ Before depth b a := by
  intro h'
  rcases h with h | ⟨hDepth, h | ⟨hRank, h⟩⟩
  · rcases h' with h' | ⟨hDepth', -⟩ <;> omega
  · rcases h' with h' | ⟨-, h' | ⟨hRank', -⟩⟩ <;> omega
  · rcases h' with h' | ⟨-, h' | ⟨-, h'⟩⟩
    · omega
    · omega
    · exact String.lt_asymm h h'

/-! ### Sorting -/

section Sorting

variable {d : Depths} {a b c : Join}

theorem precedes_iff : precedes d a b = true ↔ d.get a.name < d.get b.name ∨
    d.get a.name = d.get b.name ∧
      (a.mode.rank < b.mode.rank ∨ a.mode.rank = b.mode.rank ∧ a.name ≤ b.name) := by
  simp [precedes]

theorem precedes_trans (hab : precedes d a b = true) (hbc : precedes d b c = true) :
    precedes d a c = true := by
  rw [precedes_iff] at *
  rcases hab with hab | ⟨hDepth, hab | ⟨hRank, hab⟩⟩
  · left; omega
  · rcases hbc with hbc | ⟨hDepth', hbc | ⟨hRank', hbc⟩⟩
    · left; omega
    · right; exact ⟨by omega, .inl (by omega)⟩
    · right; exact ⟨by omega, .inl (by omega)⟩
  · rcases hbc with hbc | ⟨hDepth', hbc | ⟨hRank', hbc⟩⟩
    · left; omega
    · right; exact ⟨by omega, .inl (by omega)⟩
    · right; exact ⟨by omega, .inr ⟨by omega, String.le_trans hab hbc⟩⟩

theorem precedes_total : (precedes d a b || precedes d b a) = true := by
  rw [Bool.or_eq_true, precedes_iff, precedes_iff]
  rcases Nat.lt_trichotomy (d.get a.name) (d.get b.name) with h | h | h
  · exact .inl (.inl h)
  · rcases Nat.lt_trichotomy a.mode.rank b.mode.rank with h' | h' | h'
    · exact .inl (.inr ⟨h, .inl h'⟩)
    · rcases String.le_total a.name b.name with h'' | h''
      · exact .inl (.inr ⟨h, .inr ⟨h', h''⟩⟩)
      · exact .inr (.inr ⟨h.symm, .inr ⟨h'.symm, h''⟩⟩)
    · exact .inr (.inr ⟨h.symm, .inl h'⟩)
  · exact .inr (.inl h)

/-- Joins with different aliases are in strict order. -/
theorem before_of_precedes (h : precedes d a b = true) (hName : a.name ≠ b.name) :
    Before (fun j => d.get j.name) a b := by
  rcases precedes_iff.mp h with h | ⟨hDepth, h | ⟨hRank, h⟩⟩
  · exact .inl h
  · exact .inr ⟨hDepth, .inl h⟩
  · exact .inr ⟨hDepth, .inr ⟨hRank, String.not_le.mp fun h' => hName (String.le_antisymm h h')⟩⟩

end Sorting

/-! ### Resolving -/

section Resolve

variable {joins written : List Join} {base : String} {referenced : List String}

theorem get_initial (kept : List Join) (a : String) :
    Depths.get (kept.map fun j => (j.name, 0)) a = 0 := by
  induction kept with
  | nil => rfl
  | cons j rest ih =>
    rw [Depths.get] at ih ⊢
    rw [List.map_cons, List.lookup_cons]
    split
    · rfl
    · exact ih

theorem mem_initial (kept : List Join) :
    ∀ j ∈ kept, j.name ∈ (kept.map fun j => (j.name, 0)).map (·.1) := by
  intro j hj
  simpa using ⟨j, hj, rfl⟩

/-- The joins that depend on nothing are at their depths from the start. -/
theorem rightWithin_initial (kept : List Join) :
    RightWithin joins kept 0 (kept.map fun j => (j.name, 0)) := by
  intro j _ hWithin
  rw [get_initial]
  exact ⟨.nil, hWithin⟩

/-- A join that is kept and reaches no cycle starts no path longer than the number of joins. -/
theorem within_length (hNodup : (joins.map name).Nodup) (hBase : base ∉ joins.map name) {j : Join}
    (hj : j ∈ survivors joins base referenced)
    (hAcyclic : ∀ k, Relation.ReflTransGen (DependsOn joins) j k →
      ¬ Relation.TransGen (DependsOn joins) k k) : Within joins joins.length j := by
  intro m hm
  have hLess := path_lt_length (selfContained_survivors hNodup hBase) hj hAcyclic hm
  have hLength : (survivors joins base referenced).length ≤ joins.length := length_survivors_le
  omega

/-- Without a cycle there is a result. -/
theorem exists_resolve_eq_ok (hNodup : (joins.map name).Nodup) (hBase : base ∉ joins.map name)
    (hAcyclic : ¬ Circular joins (· ∈ referenced)) :
    ∃ written, resolve joins base referenced = .ok written := by
  have hKept : SelfContained joins base (survivors joins base referenced) :=
    selfContained_survivors hNodup hBase
  have hCycle : ∀ j ∈ survivors joins base referenced,
      ¬ Relation.TransGen (DependsOn joins) j j := by
    intro j hj h
    exact hAcyclic ⟨j, (mem_survivors_iff hNodup hBase).mp hj, h⟩
  have hBound : ∀ j ∈ survivors joins base referenced, Within joins (0 + joins.length) j := by
    intro j hj
    rw [Nat.zero_add]
    refine within_length hNodup hBase hj fun k hk => hCycle k ?_
    exact hKept.mem_of_reflTransGen hj hk
  obtain ⟨d, hRelax⟩ := exists_relax_eq_ok hKept (mem_initial _) (rightWithin_initial _) hBound
  rw [resolve, hRelax]
  exact ⟨_, rfl⟩

/-- A result is sorted: it holds what was kept, in strict order. -/
theorem pairwise_before {kept : List Join} (hNames : (kept.map name).Nodup) (d : Depths) :
    (kept.mergeSort (precedes d)).Pairwise (Before fun j => d.get j.name) := by
  have hPerm := List.mergeSort_perm kept (precedes d)
  have hDistinct : (kept.mergeSort (precedes d)).Pairwise fun a b => a.name ≠ b.name :=
    List.pairwise_map.mp ((hPerm.map name).nodup_iff.mpr hNames)
  have hSorted : (kept.mergeSort (precedes d)).Pairwise fun a b => precedes d a b = true :=
    @List.pairwise_mergeSort _ (precedes d) (fun _ _ _ => precedes_trans)
      (fun _ _ => precedes_total) kept
  refine (hSorted.and hDistinct).imp ?_
  rintro a b ⟨hPrecedes, hName⟩
  exact before_of_precedes hPrecedes hName

theorem pruned_of_resolve (hNodup : (joins.map name).Nodup) (hBase : base ∉ joins.map name)
    (h : resolve joins base referenced = .ok written) :
    Pruned joins (· ∈ referenced) written ∧ ¬ Circular joins (· ∈ referenced) := by
  rw [resolve] at h
  split at h
  · cases h
  · next d hRelax =>
    obtain rfl := Except.ok.inj h
    have hKept : SelfContained joins base (survivors joins base referenced) :=
      selfContained_survivors hNodup hBase
    have hSettled := settled_of_relax hRelax
    have hDepth := isDepth_of_settled hKept hSettled
    have hPerm := List.mergeSort_perm (survivors joins base referenced) (precedes d)
    have hOrdered := pairwise_before hKept.nodup_kept d
    refine ⟨⟨?_, ?_, ⟨fun j => d.get j.name, ?_, hOrdered⟩, ?_⟩, ?_⟩
    · intro j
      exact hPerm.mem_iff.trans (mem_survivors_iff hNodup hBase)
    · exact (hPerm.map name).nodup_iff.mpr hKept.nodup_kept
    · intro j hj
      exact hDepth j (hPerm.mem_iff.mp hj)
    · intro before j after hSplit k hk
      have hj : j ∈ survivors joins base referenced :=
        hPerm.mem_iff.mp (hSplit ▸ List.mem_append_right _ List.mem_cons_self)
      obtain ⟨hMem, hLess⟩ := lt_of_transGen hKept hSettled hj (.single hk)
      have hMem := hPerm.mem_iff.mpr hMem
      rw [hSplit] at hMem hOrdered
      -- nothing from `j` on is less deep than `j`
      rcases List.mem_append.mp hMem with hMem | hMem
      · exact hMem
      · rcases List.mem_cons.mp hMem with rfl | hMem
        · exact absurd hLess (Nat.lt_irrefl _)
        · have hAfter := (List.pairwise_append.mp hOrdered).2.1
          rcases (List.pairwise_cons.mp hAfter).1 k hMem with hDeeper | ⟨hSame, -⟩
          · exact absurd hDeeper (Nat.lt_asymm hLess)
          · exact absurd hSame.symm (Nat.ne_of_lt hLess)
    · rintro ⟨j, hNeeded, hCycle⟩
      have hj := (mem_survivors_iff hNodup hBase).mpr hNeeded
      exact absurd (lt_of_transGen hKept hSettled hj hCycle).2 (Nat.lt_irrefl _)

/-- Resolving fails exactly when there is a cycle. -/
theorem exists_resolve_eq_error_iff (hNodup : (joins.map name).Nodup)
    (hBase : base ∉ joins.map name) :
    (∃ e, resolve joins base referenced = .error e) ↔ Circular joins (· ∈ referenced) := by
  constructor
  · rintro ⟨e, he⟩
    by_contra hAcyclic
    obtain ⟨written, hOk⟩ := exists_resolve_eq_ok hNodup hBase hAcyclic
    rw [he] at hOk
    cases hOk
  · intro hCircular
    cases h : resolve joins base referenced with
    | error e => exact ⟨e, rfl⟩
    | ok written => exact absurd hCircular (pruned_of_resolve hNodup hBase h).2

/-- A failure reports some of the needed joins. -/
theorem resolve_eq_error (hNodup : (joins.map name).Nodup) (hBase : base ∉ joins.map name)
    {e : CompileError} (h : resolve joins base referenced = .error e) :
    ∃ aliases, e = .circularJoinDependency aliases ∧ aliases ≠ [] ∧
      ∀ a ∈ aliases, ∃ j, Needed joins (· ∈ referenced) j ∧ j.name = a := by
  rw [resolve] at h
  split at h
  · next e' hRelax =>
    obtain rfl := Except.error.inj h
    obtain ⟨rfl, hNonempty⟩ := relax_eq_error hRelax
    refine ⟨_, rfl, hNonempty, fun a ha => ?_⟩
    obtain ⟨j, hj, rfl⟩ := List.mem_map.mp (changes_sublist.subset ha)
    exact ⟨j, (mem_survivors_iff hNodup hBase).mp hj, rfl⟩
  · cases h

end Resolve

/-! ### There is only one such list -/

theorem Pruned.unique {joins a b : List Join} {mentioned : String → Prop}
    (ha : Pruned joins mentioned a) (hb : Pruned joins mentioned b) : a = b := by
  obtain ⟨depth, hDepth, hSorted⟩ := ha.ordered
  obtain ⟨depth', hDepth', hSorted'⟩ := hb.ordered
  have hMem : ∀ j, j ∈ a ↔ j ∈ b := fun j => (ha.mem_iff j).trans (hb.mem_iff j).symm
  have hPerm : a.Perm b :=
    (List.perm_ext_iff_of_nodup ha.names_nodup.of_map hb.names_nodup.of_map).mpr hMem
  have hSame : ∀ j ∈ b, depth' j = depth j := fun j hj =>
    (hDepth' j hj).unique (hDepth j ((hMem j).mpr hj))
  have hSorted' : b.Pairwise (Before depth) := by
    refine hSorted'.imp_of_mem fun {i j} hi hj hBefore => ?_
    rw [Before, hSame i hi, hSame j hj] at hBefore
    exact hBefore
  exact hPerm.eq_of_pairwise (fun i j _ _ hij hji => absurd hji hij.asymm) hSorted hSorted'

end Join

/-! ### Planned statements -/

theorem Source.pruned_of_plan_eq_ok {s : Source} {force : Bool} {reserved mentioned : List String}
    {uses : String → Prop} (hUses : ∀ field, field ∈ mentioned ↔ uses field)
    (hPrune : s.prune = true) {p : Plan} (h : s.plan force reserved mentioned = .ok p) :
    Join.Pruned s.joins (Mentions uses) p.joins := by
  rw [← mem_qualifiers_iff hUses]
  rw [plan] at h
  split at h
  · cases h
  · next naming hAssign =>
    obtain ⟨⟨hNodup, -⟩, hBase, -⟩ := Naming.assign_eq_ok hAssign
    split at h
    · split at h
      · cases h
      · next joins hResolve =>
        obtain rfl := Except.ok.inj h
        exact (Join.pruned_of_resolve hNodup hBase hResolve).1
    · next hEmpty =>
      obtain rfl := Except.ok.inj h
      have hJoins : s.joins = [] := by simpa [hPrune] using hEmpty
      rw [hJoins]
      refine ⟨fun j => ?_, List.nodup_nil, ⟨fun _ => 0, by simp, List.Pairwise.nil⟩, by simp⟩
      exact ⟨fun hj => absurd hj List.not_mem_nil, fun hj => absurd hj.mem List.not_mem_nil⟩

theorem Select.joins_infix_script {s : Select} {correlation : Option Correlation} {p : Plan}
    (h : s.plan correlation = .ok p) :
    Join.scripts p.naming p.joins <:+: s.script correlation := by
  obtain ⟨source, selection, filter, json⟩ := s
  rw [script, h]
  refine List.IsInfix.trans ?_ (List.prefix_append _ _).isInfix
  refine List.IsInfix.trans ?_ (List.prefix_append _ _).isInfix
  exact (List.suffix_append _ _).isInfix

/-- Three joins in a row, declared from the far end, and one that nothing needs. -/
def Source.chained : Source :=
  { Source.ofTable "orders" with
    joins := [⟨.left, "regions", "r", "id", "c.region_id", []⟩,
      ⟨.inner, "users", "u", "id", "user_id", []⟩, ⟨.inner, "tags", "t", "id", "tag_id", []⟩,
      ⟨.left, "cities", "c", "id", "u.city_id", [.column "country" "u.country"]⟩]
    prune := true }

/-- It mentions the far end. -/
def Select.chained : Select := ⟨.chained, { Selection.all with group := ["r.name"] }, .any, []⟩

example : (Select.chained.plan none).toOption.map (·.joins.map Join.name)
    = some ["u", "c", "r"] := by cbv

def Update.chained : Update := ⟨.chained, [⟨"c.size", .assign, .null⟩], none, .any⟩

def Delete.chained : Delete :=
  ⟨.chained, Filter.any.orGroup (Filter.any.condition "u.name" .null)⟩

theorem exists_ok_of_toOption {ε α β : Type} {r : Except ε α} {f : α → β} {b : β}
    (h : r.toOption.map f = some b) : ∃ a, r = .ok a ∧ f a = b := by
  cases r with
  | error e => cases h
  | ok a => exact ⟨a, rfl, Option.some.inj h⟩

end SqlStatement
