import Mathlib.Data.List.Find
import SqlStatement.Naming

/-!
# Which aliases a statement gets

* `Naming.Collides`: the first join whose alias is taken, at which claiming the
  aliases of the joins fails.
* `Naming.chooseBase_eq`: the base table gets the first of its preferred alias
  and the letters that is not empty and not taken.
* `Naming.assign_eq_ok`, `Naming.assign_eq_error_iff`: what holds of an assignment
  that succeeds, and why one fails.
* `Naming.owner`: the alias under which a field is written.
-/

namespace SqlStatement.Naming

/-! ### The aliases of the joins -/

/-- The joins have different aliases, none of them taken. -/
def Clear (taken : List String) (joins : List Join) : Prop :=
  (joins.map Join.name).Nodup ∧ ∀ j ∈ joins, j.name ∉ taken

theorem clear_nil (taken : List String) : Clear taken [] := ⟨List.nodup_nil, by simp⟩

theorem clear_cons {taken : List String} {j : Join} {rest : List Join} :
    Clear taken (j :: rest) ↔ j.name ∉ taken ∧ Clear (taken ++ [j.name]) rest := by
  constructor
  · rintro ⟨hNodup, hTaken⟩
    rw [List.map_cons, List.nodup_cons] at hNodup
    refine ⟨hTaken j List.mem_cons_self, hNodup.2, fun k hk hMem => ?_⟩
    rcases List.mem_append.mp hMem with hMem | hMem
    · exact hTaken k (List.mem_cons_of_mem j hk) hMem
    · exact hNodup.1 (List.mem_map.mpr ⟨k, hk, List.mem_singleton.mp hMem⟩)
  · rintro ⟨hj, hNodup, hTaken⟩
    refine ⟨?_, ?_⟩
    · rw [List.map_cons, List.nodup_cons]
      refine ⟨fun hMem => ?_, hNodup⟩
      obtain ⟨k, hk, hName⟩ := List.mem_map.mp hMem
      exact hTaken k hk (List.mem_append_right _ (List.mem_singleton.mpr hName))
    · rintro k hk
      rcases List.mem_cons.mp hk with rfl | hk
      · exact hj
      · exact fun hMem => hTaken k hk (List.mem_append_left _ hMem)

theorem clear_append {taken : List String} : ∀ {a b : List Join},
    Clear taken (a ++ b) ↔ Clear taken a ∧ Clear (taken ++ a.map Join.name) b := by
  intro a
  induction a generalizing taken with
  | nil => intro b; simp [clear_nil]
  | cons j rest ih => intro b; rw [List.cons_append, clear_cons, clear_cons, ih]; simp [and_assoc]

/-- The first join whose alias is taken, by what was taken before or by a join in front of it. -/
def Collides (taken : List String) (joins : List Join) (j : Join) : Prop :=
  ∃ before after, joins = before ++ j :: after ∧ Clear taken before ∧
    j.name ∈ taken ++ before.map Join.name

theorem Collides.not_clear {taken : List String} {joins : List Join} {j : Join}
    (h : Collides taken joins j) : ¬ Clear taken joins := by
  obtain ⟨before, after, rfl, -, hMem⟩ := h
  intro hClear
  exact (clear_cons.mp (clear_append.mp hClear).2).1 hMem

theorem claim_of_clear : ∀ (joins : List Join) (taken : List (String × String)),
    Clear (taken.map (·.1)) joins →
    claim taken joins = .ok (taken ++ joins.map fun j => (j.name, j.table)) := by
  intro joins
  induction joins with
  | nil => intro taken _; simp [claim]
  | cons j rest ih =>
    intro taken h
    obtain ⟨hj, hRest⟩ := clear_cons.mp h
    have hRest : Clear ((taken ++ [(j.name, j.table)]).map (·.1)) rest := by
      rw [List.map_append]
      exact hRest
    rw [claim, if_neg (by simpa using hj), ih _ hRest]
    simp

theorem claim_of_collides {joins : List Join} {taken : List (String × String)} {j : Join}
    (h : Collides (taken.map (·.1)) joins j) :
    claim taken joins = .error (.joinAliasCollision j.name j.table) := by
  obtain ⟨before, after, rfl, hClear, hMem⟩ := h
  induction before generalizing taken with
  | nil =>
    rw [List.map_nil, List.append_nil] at hMem
    rw [List.nil_append, claim, if_pos (List.contains_iff_mem.mpr hMem)]
  | cons k rest ih =>
    obtain ⟨hk, hRest⟩ := clear_cons.mp hClear
    rw [List.cons_append, claim, if_neg (by simpa using hk)]
    refine ih ?_ ?_
    · rw [List.map_append]
      exact hRest
    · rw [List.map_append, List.append_assoc]
      exact hMem

theorem clear_or_collides (taken : List String) (joins : List Join) :
    Clear taken joins ∨ ∃ j, Collides taken joins j := by
  induction joins generalizing taken with
  | nil => exact .inl (clear_nil taken)
  | cons j rest ih =>
    by_cases hj : j.name ∈ taken
    · exact .inr ⟨j, [], rest, rfl, clear_nil taken, by simpa using hj⟩
    · rcases ih (taken ++ [j.name]) with hRest | ⟨k, before, after, hSplit, hClear, hMem⟩
      · exact .inl (clear_cons.mpr ⟨hj, hRest⟩)
      · refine .inr ⟨k, j :: before, after, by rw [hSplit]; rfl, clear_cons.mpr ⟨hj, hClear⟩, ?_⟩
        rw [List.append_assoc] at hMem
        exact hMem

/-! ### The alias of the base table -/

/-- The aliases the base table may get, the first one it can have. -/
def candidates (table : String) (requested : Option String) : List String :=
  preferred table requested :: letters

/-- The first candidate that is not empty and not taken. -/
def free? (taken : List String) (table : String) (requested : Option String) : Option String :=
  (candidates table requested).find? fun a => a != "" && !taken.contains a

theorem letters_ne_empty : ∀ l ∈ letters, l ≠ "" := by decide

theorem find?_letters (taken : List String) :
    letters.find? (fun a => a != "" && !taken.contains a)
      = letters.find? fun a => !taken.contains a := by
  refine List.find?_congr fun a ha => ?_
  rw [bne_iff_ne.mpr (letters_ne_empty a ha), Bool.true_and]

theorem chooseBase_eq (taken : List String) (table : String) (requested : Option String) :
    chooseBase taken table requested = match free? taken table requested with
      | some base => .ok base
      | none => .error (.aliasExhausted table) := by
  rw [chooseBase, free?, candidates, List.find?_cons, find?_letters]
  cases (preferred table requested != "" && !taken.contains (preferred table requested)) <;> rfl

theorem not_mem_of_free? {taken : List String} {table base : String} {requested : Option String}
    (h : free? taken table requested = some base) : base ≠ "" ∧ base ∉ taken := by
  have hBase := List.find?_some h
  simpa using hBase

/-- No alias is left when the preferred one is empty or taken, and all letters are taken. -/
theorem free?_eq_none_iff {taken : List String} {table : String} {requested : Option String} :
    free? taken table requested = none ↔
      (preferred table requested = "" ∨ preferred table requested ∈ taken) ∧
        ∀ l ∈ letters, l ∈ taken := by
  rw [free?, candidates, List.find?_cons, find?_letters]
  by_cases h : preferred table requested = "" ∨ preferred table requested ∈ taken
  · have hPreferred : (preferred table requested != ""
        && !taken.contains (preferred table requested)) = false := by
      simpa [Classical.or_iff_not_imp_left] using h
    rw [hPreferred]
    simp [h, List.find?_eq_none]
  · have hPreferred : (preferred table requested != ""
        && !taken.contains (preferred table requested)) = true := by
      simpa using h
    rw [hPreferred]
    simp [h]

/-! ### All of them -/

theorem map_fst_reserved (reserved : List String) :
    (reserved.map fun a => (a, "")).map (·.1) = reserved := by
  simp [Function.comp_def]

theorem map_fst_claimed (reserved : List String) (joins : List Join) :
    (reserved.map (fun a => (a, "")) ++ joins.map fun j => (j.name, j.table)).map (·.1)
      = reserved ++ joins.map Join.name := by
  rw [List.map_append, map_fst_reserved, List.map_map]
  rfl

theorem assign_of_collides {table : String} {requested : Option String} {joins : List Join}
    {force : Bool} {reserved : List String} {j : Join} (h : Collides reserved joins j) :
    assign table requested joins force reserved = .error (.joinAliasCollision j.name j.table) := by
  have hUse : (force || !joins.isEmpty) = true := by
    obtain ⟨before, after, rfl, -, -⟩ := h
    simp
  have hClaim : claim (reserved.map fun a => (a, "")) joins
      = .error (.joinAliasCollision j.name j.table) :=
    claim_of_collides (by rwa [map_fst_reserved])
  rw [assign, if_pos hUse, hClaim]

theorem assign_of_clear {table : String} {requested : Option String} {joins : List Join}
    {force : Bool} {reserved : List String} (hUse : force = true ∨ joins ≠ [])
    (h : Clear reserved joins) :
    assign table requested joins force reserved
      = match free? (reserved ++ joins.map Join.name) table requested with
        | some base => .ok (.aliased base (reserved.map (fun a => (a, ""))
            ++ joins.map (fun j => (j.name, j.table)) ++ [(base, table)]))
        | none => .error (.aliasExhausted table) := by
  have hUse : (force || !joins.isEmpty) = true := by simpa using hUse
  have hClaim := claim_of_clear joins (reserved.map fun a => (a, "")) (by rwa [map_fst_reserved])
  simp only [assign, if_pos hUse, hClaim, chooseBase_eq, map_fst_claimed]
  cases free? (reserved ++ joins.map Join.name) table requested <;> rfl

theorem assign_of_not_needed {table : String} {requested : Option String} {joins : List Join}
    {force : Bool} {reserved : List String} (h : ¬ (force = true ∨ joins ≠ [])) :
    joins = [] ∧ assign table requested joins force reserved = .ok .bare := by
  rw [not_or, Classical.not_not] at h
  refine ⟨h.2, ?_⟩
  rw [assign, if_neg (by simp [h])]

/-- An assignment that succeeds gives the reserved aliases, then those of the joins, then the one of
the base table, and no two of the last two kinds are the same. -/
theorem assign_eq_ok {table : String} {requested : Option String} {joins : List Join}
    {force : Bool} {reserved : List String} {n : Naming}
    (h : assign table requested joins force reserved = .ok n) :
    Clear reserved joins ∧ n.base ∉ joins.map Join.name ∧
      (force = true ∨ joins ≠ [] → n.aliases = reserved ++ joins.map Join.name ++ [n.base] ∧
        free? (reserved ++ joins.map Join.name) table requested = some n.base) := by
  by_cases hUse : force = true ∨ joins ≠ []
  · rcases clear_or_collides reserved joins with hClear | ⟨j, hj⟩
    · rw [assign_of_clear hUse hClear] at h
      cases hFree : free? (reserved ++ joins.map Join.name) table requested with
      | none => rw [hFree] at h; cases h
      | some base =>
        rw [hFree] at h
        obtain rfl := Except.ok.inj h
        refine ⟨hClear, fun hMem => ?_, fun _ => ⟨?_, rfl⟩⟩
        · exact (not_mem_of_free? hFree).2 (List.mem_append_right _ hMem)
        · rw [aliases, List.map_append, map_fst_claimed]
          rfl
    · rw [assign_of_collides hj] at h
      cases h
  · obtain ⟨rfl, hBare⟩ := assign_of_not_needed hUse
    obtain rfl := Except.ok.inj (hBare.symm.trans h)
    exact ⟨clear_nil reserved, List.not_mem_nil, fun hUse' => absurd hUse' hUse⟩

theorem inUse_of_assign {table : String} {requested : Option String} {joins : List Join}
    {force : Bool} {reserved : List String} {n : Naming} (hUse : force = true ∨ joins ≠ [])
    (h : assign table requested joins force reserved = .ok n) : n.inUse = true := by
  obtain ⟨-, -, hAliased⟩ := assign_eq_ok h
  cases n with
  | bare => exact absurd (hAliased hUse).1.symm (by simp [aliases])
  | aliased base tables => rfl

/-- An assignment fails only if aliases are needed: at a join that collides, or else for want of an
alias for the base table. -/
theorem assign_eq_error_iff {table : String} {requested : Option String} {joins : List Join}
    {force : Bool} {reserved : List String} {e : CompileError} :
    assign table requested joins force reserved = .error e ↔
      (∃ j, Collides reserved joins j ∧ e = .joinAliasCollision j.name j.table) ∨
        Clear reserved joins ∧ (force = true ∨ joins ≠ []) ∧
          free? (reserved ++ joins.map Join.name) table requested = none ∧
          e = .aliasExhausted table := by
  constructor
  · intro h
    by_cases hUse : force = true ∨ joins ≠ []
    · rcases clear_or_collides reserved joins with hClear | ⟨j, hj⟩
      · rw [assign_of_clear hUse hClear] at h
        cases hFree : free? (reserved ++ joins.map Join.name) table requested with
        | none =>
          rw [hFree] at h
          exact .inr ⟨hClear, hUse, rfl, (Except.error.inj h).symm⟩
        | some base => rw [hFree] at h; cases h
      · rw [assign_of_collides hj] at h
        exact .inl ⟨j, hj, (Except.error.inj h).symm⟩
    · rw [(assign_of_not_needed hUse).2] at h
      cases h
  · rintro (⟨j, hj, rfl⟩ | ⟨hClear, hUse, hFree, rfl⟩)
    · exact assign_of_collides hj
    · rw [assign_of_clear hUse hClear, hFree]

/-! ### Fields under an alias -/

/-- The alias under which a field is written: the one in front of it, or else that of the base
table. -/
def owner (n : Naming) (field : String) : String := (Field.qualifier? field).getD n.base

theorem qualifier?_of_owner {n : Naming} {field : String} (h : n.owner field ≠ n.base) :
    Field.qualifier? field = some (n.owner field) := by
  rw [owner] at h ⊢
  cases hField : Field.qualifier? field with
  | none =>
    rw [hField] at h
    exact absurd rfl h
  | some a => rfl

end SqlStatement.Naming
