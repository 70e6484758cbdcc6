import SqlStatement.Proofs.Frame
import SqlStatement.Proofs.HeldContexts

/-!
# Idle contexts after a compile

A statement holds one context for itself and one for each select on the way down
to the one that is being written.  So the number of contexts held at once is the
nesting depth of the statement, or less if an error comes first.

* `Statement.depth`: how deep selects are nested in a statement.
* `Script.Reaches`: what a script holds, with errors and without; scripts one
  after the other and lists of them reach as deep as the deepest.
* `Frame.reaches_script`: a statement reaches as deep as what is around its join lines.
* `Select.reaches_nested`: by induction over selects and filters.
* `Statement.length_idle_compile`: how many contexts are idle after a compile.
-/

namespace SqlStatement

open Script

/-! ### Depths -/

/-- The largest of some numbers, zero without any. -/
def largest (l : List Nat) : Nat := l.foldr max 0

mutual

/-- The number of selects on the longest way down, this one included. -/
def Select.depth : Select → Nat
  | ⟨_, _, filter, json⟩ => max (JsonSelect.depth json) (Filter.depth filter) + 1

def JsonSelect.depth : List JsonSelect → Nat
  | [] => 0
  | ⟨_, query, _, _⟩ :: rest => max (Select.depth query) (JsonSelect.depth rest)

def Filter.depth : Filter → Nat
  | ⟨none, conditions, groups⟩ => max (Condition.depth conditions) (Filter.groupDepth groups)
  | ⟨some wrapped, conditions, groups⟩ =>
    max (max (Filter.depth wrapped) (Condition.depth conditions)) (Filter.groupDepth groups)

def Filter.groupDepth : List Filter → Nat
  | [] => 0
  | f :: rest => max (Filter.depth f) (Filter.groupDepth rest)

def Condition.depth : List Condition → Nat
  | [] => 0
  | ⟨_, test⟩ :: rest => max (Test.depth test) (Condition.depth rest)

def Test.depth : Test → Nat
  | .inSubquery query => Select.depth query
  | .compare _ _ | .null | .notNull | .between _ _ | .notBetween _ _ | .inList _ | .notIn _ => 0

end

/-- One more than the depth of the deepest select that the statement compiles on the way. -/
def Statement.depth : Statement → Nat
  | .select s => s.depth
  | .insert _ | .bulkInsert _ => 1
  | .update u => u.filter.depth + 1
  | .delete d => d.filter.depth + 1
  | .union u =>
    max (max (JsonSelect.depth u.outer.json) (largest (u.members.map Select.depth)))
      u.outer.filter.depth + 1

theorem JsonSelect.depth_eq (json : List JsonSelect) :
    JsonSelect.depth json = largest (json.map (·.query.depth)) := by
  induction json with
  | nil => rfl
  | cons j rest ih =>
    obtain ⟨name, query, inner, outer⟩ := j
    rw [depth, ih]
    rfl

/-! ### Scripts without nested ones -/

namespace Script

/-- No piece is a nested script. -/
def Flat (s : Script) : Prop := ∀ body, Piece.nested body ∉ s

theorem flat_append {a b : Script} : Flat (a ++ b) ↔ Flat a ∧ Flat b := by
  simp [Flat, not_or, forall_and]

theorem flat_text (t : String) : Flat [.text t] := by simp [Flat]

theorem Flat.between {s : Script} (before after : String) (h : Flat s) :
    Flat (.text before :: s ++ [.text after]) :=
  flat_append.mpr ⟨flat_append.mpr ⟨flat_text before, h⟩, flat_text after⟩

theorem Flat.flatMap {α : Type} {f : α → Script} {l : List α} (h : ∀ x ∈ l, Flat (f x)) :
    Flat (l.flatMap f) := by
  intro body hMem
  obtain ⟨x, hx, hMem⟩ := List.mem_flatMap.mp hMem
  exact h x hx body hMem

theorem Flat.joined {separator : String} : ∀ {scripts : List Script}, (∀ s ∈ scripts, Flat s) →
    Flat (joined separator scripts)
  | [], _ => by simp [Flat]
  | [a], h => by
    rw [joined_singleton]
    exact h a List.mem_cons_self
  | a :: b :: rest, h => by
    obtain ⟨ha, hRest⟩ := List.forall_mem_cons.mp h
    rw [joined_cons_cons]
    exact flat_append.mpr ⟨ha, flat_append.mpr ⟨flat_text separator, Flat.joined hRest⟩⟩

theorem Flat.joined_map {α : Type} {separator : String} {f : α → Script} {l : List α}
    (h : ∀ x ∈ l, Flat (f x)) : Flat (Script.joined separator (l.map f)) :=
  .joined (List.forall_mem_map.mpr h)

theorem flat_placeholders (values : List Value) : Flat (placeholders values) :=
  .joined_map fun _ _ => by simp [Flat]

theorem Flat.height_eq_zero {s : Script} (h : Flat s) : height s = 0 := by
  induction s with
  | nil => rfl
  | cons p rest ih =>
    have hHead : pieceMoves p = [] := by
      cases p with
      | nested body => exact absurd List.mem_cons_self (h body)
      | _ => rfl
    have hRest : height rest = 0 := ih fun body hMem => h body (List.mem_cons_of_mem p hMem)
    rw [height_cons, hHead, hRest, ite_self]
    rfl

/-! ### How deep a script reaches -/

/-- The nested scripts hold `n` contexts at once, or less if there is an error. -/
structure Reaches (s : Script) (n : Nat) : Prop where
  height_le : height s ≤ n
  height_eq : failure? s = none → height s = n

theorem Reaches.of_eq {s : Script} {m n : Nat} (h : Reaches s m) (he : m = n) : Reaches s n :=
  he ▸ h

theorem Flat.reaches {s : Script} (h : Flat s) : Reaches s 0 :=
  ⟨Nat.le_of_eq h.height_eq_zero, fun _ => h.height_eq_zero⟩

/-- An error may come before anything deep. -/
theorem reaches_fail (e : CompileError) (n : Nat) : Reaches [.fail e] n := by
  constructor
  · have hFlat : Flat [.fail e] := by simp [Flat]
    rw [hFlat.height_eq_zero]
    exact Nat.zero_le n
  · intro hNone
    cases hNone

theorem Reaches.append {a b : Script} {m n : Nat} (ha : Reaches a m) (hb : Reaches b n) :
    Reaches (a ++ b) (max m n) := by
  have hA := ha.height_le
  have hB := hb.height_le
  constructor
  · rw [height_append]
    split <;> omega
  · intro hNone
    rw [failure?_append, Option.or_eq_none_iff] at hNone
    rw [height_append, if_pos hNone.1, ha.height_eq hNone.1, hb.height_eq hNone.2]

theorem Reaches.flat_append {a b : Script} {n : Nat} (ha : Flat a) (hb : Reaches b n) :
    Reaches (a ++ b) n :=
  (ha.reaches.append hb).of_eq (Nat.zero_max n)

theorem Reaches.append_flat {a b : Script} {n : Nat} (ha : Reaches a n) (hb : Flat b) :
    Reaches (a ++ b) n :=
  (ha.append hb.reaches).of_eq (Nat.max_zero n)

theorem Reaches.between {s : Script} {n : Nat} (before after : String) (h : Reaches s n) :
    Reaches (.text before :: s ++ [.text after]) n :=
  (flat_append (flat_text before) h).append_flat (flat_text after)

theorem Reaches.nested {body : Script} {n : Nat} (h : Reaches body n) :
    Reaches [.nested body] (n + 1) := by
  have hLe := h.height_le
  constructor
  · rw [height_nested]
    omega
  · intro hNone
    have hBody : failure? body = none := by simpa using hNone
    rw [height_nested, h.height_eq hBody]

theorem Reaches.flatMap {α : Type} {f : α → Script} {depth : α → Nat} {l : List α}
    (h : ∀ x ∈ l, Reaches (f x) (depth x)) :
    Reaches (l.flatMap f) (largest (l.map depth)) := by
  induction l with
  | nil => exact Flat.reaches (by simp [Flat])
  | cons x rest ih =>
    obtain ⟨hx, hRest⟩ := List.forall_mem_cons.mp h
    rw [List.flatMap_cons]
    exact hx.append (ih hRest)

/-- Texts between the scripts of a list add nothing. -/
theorem height_joined (separator : String) : ∀ scripts : List Script,
    height (joined separator scripts) = height scripts.flatten
  | [] => rfl
  | [a] => by simp
  | a :: b :: rest => by
    have hText : height (.text separator :: joined separator (b :: rest))
        = height (joined separator (b :: rest)) := by
      rw [height_cons]
      exact Nat.zero_max _
    rw [joined_cons_cons, height_append, hText, height_joined separator (b :: rest)]
    exact (height_append a (b :: rest).flatten).symm

theorem Reaches.joined {separator : String} {scripts : List Script} {n : Nat}
    (h : Reaches scripts.flatten n) : Reaches (joined separator scripts) n := by
  have hFailure : failure? (Script.joined separator scripts) = failure? scripts.flatten := by
    rw [failure?_joined, List.flatten_eq_flatMap, failure?_flatMap]
    rfl
  constructor
  · rw [height_joined]
    exact h.height_le
  · intro hNone
    rw [height_joined]
    exact h.height_eq (hFailure ▸ hNone)

end Script

/-! ### Clauses -/

section Clauses

variable (n : Naming)

theorem JsonTable.flat_script (t : JsonTable) : Flat (t.script n) := by
  rw [script]
  cases t.source <;> cases t.columns <;> simp [Flat]

theorem Selection.flat_fromScript (table : String) (s : Selection) :
    Flat (s.fromScript n table) := by
  have hTables : Flat (s.jsonTables.flatMap (JsonTable.script n)) :=
    .flatMap fun t _ => t.flat_script n
  exact flat_append.mpr ⟨flat_append.mpr ⟨by simp [Flat], hTables⟩, by simp [Flat]⟩

theorem Selection.flat_tailScript (s : Selection) : Flat (s.tailScript n) := by
  have hListed : ∀ (heading : String) (items : List String), Flat (listed heading items) := by
    intro heading items
    cases items <;> simp [listed, Flat]
  rw [tailScript]
  refine flat_append.mpr ⟨flat_append.mpr ⟨flat_append.mpr ⟨hListed _ _, hListed _ _⟩, ?_⟩, ?_⟩
  · split <;> simp [Flat]
  · split <;> simp [Flat]

theorem OnTerm.flat_script (name : String) (t : OnTerm) : Flat (t.script n name) := by
  rw [script]
  cases t.operator.isNullTest <;> cases t.operator.isComparison <;> cases t.target <;> simp [Flat]

theorem Join.flat_scripts (joins : List Join) : Flat (scripts n joins) := by
  apply Flat.flatMap
  intro j _
  have hTerms : Flat (j.terms.flatMap (OnTerm.script n j.name)) :=
    .flatMap fun t _ => t.flat_script n j.name
  exact flat_append.mpr ⟨flat_append.mpr ⟨by simp [Flat], hTerms⟩, by simp [Flat]⟩

theorem Filter.reaches_guarded {verdict : Except CompileError Unit} {s : Script} {m : Nat}
    (h : Reaches s m) : Reaches (guarded verdict s) m := by
  cases verdict with
  | error e => exact reaches_fail e m
  | ok u => exact h

theorem Filter.reaches_parenthesised {alternatives : List Script} {m : Nat}
    (h : Reaches alternatives.flatten m) : Reaches (parenthesised alternatives).flatten m := by
  cases alternatives with
  | nil => exact h
  | cons a rest =>
    have hTerm : (parenthesised (a :: rest)).flatten
        = .text "(" :: Script.joined " OR " (a :: rest) ++ [.text ")"] := List.flatten_singleton
    rw [hTerm]
    exact (Reaches.joined h).between "(" ")"

theorem Filter.flat_listOperand (field : String) (op : Operator) (values : List Value) :
    Flat (listOperand field op values) := by
  cases values with
  | nil => simp [listOperand, Flat]
  | cons v rest => exact (flat_placeholders (v :: rest)).between " (" ")"

theorem reaches_whereScript (correlation : Option Correlation) (row : Option UInt64)
    {terms : List Script} {m : Nat} (h : Reaches terms.flatten m) :
    Reaches (whereScript n correlation row terms) m := by
  have hFixed : Flat ((correlation.map (Correlation.term n)).toList
      ++ (row.map (Source.rowTerm n)).toList).flatten := by
    cases correlation <;> cases row <;> simp [Correlation.term, Source.rowTerm, Flat]
  have hTerms : Reaches (whereTerms n correlation row terms).flatten m := by
    rw [whereTerms, List.flatten_append]
    exact Reaches.flat_append hFixed h
  rw [whereScript_eq]
  split
  · next hEmpty =>
    rw [hEmpty] at hTerms
    exact hTerms
  · exact (Reaches.joined hTerms).between "WHERE " "\n"

/-- The select list reaches as deep as its JSON sub-selects do. -/
theorem Selection.reaches_headScript (correlated : Bool) (s : Selection) {json : List JsonSelect}
    (h : ∀ j ∈ json, Reaches (j.script n).body j.query.depth) :
    Reaches (s.headScript correlated n (json.map (JsonSelect.script n)))
      (JsonSelect.depth json) := by
  rw [JsonSelect.depth_eq]
  cases correlated with
  | true =>
    have hFields : Flat
        (s.fields.map fun f => [Piece.text (key f.outputName ++ f.expression n)]).flatten := by
      simp [Flat]
    have hJson : Reaches ((json.map (JsonSelect.script n)).map
        fun j => .text (key j.name) :: j.body).flatten (largest (json.map (·.query.depth))) := by
      rw [List.map_map, ← List.flatMap_def]
      refine .flatMap fun j hj => ?_
      exact Reaches.flat_append (flat_text (key (j.script n).name)) (h j hj)
    have hMembers : Reaches (s.members n (json.map (JsonSelect.script n))).flatten
        (largest (json.map (·.query.depth))) := by
      rw [members, List.flatten_append]
      exact Reaches.flat_append hFields hJson
    exact hMembers.joined.between "SELECT JSON_ARRAYAGG(JSON_OBJECT(" "))\n"
  | false =>
    have hFields : Flat (s.fields.map fun f => [Piece.text (f.written n)]).flatten := by
      simp [Flat]
    have hJson : Reaches ((json.map (JsonSelect.script n)).map
        fun j => j.body ++ [.text (" " ++ j.name)]).flatten
          (largest (json.map (·.query.depth))) := by
      rw [List.map_map, ← List.flatMap_def]
      refine .flatMap fun j hj => ?_
      exact (h j hj).append_flat (flat_text (" " ++ (j.script n).name))
    have hItems : Reaches (s.items n (json.map (JsonSelect.script n))).flatten
        (largest (json.map (·.query.depth))) := by
      rw [items, List.flatten_append]
      exact Reaches.flat_append hFields hJson
    have hList : Reaches (if (s.items n (json.map (JsonSelect.script n))).isEmpty
        then [.text "*"] else Script.joined ", " (s.items n (json.map (JsonSelect.script n))))
          (largest (json.map (·.query.depth))) := by
      split
      · next hEmpty =>
        rw [List.isEmpty_iff.mp hEmpty] at hItems
        exact Reaches.flat_append (flat_text "*") hItems
      · exact hItems.joined
    exact hList.between _ "\n"

end Clauses

/-! ### Selects and filters -/

/-- Errors that come before a statement is written, and its join lines, add nothing. -/
theorem Frame.reaches_script {f : Frame} {front back : Nat}
    (hFront : ∀ n, Reaches (f.front n) front) (hBack : ∀ n, Reaches (f.back n) back)
    (s : Source) : Reaches (f.script s) (max front back) := by
  rw [script]
  split
  · exact reaches_fail _ _
  · split
    · exact reaches_fail _ _
    · next p _ =>
      exact ((hFront p.naming).append_flat (Join.flat_scripts p.naming p.joins)).append
        (hBack p.naming)

mutual

/-- A select holds its own context while the selects in it are written. -/
theorem Select.reaches_nested : ∀ (s : Select) (correlation : Option Correlation),
    Reaches [.nested (s.script correlation)] s.depth
  | ⟨source, selection, filter, json⟩, correlation => by
    rw [Select.depth, Select.script_eq_frame]
    refine Reaches.nested (Frame.reaches_script (fun n => ?_) (fun n => ?_) source)
    · have hHead := selection.reaches_headScript n correlation.isSome
        (JsonSelect.reaches_script n json)
      have hAliases : Flat [.aliases n] := by simp [Flat]
      rw [← JsonSelect.scripts_eq_map] at hHead
      exact (Reaches.flat_append hAliases hHead).append_flat
        (selection.flat_fromScript n source.table)
    · have hWhere := reaches_whereScript n correlation source.row (Filter.reaches_terms n filter)
      exact hWhere.append_flat (selection.flat_tailScript n)

theorem JsonSelect.reaches_script : ∀ (n : Naming) (json : List JsonSelect),
    ∀ j ∈ json, Reaches (j.script n).body j.query.depth
  | _, [] => fun _ hj => absurd hj List.not_mem_nil
  | n, ⟨name, query, inner, outer⟩ :: rest => by
    refine List.forall_mem_cons.mpr ⟨?_, JsonSelect.reaches_script n rest⟩
    have hQuery := Select.reaches_nested query (some ⟨n.aliases, inner, n.qualify outer⟩)
    rw [JsonSelect.script]
    split
    · exact reaches_fail _ _
    · exact hQuery.between "(" ")"

theorem Filter.reaches_terms : ∀ (n : Naming) (f : Filter),
    Reaches (Filter.terms n f).flatten f.depth
  | n, ⟨none, conditions, groups⟩ => by
    rw [Filter.terms, List.flatten_append, Filter.depth]
    exact (Condition.reaches_terms n [] conditions).append (Filter.reaches_groupTerms n groups)
  | n, ⟨some wrapped, conditions, groups⟩ => by
    rw [Filter.terms, List.flatten_append, List.flatten_append, Filter.depth]
    exact ((Filter.reaches_terms n wrapped).append (Condition.reaches_terms n [] conditions)).append
      (Filter.reaches_groupTerms n groups)

theorem Condition.reaches_terms : ∀ (n : Naming) (seen : List (String × Operator))
    (conditions : List Condition),
    Reaches (Filter.conditionTerms n seen conditions).flatten (Condition.depth conditions)
  | _, _, [] => Flat.reaches (by simp [Flat, Filter.conditionTerms])
  | n, seen, ⟨field, test⟩ :: rest => by
    rw [Filter.conditionTerms, List.flatten_cons, Condition.depth]
    exact (Filter.reaches_guarded (Test.reaches_script n field test)).append
      (Condition.reaches_terms n _ rest)

theorem Filter.reaches_groupTerms : ∀ (n : Naming) (groups : List Filter),
    Reaches (Filter.groupTerms n groups).flatten (Filter.groupDepth groups)
  | _, [] => Flat.reaches (by simp [Flat, Filter.groupTerms])
  | n, group :: rest => by
    rw [Filter.groupTerms, List.flatten_append, Filter.groupDepth]
    exact (Filter.reaches_parenthesised (Filter.reaches_alternatives n group)).append
      (Filter.reaches_groupTerms n rest)

theorem Filter.reaches_alternatives : ∀ (n : Naming) (f : Filter),
    Reaches (Filter.alternatives n f).flatten f.depth
  | n, ⟨none, conditions, groups⟩ => by
    rw [Filter.alternatives, List.flatten_append, Filter.depth]
    exact (Condition.reaches_scripts n conditions).append (Filter.reaches_groupTerms n groups)
  | n, ⟨some wrapped, conditions, groups⟩ => by
    rw [Filter.alternatives, List.flatten_append, List.flatten_append, Filter.depth]
    exact ((Filter.reaches_alternatives n wrapped).append
      (Condition.reaches_scripts n conditions)).append (Filter.reaches_groupTerms n groups)

theorem Condition.reaches_scripts : ∀ (n : Naming) (conditions : List Condition),
    Reaches (Filter.conditionScripts n conditions).flatten (Condition.depth conditions)
  | _, [] => Flat.reaches (by simp [Flat, Filter.conditionScripts])
  | n, ⟨field, test⟩ :: rest => by
    rw [Filter.conditionScripts, List.flatten_cons, Condition.depth]
    exact (Test.reaches_script n field test).append (Condition.reaches_scripts n rest)

theorem Test.reaches_script : ∀ (n : Naming) (field : String) (test : Test),
    Reaches (Test.script n field test) test.depth
  | _, _, .compare _ _ | _, _, .null | _, _, .notNull =>
    Flat.reaches (by simp [Flat, Test.script])
  | _, _, .between _ _ | _, _, .notBetween _ _ =>
    Flat.reaches (by simp [Flat, Test.script, Filter.rangeOperand])
  | _, _, .inList values | _, _, .notIn values =>
    Flat.reaches (flat_append.mpr ⟨flat_text _, Filter.flat_listOperand _ _ values⟩)
  | n, field, .inSubquery query => by
    rw [Test.script, Test.depth]
    exact (Select.reaches_nested query none).between _ ")"

end

/-! ### Statements -/

theorem Assignment.flat_update (n : Naming) (a : Assignment) : Flat (a.update n) := by
  rw [update]
  cases a.kind <;> simp [set, Flat]

theorem Insert.flat_upsertScript (entries : Assignments) (u : Option Upsert) :
    Flat (upsertScript entries u) := by
  cases u with
  | none => simp [upsertScript, Flat]
  | some u =>
    have hEntries : Flat (Script.joined ", "
        ((entries.filter fun a => u.includes a.field).map (Assignment.update .bare))) :=
      .joined_map fun a _ => a.flat_update .bare
    exact hEntries.between "ON DUPLICATE KEY UPDATE " "\n"

theorem Insert.flat_script (i : Insert) : Flat i.script := by
  rw [script]
  split
  · simp [Flat]
  · simp [Flat]
  · next entries _ _ =>
    split
    · simp [Flat]
    · have hEntries : Flat (Script.joined ", " (entries.map (Assignment.set .bare))) :=
        .joined_map fun a _ => by simp [Assignment.set, Flat]
      have hFront : Flat [.text "INSERT ", .table i.table, .text "\nSET "] := by simp [Flat]
      exact flat_append.mpr ⟨flat_append.mpr ⟨flat_append.mpr ⟨hFront, hEntries⟩, flat_text "\n"⟩,
        flat_upsertScript entries i.upsert⟩

theorem BulkInsert.flat_script (b : BulkInsert) : Flat b.script := by
  rw [script]
  split
  · simp [Flat]
  · simp [Flat]
  · split
    · simp [Flat]
    · have hRows : Flat (Script.joined "," (b.rows.map rowScript)) :=
        .joined_map fun values _ => (flat_placeholders values).between "(" ")"
      have hFront : Flat [.text "INSERT ", .table b.table,
          .text (" (" ++ ", ".intercalate b.columns ++ ")\nVALUES ")] := by simp [Flat]
      have hUpsert : Flat (upsertScript b.columns b.upsert) := by
        cases b.upsert <;> simp [upsertScript, Flat]
      exact flat_append.mpr ⟨flat_append.mpr ⟨flat_append.mpr ⟨hFront, hRows⟩, flat_text "\n"⟩,
        hUpsert⟩

theorem Update.reaches_script (u : Update) : Reaches u.script u.filter.depth := by
  rw [script_eq_frame]
  refine (Frame.reaches_script (fun n => ?_) (fun n => ?_) u.source).of_eq (Nat.zero_max _)
  · exact Flat.reaches (by simp [frame, Flat])
  · have hAssignments : ∀ s ∈ setScripts n u.fields.byField u.removal, Flat s := by
      intro s hs
      rcases List.mem_append.mp hs with hs | hs
      · obtain ⟨a, _, rfl⟩ := List.mem_map.mp hs
        exact a.flat_update n
      · cases hRemoval : u.removal with
        | none => simp [hRemoval] at hs
        | some r =>
          obtain rfl : s = removalScript n r := by simpa [hRemoval] using hs
          simp [removalScript, Flat]
    have hSet : Flat (Script.joined ", " (setScripts n u.fields.byField u.removal)) :=
      .joined hAssignments
    have hWhere := reaches_whereScript n none u.source.row (Filter.reaches_terms n u.filter)
    exact Reaches.flat_append (hSet.between "SET " "\n") hWhere

theorem Delete.reaches_script (d : Delete) : Reaches d.script d.filter.depth := by
  rw [script_eq_frame]
  refine (Frame.reaches_script (fun n => ?_) (fun n => ?_) d.source).of_eq (Nat.zero_max _)
  · exact Flat.reaches (by simp [frame, Flat])
  · exact reaches_whereScript n none d.source.row (Filter.reaches_terms n d.filter)

theorem Union.reaches_script (u : Union) : Reaches u.script
    (max (max (JsonSelect.depth u.outer.json) (largest (u.members.map Select.depth)))
      u.outer.filter.depth) := by
  rw [script_eq_frame]
  refine Frame.reaches_script (fun n => ?_) (fun n => ?_) u.outer.source
  · have hHead := u.outer.selection.reaches_headScript n false
      (JsonSelect.reaches_script n u.outer.json)
    have hMembers : Reaches (Script.joined u.separator (u.members.map memberScript))
        (largest (u.members.map Select.depth)) := by
      apply Reaches.joined
      rw [← List.flatMap_def]
      refine .flatMap fun query _ => ?_
      exact (Select.reaches_nested query none).append_flat (flat_text "\n")
    have hAliases : Flat [.aliases n] := by simp [Flat]
    have hRows := hMembers.between "FROM (\n" (") " ++ name n ++ "\n")
    rw [← JsonSelect.scripts_eq_map] at hHead
    have hAll := (Reaches.flat_append hAliases hHead).append hRows
    simpa [frame, Selection.headScript] using hAll
  · have hWhere := reaches_whereScript n none u.outer.source.row
      (Filter.reaches_terms n u.outer.filter)
    exact hWhere.append_flat (u.outer.selection.flat_tailScript n)

theorem Statement.reaches_nested (s : Statement) : Reaches [.nested s.script] s.depth := by
  cases s with
  | select s => exact s.reaches_nested none
  | insert i => exact i.flat_script.reaches.nested
  | bulkInsert b => exact b.flat_script.reaches.nested
  | update u => exact u.reaches_script.nested
  | delete d => exact d.reaches_script.nested
  | union u => exact u.reaches_script.nested

/-- All contexts that a compile takes come back.  One that succeeds leaves as many idle as there
were or as the statement is deep, whichever is more, within the capacity; one that fails goes by
the contexts it held at once until then. -/
theorem Statement.length_idle_compile {p : Pool}
    (h : p.idle.length ≤ p.config.poolCapacity.toNat) (s : Statement) :
    (Move.Nested s.script.traffic ∧ (p.compile s.script).2.idle.length
      = s.script.traffic.foldl (Move.shift p.config.poolCapacity.toNat) p.idle.length) ∧
    (∀ c, (p.compile s.script).1 = .ok c → (p.compile s.script).2.idle.length
      = min p.config.poolCapacity.toNat (max p.idle.length s.depth)) ∧
    ∀ e, (p.compile s.script).1 = .error e → (p.compile s.script).2.idle.length
        = min p.config.poolCapacity.toNat (max p.idle.length (Move.mostHeld 0 s.script.traffic)) ∧
      1 ≤ Move.mostHeld 0 s.script.traffic ∧ Move.mostHeld 0 s.script.traffic ≤ s.depth := by
  obtain ⟨hMoves, hError⟩ := Pool.compile_follows h s.script
  have hReaches := s.reaches_nested
  have hNested := nested_traffic s.script
  have hIdle := hMoves.trans (hNested.foldl_shift h)
  refine ⟨⟨hNested, hMoves⟩, ?_, ?_⟩
  · intro c hOk
    have hNone : failure? s.script = none := by
      cases hf : failure? s.script with
      | none => rfl
      | some e =>
        rw [(hError e).mpr hf] at hOk
        cases hOk
    have hDepth := hReaches.height_eq (by simpa using hNone)
    rw [hIdle, ← hDepth, height_nested, mostHeld_traffic]
  · intro e _
    have hLe := hReaches.height_le
    rw [height_nested, ← mostHeld_traffic] at hLe
    refine ⟨hIdle, ?_, hLe⟩
    rw [mostHeld_traffic]
    omega

/-- Shops in the regions of some countries, by three subqueries inside one another. -/
def Select.shops : Select :=
  Select.ofTable "shops" |>.filtered (Filter.any.condition "city" (.inSubquery
    (Select.ofTable "cities" |>.filtered (Filter.any.condition "region" (.inSubquery
      (Select.ofTable "regions" |>.filtered (Filter.any.condition "country" (.inSubquery
        (Select.ofTable "countries")))))))))

/-- The orders that users with an account made, of one of these kinds, in these shops. -/
def Select.ordersOf (kinds : List Value) : Select :=
  Select.ofTable "orders"
    |>.filtered (Filter.any.condition "user_id" (.inSubquery (.ofTable "users"))
      |>.condition "kind" (.inList kinds)
      |>.condition "shop" (.inSubquery .shops))

/-- One idle context, and room for four. -/
def Pool.narrow : Pool := ⟨⟨"shop", 4, 0⟩, [.ofSchema "shop"]⟩

/-- Without a kind the error comes behind the first subquery and in front of the deeper ones. -/
theorem Statement.length_idle_compile_narrow :
    ((Statement.select (.ordersOf [.null])).depth = 5 ∧
      (∃ c, (Pool.narrow.compile (Statement.select (.ordersOf [.null])).script).1 = .ok c) ∧
      (Pool.narrow.compile (Statement.select (.ordersOf [.null])).script).2.idle.length = 4) ∧
    ((Statement.select (.ordersOf [])).depth = 5 ∧
      (Pool.narrow.compile (Statement.select (.ordersOf [])).script).1
        = .error (.emptyInList "kind" .inList) ∧
      (Pool.narrow.compile (Statement.select (.ordersOf [])).script).2.idle.length = 2) := by
  have hRoom : Pool.narrow.idle.length ≤ Pool.narrow.config.poolCapacity.toNat := by decide
  obtain ⟨-, hOk, -⟩ := Statement.length_idle_compile hRoom (.select (.ordersOf [.null]))
  obtain ⟨-, -, hError⟩ := Statement.length_idle_compile hRoom (.select (.ordersOf []))
  have hDepth (kinds : List Value) : (Statement.select (.ordersOf kinds)).depth = 5 := rfl
  have hNone : failure? (Statement.select (.ordersOf [.null])).script = none := rfl
  have hCompiled : ∃ c,
      (Pool.narrow.compile (Statement.select (.ordersOf [.null])).script).1 = .ok c := by
    cases hResult : (Pool.narrow.compile (Statement.select (.ordersOf [.null])).script).1 with
    | ok c => exact ⟨c, rfl⟩
    | error e =>
      rw [(Pool.compile_follows hRoom _).2 e, hNone] at hResult
      cases hResult
  have hFailed : (Pool.narrow.compile (Statement.select (.ordersOf [])).script).1
      = .error (.emptyInList "kind" .inList) := rfl
  have hTraffic : Script.traffic (Statement.select (.ordersOf [])).script
      = [.checkout, .checkout, .release, .release] := rfl
  refine ⟨⟨hDepth _, hCompiled, ?_⟩, hDepth _, hFailed, ?_⟩
  · obtain ⟨c, hc⟩ := hCompiled
    rw [hOk c hc, hDepth]
    rfl
  · rw [(hError _ hFailed).1, hTraffic]
    rfl

end SqlStatement
