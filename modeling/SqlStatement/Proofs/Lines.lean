import SqlStatement.Proofs.InsertText
import SqlStatement.Proofs.Lexemes
import SqlStatement.Proofs.WhereRendering

/-!
# Lines and their breaks

Every clause ends its line with a break of its own, and the breaks at the end of
the whole go.  If the last line does not end in a break itself, the whole is its
lines with breaks between them.

* `Text.Unbroken`: a text that does not end in a line break.
* `Text.chomp_ofLines`: lines with a break behind each of them come to lines with
  breaks between them.
* `Join.lineText`, `whereLines`: the lines of the clauses that selects and updates
  have in common, and that they are not broken.
-/

namespace SqlStatement

open Script

namespace Text

/-! ### Texts that do not end in a line break -/

/-- The last character, if there is one, is not a line break. -/
def Unbroken (s : String) : Prop := s.toList.getLast? ≠ some '\n'

instance (s : String) : Decidable (Unbroken s) := inferInstanceAs (Decidable (_ ≠ _))

variable {a b s : String}

theorem unbroken_empty : Unbroken "" := by decide

theorem Unbroken.append (ha : Unbroken a) (hb : Unbroken b) : Unbroken (a ++ b) := by
  rw [Unbroken, String.toList_append, List.getLast?_append]
  cases hLast : b.toList.getLast? with
  | none => exact ha
  | some c => exact fun h => hb (hLast.trans h)

/-- What stands in front of a text that is not empty does not matter. -/
theorem Unbroken.behind (hb : Unbroken b) (hne : b ≠ "") (a : String) : Unbroken (a ++ b) := by
  rw [Unbroken, String.toList_append,
    List.getLast?_append_of_ne_nil _ (by simpa using hne)]
  exact hb

theorem EndsIn.unbroken {c : Char} (h : EndsIn c s) (hc : c ≠ '\n') : Unbroken s := by
  obtain ⟨l, hl⟩ := h
  rw [Unbroken, hl, List.getLast?_concat]
  exact mt Option.some.inj hc

theorem unbroken_join : ∀ {items : List String}, (∀ s ∈ items, Unbroken s) →
    Unbroken (String.join items)
  | [], _ => unbroken_empty
  | a :: rest, h => by
    obtain ⟨ha, hRest⟩ := List.forall_mem_cons.mp h
    rw [String.join_cons]
    exact ha.append (unbroken_join hRest)

theorem unbroken_intercalate {separator : String} (hSeparator : Unbroken separator) :
    ∀ {items : List String}, (∀ s ∈ items, Unbroken s) → Unbroken (separator.intercalate items)
  | [], _ => unbroken_empty
  | [a], h => by
    rw [String.intercalate_singleton]
    exact h a List.mem_cons_self
  | a :: b :: rest, h => by
    obtain ⟨ha, hRest⟩ := List.forall_mem_cons.mp h
    rw [String.intercalate_cons_cons]
    exact (ha.append hSeparator).append (unbroken_intercalate hSeparator hRest)

/-- A line break at the end goes, whatever stands in front of it. -/
theorem chomp_append_newline (s : String) : chomp (s ++ "\n") = chomp s := by
  rw [chomp, chomp, String.toList_append, show "\n".toList = ['\n'] from rfl,
    dropEndWhile_concat_drop _ rfl]

theorem Unbroken.chomp (h : Unbroken s) : Text.chomp s = s := by
  rw [Text.chomp]
  rcases List.eq_nil_or_concat s.toList with hNil | ⟨l, c, hList⟩
  · rw [hNil, dropEndWhile_nil, ← hNil, String.ofList_toList]
  · rw [List.concat_eq_append] at hList
    have hc : c ≠ '\n' := by
      rintro rfl
      exact h (by rw [hList, List.getLast?_concat])
    have hKept : dropEndWhile (· == '\n') (l ++ [c]) = l ++ [c] :=
      dropEndWhile_concat l (beq_false_of_ne hc)
    rw [hList, hKept, ← hList, String.ofList_toList]

/-! ### Lines -/

/-- Lines, each with a line break behind it. -/
def ofLines (lines : List String) : String := String.join (lines.map (· ++ "\n"))

theorem ofLines_append (a b : List String) : ofLines (a ++ b) = ofLines a ++ ofLines b := by
  rw [ofLines, List.map_append, String.join_append]
  rfl

@[simp] theorem ofLines_singleton (line : String) : ofLines [line] = line ++ "\n" := by
  simp [ofLines]

theorem ofLines_eq : ∀ {lines : List String}, lines ≠ [] →
    ofLines lines = "\n".intercalate lines ++ "\n"
  | [], h => absurd rfl h
  | [a], _ => by rw [ofLines_singleton, String.intercalate_singleton]
  | a :: b :: rest, _ => by
    rw [← List.singleton_append, ofLines_append, ofLines_eq (List.cons_ne_nil b rest),
      ofLines_singleton, List.singleton_append, String.intercalate_cons_cons, ← String.append_assoc]

/-- Lines of which the last ones do not end in a break. -/
theorem chomp_ofLines (front : List String) {back : List String} (hne : back ≠ [])
    (h : ∀ line ∈ back, Unbroken line ∧ line ≠ "") :
    chomp (ofLines (front ++ back)) = "\n".intercalate (front ++ back) := by
  rw [ofLines_eq (by simp [hne]), chomp_append_newline]
  obtain ⟨middle, last, hBack⟩ := (List.eq_nil_or_concat back).resolve_left hne
  rw [List.concat_eq_append] at hBack
  subst hBack
  obtain ⟨hLast, hFilled⟩ := h last (List.mem_append_right _ List.mem_cons_self)
  rw [← List.append_assoc]
  refine Unbroken.chomp ?_
  cases hFront : front ++ middle with
  | nil =>
    rw [List.nil_append, String.intercalate_singleton]
    exact hLast
  | cons a rest =>
    rw [String.intercalate_append_of_ne_nil (List.cons_ne_nil a rest) (List.cons_ne_nil last []),
      String.intercalate_singleton]
    exact hLast.behind hFilled _

end Text

/-! ### What the parts of a clause end in -/

theorem Text.unbroken_of_not_mem {s : String} (h : '\n' ∉ s.toList) : Text.Unbroken s :=
  fun hLast => h (List.mem_of_getLast? hLast)

theorem Nat.not_mem_repr (n : Nat) : '\n' ∉ n.repr.toList := by
  intro h
  exact absurd ((Lexeme.isNumeral_natRepr n).isWordChar _ h) (by decide)

/-- A literal is a word or ends in a quote. -/
theorem Value.unbroken_literal (v : Value) : Text.Unbroken v.literal := by
  have hQuoted : ∀ l : List Char, Text.EndsIn '\'' (String.ofList (l ++ ['\''])) :=
    fun l => ⟨l, String.toList_ofList⟩
  cases v with
  | null => decide
  | bool b => cases b <;> decide
  | int n =>
    refine Text.unbroken_of_not_mem fun h => ?_
    have hText : (Value.int n).literal.toList = n.toInt.repr.toList := String.toList_ofList
    rw [hText, Lexeme.intRepr_eq, List.mem_append] at h
    rcases h with h | h
    · split at h <;> simp at h
    · exact Nat.not_mem_repr _ h
  | uint n =>
    refine Text.unbroken_of_not_mem fun h => ?_
    have hText : (Value.uint n).literal.toList = n.toNat.repr.toList := String.toList_ofList
    rw [hText] at h
    exact Nat.not_mem_repr _ h
  | float x =>
    refine Text.unbroken_of_not_mem fun h => ?_
    have hText : (Value.float x).literal.toList = Value.floatText x := String.toList_ofList
    rw [hText, Lexeme.floatText_eq, List.mem_append] at h
    rcases h with h | h
    · split at h <;> simp at h
    · exact absurd (Lexeme.isWordChar_of_mem_floatWord _ h) (by decide)
  | text s => exact (hQuoted _).unbroken (by decide)
  | blob bytes => exact (hQuoted _).unbroken (by decide)
  | json document => exact (hQuoted _).unbroken (by decide)

theorem Naming.unbroken_qualify {field : String} (h : Text.Unbroken field) (n : Naming) :
    Text.Unbroken (n.qualify field) := by
  cases n with
  | bare => exact h
  | aliased base tables =>
    rw [qualify]
    split
    · exact h
    · have hDot : Text.Unbroken (base ++ ".") := .behind (by decide) (by decide) base
      exact hDot.append h

theorem Operator.unbroken_fragment (op : Operator) : Text.Unbroken op.fragment := by
  cases op <;> decide

theorem Operator.fragment_ne_empty (op : Operator) : op.fragment ≠ "" := by cases op <;> decide

/-! ### The line of a join -/

/-- The line of a join without its break. -/
def Join.lineText (schema : String) (n : Naming) (j : Join) : String :=
  j.mode.keyword ++ " " ++ schema ++ "." ++ j.table ++ " " ++ j.name ++ j.onText n

theorem Join.join_text (schema : String) (n : Naming) (joins : List Join) :
    String.join (joins.map (Join.text schema n))
      = Text.ofLines (joins.map (Join.lineText schema n)) := by
  rw [Text.ofLines, List.map_map]
  rfl

theorem OnTerm.unbroken_text {t : OnTerm} (h : ∀ foreign, t.foreign? = some foreign →
    Text.Unbroken foreign) (n : Naming) (name : String) : Text.Unbroken (t.text n name) := by
  have hFront : Text.Unbroken (" AND " ++ Field.ofTable name t.field ++ t.operator.fragment) :=
    t.operator.unbroken_fragment.behind t.operator.fragment_ne_empty _
  rw [text]
  refine hFront.append ?_
  split
  · exact Text.unbroken_empty
  · cases hTarget : t.target with
    | field foreign => exact Naming.unbroken_qualify (h foreign (by rw [foreign?, hTarget])) n
    | value v => exact v.unbroken_literal

theorem Join.unbroken_lineText {j : Join} (h : ∀ foreign ∈ j.foreignFields, Text.Unbroken foreign)
    (schema : String) (n : Naming) : Text.Unbroken (j.lineText schema n) := by
  obtain ⟨hForeign, hTerms⟩ := List.forall_mem_cons.mp h
  have hEquals : Text.Unbroken (" ON " ++ Field.ofTable j.name j.field ++ "=") :=
    .behind (by decide) (by decide) _
  have hOn : Text.Unbroken (j.onText n) := by
    refine (hEquals.append (Naming.unbroken_qualify hForeign n)).append (Text.unbroken_join ?_)
    refine List.forall_mem_map.mpr fun t ht => OnTerm.unbroken_text (fun foreign hf => ?_) n j.name
    exact hTerms foreign (List.mem_filterMap.mpr ⟨t, ht, hf⟩)
  exact hOn.behind (by simp [onText]) _

/-! ### The WHERE line -/

/-- The line with the fixed equalities and the parts of a filter, none if there is neither a fixed
equality nor a condition. -/
def whereLines (n : Naming) (correlation : Option Correlation) (row : Option UInt64) (f : Filter)
    (rendered : List Compiled) : List String :=
  if correlation.isNone ∧ row = none ∧ f.occurrences = [] then []
  else ["WHERE " ++ " AND ".intercalate ((fixedTerms n correlation row ++ rendered).map (·.sql))]

theorem Condition.unbroken_of_render {schema : String} {n : Naming} {c : Condition} {r : Compiled}
    (h : c.render schema n = some r) : Text.Unbroken r.sql := by
  obtain ⟨operand, hOperand, rfl⟩ := Option.map_eq_some_iff.mp h
  have hFront : Text.Unbroken (n.qualify c.field ++ c.operator.fragment) :=
    c.operator.unbroken_fragment.behind c.operator.fragment_ne_empty _
  refine hFront.append ?_
  have hClosed : ∀ text : String, Text.Unbroken (text ++ ")") :=
    fun text => (by decide : Text.Unbroken ")").behind (by decide) text
  cases hTest : c.test with
  | compare _ _ =>
    rw [hTest] at hOperand
    obtain rfl := Option.some.inj hOperand
    exact (by decide : Text.Unbroken "?")
  | null | notNull =>
    rw [hTest] at hOperand
    obtain rfl := Option.some.inj hOperand
    exact Text.unbroken_empty
  | between _ _ | notBetween _ _ =>
    rw [hTest] at hOperand
    obtain rfl := Option.some.inj hOperand
    exact (by decide : Text.Unbroken " ? AND ?")
  | inList _ | notIn _ =>
    rw [hTest, Test.operand] at hOperand
    split at hOperand
    · cases hOperand
    · obtain rfl := Option.some.inj hOperand
      exact hClosed _
  | inSubquery _ =>
    rw [hTest, Test.operand] at hOperand
    split at hOperand
    · cases hOperand
    · obtain rfl := Option.some.inj hOperand
      exact hClosed _

theorem Part.unbroken_of_render {schema : String} {n : Naming} {p : Part} {r : Compiled}
    (h : p.render schema n = some r) : Text.Unbroken r.sql := by
  cases p with
  | condition c =>
    rw [Part.render] at h
    exact Condition.unbroken_of_render h
  | group alternatives =>
    rw [Part.render] at h
    obtain ⟨rendered, -, rfl⟩ := Option.map_eq_some_iff.mp h
    exact (by decide : Text.Unbroken ")").behind (by decide) _

theorem Part.unbroken_of_renderAll {schema : String} {n : Naming} : ∀ {parts : List Part}
    {rendered : List Compiled}, Part.renderAll schema n parts = some rendered →
    ∀ r ∈ rendered, Text.Unbroken r.sql
  | [], rendered, h => by
    obtain rfl := Option.some.inj ((Part.renderAll.eq_1 ..).symm.trans h)
    exact fun r hr => absurd hr List.not_mem_nil
  | p :: rest, rendered, h => by
    rw [Part.renderAll, Option.bind_eq_some_iff] at h
    obtain ⟨first, hFirst, hRest⟩ := h
    obtain ⟨others, hOthers, rfl⟩ := Option.map_eq_some_iff.mp hRest
    exact List.forall_mem_cons.mpr
      ⟨Part.unbroken_of_render hFirst, Part.unbroken_of_renderAll hOthers⟩

theorem unbroken_fixedTerms {n : Naming} {correlation : Option Correlation}
    {row : Option UInt64} (h : ∀ c, correlation = some c → Text.Unbroken c.outer) :
    ∀ r ∈ fixedTerms n correlation row, Text.Unbroken r.sql := by
  rw [fixedTerms, List.forall_mem_append]
  constructor
  · cases correlation with
    | none => simp
    | some c =>
      have hEquals : Text.Unbroken (n.qualify c.inner ++ "=") := .behind (by decide) (by decide) _
      exact List.forall_mem_singleton.mpr (hEquals.append (h c rfl))
  · cases row with
    | none => simp
    | some id =>
      have hEquals : Text.Unbroken (n.qualify "id" ++ "=") := .behind (by decide) (by decide) _
      have hNumber := Text.unbroken_of_not_mem (Nat.not_mem_repr id.toNat)
      exact List.forall_mem_singleton.mpr (hEquals.append hNumber)

section

variable {schema : String} {n : Naming} {correlation : Option Correlation} {row : Option UInt64}
  {f : Filter} {rendered : List Compiled}

theorem whereLines_eq_nil_iff : whereLines n correlation row f rendered = []
    ↔ correlation = none ∧ row = none ∧ f.occurrences = [] := by
  rw [← Option.isNone_iff_eq_none, whereLines]
  split
  · next h => exact iff_of_true rfl h
  · next h => exact iff_of_false (List.cons_ne_nil _ _) h

theorem unbroken_whereLines (hOuter : ∀ c, correlation = some c → Text.Unbroken c.outer)
    (h : Part.renderAll schema n f.parts = some rendered) :
    ∀ line ∈ whereLines n correlation row f rendered, Text.Unbroken line ∧ line ≠ "" := by
  rw [whereLines]
  split
  · exact fun line hLine => absurd hLine List.not_mem_nil
  · refine List.forall_mem_singleton.mpr ⟨.append (by decide) ?_, by simp⟩
    refine Text.unbroken_intercalate (by decide) (List.forall_mem_map.mpr ?_)
    exact List.forall_mem_append.mpr ⟨unbroken_fixedTerms hOuter, Part.unbroken_of_renderAll h⟩

theorem Compiled.whereLine_sql_eq (h : Part.renderAll schema n f.parts = some rendered) :
    (Compiled.whereLine (fixedTerms n correlation row ++ rendered)).sql
      = Text.ofLines (whereLines n correlation row f rendered) := by
  have hNothing : fixedTerms n correlation row ++ rendered = []
      ↔ correlation.isNone ∧ row = none ∧ f.occurrences = [] := by
    rw [List.append_eq_nil_iff, fixedTerms_eq_nil_iff, ← Filter.parts_eq_nil_iff,
      ← List.length_eq_zero_iff, Part.length_of_renderAll _ h, List.length_eq_zero_iff, and_assoc,
      Option.isNone_iff_eq_none]
  rw [whereLine, whereLines]
  by_cases hNone : correlation.isNone ∧ row = none ∧ f.occurrences = []
  · rw [if_pos hNone, hNothing.mpr hNone]
    rfl
  · rw [if_neg hNone, if_neg (by simpa using mt hNothing.mp hNone), Text.ofLines_singleton]
    rfl

/-- A WHERE without errors is its line, and it binds what its parts bind. -/
theorem exists_rendered_of_whereScript (schema : String) (correlation : Option Correlation)
    (row : Option UInt64) (h : (f.terms n).findSome? failure? = none) :
    ∃ rendered, Part.renderAll schema n f.parts = some rendered ∧
      rendered.flatMap (·.params) = f.boundValues ∧
      written schema (whereScript n correlation row (f.terms n))
        = (Text.ofLines (whereLines n correlation row f rendered)).toList := by
  have hRendered := Filter.renderAll_terms schema h
  refine ⟨_, hRendered, ?_, ?_⟩
  · rw [List.flatMap_map, ← Filter.bound_terms n f h]
    rfl
  · rw [← Compiled.whereLine_sql_eq hRendered, ← fragment_whereScript, fragment,
      String.toList_ofList]

end

end SqlStatement
