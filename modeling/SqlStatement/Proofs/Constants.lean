import SqlStatement.Proofs.InlineValues

/-!
# Values that have a literal

Numbers are written the way they are displayed, and MySQL has no numeral for what
is not finite: `NaN` and `inf` are names of columns to it.

* `Lexeme.IsConstant`: the lexemes that are one literal.
* `Value.isExpressible`: every value but a number that is not finite.
* `OnTerm.IsShaped`: a term that compares a column with a column or a literal.
* `Join.shaped_iff_of_runIn`: the expressible values are those whose literal is
  one, and a join has only well shaped terms iff its values are expressible.
-/

namespace SqlStatement

open Script Text

/-- A literal of SQL: a keyword, a number, a string or a run of bytes. -/
inductive Lexeme.IsConstant : Lexeme → Prop
  | null : IsConstant (.word false ['N', 'U', 'L', 'L'])
  | true : IsConstant (.word false ['T', 'R', 'U', 'E'])
  | false : IsConstant (.word false ['F', 'A', 'L', 'S', 'E'])
  | number {negative : Bool} {l : List Char} : IsNumeral l → IsConstant (.word negative l)
  | string (l : List Char) : IsConstant (.string l)
  | bytes (l : List UInt8) : IsConstant (.bytes l)

/-- The value is no NaN and not infinite. -/
def Value.isExpressible : Value → Bool
  | .float x => x.isFinite
  | _ => true

theorem Lexeme.IsNumeral.isDigit_head {c : Char} {l : List Char} (h : IsNumeral (c :: l)) :
    c.isDigit = true := by
  generalize hl : c :: l = m at h
  cases h with
  | whole _ hDigits => exact hDigits c (hl ▸ List.mem_cons_self)
  | @point before _ hNe hDigits _ =>
    obtain ⟨d, before, rfl⟩ := List.exists_cons_of_ne_nil hNe
    obtain ⟨rfl, -⟩ := List.cons.inj hl
    exact hDigits c List.mem_cons_self

/-- A name in place of a number is no constant. -/
theorem Lexeme.not_isConstant_word {negative : Bool} {c : Char} {l : List Char}
    (hDigit : c.isDigit = false) (hKeyword : c :: l ∉ [['N', 'U', 'L', 'L'], ['T', 'R', 'U', 'E'],
      ['F', 'A', 'L', 'S', 'E']]) : ¬ IsConstant (.word negative (c :: l)) := by
  intro h
  cases h with
  | null => simp at hKeyword
  | true => simp at hKeyword
  | false => simp at hKeyword
  | number h => rw [h.isDigit_head] at hDigit; cases hDigit

theorem Binary64.isNaN_or_isInfinite_iff {x : Binary64} :
    (x.isNaN = true ∨ x.isInfinite = true) ↔ x.isFinite = false := by
  rw [isNaN, isInfinite, isFinite]
  by_cases hZero : x.fraction = 0 <;> simp [hZero]

/-- The forms of all values, the floats that are not finite among them. -/
theorem Value.isConstant_lexeme_iff (v : Value) : v.lexeme.IsConstant ↔ v.isExpressible = true := by
  cases v with
  | null => exact iff_of_true .null rfl
  | bool b => cases b <;> exact iff_of_true (by constructor) rfl
  | int n => exact iff_of_true (.number (Lexeme.isNumeral_natRepr _)) rfl
  | uint n => exact iff_of_true (.number (Lexeme.isNumeral_natRepr _)) rfl
  | text s => exact iff_of_true (.string _) rfl
  | json document => exact iff_of_true (.string _) rfl
  | blob l => exact iff_of_true (.bytes l) rfl
  | float x =>
    rw [lexeme, floatWord, isExpressible]
    cases hNaN : x.isNaN with
    | true =>
      have hFinite := Binary64.isNaN_or_isInfinite_iff.mp (.inl hNaN)
      rw [hFinite, if_pos rfl]
      exact iff_of_false (Lexeme.not_isConstant_word rfl (by decide)) (by decide)
    | false =>
      cases hInfinite : x.isInfinite with
      | true =>
        have hFinite := Binary64.isNaN_or_isInfinite_iff.mp (.inr hInfinite)
        rw [hFinite, if_neg (by decide), if_pos rfl]
        exact iff_of_false (Lexeme.not_isConstant_word rfl (by decide)) (by decide)
      | false =>
        have hFinite : x.isFinite = true := by
          rw [← Bool.not_eq_false, ← Binary64.isNaN_or_isInfinite_iff, hNaN, hInfinite]
          decide
        rw [hFinite, if_neg (by decide), if_neg (by decide)]
        exact iff_of_true (.number (Lexeme.isNumeral_decimal x .up)) rfl

/-- The text is one literal and nothing else. -/
def Lexeme.IsLiteral (text : String) : Prop :=
  ∃ k, read text.toList = some (k, []) ∧ k.IsConstant

theorem Value.isLiteral_iff (v : Value) :
    Lexeme.IsLiteral v.literal ↔ v.isExpressible = true := by
  have hEnds : Lexeme.Ends [] := fun c hc => by cases hc
  have hRead := Lexeme.read_literal v hEnds
  rw [List.append_nil] at hRead
  rw [Lexeme.IsLiteral, hRead, ← v.isConstant_lexeme_iff]
  constructor
  · rintro ⟨k, hk, hConstant⟩
    obtain ⟨rfl, -⟩ := Prod.mk.inj (Option.some.inj hk)
    exact hConstant
  · exact fun h => ⟨v.lexeme, rfl, h⟩

/-! ### Terms -/

/-- What may stand behind the operator of a term: nothing after a null test, else the column or one
literal. -/
def OnTerm.IsRight (n : Naming) (t : OnTerm) (right : String) : Prop :=
  if t.operator.isNullTest then right = ""
  else t.operator.isComparison = true ∧
    match t.target with
    | .field foreign => right = n.qualify foreign
    | .value _ => Lexeme.IsLiteral right

/-- A column of the joined table, an operator and a right side. -/
def OnTerm.IsShaped (n : Naming) (name : String) (t : OnTerm) (text : String) : Prop :=
  ∃ right, text = " AND " ++ Field.ofTable name t.field ++ t.operator.fragment ++ right ∧
    t.IsRight n right

theorem OnTerm.isShaped_iff {n : Naming} {name : String} {t : OnTerm}
    (h : failure? (t.script n name) = none) :
    t.IsShaped n name (t.text n name) ↔ ∀ v ∈ t.values, v.isExpressible = true := by
  obtain ⟨field, operator, target⟩ := t
  have hRight : ∀ a : String,
      OnTerm.IsShaped n name ⟨field, operator, target⟩
          (" AND " ++ Field.ofTable name field ++ operator.fragment ++ a) ↔
        OnTerm.IsRight n ⟨field, operator, target⟩ a := by
    intro a
    constructor
    · rintro ⟨right, hText, hIs⟩
      rwa [(String.append_right_inj _).mp hText]
    · exact fun hIs => ⟨a, rfl, hIs⟩
  rw [text, hRight, IsRight, values]
  rw [script] at h
  by_cases hNull : operator.isNullTest = true
  · cases target <;> simp [hNull]
  · by_cases hComparison : operator.isComparison = true
    · cases target with
      | field foreign => simp [hNull, hComparison]
      | value v => simp [hNull, hComparison, Value.isLiteral_iff]
    · simp [hNull, hComparison] at h

namespace Join

/-- A join that can be written is its equality and its terms.  The literal of a value is one literal
exactly if the value is expressible, so the terms all compare a column with a column or with one
literal exactly if all values of the join are. -/
theorem shaped_iff_of_runIn {n : Naming} {j : Join} {c after : Context}
    (hRun : runIn (j.script n) c = .ok after) :
    after.sql = c.sql ++ (j.head c.schema n
      ++ String.join (j.terms.map (OnTerm.text n j.name)) ++ "\n") ∧
    (∀ v : Value, Lexeme.IsLiteral v.literal ↔ v.isExpressible = true) ∧
    ((∀ t ∈ j.terms, t.IsShaped n j.name (t.text n j.name)) ↔
      ∀ v ∈ j.values, v.isExpressible = true) := by
  obtain ⟨hNone, hSql⟩ := sql_of_runIn hRun
  have hTerms : ∀ t ∈ j.terms, failure? (t.script n j.name) = none := by
    rw [script, failure?_append, failure?_append, failure?_flatMap, Option.or_eq_none_iff,
      Option.or_eq_none_iff, List.findSome?_eq_none_iff] at hNone
    exact hNone.1.2
  refine ⟨by rw [hSql, text_eq_head_append], Value.isLiteral_iff, ?_⟩
  rw [values, forall₂_congr fun t ht => OnTerm.isShaped_iff (hTerms t ht)]
  simp only [List.mem_flatMap]
  constructor
  · rintro h v ⟨t, ht, hv⟩
    exact h t ht v hv
  · intro h t ht v hv
    exact h v ⟨t, ht, hv⟩

/-- A join on clients with this rate and no more than five visits. -/
def onRate (rate : Binary64) : Join :=
  ⟨.left, "clients", "c", "id", "client_id",
    [.fixed "rate" (.float rate), .compare "visits" .ltEq (.int 5)]⟩

/-- A half. -/
theorem shaped_iff_of_runIn_onRate : ∃ after,
    runIn ((onRate ⟨0x3FE0000000000000⟩).script .bare) (Context.ofSchema "shop") = .ok after ∧
    after.sql = "LEFT JOIN shop.clients c ON c.id=client_id AND c.rate=0.5 AND c.visits<=5\n" ∧
    Lexeme.IsLiteral (Value.float ⟨0x3FE0000000000000⟩).literal ∧
    ∀ t ∈ (onRate ⟨0x3FE0000000000000⟩).terms, t.IsShaped .bare "c" (t.text .bare "c") := by
  obtain ⟨after, hRun⟩ : ∃ after, runIn ((onRate ⟨0x3FE0000000000000⟩).script .bare)
      (Context.ofSchema "shop") = .ok after := ⟨_, rfl⟩
  obtain ⟨hSql, hLiteral, hShaped⟩ := shaped_iff_of_runIn hRun
  exact ⟨after, hRun, hSql.trans (by decide +kernel), (hLiteral _).mpr rfl, hShaped.mpr (by decide)⟩

/-- Not a number. -/
theorem not_isLiteral_onRate : ∃ after,
    runIn ((onRate ⟨0x7FF8000000000000⟩).script .bare) (Context.ofSchema "") = .ok after ∧
    after.sql = "LEFT JOIN .clients c ON c.id=client_id AND c.rate=NaN AND c.visits<=5\n" ∧
    Lexeme.read (Value.float ⟨0x7FF8000000000000⟩).literal.toList
      = some (.word false ['N', 'a', 'N'], []) ∧
    ¬ Lexeme.IsLiteral (Value.float ⟨0x7FF8000000000000⟩).literal :=
  ⟨_, rfl, by decide +kernel, by decide +kernel,
    fun h => absurd ((Value.isLiteral_iff _).mp h) (by decide)⟩

end Join

end SqlStatement
