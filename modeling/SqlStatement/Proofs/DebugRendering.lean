import Mathlib
import SqlStatement.Proofs.RuledStatements
import SqlStatement.Proofs.Substitution

/-!
# Values put in for people

A compiled statement is shown by going over its text once more, and the question
marks in it are taken for the placeholders.  If no identifier holds a question
mark, the only others are those in the literals of ON clauses.

* `Statement.marks`: the characters of a statement, each with what it stands for.
* `TextRule.unmarked`: what the statement itself says that holds no question mark.
* `Statement.debugText_compile`: the values are put in at their own placeholders if
  and only if no question mark stands for itself in front of one, and nothing is
  put into a value.
* `Statement.not_rendered_withNote`: a literal that takes the value of a condition.
-/

namespace SqlStatement

open Mark Script Text TextRule

/-! ### Texts with their meaning -/

theorem Text.map_dropEndWhile {α β : Type} (f : α → β) (p : β → Bool) (l : List α) :
    (dropEndWhile (p ∘ f) l).map f = dropEndWhile p (l.map f) := by
  rw [dropEndWhile, dropEndWhile, ← List.map_reverse, List.dropWhile_map, List.map_reverse]

/-- Dropping what has no image at the end changes nothing. -/
theorem Text.filterMap_dropEndWhile {α β : Type} {f : α → Option β} {p : α → Bool}
    (h : ∀ a, p a = true → f a = none) (l : List α) :
    (dropEndWhile p l).filterMap f = l.filterMap f := by
  have hDropped : ∀ l : List α, (l.dropWhile p).filterMap f = l.filterMap f := by
    intro l
    induction l with
    | nil => rfl
    | cons a rest ih =>
      rw [List.dropWhile_cons]
      split
      · next ha => rw [ih, List.filterMap_cons_none (h a ha)]
      · rfl
  rw [dropEndWhile, List.filterMap_reverse, hDropped, List.filterMap_reverse, List.reverse_reverse]

namespace Mark

/-- The line break itself, which no placeholder is. -/
def isNewline (m : Mark) : Bool := m.written == '\n'

theorem value?_of_isNewline {m : Mark} (h : m.isNewline = true) : m.value? = none := by
  cases m with
  | char c => rfl
  | placeholder v => exact absurd h (by decide : ¬ ('?' == '\n') = true)

theorem filterMap_value?_char (l : List Char) : (l.map char).filterMap value? = [] := by
  rw [List.filterMap_map]
  exact List.filterMap_eq_nil_iff.mpr fun _ _ => rfl

theorem map_written_char (l : List Char) : (l.map char).map written = l := by
  rw [List.map_map]
  exact List.map_id l

theorem char_mem_map {c : Char} {l : List Char} : char c ∈ l.map char ↔ c ∈ l :=
  List.mem_map_of_injective fun _ _ => Mark.char.inj

end Mark

namespace Script

mutual

def pieceMarks (schema : String) : Piece → List Mark
  | .text s => s.toList.map char
  | .table name => (schema ++ "." ++ name).toList.map char
  | .placeholder v => [.placeholder v]
  | .nested body => dropEndWhile isNewline (marks schema body)
  | .aliases _ | .fail _ => []

/-- The text of the pieces, where every placeholder knows its value. -/
def marks (schema : String) : List Piece → List Mark
  | [] => []
  | p :: rest => pieceMarks schema p ++ marks schema rest

end

variable {schema : String}

mutual

theorem map_written_pieceMarks : ∀ p : Piece,
    (pieceMarks schema p).map Mark.written = pieceWritten schema p
  | .text s => by rw [pieceMarks, pieceWritten, map_written_char]
  | .table name => by rw [pieceMarks, pieceWritten, map_written_char]
  | .placeholder _ => rfl
  | .aliases _ => rfl
  | .fail _ => rfl
  | .nested body => by
    rw [pieceMarks, pieceWritten, ← map_written_marks body]
    exact map_dropEndWhile Mark.written (· == '\n') _

theorem map_written_marks : ∀ s : Script, (marks schema s).map Mark.written = written schema s
  | [] => rfl
  | p :: rest => by
    rw [marks, written, List.map_append, map_written_pieceMarks p, map_written_marks rest]

end

mutual

theorem filterMap_pieceMarks : ∀ p : Piece, (pieceMarks schema p).filterMap value? = pieceBound p
  | .text s => by rw [pieceMarks, pieceBound, filterMap_value?_char]
  | .table name => by rw [pieceMarks, pieceBound, filterMap_value?_char]
  | .placeholder _ => rfl
  | .aliases _ => rfl
  | .fail _ => rfl
  | .nested body => by
    rw [pieceMarks, pieceBound, filterMap_dropEndWhile fun _ => value?_of_isNewline,
      filterMap_marks body]

theorem filterMap_marks : ∀ s : Script, (marks schema s).filterMap value? = bound s
  | [] => rfl
  | p :: rest => by
    rw [marks, bound, List.filterMap_append, filterMap_pieceMarks p, filterMap_marks rest]

end

end Script

/-! ### Texts without a question mark -/

/-- No identifier and no other text holds a question mark. -/
def TextRule.unmarked : TextRule where
  allowed c := c != '?'
  Good s := '?' ∉ s.toList
  allowed_of_plain c h := by
    simp only [isPlainChar, Bool.and_eq_true] at h
    exact h.1.1
  good_of_allowed s h hMem := by simpa using h '?' hMem
  good_append ha hb := by
    rw [String.toList_append, List.mem_append]
    exact fun h => h.elim ha hb
  good_quoted s h := by
    simp only [String.toList_append, List.mem_append]
    rintro ((h' | h') | h')
    · exact absurd h' (by decide)
    · simpa using h '?' h'
    · exact absurd h' (by decide)

theorem TextRule.name_unmarked_iff {s : String} : unmarked.Name s ↔ '?' ∉ s.toList := by
  constructor
  · exact TextRule.Name.good
  · intro h c hc
    exact bne_iff_ne.mpr fun he => h (he ▸ hc)

namespace Script

variable {schema : String}

mutual

theorem not_mem_pieceMarks (hSchema : '?' ∉ schema.toList) : ∀ p : Piece, pieceMeets .unmarked p →
    .char '?' ∉ pieceMarks schema p
  | .text s, h => by
    rw [pieceMarks, char_mem_map]
    exact h
  | .table name, h => by
    rw [pieceMarks, char_mem_map]
    rw [String.toList_append, String.toList_append, List.mem_append, List.mem_append]
    rintro ((hMem | hMem) | hMem)
    · exact hSchema hMem
    · exact absurd hMem (by decide)
    · exact name_unmarked_iff.mp h hMem
  | .placeholder _, _ => by simp [pieceMarks]
  | .aliases _, _ => List.not_mem_nil
  | .fail _, _ => List.not_mem_nil
  | .nested body, h => fun hMem => not_mem_marks hSchema body h (mem_dropEndWhile hMem)

theorem not_mem_marks (hSchema : '?' ∉ schema.toList) : ∀ s : Script, Meets .unmarked s →
    .char '?' ∉ marks schema s
  | [], _ => List.not_mem_nil
  | p :: rest, ⟨hPiece, hRest⟩ => by
    rw [marks, List.mem_append]
    exact fun h => h.elim (not_mem_pieceMarks hSchema p hPiece) (not_mem_marks hSchema rest hRest)

end

end Script

/-! ### Compiled statements -/

namespace Statement

/-- The characters of a statement, each with what it stands for. -/
def marks (schema : String) (s : Statement) : List Mark :=
  dropEndWhile isNewline (Script.marks schema s.script)

/-- The text of a statement with each value at its own placeholder. -/
def rendered (schema : String) (s : Statement) : String :=
  String.ofList (trim ((s.marks schema).flatMap displayed))

variable {schema : String} {s : Statement} {c : Compiled}

theorem map_written_marks (h : s.compile schema = .ok c) :
    (s.marks schema).map Mark.written = c.sql.toList := by
  obtain ⟨-, rfl⟩ := compile_eq_ok_iff.mp h
  rw [compiled, String.toList_ofList, ← Script.map_written_marks s.script]
  exact map_dropEndWhile Mark.written (· == '\n') _

theorem filterMap_marks (h : s.compile schema = .ok c) :
    (s.marks schema).filterMap value? = c.params := by
  obtain ⟨-, rfl⟩ := compile_eq_ok_iff.mp h
  rw [compiled, ← @Script.filterMap_marks schema s.script]
  exact filterMap_dropEndWhile (fun _ => value?_of_isNewline) _

/-- Without a question mark in a literal there is none that stands for itself. -/
theorem not_mem_marks (hSchema : '?' ∉ schema.toList) (hTexts : ∀ t ∈ s.texts, '?' ∉ t.toList)
    (hValues : ∀ v ∈ s.onValues, '?' ∉ v.literal.toList) : .char '?' ∉ s.marks schema := by
  have hMeets : Meets .unmarked s.script :=
    s.meets_script (fun t ht => name_unmarked_iff.mpr (hTexts t ht)) hValues
  exact fun hMem => Script.not_mem_marks hSchema s.script hMeets (mem_dropEndWhile hMem)

/-- The values are taken in order by the question marks of the text, and no text of a value is
looked at again.  Each of them stands at its own placeholder exactly if no question mark stands for
itself in front of one; only the literals of ON clauses can hold such a question mark. -/
theorem debugText_compile (hSchema : '?' ∉ schema.toList) (hTexts : ∀ t ∈ s.texts, '?' ∉ t.toList)
    (h : s.compile schema = .ok c) :
    (s.marks schema).map Mark.written = c.sql.toList ∧
      (s.marks schema).filterMap value? = c.params ∧
      debugText (s.compile schema)
        = String.ofList (trim ((assigned c.sql.toList c.params).flatMap displayed)) ∧
      (assigned c.sql.toList c.params = s.marks schema ↔ Aligned (s.marks schema)) ∧
      (Aligned (s.marks schema) → debugText (s.compile schema) = s.rendered schema) ∧
      ((∀ v ∈ s.onValues, '?' ∉ v.literal.toList) → Aligned (s.marks schema)) := by
  have hWritten := map_written_marks h
  have hValues := filterMap_marks h
  have hText : debugText (s.compile schema)
      = String.ofList (trim ((assigned c.sql.toList c.params).flatMap displayed)) := by
    rw [h, debugText, Compiled.substituted, substitute_eq]
  have hAssigned : assigned c.sql.toList c.params = s.marks schema ↔ Aligned (s.marks schema) := by
    rw [← hWritten, ← hValues]
    exact assigned_eq_iff _
  refine ⟨hWritten, hValues, hText, hAssigned, fun hAligned => ?_, fun hLiterals => ?_⟩
  · rw [hText, hAssigned.mpr hAligned, rendered]
  · exact aligned_of_not_mem (not_mem_marks hSchema hTexts hLiterals)

/-- A join to the orders with a fixed note, and a condition on the name. -/
def withNote (note : String) : Statement :=
  .select <| Select.ofTable "users"
    |>.fields [.plain "id"]
    |>.join ⟨.inner, "orders", "o", "user_id", "id", [.fixed "note" (.text note)]⟩
    |>.filtered (Filter.any.compare .eq "name" (.text "Ann?"))

theorem debugText_compile_withNote : ∃ c, (withNote "paid").compile "shop" = .ok c ∧
    debugText ((withNote "paid").compile "shop") = (withNote "paid").rendered "shop" := by
  refine ⟨_, rfl, ?_⟩
  obtain ⟨-, -, -, -, hRendered, hAligned⟩ :=
    @debugText_compile "shop" (withNote "paid") _ (by decide) (by decide) rfl
  exact hRendered (hAligned (by decide))

/-- The question mark in the literal takes the value of the condition. -/
theorem not_rendered_withNote : (∀ t ∈ (withNote "why?").texts, '?' ∉ t.toList) ∧
    debugText ((withNote "why?").compile "shop")
      = "SELECT u.id\nFROM shop.users u\nINNER JOIN shop.orders o ON o.user_id=u.id AND "
        ++ "o.note='whyAnn?'\nWHERE u.name=?" ∧
    (withNote "why?").rendered "shop"
      = "SELECT u.id\nFROM shop.users u\nINNER JOIN shop.orders o ON o.user_id=u.id AND "
        ++ "o.note='why?'\nWHERE u.name=Ann?" := by
  refine ⟨by decide, by cbv, by cbv⟩

end Statement

end SqlStatement
