import Mathlib.Data.List.Basic
import SqlStatement.Statement
import SqlStatement.Proofs.TrimmedTexts

/-!
# Which question mark takes which value

`substitute` goes over a text from left to right and gives each question mark
the next value.  It cannot tell the placeholder of a value from a question mark
that stands for itself.

* `Mark`: a character with what it stands for.
* `assigned`: the reading of a text that substitution takes; `substitute_eq` says
  that it puts every value where this reading has its placeholder, and never
  looks at it again.
* `assigned_eq_iff`: this is how the text was meant as long as no question mark
  stands for itself in front of a placeholder.
* `substitute_append`: what has been passed matters only by how many question
  marks, and so how many values, were in it.
* `Compiled.substituted_merges`: cut at its question marks, a text falls into pieces
  that are all kept, and one value after the other is put between them while
  values last.
-/

namespace SqlStatement

/-- A character that stands for itself, or the placeholder of a value. -/
inductive Mark
  | char (c : Char)
  | placeholder (v : Value)

namespace Mark

def written : Mark → Char
  | .char c => c
  | .placeholder _ => '?'

def value? : Mark → Option Value
  | .char _ => none
  | .placeholder v => some v

/-- The character itself, or the raw form of the value. -/
def displayed : Mark → List Char
  | .char c => [c]
  | .placeholder v => v.displayChars

/-- No question mark stands for itself in front of a placeholder. -/
def Aligned (l : List Mark) : Prop :=
  ∀ before after, l = before ++ .char '?' :: after → after.filterMap value? = []

theorem aligned_cons {m : Mark} {rest : List Mark} :
    Aligned (m :: rest) ↔ (m = .char '?' → rest.filterMap value? = []) ∧ Aligned rest := by
  constructor
  · intro h
    refine ⟨?_, fun before after hSplit => h (m :: before) after (by rw [hSplit]; rfl)⟩
    rintro rfl
    exact h [] rest rfl
  · rintro ⟨hHead, hRest⟩ before after hSplit
    cases before with
    | nil =>
      obtain ⟨hm, rfl⟩ := List.cons_eq_cons.mp hSplit
      exact hHead hm
    | cons x before => exact hRest before after (List.cons_eq_cons.mp hSplit).2

/-- A text where no question mark stands for itself. -/
theorem aligned_of_not_mem {l : List Mark} (h : .char '?' ∉ l) : Aligned l := by
  intro before after hSplit
  exact absurd (hSplit ▸ List.mem_append_right _ List.mem_cons_self) h

end Mark

open Mark

/-- Each question mark is read as the placeholder of the next value, while values last. -/
def assigned : List Char → List Value → List Mark
  | [], _ => []
  | '?' :: rest, v :: values => .placeholder v :: assigned rest values
  | c :: rest, values => .char c :: assigned rest values

theorem substitute_eq (l : List Char) (values : List Value) :
    substitute l values = (assigned l values).flatMap displayed := by
  induction l, values using substitute.induct with
  | case1 values => rfl
  | case2 rest v values ih =>
    rw [substitute, assigned, ih]
    rfl
  | case3 c rest values h ih =>
    rw [substitute, assigned, ih]
    · rfl
    · exact h
    · exact h

theorem assigned_cons_char {c : Char} {values : List Value} (h : c = '?' → values = [])
    (rest : List Char) : assigned (c :: rest) values = .char c :: assigned rest values := by
  rw [assigned]
  rintro v more rfl rfl
  exact List.cons_ne_nil _ _ (h rfl)

/-- What is written is read as it was meant exactly if it is aligned. -/
theorem assigned_eq_iff (l : List Mark) :
    assigned (l.map written) (l.filterMap value?) = l ↔ Aligned l := by
  induction l with
  | nil => exact ⟨fun _ => aligned_of_not_mem List.not_mem_nil, fun _ => rfl⟩
  | cons m rest ih =>
    rw [aligned_cons, ← ih]
    cases m with
    | placeholder v => simp [assigned, written, value?]
    | char c =>
      rw [List.map_cons, written, List.filterMap_cons_none rfl, Mark.char.injEq]
      by_cases h : c = '?' → rest.filterMap value? = []
      · rw [assigned_cons_char h, List.cons.injEq]
        exact ⟨fun he => ⟨h, he.2⟩, fun he => ⟨rfl, he.2⟩⟩
      · -- the first of the values that follow is taken too early
        obtain ⟨rfl, hValues⟩ := Classical.not_imp.mp h
        obtain ⟨v, values, hCons⟩ := List.exists_cons_of_ne_nil hValues
        rw [hCons, assigned]
        simp

/-! ### Passing over a text -/

theorem substitute_cons_char {c : Char} {values : List Value} (h : c = '?' → values = [])
    (rest : List Char) : substitute (c :: rest) values = c :: substitute rest values := by
  rw [substitute_eq, assigned_cons_char h, substitute_eq]
  rfl

/-- A question mark takes one value, whatever that value holds, and nothing else takes any. -/
theorem substitute_append (a b : List Char) (values : List Value) :
    substitute (a ++ b) values
      = substitute a values ++ substitute b (values.drop (a.count '?')) := by
  induction a generalizing values with
  | nil => rfl
  | cons c rest ih =>
    by_cases hMark : c = '?'
    · subst hMark
      rw [List.cons_append, List.count_cons_self]
      cases values with
      | nil =>
        rw [substitute_cons_char fun _ => rfl, substitute_cons_char fun _ => rfl, ih,
          List.drop_nil, List.drop_nil, List.cons_append]
      | cons v values => rw [substitute, substitute, ih, List.drop_succ_cons, List.append_assoc]
    · have hChar : c = '?' → values = [] := fun h => absurd h hMark
      rw [List.cons_append, substitute_cons_char hChar, substitute_cons_char hChar, ih,
        List.count_cons_of_ne hMark, List.cons_append]

theorem substitute_of_not_mem {l : List Char} (h : '?' ∉ l) (values : List Value) :
    substitute l values = l := by
  induction l with
  | nil => rfl
  | cons c rest ih =>
    obtain ⟨hHead, hRest⟩ := List.ne_and_not_mem_of_not_mem_cons h
    rw [substitute_cons_char fun hMark => absurd hMark.symm hHead, ih hRest]

/-! ### Between the pieces of a text -/

/-- The pieces of a text, with a filling between every two of them. -/
def merged (pieces fillings : List (List Char)) : List Char :=
  (List.zipWith (· ++ ·) pieces (fillings ++ [[]])).flatten

theorem merged_singleton (piece : List Char) : merged [piece] [] = piece := by simp [merged]

theorem merged_cons_cons (piece filling : List Char) (pieces fillings : List (List Char)) :
    merged (piece :: pieces) (filling :: fillings)
      = piece ++ (filling ++ merged pieces fillings) := by
  simp [merged]

/-- The raw forms of the first values, one for each of `n` places; the places for which there is no
value keep their question marks. -/
def fillings (n : Nat) (values : List Value) : List (List Char) :=
  (values.take n).map Value.displayChars ++ List.replicate (n - values.length) ['?']

@[simp] theorem length_fillings (n : Nat) (values : List Value) :
    (fillings n values).length = n := by
  rw [fillings, List.length_append, List.length_map, List.length_take, List.length_replicate]
  omega

theorem fillings_zero (values : List Value) : fillings 0 values = [] :=
  List.eq_nil_of_length_eq_zero (length_fillings 0 values)

theorem fillings_succ_nil (n : Nat) : fillings (n + 1) [] = ['?'] :: fillings n [] := by
  simp [fillings, List.replicate_succ]

theorem fillings_succ_cons (n : Nat) (v : Value) (values : List Value) :
    fillings (n + 1) (v :: values) = v.displayChars :: fillings n values := by
  simp [fillings]

/-- Every text falls into pieces at its question marks. -/
theorem exists_eq_merged (l : List Char) :
    ∃ pieces : List (List Char), pieces.length = l.count '?' + 1 ∧
      (∀ piece ∈ pieces, '?' ∉ piece) ∧
      l = merged pieces (List.replicate (l.count '?') ['?']) := by
  induction hCount : l.count '?' generalizing l with
  | zero =>
    have hMark : '?' ∉ l := List.count_eq_zero.mp hCount
    exact ⟨[l], rfl, List.forall_mem_singleton.mpr hMark, (merged_singleton l).symm⟩
  | succ n ih =>
    have hMem : '?' ∈ l := List.count_pos_iff.mp (by omega)
    obtain ⟨piece, rest, rfl, hMark⟩ := List.eq_append_cons_of_mem hMem
    have hRest : rest.count '?' = n := by
      rw [List.count_append, List.count_eq_zero_of_not_mem hMark, List.count_cons_self] at hCount
      omega
    obtain ⟨pieces, hLength, hMarks, hMerged⟩ := ih rest hRest
    refine ⟨piece :: pieces, by rw [List.length_cons, hLength], ?_, ?_⟩
    · exact List.forall_mem_cons.mpr ⟨hMark, hMarks⟩
    · rw [List.replicate_succ, merged_cons_cons, ← hMerged, List.singleton_append]

theorem substitute_merged {n : Nat} {pieces : List (List Char)} (hLength : pieces.length = n + 1)
    (hMarks : ∀ piece ∈ pieces, '?' ∉ piece) (values : List Value) :
    substitute (merged pieces (List.replicate n ['?'])) values
      = merged pieces (fillings n values) := by
  induction n generalizing pieces values with
  | zero =>
    obtain ⟨piece, rfl⟩ := List.length_eq_one_iff.mp hLength
    rw [List.replicate_zero, fillings_zero, merged_singleton,
      substitute_of_not_mem (hMarks piece List.mem_cons_self)]
  | succ n ih =>
    obtain ⟨piece, pieces, rfl⟩ := List.exists_cons_of_length_eq_add_one hLength
    obtain ⟨hMark, hMarks⟩ := List.forall_mem_cons.mp hMarks
    have hRest : pieces.length = n + 1 := Nat.succ.inj hLength
    -- the piece takes no value, so all of them are left for the question mark behind it
    rw [List.replicate_succ, merged_cons_cons, substitute_append, substitute_of_not_mem hMark,
      List.count_eq_zero_of_not_mem hMark, List.drop_zero, List.singleton_append]
    cases values with
    | nil =>
      rw [substitute_cons_char fun _ => rfl, ih hRest hMarks, fillings_succ_nil, merged_cons_cons,
        List.singleton_append]
    | cons v values => rw [substitute, ih hRest hMarks, fillings_succ_cons, merged_cons_cons]

/-- Between the pieces of the text stand, in place of the question marks, the raw forms of the first
values in order, as many as there are question marks for, and behind them the question marks for
which there is no value; what is blank at both ends is dropped. -/
theorem Compiled.substituted_merges (c : Compiled) :
    ∃ (pieces : List (List Char)) (front back : List Char),
      pieces.length = c.sql.toList.count '?' + 1 ∧ (∀ piece ∈ pieces, '?' ∉ piece) ∧
      c.sql.toList = merged pieces (List.replicate (c.sql.toList.count '?') ['?']) ∧
      merged pieces (fillings (c.sql.toList.count '?') c.params)
        = front ++ c.substituted.toList ++ back ∧
      (∀ x ∈ front ++ back, Text.isBlank x = true) ∧ Text.Trimmed c.substituted.toList := by
  obtain ⟨pieces, hLength, hMarks, hSql⟩ := exists_eq_merged c.sql.toList
  have hMerged : substitute c.sql.toList c.params
      = merged pieces (fillings (c.sql.toList.count '?') c.params) := by
    conv_lhs => rw [hSql]
    exact substitute_merged hLength hMarks c.params
  obtain ⟨front, back, hTrim, hBlank⟩ :=
    Text.exists_eq_append_trim (substitute c.sql.toList c.params)
  have hText : c.substituted.toList = Text.trim (substitute c.sql.toList c.params) := by
    rw [substituted, String.toList_ofList]
  refine ⟨pieces, front, back, hLength, hMarks, hSql, ?_, hBlank, ?_⟩
  · rw [← hMerged, hText]
    exact hTrim
  · rw [hText]
    exact Text.trimmed_trim _

example : Compiled.substituted ⟨" a=? AND b=? AND c=?\n", [.text "why?", .int 7]⟩
    = "a=why? AND b=7 AND c=?" := by cbv

end SqlStatement
