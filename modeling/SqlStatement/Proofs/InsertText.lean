import SqlStatement.Proofs.BoundValues
import SqlStatement.Proofs.ClauseLines

/-!
# The text of inserts

What an insert writes, of one row or of many, with and without a clause for
duplicate keys.  The last character is never a line break, so nothing is dropped
but the one that ends the last line.

* `Text.EndsIn`: the last character of a text, and `Text.EndsIn.chomp`: it keeps
  all that stands before it.
* `Insert.compile_eq_ok`, `BulkInsert.compile_eq_ok`: what compiles, and to what.
-/

namespace SqlStatement

open Script

/-! ### The last character -/

namespace Text

/-- The last character of a text. -/
def EndsIn (c : Char) (s : String) : Prop := ∃ front : List Char, s.toList = front ++ [c]

variable {c : Char} {s : String}

theorem EndsIn.append (h : EndsIn c s) (front : String) : EndsIn c (front ++ s) := by
  obtain ⟨l, hl⟩ := h
  refine ⟨front.toList ++ l, ?_⟩
  rw [String.toList_append, hl, List.append_assoc]

theorem EndsIn.intercalate {separator : String} : ∀ {items : List String}, items ≠ [] →
    (∀ s ∈ items, EndsIn c s) → EndsIn c (separator.intercalate items)
  | [], hNe, _ => absurd rfl hNe
  | [a], _, h => by
    rw [String.intercalate_singleton]
    exact h a List.mem_cons_self
  | a :: b :: rest, _, h => by
    rw [String.intercalate_cons_cons]
    have hRest := List.forall_mem_cons.mp h
    exact (EndsIn.intercalate (List.cons_ne_nil b rest) hRest.2).append _

/-- A line break at the end goes, and no more than that. -/
theorem EndsIn.chomp (h : EndsIn c s) (hc : c ≠ '\n') : Text.chomp (s ++ "\n") = s := by
  obtain ⟨l, hl⟩ := h
  have hKept : dropEndWhile (· == '\n') (l ++ [c]) = l ++ [c] :=
    dropEndWhile_concat l (beq_false_of_ne hc)
  rw [Text.chomp, String.toList_append, hl, show "\n".toList = ['\n'] from rfl,
    dropEndWhile_concat_drop _ rfl, hKept, ← hl, String.ofList_toList]

end Text

/-- A script that writes one line after another compiles to these lines without the last break. -/
theorem Script.compile_eq_ok_of_written {schema : String} {s : Script} {text : String} {c : Char}
    (hNone : failure? s = none) (hWritten : written schema s = (text ++ "\n").toList)
    (hLast : Text.EndsIn c text) (hc : c ≠ '\n') :
    compile schema s = .ok ⟨text, bound s⟩ := by
  have hText : String.ofList (Text.dropEndWhile (· == '\n') (written schema s)) = text := by
    rw [hWritten]
    exact hLast.chomp hc
  rw [compile_eq_ok_iff, compiled, hText]
  exact ⟨hNone, rfl⟩

/-! ### One row -/

namespace Assignment

/-- `field=?`, whatever the kind. -/
def setText (a : Assignment) : String := a.field ++ "=?"

/-- `field=?` or `field=field+?`. -/
def updateText (a : Assignment) : String :=
  match a.kind with
  | .assign => a.setText
  | .increment => a.field ++ "=" ++ a.field ++ "+?"

theorem endsIn_setText (a : Assignment) : Text.EndsIn '?' a.setText :=
  ⟨(a.field ++ "=").toList, by simp [setText]⟩

theorem endsIn_updateText (a : Assignment) : Text.EndsIn '?' a.updateText := by
  unfold updateText
  cases a.kind with
  | assign => exact a.endsIn_setText
  | increment => exact ⟨(a.field ++ "=" ++ a.field ++ "+").toList, by simp⟩

variable (schema : String)

theorem written_set (a : Assignment) : written schema (a.set .bare) = a.setText.toList := by
  simp [set, setText, Naming.qualify]

theorem written_update (a : Assignment) :
    written schema (a.update .bare) = a.updateText.toList := by
  unfold update updateText
  cases a.kind with
  | assign => exact a.written_set schema
  | increment => simp [Naming.qualify]

end Assignment

namespace Insert

/-- The lines that write the entries. -/
def setLines (schema table : String) (entries : Assignments) : String :=
  "INSERT " ++ schema ++ "." ++ table ++ "\nSET " ++ commas (entries.map Assignment.setText)

/-- The line that replaces the listed entries on a duplicate key. -/
def upsertLine (listed : Assignments) : String :=
  "ON DUPLICATE KEY UPDATE " ++ commas (listed.map Assignment.updateText)

theorem written_setScript (schema table : String) (entries : Assignments) :
    written schema ([.text "INSERT ", .table table, .text "\nSET "]
      ++ joined ", " (entries.map (Assignment.set .bare)) ++ [.text "\n"])
      = (setLines schema table entries ++ "\n").toList := by
  simp [setLines, commas, written_joined, Function.comp_def, Assignment.written_set]

theorem written_upsertScript (schema : String) (entries : Assignments) (u : Upsert) :
    written schema (upsertScript entries (some u))
      = (upsertLine (entries.filter fun a => u.includes a.field) ++ "\n").toList := by
  unfold upsertScript upsertLine commas
  simp only [written, pieceWritten, written_append, written_joined, List.cons_append,
    List.map_map, Function.comp_def, Assignment.written_update, String.toList_append,
    String.toList_intercalate, List.append_nil, List.append_assoc]

variable {i : Insert} {entries : Assignments}

theorem script_eq (hSorted : i.fields.sorted = .ok entries) (hNe : entries ≠ [])
    (hCheck : Upsert.check i.table entries.fields i.upsert = .ok ()) :
    i.script = [.text "INSERT ", .table i.table, .text "\nSET "]
      ++ joined ", " (entries.map (Assignment.set .bare)) ++ [.text "\n"]
      ++ upsertScript entries i.upsert := by
  rw [script, hSorted]
  cases entries with
  | nil => exact absurd rfl hNe
  | cons a rest => simp only [hCheck]

/-- An insert that replaces some of its entries on a duplicate key. -/
theorem compile_eq_ok (schema : String) {u : Upsert} (hUpsert : i.upsert = some u)
    (hSorted : i.fields.sorted = .ok entries)
    (hCheck : Upsert.check i.table entries.fields (some u) = .ok ()) {listed : Assignments}
    (hListed : entries.filter (fun a => u.includes a.field) = listed) (hNe : listed ≠ []) :
    compile schema i.script = .ok ⟨setLines schema i.table entries ++ "\n" ++ upsertLine listed,
      entries.map (·.value) ++ listed.map (·.value)⟩ := by
  have hEntries : entries ≠ [] := by
    rintro rfl
    exact hNe hListed.symm
  have hScript := script_eq hSorted hEntries (hUpsert ▸ hCheck)
  have hNone : failure? i.script = none := by
    rw [hScript, hUpsert]
    simp [failure?_joined, failure?_upsertScript, List.findSome?_map, Function.comp_def]
  have hWritten : written schema i.script
      = (setLines schema i.table entries ++ "\n" ++ upsertLine listed ++ "\n").toList := by
    rw [hScript, hUpsert, written_append, written_setScript, written_upsertScript, hListed]
    simp
  have hBound : bound i.script = entries.map (·.value) ++ listed.map (·.value) := by
    rw [hScript, hUpsert, bound_append, bound_upsertScript]
    simp [bound_joined, List.flatMap_map, ← List.map_eq_flatMap, hListed]
  have hLast : Text.EndsIn '?' (setLines schema i.table entries ++ "\n" ++ upsertLine listed) := by
    refine Text.EndsIn.append (Text.EndsIn.append (.intercalate ?_ ?_) _) _
    · simpa using hNe
    · exact List.forall_mem_map.mpr fun a _ => a.endsIn_updateText
  rw [compile_eq_ok_of_written hNone hWritten hLast (by decide), hBound]

end Insert

/-! ### Many rows -/

namespace BulkInsert

/-- As many placeholders. -/
def tuple (count : Nat) : String := "(" ++ ",".intercalate (List.replicate count "?") ++ ")"

/-- The lines that write as many rows with these columns. -/
def rowLines (schema table : String) (columns : List String) (count : Nat) : String :=
  "INSERT " ++ schema ++ "." ++ table ++ " (" ++ commas columns ++ ")\nVALUES "
    ++ ",".intercalate (List.replicate count (tuple columns.length))

/-- The line that replaces the listed columns on a duplicate key. -/
def upsertLine (listed : List String) : String :=
  "ON DUPLICATE KEY UPDATE " ++ ",".intercalate (listed.map assignment)

theorem endsIn_assignment (column : String) : Text.EndsIn ')' (assignment column) :=
  ⟨(column ++ "=VALUES(" ++ column).toList, by simp [assignment]⟩

theorem endsIn_tuple (count : Nat) : Text.EndsIn ')' (tuple count) :=
  ⟨("(" ++ ",".intercalate (List.replicate count "?")).toList, by simp [tuple]⟩

theorem written_rowScript (schema : String) (values : List Value) :
    written schema (rowScript values) = (tuple values.length).toList := by
  simp [rowScript, tuple, placeholders, written_joined, Function.comp_def]

/-- Rows that are as long as the columns. -/
theorem written_rowsScript (schema table : String) {columns : List String} {rows : List (List Value)}
    (hLength : ∀ values ∈ rows, values.length = columns.length) :
    written schema ([.text "INSERT ", .table table,
        .text (" (" ++ ", ".intercalate columns ++ ")\nVALUES ")]
      ++ joined "," (rows.map rowScript) ++ [.text "\n"])
      = (rowLines schema table columns rows.length ++ "\n").toList := by
  have hRows : rows.map (fun values => written schema (rowScript values))
      = List.replicate rows.length (tuple columns.length).toList := by
    rw [← List.map_const']
    refine List.map_congr_left fun values hValues => ?_
    rw [written_rowScript, hLength values hValues]
  unfold rowLines commas
  simp only [written, pieceWritten, written_append, written_joined, List.cons_append,
    List.nil_append, List.map_map, Function.comp_def, hRows, String.toList_append,
    String.toList_intercalate, List.map_replicate, List.append_nil, List.append_assoc]

theorem written_upsertScript (schema : String) (columns : List String) (u : Upsert) :
    written schema (upsertScript columns (some u))
      = (upsertLine (columns.filter u.includes) ++ "\n").toList := by
  unfold upsertScript upsertLine
  rw [written, written, pieceWritten, List.append_nil]

variable {b : BulkInsert}

theorem script_eq (hRefusal : b.refusal = none) (hRows : b.rows ≠ [])
    (hCheck : Upsert.check b.table b.columns b.upsert = .ok ()) :
    b.script = [.text "INSERT ", .table b.table,
        .text (" (" ++ ", ".intercalate b.columns ++ ")\nVALUES ")]
      ++ joined "," (b.rows.map rowScript) ++ [.text "\n"] ++ upsertScript b.columns b.upsert := by
  rw [script, hRefusal]
  cases h : b.rows with
  | nil => exact absurd h hRows
  | cons values rest => simp only [hCheck]

theorem endsIn_rowLines (schema table : String) (columns : List String) {count : Nat}
    (hCount : count ≠ 0) : Text.EndsIn ')' (rowLines schema table columns count) := by
  refine Text.EndsIn.append (.intercalate ?_ ?_) _
  · simpa using hCount
  · intro s hs
    rw [List.eq_of_mem_replicate hs]
    exact endsIn_tuple _

variable (schema : String) (hRefusal : b.refusal = none) (hRows : b.rows ≠ [])
  (hLength : ∀ values ∈ b.rows, values.length = b.columns.length)

include hRefusal hRows hLength

/-- Rows without a clause for duplicate keys. -/
theorem compile_eq_ok_of_none (hUpsert : b.upsert = none) : compile schema b.script
    = .ok ⟨rowLines schema b.table b.columns b.rows.length, b.rows.flatten⟩ := by
  have hScript := script_eq hRefusal hRows (hUpsert ▸ rfl)
  have hNone : failure? b.script = none := by
    rw [failure?_script, hRefusal, hUpsert]
    cases h : b.rows with
    | nil => exact absurd h hRows
    | cons values rest => rfl
  have hWritten : written schema b.script
      = (rowLines schema b.table b.columns b.rows.length ++ "\n").toList := by
    rw [hScript, hUpsert, written_append, written_rowsScript schema b.table hLength]
    simp [upsertScript]
  have hLast := endsIn_rowLines schema b.table b.columns (mt List.length_eq_zero_iff.mp hRows)
  rw [compile_eq_ok_of_written hNone hWritten hLast (by decide), bound_script b hNone]

/-- Rows that replace some of their columns on a duplicate key. -/
theorem compile_eq_ok {u : Upsert} (hUpsert : b.upsert = some u)
    (hCheck : Upsert.check b.table b.columns (some u) = .ok ()) {listed : List String}
    (hListed : b.columns.filter u.includes = listed) (hNe : listed ≠ []) : compile schema b.script
      = .ok ⟨rowLines schema b.table b.columns b.rows.length ++ "\n" ++ upsertLine listed,
        b.rows.flatten⟩ := by
  have hScript := script_eq hRefusal hRows (hUpsert ▸ hCheck)
  have hNone : failure? b.script = none := by
    rw [failure?_script, hRefusal, hUpsert, hCheck]
    cases h : b.rows with
    | nil => exact absurd h hRows
    | cons values rest => rfl
  have hWritten : written schema b.script
      = (rowLines schema b.table b.columns b.rows.length ++ "\n" ++ upsertLine listed
        ++ "\n").toList := by
    rw [hScript, hUpsert, written_append, written_rowsScript schema b.table hLength,
      written_upsertScript, hListed]
    simp
  have hLast : Text.EndsIn ')'
      (rowLines schema b.table b.columns b.rows.length ++ "\n" ++ upsertLine listed) := by
    refine Text.EndsIn.append (Text.EndsIn.append (.intercalate ?_ ?_) _) _
    · simpa using hNe
    · exact List.forall_mem_map.mpr fun column _ => endsIn_assignment column
  rw [compile_eq_ok_of_written hNone hWritten hLast (by decide), bound_script b hNone]

end BulkInsert

end SqlStatement
