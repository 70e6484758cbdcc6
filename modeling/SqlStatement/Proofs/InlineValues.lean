import SqlStatement.Proofs.ClauseLines
import SqlStatement.Proofs.Identifiers
import SqlStatement.Proofs.Lexemes

/-!
# Values in ON clauses

The one place where a value becomes part of the text is the right side of an ON
term.  There it stands between what the identifiers of its join have written and
a blank or a line break, and it is read as just that value.

* `Text.code`: what a scan meets outside the literals, and `Text.code_literal`:
  nothing of a quoted value, and of a blob its introducer.
* `Join.text_eq_front_append`: the line of a join around one of its values.
* `Join.literal_reads_back`: literals are read as what they denote, wherever in
  an ON clause they stand.
-/

namespace SqlStatement

open Script Text

namespace Text

/-- The characters that a scan from `q` meets outside the literals, their quotes left out. -/
def code : Quoting → List Char → List Char
  | _, [] => []
  | q, c :: rest => (if q = .outside ∧ c ≠ '\'' then [c] else []) ++ code (q.next c) rest

theorem code_append (q : Quoting) (a b : List Char) :
    code q (a ++ b) = code q a ++ code (scan q a) b := by
  induction a generalizing q with
  | nil => rfl
  | cons c rest ih =>
    rw [List.cons_append, code, code, ih (q.next c), List.append_assoc]
    rfl

theorem code_quoteChar (c : Char) : code .inside (Value.quoteChar c) = [] := by
  rw [Value.quoteChar]
  by_cases hQuote : c = '\''
  · rw [if_pos hQuote]
    decide
  · by_cases hSlash : c = '\\'
    · rw [if_neg hQuote, if_pos hSlash]
      decide
    · rw [if_neg hQuote, if_neg hSlash]
      rfl

theorem code_flatMap_quoteChar (l : List Char) : code .inside (l.flatMap Value.quoteChar) = [] := by
  induction l with
  | nil => rfl
  | cons c rest ih =>
    rw [List.flatMap_cons, code_append, code_quoteChar, (scan_quoteChar c).1, ih]
    rfl

/-- Between two quotes nothing is outside. -/
theorem code_of_inside {l : List Char} (hScan : scan .inside l = .inside)
    (hCode : code .inside l = []) : code .outside ('\'' :: l ++ ['\'']) = [] := by
  have hFront : code .outside ('\'' :: l ++ ['\'']) = code .inside (l ++ ['\'']) := rfl
  rw [hFront, code_append, hCode, hScan]
  rfl

theorem code_of_isPlainChar {l : List Char} (h : ∀ c ∈ l, isPlainChar c = true) :
    code .outside l = l ∧ code .inside l = [] := by
  induction l with
  | nil => exact ⟨rfl, rfl⟩
  | cons c rest ih =>
    have hc := h c List.mem_cons_self
    have hQuote : c ≠ '\'' := by
      simp only [isPlainChar, Bool.and_eq_true, bne_iff_ne] at hc
      exact hc.1.2
    obtain ⟨hOutside, hInside⟩ := ih fun d hd => h d (List.mem_cons_of_mem c hd)
    rw [code, code, Quoting.next_of_isPlainChar hc (by decide),
      Quoting.next_of_isPlainChar hc (by decide), hOutside, hInside]
    simp [hQuote]

/-- A text that leaves no literal open. -/
def EndsOutside (s : String) : Prop := scan .outside s.toList = .outside

theorem EndsOutside.append {a b : String} (ha : EndsOutside a) (hb : EndsOutside b) :
    EndsOutside (a ++ b) := by
  rw [EndsOutside, String.toList_append, scan_append, ha, hb]

theorem IsPlain.endsOutside {s : String} (h : IsPlain s) : EndsOutside s :=
  (scan_of_isPlainChar (by decide) h).1

theorem endsOutside_join {l : List String} (h : ∀ s ∈ l, EndsOutside s) :
    EndsOutside (String.join l) := by
  induction l with
  | nil => exact rfl
  | cons s rest ih =>
    rw [String.join_cons]
    exact (h s List.mem_cons_self).append (ih fun t ht => h t (List.mem_cons_of_mem s ht))

end Text

/-! ### Literals -/

/-- What of a literal stands outside quotes. -/
def Value.unquoted : Value → List Char
  | .text _ | .json _ => []
  | .blob _ => ['X']
  | v => v.literalChars

theorem Text.code_literal (v : Value) : code .outside v.literal.toList = v.unquoted := by
  have hQuoted : ∀ l : List Char, code .outside (Value.quoted l) = [] := fun l =>
    code_of_inside (scan_flatMap_quoteChar l).1 (code_flatMap_quoteChar l)
  rw [Value.literal, String.toList_ofList]
  cases v with
  | null => decide
  | bool b => cases b <;> decide
  | int n => exact (code_of_isPlainChar (isPlain_intRepr n.toInt)).1
  | uint n => exact (code_of_isPlainChar (isPlain_natRepr n.toNat)).1
  | float x => exact (code_of_isPlainChar fun c hc => isPlainChar_of_mem_floatText hc).1
  | text s => exact hQuoted s.toList
  | json document => exact hQuoted document.text
  | blob bytes =>
    have hHex := fun c (hc : c ∈ Value.hex bytes) => isPlainChar_of_mem_hex hc
    have hFront : code .outside ('X' :: '\'' :: Value.hex bytes ++ ['\''])
        = 'X' :: code .outside ('\'' :: Value.hex bytes ++ ['\'']) := rfl
    rw [Value.literalChars, hFront, code_of_inside (scan_of_isPlainChar (by decide) hHex).1
      (code_of_isPlainChar hHex).2]
    rfl

/-! ### The line of a join around one of its values -/

theorem OnTerm.eq_of_mem_values {t : OnTerm} {v : Value} (h : v ∈ t.values) :
    t.target = .value v ∧ t.operator.isNullTest = false := by
  obtain ⟨field, operator, target⟩ := t
  rw [values] at h
  cases target with
  | field foreign => simp at h
  | value w =>
    cases hNull : operator.isNullTest with
    | true => simp [hNull] at h
    | false =>
      simp only [hNull, Bool.false_eq_true, if_false, List.mem_singleton] at h
      exact ⟨congrArg _ h.symm, rfl⟩

namespace Join

variable {schema : String} {n : Naming} {j : Join} {before behind : List OnTerm} {t : OnTerm}
  {v : Value}

/-- The line up to its terms. -/
def head (schema : String) (n : Naming) (j : Join) : String :=
  j.mode.keyword ++ " " ++ schema ++ "." ++ j.table ++ " " ++ j.name ++ " ON "
    ++ Field.ofTable j.name j.field ++ "=" ++ n.qualify j.foreign

/-- The line up to the right side of the term `t` behind `before`. -/
def front (schema : String) (n : Naming) (j : Join) (before : List OnTerm) (t : OnTerm) : String :=
  j.head schema n ++ String.join (before.map (OnTerm.text n j.name))
    ++ " AND " ++ Field.ofTable j.name t.field ++ t.operator.fragment

/-- The line from behind a term on. -/
def rest (n : Naming) (j : Join) (behind : List OnTerm) : String :=
  String.join (behind.map (OnTerm.text n j.name)) ++ "\n"

theorem text_eq_head_append (j : Join) : j.text schema n
    = j.head schema n ++ String.join (j.terms.map (OnTerm.text n j.name)) ++ "\n" := by
  simp only [text, onText, head, String.append_assoc]

theorem text_eq_front_append (h : j.terms = before ++ t :: behind) (hv : v ∈ t.values) :
    j.text schema n = j.front schema n before t ++ v.literal ++ j.rest n behind := by
  obtain ⟨hTarget, hNull⟩ := OnTerm.eq_of_mem_values hv
  rw [text_eq_head_append, h, front, rest, List.map_append, List.map_cons, String.join_append,
    String.join_cons, OnTerm.text, hTarget, hNull]
  simp [String.append_assoc]

/-- A join that can be written is written on its line. -/
theorem sql_of_runIn {c after : Context} (h : runIn (j.script n) c = .ok after) :
    failure? (j.script n) = none ∧ after.sql = c.sql ++ j.text c.schema n := by
  have hNone : failure? (j.script n) = none := failure?_eq_none_iff.mpr ⟨after, h⟩
  obtain ⟨naming, hResult⟩ := runIn_of_failure?_eq_none (j.script n) c hNone
  rw [h, Except.ok.injEq] at hResult
  refine ⟨hNone, ?_⟩
  rw [hResult, written_script hNone, String.ofList_toList]

/-- A blank or a line break comes next. -/
theorem ends_rest (l : List Char) : Lexeme.Ends ((j.rest n behind).toList ++ l) := by
  have hBlank : ∀ m, Lexeme.Ends (' ' :: m) := fun m => by simp [Lexeme.Ends]; decide
  have hBreak : ∀ m, Lexeme.Ends ('\n' :: m) := fun m => by simp [Lexeme.Ends]; decide
  rw [rest]
  cases behind with
  | nil => simpa using hBreak l
  | cons t more =>
    rw [List.map_cons, String.join_cons, OnTerm.text]
    simpa using hBlank _

end Join

/-! ### Identifiers that leave no literal open -/

theorem Operator.endsOutside_fragment (op : Operator) : EndsOutside op.fragment := by
  cases op <;> rfl

theorem Field.endsOutside_ofTable {name field : String} (hName : EndsOutside name)
    (hField : EndsOutside field) : EndsOutside (Field.ofTable name field) :=
  (hName.append (IsPlain.endsOutside (by decide))).append hField

theorem Naming.endsOutside_qualify {n : Naming} {field : String} (hBase : EndsOutside n.base)
    (hField : EndsOutside field) : EndsOutside (n.qualify field) := by
  cases n with
  | bare => exact hField
  | aliased base tables =>
    rw [qualify]
    split
    · exact hField
    · exact Field.endsOutside_ofTable hBase hField

theorem OnTerm.endsOutside_text {n : Naming} {name : String} {t : OnTerm}
    (hBase : EndsOutside n.base) (hName : EndsOutside name)
    (h : ∀ s ∈ t.texts, EndsOutside s) : EndsOutside (t.text n name) := by
  have hAnd : EndsOutside " AND " := IsPlain.endsOutside (by decide)
  have hField := Field.endsOutside_ofTable hName (h t.field List.mem_cons_self)
  rw [text]
  refine ((hAnd.append hField).append t.operator.endsOutside_fragment).append ?_
  split
  · exact rfl
  · split
    · next foreign hTarget =>
      refine Naming.endsOutside_qualify hBase (h foreign ?_)
      simp [texts, foreign?, hTarget]
    · next w _ => exact (closed_literal w).scan_eq

namespace Join

theorem endsOutside_head {schema : String} {n : Naming} {j : Join} (hSchema : EndsOutside schema)
    (hBase : EndsOutside n.base) (h : ∀ s ∈ j.texts, EndsOutside s) :
    EndsOutside (j.head schema n) := by
  have hPlain : ∀ s : String, IsPlain s → EndsOutside s := fun _ hs => hs.endsOutside
  have hMode : EndsOutside j.mode.keyword := by cases j.mode <;> rfl
  have hName : EndsOutside j.name := h _ (by simp [texts])
  have hBlank : EndsOutside " " := hPlain _ (by decide)
  have hDot : EndsOutside "." := hPlain _ (by decide)
  have hTable : EndsOutside (j.mode.keyword ++ " " ++ schema ++ "." ++ j.table) :=
    (((hMode.append hBlank).append hSchema).append hDot).append (h _ (by simp [texts]))
  have hOn : EndsOutside (j.mode.keyword ++ " " ++ schema ++ "." ++ j.table ++ " " ++ j.name
      ++ " ON ") :=
    ((hTable.append hBlank).append hName).append (hPlain " ON " (by decide))
  have hOwn := Field.endsOutside_ofTable hName (h j.field (by simp [texts]))
  have hForeign := Naming.endsOutside_qualify hBase (h j.foreign (by simp [texts]))
  exact ((hOn.append hOwn).append (hPlain "=" (by decide))).append hForeign

/-- Such identifiers leave no literal open in front of a value. -/
theorem endsOutside_front {schema : String} {n : Naming} {j : Join} {before behind : List OnTerm}
    {t : OnTerm} (hSplit : j.terms = before ++ t :: behind) (hSchema : EndsOutside schema)
    (hBase : EndsOutside n.base) (h : ∀ s ∈ j.texts, EndsOutside s) :
    EndsOutside (j.front schema n before t) := by
  have hName : EndsOutside j.name := h _ (by simp [texts])
  have hTerms : ∀ u ∈ j.terms, ∀ s ∈ u.texts, EndsOutside s := fun u hu s hs =>
    h s (List.mem_append_right _ (List.mem_flatMap.mpr ⟨u, hu, hs⟩))
  have hBefore : EndsOutside (String.join (before.map (OnTerm.text n j.name))) := by
    refine endsOutside_join fun s hs => ?_
    obtain ⟨u, hu, rfl⟩ := List.mem_map.mp hs
    exact OnTerm.endsOutside_text hBase hName (hTerms u (by simp [hSplit, hu]))
  have hAnd : EndsOutside " AND " := IsPlain.endsOutside (by decide)
  have hLeft := Field.endsOutside_ofTable hName
    (hTerms t (by simp [hSplit]) t.field List.mem_cons_self)
  exact ((((endsOutside_head hSchema hBase h).append hBefore).append hAnd).append hLeft).append
    t.operator.endsOutside_fragment

/-! ### Reading a join -/

/-- A literal that quotes its value is read back as that value up to its last character, a blob as
pairs of digits.  Each value of an ON clause stands between two explicit texts; from its opening on
it is read as itself, and the reading goes on with the second text.  If the identifiers leave no
literal open, what stands outside literals is that of the two texts and what the value leaves
unquoted. -/
theorem literal_reads_back :
    (∀ (s : String) (after : List Char), after.head? ≠ some '\'' →
      Lexeme.read ((Value.text s).literal.toList ++ after) = some (.string s.toList, after)) ∧
    (∀ (document : Json) (after : List Char), after.head? ≠ some '\'' →
      Lexeme.read ((Value.json document).literal.toList ++ after)
        = some (.string document.text, after)) ∧
    (∀ l : List UInt8, ∃ digits, (Value.blob l).literal.toList = 'X' :: '\'' :: digits ++ ['\''] ∧
      digits.length = 2 * l.length ∧
      ∀ after, Lexeme.readBytes (digits ++ '\'' :: after) = some (l, after)) ∧
    ∀ (n : Naming) (j : Join) (c after : Context), runIn (j.script n) c = .ok after →
      ∀ before t behind v, j.terms = before ++ t :: behind → v ∈ t.values →
        after.sql = c.sql ++ (j.front c.schema n before t ++ v.literal ++ j.rest n behind) ∧
        (∀ l, Lexeme.read (v.literal.toList ++ ((j.rest n behind).toList ++ l))
          = some (v.lexeme, (j.rest n behind).toList ++ l)) ∧
        ((∀ s ∈ c.sql :: c.schema :: n.base :: j.texts, EndsOutside s) →
          code .outside after.sql.toList
            = code .outside (c.sql ++ j.front c.schema n before t).toList ++ v.unquoted
              ++ code .outside (j.rest n behind).toList) := by
  refine ⟨fun s _ h => ?_, fun document _ h => ?_, fun l => ?_, ?_⟩
  · rw [Value.literal, String.toList_ofList]
    exact Lexeme.read_quoted s.toList h
  · rw [Value.literal, String.toList_ofList]
    exact Lexeme.read_quoted document.text h
  · exact ⟨Value.hex l, String.toList_ofList, Lexeme.length_hex l, (Lexeme.readBytes_hex · l)⟩
  intro n j c after hRun before t behind v hSplit hv
  have hSql : after.sql
      = c.sql ++ (j.front c.schema n before t ++ v.literal ++ j.rest n behind) := by
    rw [(sql_of_runIn hRun).2, text_eq_front_append hSplit hv]
  refine ⟨hSql, fun l => Lexeme.read_literal v (ends_rest l), fun h => ?_⟩
  simp only [List.forall_mem_cons] at h
  obtain ⟨hBefore, hSchema, hBase, hTexts⟩ := h
  have hFront : EndsOutside (c.sql ++ j.front c.schema n before t) :=
    hBefore.append (endsOutside_front hSplit hSchema hBase hTexts)
  rw [hSql, ← String.append_assoc, ← String.append_assoc, String.toList_append,
    String.toList_append, code_append, code_append, scan_append, hFront,
    (closed_literal v).scan_eq, code_literal]

/-- A text that ends in a backslash, between a column and a blob. -/
def scribbled : Join :=
  ⟨.left, "clients", "c", "id", "client_id",
    [.column "site" "site", .fixed "note" (.text "it's\\"), .fixed "seal" (.blob [0, 255])]⟩

theorem literal_reads_back_scribbled : ∃ after,
    runIn (scribbled.script .bare) (Context.ofSchema "shop") = .ok after ∧
    after.sql = "LEFT JOIN shop.clients c ON c.id=client_id AND c.site=site"
      ++ " AND c.note='it''s\\\\' AND c.seal=X'00FF'\n" ∧
    (∀ l, Lexeme.read ("'it''s\\\\'".toList ++ (" AND c.seal=X'00FF'\n".toList ++ l))
      = some (.string "it's\\".toList, " AND c.seal=X'00FF'\n".toList ++ l)) ∧
    code .outside after.sql.toList
      = ("LEFT JOIN shop.clients c ON c.id=client_id AND c.site=site AND c.note="
        ++ " AND c.seal=X\n").toList := by
  obtain ⟨after, hRun⟩ : ∃ after,
      runIn (scribbled.script .bare) (Context.ofSchema "shop") = .ok after := ⟨_, rfl⟩
  obtain ⟨hSql, hRead, hCode⟩ := literal_reads_back.2.2.2 .bare scribbled _ after hRun
    [.column "site" "site"] (.fixed "note" (.text "it's\\")) [.fixed "seal" (.blob [0, 255])]
    (.text "it's\\") rfl (List.mem_singleton.mpr rfl)
  have hTexts : ∀ s ∈ "" :: "shop" :: Naming.base .bare :: scribbled.texts, EndsOutside s :=
    fun s hs => IsPlain.endsOutside
      (List.forall_iff_forall_mem.mp (by decide : List.Forall IsPlain _) s hs)
  exact ⟨after, hRun, hSql, hRead, hCode hTexts⟩

end Join

end SqlStatement
