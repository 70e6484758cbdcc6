import SqlStatement.Proofs.Lexemes
import SqlStatement.Proofs.Surface
import SqlStatement.Proofs.WhereTokens

/-!
# Texts without clause words on the surface

A text is quiet if it is whole and no clause word stands on its surface.  Quiet
texts one after the other are quiet unless two words run into one.

* `Quiet`; `Opens` and `Closes` for texts that nothing runs into, behind them or in
  front of them, and `Divides` for texts that keep their neighbours apart.
* `Quiet.intercalate`, `quiet_group`: lists with a separator, and whole texts in
  parentheses.
* `quiet_literal`: every literal is quiet, whatever it quotes.
* `Tame`: identifiers that do not disturb the text they are put into.
-/

namespace SqlStatement.Surface

open Text

structure Quiet (l : List Char) : Prop where
  whole : Whole l
  isClause_eq : ∀ t ∈ tokens l, t.isClause = false

instance (l : List Char) : Decidable (Quiet l) :=
  decidable_of_iff (Whole l ∧ ∀ t ∈ tokens l, t.isClause = false)
    ⟨fun h => ⟨h.1, h.2⟩, fun h => ⟨h.1, h.2⟩⟩

/-- Quiet, and no word goes on behind it. -/
structure Opens (l : List Char) : Prop where
  quiet : Quiet l
  last_eq : ∀ c ∈ l.getLast?, isWordChar c = false

/-- Quiet, and no word goes on from in front of it. -/
structure Closes (l : List Char) : Prop where
  quiet : Quiet l
  head_eq : ∀ c ∈ l.head?, isWordChar c = false

structure Divides (l : List Char) : Prop extends Opens l, Closes l where
  ne_nil : l ≠ []

/-- Computed from the one character there may be: deciding the right side might try all of them. -/
theorem all_not_isWordChar_iff {o : Option Char} :
    (o.all fun c => !isWordChar c) = true ↔ ∀ c ∈ o, isWordChar c = false := by
  cases o <;> simp

section Decidable

variable (l : List Char)

instance : Decidable (Opens l) :=
  decidable_of_iff (Quiet l ∧ (l.getLast?.all fun c => !isWordChar c) = true)
    ⟨fun h => ⟨h.1, all_not_isWordChar_iff.mp h.2⟩, fun h => ⟨h.1, all_not_isWordChar_iff.mpr h.2⟩⟩

instance : Decidable (Closes l) :=
  decidable_of_iff (Quiet l ∧ (l.head?.all fun c => !isWordChar c) = true)
    ⟨fun h => ⟨h.1, all_not_isWordChar_iff.mp h.2⟩, fun h => ⟨h.1, all_not_isWordChar_iff.mpr h.2⟩⟩

instance : Decidable (Divides l) :=
  decidable_of_iff (Opens l ∧ Closes l ∧ l ≠ [])
    ⟨fun h => ⟨h.1, h.2.1.2, h.2.2⟩, fun h => ⟨h.toOpens, h.toCloses, h.ne_nil⟩⟩

end Decidable

/-! ### Putting texts together -/

variable {a b s : List Char}

theorem quiet_nil : Quiet [] := ⟨Whole.nil, by simp⟩

theorem opens_nil : Opens [] := ⟨quiet_nil, fun _ hc => nomatch hc⟩

theorem closes_nil : Closes [] := ⟨quiet_nil, fun _ hc => nomatch hc⟩

theorem Quiet.append (ha : Quiet a) (hb : Quiet b) (h : Apart a b) : Quiet (a ++ b) := by
  refine ⟨ha.whole.append hb.whole, ?_⟩
  rw [tokens_append ha.whole h, List.forall_mem_append]
  exact ⟨ha.isClause_eq, hb.isClause_eq⟩

theorem Opens.append (ha : Opens a) (hb : Quiet b) : Quiet (a ++ b) :=
  ha.quiet.append hb fun x hx y _ => by rw [ha.last_eq x hx, Bool.false_and]

theorem Quiet.append_closes (ha : Quiet a) (hb : Closes b) : Quiet (a ++ b) :=
  ha.append hb.quiet fun x _ y hy => by rw [hb.head_eq y hy, Bool.and_false]

theorem Opens.append_opens (ha : Opens a) (hb : Opens b) : Opens (a ++ b) := by
  refine ⟨ha.append hb.quiet, fun c hc => ?_⟩
  rw [List.getLast?_append] at hc
  rcases Option.or_eq_some_iff.mp hc with hLast | ⟨-, hLast⟩
  · exact hb.last_eq c hLast
  · exact ha.last_eq c hLast

theorem Closes.append_closes (ha : Closes a) (hb : Closes b) : Closes (a ++ b) := by
  refine ⟨ha.quiet.append_closes hb, fun c hc => ?_⟩
  rw [List.head?_append] at hc
  rcases Option.or_eq_some_iff.mp hc with hHead | ⟨-, hHead⟩
  · exact ha.head_eq c hHead
  · exact hb.head_eq c hHead

theorem Divides.opens (ha : Quiet a) (hs : Divides s) : Opens (a ++ s) := by
  refine ⟨ha.append_closes hs.toCloses, fun c hc => hs.last_eq c ?_⟩
  rwa [List.getLast?_append_of_ne_nil _ hs.ne_nil] at hc

theorem Divides.closes (hs : Divides s) (hb : Quiet b) : Closes (s ++ b) := by
  refine ⟨hs.toOpens.append hb, fun c hc => hs.head_eq c ?_⟩
  rwa [List.head?_append_of_ne_nil _ hs.ne_nil] at hc

theorem Divides.around {t : List Char} (hs : Divides s) (ha : Quiet a) (ht : Divides t) :
    Divides (s ++ a ++ t) where
  toOpens := ht.opens (hs.toOpens.append ha)
  head_eq := ((hs.closes ha).append_closes ht.toCloses).head_eq
  ne_nil := by simp [hs.ne_nil]

/-- Two quiet texts with something between them. -/
theorem Quiet.divided (ha : Quiet a) (hs : Divides s) (hb : Quiet b) : Quiet (a ++ s ++ b) :=
  (hs.opens ha).append hb

theorem Quiet.intercalate (hs : Divides s) : ∀ {l : List (List Char)}, (∀ x ∈ l, Quiet x) →
    Quiet (s.intercalate l)
  | [], _ => quiet_nil
  | [x], h => by
    rw [List.intercalate_singleton]
    exact h x List.mem_cons_self
  | x :: y :: rest, h => by
    rw [List.intercalate_cons_cons]
    exact (h x List.mem_cons_self).divided hs
      (intercalate hs fun z hz => h z (List.mem_cons_of_mem x hz))

theorem Opens.flatten : ∀ {l : List (List Char)}, (∀ x ∈ l, Opens x) → Opens l.flatten
  | [], _ => opens_nil
  | x :: rest, h => by
    obtain ⟨hx, hRest⟩ := List.forall_mem_cons.mp h
    exact hx.append_opens (flatten hRest)

theorem Closes.flatten : ∀ {l : List (List Char)}, (∀ x ∈ l, Closes x) → Closes l.flatten
  | [], _ => closes_nil
  | x :: rest, h => by
    obtain ⟨hx, hRest⟩ := List.forall_mem_cons.mp h
    exact hx.append_closes (flatten hRest)

theorem quiet_group (h : Whole a) : Quiet ('(' :: (a ++ [')'])) := by
  refine ⟨h.parenthesised, ?_⟩
  rw [← List.cons_append, tokens_group h, List.forall_mem_singleton]
  rfl

/-- A group that nothing runs into. -/
theorem divides_group (h : Whole a) : Divides ('(' :: (a ++ [')'])) where
  quiet := quiet_group h
  last_eq := by
    intro c hc
    rw [← List.cons_append, List.getLast?_append, List.getLast?_singleton, Option.some_or] at hc
    obtain rfl := Option.some.inj hc
    decide
  head_eq := by
    rintro c ⟨⟩
    decide
  ne_nil := List.cons_ne_nil _ _

/-! ### Literals -/

/-- A character that no clause word has, in whatever case. -/
def isSilent (c : Char) : Bool := clauseWords.all fun p => !p.1.toList.contains c.toUpper

theorem clauseWord?_eq_none {run : List Char} {c : Char} (hc : c ∈ run) (h : isSilent c = true) :
    clauseWord? run = none := by
  rw [clauseWord?, List.lookup_eq_none_iff]
  intro p hp
  have hMissing := List.all_eq_true.mp h p hp
  rw [bne_iff_ne]
  rintro hSame
  have hUpper : c.toUpper ∈ p.1.toList := by
    rw [← hSame, String.toList_ofList]
    exact List.mem_map_of_mem hc
  simp [hUpper] at hMissing

theorem isClause_ofRun {run : List Char} {c : Char} (hc : c ∈ run) (h : isSilent c = true) :
    (Token.ofRun run).isClause = false := by
  have hNone := clauseWord?_eq_none hc h
  unfold Token.ofRun
  split
  · rfl
  · rw [hNone]
    rfl

/-- Digits, points and signs on their own. -/
theorem quiet_of_isSilent (h : ∀ c ∈ a, isSilent c = true ∧ c ≠ '(' ∧ c ≠ ')' ∧ c ≠ '\'') :
    Quiet a := by
  constructor
  · rw [Whole, walk]
    refine List.foldlRecOn (motive := (· = Place.top)) a _ rfl fun p hp c hc => ?_
    obtain ⟨-, hOpen, hClose, hQuote⟩ := h c hc
    simp [hp, Place.top, Place.next, Quoting.next, hOpen, hClose, hQuote]
  · intro t ht
    obtain ⟨run, hRun, rfl⟩ := List.mem_map.mp ht
    have hMem := (List.mem_filter.mp hRun).1
    obtain ⟨c, hc⟩ := List.exists_mem_of_ne_nil run (ne_nil_of_mem_runs hMem)
    exact isClause_ofRun hc (h c (mem_of_mem_runs hMem hc)).1

/-- What keeps a scan inside a literal. -/
theorem below_of_quoting {q : Quoting} (hq : q ≠ .outside) (h : '\'' ∉ a) :
    walk (.level 0 q) a = .level 0 (scan q a) ∧ scan q a ≠ .outside ∧
      ∀ x ∈ places (.level 0 q) a, x.2 ≠ .top := by
  induction a generalizing q with
  | nil => exact ⟨rfl, hq, by simp [places]⟩
  | cons c rest ih =>
    rw [List.mem_cons, not_or] at h
    have hNext : Place.next (.level 0 q) c = .level 0 (q.next c) := by simp [Place.next, hq]
    have hInside : q.next c ≠ .outside := by
      cases q with
      | outside => exact absurd rfl hq
      | inside =>
        rw [Quoting.next, if_neg (Ne.symm h.1)]
        split <;> decide
      | escaped => simp [Quoting.next]
    obtain ⟨hWalk, hScan, hPlaces⟩ := ih hInside h.2
    refine ⟨?_, hScan, ?_⟩
    · show walk (Place.next (.level 0 q) c) rest = _
      rw [hNext, hWalk]
      rfl
    · rw [places, hNext, List.forall_mem_cons]
      exact ⟨fun hTop => hInside (by injection hTop), hPlaces⟩

/-- A quotation without a quote in it is one token. -/
theorem quiet_quotation (hQuote : '\'' ∉ a) (hScan : scan .inside a = .inside) :
    Quiet ('\'' :: (a ++ ['\''])) := by
  obtain ⟨hWalk, -, hPlaces⟩ := below_of_quoting (q := .inside) (by decide) hQuote
  constructor
  · show walk (.level 0 .inside) (a ++ ['\'']) = .top
    rw [walk_append, hWalk, hScan]
    rfl
  · have hBelow : ∀ x ∈ places .top ('\'' :: a), x.2 ≠ .top := by
      rw [places, List.forall_mem_cons]
      exact ⟨by decide, hPlaces⟩
    rw [tokens, ← List.cons_append, runs_submerged _ hBelow]
    intro t ht
    obtain ⟨run, hRun, rfl⟩ := List.mem_map.mp ht
    obtain rfl := List.mem_singleton.mp (List.mem_filter.mp hRun).1
    exact isClause_ofRun (c := '\'') (by simp) (by decide)

theorem quiet_quoted_of_notMem (h : '\'' ∉ a) : Quiet (Value.quoted a) := by
  refine quiet_quotation (fun hMem => ?_) (scan_flatMap_quoteChar a).1
  obtain ⟨c, hc, hChar⟩ := List.mem_flatMap.mp hMem
  have hNe : c ≠ '\'' := fun hEq => h (hEq ▸ hc)
  rw [Value.quoteChar, if_neg hNe] at hChar
  split at hChar
  · exact absurd hChar (by decide)
  · exact hNe (List.mem_singleton.mp hChar).symm

/-- A quote is written as two: the first ends a quotation and the second begins the next one. -/
theorem quoted_append_quote (a b : List Char) :
    Value.quoted (a ++ '\'' :: b) = Value.quoted a ++ Value.quoted b := by
  simp [Value.quoted, Value.quoteChar]

theorem quiet_quoted (l : List Char) : Quiet (Value.quoted l) := by
  induction hn : l.length using Nat.strong_induction_on generalizing l with
  | _ n ih =>
    by_cases hMem : '\'' ∈ l
    · obtain ⟨front, back, rfl, hFront⟩ := List.eq_append_cons_of_mem hMem
      rw [quoted_append_quote]
      refine (quiet_quoted_of_notMem hFront).append_closes ⟨ih back.length ?_ back rfl, ?_⟩
      · rw [← hn]
        simp
        omega
      · rintro c ⟨⟩
        decide
    · exact quiet_quoted_of_notMem hMem

theorem isSilent_of_isDigit {c : Char} (h : c.isDigit = true) : isSilent c = true := by
  have hLetters : ∀ p ∈ clauseWords, (p.1.toList.any Char.isDigit) = false := by decide
  rw [isSilent, Reading.toUpper_of_isDigit h, List.all_eq_true]
  intro p hp
  by_cases hMem : c ∈ p.1.toList
  · exact absurd h (List.any_eq_false.mp (hLetters p hp) c hMem)
  · simpa using hMem

theorem quiet_digits (h : ∀ c ∈ a, c.isDigit = true) : Quiet a := by
  refine quiet_of_isSilent fun c hc => ⟨isSilent_of_isDigit (h c hc), ?_, ?_, ?_⟩ <;>
    (rintro rfl; exact absurd (h _ hc) (by decide))

theorem quiet_natRepr (n : Nat) : Quiet n.repr.toList := by
  rw [Nat.toList_repr]
  exact quiet_digits fun c hc => Nat.isDigit_of_mem_toDigits (by decide) (by decide) hc

theorem quiet_numeral (h : Lexeme.IsNumeral a) : Quiet a := by
  cases h with
  | whole _ hDigits => exact quiet_digits hDigits
  | point _ hBefore hBehind =>
    have hPoint : Divides ['.'] := by decide
    exact (quiet_digits hBefore).append_closes (hPoint.closes (quiet_digits hBehind))

theorem quiet_signed (negative : Bool) (h : Quiet a) :
    Quiet ((if negative then ['-'] else []) ++ a) := by
  have hMinus : Opens ['-'] := by decide
  cases negative with
  | true => exact hMinus.append h
  | false => exact h

theorem quiet_hex (bytes : List UInt8) : Quiet ('\'' :: (Value.hex bytes ++ ['\''])) := by
  have hPlain : ∀ c ∈ Value.hex bytes, isPlainChar c = true := fun c => isPlainChar_of_mem_hex
  exact quiet_quotation (fun hMem => absurd (hPlain _ hMem) (by decide))
    (scan_of_isPlainChar (by decide) hPlain).1

/-- A literal is quiet, whatever it quotes. -/
theorem quiet_literal (v : Value) : Quiet v.literal.toList := by
  rw [Value.literal, String.toList_ofList]
  cases v with
  | null => exact (by decide : Quiet ['N', 'U', 'L', 'L'])
  | bool b =>
    cases b with
    | true => exact (by decide : Quiet ['T', 'R', 'U', 'E'])
    | false => exact (by decide : Quiet ['F', 'A', 'L', 'S', 'E'])
  | int n =>
    show Quiet n.toInt.repr.toList
    rw [Lexeme.intRepr_eq]
    exact quiet_signed _ (quiet_natRepr _)
  | uint n => exact quiet_natRepr n.toNat
  | float x =>
    show Quiet (Value.floatText x)
    rw [Lexeme.floatText_eq]
    refine quiet_signed _ ?_
    rw [Value.floatWord]
    split
    · decide
    · split
      · decide
      · exact quiet_numeral (Lexeme.isNumeral_decimal x .up)
  | text s => exact quiet_quoted s.toList
  | json document => exact quiet_quoted document.text
  | blob bytes =>
    have hX : Quiet ['X'] := by decide
    refine hX.append_closes ⟨quiet_hex bytes, ?_⟩
    rintro c ⟨⟩
    decide

/-! ### Identifiers -/

/-- What quotes, escapes or begins a comment. -/
def marks : List Char := "'\\\"`#-/".toList

/-- An identifier that leaves the surface of the text around it as it is, as its first character
does, of which an alias may be made. -/
structure Tame (s : String) : Prop where
  notMem_marks : ∀ c ∈ s.toList, c ∉ marks
  quiet : Quiet s.toList
  quiet_initial : Quiet (s.toList.take 1)

instance (s : String) : Decidable (Tame s) :=
  decidable_of_iff ((s.toList.all fun c => !marks.contains c) = true ∧ Quiet s.toList ∧
      Quiet (s.toList.take 1))
    ⟨fun h => ⟨by simpa using h.1, h.2.1, h.2.2⟩, fun h => ⟨by simpa using h.1, h.2, h.3⟩⟩

/-- Characters that are no marks stay inside the quotes around them. -/
theorem quiet_quotation_of_notMem_marks (h : ∀ c ∈ a, c ∉ marks) :
    Quiet ('\'' :: (a ++ ['\''])) := by
  refine quiet_quotation (fun hMem => h _ hMem (by decide)) ?_
  refine List.foldlRecOn (motive := (· = Quoting.inside)) a _ rfl fun q hq c hc => ?_
  have hQuote : c ≠ '\'' := by rintro rfl; exact h _ hc (by decide)
  have hSlash : c ≠ '\\' := by rintro rfl; exact h _ hc (by decide)
  rw [hq, Quoting.next, if_neg hQuote, if_neg hSlash]

example : Tame "MAX(price)" ∧ ¬ Tame "price) LIMIT (1" ∧ ¬ Tame "limit" ∧ ¬ Tame "it's" := by
  decide +kernel

end SqlStatement.Surface
