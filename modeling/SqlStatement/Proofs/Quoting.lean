import SqlStatement.Value

/-!
# Question marks outside literals

A text is scanned from left to right.  A quote opens a literal, the next one
closes it, and a backslash inside a literal takes the character behind it along.
Two quotes inside a literal close it and open it again at once, so that the pair
needs no rule of its own.

* `placeholders`: the question marks that a scan meets outside the literals.
* `Closed l n`: a scan of `l` from outside a literal ends outside, and meets `n`
  question marks.  Closed texts one after the other are closed, and their counts
  add up (`Closed.append`).
* `IsPlain`: no question mark, quote or backslash.
* `closed_quoted`, `closed_literal`: a quoted text and every literal are closed
  and count nothing, whatever they hold.
-/

namespace SqlStatement.Text

/-- Where a scan stands; `escaped` is behind a backslash inside a literal. -/
inductive Quoting
  | outside
  | inside
  | escaped
deriving DecidableEq, Repr

def Quoting.next : Quoting → Char → Quoting
  | .outside, c => if c = '\'' then .inside else .outside
  | .inside, c => if c = '\'' then .outside else if c = '\\' then .escaped else .inside
  | .escaped, _ => .inside

/-- Where a scan that starts at `q` ends. -/
def scan (q : Quoting) (l : List Char) : Quoting := l.foldl Quoting.next q

/-- The question marks met outside the literals by a scan that starts at `q`. -/
def placeholders : Quoting → List Char → Nat
  | _, [] => 0
  | q, c :: rest => (if q = .outside ∧ c = '?' then 1 else 0) + placeholders (q.next c) rest

theorem scan_append (q : Quoting) (a b : List Char) : scan q (a ++ b) = scan (scan q a) b :=
  List.foldl_append

theorem placeholders_append (q : Quoting) (a b : List Char) :
    placeholders q (a ++ b) = placeholders q a + placeholders (scan q a) b := by
  induction a generalizing q with
  | nil => rw [List.nil_append, placeholders, Nat.zero_add]; rfl
  | cons c rest ih =>
    rw [List.cons_append, placeholders, placeholders, ih (q.next c), Nat.add_assoc]
    rfl

/-- Two quotes inside a literal are passed over. -/
theorem scan_inside_doubled (l : List Char) :
    scan .inside ('\'' :: '\'' :: l) = scan .inside l ∧
      placeholders .inside ('\'' :: '\'' :: l) = placeholders .inside l := by
  constructor
  · rfl
  · simp [placeholders, Quoting.next]

/-- So is a backslash inside a literal, with the character behind it. -/
theorem scan_inside_escaped (c : Char) (l : List Char) :
    scan .inside ('\\' :: c :: l) = scan .inside l ∧
      placeholders .inside ('\\' :: c :: l) = placeholders .inside l := by
  constructor
  · rfl
  · simp [placeholders, Quoting.next]

example : placeholders .outside "a = ? AND b = 'it''s ?' AND c = '\\'?'".toList = 1 := by decide

/-! ### Closed texts -/

structure Closed (l : List Char) (n : Nat) : Prop where
  scan_eq : scan .outside l = .outside
  placeholders_eq : placeholders .outside l = n

theorem closed_nil : Closed [] 0 := ⟨rfl, rfl⟩

theorem closed_placeholder : Closed ['?'] 1 := ⟨rfl, rfl⟩

theorem Closed.append {a b : List Char} {m n : Nat} (ha : Closed a m) (hb : Closed b n) :
    Closed (a ++ b) (m + n) := by
  constructor
  · rw [scan_append, ha.scan_eq, hb.scan_eq]
  · rw [placeholders_append, ha.placeholders_eq, ha.scan_eq, hb.placeholders_eq]

/-- A line break is neither counted nor able to close a literal. -/
theorem Closed.of_append_newline {l : List Char} {n : Nat} (h : Closed (l ++ ['\n']) n) :
    Closed l n := by
  have hScan := h.scan_eq
  have hCount := h.placeholders_eq
  rw [scan_append] at hScan
  rw [placeholders_append] at hCount
  have hEnd : scan .outside l = .outside := by
    cases hl : scan .outside l with
    | outside => rfl
    | inside => rw [hl] at hScan; exact absurd hScan (by decide)
    | escaped => rw [hl] at hScan; exact absurd hScan (by decide)
  refine ⟨hEnd, ?_⟩
  rw [hEnd] at hCount
  exact hCount

theorem Closed.dropEndWhile {l : List Char} {n : Nat} (h : Closed l n) :
    Closed (dropEndWhile (· == '\n') l) n := by
  refine dropEndWhile_induction (motive := (Closed · n)) h fun l c hBreak hClosed => ?_
  rw [eq_of_beq hBreak] at hClosed
  exact hClosed.of_append_newline

/-! ### Plain texts -/

/-- Neither a question mark nor anything that matters inside or outside a literal. -/
def isPlainChar (c : Char) : Bool := c != '?' && c != '\'' && c != '\\'

def IsPlain (s : String) : Prop := ∀ c ∈ s.toList, isPlainChar c = true

instance (s : String) : Decidable (IsPlain s) :=
  decidable_of_iff (s.toList.all isPlainChar = true) List.all_eq_true

theorem IsPlain.append {a b : String} (ha : IsPlain a) (hb : IsPlain b) : IsPlain (a ++ b) := by
  intro c hc
  rw [String.toList_append, List.mem_append] at hc
  exact hc.elim (ha c) (hb c)

theorem Quoting.next_of_isPlainChar {c : Char} (h : isPlainChar c = true) {q : Quoting}
    (hq : q ≠ .escaped) : q.next c = q := by
  simp only [isPlainChar, Bool.and_eq_true, bne_iff_ne] at h
  cases q with
  | outside => rw [next, if_neg h.1.2]
  | inside => rw [next, if_neg h.1.2, if_neg h.2]
  | escaped => exact absurd rfl hq

theorem scan_of_isPlainChar {q : Quoting} (hq : q ≠ .escaped) : ∀ {l : List Char},
    (∀ c ∈ l, isPlainChar c = true) → scan q l = q ∧ placeholders q l = 0 := by
  intro l
  induction l with
  | nil => intro _; exact ⟨rfl, rfl⟩
  | cons c rest ih =>
    intro h
    have hc := h c List.mem_cons_self
    have hNext := Quoting.next_of_isPlainChar hc hq
    obtain ⟨hScan, hCount⟩ := ih fun d hd => h d (List.mem_cons_of_mem c hd)
    have hMark : c ≠ '?' := by
      simp only [isPlainChar, Bool.and_eq_true, bne_iff_ne] at hc
      exact hc.1.1
    constructor
    · show scan (q.next c) rest = q
      rw [hNext, hScan]
    · rw [placeholders, hNext, hCount, if_neg fun h => hMark h.2]

theorem closed_of_isPlainChar {l : List Char} (h : ∀ c ∈ l, isPlainChar c = true) : Closed l 0 :=
  ⟨(scan_of_isPlainChar (by decide) h).1, (scan_of_isPlainChar (by decide) h).2⟩

/-! ### Quoted texts -/

/-- Content that leads a scan from inside a literal back there closes between two quotes. -/
theorem closed_of_inside {l : List Char} (hScan : scan .inside l = .inside)
    (hCount : placeholders .inside l = 0) : Closed ('\'' :: l ++ ['\'']) 0 := by
  constructor
  · show scan .inside (l ++ ['\'']) = .outside
    rw [scan_append, hScan]
    rfl
  · rw [List.cons_append, placeholders]
    show 0 + placeholders .inside (l ++ ['\'']) = 0
    rw [placeholders_append, hCount, hScan]
    rfl

theorem closed_quoted_of_isPlainChar {l : List Char} (h : ∀ c ∈ l, isPlainChar c = true) :
    Closed ('\'' :: l ++ ['\'']) 0 :=
  have hInside := scan_of_isPlainChar (q := .inside) (by decide) h
  closed_of_inside hInside.1 hInside.2

theorem scan_quoteChar (c : Char) : scan .inside (Value.quoteChar c) = .inside
    ∧ placeholders .inside (Value.quoteChar c) = 0 := by
  rw [Value.quoteChar]
  by_cases hQuote : c = '\''
  · rw [if_pos hQuote]
    exact scan_inside_doubled []
  · by_cases hSlash : c = '\\'
    · rw [if_neg hQuote, if_pos hSlash]
      exact scan_inside_escaped '\\' []
    · rw [if_neg hQuote, if_neg hSlash]
      have hNext : Quoting.next .inside c = .inside := by
        rw [Quoting.next, if_neg hQuote, if_neg hSlash]
      exact ⟨hNext, by rw [placeholders, if_neg (by simp)]; rfl⟩

theorem scan_flatMap_quoteChar (l : List Char) : scan .inside (l.flatMap Value.quoteChar) = .inside
    ∧ placeholders .inside (l.flatMap Value.quoteChar) = 0 := by
  induction l with
  | nil => exact ⟨rfl, rfl⟩
  | cons c rest ih =>
    rw [List.flatMap_cons, scan_append, placeholders_append, (scan_quoteChar c).1,
      (scan_quoteChar c).2, ih.1, ih.2]
    exact ⟨rfl, rfl⟩

theorem closed_quoted (l : List Char) : Closed (Value.quoted l) 0 :=
  closed_of_inside (scan_flatMap_quoteChar l).1 (scan_flatMap_quoteChar l).2

/-! ### Numbers -/

theorem isPlainChar_of_isDigit {c : Char} (h : c.isDigit = true) : isPlainChar c = true := by
  simp only [isPlainChar, Bool.and_eq_true, bne_iff_ne]
  refine ⟨⟨?_, ?_⟩, ?_⟩ <;> rintro rfl <;> exact absurd h (by decide)

theorem isPlain_natRepr (n : Nat) : IsPlain n.repr := by
  intro c hc
  rw [Nat.toList_repr] at hc
  exact isPlainChar_of_isDigit (Nat.isDigit_of_mem_toDigits (by decide) (by decide) hc)

theorem isPlain_intRepr (n : Int) : IsPlain n.repr := by
  cases n with
  | ofNat m => exact isPlain_natRepr m
  | negSucc m => exact IsPlain.append (a := "-") (by decide) (isPlain_natRepr (m + 1))

theorem isDigit_of_mem_scaled {n : Nat} {p : Int} {c : Char} (h : c ∈ (Decimal.scaled n p).digits) :
    c.isDigit = true :=
  Nat.isDigit_of_mem_toDigits (by decide) (by decide) (mem_dropEndWhile h)

/-- Whatever grid the shortest decimal is found on, it is a scaled number. -/
theorem exists_scaled_eq_shortest (i : Interval) (tie : Tie) :
    ∃ n p, i.shortest tie = Decimal.scaled n p := by
  rw [Interval.shortest]
  cases h : (List.range 17).findSome? fun k : Nat => i.onGrid tie (i.magnitude - k) with
  | none => exact ⟨_, _, rfl⟩
  | some d =>
    obtain ⟨k, _, hk⟩ := List.exists_of_findSome?_eq_some h
    obtain ⟨n, _, hn⟩ := Option.map_eq_some_iff.mp hk
    exact ⟨n, _, hn.symm⟩

theorem isDigit_of_mem_decimal {tie : Tie} {x : Binary64} {c : Char}
    (h : c ∈ (x.decimal tie).digits) : c.isDigit = true := by
  rw [Binary64.decimal] at h
  split at h
  · rw [List.mem_singleton.mp h]; rfl
  · obtain ⟨n, p, hShortest⟩ := exists_scaled_eq_shortest (.ofBinary64 x) tie
    rw [hShortest] at h
    exact isDigit_of_mem_scaled h

theorem isPlainChar_of_mem_positional {d : Decimal} (hd : ∀ c ∈ d.digits, c.isDigit = true)
    {c : Char} (h : c ∈ d.positional) : isPlainChar c = true := by
  have hDigit : ∀ {c}, c ∈ d.digits → isPlainChar c = true := fun hc => isPlainChar_of_isDigit (hd _ hc)
  have hZero : ∀ {n : Int} {c}, c ∈ Decimal.zeros n → isPlainChar c = true := by
    intro n c hc
    rw [(List.mem_replicate.mp hc).2]
    rfl
  rw [Decimal.positional] at h
  split at h
  · rcases List.mem_cons.mp h with rfl | h
    · rfl
    rcases List.mem_cons.mp h with rfl | h
    · rfl
    exact (List.mem_append.mp h).elim hZero hDigit
  · split at h
    · exact (List.mem_append.mp h).elim hDigit hZero
    · rcases List.mem_append.mp h with h | h
      · exact hDigit (List.mem_of_mem_take h)
      rcases List.mem_cons.mp h with rfl | h
      · rfl
      · exact hDigit (List.mem_of_mem_drop h)

theorem isPlainChar_of_mem_floatText {x : Binary64} {c : Char} (h : c ∈ Value.floatText x) :
    isPlainChar c = true := by
  have hNaN : ∀ d ∈ ['N', 'a', 'N'], isPlainChar d = true := List.all_eq_true.mp (by decide)
  have hMinus : ∀ d ∈ ['-'], isPlainChar d = true := List.all_eq_true.mp (by decide)
  have hInf : ∀ d ∈ ['i', 'n', 'f'], isPlainChar d = true := List.all_eq_true.mp (by decide)
  rw [Value.floatText] at h
  split at h
  · exact hNaN c h
  rcases List.mem_append.mp h with h | h
  · split at h
    · exact hMinus c h
    · simp at h
  · split at h
    · exact hInf c h
    · exact isPlainChar_of_mem_positional (fun _ => isDigit_of_mem_decimal) h

/-! ### Literals -/

theorem isPlainChar_hexDigit : ∀ {n : Nat}, n < 16 → isPlainChar (Value.hexDigit n) = true := by
  decide

theorem isPlainChar_of_mem_hex {bytes : List UInt8} {c : Char} (h : c ∈ Value.hex bytes) :
    isPlainChar c = true := by
  obtain ⟨b, _, hc⟩ := List.mem_flatMap.mp h
  have hb : b.toNat < 256 := b.toNat_lt
  simp only [List.mem_cons, List.not_mem_nil, or_false] at hc
  rcases hc with rfl | rfl
  · exact isPlainChar_hexDigit (by omega)
  · exact isPlainChar_hexDigit (by omega)

/-- A literal holds no placeholder, and what follows it is outside again. -/
theorem closed_literal (v : Value) : Closed v.literal.toList 0 := by
  rw [Value.literal, String.toList_ofList]
  cases v with
  | null => exact ⟨rfl, rfl⟩
  | bool b => cases b <;> exact ⟨rfl, rfl⟩
  | int n => exact closed_of_isPlainChar (isPlain_intRepr n.toInt)
  | uint n => exact closed_of_isPlainChar (isPlain_natRepr n.toNat)
  | float x => exact closed_of_isPlainChar fun c hc => isPlainChar_of_mem_floatText hc
  | text s => exact closed_quoted s.toList
  | json document => exact closed_quoted document.text
  | blob bytes =>
    have hX : Closed ['X'] 0 := ⟨rfl, rfl⟩
    exact hX.append (closed_quoted_of_isPlainChar fun c hc => isPlainChar_of_mem_hex hc)

end SqlStatement.Text
