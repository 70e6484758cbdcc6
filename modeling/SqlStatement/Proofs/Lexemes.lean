import SqlStatement.Proofs.Quoting

/-!
# Reading literals

How MySQL reads a text that begins with a literal.  A quote opens a string: two
quotes in it denote one, a backslash takes the next character along, a quote that
stands alone ends it.  `X` with a quote opens pairs of hexadecimal digits.
Anything else is a word, with a minus sign or without, and goes as far as
letters, digits and points do.

* `Lexeme.read`: what stands at the front, and the text behind it.
* `Value.lexeme`: what is found there where a value was written.
* `Lexeme.read_literal`: a literal is read as just that, and the reading ends
  where the literal does, whatever follows that cannot go on with it.
-/

namespace SqlStatement

inductive Lexeme
  | string (l : List Char)
  | bytes (l : List UInt8)
  | word (negative : Bool) (l : List Char)
deriving DecidableEq

namespace Lexeme

/-! ### Strings -/

/-- What a backslash with this character denotes.  In front of the two wildcards of `LIKE` the
backslash stays. -/
def unescape (c : Char) : List Char :=
  if c = '0' then [Char.ofNat 0] else if c = 'b' then [Char.ofNat 8] else if c = 't' then ['\t']
  else if c = 'n' then ['\n'] else if c = 'r' then ['\r'] else if c = 'Z' then [Char.ofNat 26]
  else if c = '%' ∨ c = '_' then ['\\', c] else [c]

/-- The content of a string from behind its opening quote, and what follows the closing one. -/
def readString : List Char → Option (List Char × List Char)
  | [] => none
  | '\'' :: '\'' :: l => (readString l).map fun p => ('\'' :: p.1, p.2)
  | '\'' :: l => some ([], l)
  | '\\' :: c :: l => (readString l).map fun p => (unescape c ++ p.1, p.2)
  | c :: l => (readString l).map fun p => (c :: p.1, p.2)

theorem readString_cons {c : Char} (hQuote : c ≠ '\'') (hSlash : c ≠ '\\') (l : List Char) :
    readString (c :: l) = (readString l).map fun p => (c :: p.1, p.2) := by
  rw [readString]
  all_goals simp [hQuote, hSlash]

theorem readString_quote {rest : List Char} (h : rest.head? ≠ some '\'') :
    readString ('\'' :: rest) = some ([], rest) := by
  cases rest with
  | nil => rfl
  | cons c l =>
    rw [readString]
    simpa using h

/-- Each character is read back from the form it is written in. -/
theorem readString_quoteChar (c : Char) (l : List Char) :
    readString (Value.quoteChar c ++ l) = (readString l).map fun p => (c :: p.1, p.2) := by
  rw [Value.quoteChar]
  by_cases hQuote : c = '\''
  · subst hQuote
    rfl
  · by_cases hSlash : c = '\\'
    · subst hSlash
      rfl
    · rw [if_neg hQuote, if_neg hSlash]
      exact readString_cons hQuote hSlash l

theorem readString_flatMap_quoteChar {rest : List Char} (h : rest.head? ≠ some '\'') :
    ∀ l : List Char, readString (l.flatMap Value.quoteChar ++ '\'' :: rest) = some (l, rest)
  | [] => readString_quote h
  | c :: l => by
    rw [List.flatMap_cons, List.append_assoc, readString_quoteChar,
      readString_flatMap_quoteChar h l]
    rfl

/-! ### Bytes -/

def hexValue? (c : Char) : Option Nat :=
  if c.isDigit then some (c.toNat - 48)
  else if 'A' ≤ c ∧ c ≤ 'F' then some (c.toNat - 55)
  else if 'a' ≤ c ∧ c ≤ 'f' then some (c.toNat - 87)
  else none

def byte? (high low : Char) : Option UInt8 :=
  match hexValue? high, hexValue? low with
  | some h, some l => some (.ofNat (16 * h + l))
  | _, _ => none

/-- The bytes of pairs of digits up to a closing quote, and what follows it. -/
def readBytes : List Char → Option (List UInt8 × List Char)
  | '\'' :: l => some ([], l)
  | high :: low :: l =>
    match byte? high low, readBytes l with
    | some b, some p => some (b :: p.1, p.2)
    | _, _ => none
  | _ => none

theorem hexValue?_hexDigit : ∀ n < 16, hexValue? (Value.hexDigit n) = some n := by decide

/-- A byte is its two halves. -/
theorem byte?_hexDigit (b : UInt8) :
    byte? (Value.hexDigit (b.toNat / 16)) (Value.hexDigit (b.toNat % 16)) = some b := by
  have hb : b.toNat < 256 := b.toNat_lt
  have hWhole : 16 * (b.toNat / 16) + b.toNat % 16 = b.toNat := Nat.div_add_mod _ 16
  rw [byte?, hexValue?_hexDigit _ (by omega), hexValue?_hexDigit _ (Nat.mod_lt _ (by decide))]
  simp only [hWhole, UInt8.ofNat_toNat]

theorem hexDigit_ne_quote : ∀ n < 16, Value.hexDigit n ≠ '\'' := by decide

theorem readBytes_hex (rest : List Char) :
    ∀ l : List UInt8, readBytes (Value.hex l ++ '\'' :: rest) = some (l, rest)
  | [] => rfl
  | b :: l => by
    have hb : b.toNat < 256 := b.toNat_lt
    have hCons : Value.hex (b :: l) ++ '\'' :: rest
        = Value.hexDigit (b.toNat / 16) :: Value.hexDigit (b.toNat % 16)
          :: (Value.hex l ++ '\'' :: rest) := rfl
    rw [hCons, readBytes, byte?_hexDigit, readBytes_hex rest l]
    exact fun h => absurd h (hexDigit_ne_quote _ (by omega))

theorem length_hex (l : List UInt8) : (Value.hex l).length = 2 * l.length := by
  rw [Value.hex, List.length_flatMap]
  simp [List.map_const', Nat.mul_comm]

/-! ### Words -/

/-- What names and numerals are made of. -/
def isWordChar (c : Char) : Bool :=
  c.isAlphanum || c == '_' || c == '$' || c == '.' || 128 ≤ c.toNat

def readWord (negative : Bool) (l : List Char) : Option (Lexeme × List Char) :=
  if l.takeWhile isWordChar = [] then none
  else some (.word negative (l.takeWhile isWordChar), l.dropWhile isWordChar)

/-- The text cannot go on with a literal in front of it. -/
def Ends (rest : List Char) : Prop := ∀ c ∈ rest.head?, c ≠ '\'' ∧ isWordChar c = false

theorem Ends.head?_ne_quote {rest : List Char} (h : Ends rest) : rest.head? ≠ some '\'' :=
  fun hQuote => (h '\'' hQuote).1 rfl

theorem readWord_append {l rest : List Char} (negative : Bool) (hNe : l ≠ [])
    (hWord : ∀ c ∈ l, isWordChar c = true) (hRest : Ends rest) :
    readWord negative (l ++ rest) = some (.word negative l, rest) := by
  have hTake : rest.takeWhile isWordChar = [] ∧ rest.dropWhile isWordChar = rest := by
    cases rest with
    | nil => exact ⟨rfl, rfl⟩
    | cons c rest =>
      have hc := (hRest c rfl).2
      exact ⟨by rw [List.takeWhile_cons, hc]; rfl, by rw [List.dropWhile_cons, hc]; rfl⟩
  rw [readWord, List.takeWhile_append_of_pos hWord, List.dropWhile_append_of_pos hWord, hTake.1,
    hTake.2, List.append_nil, if_neg hNe]

/-! ### Lexemes -/

def read : List Char → Option (Lexeme × List Char)
  | '\'' :: l => (readString l).map fun p => (.string p.1, p.2)
  | 'X' :: '\'' :: l | 'x' :: '\'' :: l => (readBytes l).map fun p => (.bytes p.1, p.2)
  | '-' :: l => readWord true l
  | l => readWord false l

/-- Neither a quote nor a sign at the front, and no quote behind an introducer. -/
theorem read_eq_readWord {l : List Char} (hQuote : l.head? ≠ some '\'') (hSign : l.head? ≠ some '-')
    (hSecond : l.tail.head? ≠ some '\'') : read l = readWord false l := by
  rw [read]
  · rintro _ rfl
    exact hQuote rfl
  · rintro _ rfl
    exact hSecond rfl
  · rintro _ rfl
    exact hSecond rfl
  · rintro _ rfl
    exact hSign rfl

theorem read_quoted (l : List Char) {rest : List Char} (h : rest.head? ≠ some '\'') :
    read (Value.quoted l ++ rest) = some (.string l, rest) := by
  have hQuoted : Value.quoted l ++ rest = '\'' :: (l.flatMap Value.quoteChar ++ '\'' :: rest) := by
    simp [Value.quoted]
  rw [hQuoted, read, readString_flatMap_quoteChar h l]
  rfl

theorem read_hex (l : List UInt8) (rest : List Char) :
    read ('X' :: '\'' :: Value.hex l ++ ['\''] ++ rest) = some (.bytes l, rest) := by
  have hText : 'X' :: '\'' :: Value.hex l ++ ['\''] ++ rest
      = 'X' :: '\'' :: (Value.hex l ++ '\'' :: rest) := by simp
  rw [hText, read, readBytes_hex rest l]
  rfl

theorem ne_of_isWordChar {c : Char} (h : isWordChar c = true) : c ≠ '\'' ∧ c ≠ '-' := by
  constructor <;> rintro rfl <;> exact absurd h (by decide)

/-- A word that a text writes bare, with its sign. -/
theorem read_word {l rest : List Char} (negative : Bool) (hNe : l ≠ [])
    (hWord : ∀ c ∈ l, isWordChar c = true) (hRest : Ends rest) :
    read ((if negative then ['-'] else []) ++ l ++ rest) = some (.word negative l, rest) := by
  cases negative with
  | true => exact readWord_append true hNe hWord hRest
  | false =>
    obtain ⟨c, l, rfl⟩ := List.exists_cons_of_ne_nil hNe
    have hHead := ne_of_isWordChar (hWord c List.mem_cons_self)
    -- A word may begin with `X`; it opens no bytes, for no quote comes second.
    have hSecond : (l ++ rest).head? ≠ some '\'' := by
      cases l with
      | nil => exact hRest.head?_ne_quote
      | cons d l =>
        have hd := ne_of_isWordChar (hWord d (by simp))
        simpa using hd.1
    have hRead := readWord_append false hNe hWord hRest
    rw [← hRead]
    exact read_eq_readWord (by simpa using hHead.1) (by simpa using hHead.2) hSecond

end Lexeme

/-! ### What a literal denotes -/

/-- The digits of a number without its sign, or the name that is written in their place. -/
def Value.floatWord (x : Binary64) : List Char :=
  if x.isNaN then ['N', 'a', 'N'] else if x.isInfinite then ['i', 'n', 'f']
  else (x.decimal .up).positional

def Value.lexeme : Value → Lexeme
  | .null => .word false ['N', 'U', 'L', 'L']
  | .bool true => .word false ['T', 'R', 'U', 'E']
  | .bool false => .word false ['F', 'A', 'L', 'S', 'E']
  | .int n => .word (n.toInt < 0) n.toInt.natAbs.repr.toList
  | .uint n => .word false n.toNat.repr.toList
  | .float x => .word (!x.isNaN && x.isNegative) (floatWord x)
  | .text s => .string s.toList
  | .blob bytes => .bytes bytes
  | .json document => .string document.text

namespace Lexeme

theorem isWordChar_of_isDigit {c : Char} (h : c.isDigit = true) : isWordChar c = true := by
  simp [isWordChar, Char.isAlphanum, h]

theorem intRepr_eq (n : Int) :
    n.repr.toList = (if decide (n < 0) then ['-'] else []) ++ n.natAbs.repr.toList := by
  cases n with
  | ofNat m => rfl
  | negSucc m => simp [Int.repr]

/-- Digits, and behind a point any number of them. -/
inductive IsNumeral : List Char → Prop
  | whole {l : List Char} : l ≠ [] → (∀ c ∈ l, c.isDigit = true) → IsNumeral l
  | point {l m : List Char} : l ≠ [] → (∀ c ∈ l, c.isDigit = true) →
      (∀ c ∈ m, c.isDigit = true) → IsNumeral (l ++ '.' :: m)

theorem IsNumeral.ne_nil {l : List Char} (h : IsNumeral l) : l ≠ [] := by
  cases h with
  | whole hNe _ => exact hNe
  | point _ _ _ => simp

theorem IsNumeral.isWordChar {l : List Char} (h : IsNumeral l) :
    ∀ c ∈ l, Lexeme.isWordChar c = true := by
  cases h with
  | whole _ hDigits => exact fun c hc => isWordChar_of_isDigit (hDigits c hc)
  | point _ hBefore hBehind =>
    intro c hc
    rcases List.mem_append.mp hc with hc | hc
    · exact isWordChar_of_isDigit (hBefore c hc)
    rcases List.mem_cons.mp hc with rfl | hc
    · rfl
    · exact isWordChar_of_isDigit (hBehind c hc)

theorem isNumeral_natRepr (n : Nat) : IsNumeral n.repr.toList := by
  rw [Nat.toList_repr]
  exact .whole Nat.toDigits_ne_nil fun c hc =>
    Nat.isDigit_of_mem_toDigits (by decide) (by decide) hc

/-- There is a digit in front of the point wherever the point stands. -/
theorem isNumeral_positional {d : Decimal} (hd : ∀ c ∈ d.digits, c.isDigit = true) :
    IsNumeral d.positional := by
  have hZeros : ∀ n : Int, ∀ c ∈ Decimal.zeros n, c.isDigit = true := by
    intro n c hc
    rw [(List.mem_replicate.mp hc).2]
    rfl
  rw [Decimal.positional]
  split
  -- The point stands in front of the digits, behind them or among them.
  · refine .point (l := ['0']) (by simp) (List.all_eq_true.mp rfl) fun c hc => ?_
    exact (List.mem_append.mp hc).elim (hZeros _ c) (hd c)
  · split
    · refine .whole ?_ fun c hc => (List.mem_append.mp hc).elim (hd c) (hZeros _ c)
      refine List.ne_nil_of_length_pos ?_
      rw [List.length_append, Decimal.zeros, List.length_replicate]
      omega
    · refine .point ?_ (fun c hc => hd c (List.mem_of_mem_take hc))
        fun c hc => hd c (List.mem_of_mem_drop hc)
      refine List.ne_nil_of_length_pos ?_
      rw [List.length_take]
      omega

theorem isNumeral_decimal (x : Binary64) (tie : Tie) : IsNumeral (x.decimal tie).positional :=
  isNumeral_positional fun _ => Text.isDigit_of_mem_decimal

theorem floatWord_ne_nil (x : Binary64) : Value.floatWord x ≠ [] := by
  rw [Value.floatWord]
  split
  · simp
  · split
    · simp
    · exact (isNumeral_decimal x .up).ne_nil

theorem isWordChar_of_mem_floatWord {x : Binary64} : ∀ c ∈ Value.floatWord x,
    isWordChar c = true := by
  rw [Value.floatWord]
  split
  · exact List.all_eq_true.mp rfl
  · split
    · exact List.all_eq_true.mp rfl
    · exact (isNumeral_decimal x .up).isWordChar

theorem floatText_eq (x : Binary64) : Value.floatText x
    = (if !x.isNaN && x.isNegative then ['-'] else []) ++ Value.floatWord x := by
  rw [Value.floatText, Value.floatWord]
  cases x.isNaN <;> simp

/-- A literal is read as what it denotes, and nothing behind it is taken along. -/
theorem read_literal (v : Value) {rest : List Char} (hRest : Ends rest) :
    read (v.literal.toList ++ rest) = some (v.lexeme, rest) := by
  rw [Value.literal, String.toList_ofList]
  cases v with
  | null => exact read_word false (by simp) (List.all_eq_true.mp rfl) hRest
  | bool b => cases b <;> exact read_word false (by simp) (List.all_eq_true.mp rfl) hRest
  | int n =>
    have hText : (Value.int n).literalChars = n.toInt.repr.toList := rfl
    rw [hText, intRepr_eq]
    exact read_word _ (isNumeral_natRepr _).ne_nil (isNumeral_natRepr _).isWordChar hRest
  | uint n =>
    exact read_word false (isNumeral_natRepr _).ne_nil (isNumeral_natRepr _).isWordChar hRest
  | float x =>
    have hText : (Value.float x).literalChars = Value.floatText x := rfl
    rw [hText, floatText_eq]
    exact read_word _ (floatWord_ne_nil x) isWordChar_of_mem_floatWord hRest
  | text s => exact read_quoted s.toList hRest.head?_ne_quote
  | json document => exact read_quoted document.text hRest.head?_ne_quote
  | blob bytes => exact read_hex bytes rest

end Lexeme

end SqlStatement
