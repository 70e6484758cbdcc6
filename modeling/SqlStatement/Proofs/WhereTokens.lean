import Mathlib.Data.List.SplitBy
import SqlStatement.Operator

/-!
# The words of a WHERE line

A line is cut where the kind of character changes: letters, digits, underscores
and points make a word, comparison signs a sign, blanks separate, and every other
character stands alone.  A word is a name unless it is one of the eight words
that a WHERE line is built with, in whatever case.

* `Reading.tokens`: the words and signs of a text.
* `Reading.tokens_append`: cutting a text in two where two words or signs meet
  cuts its tokens in two; `Reading.tokens_append_of_ne` and the two after it say
  where that is.
* `Reading.IsName.tokens_eq`: a name is one token.
-/

namespace SqlStatement.Reading

/-! ### Characters -/

inductive CharClass
  | word
  | sign
  | blank
  /-- Of no other class, a token by itself. -/
  | single
deriving DecidableEq, Repr

def classOf (c : Char) : CharClass :=
  if c.isAlphanum || c == '_' || c == '.' then .word
  else if c == '=' || c == '!' || c == '<' || c == '>' then .sign
  else if c == ' ' || c == '\n' then .blank
  else .single

/-- Whether two neighbours belong together. -/
def adheres (a b : Char) : Bool := classOf a == classOf b && classOf a != .single

/-! ### Tokens -/

/-- The words that a WHERE line is built with. -/
inductive Keyword
  | start
  | and
  | or
  | not
  | between
  | member
  | is
  | null
deriving DecidableEq, Repr

def keywords : List (String × Keyword) :=
  [("WHERE", .start), ("AND", .and), ("OR", .or), ("NOT", .not), ("BETWEEN", .between),
   ("IN", .member), ("IS", .is), ("NULL", .null)]

def keyword? (word : List Char) : Option Keyword :=
  keywords.lookup (String.ofList (word.map Char.toUpper))

inductive Token
  | name (s : String)
  | keyword (k : Keyword)
  | comparison (op : Operator)
  | placeholder
  | comma
  | left
  | right
  | unknown (s : String)
deriving DecidableEq, Repr

def symbols : List (String × Token) :=
  [("=", .comparison .eq), ("!=", .comparison .notEq), (">", .comparison .gt),
   (">=", .comparison .gtEq), ("<", .comparison .lt), ("<=", .comparison .ltEq),
   ("?", .placeholder), (",", .comma), ("(", .left), (")", .right)]

def Token.ofRun (run : List Char) : Token :=
  if run.all (classOf · == .word) then
    match keyword? run with
    | some k => .keyword k
    | none => .name (String.ofList run)
  else (symbols.lookup (String.ofList run)).getD (.unknown (String.ofList run))

def tokens (l : List Char) : List Token :=
  ((l.splitBy adheres).filter fun run => !run.all (classOf · == .blank)).map .ofRun

theorem tokens_append {a b : List Char}
    (h : ∀ x ∈ a.getLast?, ∀ y ∈ b.head?, adheres x y = false) :
    tokens (a ++ b) = tokens a ++ tokens b := by
  rw [tokens, List.splitBy_append h, List.filter_append, List.map_append, tokens, tokens]

/-- Two texts do not run together where characters of different classes meet. -/
theorem tokens_append_of_ne {a b : List Char}
    (h : a.getLast?.map classOf ≠ b.head?.map classOf) :
    tokens (a ++ b) = tokens a ++ tokens b := by
  refine tokens_append fun x hx y hy => ?_
  have hNe : classOf x ≠ classOf y := fun hSame => h (by rw [hx, hy]; simp [hSame])
  simp [adheres, hNe]

theorem tokens_append_of_single_left {a b : List Char}
    (h : a.getLast?.map classOf = some .single) : tokens (a ++ b) = tokens a ++ tokens b := by
  refine tokens_append fun x hx y hy => ?_
  have hSingle : classOf x = .single := by simpa [Option.mem_def.mp hx] using h
  simp [adheres, hSingle]

theorem tokens_append_of_single_right {a b : List Char}
    (h : b.head?.map classOf = some .single) : tokens (a ++ b) = tokens a ++ tokens b := by
  refine tokens_append fun x hx y hy => ?_
  have hSingle : classOf y = .single := by simpa [Option.mem_def.mp hy] using h
  by_cases hSame : classOf x = classOf y
  · simp [adheres, hSame, hSingle]
  · simp [adheres, hSame]

/-! ### Names -/

/-- One word, and none of the keywords. -/
def IsName (s : String) : Prop :=
  s ≠ "" ∧ s.toList.all (classOf · == .word) = true ∧ keyword? s.toList = none

instance (s : String) : Decidable (IsName s) := inferInstanceAs (Decidable (_ ∧ _ ∧ _))

namespace IsName

variable {s : String} (h : IsName s)

include h

theorem toList_ne_nil : s.toList ≠ [] := by simpa using h.1

theorem classOf_eq {c : Char} (hc : c ∈ s.toList) : classOf c = .word := by
  simpa using List.all_eq_true.mp h.2.1 c hc

theorem classOf_head : s.toList.head?.map classOf = some .word := by
  rw [List.head?_eq_some_head h.toList_ne_nil, Option.map_some, h.classOf_eq (List.head_mem _)]

theorem classOf_last : s.toList.getLast?.map classOf = some .word := by
  rw [List.getLast?_eq_some_getLast h.toList_ne_nil, Option.map_some,
    h.classOf_eq (List.getLast_mem _)]

theorem tokens_eq : tokens s.toList = [.name s] := by
  have hChain : s.toList.IsChain fun a b => adheres a b = true := by
    refine (List.pairwise_of_forall_mem_list fun a ha b hb => ?_).isChain
    simp [adheres, h.classOf_eq ha, h.classOf_eq hb]
  have hBlank : s.toList.all (classOf · == .blank) = false := by
    obtain ⟨c, hc⟩ := List.exists_mem_of_ne_nil _ h.toList_ne_nil
    exact List.all_eq_false.mpr ⟨c, hc, by simp [h.classOf_eq hc]⟩
  rw [tokens, List.splitBy_of_isChain h.toList_ne_nil hChain]
  simp only [List.filter_cons, hBlank, List.filter_nil]
  simp [Token.ofRun, h.2.1, h.2.2]

/-- A name in front of something that starts with another kind of character. -/
theorem tokens_append {l : List Char} (hNext : l.head?.map classOf ≠ some .word) :
    tokens (s.toList ++ l) = .name s :: tokens l := by
  rw [tokens_append_of_ne (h.classOf_last ▸ hNext.symm), h.tokens_eq, List.singleton_append]

end IsName

/-! ### Qualified names and numbers -/

theorem keyword?_eq_none_of_mem {word : List Char} (h : '.' ∈ word) : keyword? word = none := by
  have hKeywords : ∀ k ∈ keywords, '.' ∉ k.1.toList := by decide
  rw [keyword?, List.lookup_eq_none_iff]
  intro k hk
  rw [bne_iff_ne]
  intro hSame
  refine hKeywords k hk ?_
  rw [← hSame, String.toList_ofList]
  exact List.mem_map.mpr ⟨'.', h, by decide⟩

/-- Two names with a point between them are one. -/
theorem IsName.qualified {a b : String} (ha : IsName a) (hb : IsName b) :
    IsName (a ++ "." ++ b) := by
  have hPoint : '.' ∈ (a ++ "." ++ b).toList := by simp
  refine ⟨fun hEmpty => ?_, ?_, keyword?_eq_none_of_mem hPoint⟩
  · rw [hEmpty] at hPoint
    cases hPoint
  · rw [String.toList_append, String.toList_append, List.all_append, List.all_append, ha.2.1,
      hb.2.1]
    rfl

theorem toUpper_of_isDigit {c : Char} (h : c.isDigit = true) : c.toUpper = c := by
  simp only [Char.isDigit, Bool.and_eq_true, decide_eq_true_eq] at h
  refine dif_neg ?_
  rintro ⟨hLow, -⟩
  have hOrder : 'a'.val ≤ '9'.val := UInt32.le_trans hLow h.2
  exact absurd hOrder (by decide)

theorem isName_natRepr (n : Nat) : IsName n.repr := by
  have hDigits : ∀ c ∈ n.repr.toList, c.isDigit = true := by
    intro c hc
    rw [Nat.toList_repr] at hc
    exact Nat.isDigit_of_mem_toDigits (by decide) (by decide) hc
  have hUpper : n.repr.toList.map Char.toUpper = n.repr.toList := by
    rw [List.map_congr_left fun c hc => toUpper_of_isDigit (hDigits c hc), List.map_id']
  have hKeywords : ∀ k ∈ keywords, k.1.toList.all Char.isDigit = false := by decide
  refine ⟨Nat.repr_ne_empty, List.all_eq_true.mpr fun c hc => ?_, ?_⟩
  · simp [classOf, Char.isAlphanum, hDigits c hc]
  · rw [keyword?, hUpper, String.ofList_toList, List.lookup_eq_none_iff]
    intro k hk
    rw [bne_iff_ne]
    intro hSame
    have hLetter := hKeywords k hk
    rw [← hSame, List.all_eq_true.mpr hDigits] at hLetter
    cases hLetter

end SqlStatement.Reading
