import Mathlib.Data.List.SplitBy
import SqlStatement.Proofs.Quoting

/-!
# The surface of a text

What stands outside all parentheses and literals of a text.  A scan keeps track
of how deep it is in parentheses, which only count outside the literals, and is
astray once it closes one that was never opened.

* `Whole`: a scan that starts at the surface ends there.  Whole texts one after
  the other are whole, and so is a whole text in parentheses.
* `tokens`: the words, groups and other signs on the surface.  A group is a pair
  of parentheses with what is between them, however much that is.
* `tokens_append`, `tokens_group`: how the tokens of a text come from those of
  its parts.
-/

namespace SqlStatement.Surface

open Text

/-! ### Places -/

inductive Place
  | level (depth : Nat) (q : Quoting)
  | astray
deriving DecidableEq, Repr

namespace Place

def top : Place := .level 0 .outside

def next : Place → Char → Place
  | .astray, _ => .astray
  | .level d q, c =>
    if q = .outside ∧ c = '(' then .level (d + 1) q
    else if q = .outside ∧ c = ')' then (if d = 0 then .astray else .level (d - 1) q)
    else .level d (q.next c)

/-- The same place inside one more pair of parentheses. -/
def lift : Place → Place
  | .astray => .astray
  | .level d q => .level (d + 1) q

theorem lift_ne_top (p : Place) : p.lift ≠ top := by cases p <;> simp [lift, top]

theorem next_lift {p : Place} {c : Char} (h : p.next c ≠ .astray) :
    p.lift.next c = (p.next c).lift := by
  cases p with
  | astray => rfl
  | level d q =>
    simp only [lift, next] at h ⊢
    split
    · rfl
    · next hOpen =>
      rw [if_neg hOpen] at h
      split
      · next hClose =>
        have hDeep : d ≠ 0 := fun hd => h (by rw [if_pos hClose, if_pos hd])
        rw [if_neg (Nat.succ_ne_zero d), if_neg hDeep]
        show level (d + 1 - 1) q = level (d - 1 + 1) q
        congr 1
        omega
      · rfl

end Place

/-- Where a scan that starts at `p` ends. -/
def walk (p : Place) (l : List Char) : Place := l.foldl Place.next p

theorem walk_append (p : Place) (a b : List Char) : walk p (a ++ b) = walk (walk p a) b :=
  List.foldl_append

@[simp] theorem walk_astray (l : List Char) : walk .astray l = .astray := by
  induction l with
  | nil => rfl
  | cons c rest ih => exact ih

theorem walk_lift {p : Place} {l : List Char} (h : walk p l ≠ .astray) :
    walk p.lift l = (walk p l).lift := by
  induction l generalizing p with
  | nil => rfl
  | cons c rest ih =>
    have hNext : p.next c ≠ .astray := fun hAstray => h (by
      show walk (p.next c) rest = .astray
      rw [hAstray, walk_astray])
    show walk (p.lift.next c) rest = _
    rw [Place.next_lift hNext]
    exact ih h

/-! ### Whole texts -/

/-- Every parenthesis and every literal that is opened is closed. -/
def Whole (l : List Char) : Prop := walk .top l = .top

instance (l : List Char) : Decidable (Whole l) := inferInstanceAs (Decidable (_ = _))

namespace Whole

variable {a b : List Char}

theorem nil : Whole [] := rfl

theorem append (ha : Whole a) (hb : Whole b) : Whole (a ++ b) := by
  rw [Whole, walk_append, ha, hb]

/-- At any depth a whole text leads back to where it began. -/
theorem walk_level (h : Whole a) (d : Nat) : walk (.level d .outside) a = .level d .outside := by
  induction d with
  | zero => exact h
  | succ d ih =>
    have hAstray : walk (.level d .outside) a ≠ .astray := by rw [ih]; exact Place.noConfusion
    exact (walk_lift hAstray).trans (by rw [ih]; rfl)

/-- A whole text behind one that goes `d` levels down and in front of one that comes up again. -/
theorem between {front back : List Char} {d : Nat} (h : Whole a)
    (hFront : walk .top front = .level d .outside) (hBack : walk (.level d .outside) back = .top) :
    Whole (front ++ a ++ back) := by
  rw [Whole, walk_append, walk_append, hFront, h.walk_level, hBack]

theorem parenthesised (h : Whole a) : Whole ('(' :: a ++ [')']) :=
  h.between (rfl : walk .top ['('] = .level 1 .outside) rfl

theorem intercalate (ha : Whole a) : ∀ {l : List (List Char)}, (∀ s ∈ l, Whole s) →
    Whole (a.intercalate l)
  | [], _ => nil
  | [s], h => by
    rw [List.intercalate_singleton]
    exact h s List.mem_cons_self
  | s :: t :: rest, h => by
    rw [List.intercalate_cons_cons]
    exact ((h s List.mem_cons_self).append ha).append
      (intercalate ha fun r hr => h r (List.mem_cons_of_mem s hr))

/-- A line break takes a scan nowhere. -/
theorem of_append_newline (h : Whole (a ++ ['\n'])) : Whole a := by
  rw [Whole, walk_append] at h
  rw [Whole]
  generalize walk .top a = p at h ⊢
  cases p with
  | astray => exact h
  | level d q =>
    cases q with
    | outside => exact h
    | inside | escaped => exact absurd h (by simp [walk, Place.next, Quoting.next, Place.top])

theorem dropEndWhile (h : Whole a) : Whole (dropEndWhile (· == '\n') a) := by
  refine dropEndWhile_induction (motive := Whole) h fun l c hBreak hWhole => ?_
  rw [eq_of_beq hBreak] at hWhole
  exact hWhole.of_append_newline

end Whole

/-! ### Tokens -/

/-- The words that tell the parts of a union apart, or end what is of interest in them. -/
inductive ClauseWord
  | union
  | order
  | limit
  | lock
deriving DecidableEq, Repr

def clauseWords : List (String × ClauseWord) :=
  [("UNION", .union), ("ORDER", .order), ("LIMIT", .limit), ("FOR", .lock)]

/-- In whatever case. -/
def clauseWord? (run : List Char) : Option ClauseWord :=
  clauseWords.lookup (String.ofList (run.map Char.toUpper))

inductive Token
  | clause (w : ClauseWord)
  | group (content : List Char)
  | other (run : List Char)
deriving DecidableEq, Repr

def Token.isClause : Token → Bool
  | .clause _ => true
  | .group _ | .other _ => false

def Token.ofRun : List Char → Token
  | '(' :: rest => .group rest.dropLast
  | run =>
    match clauseWord? run with
    | some w => .clause w
    | none => .other run

/-- Letters, digits, underscores, dollar signs and all that is beyond ASCII. -/
def isWordChar (c : Char) : Bool :=
  c.isAlphanum || c == '_' || c == '$' || decide (128 ≤ c.toNat)

/-- The characters, each with the place behind it. -/
def places : Place → List Char → List (Char × Place)
  | _, [] => []
  | p, c :: rest => (c, p.next c) :: places (p.next c) rest

/-- Whether two neighbours belong together: below the surface, or in a word. -/
def adheres (a b : Char × Place) : Bool := a.2 != .top || isWordChar a.1 && isWordChar b.1

def runs (l : List Char) : List (List Char) :=
  ((places .top l).splitBy adheres).map (·.map Prod.fst)

def tokens (l : List Char) : List Token :=
  ((runs l).filter fun run => !run.all Char.isWhitespace).map .ofRun

example : tokens "SELECT a, MAX(b) FROM t WHERE c = 'ORDER (' union (SELECT 1 LIMIT 1)".toList
    = [.other "SELECT".toList, .other ['a'], .other [','], .other "MAX".toList, .group ['b'],
      .other "FROM".toList, .other ['t'], .other "WHERE".toList, .other ['c'], .other ['='],
      .other "'ORDER ('".toList, .clause .union, .group "SELECT 1 LIMIT 1".toList] := by
  decide +kernel

theorem map_fst_places (p : Place) (l : List Char) : (places p l).map Prod.fst = l := by
  induction l generalizing p with
  | nil => rfl
  | cons c rest ih => rw [places, List.map_cons, ih]

theorem places_append (p : Place) (a b : List Char) :
    places p (a ++ b) = places p a ++ places (walk p a) b := by
  induction a generalizing p with
  | nil => rfl
  | cons c rest ih =>
    rw [List.cons_append, places, places, List.cons_append, ih]
    rfl

theorem places_concat (p : Place) (a : List Char) (c : Char) :
    places p (a ++ [c]) = places p a ++ [(c, walk p (a ++ [c]))] := by
  rw [places_append, walk_append]
  rfl

theorem eq_of_mem_getLast?_places {p : Place} {l : List Char} {x : Char × Place}
    (h : x ∈ (places p l).getLast?) : x.1 ∈ l.getLast? ∧ x.2 = walk p l := by
  rcases List.eq_nil_or_concat l with rfl | ⟨front, c, rfl⟩
  · cases h
  · rw [List.concat_eq_append, places_concat, List.getLast?_append, List.getLast?_singleton,
      Option.some_or] at h
    obtain rfl := Option.some.inj h
    simp

theorem fst_mem_head?_of_places {p : Place} {l : List Char} {y : Char × Place}
    (h : y ∈ (places p l).head?) : y.1 ∈ l.head? := by
  cases l with
  | nil => cases h
  | cons c rest =>
    obtain rfl := Option.some.inj h
    rfl

/-- No word goes on from the end of `a` to the beginning of `b`. -/
def Apart (a b : List Char) : Prop :=
  ∀ x ∈ a.getLast?, ∀ y ∈ b.head?, (isWordChar x && isWordChar y) = false

theorem tokens_append {a b : List Char} (ha : Whole a) (h : Apart a b) :
    tokens (a ++ b) = tokens a ++ tokens b := by
  have hSplit : (places .top (a ++ b)).splitBy adheres
      = (places .top a).splitBy adheres ++ (places .top b).splitBy adheres := by
    rw [places_append, ha]
    refine List.splitBy_append fun x hx y hy => ?_
    obtain ⟨hLast, hPlace⟩ := eq_of_mem_getLast?_places hx
    rw [adheres, hPlace, ha, h _ hLast _ (fst_mem_head?_of_places hy)]
    rfl
  rw [tokens, runs, hSplit, List.map_append, List.filter_append, List.map_append]
  rfl

theorem tokens_append_of_last {a b : List Char} (ha : Whole a)
    (hLast : ∀ c ∈ a.getLast?, isWordChar c = false) : tokens (a ++ b) = tokens a ++ tokens b :=
  tokens_append ha fun x hx y _ => by rw [hLast x hx, Bool.false_and]

@[simp] theorem tokens_nil : tokens [] = [] := rfl

theorem tokens_append_newline {a : List Char} (h : Whole a) : tokens (a ++ ['\n']) = tokens a := by
  have hApart : Apart a ['\n'] := fun x _ y hy => by
    obtain rfl := Option.some.inj hy
    rw [(by decide : isWordChar '\n' = false), Bool.and_false]
  rw [tokens_append h hApart, (by decide : tokens ['\n'] = []), List.append_nil]

/-- Line breaks at the end are no tokens. -/
theorem tokens_dropEndWhile {a : List Char} (h : Whole a) :
    tokens (dropEndWhile (· == '\n') a) = tokens a := by
  refine (dropEndWhile_induction (motive := fun b => Whole b ∧ tokens b = tokens a) ⟨h, rfl⟩
    fun b c hBreak hb => ?_).2
  rw [eq_of_beq hBreak] at hb
  have hWhole := hb.1.of_append_newline
  exact ⟨hWhole, by rw [← hb.2, tokens_append_newline hWhole]⟩

/-- The characters of a run stand in the text. -/
theorem mem_of_mem_runs {l run : List Char} (h : run ∈ runs l) {c : Char} (hc : c ∈ run) :
    c ∈ l := by
  obtain ⟨r, hr, rfl⟩ := List.mem_map.mp h
  obtain ⟨x, hx, rfl⟩ := List.mem_map.mp hc
  have hFlat : x ∈ ((places .top l).splitBy adheres).flatten := List.mem_flatten.mpr ⟨r, hr, hx⟩
  rw [List.flatten_splitBy] at hFlat
  rw [← map_fst_places .top l]
  exact List.mem_map.mpr ⟨x, hFlat, rfl⟩

theorem ne_nil_of_mem_runs {l run : List Char} (h : run ∈ runs l) : run ≠ [] := by
  obtain ⟨r, hr, rfl⟩ := List.mem_map.mp h
  exact fun hNil => List.ne_nil_of_mem_splitBy hr (List.map_eq_nil_iff.mp hNil)

/-- A text that leaves the surface at once and comes back with its last character is one run. -/
theorem runs_submerged {a : List Char} (c : Char)
    (h : ∀ x ∈ places .top a, x.2 ≠ .top) : runs (a ++ [c]) = [a ++ [c]] := by
  have hBelow : ∀ x ∈ places .top a, ∀ y, adheres x y = true := fun x hx y => by
    simp [adheres, h x hx]
  have hChain : (places .top (a ++ [c])).IsChain fun x y => adheres x y = true := by
    rw [places_concat, List.isChain_append]
    refine ⟨?_, List.isChain_singleton _, fun x hx y _ => hBelow x (List.mem_of_mem_getLast? hx) y⟩
    exact (List.pairwise_of_forall_mem_list fun x hx y _ => hBelow x hx y).isChain
  have hSome : places .top (a ++ [c]) ≠ [] := by simp [places_concat]
  rw [runs, List.splitBy_of_isChain hSome hChain, List.map_singleton, map_fst_places]

/-! ### Groups -/

/-- A scan that would not go astray never comes up to the surface one level further down. -/
theorem ne_top_of_mem_places_lift {p : Place} {l : List Char} (h : walk p l ≠ .astray) :
    ∀ x ∈ places p.lift l, x.2 ≠ .top := by
  induction l generalizing p with
  | nil => simp [places]
  | cons c rest ih =>
    have hNext : p.next c ≠ .astray := fun hAstray => h (by
      show walk (p.next c) rest = .astray
      rw [hAstray, walk_astray])
    rw [places, Place.next_lift hNext, List.forall_mem_cons]
    exact ⟨Place.lift_ne_top _, ih h⟩

/-- A whole text in parentheses is one token. -/
theorem tokens_group {a : List Char} (h : Whole a) :
    tokens ('(' :: a ++ [')']) = [.group a] := by
  have hBelow : ∀ x ∈ places .top ('(' :: a), x.2 ≠ .top := by
    have hAstray : walk .top a ≠ .astray := by rw [h]; exact Place.noConfusion
    rw [places, List.forall_mem_cons]
    exact ⟨by decide, ne_top_of_mem_places_lift (p := .top) hAstray⟩
  rw [tokens, runs_submerged _ hBelow]
  simp [Token.ofRun]

end SqlStatement.Surface
