import Mathlib.Data.List.Forall2
import SqlStatement.Proofs.WhereTokens

/-!
# What a WHERE line says

The tokens of a line are read in two steps.  First the comparisons are put
together, the `AND` of a range with its range.  What is left are predicates,
`AND`, `OR` and parentheses, and these are read by precedence: `AND` before `OR`,
parentheses before both.

* `Formula.read?`: the formula of a line.
* `Formula.value`: its value, given one truth value for each predicate.
* `Spells`: a text whose tokens are put together to the same items in any place.
* `Factor`: a text that stands for one formula wherever an operand is due.
* `factor_of_spells`, `factor_parenthesised`: predicates are factors, and so are
  alternatives in parentheses.
* `read?_conjunction`: factors with `AND` between them are read as a conjunction.
-/

namespace SqlStatement.Reading

/-! ### Predicates -/

inductive Predicate
  /-- A column compared with as many placeholders as there are operands. -/
  | test (column : String) (op : Operator) (operands : Nat)
  | equality (left right : String)
deriving DecidableEq, Repr

inductive Item
  | predicate (p : Predicate)
  | and
  | or
  | left
  | right
deriving DecidableEq, Repr

mutual

def items? : List Token → Option (List Item)
  | [] => some []
  | .left :: rest => (items? rest).map (.left :: ·)
  | .right :: rest => (items? rest).map (.right :: ·)
  | .keyword .and :: rest => (items? rest).map (.and :: ·)
  | .keyword .or :: rest => (items? rest).map (.or :: ·)
  | .name a :: .comparison op :: .placeholder :: rest =>
    (items? rest).map (.predicate (.test a op 1) :: ·)
  | .name a :: .comparison .eq :: .name b :: rest =>
    (items? rest).map (.predicate (.equality a b) :: ·)
  | .name a :: .keyword .is :: .keyword .null :: rest =>
    (items? rest).map (.predicate (.test a .null 0) :: ·)
  | .name a :: .keyword .is :: .keyword .not :: .keyword .null :: rest =>
    (items? rest).map (.predicate (.test a .notNull 0) :: ·)
  | .name a :: .keyword .between :: .placeholder :: .keyword .and :: .placeholder :: rest =>
    (items? rest).map (.predicate (.test a .between 2) :: ·)
  | .name a :: .keyword .not :: .keyword .between :: .placeholder :: .keyword .and
      :: .placeholder :: rest =>
    (items? rest).map (.predicate (.test a .notBetween 2) :: ·)
  | .name a :: .keyword .member :: .left :: .placeholder :: rest => members? a .inList 1 rest
  | .name a :: .keyword .not :: .keyword .member :: .left :: .placeholder :: rest =>
    members? a .notIn 1 rest
  | _ => none

/-- The rest of a list of placeholders, `count` of them read. -/
def members? (a : String) (op : Operator) (count : Nat) : List Token → Option (List Item)
  | .comma :: .placeholder :: rest => members? a op (count + 1) rest
  | .right :: rest => (items? rest).map (.predicate (.test a op count) :: ·)
  | _ => none

end

/-! ### Formulas -/

inductive Formula
  | predicate (p : Predicate)
  | both (a b : Formula)
  | either (a b : Formula)
deriving DecidableEq, Repr

namespace Formula

/-- From left to right. -/
def predicates : Formula → List Predicate
  | .predicate p => [p]
  | .both a b | .either a b => a.predicates ++ b.predicates

theorem predicates_ne_nil : ∀ a : Formula, a.predicates ≠ []
  | .predicate p => List.cons_ne_nil p []
  | .both a b | .either a b => List.append_ne_nil_of_left_ne_nil a.predicates_ne_nil b.predicates

def size (a : Formula) : Nat := a.predicates.length

/-- The value under truth values for the predicates, the leftmost of which is number `k`. -/
def value (truth : Nat → Bool) (k : Nat) : Formula → Bool
  | .predicate _ => truth k
  | .both a b => a.value truth k && b.value truth (k + a.size)
  | .either a b => a.value truth k || b.value truth (k + a.size)

/-- One more operand of a conjunction, of which there may be none so far. -/
def conjoin : Option Formula → Formula → Formula
  | none, b => b
  | some a, b => .both a b

def disjoin : Option Formula → Formula → Formula
  | none, b => b
  | some a, b => .either a b

end Formula

namespace Formula

/-! ### Values of lists -/

def sizes (as : List Formula) : Nat := (as.flatMap predicates).length

@[simp] theorem sizes_nil : sizes [] = 0 := rfl

@[simp] theorem sizes_cons (a : Formula) (as : List Formula) :
    sizes (a :: as) = a.size + sizes as := by
  simp [sizes, size]

@[simp] theorem sizes_append (as bs : List Formula) : sizes (as ++ bs) = sizes as + sizes bs := by
  simp [sizes]

/-- All of the formulas hold, their predicates numbered one after the other from `k`. -/
def allHold (truth : Nat → Bool) (k : Nat) : List Formula → Bool
  | [] => true
  | a :: as => a.value truth k && allHold truth (k + a.size) as

def anyHolds (truth : Nat → Bool) (k : Nat) : List Formula → Bool
  | [] => false
  | a :: as => a.value truth k || anyHolds truth (k + a.size) as

variable (truth : Nat → Bool)

theorem allHold_append (k : Nat) (as bs : List Formula) : allHold truth k (as ++ bs)
    = (allHold truth k as && allHold truth (k + sizes as) bs) := by
  induction as generalizing k with
  | nil => simp [allHold]
  | cons a as ih => simp [allHold, ih, Bool.and_assoc, Nat.add_assoc]

theorem anyHolds_append (k : Nat) (as bs : List Formula) : anyHolds truth k (as ++ bs)
    = (anyHolds truth k as || anyHolds truth (k + sizes as) bs) := by
  induction as generalizing k with
  | nil => simp [anyHolds]
  | cons a as ih => simp [anyHolds, ih, Bool.or_assoc, Nat.add_assoc]

theorem predicates_foldl_both (a : Formula) (as : List Formula) :
    (as.foldl both a).predicates = (a :: as).flatMap predicates := by
  induction as generalizing a with
  | nil => simp
  | cons b as ih => simp [ih, predicates]

theorem predicates_foldl_either (a : Formula) (as : List Formula) :
    (as.foldl either a).predicates = (a :: as).flatMap predicates := by
  induction as generalizing a with
  | nil => simp
  | cons b as ih => simp [ih, predicates]

theorem value_foldl_both (k : Nat) (a : Formula) (as : List Formula) :
    (as.foldl both a).value truth k = allHold truth k (a :: as) := by
  induction as generalizing a with
  | nil => simp [allHold]
  | cons b as ih =>
    simp [ih, allHold, value, size, predicates, Bool.and_assoc, Nat.add_assoc]

theorem value_foldl_either (k : Nat) (a : Formula) (as : List Formula) :
    (as.foldl either a).value truth k = anyHolds truth k (a :: as) := by
  induction as generalizing a with
  | nil => simp [anyHolds]
  | cons b as ih =>
    simp [ih, anyHolds, value, size, predicates, Bool.or_assoc, Nat.add_assoc]

end Formula

/-! ### Reading by precedence -/

/-- What was read in front of a parenthesis: the alternatives so far, and the factors of the one
under way. -/
structure Frame where
  alternatives : Option Formula
  factors : Option Formula

mutual

/-- An operand is due. -/
def operand (stack : List Frame) (alternatives factors : Option Formula) :
    List Item → Option Formula
  | .predicate p :: rest => operator stack alternatives (.conjoin factors (.predicate p)) rest
  | .left :: rest => operand (⟨alternatives, factors⟩ :: stack) none none rest
  | _ => none

/-- An operator, a closing parenthesis or the end is due. -/
def operator (stack : List Frame) (alternatives : Option Formula) (factors : Formula) :
    List Item → Option Formula
  | [] => if stack.isEmpty then some (.disjoin alternatives factors) else none
  | .and :: rest => operand stack alternatives (some factors) rest
  | .or :: rest => operand stack (some (.disjoin alternatives factors)) none rest
  | .right :: rest =>
    match stack with
    | [] => none
    | frame :: below =>
      operator below frame.alternatives
        (.conjoin frame.factors (.disjoin alternatives factors)) rest
  | _ => none

end

/-- The formula of a WHERE line. -/
def Formula.read? (l : List Char) : Option Formula :=
  match tokens l with
  | .keyword .start :: rest => (items? rest).bind (operand [] none none)
  | _ => none

/-! ### Texts and their items -/

/-- `l` neither begins nor ends with a blank, and its tokens are put together to `is` whatever
comes after them. -/
structure Spells (l : List Char) (is : List Item) : Prop where
  ne_nil : l ≠ []
  head_ne_blank : l.head?.map classOf ≠ some .blank
  last_ne_blank : l.getLast?.map classOf ≠ some .blank
  items?_append : ∀ rest, items? (tokens l ++ rest) = (items? rest).map (is ++ ·)

/-- Two texts with a word and its blanks between them. -/
theorem Spells.around {a b gap : List Char} {is js : List Item} {k : Keyword} {item : Item}
    (ha : Spells a is) (hb : Spells b js) (hGap : tokens gap = [.keyword k])
    (hHead : gap.head?.map classOf = some .blank)
    (hLast : gap.getLast?.map classOf = some .blank)
    (hItem : ∀ rest, items? (.keyword k :: rest) = (items? rest).map (item :: ·)) :
    Spells (a ++ (gap ++ b)) (is ++ item :: js) := by
  have hNe : gap ≠ [] := by
    rintro rfl
    cases hGap
  have hRight : tokens (gap ++ b) = .keyword k :: tokens b := by
    rw [tokens_append_of_ne (hLast ▸ hb.head_ne_blank.symm), hGap, List.singleton_append]
  have hAll : tokens (a ++ (gap ++ b)) = tokens a ++ .keyword k :: tokens b := by
    rw [← List.head?_append_of_ne_nil _ hNe] at hHead
    rw [tokens_append_of_ne (hHead ▸ ha.last_ne_blank), hRight]
  refine ⟨by simp [ha.ne_nil], ?_, ?_, fun rest => ?_⟩
  · rw [List.head?_append_of_ne_nil _ ha.ne_nil]
    exact ha.head_ne_blank
  · rw [← List.append_assoc, List.getLast?_append_of_ne_nil _ hb.ne_nil]
    exact hb.last_ne_blank
  · rw [hAll, List.append_assoc, ha.items?_append, List.cons_append, hItem, hb.items?_append]
    simp [Option.map_map, Function.comp_def]

theorem Spells.conjunction {a b : List Char} {is js : List Item} (ha : Spells a is)
    (hb : Spells b js) : Spells (a ++ (" AND ".toList ++ b)) (is ++ .and :: js) :=
  ha.around hb (by rfl) (by rfl) (by rfl) fun _ => rfl

theorem Spells.disjunction {a b : List Char} {is js : List Item} (ha : Spells a is)
    (hb : Spells b js) : Spells (a ++ (" OR ".toList ++ b)) (is ++ .or :: js) :=
  ha.around hb (by rfl) (by rfl) (by rfl) fun _ => rfl

theorem Spells.parenthesised {a : List Char} {is : List Item} (ha : Spells a is) :
    Spells (['('] ++ (a ++ [')'])) (.left :: (is ++ [.right])) := by
  have hTokens : tokens (['('] ++ (a ++ [')'])) = .left :: (tokens a ++ [.right]) := by
    rw [tokens_append_of_single_left rfl, tokens_append_of_single_right rfl]
    rfl
  refine ⟨List.cons_ne_nil _ _, nofun, ?_, fun rest => ?_⟩
  · rw [← List.append_assoc, List.getLast?_concat]
    exact nofun
  · rw [hTokens]
    simp [items?, ha.items?_append, Option.map_map, Function.comp_def]

/-- A name with what is said of it. -/
theorem spells_predicate {s : String} {tail : List Char} {p : Predicate} (h : IsName s)
    (hNe : tail ≠ []) (hHead : tail.head?.map classOf ≠ some .word)
    (hLast : tail.getLast?.map classOf ≠ some .blank)
    (hItems : ∀ rest,
      items? (.name s :: (tokens tail ++ rest)) = (items? rest).map (.predicate p :: ·)) :
    Spells (s.toList ++ tail) [.predicate p] := by
  refine ⟨by simp [hNe], ?_, ?_, fun rest => ?_⟩
  · rw [List.head?_append_of_ne_nil _ h.toList_ne_nil, h.classOf_head]
    exact nofun
  · rw [List.getLast?_append_of_ne_nil _ hNe]
    exact hLast
  · rw [h.tokens_append hHead, List.cons_append, hItems]
    rfl

theorem spells_equality {s t : String} (hs : IsName s) (ht : IsName t) :
    Spells (s.toList ++ (['='] ++ t.toList)) [.predicate (.equality s t)] := by
  have hTokens : tokens (['='] ++ t.toList) = [.comparison .eq, .name t] := by
    rw [tokens_append_of_ne (ht.classOf_head ▸ nofun), ht.tokens_eq]
    rfl
  refine spells_predicate hs (by simp) nofun ?_ fun rest => ?_
  · rw [List.getLast?_append_of_ne_nil _ ht.toList_ne_nil, ht.classOf_last]
    exact nofun
  · rw [hTokens]
    rfl

/-- The tokens of some more placeholders of a list. -/
def moreMembers : Nat → List Token
  | 0 => []
  | n + 1 => .comma :: .placeholder :: moreMembers n

theorem members?_moreMembers (a : String) (op : Operator) (n count : Nat) (rest : List Token) :
    members? a op count (moreMembers n ++ .right :: rest)
      = (items? rest).map (.predicate (.test a op (count + n)) :: ·) := by
  induction n generalizing count with
  | zero => rfl
  | succ n ih =>
    rw [moreMembers, List.cons_append, List.cons_append, members?, ih, Nat.add_right_comm,
      Nat.add_assoc]

/-! ### Factors -/

/-- `l` stands for `a` wherever an operand is due. -/
def Factor (l : List Char) (a : Formula) : Prop :=
  ∃ is, Spells l is ∧ ∀ stack alternatives factors rest,
    operand stack alternatives factors (is ++ rest)
      = operator stack alternatives (.conjoin factors a) rest

theorem factor_of_spells {l : List Char} {p : Predicate} (h : Spells l [.predicate p]) :
    Factor l (.predicate p) := ⟨_, h, fun _ _ _ _ => rfl⟩

/-- Factors with `AND` between them go on with the conjunction they are in. -/
theorem exists_spells_conjunction {l : List Char} {a : Formula} {ls : List (List Char)}
    {as : List Formula} (h : Factor l a) (hs : List.Forall₂ Factor ls as) :
    ∃ is, Spells (" AND ".toList.intercalate (l :: ls)) is ∧
      ∀ stack alternatives factors rest, operand stack alternatives factors (is ++ rest)
        = operator stack alternatives (as.foldl .both (.conjoin factors a)) rest := by
  induction hs generalizing l a with
  | nil => simpa [List.intercalate, Factor] using h
  | @cons m b ms bs hm _ ih =>
    obtain ⟨is, hSpells, hRead⟩ := h
    obtain ⟨js, hMore, hReadMore⟩ := ih hm
    refine ⟨is ++ .and :: js, ?_, fun stack alternatives factors rest => ?_⟩
    · simpa [List.intercalate, List.intersperse] using hSpells.conjunction hMore
    · rw [List.append_assoc, hRead, List.cons_append, operator, hReadMore]
      rfl

/-- Factors with `OR` between them, up to the parenthesis that closes them. -/
theorem exists_spells_disjunction {l : List Char} {a : Formula} {ls : List (List Char)}
    {as : List Formula} (h : Factor l a) (hs : List.Forall₂ Factor ls as) :
    ∃ is, Spells (" OR ".toList.intercalate (l :: ls)) is ∧
      ∀ frame below alternatives rest,
        operand (frame :: below) alternatives none (is ++ .right :: rest)
          = operator below frame.alternatives
            (.conjoin frame.factors (as.foldl .either (.disjoin alternatives a))) rest := by
  induction hs generalizing l a with
  | nil =>
    obtain ⟨is, hSpells, hRead⟩ := h
    refine ⟨is, by simpa [List.intercalate] using hSpells, fun frame below alternatives rest => ?_⟩
    rw [hRead]
    rfl
  | @cons m b ms bs hm _ ih =>
    obtain ⟨is, hSpells, hRead⟩ := h
    obtain ⟨js, hMore, hReadMore⟩ := ih hm
    refine ⟨is ++ .or :: js, ?_, fun frame below alternatives rest => ?_⟩
    · simpa [List.intercalate, List.intersperse] using hSpells.disjunction hMore
    · rw [List.append_assoc, hRead, List.cons_append, operator, hReadMore]
      rfl

theorem factor_parenthesised {l : List Char} {a : Formula} {ls : List (List Char)}
    {as : List Formula} (h : Factor l a) (hs : List.Forall₂ Factor ls as) :
    Factor (['('] ++ (" OR ".toList.intercalate (l :: ls) ++ [')'])) (as.foldl .either a) := by
  obtain ⟨is, hSpells, hRead⟩ := exists_spells_disjunction h hs
  refine ⟨_, hSpells.parenthesised, fun stack alternatives factors rest => ?_⟩
  rw [List.cons_append, List.append_assoc, operand, List.singleton_append, hRead]
  rfl

/-- The line of a conjunction, which does not end with a blank. -/
theorem read?_conjunction {l : List Char} {a : Formula} {ls : List (List Char)}
    {as : List Formula} (h : Factor l a) (hs : List.Forall₂ Factor ls as) :
    Formula.read? ("WHERE ".toList ++ " AND ".toList.intercalate (l :: ls))
        = some (as.foldl .both a) ∧
      ∃ before c, "WHERE ".toList ++ " AND ".toList.intercalate (l :: ls) = before ++ [c] ∧
        classOf c ≠ .blank := by
  obtain ⟨is, hSpells, hRead⟩ := exists_spells_conjunction h hs
  have hTokens : tokens ("WHERE ".toList ++ " AND ".toList.intercalate (l :: ls))
      = .keyword .start :: tokens (" AND ".toList.intercalate (l :: ls)) := by
    have hBlank : "WHERE ".toList.getLast?.map classOf = some .blank := rfl
    rw [tokens_append_of_ne (hBlank ▸ hSpells.head_ne_blank.symm)]
    rfl
  have hItems := hSpells.items?_append []
  have hOperand := hRead [] none none []
  simp only [List.append_nil, items?, Option.map_some] at hItems hOperand
  refine ⟨?_, ?_⟩
  · rw [Formula.read?, hTokens]
    simp only [hItems, Option.bind_some, hOperand]
    rfl
  · have hNe := hSpells.ne_nil
    have hLast := hSpells.last_ne_blank
    rw [List.getLast?_eq_some_getLast hNe] at hLast
    refine ⟨"WHERE ".toList ++ (" AND ".toList.intercalate (l :: ls)).dropLast,
      (" AND ".toList.intercalate (l :: ls)).getLast hNe, ?_, fun hBlank => hLast ?_⟩
    · rw [List.append_assoc, List.dropLast_append_getLast]
    · rw [Option.map_some, hBlank]

end SqlStatement.Reading
