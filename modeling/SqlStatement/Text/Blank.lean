/-!
# Blank characters

`isBlank` is the Unicode property `White_Space`, twenty-five characters in ten
ranges.  `trim` drops the blanks at both ends of a text, `dropEndWhile` is what
it does at the far end.

* `mem_dropEndWhile`: nothing is added.
* `dropEndWhile_concat_append`: a character outside the class is kept, with all
  that stands before it.
* `dropEndWhile_induction`: what holds of a list and goes on to hold when a member
  at its end is dropped.
-/

namespace SqlStatement.Text

/-- The characters with the property `White_Space`, first and last of each range. -/
def blankRanges : List (Nat × Nat) :=
  [(0x09, 0x0D), (0x20, 0x20), (0x85, 0x85), (0xA0, 0xA0), (0x1680, 0x1680),
   (0x2000, 0x200A), (0x2028, 0x2029), (0x202F, 0x202F), (0x205F, 0x205F), (0x3000, 0x3000)]

def isBlank (c : Char) : Bool :=
  blankRanges.any fun r => r.1 ≤ c.toNat && c.toNat ≤ r.2

/-- Drops the longest tail whose members all satisfy `p`. -/
def dropEndWhile {α : Type} (p : α → Bool) (l : List α) : List α :=
  (l.reverse.dropWhile p).reverse

/-- Drops the blanks at both ends. -/
def trim (l : List Char) : List Char :=
  dropEndWhile isBlank (l.dropWhile isBlank)

/-! ### What is kept -/

@[simp] theorem dropEndWhile_nil {α : Type} (p : α → Bool) : dropEndWhile p [] = [] := rfl

theorem mem_dropEndWhile {α : Type} {p : α → Bool} {l : List α} {x : α}
    (h : x ∈ dropEndWhile p l) : x ∈ l := by
  rw [dropEndWhile, List.mem_reverse] at h
  exact List.mem_reverse.mp ((List.dropWhile_sublist p).subset h)

theorem dropEndWhile_concat_append {α : Type} {p : α → Bool} {x : α} (a b : List α)
    (h : p x = false) : dropEndWhile p (a ++ [x] ++ b) = a ++ [x] ++ dropEndWhile p b := by
  have hReverse : (a ++ [x] ++ b).reverse = b.reverse ++ (x :: a.reverse) := by simp
  rw [dropEndWhile, dropEndWhile, hReverse, List.dropWhile_append]
  split
  · next hEmpty =>
    rw [List.dropWhile_cons, h, List.isEmpty_iff.mp hEmpty]
    simp
  · simp

theorem dropEndWhile_concat {α : Type} {p : α → Bool} {x : α} (l : List α) (h : p x = false) :
    dropEndWhile p (l ++ [x]) = l ++ [x] := by
  simpa using dropEndWhile_concat_append l [] h

theorem dropEndWhile_concat_drop {α : Type} {p : α → Bool} {x : α} (l : List α) (h : p x = true) :
    dropEndWhile p (l ++ [x]) = dropEndWhile p l := by
  rw [dropEndWhile, List.reverse_concat, List.dropWhile_cons, h, dropEndWhile]
  simp

theorem dropEndWhile_induction {α : Type} {p : α → Bool} {motive : List α → Prop} {l : List α}
    (h : motive l) (hStep : ∀ l x, p x = true → motive (l ++ [x]) → motive l) :
    motive (dropEndWhile p l) := by
  induction hl : l.reverse generalizing l with
  | nil => rw [List.reverse_eq_nil_iff.mp hl] at h ⊢; exact h
  | cons x rest ih =>
    have he : l = rest.reverse ++ [x] := by
      rw [← List.reverse_reverse l, hl, List.reverse_cons]
    subst he
    by_cases hx : p x = true
    · rw [dropEndWhile_concat_drop _ hx]
      exact ih (hStep _ x hx h) (List.reverse_reverse rest)
    · rw [dropEndWhile_concat _ (by simpa using hx)]
      exact h

end SqlStatement.Text
