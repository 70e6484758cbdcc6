import Mathlib.Data.List.DropRight
import SqlStatement.Text.Blank

/-!
# Trimmed texts

A text is trimmed if no blank stands at either end of it.

* `trimmed_trim`, `exists_eq_append_trim`: `trim` gives a trimmed text and drops
  nothing but blanks.
* `trim_of_trimmed`: a trimmed text is left as it is.
* `Trimmed.front`, `Trimmed.trim_back_ne_nil`: neither part is empty when a trimmed
  text is cut at a blank.
-/

namespace SqlStatement.Text

/-- No blank at either end. -/
structure Trimmed (l : List Char) : Prop where
  head : ∀ c ∈ l.head?, isBlank c = false
  last : ∀ c ∈ l.getLast?, isBlank c = false

theorem dropWhile_isBlank_of_head {l : List Char} (h : ∀ c ∈ l.head?, isBlank c = false) :
    l.dropWhile isBlank = l := by
  cases l with
  | nil => rfl
  | cons c r => rw [List.dropWhile_cons, h c rfl, if_neg (by decide)]

theorem trim_of_trimmed {l : List Char} (h : Trimmed l) : trim l = l := by
  rw [trim, dropWhile_isBlank_of_head h.head]
  refine List.rdropWhile_eq_self_iff.mpr fun hl hBlank => ?_
  rw [h.last _ (List.getLast?_eq_some_getLast hl)] at hBlank
  exact Bool.false_ne_true hBlank

theorem trimmed_trim (l : List Char) : Trimmed (trim l) := by
  constructor
  · intro c hc
    obtain ⟨r, hr⟩ := List.head?_eq_some_iff.mp hc
    obtain ⟨t, ht⟩ : trim l <+: l.dropWhile isBlank := List.rdropWhile_prefix _ _
    have hFirst := List.head?_dropWhile_not isBlank l
    rw [← ht, hr] at hFirst
    exact hFirst
  · intro c hc
    have hne : trim l ≠ [] := by
      intro hNil
      rw [hNil] at hc
      exact absurd hc (by simp)
    have hLast := List.rdropWhile_last_not isBlank (l.dropWhile isBlank) hne
    rw [List.getLast?_eq_some_getLast hne] at hc
    obtain rfl := Option.some.inj hc
    exact Bool.eq_false_iff.mpr hLast

/-- Nothing but blanks is trimmed away. -/
theorem exists_eq_append_trim (l : List Char) :
    ∃ front back, l = front ++ trim l ++ back ∧ ∀ c ∈ front ++ back, isBlank c = true := by
  refine ⟨l.takeWhile isBlank, (l.dropWhile isBlank).rtakeWhile isBlank, ?_, ?_⟩
  · calc l = l.takeWhile isBlank ++ l.dropWhile isBlank := List.takeWhile_append_dropWhile.symm
      _ = l.takeWhile isBlank ++ (trim l ++ (l.dropWhile isBlank).rtakeWhile isBlank) :=
        congrArg _ List.rdropWhile_append_rtakeWhile.symm
      _ = l.takeWhile isBlank ++ trim l ++ (l.dropWhile isBlank).rtakeWhile isBlank :=
        (List.append_assoc _ _ _).symm
  · intro c hc
    rcases List.mem_append.mp hc with hFront | hBack
    · exact List.mem_takeWhile_imp hFront
    · exact List.mem_rtakeWhile_imp hBack

/-- Only blanks are trimmed away entirely. -/
theorem isBlank_of_trim_eq_nil {l : List Char} (h : trim l = []) : ∀ c ∈ l, isBlank c = true := by
  obtain ⟨front, back, hSplit, hBlank⟩ := exists_eq_append_trim l
  rw [h, List.append_nil] at hSplit
  rw [hSplit]
  exact hBlank

instance (l : List Char) : Decidable (Trimmed l) :=
  decidable_of_iff (trim l = l) ⟨fun h => h ▸ trimmed_trim l, trim_of_trimmed⟩

/-! ### Cut at a blank -/

/-- What stands before a cut in a trimmed text has no blank in front, and is nothing only if the
text begins with the character it is cut at. -/
theorem Trimmed.front {a b : List Char} {d : Char} (h : Trimmed (a ++ d :: b))
    (hd : isBlank d = true) : a ≠ [] ∧ ∀ c ∈ a.head?, isBlank c = false := by
  cases a with
  | nil => exact absurd (h.head d rfl) (by simp [hd])
  | cons c r => exact ⟨by simp, h.head⟩

theorem Trimmed.trim_back_ne_nil {a b : List Char} {d : Char} (h : Trimmed (a ++ d :: b))
    (hd : isBlank d = true) : trim b ≠ [] := by
  intro hNil
  have hBlank : ∀ c ∈ d :: b, isBlank c = true :=
    List.forall_mem_cons.mpr ⟨hd, isBlank_of_trim_eq_nil hNil⟩
  have hLast := h.last ((d :: b).getLast (by simp))
    (by rw [List.getLast?_append_of_ne_nil _ (by simp)]; exact List.getLast?_eq_some_getLast _)
  rw [hBlank _ (List.getLast_mem _)] at hLast
  exact absurd hLast (by decide)

end SqlStatement.Text
