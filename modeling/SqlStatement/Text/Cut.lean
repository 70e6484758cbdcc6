/-!
# Cutting a text at one character

`cutFirst d` cuts at the first `d`, `cutLast d` at the last; the `d` itself
belongs to neither part, and a text without one is not cut.

* `cutFirst_eq_some_iff`: the parts are exactly those that spell the text around
  a `d`, the first part free of it.
* `cutFirst_eq_none_iff`: no cut exactly when there is no `d`.
-/

namespace SqlStatement.Text

def cutFirst (d : Char) : List Char → Option (List Char × List Char)
  | [] => none
  | c :: r => if c = d then some ([], r) else (cutFirst d r).map fun p => (c :: p.1, p.2)

def cutLast (d : Char) (l : List Char) : Option (List Char × List Char) :=
  (cutFirst d l.reverse).map fun p => (p.2.reverse, p.1.reverse)

theorem cutFirst_append {d : Char} : ∀ (a b : List Char), d ∉ a →
    cutFirst d (a ++ d :: b) = some (a, b) := by
  intro a b ha
  induction a with
  | nil => simp [cutFirst]
  | cons c r ih =>
    obtain ⟨hc, hr⟩ := not_or.mp (mt List.mem_cons.mpr ha)
    rw [List.cons_append, cutFirst, if_neg (Ne.symm hc), ih hr]
    rfl

theorem cutFirst_eq_some_iff {d : Char} {l a b : List Char} :
    cutFirst d l = some (a, b) ↔ l = a ++ d :: b ∧ d ∉ a := by
  constructor
  · intro h
    induction l generalizing a b with
    | nil => simp [cutFirst] at h
    | cons c r ih =>
      rw [cutFirst] at h
      split at h
      · next hc =>
        simp only [Option.some.injEq, Prod.mk.injEq] at h
        obtain ⟨rfl, rfl⟩ := h
        exact ⟨by rw [hc]; rfl, by simp⟩
      · next hc =>
        obtain ⟨p, hp, he⟩ := Option.map_eq_some_iff.mp h
        simp only [Prod.mk.injEq] at he
        obtain ⟨rfl, rfl⟩ := he
        obtain ⟨hl, hd⟩ := ih hp
        exact ⟨by rw [hl]; rfl, by simp [hd, Ne.symm hc]⟩
  · rintro ⟨rfl, ha⟩
    exact cutFirst_append a b ha

theorem cutFirst_eq_none_iff {d : Char} {l : List Char} : cutFirst d l = none ↔ d ∉ l := by
  induction l with
  | nil => simp [cutFirst]
  | cons c r ih =>
    rw [cutFirst]
    split
    · next hc => simp [hc]
    · next hc => simp [ih, Ne.symm hc]

end SqlStatement.Text
