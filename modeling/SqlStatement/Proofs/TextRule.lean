import SqlStatement.Proofs.Outcome
import SqlStatement.Proofs.Quoting

/-!
# Rules for the texts of a script

What can be said of the texts of a script, from the characters that its
identifiers may have.  All statements put their texts together in the same few
ways, and a rule is a property of texts that is kept in each of them.

* `TextRule`: a rule; `TextRule.Name` are the identifiers it allows.
* `Script.Meets`: each text of a script keeps the rule, in nested scripts as well.
-/

namespace SqlStatement

open Text

/-- The characters that identifiers may have, and a property of texts that are made of such
identifiers, of other texts with the property, and of such identifiers in quotes. -/
structure TextRule where
  allowed : Char → Bool
  Good : String → Prop
  allowed_of_plain : ∀ c, isPlainChar c = true → allowed c = true
  good_of_allowed : ∀ s : String, (∀ c ∈ s.toList, allowed c = true) → Good s
  good_append : ∀ {a b : String}, Good a → Good b → Good (a ++ b)
  good_quoted : ∀ s : String, (∀ c ∈ s.toList, allowed c = true) → Good ("'" ++ s ++ "'")

namespace TextRule

variable {R : TextRule}

/-- An identifier that the rule allows. -/
def Name (R : TextRule) (s : String) : Prop := ∀ c ∈ s.toList, R.allowed c = true

theorem name_of_subset {a b : String} (h : ∀ c ∈ a.toList, c ∈ b.toList) (hb : R.Name b) :
    R.Name a := fun c hc => hb c (h c hc)

theorem name_of_plain {s : String} (h : IsPlain s) : R.Name s :=
  fun c hc => R.allowed_of_plain c (h c hc)

theorem Name.append {a b : String} (ha : R.Name a) (hb : R.Name b) : R.Name (a ++ b) := by
  intro c hc
  rw [String.toList_append, List.mem_append] at hc
  exact hc.elim (ha c) (hb c)

theorem Name.good {s : String} (h : R.Name s) : R.Good s := R.good_of_allowed s h

theorem good_of_plain {s : String} (h : IsPlain s) : R.Good s := (name_of_plain h).good

theorem name_natRepr (n : Nat) : R.Name n.repr := name_of_plain (isPlain_natRepr n)

/-- An identifier in quotes that belong to the plain texts around it. -/
theorem good_between {front back a b s : String} (hFront : front = a ++ "'") (hBack : back = "'" ++ b)
    (ha : IsPlain a) (hb : IsPlain b) (hs : R.Name s) : R.Good (front ++ s ++ back) := by
  have hText : front ++ s ++ back = a ++ ("'" ++ s ++ "'") ++ b := by
    rw [hFront, hBack]
    simp only [String.append_assoc]
  rw [hText]
  exact R.good_append (R.good_append (good_of_plain ha) (R.good_quoted s hs)) (good_of_plain hb)

theorem good_intercalate {separator : String} (hSep : R.Good separator) : ∀ {l : List String},
    (∀ s ∈ l, R.Good s) → R.Good (separator.intercalate l)
  | [], _ => by
    rw [String.intercalate_nil]
    exact good_of_plain (by decide)
  | [a], h => by
    rw [String.intercalate_singleton]
    exact h a List.mem_cons_self
  | a :: b :: rest, h => by
    rw [String.intercalate_cons_cons]
    exact R.good_append (R.good_append (h a List.mem_cons_self) hSep)
      (good_intercalate hSep fun s hs => h s (List.mem_cons_of_mem a hs))

end TextRule

namespace Script

variable {R : TextRule}

mutual

@[simp] def pieceMeets (R : TextRule) : Piece → Prop
  | .text s => R.Good s
  | .table name => R.Name name
  | .nested body => Meets R body
  | .placeholder _ | .aliases _ | .fail _ => True

/-- Every text of the script keeps the rule, and every table is one of its names. -/
@[simp] def Meets (R : TextRule) : List Piece → Prop
  | [] => True
  | p :: rest => pieceMeets R p ∧ Meets R rest

end

@[simp] theorem meets_append {a b : Script} : Meets R (a ++ b) ↔ Meets R a ∧ Meets R b := by
  induction a with
  | nil => simp
  | cons p rest ih => rw [List.cons_append, Meets, Meets, ih, and_assoc]

theorem meets_joined {separator : String} (hSep : R.Good separator) : ∀ {scripts : List Script},
    (∀ s ∈ scripts, Meets R s) → Meets R (joined separator scripts)
  | [], _ => trivial
  | [a], h => by
    rw [joined_singleton]
    exact h a List.mem_cons_self
  | a :: b :: rest, h => by
    rw [joined_cons_cons, meets_append]
    exact ⟨h a List.mem_cons_self, hSep,
      meets_joined hSep fun s hs => h s (List.mem_cons_of_mem a hs)⟩

theorem meets_flatMap {α : Type} {f : α → Script} {l : List α} (h : ∀ x ∈ l, Meets R (f x)) :
    Meets R (l.flatMap f) := by
  induction l with
  | nil => trivial
  | cons x rest ih =>
    obtain ⟨hx, hRest⟩ := List.forall_mem_cons.mp h
    rw [List.flatMap_cons, meets_append]
    exact ⟨hx, ih hRest⟩

theorem meets_placeholders (values : List Value) : Meets R (placeholders values) := by
  refine meets_joined (TextRule.good_of_plain (by decide)) fun s hs => ?_
  obtain ⟨v, -, rfl⟩ := List.mem_map.mp hs
  exact ⟨trivial, trivial⟩

end Script

end SqlStatement
