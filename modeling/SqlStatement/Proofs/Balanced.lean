import SqlStatement.Proofs.Outcome
import SqlStatement.Proofs.Quoting
import SqlStatement.Proofs.TextRule

/-!
# Balanced scripts

A script is balanced when its text is closed and has one question mark outside
the literals for each value it binds.

* `Leads`: what a piece of text does to a scan; `IsClosed` is the case of a piece
  that starts and ends outside the literals.
* `TextRule.plain`: identifiers are plain, and all texts closed.
* `Script.Balanced`: so it is with every script that keeps this rule
  (`balanced_of_meets`).
-/

namespace SqlStatement

open Script Text

/-! ### Pieces of text -/

/-- A scan of `s` goes from `q` to `r` and meets no question mark outside the literals. -/
def Leads (q : Quoting) (s : String) (r : Quoting) : Prop :=
  scan q s.toList = r ∧ placeholders q s.toList = 0

theorem Leads.append {q r t : Quoting} {a b : String} (ha : Leads q a r) (hb : Leads r b t) :
    Leads q (a ++ b) t := by
  constructor
  · rw [String.toList_append, scan_append, ha.1, hb.1]
  · rw [String.toList_append, placeholders_append, ha.2, ha.1, hb.2]

theorem Text.IsPlain.leads {s : String} (h : IsPlain s) {q : Quoting} (hq : q ≠ .escaped) :
    Leads q s q := scan_of_isPlainChar hq h

/-- Nothing of `s` is a placeholder, and what follows it is outside the literals. -/
abbrev IsClosed (s : String) : Prop := Leads .outside s .outside

theorem IsClosed.closed {s : String} (h : IsClosed s) : Closed s.toList 0 := ⟨h.1, h.2⟩

theorem isClosed_quoted {s : String} (h : IsPlain s) : IsClosed ("'" ++ s ++ "'") := by
  have hOpen : Leads .outside "'" .inside := ⟨rfl, rfl⟩
  have hClose : Leads .inside "'" .outside := ⟨rfl, rfl⟩
  exact (hOpen.append (h.leads (by decide))).append hClose

/-- Plain identifiers in closed texts. -/
def TextRule.plain : TextRule where
  allowed := isPlainChar
  Good := IsClosed
  allowed_of_plain _ h := h
  good_of_allowed _ h := Text.IsPlain.leads h (by decide)
  good_append := Leads.append
  good_quoted _ h := isClosed_quoted h

/-! ### Balanced scripts -/

namespace Script

variable {schema : String}

/-- Under a plain schema the text of `s` is closed and has a placeholder for each value. -/
def Balanced (schema : String) (s : Script) : Prop :=
  IsPlain schema → Closed (written schema s) (bound s).length

mutual

theorem closed_of_pieceMeets (hSchema : IsPlain schema) : ∀ p : Piece, pieceMeets .plain p →
    Closed (pieceWritten schema p) (pieceBound p).length
  | .text _, h => IsClosed.closed h
  | .table _, h => IsClosed.closed
    (((hSchema.append (show IsPlain "." by decide)).append h).leads (by decide))
  | .placeholder _, _ => closed_placeholder
  | .aliases _, _ => closed_nil
  | .fail _, _ => closed_nil
  -- the line breaks that a nested statement loses change nothing
  | .nested body, h => (closed_of_meets hSchema body h).dropEndWhile

theorem closed_of_meets (hSchema : IsPlain schema) : ∀ s : Script, Meets .plain s →
    Closed (written schema s) (bound s).length
  | [], _ => closed_nil
  | p :: rest, ⟨hPiece, hRest⟩ => by
    rw [written, bound, List.length_append]
    exact (closed_of_pieceMeets hSchema p hPiece).append (closed_of_meets hSchema rest hRest)

end

theorem balanced_of_meets {s : Script} (h : Meets .plain s) : Balanced schema s :=
  fun hSchema => closed_of_meets hSchema s h

end Script

end SqlStatement
