import Mathlib.Data.String.Basic

/-!
# Sorting by a key

Joins, assignments and equalities are written in the order of a text that each of
them has.  Where no two have the same text there is one such order, whatever order
they come in.

* `pairwise_mergeSort`, `pairwise_lt_mergeSort`: what sorting gives.
* `eq_of_perm_of_pairwise_lt`: two lists that ascend strictly and have the same
  elements are the same.
* `mergeSort_eq_of_perm`: so permuting a list does not change the sorted one.
-/

namespace SqlStatement

namespace KeyOrder

variable {α : Type} {key : α → String} {l l' : List α}

theorem pairwise_mergeSort (key : α → String) (l : List α) :
    (l.mergeSort fun a b => key a ≤ key b).Pairwise fun a b => key a ≤ key b := by
  have hTrans : ∀ a b c : α, decide (key a ≤ key b) = true → decide (key b ≤ key c) = true →
      decide (key a ≤ key c) = true := by
    intro a b c hab hbc
    rw [decide_eq_true_eq] at *
    exact String.le_trans hab hbc
  have hTotal : ∀ a b : α, (decide (key a ≤ key b) || decide (key b ≤ key a)) = true := by
    intro a b
    rw [Bool.or_eq_true, decide_eq_true_eq, decide_eq_true_eq]
    exact String.le_total (key a) (key b)
  refine (List.pairwise_mergeSort hTrans hTotal l).imp fun hab => ?_
  exact of_decide_eq_true hab

/-- Without repeated keys a list that ascends does so strictly. -/
theorem pairwise_lt_of_nodup (h : l.Pairwise fun a b => key a ≤ key b)
    (hNodup : (l.map key).Nodup) : l.Pairwise fun a b => key a < key b := by
  have hNe : l.Pairwise fun a b => key a ≠ key b := List.pairwise_map.mp hNodup
  exact h.imp₂ (fun _ _ hLe hNe => lt_of_le_of_ne hLe hNe) hNe

theorem nodup_of_pairwise_lt (h : l.Pairwise fun a b => key a < key b) : (l.map key).Nodup :=
  List.pairwise_map.mpr (h.imp fun hab => hab.ne)

theorem pairwise_lt_mergeSort (hNodup : (l.map key).Nodup) :
    (l.mergeSort fun a b => key a ≤ key b).Pairwise fun a b => key a < key b := by
  refine pairwise_lt_of_nodup (pairwise_mergeSort key l) ?_
  exact ((List.mergeSort_perm l _).map key).nodup_iff.mpr hNodup

/-- There is one strictly ascending order. -/
theorem eq_of_perm_of_pairwise_lt (h : l.Perm l') (hl : l.Pairwise fun a b => key a < key b)
    (hl' : l'.Pairwise fun a b => key a < key b) : l = l' := by
  refine h.eq_of_pairwise ?_ hl hl'
  intro a b _ _ hab hba
  exact absurd hba hab.asymm

theorem mergeSort_eq_of_perm (h : l.Perm l') (hNodup : (l.map key).Nodup) :
    (l.mergeSort fun a b => key a ≤ key b) = l'.mergeSort fun a b => key a ≤ key b := by
  have hPerm : (l.mergeSort fun a b => key a ≤ key b).Perm
      (l'.mergeSort fun a b => key a ≤ key b) :=
    (List.mergeSort_perm l _).trans (h.trans (List.mergeSort_perm l' _).symm)
  have hNodup' : (l'.map key).Nodup := (h.map key).nodup_iff.mp hNodup
  exact eq_of_perm_of_pairwise_lt hPerm (pairwise_lt_mergeSort hNodup)
    (pairwise_lt_mergeSort hNodup')

end KeyOrder

end SqlStatement
