import Mathlib.Data.List.Duplicate
import Mathlib.Data.List.Sort
import Mathlib.Order.Bounds.Basic
import SqlStatement.Proofs.Clauses
import SqlStatement.Proofs.KeyOrder

/-!
# Assignments by field

Assignments are sorted by field, and then a field that is repeated stands twice in
a row.  So looking at neighbours finds every repetition, the least one first, and
what is sorted no longer depends on the order in which the assignments came.

* `Assignments.Repeats`: a field is assigned more than once.
* `Assignments.sorted_eq_error_iff`, `Assignments.sorted_eq_ok_iff`: what sorting
  comes to.
* `Assignments.sorted_eq_of_perm`: the order does not matter.
* `Assignments.fields_byField_eq_iff`: when two lists have the same sorted fields.
-/

namespace SqlStatement

namespace Assignments

variable {l l' : Assignments} {field : String}

/-- Assigned more than once. -/
def Repeats (l : Assignments) (field : String) : Prop := List.Duplicate field l.fields

theorem repeats_cons {a : Assignment} : Repeats (a :: l) field ↔
    a.field = field ∧ field ∈ l.fields ∨ l.Repeats field := List.duplicate_cons_iff

theorem Repeats.mem (h : l.Repeats field) : field ∈ l.fields := List.Duplicate.mem h

theorem fields_perm (h : l.Perm l') : l.fields.Perm l'.fields := h.map Assignment.field

theorem repeats_eq_of_perm (h : l.Perm l') : l.Repeats = l'.Repeats := by
  funext field
  unfold Repeats
  rw [List.duplicate_iff_two_le_count, List.duplicate_iff_two_le_count, (fields_perm h).count_eq]

theorem nodup_iff : l.fields.Nodup ↔ ∀ field, ¬ l.Repeats field :=
  List.nodup_iff_forall_not_duplicate

/-- Assignments that ascend strictly once they are permuted have no field twice. -/
theorem fields_nodup {entries : Assignments} (h : entries.Perm l)
    (hStrict : entries.Pairwise fun a b => a.field < b.field) : l.fields.Nodup :=
  (fields_perm h).nodup_iff.mp (KeyOrder.nodup_of_pairwise_lt hStrict)

/-! ### Neighbours -/

theorem mem_fields : field ∈ l.fields ↔ ∃ a ∈ l, a.field = field := List.mem_map

theorem repeated?_eq_none_iff (h : l.Pairwise fun a b => a.field ≤ b.field) :
    repeated? l = none ↔ l.Pairwise fun a b => a.field < b.field := by
  induction l with
  | nil => exact iff_of_true rfl .nil
  | cons a rest ih =>
    obtain ⟨hHead, hTail⟩ := List.pairwise_cons.mp h
    cases rest with
    | nil => exact iff_of_true rfl (List.pairwise_singleton _ a)
    | cons b rest =>
      rw [repeated?, List.pairwise_cons]
      by_cases hEq : a.field = b.field
      · rw [if_pos hEq]
        refine iff_of_false (Option.some_ne_none _) fun hLess => ?_
        exact (hLess.1 b List.mem_cons_self).ne hEq
      · rw [if_neg hEq, ih hTail, iff_and_self]
        -- What follows is no less than the next one, which is greater.
        intro hRest c hc
        have hNext : a.field < b.field := lt_of_le_of_ne (hHead b List.mem_cons_self) hEq
        rcases List.mem_cons.mp hc with rfl | hc
        · exact hNext
        · exact hNext.trans ((List.pairwise_cons.mp hRest).1 c hc)

theorem isLeast_of_repeated? (h : l.Pairwise fun a b => a.field ≤ b.field)
    (hRepeated : repeated? l = some field) : IsLeast {f | l.Repeats f} field := by
  induction l with
  | nil => cases hRepeated
  | cons a rest ih =>
    obtain ⟨hHead, hTail⟩ := List.pairwise_cons.mp h
    cases rest with
    | nil => cases hRepeated
    | cons b rest =>
      rw [repeated?] at hRepeated
      by_cases hEq : a.field = b.field
      · rw [if_pos hEq] at hRepeated
        obtain rfl := Option.some.inj hRepeated
        refine ⟨repeats_cons.mpr (.inl ⟨rfl, ?_⟩), fun f hf => ?_⟩
        · exact mem_fields.mpr ⟨b, List.mem_cons_self, hEq.symm⟩
        · obtain ⟨c, hc, rfl⟩ := mem_fields.mp (Repeats.mem hf)
          rcases List.mem_cons.mp hc with rfl | hc
          · exact le_rfl
          · exact hHead c hc
      · rw [if_neg hEq] at hRepeated
        obtain ⟨hMem, hLeast⟩ := ih hTail hRepeated
        refine ⟨repeats_cons.mpr (.inr hMem), fun f hf => ?_⟩
        rcases repeats_cons.mp hf with ⟨rfl, hAgain⟩ | hf
        · -- The head would stand again behind the next one, which is greater.
          have hNext : a.field < b.field := lt_of_le_of_ne (hHead b List.mem_cons_self) hEq
          obtain ⟨c, hc, hSame⟩ := mem_fields.mp hAgain
          rcases List.mem_cons.mp hc with rfl | hc
          · exact absurd hSame.symm hEq
          · have hBehind : b.field ≤ c.field := (List.pairwise_cons.mp hTail).1 c hc
            exact absurd hSame (hNext.trans_le hBehind).ne'
        · exact hLeast hf

/-! ### Sorting -/

theorem byField_perm (l : Assignments) : l.byField.Perm l := List.mergeSort_perm l _

theorem pairwise_byField (l : Assignments) : l.byField.Pairwise fun a b => a.field ≤ b.field :=
  KeyOrder.pairwise_mergeSort Assignment.field l

theorem sorted_eq_error_iff {e : CompileError} : l.sorted = .error e ↔
    ∃ field, IsLeast {f | l.Repeats f} field ∧ e = .duplicateField field := by
  rw [sorted]
  cases hRepeated : repeated? l.byField with
  | some field =>
    have hLeast := isLeast_of_repeated? l.pairwise_byField hRepeated
    rw [repeats_eq_of_perm l.byField_perm] at hLeast
    constructor
    · intro h
      exact ⟨field, hLeast, (Except.error.inj h).symm⟩
    · rintro ⟨other, hOther, rfl⟩
      rw [hLeast.unique hOther]
  | none =>
    have hStrict := (repeated?_eq_none_iff l.pairwise_byField).mp hRepeated
    constructor
    · intro h
      cases h
    · rintro ⟨field, ⟨hMem, -⟩, -⟩
      exact absurd hMem (nodup_iff.mp (fields_nodup l.byField_perm hStrict) field)

theorem sorted_eq_ok_iff {entries : Assignments} : l.sorted = .ok entries ↔
    entries.Perm l ∧ entries.Pairwise fun a b => a.field < b.field := by
  rw [sorted]
  constructor
  · intro h
    cases hRepeated : repeated? l.byField with
    | some field => rw [hRepeated] at h; cases h
    | none =>
      rw [hRepeated] at h
      obtain rfl := Except.ok.inj h
      exact ⟨l.byField_perm, (repeated?_eq_none_iff l.pairwise_byField).mp hRepeated⟩
  · rintro ⟨hPerm, hStrict⟩
    have hSorted := KeyOrder.pairwise_lt_mergeSort (fields_nodup hPerm hStrict)
    rw [show repeated? l.byField = none from (repeated?_eq_none_iff l.pairwise_byField).mpr hSorted]
    have hEq := KeyOrder.eq_of_perm_of_pairwise_lt (l.byField_perm.trans hPerm.symm) hSorted hStrict
    rw [← hEq]

theorem sorted_eq_ok_of_nodup (h : l.fields.Nodup) : l.sorted = .ok l.byField :=
  sorted_eq_ok_iff.mpr ⟨l.byField_perm, KeyOrder.pairwise_lt_mergeSort h⟩

theorem exists_sorted_eq_error_iff : (∃ e, l.sorted = .error e) ↔ ∃ field, l.Repeats field := by
  constructor
  · rintro ⟨e, he⟩
    obtain ⟨field, hLeast, -⟩ := sorted_eq_error_iff.mp he
    exact ⟨field, hLeast.1⟩
  · rintro ⟨field, hRepeats⟩
    cases h : l.sorted with
    | error e => exact ⟨e, rfl⟩
    | ok entries =>
      obtain ⟨hPerm, hStrict⟩ := sorted_eq_ok_iff.mp h
      exact absurd hRepeats (nodup_iff.mp (fields_nodup hPerm hStrict) field)

/-- If a field is repeated at all, one of those that are is the least. -/
theorem exists_isLeast_of_not_nodup (h : ¬ l.fields.Nodup) :
    ∃ field, IsLeast {f | l.Repeats f} field := by
  have hRepeats : ∃ field, l.Repeats field := List.exists_duplicate_iff_not_nodup.mpr h
  obtain ⟨e, he⟩ := exists_sorted_eq_error_iff.mpr hRepeats
  obtain ⟨field, hLeast, -⟩ := sorted_eq_error_iff.mp he
  exact ⟨field, hLeast⟩

/-- The order in which assignments come does not matter. -/
theorem sorted_eq_of_perm (h : l.Perm l') : l.sorted = l'.sorted := by
  cases hSorted : l'.sorted with
  | error e =>
    obtain ⟨field, hLeast, rfl⟩ := sorted_eq_error_iff.mp hSorted
    refine sorted_eq_error_iff.mpr ⟨field, ?_, rfl⟩
    rwa [repeats_eq_of_perm h]
  | ok entries =>
    obtain ⟨hPerm, hStrict⟩ := sorted_eq_ok_iff.mp hSorted
    exact sorted_eq_ok_iff.mpr ⟨hPerm.trans h.symm, hStrict⟩

/-! ### The fields in their order -/

theorem mem_fields_byField : field ∈ l.byField.fields ↔ field ∈ l.fields :=
  (fields_perm l.byField_perm).mem_iff

theorem pairwise_fields_byField (h : l.fields.Nodup) : l.byField.fields.Pairwise (· < ·) :=
  List.pairwise_map.mpr (KeyOrder.pairwise_lt_mergeSort h)

/-- The sorted fields are the same if the fields are, as sets. -/
theorem fields_byField_eq_iff (h : l.fields.Nodup) (h' : l'.fields.Nodup) :
    l.byField.fields = l'.byField.fields ↔ ∀ field, field ∈ l.fields ↔ field ∈ l'.fields := by
  constructor
  · intro hEq field
    rw [← mem_fields_byField, hEq, mem_fields_byField]
  · intro hMem
    refine (pairwise_fields_byField h).eq_of_mem_iff (pairwise_fields_byField h') fun field => ?_
    rw [mem_fields_byField, mem_fields_byField]
    exact hMem field

end Assignments

end SqlStatement
