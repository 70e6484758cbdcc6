import SqlStatement.Select.Field
import SqlStatement.Proofs.TrimmedTexts

/-!
# The text form of a select entry

`SelectField.text` prints an entry as `function|field alias`, always with the bar.
Not every entry can be read back: a field with a space, say, loses what stands
behind it to the alias.  `SelectField.IsNormal` says of the parts what makes an
entry readable.

* `SelectField.isNormal_ofText`: whatever text is read, the parts are normal.
* `SelectField.ofText_text`: a normal entry is read back from what it prints.
* `SelectField.text_round_trip`: printing and reading give back the parts, and
  reading, printing and reading again changes nothing any more.
-/

namespace SqlStatement

namespace SelectField

/-! ### Printing -/

/-- The entry as `function|field alias`, nothing in front of the bar without a function. -/
def text (f : SelectField) : String :=
  f.function.getD "" ++ "|" ++ f.field ++ (f.output.map (" " ++ ·)).getD ""

/-- What holds of the parts an entry is read as. -/
structure IsNormal (f : SelectField) : Prop where
  function : ∀ g ∈ f.function, g ≠ "" ∧ '|' ∉ g.toList
  space : ' ' ∉ f.field.toList
  head : ∀ c ∈ f.field.toList.head?, Text.isBlank c = false
  last : f.output = none → ∀ c ∈ f.field.toList.getLast?, Text.isBlank c = false
  output : ∀ a ∈ f.output, f.field ≠ "" ∧ a ≠ "" ∧ Text.Trimmed a.toList

/-! ### Reading -/

theorem nonempty_toList {s : String} (h : s ≠ "") : nonempty s.toList = some s := by
  rw [nonempty, List.isEmpty_eq_false_iff.mpr (by simpa using h)]
  simp

theorem nonempty_function {function : Option String}
    (h : ∀ g ∈ function, g ≠ "" ∧ '|' ∉ g.toList) :
    nonempty (function.getD "").toList = function := by
  cases function with
  | none => rfl
  | some g => exact nonempty_toList (h g rfl).1

/-- The bar is the first one, so those of the field and of the alias are left alone. -/
theorem ofText_bar {function : Option String} (rest : String)
    (h : ∀ g ∈ function, g ≠ "" ∧ '|' ∉ g.toList) :
    ofText (function.getD "" ++ "|" ++ rest) = ofTrimmed function (Text.trim rest.toList) := by
  have hBar : '|' ∉ (function.getD "").toList := by
    cases function with
    | none => simp
    | some g => exact (h g rfl).2
  have hList : (function.getD "" ++ "|" ++ rest).toList
      = (function.getD "").toList ++ '|' :: rest.toList := by simp
  rw [ofText, hList, Text.cutFirst_append _ _ hBar]
  simp only [nonempty_function h]

theorem ofTrimmed_no_output {field : String} (function : Option String)
    (hSpace : ' ' ∉ field.toList) : ofTrimmed function field.toList = ⟨field, function, none⟩ := by
  rw [ofTrimmed, Text.cutFirst_eq_none_iff.mpr hSpace]
  simp

theorem ofTrimmed_output {field a : String} (function : Option String)
    (hSpace : ' ' ∉ field.toList) (hne : a ≠ "") (hTrimmed : Text.Trimmed a.toList) :
    ofTrimmed function (field.toList ++ ' ' :: a.toList) = ⟨field, function, some a⟩ := by
  rw [ofTrimmed, Text.cutFirst_append _ _ hSpace]
  simp only [Text.trim_of_trimmed hTrimmed, nonempty_toList hne, String.ofList_toList]

theorem ofText_text {f : SelectField} (h : f.IsNormal) : ofText f.text = f := by
  obtain ⟨field, function, output⟩ := f
  cases output with
  | none =>
    have hTrimmed : Text.Trimmed field.toList := ⟨h.head, h.last rfl⟩
    rw [text, String.append_assoc, ofText_bar _ h.function]
    simp only [Option.map_none, Option.getD_none, String.append_empty,
      Text.trim_of_trimmed hTrimmed]
    exact ofTrimmed_no_output function h.space
  | some a =>
    obtain ⟨hField, hne, hOutput⟩ := h.output a rfl
    have hTrimmed : Text.Trimmed (field.toList ++ ' ' :: a.toList) := by
      constructor
      · intro c hc
        refine h.head c ?_
        rwa [List.head?_append_of_ne_nil _ (by simpa using hField)] at hc
      · intro c hc
        refine hOutput.last c ?_
        rwa [List.getLast?_append_of_ne_nil _ (by simp),
          List.getLast?_cons_of_ne_nil (by simpa using hne)] at hc
    rw [text, String.append_assoc, ofText_bar _ h.function]
    have hList : (field ++ ((some a).map (" " ++ ·)).getD "").toList
        = field.toList ++ ' ' :: a.toList := by simp
    rw [hList, Text.trim_of_trimmed hTrimmed]
    exact ofTrimmed_output function h.space hne hOutput

theorem isNormal_ofTrimmed {function : Option String} {l : List Char}
    (hFunction : ∀ g ∈ function, g ≠ "" ∧ '|' ∉ g.toList) (hTrimmed : Text.Trimmed l) :
    (ofTrimmed function l).IsNormal := by
  rw [ofTrimmed]
  cases hCut : Text.cutFirst ' ' l with
  | none =>
    have hSpace := Text.cutFirst_eq_none_iff.mp hCut
    exact ⟨hFunction, by simpa using hSpace, by simpa using hTrimmed.head,
      fun _ => by simpa using hTrimmed.last, by simp⟩
  | some p =>
    obtain ⟨field, output⟩ := p
    obtain ⟨rfl, hSpace⟩ := Text.cutFirst_eq_some_iff.mp hCut
    obtain ⟨hne, hHead⟩ := hTrimmed.front (by decide)
    have hOutput := hTrimmed.trim_back_ne_nil (by decide)
    have hSome : nonempty (Text.trim output) = some (String.ofList (Text.trim output)) := by
      rw [nonempty, List.isEmpty_eq_false_iff.mpr hOutput]
      rfl
    simp only [hSome]
    exact ⟨hFunction, by simpa using hSpace, by simpa using hHead, by simp,
      by simpa [hne, hOutput] using Text.trimmed_trim output⟩

theorem isNormal_ofText (s : String) : (ofText s).IsNormal := by
  rw [ofText]
  cases hCut : Text.cutFirst '|' s.toList with
  | none => exact isNormal_ofTrimmed (by simp) (Text.trimmed_trim _)
  | some p =>
    obtain ⟨function, rest⟩ := p
    have hBar := (Text.cutFirst_eq_some_iff.mp hCut).2
    refine isNormal_ofTrimmed ?_ (Text.trimmed_trim _)
    intro g hg
    rw [nonempty] at hg
    split at hg
    · exact absurd hg (by simp)
    · next hne =>
      obtain rfl := Option.some.inj hg
      exact ⟨by simpa using hne, by simpa using hBar⟩

/-- The entries that are read back are the normal ones. -/
theorem ofText_text_iff {f : SelectField} : ofText f.text = f ↔ f.IsNormal :=
  ⟨fun h => h ▸ isNormal_ofText f.text, ofText_text⟩

/-- The bar may be left out if there is neither a function nor another bar. -/
theorem ofText_no_bar {s : String} (h : '|' ∉ s.toList) : ofText ("|" ++ s) = ofText s := by
  have hBar := ofText_bar s (by simp : ∀ g ∈ (none : Option String), g ≠ "" ∧ '|' ∉ g.toList)
  rw [Option.getD_none, String.empty_append] at hBar
  rw [hBar, ofText, Text.cutFirst_eq_none_iff.mpr h]

/-! ### There and back -/

/-- Parts without the characters that separate them are read back as they are.  The parts of any
text are such parts, but for a field that may be empty or end in a blank, and they too are read
back. -/
theorem text_round_trip :
    (∀ (function : Option String) (field : String) (output : Option String),
      (∀ g ∈ function, g ≠ "" ∧ '|' ∉ g.toList) →
      field ≠ "" → ' ' ∉ field.toList → Text.Trimmed field.toList →
      (∀ a ∈ output, a ≠ "" ∧ Text.Trimmed a.toList) →
      ofText (function.getD "" ++ "|" ++ field ++ (output.map (" " ++ ·)).getD "")
        = ⟨field, function, output⟩) ∧
    ∀ s : String,
      ' ' ∉ (ofText s).field.toList ∧
      (∀ c ∈ (ofText s).field.toList.head?, Text.isBlank c = false) ∧
      (∀ a ∈ (ofText s).output, a ≠ "" ∧ Text.Trimmed a.toList) ∧
      ofText (ofText s).text = ofText s := by
  constructor
  · intro function field output hFunction hField hSpace hTrimmed hOutput
    exact ofText_text (f := ⟨field, function, output⟩)
      ⟨hFunction, hSpace, hTrimmed.head, fun _ => hTrimmed.last, fun a ha => ⟨hField, hOutput a ha⟩⟩
  · intro s
    have hNormal := isNormal_ofText s
    exact ⟨hNormal.space, hNormal.head, fun a ha => (hNormal.output a ha).2, ofText_text hNormal⟩

/-- A bar in the field and spaces in the alias stay where they are. -/
theorem text_round_trip_alias :
    ofText "max|a|b\tc  net |  total" = ⟨"a|b\tc", some "max", some "net |  total"⟩ ∧
    ofText "max|a|b\tc net |  total" = ⟨"a|b\tc", some "max", some "net |  total"⟩ := by
  refine ⟨by decide, ?_⟩
  exact text_round_trip.1 (some "max") "a|b\tc" (some "net |  total") (by decide) (by decide)
    (by decide) (by decide) fun a ha => by
      obtain rfl := Option.some.inj ha
      exact ⟨by decide, by decide⟩

end SelectField

end SqlStatement
