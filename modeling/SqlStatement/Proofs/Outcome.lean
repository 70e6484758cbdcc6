import SqlStatement.Script

/-!
# What a script comes to

A run is decided before it starts: it fails with the first error that stands in
the script, and without one it appends a text and some values that depend on the
schema alone.

* `Script.failure?`, `Script.written`, `Script.bound`: the error, the text and
  the values, read off the pieces.
* `Script.compile_eq`: compiling gives just these, the line breaks at the end of
  the text dropped.
-/

namespace SqlStatement

namespace Script

mutual

@[simp] def pieceFailure? : Piece → Option CompileError
  | .fail e => some e
  | .nested body => failure? body
  | .text _ | .table _ | .placeholder _ | .aliases _ => none

/-- The error that stands first. -/
@[simp] def failure? : List Piece → Option CompileError
  | [] => none
  | p :: rest => (pieceFailure? p).or (failure? rest)

end

mutual

@[simp] def pieceWritten (schema : String) : Piece → List Char
  | .text s => s.toList
  | .table name => (schema ++ "." ++ name).toList
  | .placeholder _ => ['?']
  | .nested body => Text.dropEndWhile (· == '\n') (written schema body)
  | .aliases _ | .fail _ => []

/-- The text of the pieces, nested ones without the line breaks at their end. -/
@[simp] def written (schema : String) : List Piece → List Char
  | [] => []
  | p :: rest => pieceWritten schema p ++ written schema rest

end

mutual

@[simp] def pieceBound : Piece → List Value
  | .placeholder v => [v]
  | .nested body => bound body
  | .text _ | .table _ | .aliases _ | .fail _ => []

/-- The values of the placeholders, in order. -/
@[simp] def bound : List Piece → List Value
  | [] => []
  | p :: rest => pieceBound p ++ bound rest

end

/-! ### Scripts one after the other -/

@[simp] theorem failure?_append (a b : Script) :
    failure? (a ++ b) = (failure? a).or (failure? b) := by
  induction a with
  | nil => rfl
  | cons p rest ih =>
    rw [List.cons_append, failure?, failure?, ih, Option.or_assoc]

@[simp] theorem written_append (schema : String) (a b : Script) :
    written schema (a ++ b) = written schema a ++ written schema b := by
  induction a with
  | nil => rfl
  | cons p rest ih => rw [List.cons_append, written, written, ih, List.append_assoc]

@[simp] theorem bound_append (a b : Script) : bound (a ++ b) = bound a ++ bound b := by
  induction a with
  | nil => rfl
  | cons p rest ih => rw [List.cons_append, bound, bound, ih, List.append_assoc]

/-! ### Lists of scripts -/

theorem joined_cons_cons (separator : String) (a b : Script) (rest : List Script) :
    joined separator (a :: b :: rest) = a ++ .text separator :: joined separator (b :: rest) := by
  simp [joined, List.intercalate, List.intersperse]

@[simp] theorem joined_nil (separator : String) : joined separator [] = [] := rfl

@[simp] theorem joined_singleton (separator : String) (a : Script) : joined separator [a] = a := by
  simp [joined, List.intercalate]

/-- The first hit of a list is that of its head, or else that of its tail. -/
theorem findSome?_cons_or {α β : Type} (f : α → Option β) (x : α) (l : List α) :
    (x :: l).findSome? f = (f x).or (l.findSome? f) := by
  rw [List.findSome?_cons]
  cases f x <;> rfl

@[simp] theorem findSome?_none {α β : Type} (l : List α) :
    (l.findSome? fun _ => (none : Option β)) = none := by
  rw [List.findSome?_eq_none_iff]
  exact fun _ _ => rfl

theorem failure?_joined (separator : String) : ∀ scripts : List Script,
    failure? (joined separator scripts) = scripts.findSome? failure?
  | [] => rfl
  | [a] => by rw [joined_singleton, findSome?_cons_or, List.findSome?_nil, Option.or_none]
  | a :: b :: rest => by
    rw [joined_cons_cons, failure?_append, failure?, failure?_joined separator (b :: rest),
      pieceFailure?, Option.none_or, findSome?_cons_or failure? a]

theorem bound_joined (separator : String) : ∀ scripts : List Script,
    bound (joined separator scripts) = scripts.flatMap bound
  | [] => rfl
  | [a] => by simp
  | a :: b :: rest => by
    rw [joined_cons_cons, bound_append, bound, bound_joined separator (b :: rest),
      pieceBound, List.nil_append]
    rfl

theorem written_joined (schema separator : String) : ∀ scripts : List Script,
    written schema (joined separator scripts)
      = separator.toList.intercalate (scripts.map (written schema))
  | [] => rfl
  | [a] => by simp [List.intercalate]
  | a :: b :: rest => by
    have hRest := written_joined schema separator (b :: rest)
    rw [List.map_cons] at hRest
    rw [joined_cons_cons, written_append, written, pieceWritten, hRest]
    simp [List.intercalate]

theorem failure?_flatMap {α : Type} (f : α → Script) (l : List α) :
    failure? (l.flatMap f) = l.findSome? fun x => failure? (f x) := by
  induction l with
  | nil => rfl
  | cons x rest ih => rw [List.flatMap_cons, failure?_append, ih, findSome?_cons_or]

theorem bound_flatMap {α : Type} (f : α → Script) (l : List α) :
    bound (l.flatMap f) = l.flatMap fun x => bound (f x) := by
  induction l with
  | nil => rfl
  | cons x rest ih => rw [List.flatMap_cons, bound_append, ih, List.flatMap_cons]

theorem written_flatMap {α : Type} (schema : String) (f : α → Script) (l : List α) :
    written schema (l.flatMap f) = l.flatMap fun x => written schema (f x) := by
  induction l with
  | nil => rfl
  | cons x rest ih => rw [List.flatMap_cons, written_append, ih, List.flatMap_cons]

theorem bound_placeholders (values : List Value) : bound (placeholders values) = values := by
  rw [placeholders, bound_joined, List.flatMap_map]
  simp [pieceBound]

theorem failure?_placeholders (values : List Value) : failure? (placeholders values) = none := by
  rw [placeholders, failure?_joined, List.findSome?_map]
  simp [List.findSome?_eq_none_iff, pieceFailure?]

/-! ### A run does what the script says -/

mutual

theorem stepIn_of_failure?_eq_some : ∀ (p : Piece) (c : Context) (e : CompileError),
    pieceFailure? p = some e → stepIn p c = .error e
  | .fail e, c, e', h => by
    rw [pieceFailure?, Option.some.injEq] at h
    rw [stepIn, h]
  | .nested body, c, e, h => by
    rw [pieceFailure?] at h
    rw [stepIn, runIn_of_failure?_eq_some body _ e h]
  | .text _, _, _, h | .table _, _, _, h | .placeholder _, _, _, h | .aliases _, _, _, h => by
    simp [pieceFailure?] at h

/-- A piece without an error appends its text and its values. -/
theorem stepIn_of_failure?_eq_none : ∀ (p : Piece) (c : Context), pieceFailure? p = none →
    ∃ naming, stepIn p c = .ok
      ⟨c.schema, c.sql ++ String.ofList (pieceWritten c.schema p), c.params ++ pieceBound p, naming⟩
  | .text s, c, _ => ⟨c.naming, by simp [stepIn, pieceWritten, pieceBound, Context.write]⟩
  | .table name, c, _ =>
    ⟨c.naming, by simp [stepIn, pieceWritten, pieceBound, Context.writeTable, Context.write,
      String.append_assoc]⟩
  | .placeholder v, c, _ => ⟨c.naming, by simp [stepIn, pieceWritten, pieceBound, Context.bind]⟩
  | .aliases naming, c, _ =>
    ⟨naming, by simp [stepIn, pieceWritten, pieceBound, Context.rename]⟩
  | .fail e, c, h => by simp [pieceFailure?] at h
  | .nested body, c, h => by
    rw [pieceFailure?] at h
    obtain ⟨inner, hRun⟩ := runIn_of_failure?_eq_none body (Context.ofSchema c.schema) h
    refine ⟨c.naming, ?_⟩
    rw [stepIn, hRun]
    simp [pieceWritten, pieceBound, Context.ofSchema, Context.splice, Context.finish]

theorem runIn_of_failure?_eq_some : ∀ (s : Script) (c : Context) (e : CompileError),
    failure? s = some e → runIn s c = .error e
  | [], c, e, h => by simp at h
  | p :: rest, c, e, h => by
    rw [failure?] at h
    cases hp : pieceFailure? p with
    | some e' =>
      rw [hp, Option.some_or, Option.some.injEq] at h
      rw [runIn, stepIn_of_failure?_eq_some p c e' hp, h]
    | none =>
      rw [hp, Option.none_or] at h
      obtain ⟨naming, hStep⟩ := stepIn_of_failure?_eq_none p c hp
      rw [runIn, hStep]
      exact runIn_of_failure?_eq_some rest _ e h

theorem runIn_of_failure?_eq_none : ∀ (s : Script) (c : Context), failure? s = none →
    ∃ naming, runIn s c = .ok
      ⟨c.schema, c.sql ++ String.ofList (written c.schema s), c.params ++ bound s, naming⟩
  | [], c, _ => ⟨c.naming, by simp [runIn]⟩
  | p :: rest, c, h => by
    rw [failure?, Option.or_eq_none_iff] at h
    obtain ⟨naming, hStep⟩ := stepIn_of_failure?_eq_none p c h.1
    obtain ⟨naming', hRest⟩ := runIn_of_failure?_eq_none rest
      ⟨c.schema, c.sql ++ String.ofList (pieceWritten c.schema p), c.params ++ pieceBound p, naming⟩
      h.2
    refine ⟨naming', ?_⟩
    rw [runIn, hStep]
    simp [hRest, String.append_assoc]

end

theorem failure?_eq_none_iff {s : Script} {c : Context} :
    failure? s = none ↔ ∃ after, runIn s c = .ok after := by
  constructor
  · intro h
    obtain ⟨naming, hRun⟩ := runIn_of_failure?_eq_none s c h
    exact ⟨_, hRun⟩
  · rintro ⟨after, hRun⟩
    refine Option.eq_none_iff_forall_ne_some.mpr fun e he => ?_
    rw [runIn_of_failure?_eq_some s c e he] at hRun
    cases hRun

/-- What a script without errors compiles to. -/
def compiled (schema : String) (s : Script) : Compiled :=
  ⟨String.ofList (Text.dropEndWhile (· == '\n') (written schema s)), bound s⟩

theorem compile_eq (schema : String) (s : Script) :
    compile schema s = match failure? s with
      | some e => .error e
      | none => .ok (compiled schema s) := by
  rw [compile]
  cases h : failure? s with
  | some e => rw [runIn_of_failure?_eq_some s _ e h]; rfl
  | none =>
    obtain ⟨naming, hRun⟩ := runIn_of_failure?_eq_none s (Context.ofSchema schema) h
    rw [hRun]
    simp [Except.map, Context.finish, Context.ofSchema, compiled]

theorem compile_eq_error_iff {schema : String} {s : Script} {e : CompileError} :
    compile schema s = .error e ↔ failure? s = some e := by
  rw [compile_eq]
  cases failure? s <;> simp

theorem compile_eq_ok_iff {schema : String} {s : Script} {c : Compiled} :
    compile schema s = .ok c ↔ failure? s = none ∧ compiled schema s = c := by
  rw [compile_eq]
  cases failure? s <;> simp

/-- Of a script in another form. -/
theorem compile_of_eq (schema : String) {s form : Script} (h : s = form)
    (hNone : failure? form = none) : compile schema s = .ok (compiled schema form) := by
  rw [h]
  exact compile_eq_ok_iff.mpr ⟨hNone, rfl⟩

end Script

end SqlStatement
