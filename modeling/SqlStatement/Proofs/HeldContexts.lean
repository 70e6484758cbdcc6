import SqlStatement.Proofs.LeaseIsolation
import SqlStatement.Proofs.Outcome

/-!
# Contexts held at once

A compile takes a context from the pool, one more for each nested script while
that script is written, and gives every one of them back, whether the compile
fails or not.

* `Move`, `Move.mostHeld`: contexts going out and coming back, and how many are
  out at the same time at most.
* `Move.Nested.foldl_shift`: if the last one out comes back first, the idle
  contexts afterwards are as many as before or as were out at once, whichever is
  more, within the capacity.
* `Script.moves`: the moves of a script up to its first error.
* `Pool.stepIn_tracks`: a pool makes just these moves.
-/

namespace SqlStatement

/-- A context leaves the pool or comes back to it. -/
inductive Move
  | checkout
  | release

namespace Move

/-- The number of idle contexts after a move. -/
def shift (capacity idle : Nat) : Move → Nat
  | .checkout => idle - 1
  | .release => min (idle + 1) capacity

/-- How many contexts are out at once at most, if `held` are out to begin with. -/
def mostHeld (held : Nat) : List Move → Nat
  | [] => held
  | .checkout :: rest => max held (mostHeld (held + 1) rest)
  | .release :: rest => max held (mostHeld (held - 1) rest)

/-- All that goes out comes back, the last one out first. -/
inductive Nested : List Move → Prop
  | nil : Nested []
  | cons {inner rest : List Move} : Nested inner → Nested rest →
      Nested (.checkout :: inner ++ .release :: rest)

theorem Nested.append {a b : List Move} (ha : Nested a) (hb : Nested b) : Nested (a ++ b) := by
  induction ha with
  | nil => exact hb
  | @cons inner rest hInner _ _ ih =>
    rw [List.append_assoc, List.cons_append]
    exact hInner.cons ih

theorem le_mostHeld (held : Nat) (l : List Move) : held ≤ mostHeld held l := by
  cases l with
  | nil => exact Nat.le_refl held
  | cons m rest =>
    cases m with
    | checkout => exact Nat.le_max_left _ _
    | release => exact Nat.le_max_left _ _

/-- Behind nested moves as many are out as before them. -/
theorem Nested.mostHeld_append {a : List Move} (ha : Nested a) (b : List Move) (held : Nat) :
    mostHeld held (a ++ b) = max (mostHeld held a) (mostHeld held b) := by
  induction ha generalizing b held with
  | nil =>
    have hLe := le_mostHeld held b
    rw [List.nil_append, mostHeld]
    omega
  | @cons inner rest _ _ ihInner ihRest =>
    have hLe := le_mostHeld held rest
    have hLe' := le_mostHeld held b
    simp only [List.append_assoc, List.cons_append, mostHeld, ihInner, ihRest,
      Nat.add_sub_cancel]
    omega

theorem Nested.mostHeld_eq {a : List Move} (ha : Nested a) (held : Nat) :
    mostHeld held a = held + mostHeld 0 a := by
  induction ha generalizing held with
  | nil => rfl
  | @cons inner rest hInner _ ihInner ihRest =>
    have hInner' := ihInner (held + 1)
    have hRest' := ihRest held
    have hOne := ihInner (0 + 1)
    simp only [List.cons_append, mostHeld, hInner.mostHeld_append, Nat.add_sub_cancel]
    omega

theorem foldl_shift_le {capacity : Nat} (l : List Move) {idle : Nat} (h : idle ≤ capacity) :
    l.foldl (shift capacity) idle ≤ capacity := by
  induction l generalizing idle with
  | nil => exact h
  | cons m rest ih =>
    apply ih
    cases m with
    | checkout => exact Nat.le_trans (Nat.sub_le _ _) h
    | release => exact Nat.min_le_right _ _

/-- Contexts that are idle stay so, and those made for want of idle ones are kept. -/
theorem Nested.foldl_shift {capacity : Nat} {a : List Move} (ha : Nested a) {idle : Nat}
    (h : idle ≤ capacity) :
    a.foldl (shift capacity) idle = min capacity (max idle (mostHeld 0 a)) := by
  induction ha generalizing idle with
  | nil =>
    rw [List.foldl_nil, mostHeld]
    omega
  | @cons inner rest hInner _ ihInner ihRest =>
    have hOut : idle - 1 ≤ capacity := by omega
    have hOne := hInner.mostHeld_eq (0 + 1)
    have hBack : min (min capacity (max (idle - 1) (mostHeld 0 inner)) + 1) capacity
        ≤ capacity := Nat.min_le_right _ _
    rw [List.foldl_append, List.foldl_cons, List.foldl_cons, shift, shift, ihInner hOut,
      ihRest hBack]
    simp only [List.cons_append, mostHeld, hInner.mostHeld_append, Nat.add_sub_cancel]
    omega

end Move

/-! ### The moves of a script -/

namespace Script

mutual

/-- A context for each nested script. -/
def pieceMoves : Piece → List Move
  | .nested body => .checkout :: moves body ++ [.release]
  | .text _ | .table _ | .placeholder _ | .aliases _ | .fail _ => []

/-- Nothing happens any more behind a piece that fails. -/
def moves : List Piece → List Move
  | [] => []
  | p :: rest => pieceMoves p ++ if pieceFailure? p = none then moves rest else []

end

mutual

theorem nested_pieceMoves : ∀ p : Piece, Move.Nested (pieceMoves p)
  | .nested body => .cons (nested_moves body) .nil
  | .text _ | .table _ | .placeholder _ | .aliases _ | .fail _ => .nil

theorem nested_moves : ∀ s : Script, Move.Nested (moves s)
  | [] => .nil
  | p :: rest => by
    rw [moves]
    refine (nested_pieceMoves p).append ?_
    split
    · exact nested_moves rest
    · exact .nil

end

/-- How many contexts the nested scripts take up at once at most. -/
def height (s : Script) : Nat := Move.mostHeld 0 (moves s)

/-- The moves of a compile, whose own context comes back last. -/
def traffic (s : Script) : List Move := pieceMoves (.nested s)

theorem nested_traffic (s : Script) : Move.Nested (traffic s) := nested_pieceMoves (.nested s)

theorem mostHeld_traffic (s : Script) : Move.mostHeld 0 (traffic s) = height s + 1 := by
  have hInner := (nested_moves s).mostHeld_eq (0 + 1)
  rw [traffic, pieceMoves, List.cons_append, Move.mostHeld, (nested_moves s).mostHeld_append,
    Move.mostHeld, Move.mostHeld, height]
  omega

theorem height_cons (p : Piece) (rest : Script) : height (p :: rest)
    = max (Move.mostHeld 0 (pieceMoves p)) (if pieceFailure? p = none then height rest else 0) := by
  rw [height, moves, (nested_pieceMoves p).mostHeld_append]
  split <;> rfl

theorem height_nested (body : Script) : height [.nested body] = height body + 1 := by
  rw [← mostHeld_traffic, height_cons, traffic]
  split <;> exact Nat.max_eq_left (Nat.zero_le _)

theorem height_append (a b : Script) :
    height (a ++ b) = max (height a) (if failure? a = none then height b else 0) := by
  induction a with
  | nil => exact (Nat.zero_max _).symm
  | cons p rest ih =>
    rw [List.cons_append, height_cons, height_cons, ih, failure?]
    cases pieceFailure? p with
    | some e => simp
    | none =>
      simp only [if_true, Option.none_or]
      exact (Nat.max_assoc _ _ _).symm

end Script

/-! ### Pools -/

namespace Pool

/-- A run from `p` that makes some moves and ends with an error or none. -/
structure Tracks (p : Pool) (r : Run) (moves : List Move) (failure : Option CompileError) :
    Prop where
  config : r.pool.config = p.config
  idle : r.pool.idle.length = moves.foldl (Move.shift p.config.poolCapacity.toNat) p.idle.length
  failure : r.failure = failure

theorem checkout_config (p : Pool) : p.checkout.2.config = p.config := by
  rw [checkout]
  split <;> rfl

mutual

theorem stepIn_tracks : ∀ (piece : Piece) (p : Pool) (c : Context),
    p.idle.length ≤ p.config.poolCapacity.toNat →
    Tracks p (stepIn piece p c) (Script.pieceMoves piece) (Script.pieceFailure? piece)
  | .text _, _, _, _ | .table _, _, _, _ | .placeholder _, _, _, _ => ⟨rfl, rfl, rfl⟩
  | .aliases _, _, _, _ | .fail _, _, _, _ => ⟨rfl, rfl, rfl⟩
  | .nested body, p, c, h => by
    have hConfig := checkout_config p
    have hOut : p.checkout.2.idle.length ≤ p.checkout.2.config.poolCapacity.toNat := by
      rw [hConfig, Leases.length_idle_checkout]
      omega
    have hRun := runIn_tracks body p.checkout.2 p.checkout.1 hOut
    have hIdle := hRun.idle
    rw [hConfig, Leases.length_idle_checkout] at hIdle
    have hKept := hRun.config.trans hConfig
    have hRoom : (runIn body p.checkout.2 p.checkout.1).pool.idle.length
        ≤ (runIn body p.checkout.2 p.checkout.1).pool.config.poolCapacity.toNat := by
      rw [hIdle, hKept]
      apply Move.foldl_shift_le
      omega
    have hReleased : ((runIn body p.checkout.2 p.checkout.1).pool.release
          (runIn body p.checkout.2 p.checkout.1).context).idle.length
        = (Script.pieceMoves (.nested body)).foldl (Move.shift p.config.poolCapacity.toNat)
          p.idle.length := by
      rw [Leases.length_idle_release _ hRoom, hIdle, hKept, Script.pieceMoves, List.cons_append,
        List.foldl_cons, List.foldl_append]
      rfl
    have hConfig := (release_config _ (runIn body p.checkout.2 p.checkout.1).context).trans hKept
    have hFailure := hRun.failure
    rw [stepIn, Script.pieceFailure?]
    cases hf : (runIn body p.checkout.2 p.checkout.1).failure with
    | some e => exact ⟨hConfig, hReleased, hf.symm.trans hFailure⟩
    | none => exact ⟨hConfig, hReleased, hf.symm.trans hFailure⟩

theorem runIn_tracks : ∀ (s : Script) (p : Pool) (c : Context),
    p.idle.length ≤ p.config.poolCapacity.toNat →
    Tracks p (runIn s p c) (Script.moves s) (Script.failure? s)
  | [], _, _, _ => ⟨rfl, rfl, rfl⟩
  | piece :: rest, p, c, h => by
    have hStep := stepIn_tracks piece p c h
    rw [runIn, Script.moves, Script.failure?, ← hStep.failure]
    cases hf : (stepIn piece p c).failure with
    | some e =>
      refine ⟨hStep.config, ?_, hf⟩
      simpa using hStep.idle
    | none =>
      have hRoom : (stepIn piece p c).pool.idle.length
          ≤ (stepIn piece p c).pool.config.poolCapacity.toNat := by
        rw [hStep.idle, hStep.config]
        exact Move.foldl_shift_le _ h
      have hRest := runIn_tracks rest _ (stepIn piece p c).context hRoom
      refine ⟨hRest.config.trans hStep.config, ?_, hRest.failure⟩
      rw [hRest.idle, hStep.config, hStep.idle, if_pos rfl, List.foldl_append]

end

/-- A compile does to the pool what a nested script does. -/
theorem compile_eq_stepIn (p : Pool) (s : Script) (c : Context) :
    (p.compile s).2 = (stepIn (.nested s) p c).pool ∧
      ∀ e, (p.compile s).1 = .error e ↔ (stepIn (.nested s) p c).failure = some e := by
  rw [compile, stepIn]
  cases hf : (runIn s p.checkout.2 p.checkout.1).failure with
  | some e => simp
  | none => simp

/-- The idle contexts after a compile, and its error if there is one. -/
theorem compile_follows {p : Pool} (h : p.idle.length ≤ p.config.poolCapacity.toNat)
    (s : Script) :
    (p.compile s).2.idle.length
        = (Script.traffic s).foldl (Move.shift p.config.poolCapacity.toNat) p.idle.length ∧
      ∀ e, (p.compile s).1 = .error e ↔ Script.failure? s = some e := by
  obtain ⟨hPool, hError⟩ := compile_eq_stepIn p s (.ofSchema p.config.schema)
  have hStep := stepIn_tracks (.nested s) p (.ofSchema p.config.schema) h
  constructor
  · rw [hPool, hStep.idle, Script.traffic]
  · intro e
    rw [hError, hStep.failure, Script.pieceFailure?]

end Pool

end SqlStatement
