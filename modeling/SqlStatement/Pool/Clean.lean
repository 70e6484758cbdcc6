import SqlStatement.Pool.Basic

/-!
# Contexts come back empty

A pool is clean when its idle contexts are empty ones of its own schema.  A new
pool is clean, and every operation keeps it so.

* `runIn_follows`: over a clean pool a run gives what the script gives on its
  own, step by step and with the same error.
* `compile_of_isClean`: what was compiled before, successfully or not, shows in
  no later result.
-/

namespace SqlStatement.Pool

def IsClean (p : Pool) : Prop := ∀ c ∈ p.idle, c = Context.ofSchema p.config.schema

theorem isClean_ofConfig (config : Config) : (ofConfig config).IsClean := by
  intro c hc
  cases hc

/-! ### Taking out and giving back -/

theorem checkout_of_isClean {p : Pool} (h : p.IsClean) :
    p.checkout.1 = Context.ofSchema p.config.schema ∧ p.checkout.2.config = p.config
      ∧ p.checkout.2.IsClean := by
  rw [checkout]
  split
  · exact ⟨rfl, rfl, h⟩
  · next c rest hi =>
    exact ⟨h c (by simp [hi]), rfl, fun d hd => h d (by simp [hi, show d ∈ rest from hd])⟩

@[simp] theorem release_config (p : Pool) (c : Context) : (p.release c).config = p.config := by
  rw [release]
  split <;> rfl

theorem release_isClean {p : Pool} {c : Context} (h : p.IsClean)
    (hc : c.schema = p.config.schema) : (p.release c).IsClean := by
  rw [release]
  split
  · intro d hd
    rcases List.mem_cons.mp hd with rfl | hd
    · rw [Context.reset, hc]
    · exact h d hd
  · exact h

/-! ### Runs -/

/-- What a run gives apart from the pool. -/
def Run.result (r : Run) : Except CompileError Context :=
  match r.failure with
  | some e => .error e
  | none => .ok r.context

/-- A run from `p` and `c` that gives `result` and leaves a clean pool. -/
structure Follows (p : Pool) (c : Context) (r : Run) (result : Except CompileError Context) :
    Prop where
  config : r.pool.config = p.config
  isClean : r.pool.IsClean
  schema : r.context.schema = c.schema
  result : r.result = result

mutual

theorem stepIn_follows : ∀ (piece : Piece) (p : Pool) (c : Context), p.IsClean →
    c.schema = p.config.schema → Follows p c (stepIn piece p c) (Script.stepIn piece c)
  | .text _, _, _, h, _ => ⟨rfl, h, rfl, rfl⟩
  | .table _, _, _, h, _ => ⟨rfl, h, rfl, rfl⟩
  | .placeholder _, _, _, h, _ => ⟨rfl, h, rfl, rfl⟩
  | .aliases _, _, _, h, _ => ⟨rfl, h, rfl, rfl⟩
  | .fail _, _, _, h, _ => ⟨rfl, h, rfl, rfl⟩
  | .nested body, p, c, h, hc => by
    obtain ⟨hEmpty, hConfig, hClean⟩ := checkout_of_isClean h
    have hRun := runIn_follows body p.checkout.2 p.checkout.1 hClean (by rw [hEmpty, hConfig]; rfl)
    have hSchema : (runIn body p.checkout.2 p.checkout.1).context.schema
        = (runIn body p.checkout.2 p.checkout.1).pool.config.schema := by
      rw [hRun.schema, hRun.config, hEmpty, hConfig]
      rfl
    have hReleased := release_isClean hRun.isClean hSchema
    have hKept := (release_config _ (runIn body p.checkout.2 p.checkout.1).context).trans
      (hRun.config.trans hConfig)
    have hResult : Script.runIn body (Context.ofSchema c.schema)
        = (runIn body p.checkout.2 p.checkout.1).result := by
      rw [hRun.result, hEmpty, hc]
    rw [stepIn, Script.stepIn, hResult]
    simp only [Run.result]
    cases (runIn body p.checkout.2 p.checkout.1).failure with
    | some e => exact ⟨hKept, hReleased, rfl, rfl⟩
    | none => exact ⟨hKept, hReleased, rfl, rfl⟩

theorem runIn_follows : ∀ (s : Script) (p : Pool) (c : Context), p.IsClean →
    c.schema = p.config.schema → Follows p c (runIn s p c) (Script.runIn s c)
  | [], _, _, h, _ => ⟨rfl, h, rfl, rfl⟩
  | piece :: rest, p, c, h, hc => by
    have hStep := stepIn_follows piece p c h hc
    rw [runIn, Script.runIn, ← hStep.result]
    cases hf : (stepIn piece p c).failure with
    | some e =>
      simp only [Run.result, hf]
      exact ⟨hStep.config, hStep.isClean, hStep.schema, by simp [Run.result, hf]⟩
    | none =>
      have hRest := runIn_follows rest _ _ hStep.isClean
        (by rw [hStep.schema, hStep.config]; exact hc)
      simp only [Run.result, hf]
      exact ⟨hRest.config.trans hStep.config, hRest.isClean, hRest.schema.trans hStep.schema,
        hRest.result⟩

end

theorem compile_of_isClean {p : Pool} (h : p.IsClean) (s : Script) :
    (p.compile s).1 = Script.compile p.config.schema s ∧ (p.compile s).2.config = p.config
      ∧ (p.compile s).2.IsClean := by
  obtain ⟨hEmpty, hConfig, hClean⟩ := checkout_of_isClean h
  have hRun := runIn_follows s p.checkout.2 p.checkout.1 hClean (by rw [hEmpty, hConfig]; rfl)
  refine ⟨?_, by simp [compile, hRun.config, hConfig],
    release_isClean hRun.isClean (by rw [hRun.schema, hRun.config, hEmpty, hConfig]; rfl)⟩
  rw [Script.compile, ← hEmpty, ← hRun.result, compile, Run.result]
  cases (runIn s p.checkout.2 p.checkout.1).failure with
  | some e => rfl
  | none => rfl

end SqlStatement.Pool
