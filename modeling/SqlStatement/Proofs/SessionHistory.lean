import SqlStatement.Pool.Clean
import SqlStatement.Session

/-!
# One configuration for a whole session

The first step that installs a configuration or needs one decides which one a
session has.  Apart from that no step shows in a later answer.

* `Sound`: the pool of a session is clean and has the configuration of the
  session.  Every step keeps it.
* `config_after`: the configuration is the one that the first such step fixes.
* `HistoryIndependent`: what this says of the answers, `historyIndependent_run`
  that every session from a fresh process has it.
-/

namespace SqlStatement.Session

open Config (Environment)

/-- The configuration that an install step wants to install, or why it cannot be built. -/
def Step.offer? (environment : Environment) : Step → Option (Except ConfigError Config)
  | .install c => some (.ok c)
  | .installDocument doc => some (Config.ofDocument doc)
  | .installEnvironment => some (Config.ofEnvironment environment)
  | _ => none

/-- Whether a step needs a configuration. -/
def Step.needsConfig : Step → Bool
  | .current | .compile _ | .debug _ | .idle | .checkout _ => true
  | .install _ | .installDocument _ | .installEnvironment | .readEnvironment => false

/-- The configuration that a step fixes unless there is one. -/
def Step.fixes? (environment : Environment) (step : Step) : Option Config :=
  if step.needsConfig then some .standard else (step.offer? environment).bind Except.toOption

def Answer.isInstalled : Answer → Bool
  | .installed => true
  | _ => false

def after (s : Session) (steps : List Step) : Session :=
  steps.foldl (fun s step => (s.step step).2) s

/-- The configuration of the first install step that was answered with success. -/
def installed? (environment : Environment) (steps : List Step) (answers : List Answer) :
    Option Config :=
  (steps.zip answers).findSome? fun p =>
    if p.2.isInstalled then (p.1.offer? environment).bind Except.toOption else none

/-- The configuration that was installed, or the default one. -/
def inUse (environment : Environment) (steps : List Step) (answers : List Answer) : Config :=
  (installed? environment steps answers).getD .standard

/-- The answers of a session from a fresh process with the configuration `c` in use, whatever it
did before. -/
structure HistoryIndependent (environment : Environment) (steps : List Step)
    (answers : List Answer) (c : Config) : Prop where
  /-- An install step succeeds if its configuration can be built, no earlier one succeeded, and no
  earlier step needed a configuration. -/
  install_iff : ∀ (k : Nat) step offer, steps[k]? = some step →
    step.offer? environment = some offer → (answers[k]? = some .installed ↔
      (∃ built, offer = .ok built) ∧ ∀ i < k, answers[i]? ≠ some .installed ∧
        ∀ earlier, steps[i]? = some earlier → earlier.needsConfig = false)
  at_most_one : ∀ i j : Nat, answers[i]? = some .installed → answers[j]? = some .installed → i = j
  /-- Without an install step that fails, the other answers are the same. -/
  refused : ∀ (k : Nat) step offer, steps[k]? = some step →
    step.offer? environment = some offer → answers[k]? ≠ some .installed →
      (start environment).run (steps.eraseIdx k) = answers.eraseIdx k
  current : ∀ k : Nat, steps[k]? = some .current → answers[k]? = some (.config c)
  /-- The answer is that of the first compile of a fresh process. -/
  compile : ∀ (k : Nat) statement, steps[k]? = some (.compile statement) →
    answers[k]? = some (.result (statement.compile c.schema)) ∧
      ∀ other, answers[k]? = ((start other).run [.install c, .compile statement])[1]?
  debug : ∀ (k : Nat) statement, steps[k]? = some (.debug statement) →
    answers[k]? = some (.text (debugText (statement.compile c.schema))) ∧
      ∀ other, answers[k]? = ((start other).run [.install c, .debug statement])[1]?
  /-- The context holds nothing but the table, written under the schema of the configuration. -/
  checkout : ∀ (k : Nat) table, steps[k]? = some (.checkout table) →
    answers[k]? = some (.context ⟨c.schema, c.schema ++ "." ++ table, [], .bare⟩)

/-! ### Single steps -/

structure Sound (s : Session) : Prop where
  isClean : ∀ p, s.pool = some p → p.IsClean
  config : ∀ p, s.pool = some p → s.config = some p.config

theorem sound_start (environment : Environment) : (start environment).Sound :=
  ⟨fun _ hp => absurd hp (by simp [start]), fun _ hp => absurd hp (by simp [start])⟩

theorem Sound.contexts {s : Session} (h : s.Sound) :
    s.contexts.IsClean ∧ s.contexts.config = s.current := by
  rw [Session.contexts, current]
  cases hPool : s.pool with
  | none => exact ⟨Pool.isClean_ofConfig _, rfl⟩
  | some p =>
    rw [h.config p hPool]
    exact ⟨h.isClean p hPool, rfl⟩

theorem Sound.fixed {s : Session} (h : s.Sound) : s.fixed.Sound := by
  refine ⟨h.isClean, fun p hp => ?_⟩
  rw [Session.fixed, current, h.config p hp]
  rfl

theorem sound_withPool {s : Session} {p : Pool} (hClean : p.IsClean)
    (hConfig : p.config = s.current) : (s.withPool p).Sound := by
  constructor
  · rintro q ⟨⟩
    exact hClean
  · rintro q ⟨⟩
    rw [hConfig]
    rfl

/-- An install step succeeds if its configuration can be built and there is none yet. -/
theorem install_eq (s : Session) (offer : Except ConfigError Config) :
    s.install offer = match s.config, offer with
      | none, .ok c => (.installed, { s with config := some c })
      | some _, .ok _ => (.refused .alreadyInstalled, s)
      | _, .error e => (.refused e, s) := by
  cases offer with
  | error e => cases h : s.config <;> rfl
  | ok c => cases h : s.config <;> simp [install, h]

theorem step_of_offer? {s : Session} {step : Step} {offer : Except ConfigError Config}
    (h : step.offer? s.environment = some offer) : s.step step = s.install offer := by
  cases step with
  | install c => rw [← Option.some.inj h]; rfl
  | installDocument doc => rw [← Option.some.inj h]; rfl
  | installEnvironment => rw [← Option.some.inj h]; rfl
  | _ => cases h

/-- A step that needs a configuration finds one afterwards, and keeps the pool clean. -/
theorem Sound.step_of_needsConfig {s : Session} (h : s.Sound) {step : Step}
    (hStep : step.needsConfig = true) :
    (s.step step).2.Sound ∧ (s.step step).2.config = some s.current
      ∧ (s.step step).2.environment = s.environment := by
  obtain ⟨hClean, hConfig⟩ := h.contexts
  cases step with
  | current => exact ⟨h.fixed, rfl, rfl⟩
  | compile statement =>
    obtain ⟨-, hKept, hStill⟩ := Pool.compile_of_isClean hClean statement.script
    exact ⟨sound_withPool hStill (hKept.trans hConfig), rfl, rfl⟩
  | debug statement =>
    obtain ⟨-, hKept, hStill⟩ := Pool.compile_of_isClean hClean statement.script
    exact ⟨sound_withPool hStill (hKept.trans hConfig), rfl, rfl⟩
  | idle => exact ⟨sound_withPool hClean hConfig, rfl, rfl⟩
  | checkout table =>
    obtain ⟨hNew, hKept, hStill⟩ := Pool.checkout_of_isClean hClean
    have hSchema : (s.contexts.checkout.1.writeTable table).schema
        = s.contexts.checkout.2.config.schema := by
      rw [hNew, hKept]
      rfl
    exact ⟨sound_withPool (Pool.release_isClean hStill hSchema)
      ((Pool.release_config _ _).trans (hKept.trans hConfig)), rfl, rfl⟩
  | install c => cases hStep
  | installDocument doc => cases hStep
  | installEnvironment => cases hStep
  | readEnvironment => cases hStep

theorem Sound.install {s : Session} (h : s.Sound) (offer : Except ConfigError Config) :
    (s.install offer).2.Sound ∧ (s.install offer).2.config = s.config.or offer.toOption
      ∧ (s.install offer).2.environment = s.environment := by
  rw [install_eq]
  cases hConfig : s.config with
  | some c =>
    cases offer with
    | error e => exact ⟨h, hConfig, rfl⟩
    | ok c' => exact ⟨h, hConfig, rfl⟩
  | none =>
    cases offer with
    | error e => exact ⟨h, hConfig, rfl⟩
    | ok c =>
      have hPool : s.pool = none := by
        rw [Option.eq_none_iff_forall_ne_some]
        intro p hp
        rw [h.config p hp] at hConfig
        cases hConfig
      exact ⟨⟨fun p hp => by simp [hPool] at hp, fun p hp => by simp [hPool] at hp⟩, rfl, rfl⟩

/-- What is either an install step, or needs a configuration, or only reads the environment. -/
theorem Step.offer?_or_needsConfig (environment : Environment) (step : Step) :
    (∃ offer, step.offer? environment = some offer ∧ step.needsConfig = false) ∨
      (step.offer? environment = none ∧ step.needsConfig = true) ∨ step = .readEnvironment := by
  cases step <;> simp [offer?, needsConfig]

/-- What a step does to the configuration; of the rest it keeps the environment. -/
theorem Sound.step {s : Session} (h : s.Sound) (step : Step) :
    (s.step step).2.Sound ∧ (s.step step).2.config = s.config.or (step.fixes? s.environment)
      ∧ (s.step step).2.environment = s.environment := by
  rcases step.offer?_or_needsConfig s.environment with ⟨offer, hOffer, hNeeds⟩ | ⟨-, hNeeds⟩ | rfl
  · rw [step_of_offer? hOffer, Step.fixes?, hNeeds, hOffer]
    exact h.install offer
  · obtain ⟨hSound, hConfig, hEnvironment⟩ := h.step_of_needsConfig hNeeds
    refine ⟨hSound, ?_, hEnvironment⟩
    rw [hConfig, Step.fixes?, if_pos hNeeds, current]
    cases s.config <;> rfl
  · exact ⟨h, (Option.or_none).symm, rfl⟩

/-- What a sound session answers depends on its configuration alone. -/
theorem Sound.answers {s : Session} (h : s.Sound) :
    (∀ statement, (s.step (.compile statement)).1
      = .result (statement.compile s.current.schema)) ∧
    (∀ statement, (s.step (.debug statement)).1
      = .text (debugText (statement.compile s.current.schema))) ∧
    ∀ table, (s.step (.checkout table)).1
      = .context ((Context.ofSchema s.current.schema).writeTable table) := by
  obtain ⟨hClean, hConfig⟩ := h.contexts
  have hCompile : ∀ statement : Statement, (s.contexts.compile statement.script).1
      = statement.compile s.current.schema := by
    intro statement
    rw [← hConfig]
    exact (Pool.compile_of_isClean hClean statement.script).1
  refine ⟨fun statement => congrArg Answer.result (hCompile statement),
    fun statement => congrArg (fun r => Answer.text (debugText r)) (hCompile statement),
    fun table => ?_⟩
  rw [← hConfig, ← (Pool.checkout_of_isClean hClean).1]
  rfl

/-! ### Runs -/

theorem Sound.after {s : Session} (h : s.Sound) (steps : List Step) :
    (s.after steps).Sound ∧
      (s.after steps).config = s.config.or (steps.findSome? (Step.fixes? s.environment)) ∧
      (s.after steps).environment = s.environment := by
  induction steps generalizing s with
  | nil => exact ⟨h, (Option.or_none).symm, rfl⟩
  | cons step rest ih =>
    obtain ⟨hSound, hConfig, hEnvironment⟩ := h.step step
    obtain ⟨hAfter, hLater, hStill⟩ := ih hSound
    refine ⟨hAfter, ?_, hStill.trans hEnvironment⟩
    show ((s.step step).2.after rest).config = _
    rw [hLater, hConfig, hEnvironment, List.findSome?_cons, Option.or_assoc]
    cases step.fixes? s.environment <;> rfl

/-- The answer at a place is that of the step there, after the steps in front of it. -/
theorem getElem?_run (s : Session) (steps : List Step) (k : Nat) :
    (s.run steps)[k]? = steps[k]?.map fun step => ((s.after (steps.take k)).step step).1 := by
  induction steps generalizing s k with
  | nil => rfl
  | cons step rest ih =>
    cases k with
    | zero => rfl
    | succ k => exact ih (s.step step).2 k

/-- A step that leaves the session as it was can be left out. -/
theorem run_eraseIdx {s : Session} {steps : List Step} {k : Nat} {step : Step}
    (hStep : steps[k]? = some step)
    (hSame : ((s.after (steps.take k)).step step).2 = s.after (steps.take k)) :
    s.run (steps.eraseIdx k) = (s.run steps).eraseIdx k := by
  induction steps generalizing s k with
  | nil => rfl
  | cons first rest ih =>
    cases k with
    | zero =>
      obtain rfl := Option.some.inj hStep
      show s.run rest = (s.step first).2.run rest
      rw [show (s.step first).2 = s from hSame]
    | succ k =>
      show (s.step first).1 :: (s.step first).2.run (rest.eraseIdx k) = _
      rw [ih hStep hSame]
      rfl

/-- An install step succeeds exactly if its configuration can be built and there is none yet. -/
theorem isInstalled_step (s : Session) (step : Step) :
    (s.step step).1.isInstalled = true ↔
      s.config = none ∧ ∃ c, step.offer? s.environment = some (.ok c) := by
  rcases step.offer?_or_needsConfig s.environment with ⟨offer, hOffer, -⟩ | ⟨hOffer, hNeeds⟩ | rfl
  · rw [step_of_offer? hOffer, hOffer, install_eq]
    cases s.config <;> cases offer <;> simp [Answer.isInstalled]
  · have hAnswer : (s.step step).1.isInstalled = false := by
      cases step <;> first | rfl | cases hNeeds
    simp [hAnswer, hOffer]
  · have hAnswer : (s.step .readEnvironment).1.isInstalled = false := by
      cases hRead : Config.ofEnvironment s.environment <;> simp [step, hRead, Answer.isInstalled]
    simp [hAnswer, Step.offer?]

theorem installed?_cons (environment : Environment) (s : Session) (step : Step)
    (rest : List Step) : installed? environment (step :: rest) (s.run (step :: rest))
      = (if (s.step step).1.isInstalled then
          (step.offer? environment).bind Except.toOption else none).or
        (installed? environment rest ((s.step step).2.run rest)) := by
  rw [installed?, run, List.zip_cons_cons, List.findSome?_cons]
  split
  · next c hc => rw [hc]; rfl
  · next hNone => rw [hNone]; rfl

/-- Nothing is installed once there is a configuration. -/
theorem Sound.installed?_eq_none {s : Session} (h : s.Sound) {c : Config}
    (hConfig : s.config = some c) (environment : Environment) (steps : List Step) :
    installed? environment steps (s.run steps) = none := by
  induction steps generalizing s with
  | nil => rfl
  | cons step rest ih =>
    obtain ⟨hSound, hNext, -⟩ := h.step step
    have hAnswer : ¬ (s.step step).1.isInstalled = true := by
      rw [isInstalled_step, hConfig]
      simp
    rw [hConfig] at hNext
    rw [installed?_cons, if_neg hAnswer, Option.none_or]
    exact ih hSound hNext

/-- The configuration in use is the one that is fixed first. -/
theorem Sound.installed?_getD {s : Session} (h : s.Sound) (hConfig : s.config = none)
    (steps : List Step) : (installed? s.environment steps (s.run steps)).getD .standard
      = (steps.findSome? (Step.fixes? s.environment)).getD .standard := by
  induction steps generalizing s with
  | nil => rfl
  | cons step rest ih =>
    obtain ⟨hSound, hNext, hEnvironment⟩ := h.step step
    rw [hConfig, Option.none_or] at hNext
    rw [installed?_cons, List.findSome?_cons]
    rcases step.offer?_or_needsConfig s.environment with
      ⟨offer, hOffer, hNeeds⟩ | ⟨hOffer, hNeeds⟩ | rfl
    · have hFixes : step.fixes? s.environment = offer.toOption := by
        rw [Step.fixes?, hNeeds, hOffer]
        rfl
      cases offer with
      | ok c =>
        rw [if_pos ((isInstalled_step s step).mpr ⟨hConfig, c, hOffer⟩), hOffer, hFixes]
        rfl
      | error e =>
        have hAnswer : ¬ (s.step step).1.isInstalled = true := by
          rw [isInstalled_step, hOffer]
          simp
        rw [hFixes] at hNext
        rw [if_neg hAnswer, Option.none_or, hFixes, ← hEnvironment]
        exact ih hSound hNext
    · have hAnswer : ¬ (s.step step).1.isInstalled = true := by
        rw [isInstalled_step, hOffer]
        simp
      have hFixes : step.fixes? s.environment = some .standard := if_pos hNeeds
      rw [hFixes] at hNext
      rw [if_neg hAnswer, Option.none_or, hSound.installed?_eq_none hNext, hFixes]
      rfl
    · have hAnswer : ¬ (s.step .readEnvironment).1.isInstalled = true := by
        rw [isInstalled_step]
        simp [Step.offer?]
      rw [if_neg hAnswer, Option.none_or]
      exact ih h hConfig

/-! ### Sessions from a fresh process -/

section Fresh

variable (environment : Environment) (steps : List Step)

/-- The session in front of the step at `k`. -/
abbrev before (k : Nat) : Session := (start environment).after (steps.take k)

theorem sound_before (k : Nat) : (before environment steps k).Sound ∧
    (before environment steps k).config
      = (steps.take k).findSome? (Step.fixes? environment) ∧
    (before environment steps k).environment = environment :=
  (sound_start environment).after (steps.take k)

variable {environment steps}

theorem before_succ {k : Nat} {step : Step} (h : steps[k]? = some step) :
    before environment steps (k + 1) = ((before environment steps k).step step).2 := by
  rw [before, List.take_add_one, h, after, List.foldl_append]
  rfl

theorem answer_eq {k : Nat} {step : Step} (h : steps[k]? = some step) :
    ((start environment).run steps)[k]? = some ((before environment steps k).step step).1 := by
  rw [getElem?_run, h]
  rfl

theorem answer_isInstalled_iff {k : Nat} {step : Step} (h : steps[k]? = some step) :
    ((start environment).run steps)[k]? = some .installed ↔
      (before environment steps k).config = none ∧ ∃ c, step.offer? environment = some (.ok c) := by
  have hStep := isInstalled_step (before environment steps k) step
  rw [(sound_before environment steps k).2.2] at hStep
  rw [answer_eq h, ← hStep, Option.some.injEq]
  constructor
  · intro hAnswer
    rw [hAnswer]
    rfl
  · intro hAnswer
    cases hc : ((before environment steps k).step step).1 with
    | installed => rfl
    | _ => rw [hc] at hAnswer; cases hAnswer

theorem fixes?_eq_none_of_answer {k : Nat} {step : Step} (h : steps[k]? = some step)
    (hConfig : (before environment steps k).config = none) :
    step.fixes? environment = none ↔
      ((start environment).run steps)[k]? ≠ some .installed ∧ step.needsConfig = false := by
  rw [ne_eq, answer_isInstalled_iff h]
  rcases step.offer?_or_needsConfig environment with
    ⟨offer, hOffer, hNeeds⟩ | ⟨hOffer, hNeeds⟩ | rfl
  · cases offer <;> simp [Step.fixes?, hConfig, hOffer, hNeeds, Except.toOption]
  · simp [Step.fixes?, hNeeds]
  · simp [Step.fixes?, Step.needsConfig, Step.offer?]

/-- There is no configuration as long as no step installed one or needed one. -/
theorem config_before_eq_none_iff {k : Nat} (h : k ≤ steps.length) :
    (before environment steps k).config = none ↔ ∀ i < k,
      ((start environment).run steps)[i]? ≠ some .installed ∧
        ∀ earlier, steps[i]? = some earlier → earlier.needsConfig = false := by
  induction k with
  | zero => simp [before, after, start]
  | succ k ih =>
    have hStep : steps[k]? = some steps[k] := List.getElem?_eq_getElem h
    obtain ⟨hSound, -, hEnvironment⟩ := sound_before environment steps k
    obtain ⟨-, hConfig, -⟩ := hSound.step steps[k]
    rw [before_succ hStep, hConfig, Option.or_eq_none_iff, hEnvironment, ih (by omega)]
    constructor
    · rintro ⟨hEarlier, hFixes⟩ i hi
      rcases Nat.lt_succ_iff_lt_or_eq.mp hi with hi | rfl
      · exact hEarlier i hi
      · obtain ⟨hAnswer, hNeeds⟩ :=
          (fixes?_eq_none_of_answer hStep ((ih (by omega)).mpr hEarlier)).mp hFixes
        refine ⟨hAnswer, fun earlier hSame => ?_⟩
        obtain rfl := Option.some.inj (hStep.symm.trans hSame)
        exact hNeeds
    · intro hAll
      have hEarlier := fun i hi => hAll i (Nat.lt_succ_of_lt hi)
      obtain ⟨hAnswer, hNeeds⟩ := hAll k (Nat.lt_succ_self k)
      exact ⟨hEarlier, (fixes?_eq_none_of_answer hStep ((ih (by omega)).mpr hEarlier)).mpr
        ⟨hAnswer, hNeeds _ hStep⟩⟩

/-- A step that needs a configuration finds the one that was installed, or the default one. -/
theorem current_before {k : Nat} {step : Step} (h : steps[k]? = some step)
    (hNeeds : step.needsConfig = true) : (before environment steps k).current
      = inUse environment steps ((start environment).run steps) := by
  obtain ⟨-, hConfig, -⟩ := sound_before environment steps k
  have hFixes : step.fixes? environment = some .standard := if_pos hNeeds
  have hAll : steps.findSome? (Step.fixes? environment)
      = (before environment steps k).config.or (some .standard) := by
    obtain ⟨hk, rfl⟩ := List.getElem?_eq_some_iff.mp h
    have hSplit : steps = steps.take k ++ steps[k] :: steps.drop (k + 1) := by
      rw [← List.drop_eq_getElem_cons hk, List.take_append_drop]
    refine (congrArg (List.findSome? (Step.fixes? environment)) hSplit).trans ?_
    rw [List.findSome?_append, List.findSome?_cons, hFixes, hConfig]
  have hInUse := (sound_start environment).installed?_getD rfl steps
  rw [inUse, current]
  refine Eq.trans ?_ hInUse.symm
  show _ = (steps.findSome? (Step.fixes? environment)).getD .standard
  rw [hAll]
  cases (before environment steps k).config <;> rfl

/-- An install step that fails leaves the session as it was. -/
theorem step_of_refused {k : Nat} {step : Step} {offer : Except ConfigError Config}
    (h : steps[k]? = some step) (hOffer : step.offer? environment = some offer)
    (hRefused : ((start environment).run steps)[k]? ≠ some .installed) :
    ((before environment steps k).step step).2 = before environment steps k := by
  obtain ⟨-, -, hEnvironment⟩ := sound_before environment steps k
  rw [ne_eq, answer_isInstalled_iff h] at hRefused
  rw [step_of_offer? (hEnvironment.symm ▸ hOffer), install_eq]
  cases hConfig : (before environment steps k).config with
  | some c => cases offer <;> rfl
  | none =>
    cases offer with
    | error e => rfl
    | ok c => exact absurd ⟨hConfig, c, hOffer⟩ hRefused

theorem exists_offer_of_installed {k : Nat}
    (h : ((start environment).run steps)[k]? = some .installed) :
    ∃ step c, steps[k]? = some step ∧ step.offer? environment = some (.ok c) := by
  have hAnswer := h
  rw [getElem?_run, Option.map_eq_some_iff] at hAnswer
  obtain ⟨step, hStep, -⟩ := hAnswer
  obtain ⟨-, c, hOffer⟩ := (answer_isInstalled_iff hStep).mp h
  exact ⟨step, c, hStep, hOffer⟩

end Fresh

/-- The session of a fresh process behind its first step, an install step. -/
theorem sound_installed (environment : Environment) (c : Config) :
    ((start environment).step (.install c)).2.Sound :=
  ((sound_start environment).step (.install c)).1

/-- In a session from a fresh process at most one install step succeeds, and only in front of all
steps that need a configuration.  With this configuration, or else the default one, every statement
is compiled as in a fresh process. -/
theorem historyIndependent_run (environment : Environment) (steps : List Step) :
    HistoryIndependent environment steps ((start environment).run steps)
      (inUse environment steps ((start environment).run steps)) := by
  have hInstall : ∀ (k : Nat) step offer, steps[k]? = some step →
      step.offer? environment = some offer →
      (((start environment).run steps)[k]? = some .installed ↔
        (∃ built, offer = .ok built) ∧ ∀ i < k,
          ((start environment).run steps)[i]? ≠ some .installed ∧
            ∀ earlier, steps[i]? = some earlier → earlier.needsConfig = false) := by
    intro k step offer hStep hOffer
    obtain ⟨hk, -⟩ := List.getElem?_eq_some_iff.mp hStep
    rw [answer_isInstalled_iff hStep, config_before_eq_none_iff (Nat.le_of_lt hk), hOffer,
      and_comm]
    simp
  have hFirst : ∀ i j : Nat, ((start environment).run steps)[i]? = some .installed →
      ((start environment).run steps)[j]? = some .installed → ¬ i < j := by
    intro i j hi hj hLess
    obtain ⟨step, c, hStep, hOffer⟩ := exists_offer_of_installed hj
    obtain ⟨-, hEarlier⟩ := (hInstall j step _ hStep hOffer).mp hj
    exact (hEarlier i hLess).1 hi
  refine ⟨hInstall, ?_, ?_, ?_, ?_, ?_, ?_⟩
  · intro i j hi hj
    have hLeft := hFirst i j hi hj
    have hRight := hFirst j i hj hi
    omega
  · intro k step offer hStep hOffer hRefused
    exact run_eraseIdx hStep (step_of_refused hStep hOffer hRefused)
  · intro k hStep
    rw [answer_eq hStep, ← current_before hStep rfl]
    rfl
  · intro k statement hStep
    obtain ⟨hCompile, -, -⟩ := (sound_before environment steps k).1.answers
    rw [answer_eq hStep, hCompile, current_before hStep rfl]
    refine ⟨rfl, fun other => ?_⟩
    exact congrArg some ((sound_installed other _).answers.1 statement).symm
  · intro k statement hStep
    obtain ⟨-, hDebug, -⟩ := (sound_before environment steps k).1.answers
    rw [answer_eq hStep, hDebug, current_before hStep rfl]
    refine ⟨rfl, fun other => ?_⟩
    exact congrArg some ((sound_installed other _).answers.2.1 statement).symm
  · intro k table hStep
    obtain ⟨-, -, hCheckout⟩ := (sound_before environment steps k).1.answers
    rw [answer_eq hStep, hCheckout, current_before hStep rfl]
    simp [Context.writeTable, Context.write, Context.ofSchema]

end SqlStatement.Session
