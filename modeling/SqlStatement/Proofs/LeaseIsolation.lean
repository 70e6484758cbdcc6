import SqlStatement.Pool.Clean
import SqlStatement.Pool.Lease

/-!
# Leases do not see one another

Contexts move between the handles and the idle stack of a pool, and a handle
shows none of what happened to its context before or beside it.

* `Sound`: the pool is clean and within its capacity, and the contexts that are
  out are of its schema.  Every step keeps it.
* `context?_after`: what a handle shows depends on the steps on this handle alone.
* `isolated_of_run`: a handle shows a new context changed by its own steps.
-/

namespace SqlStatement.Leases

def after (l : Leases) (steps : List Step) : Leases := steps.foldl step l

/-- The handle that a step is on. -/
def Step.handle? : Step → Option Nat
  | .checkout => none
  | .writeField handle _ | .writeTable handle _ | .bind handle _ => some handle
  | .reset handle | .read handle | .drop handle => some handle

def Step.isCheckout : Step → Bool
  | .checkout => true
  | _ => false

def Step.isDrop : Step → Bool
  | .drop _ => true
  | _ => false

/-- What a step does to the context it is on, a drop apart. -/
def Step.change : Step → Context → Context
  | .writeField _ field, c => c.writeField field
  | .writeTable _ table, c => c.writeTable table
  | .bind _ v, c => c.bind v
  | .reset _, c => c.reset
  | .checkout, c | .read _, c | .drop _, c => c

/-- The steps on one handle, in their order. -/
def own (handle : Nat) (steps : List Step) : List Step :=
  steps.filter (·.handle? == some handle)

/-- A new context of `schema`, changed by some steps. -/
def alone (schema : String) (steps : List Step) : Context :=
  steps.foldl (fun c s => s.change c) (.ofSchema schema)

/-! ### What every step keeps -/

structure Sound (config : Config) (l : Leases) : Prop where
  config_eq : l.pool.config = config
  isClean : l.pool.IsClean
  bounded : l.pool.idle.length ≤ config.poolCapacity.toNat
  schema : ∀ c, some c ∈ l.held → c.schema = config.schema

theorem sound_ofConfig (config : Config) : Sound config (ofConfig config) :=
  ⟨rfl, Pool.isClean_ofConfig config, Nat.zero_le _, fun _ hc => absurd hc List.not_mem_nil⟩

theorem length_idle_checkout (p : Pool) : p.checkout.2.idle.length = p.idle.length - 1 := by
  rw [Pool.checkout]
  cases hIdle : p.idle with
  | nil => simp [hIdle]
  | cons c rest => rfl

theorem length_idle_release {p : Pool} (c : Context)
    (h : p.idle.length ≤ p.config.poolCapacity.toNat) :
    (p.release c).idle.length = min (p.idle.length + 1) p.config.poolCapacity.toNat := by
  rw [Pool.release]
  split
  · simp only [List.length_cons]
    omega
  · omega

theorem mem_of_context? {l : Leases} {handle : Nat} {c : Context}
    (h : l.context? handle = some c) : some c ∈ l.held :=
  List.mem_of_getElem? (Option.join_eq_some_iff.mp h)

/-- Changing the context of a handle keeps the schemas, if the change does. -/
theorem Sound.change {config : Config} {l : Leases} (h : Sound config l) (handle : Nat)
    {f : Context → Context} (hf : ∀ c, (f c).schema = c.schema) :
    Sound config (l.change handle f) := by
  refine ⟨h.config_eq, h.isClean, h.bounded, fun c hc => ?_⟩
  obtain ⟨i, hi⟩ := List.mem_iff_getElem?.mp hc
  rw [Leases.change, List.getElem?_modify] at hi
  obtain ⟨d, hd, hSome⟩ := Option.map_eq_some_iff.mp hi
  by_cases hHandle : handle = i
  · rw [if_pos hHandle] at hSome
    obtain ⟨e, rfl, rfl⟩ := Option.map_eq_some_iff.mp hSome
    rw [hf, h.schema e (List.mem_of_getElem? hd)]
  · rw [if_neg hHandle] at hSome
    exact h.schema c (List.mem_of_getElem? (hSome ▸ hd))

theorem Sound.step {config : Config} {l : Leases} (h : Sound config l) (s : Step) :
    Sound config (l.step s) := by
  cases s with
  | checkout =>
    obtain ⟨hNew, hConfig, hClean⟩ := Pool.checkout_of_isClean h.isClean
    refine ⟨hConfig.trans h.config_eq, hClean, ?_, fun c hc => ?_⟩
    · show l.pool.checkout.2.idle.length ≤ _
      rw [length_idle_checkout]
      exact Nat.le_trans (Nat.sub_le _ _) h.bounded
    · rcases List.mem_append.mp hc with hc | hc
      · exact h.schema c hc
      · obtain rfl := Option.some.inj (List.mem_singleton.mp hc)
        rw [hNew, h.config_eq]
        rfl
  | writeField handle field => exact h.change handle fun _ => rfl
  | writeTable handle table => exact h.change handle fun _ => rfl
  | bind handle v => exact h.change handle fun _ => rfl
  | reset handle => exact h.change handle fun _ => rfl
  | read handle => exact h
  | drop handle =>
    rw [Leases.step]
    split
    · next c hc =>
      have hSchema := h.schema c (mem_of_context? hc)
      refine ⟨(Pool.release_config _ c).trans h.config_eq,
        Pool.release_isClean h.isClean (by rw [hSchema, h.config_eq]), ?_, fun d hd => ?_⟩
      · show (l.pool.release c).idle.length ≤ _
        rw [length_idle_release c (by rw [h.config_eq]; exact h.bounded), h.config_eq]
        exact Nat.min_le_right _ _
      · rcases List.mem_or_eq_of_mem_set hd with hd | hd
        · exact h.schema d hd
        · cases hd
    · exact h

theorem Sound.after {config : Config} {l : Leases} (h : Sound config l) (steps : List Step) :
    Sound config (l.after steps) := by
  induction steps generalizing l with
  | nil => exact h
  | cons s rest ih => exact ih (h.step s)

/-! ### What a handle shows -/

theorem length_held_step (l : Leases) (s : Step) :
    (l.step s).held.length = l.held.length + if s.isCheckout then 1 else 0 := by
  cases s with
  | drop handle =>
    rw [step]
    split
    · exact List.length_set
    · rfl
  | checkout => exact List.length_append
  | _ => simp [step, change, Step.isCheckout]

/-- Handles count the checkouts. -/
theorem length_held_after (l : Leases) (steps : List Step) :
    (l.after steps).held.length = l.held.length + steps.countP Step.isCheckout := by
  induction steps generalizing l with
  | nil => rfl
  | cons s rest ih =>
    show ((l.step s).after rest).held.length = _
    rw [ih, length_held_step, List.countP_cons]
    omega

theorem context?_change (l : Leases) (handle other : Nat) (f : Context → Context) :
    (l.change handle f).context? other
      = if handle = other then (l.context? other).map f else l.context? other := by
  rw [context?, change, List.getElem?_modify, context?]
  cases l.held[other]? with
  | none => split <;> rfl
  | some c => split <;> rfl

/-- What a step does to the context of its handle, which may have none. -/
def Step.onLease (s : Step) (c : Option Context) : Option Context :=
  if s.isDrop then none else c.map s.change

/-- Only a step on a handle changes what the handle shows. -/
theorem context?_step {l : Leases} {handle : Nat} (h : handle < l.held.length) (s : Step) :
    (l.step s).context? handle
      = if s.handle? = some handle then s.onLease (l.context? handle) else l.context? handle := by
  cases s with
  | checkout =>
    rw [if_neg (by simp [Step.handle?]), step, context?, context?, List.getElem?_append_left h]
  | drop other =>
    simp only [Step.handle?, Option.some.injEq]
    by_cases hHandle : other = handle
    · subst hHandle
      have hDrop : (Step.drop other).onLease (l.context? other) = none := rfl
      rw [if_pos rfl, hDrop, step]
      split
      · simp [context?, h]
      · next hNone => exact hNone
    · rw [if_neg hHandle, step]
      split
      · simp [context?, hHandle]
      · rfl
  | read other =>
    have hSame : (Step.read other).onLease (l.context? handle) = l.context? handle :=
      Option.map_id'
    rw [hSame, ite_self]
    rfl
  | writeField other field =>
    simp only [Step.handle?, Option.some.injEq]
    exact context?_change l other handle _
  | writeTable other table =>
    simp only [Step.handle?, Option.some.injEq]
    exact context?_change l other handle _
  | bind other v =>
    simp only [Step.handle?, Option.some.injEq]
    exact context?_change l other handle _
  | reset other =>
    simp only [Step.handle?, Option.some.injEq]
    exact context?_change l other handle _

theorem context?_after {l : Leases} {handle : Nat} (h : handle < l.held.length)
    (steps : List Step) : (l.after steps).context? handle
      = (own handle steps).foldl (fun c s => s.onLease c) (l.context? handle) := by
  induction steps generalizing l with
  | nil => rfl
  | cons s rest ih =>
    have hNext : handle < (l.step s).held.length := by
      rw [length_held_step]
      exact Nat.lt_add_right _ h
    show ((l.step s).after rest).context? handle = _
    rw [ih hNext, context?_step h, own, own, List.filter_cons]
    by_cases hOwn : s.handle? = some handle
    · rw [if_pos hOwn, if_pos (beq_iff_eq.mpr hOwn), List.foldl_cons]
    · rw [if_neg hOwn, if_neg (mt beq_iff_eq.mp hOwn)]

theorem foldl_onLease_none (steps : List Step) :
    steps.foldl (fun c s => s.onLease c) none = none := by
  induction steps with
  | nil => rfl
  | cons s rest ih => rw [List.foldl_cons, Step.onLease, Option.map_none, ite_self, ih]

/-- A handle shows its context as long as no step drops it. -/
theorem foldl_onLease_some (steps : List Step) (c : Context) :
    steps.foldl (fun c s => s.onLease c) (some c)
      = if steps.any Step.isDrop then none
        else some (steps.foldl (fun c s => s.change c) c) := by
  induction steps generalizing c with
  | nil => rfl
  | cons s rest ih =>
    rw [List.foldl_cons, List.any_cons, List.foldl_cons, Step.onLease]
    cases s.isDrop with
    | true => rw [if_pos rfl, foldl_onLease_none]; rfl
    | false => exact ih (s.change c)

theorem any_isDrop_own_iff {handle : Nat} {steps : List Step} :
    (own handle steps).any Step.isDrop = true ↔ .drop handle ∈ steps := by
  rw [List.any_eq_true]
  constructor
  · rintro ⟨s, hOwn, hDrop⟩
    obtain ⟨hMem, hHandle⟩ := List.mem_filter.mp hOwn
    cases s with
    | drop other =>
      obtain rfl : other = handle := by simpa [Step.handle?] using hHandle
      exact hMem
    | _ => cases hDrop
  · intro hMem
    exact ⟨.drop handle, List.mem_filter.mpr ⟨hMem, by simp [Step.handle?]⟩, rfl⟩

/-- What a handle shows that came out of a sound pool just now. -/
theorem context?_checkout {config : Config} {l : Leases} (h : Sound config l) :
    (l.step .checkout).context? l.held.length = some (.ofSchema config.schema) := by
  obtain ⟨hNew, -, -⟩ := Pool.checkout_of_isClean h.isClean
  rw [step, hNew, h.config_eq]
  simp [context?]

/-- The checkout that gave a handle out. -/
theorem exists_checkout {handle : Nat} : ∀ {steps : List Step},
    handle < steps.countP Step.isCheckout → ∃ earlier later,
      steps = earlier ++ .checkout :: later ∧ earlier.countP Step.isCheckout = handle := by
  intro steps
  induction steps generalizing handle with
  | nil => intro h; simp at h
  | cons s rest ih =>
    intro h
    cases hs : s.isCheckout with
    | false =>
      rw [List.countP_cons_of_neg (by simp [hs])] at h
      obtain ⟨earlier, later, rfl, hCount⟩ := ih h
      exact ⟨s :: earlier, later, rfl, by rw [List.countP_cons_of_neg (by simp [hs]), hCount]⟩
    | true =>
      obtain rfl : s = .checkout := by cases s <;> first | rfl | cases hs
      cases handle with
      | zero => exact ⟨[], rest, rfl, rfl⟩
      | succ handle =>
        rw [List.countP_cons_of_pos hs] at h
        obtain ⟨earlier, later, rfl, hCount⟩ := ih (Nat.lt_of_succ_lt_succ h)
        exact ⟨.checkout :: earlier, later, rfl, by rw [List.countP_cons_of_pos rfl, hCount]⟩

/-! ### Runs from a new pool -/

theorem sound_run (config : Config) (steps : List Step) :
    Sound config ((ofConfig config).after steps) :=
  (sound_ofConfig config).after steps

theorem length_held_run (config : Config) (steps : List Step) :
    ((ofConfig config).after steps).held.length = steps.countP Step.isCheckout := by
  rw [length_held_after]
  exact Nat.zero_add _

theorem after_append (l : Leases) (a b : List Step) : l.after (a ++ b) = (l.after a).after b :=
  List.foldl_append

/-- What a handle shows, by the steps behind its checkout. -/
theorem context?_run_eq_some_iff {config : Config} {earlier later : List Step} {c : Context} :
    ((ofConfig config).after (earlier ++ .checkout :: later)).context?
        (earlier.countP Step.isCheckout) = some c ↔
      .drop (earlier.countP Step.isCheckout) ∉ later ∧
        c = alone config.schema (own (earlier.countP Step.isCheckout) later) := by
  have hHandle := length_held_run config earlier
  have hOut := context?_checkout (sound_run config earlier)
  have hHeld : earlier.countP Step.isCheckout
      < (((ofConfig config).after earlier).step .checkout).held.length := by
    rw [length_held_step, hHandle]
    exact Nat.lt_succ_self _
  rw [hHandle] at hOut
  rw [after_append]
  show ((((ofConfig config).after earlier).step .checkout).after later).context? _ = _ ↔ _
  rw [context?_after hHeld, hOut, foldl_onLease_some]
  by_cases hDrop : Step.drop (earlier.countP Step.isCheckout) ∈ later
  · simp [any_isDrop_own_iff.mpr hDrop, hDrop]
  · rw [if_neg (mt any_isDrop_own_iff.mp hDrop), Option.some.injEq, eq_comm]
    exact (and_iff_right hDrop).symm

/-- However the steps on several handles are mixed, a handle that is out shows a new context changed
by its own steps since its checkout.  A second drop does nothing, and the idle contexts stay within
the capacity, one less for a checkout and one more for a drop if there is room. -/
theorem isolated_of_run (config : Config) (steps : List Step) :
    let l := (ofConfig config).after steps
    (∀ handle c, l.context? handle = some c ↔ ∃ earlier later,
      steps = earlier ++ .checkout :: later ∧ earlier.countP Step.isCheckout = handle ∧
        .drop handle ∉ later ∧ c = alone config.schema (own handle later)) ∧
    (∀ handle earlier later, steps = earlier ++ .drop handle :: later →
      handle < earlier.countP Step.isCheckout → l.step (.drop handle) = l) ∧
    l.pool.idle.length ≤ config.poolCapacity.toNat ∧
    (0 < l.pool.idle.length → (l.step .checkout).pool.idle.length + 1 = l.pool.idle.length) ∧
    (l.pool.idle.length = 0 → (l.step .checkout).pool.idle.length = 0) ∧
    ∀ handle c, l.context? handle = some c → (l.step (.drop handle)).pool.idle.length
      = min (l.pool.idle.length + 1) config.poolCapacity.toNat := by
  intro l
  have hSound : Sound config l := sound_run config steps
  have hCheckout : (l.step .checkout).pool.idle.length = l.pool.idle.length - 1 :=
    length_idle_checkout l.pool
  have hShows : ∀ handle c, l.context? handle = some c ↔ ∃ earlier later,
      steps = earlier ++ .checkout :: later ∧ earlier.countP Step.isCheckout = handle ∧
        .drop handle ∉ later ∧ c = alone config.schema (own handle later) := by
    intro handle c
    constructor
    · intro hc
      have hOut : handle < steps.countP Step.isCheckout := by
        rw [← length_held_run config steps]
        obtain ⟨h, -⟩ := List.getElem?_eq_some_iff.mp (Option.join_eq_some_iff.mp hc)
        exact h
      obtain ⟨earlier, later, rfl, rfl⟩ := exists_checkout hOut
      exact ⟨earlier, later, rfl, rfl, context?_run_eq_some_iff.mp hc⟩
    · rintro ⟨earlier, later, rfl, rfl, hAlone⟩
      exact context?_run_eq_some_iff.mpr hAlone
  refine ⟨hShows, ?_, hSound.bounded, ?_, ?_, ?_⟩
  · rintro handle earlier later rfl hOut
    obtain ⟨before, between, rfl, rfl⟩ := exists_checkout hOut
    have hSplit : (before ++ .checkout :: between) ++ .drop (before.countP Step.isCheckout) :: later
        = before ++ .checkout :: (between ++ .drop (before.countP Step.isCheckout) :: later) := by
      rw [List.append_assoc]
      rfl
    have hGone : l.context? (before.countP Step.isCheckout) = none := by
      rw [Option.eq_none_iff_forall_ne_some]
      intro c hc
      have hShown := hc
      rw [show l = (ofConfig config).after _ from rfl, hSplit] at hShown
      have hDrop := (context?_run_eq_some_iff.mp hShown).1
      exact hDrop (List.mem_append_right _ List.mem_cons_self)
    rw [step, hGone]
  · intro hPos
    omega
  · intro hZero
    omega
  · intro handle c hc
    rw [step, hc]
    have hBounded : l.pool.idle.length ≤ l.pool.config.poolCapacity.toNat := by
      rw [hSound.config_eq]
      exact hSound.bounded
    exact (length_idle_release c hBounded).trans (by rw [hSound.config_eq])

/-- The context of a handle that was dropped goes to another one, beside a handle that stays out. -/
def interleaved : List Step :=
  [.checkout, .checkout, .writeTable 0 "users", .bind 1 .null, .drop 0, .checkout,
    .writeField 2 "id", .reset 1, .writeField 1 "name", .bind 2 (.bool true)]

theorem isolated_of_run_interleaved :
    let l := (ofConfig ⟨"shop", 1, 0⟩).after interleaved
    l.context? 1 = some ⟨"shop", "name", [], .bare⟩ ∧
      l.context? 2 = some ⟨"shop", "id?", [.bool true], .bare⟩ ∧ l.step (.drop 0) = l ∧
      (l.step .checkout).pool.idle.length = 0 ∧ (l.step (.drop 1)).pool.idle.length = 1 := by
  intro l
  obtain ⟨hShows, hAgain, -, -, hNone, hDrop⟩ := isolated_of_run ⟨"shop", 1, 0⟩ interleaved
  have hFirst : l.context? 1 = some ⟨"shop", "name", [], .bare⟩ :=
    (hShows 1 _).mpr ⟨interleaved.take 1, interleaved.drop 2, rfl, rfl, by simp [interleaved], rfl⟩
  have hSecond : l.context? 2 = some ⟨"shop", "id?", [.bool true], .bare⟩ :=
    (hShows 2 _).mpr ⟨interleaved.take 5, interleaved.drop 6, rfl, rfl, by simp [interleaved], rfl⟩
  exact ⟨hFirst, hSecond, hAgain 0 (interleaved.take 4) (interleaved.drop 5) rfl (by decide),
    hNone rfl, hDrop 1 _ hFirst⟩

end SqlStatement.Leases
