import SqlStatement.Join.Basic

/-!
# Which joins are needed, and in which order

A join is needed when the statement names its alias, or when the ON clause of a
needed join does.  The needed joins are ordered by depth, a join being deeper
than every join it depends on; then inner joins come first, then the alias
decides.

* `Join.survivors`: the needed joins, in the order of their aliases.
* `Join.relax`: depths by relaxation.  One round goes over the joins in alias
  order and raises each above its dependencies; a round without a change ends it.
  If the last of the rounds still changes something, the joins it changes are
  reported as circular.
* `Join.resolve`: the needed joins in the order they are written.
-/

namespace SqlStatement.Join

/-- The declared joins that the ON clause of `j` depends on. -/
def dependencies (joins : List Join) (base : String) (j : Join) : List String :=
  j.references.filter fun a => a != base && joins.any (·.name == a)

/-! ### Needed joins -/

def aliases (joins : List Join) : List String := joins.map name

/-- Adds the joins that those in `kept` depend on. -/
def grow (joins : List Join) (base : String) (kept : List Join) : List Join :=
  joins.filter fun j =>
    kept.any fun k => k.name == j.name || (dependencies joins base k).contains j.name

def byAlias (joins : List Join) : List Join :=
  joins.mergeSort fun a b => a.name ≤ b.name

/-- The joins named by `referenced`, and all they depend on. -/
def survivors (joins : List Join) (base : String) (referenced : List String) : List Join :=
  let ordered := byAlias joins
  Nat.repeat (grow ordered base) ordered.length
    (ordered.filter fun j => referenced.contains j.name)

/-! ### Depths -/

abbrev Depths := List (String × Nat)

def Depths.get (d : Depths) (a : String) : Nat := (d.lookup a).getD 0

def Depths.set (d : Depths) (a : String) (n : Nat) : Depths :=
  d.map fun p => if p.1 == a then (a, n) else p

/-- One more than the deepest of some aliases, zero without any. -/
def above (d : Depths) (aliases : List String) : Nat :=
  (aliases.map fun a => d.get a + 1).foldl max 0

/-- Raises one join above its dependencies and records whether that changed its depth. -/
def settle (dependenciesOf : Join → List String) (state : Depths × List String) (j : Join) :
    Depths × List String :=
  let next := above state.1 (dependenciesOf j)
  if state.1.get j.name = next then state
  else (state.1.set j.name next, state.2 ++ [j.name])

/-- One round: the depths after it, and the joins it changed. -/
def round (dependenciesOf : Join → List String) (kept : List Join) (d : Depths) :
    Depths × List String :=
  kept.foldl (settle dependenciesOf) (d, [])

/-- A round, and up to `n` more of them while something changes. -/
def relax (dependenciesOf : Join → List String) (kept : List Join) :
    Nat → Depths → Except CompileError Depths
  | 0, d =>
    match round dependenciesOf kept d with
    | (d, []) => .ok d
    | (_, changed) => .error (.circularJoinDependency changed)
  | n + 1, d =>
    match round dependenciesOf kept d with
    | (d, []) => .ok d
    | (d, _) => relax dependenciesOf kept n d

/-! ### The order of writing -/

/-- By depth, then inner before left, then by alias. -/
def precedes (d : Depths) (a b : Join) : Bool :=
  let x := d.get a.name
  let y := d.get b.name
  x < y || x == y && (a.mode.rank < b.mode.rank || a.mode.rank == b.mode.rank && a.name ≤ b.name)

/-- The needed joins, each after the joins it depends on. -/
def resolve (joins : List Join) (base : String) (referenced : List String) :
    Except CompileError (List Join) :=
  let kept := survivors joins base referenced
  match relax (dependencies joins base) kept joins.length (kept.map fun j => (j.name, 0)) with
  | .error e => .error e
  | .ok d => .ok (kept.mergeSort (precedes d))

end SqlStatement.Join
