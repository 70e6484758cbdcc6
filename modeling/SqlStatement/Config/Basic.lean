import SqlStatement.Text.Blank

/-!
# Configuration

The schema in front of every table, and how many idle contexts are kept for
reuse.

* `Config.ofEnvironment`: the defaults, overridden by the variables that are set.
-/

namespace SqlStatement

structure Config where
  schema : String
  /-- How many idle contexts are kept at most. -/
  poolCapacity : UInt64
  /-- How many bytes of text an idle context may hold on to; no statement depends on it. -/
  maxRetainedBytes : UInt64
deriving DecidableEq

inductive ConfigError
  | malformedDocument
  | invalidVariable (name value : String)
  | alreadyInstalled
deriving DecidableEq

def ConfigError.message : ConfigError → String
  | .malformedDocument => "invalid config document"
  | .invalidVariable name value => "invalid value for " ++ name ++ ": " ++ value
  | .alreadyInstalled => "compiler config already installed"

namespace Config

def standard : Config := ⟨"", 32, 16384⟩

def withSchema (c : Config) (schema : String) : Config := { c with schema }

def withPoolCapacity (c : Config) (poolCapacity : UInt64) : Config := { c with poolCapacity }

def withMaxRetainedBytes (c : Config) (maxRetainedBytes : UInt64) : Config :=
  { c with maxRetainedBytes }

/-! ### Whole numbers of sixty-four bits -/

def ofNat? (n : Nat) : Option UInt64 := if n < UInt64.size then some (.ofNat n) else none

def digitsValue (l : List Char) : Nat := l.foldl (fun n c => 10 * n + (c.toNat - 48)) 0

def digits? (l : List Char) : Option UInt64 :=
  if l.isEmpty || !l.all Char.isDigit then none else ofNat? (digitsValue l)

/-- Digits with at most one plus sign in front, blanks around them. -/
def number? (s : String) : Option UInt64 :=
  match Text.trim s.toList with
  | '+' :: l => digits? l
  | l => digits? l

/-! ### The environment -/

abbrev Environment := List (String × String)

/-- A numeric variable, or the given number when it is not set. -/
def setting (env : Environment) (name : String) (unset : UInt64) : Except ConfigError UInt64 :=
  match env.lookup name with
  | none => .ok unset
  | some value =>
    match number? value with
    | some n => .ok n
    | none => .error (.invalidVariable name value)

def ofEnvironment (env : Environment) : Except ConfigError Config := do
  let poolCapacity ← setting env "SQLC_POOL_CAPACITY" standard.poolCapacity
  let maxRetainedBytes ← setting env "SQLC_MAX_RETAINED_BYTES" standard.maxRetainedBytes
  return ⟨(env.lookup "SQLC_SCHEMA").getD standard.schema, poolCapacity, maxRetainedBytes⟩

end Config

end SqlStatement
