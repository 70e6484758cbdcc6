import SqlStatement.Config.Document
import SqlStatement.Pool.Basic
import SqlStatement.Statement

/-!
# Sessions

A session has one configuration and one pool.  A configuration can be installed
as long as none is in use; whatever needs one before that fixes the default.

* `Session.step`: one request and its answer.
* `Session.run`: a list of requests.
-/

namespace SqlStatement

structure Session where
  environment : Config.Environment
  config : Option Config
  pool : Option Pool

namespace Session

def start (environment : Config.Environment) : Session := ⟨environment, none, none⟩

inductive Step
  | install (c : Config)
  | installDocument (doc : String)
  | installEnvironment
  | readEnvironment
  | current
  | compile (s : Statement)
  | debug (s : Statement)
  | idle
  | checkout (table : String)

inductive Answer
  | installed
  | refused (e : ConfigError)
  | config (c : Config)
  | result (r : Except CompileError Compiled)
  | text (s : String)
  | idle (n : Nat)
  | context (c : Context)

/-- The configuration in use, from now on if there was none. -/
def current (s : Session) : Config := s.config.getD .standard

/-- The pool of the configuration in use. -/
def contexts (s : Session) : Pool := s.pool.getD (.ofConfig s.current)

/-- The session once its configuration is fixed. -/
def fixed (s : Session) : Session := { s with config := some s.current }

def withPool (s : Session) (p : Pool) : Session := { s.fixed with pool := some p }

/-- Puts a configuration to use, unless one is in use or it could not be built. -/
def install (s : Session) : Except ConfigError Config → Answer × Session
  | .error e => (.refused e, s)
  | .ok c =>
    match s.config with
    | some _ => (.refused .alreadyInstalled, s)
    | none => (.installed, { s with config := some c })

def step (s : Session) : Step → Answer × Session
  | .install c => s.install (.ok c)
  | .installDocument doc => s.install (Config.ofDocument doc)
  | .installEnvironment => s.install (Config.ofEnvironment s.environment)
  | .readEnvironment =>
    (match Config.ofEnvironment s.environment with
      | .error e => .refused e
      | .ok c => .config c, s)
  | .current => (.config s.current, s.fixed)
  | .compile statement =>
    let (r, p) := s.contexts.compile statement.script
    (.result r, s.withPool p)
  | .debug statement =>
    let (r, p) := s.contexts.compile statement.script
    (.text (debugText r), s.withPool p)
  | .idle => (.idle s.contexts.idle.length, s.withPool s.contexts)
  | .checkout table =>
    let (c, p) := s.contexts.checkout
    (.context (c.writeTable table), s.withPool (p.release (c.writeTable table)))

def run (s : Session) : List Step → List Answer
  | [] => []
  | step :: rest => (s.step step).1 :: (s.step step).2.run rest

end Session

end SqlStatement
