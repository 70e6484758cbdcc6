import SqlStatement.Config.Basic
import SqlStatement.Script

/-!
# Pools of contexts

A pool hands out contexts and takes them back, emptied, for later use; it keeps
no more of them than its configuration allows.

`Pool.ofConfig` assumes that the list of idle contexts can be allocated with room
for `poolCapacity` of them.  A capacity for which that fails gives no pool at all,
and nothing is said of it here.

* `Pool.runIn`: a script run over a pool.  A nested statement takes a context of
  its own while the one around it is still in use.
* `Pool.compile`: a script compiled in a context of the pool, which goes back
  whether it failed or not.
-/

namespace SqlStatement

structure Pool where
  config : Config
  idle : List Context

namespace Pool

/-- The pool without idle contexts. -/
def ofConfig (config : Config) : Pool := ⟨config, []⟩

/-- An idle context, or a new one when none is left. -/
def checkout (p : Pool) : Context × Pool :=
  match p.idle with
  | [] => (Context.ofSchema p.config.schema, p)
  | c :: rest => (c, { p with idle := rest })

def release (p : Pool) (c : Context) : Pool :=
  if p.idle.length < p.config.poolCapacity.toNat then { p with idle := c.reset :: p.idle } else p

/-- What a run leaves behind: the pool, the context, and the error that ended it early. -/
structure Run where
  pool : Pool
  context : Context
  failure : Option CompileError

mutual

def stepIn : Piece → Pool → Context → Run
  | .text s, p, c => ⟨p, c.write s, none⟩
  | .table name, p, c => ⟨p, c.writeTable name, none⟩
  | .placeholder v, p, c => ⟨p, c.bind v, none⟩
  | .aliases naming, p, c => ⟨p, c.rename naming, none⟩
  | .fail e, p, c => ⟨p, c, some e⟩
  | .nested body, p, c =>
    let inner := runIn body p.checkout.2 p.checkout.1
    match inner.failure with
    | some e => ⟨inner.pool.release inner.context, c, some e⟩
    | none => ⟨inner.pool.release inner.context, c.splice inner.context.finish, none⟩

def runIn : List Piece → Pool → Context → Run
  | [], p, c => ⟨p, c, none⟩
  | piece :: rest, p, c =>
    let r := stepIn piece p c
    match r.failure with
    | some _ => r
    | none => runIn rest r.pool r.context

end

def compile (p : Pool) (s : Script) : Except CompileError Compiled × Pool :=
  let r := runIn s p.checkout.2 p.checkout.1
  (match r.failure with
    | some e => .error e
    | none => .ok r.context.finish,
   r.pool.release r.context)

/-- Scripts compiled one after the other. -/
def compileAll (p : Pool) : List Script → List (Except CompileError Compiled) × Pool
  | [] => ([], p)
  | s :: rest =>
    let (r, p) := p.compile s
    let (results, p) := p.compileAll rest
    (r :: results, p)

end Pool

end SqlStatement
