import SqlStatement.Pool.Basic

/-!
# Leases

Several contexts of one pool can be out at once, each under a handle: the number
of contexts handed out before it.  A handle that was dropped stays without a
context, and steps on it do nothing.
-/

namespace SqlStatement

structure Leases where
  pool : Pool
  held : List (Option Context)

namespace Leases

def ofConfig (config : Config) : Leases := ⟨.ofConfig config, []⟩

inductive Step
  | checkout
  | writeField (handle : Nat) (field : String)
  | writeTable (handle : Nat) (table : String)
  | bind (handle : Nat) (v : Value)
  | reset (handle : Nat)
  | read (handle : Nat)
  | drop (handle : Nat)

def context? (l : Leases) (handle : Nat) : Option Context := (l.held[handle]?).join

/-- Changes the context of a handle, if it has one. -/
def change (l : Leases) (handle : Nat) (f : Context → Context) : Leases :=
  { l with held := l.held.modify handle (Option.map f) }

def step (l : Leases) : Step → Leases
  | .checkout => ⟨l.pool.checkout.2, l.held ++ [some l.pool.checkout.1]⟩
  | .writeField handle field => l.change handle (·.writeField field)
  | .writeTable handle table => l.change handle (·.writeTable table)
  | .bind handle v => l.change handle (·.bind v)
  | .reset handle => l.change handle Context.reset
  | .read _ => l
  | .drop handle =>
    match l.context? handle with
    | some c => ⟨l.pool.release c, l.held.set handle none⟩
    | none => l

end Leases

end SqlStatement
