import SqlStatement.Config.Basic
import SqlStatement.Json.Token

/-!
# Configuration documents

A configuration is read from a JSON text: an object with any of the three
settings, each at most once, or an array that gives them in order and may stop
early.  What is not given keeps its default.
-/

namespace SqlStatement.Config

open Json (Token)

/-- The settings in the order an array gives them. -/
def settings : List String := ["schema", "pool_capacity", "max_retained_bytes"]

/-- Takes over one setting, if it is known and the token is of its kind. -/
def set? (c : Config) : String → Token → Option Config
  | "schema", .string s => some (c.withSchema s)
  | "pool_capacity", .natural n => (ofNat? n).map c.withPoolCapacity
  | "max_retained_bytes", .natural n => (ofNat? n).map c.withMaxRetainedBytes
  | _, _ => none

/-- The members of an object up to its end, without the settings already given. -/
def members? (given : List String) (c : Config) : List Token → Option Config
  | .string key :: .colon :: value :: [.rightBrace] =>
    if given.contains key then none else c.set? key value
  | .string key :: .colon :: value :: .comma :: rest =>
    if given.contains key then none
    else (c.set? key value).bind fun c => members? (key :: given) c rest
  | _ => none

/-- The elements of an array up to its end, one for each of the remaining settings at most. -/
def elements? : List String → Config → List Token → Option Config
  | key :: _, c, value :: [.rightBracket] => c.set? key value
  | key :: keys, c, value :: .comma :: rest =>
    (c.set? key value).bind fun c => elements? keys c rest
  | _, _, _ => none

def ofTokens? : List Token → Option Config
  | [.leftBrace, .rightBrace] => some standard
  | .leftBrace :: rest => members? [] standard rest
  | [.leftBracket, .rightBracket] => some standard
  | .leftBracket :: rest => elements? settings standard rest
  | _ => none

def ofDocument (doc : String) : Except ConfigError Config :=
  match (Json.tokens? doc.toList).bind ofTokens? with
  | some c => .ok c
  | none => .error .malformedDocument

end SqlStatement.Config
