import RecordSearch.Plan

/-!
# Compilation

A request becomes one `SELECT` over records, written in the style of its settings, with
the values that the style has bound.
-/
namespace RecordSearch

open Json (Value)
open Sql (Fragment Binder Style)

structure Config where
  mode : Sql.RenderMode := .literal
  quoting : Sql.Quoting := .verbatim
  limits : Limits := {}
  deriving DecidableEq, Repr

/-- The text of a statement and the values of its placeholders. -/
structure CompiledSearch where
  sql : String
  params : List Value
  deriving Repr

def SearchRequest.statement (request : SearchRequest) (limits : Limits) :
    Binder Fragment := do
  let plan ← request.plan limits
  QueryTemplate.base.render (.base plan)

def SearchRequest.compile (request : SearchRequest) (limits : Limits) (style : Style) :
    Except SearchError CompiledSearch :=
  match (request.statement limits).runIn style [] with
  | (.ok f, params) => .ok ⟨f.text style, params⟩
  | (.error e, _) => .error e

namespace Config

def style (config : Config) (dialect : Sql.Dialect) : Style :=
  ⟨config.mode, config.quoting, dialect⟩

def build (config : Config) (dialect : Sql.Dialect) (request : SearchRequest) :
    Except SearchError CompiledSearch :=
  request.compile config.limits (config.style dialect)

/-- The literal text of a request, whatever the configured mode. -/
def buildSql (config : Config) (request : SearchRequest) : Except SearchError String :=
  (request.compile config.limits ⟨.literal, config.quoting, .postgres⟩).map
    CompiledSearch.sql

end Config

end RecordSearch
