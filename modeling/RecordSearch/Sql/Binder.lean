import RecordSearch.Error
import RecordSearch.Sql.Fragment

/-!
# Binding

Building a statement writes client values one after the other, in the style of the
statement. Where that style has placeholders a value is bound, and its position is the
number of values bound before it, so positions are never used twice; a literal text takes
the value itself, and nothing is bound. When building fails, what was bound until then
stays bound.
-/
namespace RecordSearch.Sql

open Json (Value)

abbrev Bindings := List Value

/-- A computation that writes values in a style, binds those that get placeholders, and
can fail. -/
abbrev Binder := ReaderT Style (ExceptT SearchError (StateM Bindings))

/-- What is bound in a style, where placeholders for all of `bound` would bind them. -/
def Style.params (style : Style) (bound : Bindings) : List Value :=
  match style.mode with
  | .literal => []
  | .parameterized => bound

namespace Binder

variable {α β : Type}

/-- The result in a style on given bindings, and the bindings after it. -/
def runIn (b : Binder α) (style : Style) (bound : Bindings) : Except SearchError α × Bindings :=
  StateT.run (b.run style).run bound

/-- The result with all values bound and in their places. -/
def runOn (b : Binder α) (bound : Bindings) : Except SearchError α × Bindings :=
  b.runIn ⟨.parameterized, .escaped, .postgres⟩ bound

def fail (cause : MalformedValues) : Binder α := throw (.malformed cause)

/-- One value: spelled out, or bound at the next position. -/
def value (v : Value) : Binder Fragment := do
  let style ← readThe Style
  match style.mode with
  | .literal => return [.fixed (String.ofList (literal style.quoting v))]
  | .parameterized =>
    let bound ← get
    set (bound ++ [v])
    return [.value bound.length v]

def text (s : String) : Binder Fragment := value (.string s)

def values (vs : List Value) : Binder Fragment := do
  let fs ← vs.mapM value
  return Fragment.join ", " fs

/-- One text: the value's bare text between two others. -/
def pattern (before : String) (v : Value) (after : String) : Binder Fragment :=
  text (before ++ v.plain ++ after)

@[simp] theorem runIn_pure (a : α) (style : Style) (bound : Bindings) :
    (pure a : Binder α).runIn style bound = (.ok a, bound) := rfl

@[simp] theorem runIn_throw (e : SearchError) (style : Style) (bound : Bindings) :
    (throw e : Binder α).runIn style bound = (.error e, bound) := rfl

theorem runIn_bind (b : Binder α) (f : α → Binder β) (style : Style) (bound : Bindings) :
    (b >>= f).runIn style bound =
      match b.runIn style bound with
      | (.ok a, bound') => (f a).runIn style bound'
      | (.error e, bound') => (.error e, bound') := by
  simp only [runIn, ReaderT.run_bind, ExceptT.run_bind, StateT.run_bind]
  rcases StateT.run (b.run style).run bound with ⟨_ | _, _⟩ <;> simp <;> rfl

theorem runIn_value_literal {style : Style} (h : style.mode = .literal) (v : Value)
    (bound : Bindings) : (value v).runIn style bound =
      (.ok [.fixed (String.ofList (literal style.quoting v))], bound) := by
  obtain ⟨mode, quoting, dialect⟩ := style
  subst h
  rfl

theorem runIn_value_parameterized {style : Style} (h : style.mode = .parameterized) (v : Value)
    (bound : Bindings) :
    (value v).runIn style bound = (.ok [.value bound.length v], bound ++ [v]) := by
  obtain ⟨mode, quoting, dialect⟩ := style
  subst h
  rfl

@[simp] theorem runOn_pure (a : α) (bound : Bindings) :
    (pure a : Binder α).runOn bound = (.ok a, bound) := rfl

@[simp] theorem runOn_throw (e : SearchError) (bound : Bindings) :
    (throw e : Binder α).runOn bound = (.error e, bound) := rfl

theorem runOn_bind (b : Binder α) (f : α → Binder β) (bound : Bindings) :
    (b >>= f).runOn bound =
      match b.runOn bound with
      | (.ok a, bound') => (f a).runOn bound'
      | (.error e, bound') => (.error e, bound') :=
  runIn_bind b f _ bound

@[simp] theorem runOn_value (v : Value) (bound : Bindings) :
    (value v).runOn bound = (.ok [.value bound.length v], bound ++ [v]) := rfl

theorem runOn_mapM_value (vs : List Value) (bound : Bindings) :
    (vs.mapM value).runOn bound =
      (.ok ((vs.zipIdx bound.length).map fun p => [.value p.2 p.1]), bound ++ vs) := by
  induction vs generalizing bound with
  | nil => simp
  | cons v vs ih =>
    rw [List.mapM_cons, runOn_bind, runOn_value]
    dsimp only
    rw [runOn_bind, ih]
    simp

@[simp] theorem runOn_values (vs : List Value) (bound : Bindings) :
    (values vs).runOn bound =
      (.ok (Fragment.join ", " ((vs.zipIdx bound.length).map fun p => [.value p.2 p.1])),
        bound ++ vs) := by
  rw [values, runOn_bind, runOn_mapM_value]
  rfl

end Binder

end RecordSearch.Sql
