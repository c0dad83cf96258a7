import RecordSearch.Proofs.Bound
import RecordSearch.Proofs.Check
import RecordSearch.Proofs.Layout

/-!
# Column filters, checked and laid out

Whether a filter is accepted is decided before anything is bound. An accepted
filter is a predicate that fits its operator; its condition is the column, the
operator, and the values that the filter as written asks to bind.
-/
namespace RecordSearch

open Json (Value)
open Sql (Fragment Binder Erasure usedAt singleQuote)
open Sql.Binder (valuesAt)
open SearchError (IsUnknown IsMalformed)

namespace Operator

def bound (op : Operator) : Operand → List Value
  | .list vs => vs
  | .scalar v =>
    match op.form with
    | .pattern before after => [.string (before ++ v.plain ++ after)]
    | .single | .list => [v]

/-- The fixed texts before and after the values of an operator. -/
def frame (op : Operator) : String × String :=
  match op.form with
  | .single => (" = ", "")
  | .pattern _ _ => (" ILIKE ", "")
  | .list => (" IN (", ")")

/-- The operator with its values in place. -/
def around (op : Operator) (values : Fragment) : Fragment :=
  .fixed op.frame.1 :: values ++ [.fixed op.frame.2]

/-- Whether the operand has the form that the operator takes. -/
def fits (op : Operator) : Operand → Bool
  | .list _ => op.form = .list
  | .scalar _ => op.form ≠ .list

/-- A single operand as it is bound: itself, or the text of a pattern. -/
def scalar (op : Operator) (v : Value) : Binder Fragment :=
  match op.form with
  | .pattern before after => Binder.pattern before v after
  | .single | .list => Binder.value v

/-- Cut at its marker and at its quotes, a template has a place for its operand. -/
theorem withScalar_eq {op : Operator} (h : op ≠ .isIn) (v : Value) :
    op.withScalar v = op.scalar v >>= fun value => pure (op.around value) := by
  cases op with
  | equal | contains | beginsWith | endsWith => rfl
  | isIn => exact absurd rfl h

theorem replaceAll_template (values : Fragment) :
    Sql.replaceAll "@@VALUES@@" values isIn.template = isIn.around values := rfl

theorem scalar_writes (op : Operator) (v : Value) :
    (op.scalar v).Writes (op.bound (.scalar v)) fun n => valuesAt n (op.bound (.scalar v)) := by
  unfold scalar bound
  cases op.form with
  | pattern before after => exact Binder.writes_value _
  | single | list => exact Binder.writes_value v

theorem condition_scalar {op : Operator} (h : op ≠ .isIn) (v : Value) :
    op.condition (.scalar v) = op.withScalar v := by
  cases op with
  | equal | contains | beginsWith | endsWith => rfl
  | isIn => exact absurd rfl h

theorem condition_list (vs : List Value) :
    isIn.condition (.list vs) = Binder.values vs >>= fun values => pure (isIn.around values) := by
  simp only [condition, replaceAll_template]

theorem condition_writes {op : Operator} {operand : Operand} (h : op.fits operand = true) :
    (op.condition operand).Writes (op.bound operand)
      fun n => op.around (valuesAt n (op.bound operand)) := by
  cases operand with
  | scalar v =>
    have hop : op ≠ .isIn := by
      rintro rfl
      cases h
    rw [condition_scalar hop, withScalar_eq hop]
    exact (op.scalar_writes v).map op.around
  | list vs =>
    cases op with
    | isIn =>
      rw [condition_list]
      exact (Binder.writes_values vs).map isIn.around
    | equal | contains | beginsWith | endsWith => cases h

theorem follows_around (op : Operator) {f : Fragment} (hf : Fragment.Balanced f) :
    Fragment.Follows (op.around f) := by
  have hopen : Sql.walk .apart (Sql.fixedAtoms op.frame.1) = some .outside := by
    cases op <;> decide
  have hclose : Fragment.Follows [.fixed op.frame.2] := by
    cases op with
    | isIn => exact Fragment.balancedFrom_fixed (by decide) Fragment.balanced_nil
    | equal | contains | beginsWith | endsWith => exact Fragment.follows_nil
  exact Fragment.balancedFrom_fixed hopen (hf.append hclose)

theorem slots_around (op : Operator) (f : Fragment) :
    Fragment.slots (op.around f) = Fragment.slots f := by
  simp [around]

theorem clients_around (op : Operator) (f : Fragment) :
    Fragment.clients (op.around f) = Fragment.clients f := by
  simp [around]

theorem erase_around (e : Erasure) (op : Operator) (f : Fragment) :
    Fragment.erase e (op.around f) = op.around (Fragment.erase e f) := by
  simp [around, Sql.Piece.erase]

end Operator

namespace Predicate

def bound (p : Predicate) : List Value := p.operator.bound p.operand

/-- The condition of a predicate whose values are bound from position `n` on. -/
def layout (p : Predicate) (n : Nat) : Fragment :=
  p.column.fragment ++ p.operator.around (valuesAt n p.bound)

theorem condition_writes {p : Predicate} (h : p.operator.fits p.operand = true) :
    p.condition.Writes p.bound p.layout :=
  (Operator.condition_writes h).map (p.column.fragment ++ ·)

end Predicate

/-- Only a list can be too long. -/
def Operand.checkLength (limits : Limits) : Operand → Except SearchError Unit
  | .list vs => checkInList limits vs.length
  | .scalar _ => .ok ()

theorem Operand.checkLength_fails (limits : Limits) (operand : Operand) :
    FailsOnly IsMalformed (operand.checkLength limits) := by
  cases operand with
  | list vs => exact checkInList_fails limits vs.length
  | scalar v => exact .ok ()

/-- The predicate of a filter, or the error that its condition ends with. -/
def FilterSpec.check (limits : Limits) (spec : FilterSpec) : Except SearchError Predicate := do
  let filter ← Filter.resolve spec
  let operand ← filter.operand
  operand.checkLength limits
  filter.predicate

namespace Filter

theorem resolve_eq_ok {spec : FilterSpec} {f : Filter} (h : resolve spec = .ok f) :
    Named.name f.table = spec.targetTable ∧ Named.name f.column = spec.targetColumn ∧
      Named.name f.operator = spec.operator ∧ f.table.has f.column = true ∧
      f.values = spec.values := by
  obtain ⟨table, htable, h⟩ := bind_eq_ok h
  obtain ⟨column, hcolumn, h⟩ := bind_eq_ok h
  obtain ⟨operator, hoperator, h⟩ := bind_eq_ok h
  obtain ⟨name, hname, h⟩ := bind_eq_ok h
  cases h
  exact ⟨Named.resolve_eq_ok htable, Named.resolve_eq_ok hcolumn, Named.resolve_eq_ok hoperator,
    (TargetTable.columnName_eq_ok hname).1, rfl⟩

theorem resolve_fails (spec : FilterSpec) : FailsOnly IsUnknown (resolve spec) := by
  refine (Named.resolve_fails _).bind fun table _ => ?_
  refine (Named.resolve_fails _).bind fun column _ => ?_
  refine (Named.resolve_fails _).bind fun operator _ => ?_
  exact (table.columnName_fails column).bind fun _ _ => .ok _

theorem payloadKey_fails (f : Filter) : FailsOnly IsMalformed f.payloadKey := by
  unfold payloadKey
  split
  next =>
    split
    next key rest hvalues =>
      split
      next => exact .error ⟨_, rfl⟩
      next => exact .ok _
    next => exact .error ⟨_, rfl⟩
  next => exact .ok _

theorem operand_eq_ok {f : Filter} {operand : Operand} (h : f.operand = .ok operand) :
    (∀ v ∈ f.operandValues, v.isScalar = true) ∧
      ((f.operator = .isIn ∧ f.operandValues ≠ [] ∧ operand = .list f.operandValues) ∨
        (f.operator ≠ .isIn ∧ ∃ v, f.operandValues = [v] ∧ operand = .scalar v)) := by
  obtain ⟨_, _, h⟩ := bind_eq_ok h
  obtain ⟨_, hscalars, h⟩ := bind_eq_ok h
  refine ⟨requireScalars_eq_ok hscalars, ?_⟩
  split at h
  next => cases h
  next hop hne =>
    cases h
    exact .inl ⟨hop, hne, rfl⟩
  next v hvs hop =>
    cases h
    exact .inr ⟨hop, v, hvs, rfl⟩
  next => cases h

theorem operand_fails (f : Filter) : FailsOnly IsMalformed f.operand := by
  refine f.payloadKey_fails.bind fun _ _ => ?_
  refine (requireScalars_fails _).bind fun _ _ => ?_
  split
  next => exact .error ⟨_, rfl⟩
  next => exact .ok _
  next => exact .ok _
  next => exact .error ⟨_, rfl⟩

theorem columnRef_eq_ok {f : Filter} {column : ColumnRef} (h : f.columnRef = .ok column) :
    (f.onPayload = false ∧ column = .physical f.table.aliasName f.column.physical) ∨
      (f.onPayload = true ∧ ∃ key rest, f.values = .string key :: rest ∧
        column = .payload "r" "data" key) := by
  obtain ⟨name, hname, h⟩ := bind_eq_ok h
  obtain ⟨-, rfl⟩ := TargetTable.columnName_eq_ok hname
  obtain ⟨key?, hkey, h⟩ := bind_eq_ok h
  unfold Filter.payloadKey at hkey
  split at hkey
  next hpayload =>
    refine .inr ⟨hpayload, ?_⟩
    obtain ⟨htable, hcolumn⟩ : f.table = .record ∧ f.column = .data := by
      simpa [onPayload] using hpayload
    split at hkey
    next key rest hvalues =>
      split at hkey
      next => cases hkey
      next =>
        cases hkey
        cases h
        exact ⟨key, rest, hvalues, by rw [htable, hcolumn]; rfl⟩
    next => cases hkey
  next hpayload =>
    cases hkey
    cases h
    exact .inl ⟨by simpa using hpayload, rfl⟩

theorem bound_of_operand {f : Filter} {operand : Operand} (h : f.operand = .ok operand) :
    f.operator.fits operand = true ∧ f.operator.bound operand ≠ [] ∧
      (∀ v ∈ f.operator.bound operand, v.isScalar = true) ∧
      f.operator.bound operand = match f.operator.form with
        | .pattern before after =>
          f.operandValues.map fun v => .string (before ++ v.plain ++ after)
        | .single | .list => f.operandValues := by
  obtain ⟨hscalars, ⟨hop, hne, rfl⟩ | ⟨hop, v, hv, rfl⟩⟩ := operand_eq_ok h
  · rw [hop]
    exact ⟨rfl, hne, hscalars, rfl⟩
  · rw [hv] at hscalars ⊢
    generalize f.operator = op at hop ⊢
    cases op with
    | equal => exact ⟨rfl, List.cons_ne_nil _ _, hscalars, rfl⟩
    | contains | beginsWith | endsWith =>
      refine ⟨rfl, List.cons_ne_nil _ _, fun w hw => ?_, rfl⟩
      rw [List.mem_singleton.1 hw]
      rfl
    | isIn => exact absurd rfl hop

end Filter

namespace FilterSpec

/-- What is known of the predicate of an accepted filter. -/
structure Yields (spec : FilterSpec) (p : Predicate) : Prop where
  fits : p.operator.fits p.operand = true
  operator : Named.name p.operator = spec.operator
  bound : p.bound = spec.boundValues
  bound_ne_nil : p.bound ≠ []
  scalars : ∀ v ∈ p.bound, v.isScalar = true
  column :
    (spec.onPayload = false ∧ ∃ (t : TargetTable) (c : Column),
      Named.name t = spec.targetTable ∧ Named.name c = spec.targetColumn ∧
        p.column = .physical t.aliasName c.physical) ∨
    (spec.onPayload = true ∧ ∃ key rest, spec.values = .string key :: rest ∧
      p.column = .payload "r" "data" key)

theorem boundValues_of_operator {spec : FilterSpec} {op : Operator}
    (h : Named.name op = spec.operator) :
    spec.boundValues = match op.form with
      | .pattern before after =>
        spec.operands.map fun v => .string (before ++ v.plain ++ after)
      | .single | .list => spec.operands := by
  unfold boundValues
  rw [← h]
  cases op <;> rfl

theorem onPayload_of_resolve {spec : FilterSpec} {f : Filter} (h : Filter.resolve spec = .ok f) :
    spec.onPayload = f.onPayload := by
  obtain ⟨htable, hcolumn, -⟩ := Filter.resolve_eq_ok h
  unfold onPayload Filter.onPayload
  rw [← htable, ← hcolumn]
  cases f.table <;> cases f.column <;> rfl

theorem operands_of_resolve {spec : FilterSpec} {f : Filter} (h : Filter.resolve spec = .ok f) :
    spec.operands = f.operandValues := by
  obtain ⟨-, -, -, -, hvalues⟩ := Filter.resolve_eq_ok h
  rw [operands, Filter.operandValues, onPayload_of_resolve h, hvalues]

theorem yields_of_check {limits : Limits} {spec : FilterSpec} {p : Predicate}
    (h : spec.check limits = .ok p) : spec.Yields p := by
  obtain ⟨f, hresolve, h⟩ := bind_eq_ok h
  obtain ⟨operand, hoperand, h⟩ := bind_eq_ok h
  obtain ⟨_, -, h⟩ := bind_eq_ok h
  obtain ⟨column, hcolumn, h⟩ := bind_eq_ok h
  rw [hoperand] at h
  cases h
  obtain ⟨htable, hname, hoperator, -, hvalues⟩ := Filter.resolve_eq_ok hresolve
  obtain ⟨hfits, hne, hscalars, hbound⟩ := Filter.bound_of_operand hoperand
  refine ⟨hfits, hoperator, ?_, hne, hscalars, ?_⟩
  · rw [boundValues_of_operator hoperator, operands_of_resolve hresolve]
    exact hbound
  · rw [onPayload_of_resolve hresolve, ← hvalues]
    rcases Filter.columnRef_eq_ok hcolumn with ⟨hpayload, rfl⟩ | hpayload
    · exact .inl ⟨hpayload, f.table, f.column, htable, hname, rfl⟩
    · exact .inr hpayload

/-- The check decides, and then the predicate is written. -/
theorem condition_performs (limits : Limits) (spec : FilterSpec) :
    Binder.Performs (spec.condition limits) (spec.check limits) Predicate.bound
      Predicate.layout := by
  have heq : spec.condition limits = (liftM (spec.check limits) >>= Predicate.condition) := by
    unfold condition check
    generalize Filter.resolve spec = resolved
    cases resolved with
    | error e => rfl
    | ok f =>
      change (liftM f.operand >>= _ : Binder Fragment) = liftM (f.operand >>= _) >>= _
      generalize f.operand = operand
      cases operand with
      | error e => rfl
      | ok operand =>
        cases operand with
        | scalar v => rfl
        | list vs =>
          change (liftM (checkInList limits vs.length) >>= _ : Binder Fragment) =
            liftM (checkInList limits vs.length >>= fun _ => f.predicate) >>= _
          generalize checkInList limits vs.length = length
          cases length <;> rfl
  unfold Binder.Performs
  cases hcheck : spec.check limits with
  | error e =>
    rw [heq]
    exact Binder.lift_error hcheck _
  | ok p =>
    rw [heq, Binder.lift_ok hcheck]
    exact Predicate.condition_writes (yields_of_check hcheck).fits

end FilterSpec

theorem ColumnRef.slots_fragment (c : ColumnRef) : Fragment.slots c.fragment = [] := by
  cases c <;> rfl

/-- A condition mentions each of its values once. -/
def Predicate.uses (p : Predicate) : List (Value × Nat) := p.bound.map fun v => (v, 1)

theorem Predicate.uses_fst (p : Predicate) : p.uses.map Prod.fst = p.bound := by
  simp [uses, Function.comp_def]

theorem Predicate.slots_layout (p : Predicate) (n : Nat) :
    Fragment.slots (p.layout n) = usedAt n p.uses := by
  rw [layout, Fragment.slots_append, p.column.slots_fragment, Operator.slots_around,
    Sql.slots_valuesAt]
  rfl

theorem Column.walk_physical (t : TargetTable) (c : Column) :
    Sql.walk .outside (Sql.fixedAtoms (t.aliasName ++ "." ++ c.physical)) = some .outside := by
  cases t <;> cases c <;> decide

namespace FilterSpec

variable {spec : FilterSpec} {p : Predicate}

theorem Yields.balanced (h : spec.Yields p) (n : Nat) : Fragment.Balanced (p.layout n) := by
  have hvalues := p.operator.follows_around (Sql.balanced_valuesAt n p.bound)
  rw [Predicate.layout]
  rcases h.column with ⟨-, t, c, -, -, hcolumn⟩ | ⟨-, key, rest, -, hcolumn⟩
  · rw [hcolumn]
    exact Fragment.balancedFrom_fixed (Column.walk_physical t c) hvalues.balanced
  · have htype : Fragment.Follows (.fixed "::TEXT" :: p.operator.around (valuesAt n p.bound)) :=
      Fragment.balancedFrom_fixed (by decide) hvalues.balanced
    rw [hcolumn]
    exact Fragment.balancedFrom_fixed (by decide) (Fragment.balanced_key key htype)

theorem Yields.clients (h : spec.Yields p) (n : Nat) :
    Fragment.clients (p.layout n) = spec.payloadKeys.map fun key => (singleQuote, key) := by
  rw [Predicate.layout, Fragment.clients_append, Operator.clients_around, Sql.clients_valuesAt,
    List.append_nil, payloadKeys]
  rcases h.column with ⟨hpayload, t, c, -, -, hcolumn⟩ | ⟨hpayload, key, rest, hvalues, hcolumn⟩
  · rw [hcolumn, hpayload]
    rfl
  · rw [hcolumn, hpayload, hvalues]
    rfl

/-- Filters by the same names write the same condition, but for keys and values. -/
theorem Yields.erase_layout {e : Erasure} {spec' : FilterSpec} {p' : Predicate}
    (h : spec.Yields p) (h' : spec'.Yields p') (htable : spec.targetTable = spec'.targetTable)
    (hname : spec.targetColumn = spec'.targetColumn) (hoperator : spec.operator = spec'.operator)
    (hkeys : spec.payloadKeys.map e.text = spec'.payloadKeys.map e.text)
    (hbound : spec.boundValues.map e.value = spec'.boundValues.map e.value) (n : Nat) :
    Fragment.erase e (p.layout n) = Fragment.erase e (p'.layout n) := by
  have hpayload : spec.onPayload = spec'.onPayload := by
    rw [onPayload, onPayload, htable, hname]
  have hop : p.operator = p'.operator :=
    Named.name_injective (by rw [h.operator, h'.operator, hoperator])
  have hcolumn : Fragment.erase e p.column.fragment = Fragment.erase e p'.column.fragment := by
    rw [payloadKeys, payloadKeys] at hkeys
    rcases h.column with ⟨hp, t, c, ht, hc, hcol⟩ | ⟨hp, key, rest, hvalues, hcol⟩
    · rcases h'.column with ⟨-, t', c', ht', hc', hcol'⟩ | ⟨hp', -⟩
      · obtain rfl : t = t' := Named.name_injective (by rw [ht, ht', htable])
        obtain rfl : c = c' := Named.name_injective (by rw [hc, hc', hname])
        rw [hcol, hcol']
      · rw [hpayload, hp'] at hp
        cases hp
    · rcases h'.column with ⟨hp', -⟩ | ⟨hp', key', rest', hvalues', hcol'⟩
      · rw [hpayload, hp'] at hp
        cases hp
      · rw [hp, hp', hvalues, hvalues'] at hkeys
        have hkey : e.text key = e.text key' := by simpa using hkeys
        rw [hcol, hcol']
        simp [ColumnRef.fragment, Sql.Piece.erase, hkey]
  rw [Predicate.layout, Predicate.layout, Fragment.erase_append, Fragment.erase_append, hcolumn,
    Operator.erase_around, Operator.erase_around, Sql.erase_valuesAt, Sql.erase_valuesAt,
    h.bound, h'.bound, hbound, hop]

end FilterSpec

end RecordSearch
