import RecordSearch.Proofs.Limits
import RecordSearch.Proofs.Written

/-!
# Filters by their names and values

Which filters are accepted is said here without running a check: the names are in the
catalog, and the values after the key of the payload are scalars in the right number.
The condition of an accepted filter is its column and its operator around these values,
each of them once and in their order.
-/
namespace RecordSearch

open Json (Value)
open Sql (Fragment Style singleQuote)
open Sql.Binder (valuesAt)
open SearchError (IsUnknown IsMalformed)

namespace FilterSpec

/-- Members of the catalog bear the names of a filter, and the table has the column. -/
structure Names (spec : FilterSpec) (table : TargetTable) (column : Column)
    (op : Operator) : Prop where
  targetTable : Named.name table = spec.targetTable
  targetColumn : Named.name column = spec.targetColumn
  operator : Named.name op = spec.operator
  has : table.has column = true

def InCatalog (spec : FilterSpec) : Prop := ∃ table column op, spec.Names table column op

/-- The values of a filter are, on the payload, a key that is not empty, and then scalars:
one of them, or for `IN` at least one and no more than the limit allows. -/
structure Fits (limits : Limits) (spec : FilterSpec) : Prop where
  key : spec.onPayload = true → ∃ key rest, spec.values = .string key :: rest ∧ key ≠ ""
  scalars : ∀ v ∈ spec.operands, v.isScalar = true
  single : spec.operator ≠ "IN" → spec.operands.length = 1
  list : spec.operator = "IN" → spec.operands ≠ [] ∧
    (0 < limits.maxInValues → spec.operands.length ≤ limits.maxInValues)

end FilterSpec

namespace Filter

theorem resolve_of_names {spec : FilterSpec} {table : TargetTable} {column : Column}
    {op : Operator} (h : spec.Names table column op) :
    resolve spec = .ok ⟨table, column, op, spec.values⟩ := by
  have hcolumn : table.columnName column = .ok column.physical := if_pos h.has
  rw [resolve, ← h.targetTable, ← h.targetColumn, ← h.operator]
  rw [Named.resolve_name, Named.resolve_name, Named.resolve_name]
  change (table.columnName column >>= _) = _
  rw [hcolumn]
  rfl

theorem names_of_resolve {spec : FilterSpec} {f : Filter} (h : resolve spec = .ok f) :
    spec.Names f.table f.column f.operator := by
  obtain ⟨htable, hcolumn, hoperator, hhas, -⟩ := resolve_eq_ok h
  exact ⟨htable, hcolumn, hoperator, hhas⟩

theorem predicate_fails {f : Filter} (h : f.table.has f.column = true) :
    FailsOnly IsMalformed f.predicate := by
  have hcolumn : f.table.columnName f.column = .ok f.column.physical := if_pos h
  rw [predicate, columnRef, hcolumn]
  refine FailsOnly.bind ?_ fun column _ => f.operand_fails.bind fun operand _ => .ok _
  refine f.payloadKey_fails.bind fun key _ => ?_
  cases key with
  | some key => exact .ok _
  | none => exact .ok _

theorem exists_payloadKey_iff (f : Filter) :
    (∃ key, f.payloadKey = .ok key) ↔
      (f.onPayload = true → ∃ key rest, f.values = .string key :: rest ∧ key ≠ "") := by
  unfold payloadKey
  split
  next hpayload =>
    simp only [hpayload, forall_const]
    split
    next key rest hvalues =>
      simp only [hvalues, List.cons.injEq, Value.string.injEq]
      split
      next hempty =>
        have : key = "" := by simpa using hempty
        simp_all
      next hempty =>
        have : key ≠ "" := by simpa using hempty
        simp_all
    next hvalues =>
      constructor
      · rintro ⟨key, hkey⟩
        cases hkey
      · rintro ⟨key, rest, hkey, -⟩
        exact absurd hkey (hvalues key rest)
  next hpayload => simp [hpayload]

theorem exists_operand_iff (f : Filter) :
    (∃ operand, f.operand = .ok operand) ↔
      (∃ key, f.payloadKey = .ok key) ∧ (∀ v ∈ f.operandValues, v.isScalar = true) ∧
        (f.operator ≠ .isIn → f.operandValues.length = 1) ∧
        (f.operator = .isIn → f.operandValues ≠ []) := by
  constructor
  · rintro ⟨operand, h⟩
    obtain ⟨key, hkey, -⟩ := bind_eq_ok h
    obtain ⟨hscalars, ⟨hop, hne, -⟩ | ⟨hop, v, hv, -⟩⟩ := operand_eq_ok h
    · exact ⟨⟨key, hkey⟩, hscalars, fun hnot => absurd hop hnot, fun _ => hne⟩
    · exact ⟨⟨key, hkey⟩, hscalars, fun _ => by rw [hv]; rfl, fun hin => absurd hin hop⟩
  · rintro ⟨⟨key, hkey⟩, hscalars, hsingle, hlist⟩
    have hchecked := requireScalars_of_isScalar hscalars
    rw [operand, hkey]
    change ∃ operand, (requireScalars f.operandValues >>= fun _ => _) = Except.ok operand
    rw [hchecked]
    by_cases hop : f.operator = .isIn
    · obtain ⟨v, vs, hvalues⟩ := List.exists_cons_of_ne_nil (hlist hop)
      rw [hop, hvalues]
      exact ⟨_, rfl⟩
    · obtain ⟨v, hv⟩ := List.length_eq_one_iff.1 (hsingle hop)
      rw [hv]
      generalize f.operator = op at hop
      cases op with
      | isIn => exact absurd rfl hop
      | equal | contains | beginsWith | endsWith => exact ⟨_, rfl⟩

end Filter

namespace FilterSpec

variable {limits : Limits} {spec : FilterSpec}

theorem lists_within_iff :
    (∀ count ∈ spec.lists, withinLimit limits.maxInValues count = true) ↔
      (spec.operator = "IN" →
        (0 < limits.maxInValues → spec.operands.length ≤ limits.maxInValues)) := by
  unfold lists
  split
  next hop => simp [hop, withinLimit_iff]
  next hop => simp [hop]

/-- With its names in the catalog, a filter is accepted if and only if its values fit. -/
theorem exists_check_iff {table : TargetTable} {column : Column} {op : Operator}
    (h : spec.Names table column op) :
    (∃ p, spec.check limits = .ok p) ↔ spec.Fits limits := by
  have hresolve := Filter.resolve_of_names h
  have hpayload := onPayload_of_resolve hresolve
  have hoperands := operands_of_resolve hresolve
  have hin : op = .isIn ↔ spec.operator = "IN" := by
    rw [← h.operator]
    exact ⟨fun heq => by rw [heq]; rfl, fun heq => Named.name_injective (b := Operator.isIn) heq⟩
  have hoperand := Filter.exists_operand_iff ⟨table, column, op, spec.values⟩
  rw [Filter.exists_payloadKey_iff, ← hpayload, ← hoperands] at hoperand
  simp only [ne_eq, hin] at hoperand
  constructor
  · rintro ⟨p, hp⟩
    obtain ⟨f, hf, hp⟩ := bind_eq_ok hp
    rw [hresolve] at hf
    cases hf
    obtain ⟨operand, hok, hp⟩ := bind_eq_ok hp
    obtain ⟨_, hlength, -⟩ := bind_eq_ok hp
    obtain ⟨hkey, hscalars, hsingle, hlist⟩ := hoperand.1 ⟨operand, hok⟩
    rw [checkLength_of_operand hresolve hok, checkLists_eq_ok_iff, lists_within_iff] at hlength
    exact ⟨hkey, hscalars, hsingle, fun hop => ⟨hlist hop, hlength hop⟩⟩
  · intro hfits
    obtain ⟨operand, hok⟩ := hoperand.2
      ⟨hfits.key, hfits.scalars, hfits.single, fun hop => (hfits.list hop).1⟩
    obtain ⟨p, hp⟩ := Filter.exists_predicate h.has hok
    have hlength : operand.checkLength limits = .ok () := by
      rw [checkLength_of_operand hresolve hok, checkLists_eq_ok_iff, lists_within_iff]
      exact fun hop => (hfits.list hop).2
    refine ⟨p, ?_⟩
    rw [check, hresolve]
    change (Filter.operand _ >>= _) = _
    rw [hok]
    change (operand.checkLength limits >>= _) = _
    rw [hlength]
    exact hp

/-- A name decides before the values do, and what a filter is refused for says which of
the two it was. -/
theorem check_fails (limits : Limits) (spec : FilterSpec) :
    (¬ spec.InCatalog → ∃ e, spec.check limits = .error e ∧ e.IsUnknown) ∧
      (spec.InCatalog → ¬ spec.Fits limits →
        ∃ e, spec.check limits = .error e ∧ e.IsMalformed) := by
  constructor
  · intro hnames
    cases hresolve : Filter.resolve spec with
    | ok f => exact absurd ⟨_, _, _, Filter.names_of_resolve hresolve⟩ hnames
    | error e =>
      refine ⟨e, ?_, Filter.resolve_fails spec e hresolve⟩
      rw [check, hresolve]
      rfl
  · rintro ⟨table, column, op, hnames⟩ hfits
    have hresolve := Filter.resolve_of_names hnames
    cases hcheck : spec.check limits with
    | ok p => exact absurd ((exists_check_iff hnames).1 ⟨p, hcheck⟩) hfits
    | error e =>
      refine ⟨e, rfl, ?_⟩
      have hfails : FailsOnly IsMalformed (spec.check limits) := by
        rw [check, hresolve]
        refine (Filter.operand_fails _).bind fun operand _ => ?_
        exact (operand.checkLength_fails limits).bind fun _ _ => Filter.predicate_fails hnames.has
      exact hfails e hcheck

def writtenColumn (style : Style) (spec : FilterSpec) (table : TargetTable)
    (column : Column) : String :=
  match spec.payloadKeys with
  | [] => table.aliasName ++ "." ++ column.physical
  | key :: _ =>
    "r.\"data\" ->> " ++ String.ofList (style.inlineQuoting.wrap singleQuote key) ++ "::TEXT"

theorem text_column {p : Predicate} (h : spec.Yields p) {table : TargetTable} {column : Column}
    {op : Operator} (hnames : spec.Names table column op) (style : Style) :
    p.column.fragment.text style = spec.writtenColumn style table column := by
  rw [writtenColumn, payloadKeys]
  rcases h.column with
    ⟨hpayload, t, c, htable, hcolumn, href⟩ | ⟨hpayload, key, rest, hvalues, href⟩
  · obtain rfl : t = table := Named.name_injective (htable.trans hnames.targetTable.symm)
    obtain rfl : c = column := Named.name_injective (hcolumn.trans hnames.targetColumn.symm)
    rw [href, hpayload, ColumnRef.fragment, Fragment.text_fixed, Fragment.text_nil,
      String.append_empty]
    rfl
  · rw [href, hpayload, hvalues, ColumnRef.fragment, Fragment.text_fixed]
    rw [← String.toList_inj]
    simp [Fragment.text, Sql.Piece.chars]

theorem text_layout {p : Predicate} (h : spec.Yields p) {table : TargetTable} {column : Column}
    {op : Operator} (hnames : spec.Names table column op) (style : Style) (n : Nat) :
    (p.layout n).text style = spec.writtenColumn style table column ++ op.frame.1 ++
      style.writtenValues n spec.boundValues ++ op.frame.2 := by
  have hop : p.operator = op := Named.name_injective (h.operator.trans hnames.operator.symm)
  rw [Predicate.layout, Fragment.text_append, text_column h hnames, Operator.around,
    List.cons_append, Fragment.text_fixed, Fragment.text_append, Sql.Style.text_valuesAt,
    Fragment.text_fixed, Fragment.text_nil, String.append_empty, hop, h.bound]
  simp only [String.append_assoc]

end FilterSpec

/-- What the template of an operator shows in the place of its values: a marker, with the
quotes and wildcards of a pattern around it. -/
def Operator.slot : Operator → String
  | .equal => "@@VALUE@@"
  | .contains => "'%@@VALUE@@%'"
  | .beginsWith => "'@@VALUE@@%'"
  | .endsWith => "'%@@VALUE@@'"
  | .isIn => "@@VALUES@@"

theorem Operator.template_eq (op : Operator) :
    op.template = op.frame.1 ++ op.slot ++ op.frame.2 := by
  cases op <;> rfl

namespace SearchRequest

theorem check_ofFilter {projectId : String} (h : Text.allBlank projectId = false)
    (limits : Limits) (spec : FilterSpec) :
    (ofFilter projectId spec).check limits =
      (spec.check limits).map fun p => ⟨projectId, [p], [], {}, none, none⟩ := by
  have hrequest : checkRequest limits (ofFilter projectId spec) = .ok () :=
    checkRequest_eq_ok_iff.2 ⟨h, withinLimit_iff.2 fun hpos => hpos⟩
  rw [check, hrequest]
  change ([spec].mapM (FilterSpec.check limits) >>= _) = _
  rw [List.mapM_cons]
  cases spec.check limits <;> rfl

end SearchRequest

namespace Config

/-- What is built for a filter alone: the condition is all that the plan holds. -/
theorem build_ofFilter {projectId : String} (h : Text.allBlank projectId = false)
    (config : Config) (dialect : Sql.Dialect) (spec : FilterSpec) :
    config.build dialect (.ofFilter projectId spec) =
      (spec.check config.limits).map fun p =>
        ⟨Plan.written (config.style dialect) p.bound.length
            { projectId, filters := [p.layout 0] },
          (config.style dialect).params (p.bound ++ [.string projectId])⟩ := by
  rw [build_eq, SearchRequest.check_ofFilter h]
  cases spec.check config.limits with
  | error e => rfl
  | ok p =>
    have hbound : AcceptedRequest.elementValues ⟨projectId, [p], [], {}, none, none⟩ = p.bound := by
      simp [AcceptedRequest.elementValues]
    simp only [Except.map, AcceptedRequest.text_layout, AcceptedRequest.bound, hbound]
    rfl

/-- A filter alone is accepted if and only if its names are in the catalog and its values
fit. If it is refused, the error says which of the two it was for, names first. If it is
accepted, its condition is the column and the template of the operator, with exactly its
operands in the slot, and these are what is bound before the project. -/
theorem build_filter_exact {projectId : String} (h : Text.allBlank projectId = false)
    (config : Config) (dialect : Sql.Dialect) (spec : FilterSpec) :
    ((∃ compiled, config.build dialect (.ofFilter projectId spec) = .ok compiled) ↔
      spec.InCatalog ∧ spec.Fits config.limits) ∧
    (¬ spec.InCatalog → ∃ kind name,
      config.build dialect (.ofFilter projectId spec) = .error (.unknown kind name)) ∧
    (spec.InCatalog → ¬ spec.Fits config.limits → ∃ cause,
      config.build dialect (.ofFilter projectId spec) = .error (.malformed cause)) ∧
    ∀ table column op, spec.Names table column op → spec.Fits config.limits →
      ∃ condition : Fragment,
        config.build dialect (.ofFilter projectId spec) =
          .ok ⟨Plan.written (config.style dialect) spec.boundValues.length
              { projectId, filters := [condition] },
            (config.style dialect).params (spec.boundValues ++ [.string projectId])⟩ ∧
        condition.text (config.style dialect) =
          spec.writtenColumn (config.style dialect) table column ++ op.frame.1 ++
            (config.style dialect).writtenValues 0 spec.boundValues ++ op.frame.2 ∧
        op.template = op.frame.1 ++ op.slot ++ op.frame.2 := by
  have hbuild := build_ofFilter h config dialect spec
  obtain ⟨hunknown, hmalformed⟩ := FilterSpec.check_fails config.limits spec
  have haccepted : ∀ {p}, spec.check config.limits = .ok p → spec.InCatalog := by
    intro p hp
    obtain ⟨f, hresolve, -⟩ := bind_eq_ok hp
    exact ⟨_, _, _, Filter.names_of_resolve hresolve⟩
  refine ⟨⟨?_, ?_⟩, fun hnames => ?_, fun hnames hfits => ?_,
    fun table column op hnames hfits => ?_⟩
  · rintro ⟨compiled, hok⟩
    obtain ⟨c, hcheck, -⟩ := build_eq_ok hok
    rw [SearchRequest.check_ofFilter h] at hcheck
    cases hp : spec.check config.limits with
    | error e =>
      rw [hp] at hcheck
      cases hcheck
    | ok p =>
      obtain ⟨table, column, op, hnames⟩ := haccepted hp
      exact ⟨haccepted hp, (FilterSpec.exists_check_iff hnames).1 ⟨p, hp⟩⟩
  · rintro ⟨⟨table, column, op, hnames⟩, hfits⟩
    obtain ⟨p, hp⟩ := (FilterSpec.exists_check_iff hnames).2 hfits
    rw [hbuild, hp]
    exact ⟨_, rfl⟩
  · obtain ⟨e, he, kind, name, rfl⟩ := hunknown hnames
    rw [hbuild, he]
    exact ⟨kind, name, rfl⟩
  · obtain ⟨e, he, cause, rfl⟩ := hmalformed hnames hfits
    rw [hbuild, he]
    exact ⟨cause, rfl⟩
  · obtain ⟨p, hp⟩ := (FilterSpec.exists_check_iff hnames).2 hfits
    have hyields := FilterSpec.yields_of_check hp
    rw [hbuild, hp, ← hyields.bound]
    refine ⟨p.layout 0, rfl, ?_, op.template_eq⟩
    rw [hyields.bound]
    exact FilterSpec.text_layout hyields hnames _ 0

def byKey (op : String) (operands : List Value) : FilterSpec :=
  ⟨"RECORD", "DATA", op, .string "it's" :: operands⟩

/-- The key is spelled out and no operand; alone, it is no operand. -/
theorem build_filter_by_key :
    Text.allBlank "p" = false ∧
      (∃ sql condition,
        build { mode := .parameterized } .postgres
            (.ofFilter "p" (byKey "IN" [.number (.int 1), .bool true])) =
          .ok ⟨sql, [.number (.int 1), .bool true, .string "p"]⟩ ∧
        Fragment.text ⟨.parameterized, .verbatim, .postgres⟩ condition =
          "r.\"data\" ->> 'it''s'::TEXT IN ($1, $2)" ∧
        sql = Plan.written ⟨.parameterized, .verbatim, .postgres⟩ 2
          { projectId := "p", filters := [condition] }) ∧
      ∃ cause, build {} .postgres (.ofFilter "p" (byKey "EQUAL" [])) =
        .error (.malformed cause) := by
  have hproject : Text.allBlank "p" = false := by decide
  have hnames : ∀ operands, (byKey "IN" operands).Names .record .data .isIn :=
    fun _ => ⟨rfl, rfl, rfl, rfl⟩
  have hfits : (byKey "IN" [.number (.int 1), .bool true]).Fits {} :=
    ⟨fun _ => ⟨_, _, rfl, by decide⟩, by decide, fun hop => absurd rfl hop,
      fun _ => ⟨List.cons_ne_nil _ _, fun hpos => absurd hpos (by decide)⟩⟩
  obtain ⟨condition, hbuild, htext, -⟩ :=
    (build_filter_exact hproject { mode := .parameterized } .postgres _).2.2.2 _ _ _
      (hnames _) hfits
  refine ⟨hproject, ⟨_, condition, hbuild, htext, rfl⟩, ?_⟩
  have hequal : (byKey "EQUAL" []).InCatalog := ⟨.record, .data, .equal, rfl, rfl, rfl, rfl⟩
  have hnone : ¬ (byKey "EQUAL" []).Fits {} := fun h => absurd (h.single (by decide)) (by decide)
  exact (build_filter_exact hproject {} .postgres _).2.2.1 hequal hnone

end Config

end RecordSearch
