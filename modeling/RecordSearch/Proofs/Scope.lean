import RecordSearch.Proofs.Planned
import RecordSearch.Proofs.Qualifier

/-!
# Aliases in scope

Outside its FROM clause a statement refers to tables by aliases. Those of the
records, of the subqueries and of the join for sorting are in scope. The alias of
the associations is not: no FROM clause joins their table under that name, so each
filter on an association leaves one alias behind that nothing introduces.
-/
namespace RecordSearch

open Json (Value)
open Sql (Bindings Fragment Pending Style isQuote isName isNameChar qualifiers?)
open Sql.Fragment (Qualifies Breaks qualifies_nil qualifies_fixed qualifies_qualified
  qualifies_valuesAt breaks_nil breaks_fixed)
open Sql.Binder (valuesAt)

/-- The texts of a plan that refer to what its FROM clause introduces. -/
def Plan.outer (plan : Plan) : List Fragment :=
  plan.filters ++ plan.select ++ plan.orderBy.toList

/-- The aliases that the FROM clause of a plan introduces. -/
def Plan.scope (plan : Plan) : List String :=
  "r" :: plan.joins.map Join.aliasName ++ if plan.orderJoin.isSome then ["order_rla"] else []

def FilterSpec.aliasName (spec : FilterSpec) : String :=
  if spec.targetTable = "RECORD_LABEL_ASSOCIATION" then "rla" else "r"

variable {style : Style}

namespace Sql.Fragment

variable {f : Fragment} {names : List String}

theorem chars_payload (hsafe : style.Safe) (f : Fragment) :
    chars style (.fixed "r.\"data\" ->> " :: f) =
      chars style (.fixed "r." :: .ident "data" :: .fixed " ->> " :: f) := by
  simp only [chars_cons, Piece.chars, hsafe.inlineQuoting]
  rfl

theorem qualifies_payload (hsafe : style.Safe) (key : String)
    (hf : Qualifies style .nothing f names) (hbreaks : Breaks style f) :
    Qualifies style .nothing (.fixed "r.\"data\" ->> " :: .key key :: f) ("r" :: names) := by
  have hkey : Qualifies style .nothing (.fixed " ->> " :: .key key :: f) names :=
    qualifies_fixed (by decide) (qualifies_key hsafe key _ hf hbreaks)
  rw [Qualifies, chars_payload hsafe]
  exact qualifies_fixed (by decide)
    (qualifies_ident hsafe "data" _ hkey (breaks_fixed (by decide) _))

end Sql.Fragment

theorem TargetTable.qualifies_column (t : TargetTable) (c : Column) {f : Fragment}
    {names : List String} (hf : Qualifies style .nothing f names) (hbreaks : Breaks style f) :
    Qualifies style .nothing (.fixed (t.aliasName ++ "." ++ c.physical) :: f)
      (t.aliasName :: names) := by
  have hname : isName t.aliasName.toList = true := by cases t <;> decide
  have hphysical : c.physical.toList.all (fun d => !isQuote d && d != '.') = true := by
    cases c <;> decide
  exact qualifies_qualified (by simp) hname hphysical hf hbreaks

namespace Operator

theorem qualifies_around (op : Operator) (hsafe : style.Safe) {vs : List Value}
    (hscalars : ∀ v ∈ vs, v.isScalar = true) (n : Nat) :
    Qualifies style .nothing (op.around (valuesAt n vs)) [] := by
  have hclose : Qualifies style .nothing [.fixed op.frame.2] [] ∧
      Breaks style [.fixed op.frame.2] := by
    cases op with
    | isIn =>
      exact ⟨qualifies_fixed (by decide) (qualifies_nil _ _), breaks_fixed (by decide) _⟩
    | equal | contains | beginsWith | endsWith =>
      exact ⟨qualifies_fixed (by decide) (qualifies_nil _ _), fun c hc => by cases hc⟩
  have hvalues := qualifies_valuesAt hsafe hscalars n hclose.1 hclose.2
  cases op <;> exact qualifies_fixed (by decide) hvalues

theorem breaks_around (op : Operator) (f : Fragment) : Breaks style (op.around f) := by
  cases op <;> exact breaks_fixed (by decide) _

end Operator

/-- A condition names the table of its filter, and no other. -/
theorem FilterSpec.Yields.qualifies {spec : FilterSpec} {p : Predicate} (h : spec.Yields p)
    (hsafe : style.Safe) (n : Nat) :
    Qualifies style .nothing (p.layout n) [spec.aliasName] := by
  have hop := p.operator.qualifies_around hsafe h.scalars n
  have hbreaks : Breaks style (p.operator.around (valuesAt n p.bound)) :=
    p.operator.breaks_around _
  rw [Predicate.layout]
  rcases h.column with ⟨-, t, c, htable, -, hcolumn⟩ | ⟨hpayload, key, rest, -, hcolumn⟩
  · have halias : spec.aliasName = t.aliasName := by
      rw [FilterSpec.aliasName, ← htable]
      cases t <;> rfl
    rw [hcolumn, halias]
    exact t.qualifies_column c hop hbreaks
  · have halias : spec.aliasName = "r" := by
      simp only [FilterSpec.onPayload, Bool.and_eq_true, decide_eq_true_eq] at hpayload
      rw [FilterSpec.aliasName, hpayload.1]
      rfl
    rw [hcolumn, halias]
    exact Sql.Fragment.qualifies_payload hsafe key
      (qualifies_fixed (by decide) (hop.of_breaks hbreaks _)) (breaks_fixed (by decide) _)

theorem isName_subqueryAlias (index : Nat) : isName (subqueryAlias index).toList = true := by
  have hdigits : (Nat.toDigits 10 index).all isNameChar = true :=
    List.all_eq_true.2 fun c hc => by
      simp [isNameChar, Char.isAlphanum, Json.isDigit_of_mem_decimal hc]
  have htext : (subqueryAlias index).toList = 's' :: 'q' :: '_' :: Nat.toDigits 10 index := by
    simp [subqueryAlias, decimal]
  rw [htext]
  exact hdigits

theorem AcceptedRequest.aliasName_of_mem_joins {c : AcceptedRequest} {n : Nat} {j : Join}
    (hj : j ∈ c.joins n) : ∃ index, j.aliasName = subqueryAlias index := by
  obtain ⟨⟨f, index⟩, -, m, rfl⟩ := Sql.exists_of_mem_layoutAll hj
  exact ⟨index, rfl⟩

theorem Join.qualifies_absence {j : Join} {f : Fragment} (hname : isName j.aliasName.toList = true)
    (h : j.absence? = some f) : Qualifies style .nothing f [j.aliasName] := by
  unfold Join.absence? at h
  split at h
  next =>
    obtain rfl := Option.some.inj h
    have htext : (j.aliasName ++ ".rID IS NULL").toList =
        j.aliasName.toList ++ '.' :: "rID IS NULL".toList := by
      rw [String.toList_append]
      rfl
    exact qualifies_qualified htext hname (by decide) (qualifies_nil _ _) (breaks_nil _)
  next => cases h

namespace Order

theorem qualifies_sorted (order : Order) {target : Fragment} {names : List String}
    (h : ∀ f, Qualifies style .nothing f [] → Breaks style f →
      Qualifies style .nothing (target ++ f) names) :
    Qualifies style .nothing (order.sorted target) names := by
  apply h
  · cases order.direction <;> exact qualifies_fixed (by decide) (qualifies_nil _ _)
  · cases order.direction <;> exact breaks_fixed (by decide) _

/-- The name of a selected attribute qualifies nothing unless a point follows. -/
theorem qualifies_payloadAlias (hsafe : style.Safe) (key : String) (word : Pending) {f : Fragment}
    {names : List String} (hf : Qualifies style .nothing f names) (hbreaks : Breaks style f) :
    Qualifies style word (payloadAlias key ++ f) names :=
  Sql.Fragment.qualifies_ident hsafe _ word hf hbreaks

theorem qualifies_payloadItem (hsafe : style.Safe) (dataType : DataType) (key : String) :
    Qualifies style .nothing (payloadItem dataType key) ["r"] := by
  have htail : Qualifies style .nothing (.fixed " " :: payloadAlias key) [] :=
    qualifies_fixed (by decide) (qualifies_payloadAlias hsafe key _ (qualifies_nil _ _)
      (breaks_nil _))
  cases dataType with
  | category | text | boolean | unknown =>
    exact Sql.Fragment.qualifies_payload hsafe key htail (breaks_fixed (by decide) _)
  | integer | float =>
    exact qualifies_fixed (by decide) (Sql.Fragment.qualifies_payload hsafe key
      (qualifies_fixed (by decide) (htail.of_breaks (breaks_fixed (by decide) _) _))
      (breaks_fixed (by decide) _))

theorem qualifies_aggregate (direction : SortDirection) {f : Fragment} {names : List String}
    (hf : Qualifies style .nothing f names) (hbreaks : Breaks style f) :
    Qualifies style .nothing
      (.fixed (direction.aggregate ++ "_" ++ Column.confidence.physical) :: f) names := by
  cases direction <;> exact qualifies_fixed (by decide) (hf.of_breaks hbreaks _)

/-- What an order selects and sorts on is found in the records, or has no qualifier. -/
theorem qualifies_layout {order : Order} {key : String} (hsafe : style.Safe) :
    ∀ f ∈ (order.layout key).select ++ (order.layout key).expression.toList,
      ∃ names, Qualifies style .nothing f names ∧ ∀ name ∈ names, name = "r" := by
  obtain ⟨okey, payloadKey, direction, dataType⟩ := order
  have hrecords : ∀ name ∈ ["r"], name = "r" := by simp
  have hnone : ∀ name ∈ ([] : List String), name = "r" := by simp
  intro f hf
  cases okey with
  | recordData =>
    obtain rfl | rfl : f = payloadItem dataType key ∨ f = _ := by simpa [layout] using hf
    · exact ⟨_, qualifies_payloadItem hsafe dataType key, hrecords⟩
    · exact ⟨_, qualifies_sorted _ fun g => qualifies_payloadAlias hsafe key _, hnone⟩
  | recordId | recordCreatedAt =>
    obtain rfl : f = _ := by simpa [layout] using hf
    exact ⟨_, qualifies_sorted _ fun g => TargetTable.record.qualifies_column _, hrecords⟩
  | weakSupervisionConfidence | modelCallbackConfidence =>
    obtain rfl | rfl : f = _ ∨ f = _ := by simpa [layout] using hf
    · exact ⟨_, qualifies_aggregate direction (qualifies_nil _ _) (breaks_nil _), hnone⟩
    · exact ⟨_, qualifies_sorted _ fun g => qualifies_aggregate direction, hnone⟩

end Order

theorem Plan.r_mem_scope (plan : Plan) : "r" ∈ plan.scope := List.mem_cons_self

theorem Plan.mem_scope_of_join {plan : Plan} {j : Join} (hj : j ∈ plan.joins) :
    j.aliasName ∈ plan.scope :=
  List.mem_cons_of_mem _ (List.mem_append_left _ (List.mem_map_of_mem hj))

theorem exists_qualifiers_in {scope : List String} {fs : List Fragment}
    (h : ∀ f ∈ fs, ∃ names, Qualifies style .nothing f names ∧ ∀ name ∈ names, name ∈ scope) :
    ∃ names : List (List String),
      (fs.map fun f => qualifiers? (Fragment.text style f)) = names.map some ∧
        ∀ name ∈ names.flatten, name ∈ scope := by
  induction fs with
  | nil => exact ⟨[], rfl, fun name hname => by cases hname⟩
  | cons f fs ih =>
    obtain ⟨hf, hfs⟩ := List.forall_mem_cons.1 h
    obtain ⟨first, hqualifies, hfirst⟩ := hf
    obtain ⟨rest, hmap, hrest⟩ := ih hfs
    refine ⟨first :: rest, ?_, ?_⟩
    · rw [List.map_cons, List.map_cons, hqualifies.qualifiers?_text, hmap]
    · rw [List.flatten_cons, List.forall_mem_append]
      exact ⟨hfirst, hrest⟩

namespace SearchRequest

variable {limits : Limits} {request : SearchRequest} {c : AcceptedRequest}

theorem Yields.qualifiers_conditions (h : request.Yields limits c) (hsafe : style.Safe) (n : Nat) :
    (c.conditions n).map (fun f => qualifiers? (Fragment.text style f)) =
      (request.filters.map fun spec => [spec.aliasName]).map some := by
  rw [List.map_map]
  exact h.map_conditions (fun spec p hcheck m =>
    ((FilterSpec.yields_of_check hcheck).qualifies hsafe m).qualifiers?_text) n

/-- What a plan names outside its FROM clause: for each filter the alias of its table,
and else only what is in scope. -/
theorem Yields.qualifiers_outer (h : request.Yields limits c) (hsafe : style.Safe) (n : Nat) :
    ∃ rest : List (List String),
      ((c.plan n).outer.map fun f => qualifiers? (Fragment.text style f)) =
          ((request.filters.map fun spec => [spec.aliasName]) ++ rest).map some ∧
        ∀ name ∈ rest.flatten, name ∈ (c.plan n).scope := by
  have horder : ∀ f ∈ c.order.select ++ c.order.expression.toList,
      ∃ names, Qualifies style .nothing f names ∧ ∀ name ∈ names, name = "r" := by
    rcases h.orderParts with ⟨-, hnone⟩ | ⟨spec, order, key, -, -, hlayout⟩
    · rw [hnone]
      exact fun f hf => by cases hf
    · rw [hlayout]
      exact Order.qualifies_layout hsafe
  have hscoped : ∀ f ∈ (c.plan n).joins.filterMap Join.absence? ++
        (c.order.select ++ c.order.expression.toList),
      ∃ names, Qualifies style .nothing f names ∧ ∀ name ∈ names, name ∈ (c.plan n).scope := by
    intro f hf
    rcases List.mem_append.1 hf with hf | hf
    · obtain ⟨j, hj, habsence⟩ := List.mem_filterMap.1 hf
      obtain ⟨index, halias⟩ := AcceptedRequest.aliasName_of_mem_joins hj
      have hname : isName j.aliasName.toList = true := halias ▸ isName_subqueryAlias index
      refine ⟨_, Join.qualifies_absence hname habsence, fun name hmem => ?_⟩
      rw [List.mem_singleton.1 hmem]
      exact Plan.mem_scope_of_join hj
    · obtain ⟨names, hqualifies, hrecords⟩ := horder f hf
      exact ⟨names, hqualifies, fun name hmem => hrecords name hmem ▸ Plan.r_mem_scope _⟩
  obtain ⟨rest, hmap, hrest⟩ := exists_qualifiers_in hscoped
  refine ⟨rest, ?_, hrest⟩
  have houter : (c.plan n).outer = c.conditions n ++ ((c.plan n).joins.filterMap Join.absence? ++
      (c.order.select ++ c.order.expression.toList)) := by
    simp only [Plan.outer, AcceptedRequest.plan, List.append_assoc]
  rw [houter, List.map_append, h.qualifiers_conditions hsafe, hmap, ← List.map_append]

theorem rla_notMem_scope (c : AcceptedRequest) (n : Nat) : "rla" ∉ (c.plan n).scope := by
  rw [Plan.scope, List.cons_append, List.mem_cons, List.mem_append, not_or, not_or]
  refine ⟨by decide, fun hmem => ?_, ?_⟩
  · obtain ⟨j, hj, halias⟩ := List.mem_map.1 hmem
    obtain ⟨index, hindex⟩ := AcceptedRequest.aliasName_of_mem_joins hj
    have hchars := congrArg String.toList (hindex.symm.trans halias)
    simp [subqueryAlias] at hchars
  · split <;> decide

/-- The aliases of filters that are not in scope are those of the associations. -/
theorem filter_aliasName {scope : List String} (hrecords : "r" ∈ scope)
    (hassociations : "rla" ∉ scope) (specs : List FilterSpec) :
    (specs.map FilterSpec.aliasName).filter (· ∉ scope) =
      (specs.filter fun spec => spec.targetTable = "RECORD_LABEL_ASSOCIATION").map
        fun _ => "rla" := by
  induction specs with
  | nil => rfl
  | cons spec specs ih =>
    rw [List.map_cons, List.filter_cons, List.filter_cons, ih, FilterSpec.aliasName]
    by_cases htable : spec.targetTable = "RECORD_LABEL_ASSOCIATION"
    · simp [htable, hassociations]
    · simp [htable, hrecords]

/-- The names that qualify columns in the conditions, the selection and the order of a
plan are in scope, but for one `rla` for each filter on the associations. So all are in
scope exactly for a request without such filters. -/
theorem plan_in_scope_iff {bound bound' : Bindings} {plan : Plan}
    (h : (request.plan limits).runOn bound = (.ok plan, bound')) (hsafe : style.Safe) :
    ∃ names : List (List String),
      (plan.outer.map fun f => qualifiers? (Fragment.text style f)) = names.map some ∧
        names.flatten.filter (· ∉ plan.scope) =
          (request.filters.filter fun spec =>
            spec.targetTable = "RECORD_LABEL_ASSOCIATION").map (fun _ => "rla") ∧
        ((∀ name ∈ names.flatten, name ∈ plan.scope) ↔
          ∀ spec ∈ request.filters, spec.targetTable ≠ "RECORD_LABEL_ASSOCIATION") := by
  obtain ⟨c, hcheck, rfl⟩ := plan_eq_ok h
  have hyields := yields_of_check hcheck
  obtain ⟨rest, hnames, hrest⟩ := hyields.qualifiers_outer hsafe bound.length
  have hflatten : ((request.filters.map fun spec => [spec.aliasName]) ++ rest).flatten =
      request.filters.map FilterSpec.aliasName ++ rest.flatten := by
    rw [List.flatten_append, ← List.flatMap_def, ← List.map_eq_flatMap]
  have hfilter : (request.filters.map FilterSpec.aliasName ++ rest.flatten).filter
        (· ∉ (c.plan bound.length).scope) =
      (request.filters.filter fun spec => spec.targetTable = "RECORD_LABEL_ASSOCIATION").map
        fun _ => "rla" := by
    have hnone : rest.flatten.filter (· ∉ (c.plan bound.length).scope) = [] :=
      List.filter_eq_nil_iff.2 fun name hname => by simpa using hrest name hname
    rw [List.filter_append, hnone, List.append_nil,
      filter_aliasName (Plan.r_mem_scope _) (rla_notMem_scope c _)]
  refine ⟨_, hnames, by rw [hflatten, hfilter], ?_⟩
  have hall : ∀ names : List String, (∀ name ∈ names, name ∈ (c.plan bound.length).scope) ↔
      names.filter (· ∉ (c.plan bound.length).scope) = [] := by
    simp [List.filter_eq_nil_iff]
  rw [hall, hflatten, hfilter, List.map_eq_nil_iff, List.filter_eq_nil_iff]
  simp

def fromSource (projectId source user : String) : SearchRequest where
  projectId
  filters := [⟨"RECORD_LABEL_ASSOCIATION", "SOURCE_TYPE", "EQUAL", [.string source]⟩]
  subqueries := [⟨"SUBQUERY_RLA_CREATED_BY", [.string user], true⟩]
  order := some { orderBy := "RECORD_CREATED_AT" }

/-- The records and the subquery are in scope, the associations of the filter are not. -/
theorem plan_in_scope_iff_fromSource :
    ∃ plan bound', ((fromSource "p" "MANUAL" "u").plan {}).runOn [] = (.ok plan, bound') ∧
      plan.scope = ["r", "sq_0"] ∧
      ∃ names : List (List String),
        (plan.outer.map fun f => qualifiers? (Fragment.text Sql.literalStyle f)) =
            names.map some ∧
          names.flatten.filter (· ∉ plan.scope) = ["rla"] ∧
          ¬∀ name ∈ names.flatten, name ∈ plan.scope := by
  obtain ⟨c, hcheck⟩ : ∃ c, (fromSource "p" "MANUAL" "u").check {} = .ok c := ⟨_, rfl⟩
  have hrun := plan_writes hcheck []
  obtain ⟨names, hnames, hfilter, hiff⟩ := plan_in_scope_iff hrun Sql.literalStyle_safe
  refine ⟨_, _, hrun, ?_, names, hnames, hfilter, fun hall => ?_⟩
  · cases hcheck
    rfl
  · exact hiff.1 hall _ List.mem_cons_self rfl

end SearchRequest

end RecordSearch
