import RecordSearch.Proofs.Positions

/-!
# Texts that are spelled out

A literal statement has every text of the client between quotes. Which texts these
are, and in which order they stand, is read off the request.
-/
namespace RecordSearch

open Json (Value)
open Sql (Fragment singleQuote doubleQuote usedAt)
open Sql.Binder (valuesAt)

def Json.Value.spelled? : Value → Option (Char × String)
  | .string s => some (singleQuote, s)
  | .null | .bool _ | .number _ | .array _ | .object _ => none

namespace Sql

def Piece.spelled? : Piece → Option (Char × String)
  | .fixed _ => none
  | .value _ v => v.spelled?
  | .key text => some (singleQuote, text)
  | .ident text => some (doubleQuote, text)

namespace Piece

variable {p : Piece}

theorem chars_of_spelled {q : Char × String} (h : p.spelled? = some q) (quoting : Quoting)
    (dialect : Dialect) : p.chars ⟨.literal, quoting, dialect⟩ = quoting.wrap q.1 q.2 := by
  cases p with
  | fixed text => cases h
  | value slot v =>
    cases v with
    | string s =>
      obtain rfl := Option.some.inj h
      rfl
    | null | bool _ | number _ | array _ | object _ => cases h
  | key text | ident text =>
    obtain rfl := Option.some.inj h
    rfl

theorem chars_of_unspelled (h : p.spelled? = none)
    (hscalar : ∀ slot v, p = .value slot v → v.isScalar = true) (quoting quoting' : Quoting)
    (dialect : Dialect) :
    p.chars ⟨.literal, quoting, dialect⟩ = p.chars ⟨.literal, quoting', dialect⟩ := by
  cases p with
  | fixed text => rfl
  | value slot v =>
    have hv := hscalar slot v rfl
    cases v with
    | string s => cases h
    | bool b | number n => rfl
    | null | array _ | object _ => cases hv
  | key text | ident text => cases h

end Piece

namespace Fragment

/-- The texts of the client, bound or not, in the order of the fragment. -/
def spelled (f : Fragment) : List (Char × String) := f.filterMap Piece.spelled?

@[simp] theorem spelled_nil : spelled [] = [] := rfl

theorem spelled_cons (p : Piece) (f : Fragment) :
    spelled (p :: f) = p.spelled?.toList ++ spelled f := by
  rw [spelled, List.filterMap_cons]
  cases p.spelled? <;> rfl

@[simp] theorem spelled_append (f g : Fragment) : spelled (f ++ g) = spelled f ++ spelled g :=
  List.filterMap_append

@[simp] theorem spelled_fixed (text : String) (f : Fragment) :
    spelled (.fixed text :: f) = spelled f := rfl

/-- Where nothing is spelled out in any case, there are the texts among the values. -/
theorem spelled_of_clients {f : Fragment} (h : clients f = []) :
    spelled f = ((slots f).map Prod.snd).filterMap Value.spelled? := by
  induction f with
  | nil => rfl
  | cons p f ih =>
    cases p with
    | fixed text => exact ih h
    | value slot v =>
      have hslots : slots (.value slot v :: f) = (slot, v) :: slots f := rfl
      rw [spelled_cons, ih h, hslots, List.map_cons, List.filterMap_cons, Piece.spelled?]
      cases v.spelled? <;> rfl
    | key text | ident text => cases h

end Fragment

theorem spelled_valuesAt (n : Nat) (vs : List Value) :
    Fragment.spelled (valuesAt n vs) = vs.filterMap Value.spelled? := by
  rw [Fragment.spelled_of_clients (clients_valuesAt n vs), slots_valuesAt, map_snd_usedAt]

end Sql

/-- The keys of a filter, then its operands as they are bound. -/
def FilterSpec.spelledTexts (spec : FilterSpec) : List (Char × String) :=
  spec.payloadKeys.map (fun key => (singleQuote, key)) ++
    spec.boundValues.filterMap Value.spelled?

namespace SearchRequest

def orderTexts (request : SearchRequest) : List (Char × String) :=
  request.order.toList.flatMap OrderSpec.keyTexts

/-- The texts of the client in the order of the statement: the key of the order and the
name made of it, the subqueries, the project, the filters, and that name once more. -/
def spelledTexts (request : SearchRequest) : List (Char × String) :=
  request.orderTexts ++
    request.subqueries.flatMap (fun q =>
      (q.textValues request.projectId).filterMap Value.spelled?) ++
    (singleQuote, request.projectId) :: request.filters.flatMap FilterSpec.spelledTexts ++
    request.orderTexts.tail

end SearchRequest

theorem FilterSpec.Yields.spelled {spec : FilterSpec} {p : Predicate} (h : spec.Yields p)
    (n : Nat) : Fragment.spelled (p.layout n) = spec.spelledTexts := by
  have hcolumn : Fragment.spelled p.column.fragment =
      spec.payloadKeys.map fun key => (singleQuote, key) := by
    rw [payloadKeys]
    rcases h.column with ⟨hpayload, t, c, -, -, hcol⟩ | ⟨hpayload, key, rest, hvalues, hcol⟩
    · rw [hcol, hpayload]
      rfl
    · rw [hcol, hpayload, hvalues]
      rfl
  have haround : Fragment.spelled (p.operator.around (valuesAt n p.bound)) =
      p.bound.filterMap Value.spelled? := by
    rw [Operator.around, List.cons_append, Fragment.spelled_fixed, Fragment.spelled_append,
      Sql.spelled_valuesAt]
    exact List.append_nil _
  rw [Predicate.layout, Fragment.spelled_append, hcolumn, haround, h.bound]
  rfl

theorem SubquerySpec.Yields.spelled {spec : SubquerySpec} {f : AssociationFilter}
    (h : spec.Yields f) (projectId : String) (n : Nat) :
    Fragment.spelled (f.subquery projectId n) =
      (spec.textValues projectId).filterMap Value.spelled? := by
  rw [Fragment.spelled_of_clients (AssociationFilter.clients_subquery h.takes projectId n),
    AssociationFilter.values_slots h.takes, h.textValues]

/-- Only an order by a key of the payload spells a text out: the item has the key and its
name, the expression has the name. -/
theorem OrderSpec.Yields.spelled {spec : OrderSpec} {order : Order} {key : String}
    (h : spec.Yields order key) :
    (order.layout key).select.flatMap Fragment.spelled = spec.keyTexts ∧
      (order.layout key).join.toList.flatMap Fragment.spelled = [] ∧
      (order.layout key).expression.toList.flatMap Fragment.spelled = spec.keyTexts.tail := by
  by_cases hdata : order.key = .recordData
  · rw [h.keyTexts hdata, Order.layout, hdata]
    refine ⟨?_, rfl, rfl⟩
    cases order.dataType <;> rfl
  · have hjoin : ∀ direction, Fragment.spelled (QueryTemplate.orderJoin.place
        [("@@ORDER_COLUMNS@@", [.fixed (Order.confidenceColumn direction).text])]) = [] := by
      intro direction
      have hadds : Order.Adds order key _ := .join direction
      have hclients : Fragment.clients _ = [] := List.eq_nil_iff_forall_not_mem.2 fun q hq =>
        hdata (hadds.clients q hq).1
      rw [Fragment.spelled_of_clients hclients, hadds.slots]
      rfl
    rw [h.keyTexts_eq_nil hdata, Order.layout]
    cases hkey : order.key with
    | recordData => exact absurd hkey hdata
    | recordId | recordCreatedAt => exact ⟨rfl, rfl, rfl⟩
    | weakSupervisionConfidence | modelCallbackConfidence =>
      refine ⟨rfl, ?_, rfl⟩
      rw [Option.toList_some, List.flatMap_singleton, hjoin]

namespace SearchRequest.Yields

variable {limits : Limits} {request : SearchRequest} {c : AcceptedRequest}

theorem spelled_order (h : request.Yields limits c) :
    c.order.select.flatMap Fragment.spelled = request.orderTexts ∧
      c.order.join.toList.flatMap Fragment.spelled = [] ∧
      c.order.expression.toList.flatMap Fragment.spelled = request.orderTexts.tail := by
  rw [orderTexts]
  rcases h.orderParts with ⟨hnone, hparts⟩ | ⟨spec, order, key, hspec, hyields, hparts⟩
  · rw [hnone, hparts]
    exact ⟨rfl, rfl, rfl⟩
  · rw [hspec, hparts, Option.toList_some, List.flatMap_singleton]
    exact hyields.spelled

theorem spelled_conditions (h : request.Yields limits c) (n : Nat) :
    (c.conditions n).flatMap Fragment.spelled =
      request.filters.flatMap FilterSpec.spelledTexts := by
  have hconditions : (c.conditions n).map Fragment.spelled =
      request.filters.map FilterSpec.spelledTexts :=
    h.map_conditions (fun _ _ hcheck m => (FilterSpec.yields_of_check hcheck).spelled m) n
  rw [List.flatMap_def, List.flatMap_def, hconditions]

theorem spelled_joins (h : request.Yields limits c) (n : Nat) :
    (c.joins n).flatMap (fun j => Fragment.spelled j.subquery) =
      request.subqueries.flatMap fun q =>
        (q.textValues request.projectId).filterMap Value.spelled? := by
  have hjoins : (c.joins n).map (fun j => Fragment.spelled j.subquery) =
      request.subqueries.map fun q =>
        (q.textValues request.projectId).filterMap Value.spelled? :=
    h.map_subqueries (fun _ _ hcheck m => (SubquerySpec.yields_of_check hcheck).spelled _ m) n
  rw [List.flatMap_def, List.flatMap_def, hjoins]

/-- The statement spells out the texts of its request, and nothing else. -/
theorem spelled_layout (h : request.Yields limits c) (n : Nat) :
    Fragment.spelled (c.layout n) = request.spelledTexts := by
  obtain ⟨hselect, hjoin, hexpression⟩ := h.spelled_order
  have habsences : ∀ joins : List Join,
      (joins.filterMap Join.absence?).flatMap Fragment.spelled = [] := by
    intro joins
    rw [List.flatMap_eq_nil_iff]
    intro f hf
    obtain ⟨j, -, hj⟩ := List.mem_filterMap.1 hf
    rw [Fragment.spelled_of_clients (j.clients_absence hj), j.slots_absence hj]
    rfl
  have hjoins := h.spelled_joins (n + (c.predicates.flatMap Predicate.bound).length)
  have hall : Fragment.spelled (c.layout n) =
      c.order.select.flatMap Fragment.spelled ++
        ((c.plan n).joins.flatMap (fun j => Fragment.spelled j.subquery) ++
          c.order.join.toList.flatMap Fragment.spelled ++
          (singleQuote, c.projectId) ::
            ((c.conditions n ++ (c.plan n).joins.filterMap Join.absence?).flatMap
                Fragment.spelled ++
              c.order.expression.toList.flatMap Fragment.spelled)) :=
    Plan.filterMap_layout (fun _ => rfl) (c.plan n) (n + c.elementValues.length)
  rw [hall, hselect, hjoin, hexpression, List.flatMap_append, habsences, h.spelled_conditions,
    AcceptedRequest.plan, hjoins, h.projectId, spelledTexts]
  simp only [List.append_nil, List.append_assoc, List.cons_append]

end SearchRequest.Yields

end RecordSearch
