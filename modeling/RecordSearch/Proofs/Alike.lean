import RecordSearch.Proofs.Accepted

/-!
# Requests alike

Two requests are alike up to an erasure if they differ only in what it forgets.
When both are accepted, their statements are alike up to it as well, position by
position.
-/
namespace RecordSearch

open Json (Value)
open Sql (Fragment Piece Erasure)
open Sql.Binder (layoutAll)

/-- What is left of a filter by an erasure. -/
def FilterSpec.outline (e : Erasure) (spec : FilterSpec) :
    String × String × String × List String × List Value :=
  (spec.targetTable, spec.targetColumn, spec.operator, spec.payloadKeys.map e.text,
    spec.boundValues.map e.value)

def SubquerySpec.outline (e : Erasure) (spec : SubquerySpec) :
    String × Option Value × List Value × Bool :=
  (spec.queryTemplate, spec.source?, spec.ownValues.map e.value, spec.negation)

def OrderSpec.outline (e : Erasure) (spec : OrderSpec) :
    String × String × Option String × List String :=
  ((splitOrderKey spec.orderBy).1, spec.direction, spec.dataType,
    spec.keyTexts.map fun q => e.text q.2)

/-- An outline that can be drawn after a reduction is the same for what is reduced alike. -/
theorem map_congr_of_reduced {α β γ : Type} {reduce : α → β} {outline : α → γ}
    {outline' : β → γ} (h : ∀ x, outline' (reduce x) = outline x) {xs ys : List α}
    (hreduced : xs.map reduce = ys.map reduce) : xs.map outline = ys.map outline := by
  have houtlines := congrArg (List.map outline') hreduced
  simpa only [List.map_map, Function.comp_def, h] using houtlines

namespace SearchRequest

/-- The requests differ only in what an erasure forgets. -/
structure AlikeUpTo (e : Erasure) (request request' : SearchRequest) : Prop where
  project : e.value (.string request.projectId) = e.value (.string request'.projectId)
  filters : request.filters.map (FilterSpec.outline e) = request'.filters.map (FilterSpec.outline e)
  subqueries :
    request.subqueries.map (SubquerySpec.outline e) =
      request'.subqueries.map (SubquerySpec.outline e)
  order : request.order.map (OrderSpec.outline e) = request'.order.map (OrderSpec.outline e)
  limit : request.limit = request'.limit
  offset : request.offset = request'.offset

variable {limits : Limits} {request request' : SearchRequest} {c c' : AcceptedRequest}
  {e : Erasure}

theorem Yields.map_predicates (h : request.Yields limits c) (h' : request'.Yields limits c')
    (halike : request.AlikeUpTo e request') :
    c.predicates.map (fun p => (p.bound.length, fun n => Fragment.erase e (p.layout n))) =
      c'.predicates.map fun p => (p.bound.length, fun n => Fragment.erase e (p.layout n)) := by
  refine map_congr_of_mapM_ok h.predicates h'.predicates halike.filters ?_
  intro spec spec' p p' houtline hcheck hcheck'
  have hyields := FilterSpec.yields_of_check hcheck
  have hyields' := FilterSpec.yields_of_check hcheck'
  simp only [FilterSpec.outline, Prod.mk.injEq] at houtline
  obtain ⟨htable, hcolumn, hoperator, hkeys, hbound⟩ := houtline
  refine Prod.ext ?_ (funext fun n => ?_)
  · dsimp only
    rw [hyields.bound, hyields'.bound]
    simpa using congrArg List.length hbound
  · exact hyields.erase_layout hyields' htable hcolumn hoperator hkeys hbound n

theorem Yields.map_associations (h : request.Yields limits c) (h' : request'.Yields limits c')
    (halike : request.AlikeUpTo e request') :
    c.associations.map (fun f => ((f.bound c.projectId).length, f.negation,
        fun n => Fragment.erase e (f.subquery c.projectId n))) =
      c'.associations.map fun f => ((f.bound c'.projectId).length, f.negation,
        fun n => Fragment.erase e (f.subquery c'.projectId n)) := by
  refine map_congr_of_mapM_ok h.associations h'.associations halike.subqueries ?_
  intro spec spec' f f' houtline hcheck hcheck'
  have hyields := SubquerySpec.yields_of_check hcheck
  have hyields' := SubquerySpec.yields_of_check hcheck'
  simp only [SubquerySpec.outline, Prod.mk.injEq] at houtline
  obtain ⟨htemplate, hsource, hvalues, hnegation⟩ := houtline
  rw [← hyields.bound, ← hyields'.bound] at hvalues
  have hlength : f.values.bound.length = f'.values.bound.length := by
    simpa using congrArg List.length hvalues
  have hsources : f.values.source? = f'.values.source? := by
    rw [hyields.source, hyields'.source] at hsource
    refine Option.map_injective (fun s s' hs => ?_) hsource
    exact Named.name_injective (Value.string.inj hs)
  refine Prod.ext ?_ (Prod.ext ?_ (funext fun n => ?_))
  · simp [AssociationFilter.bound, hlength]
  · exact hyields.negation.trans (hnegation.trans hyields'.negation.symm)
  · have hname : f.template = f'.template :=
      Named.name_injective (by rw [hyields.template, hyields'.template, htemplate])
    have hproject := halike.project
    rw [← h.projectId, ← h'.projectId] at hproject
    exact AssociationFilter.erase_subquery hyields.takes hyields'.takes hname hsources hvalues
      hproject n

theorem Yields.length_elementValues (h : request.Yields limits c)
    (h' : request'.Yields limits c') (halike : request.AlikeUpTo e request') :
    (c.predicates.flatMap Predicate.bound).length =
        (c'.predicates.flatMap Predicate.bound).length ∧
      c.elementValues.length = c'.elementValues.length := by
  have hpredicates := congrArg (List.map Prod.fst) (h.map_predicates h' halike)
  have hassociations := congrArg (List.map Prod.fst) (h.map_associations h' halike)
  rw [List.map_map, List.map_map] at hpredicates hassociations
  have hfirst : (c.predicates.flatMap Predicate.bound).length =
      (c'.predicates.flatMap Predicate.bound).length := by
    rw [List.length_flatMap, List.length_flatMap]
    exact congrArg List.sum hpredicates
  have hsecond : (c.associations.flatMap fun f => f.bound c.projectId).length =
      (c'.associations.flatMap fun f => f.bound c'.projectId).length := by
    rw [List.length_flatMap, List.length_flatMap]
    exact congrArg List.sum hassociations
  refine ⟨hfirst, ?_⟩
  rw [AcceptedRequest.elementValues, AcceptedRequest.elementValues, List.length_append,
    List.length_append, hfirst, hsecond]

/-- A subquery with the number of its values, its negation and its text, joined at an
index. The index gives the alias, and nothing else. -/
def joinAt (p : (Nat × Bool × (Nat → Fragment)) × Nat) : Nat × (Nat → Join) :=
  (p.1.1, fun n => ⟨if p.1.2.1 then .left else .inner, p.1.2.2 n, subqueryAlias p.2⟩)

theorem Yields.map_joins (h : request.Yields limits c) (h' : request'.Yields limits c')
    (halike : request.AlikeUpTo e request') (n : Nat) :
    (c.joins n).map (Join.mapPieces (Piece.erase e)) =
      (c'.joins n).map (Join.mapPieces (Piece.erase e)) := by
  refine Sql.layoutAll_congr ?_ n
  have hzip := congrArg (fun fs => (List.zipIdx fs).map joinAt) (h.map_associations h' halike)
  simp only [List.zipIdx_map, List.map_map] at hzip
  exact hzip

theorem Yields.erase_order (h : request.Yields limits c) (h' : request'.Yields limits c')
    (halike : request.AlikeUpTo e request') : c.order.erase e = c'.order.erase e := by
  have horder := halike.order
  rcases h.orderParts with ⟨hnone, hparts⟩ | ⟨spec, order, key, hspec, hyields, hparts⟩
  · rcases h'.orderParts with ⟨-, hparts'⟩ | ⟨spec', order', key', hspec', -⟩
    · rw [hparts, hparts']
    · rw [hnone, hspec'] at horder
      cases horder
  · rcases h'.orderParts with ⟨hnone', -⟩ | ⟨spec', order', key', hspec', hyields', hparts'⟩
    · rw [hspec, hnone'] at horder
      cases horder
    · rw [hspec, hspec'] at horder
      simp only [Option.map_some, Option.some.injEq, OrderSpec.outline, Prod.mk.injEq] at horder
      obtain ⟨hname, hdirection, htype, hkeys⟩ := horder
      rw [hparts, hparts']
      exact hyields.erase_layout hyields' hname hdirection htype hkeys

/-- Accepted requests alike have statements alike. -/
theorem Yields.erase_layout (h : request.Yields limits c) (h' : request'.Yields limits c')
    (halike : request.AlikeUpTo e request') (n : Nat) :
    Fragment.erase e (c.layout n) = Fragment.erase e (c'.layout n) := by
  obtain ⟨hfirst, hlength⟩ := h.length_elementValues h' halike
  have hconditions : (c.conditions n).map (Fragment.erase e) =
      (c'.conditions n).map (Fragment.erase e) :=
    Sql.layoutAll_congr (h.map_predicates h' halike) n
  have hjoins := h.map_joins h' halike (n + (c.predicates.flatMap Predicate.bound).length)
  have habsences : ∀ joins : List Join,
      (joins.filterMap Join.absence?).map (Fragment.erase e) =
        (joins.map (Join.mapPieces (Piece.erase e))).filterMap Join.absence? :=
    fun joins => (Join.absences_mapPieces (fun _ => rfl) joins).symm
  have horder := h.erase_order h' halike
  simp only [OrderParts.erase, OrderParts.mk.injEq] at horder
  obtain ⟨hjoin, hselect, hexpression⟩ := horder
  have hproject := halike.project
  rw [← h.projectId, ← h'.projectId] at hproject
  have hplan : (c.plan n).erase e = (c'.plan n).erase e := by
    simp only [Plan.erase, AcceptedRequest.plan, List.map_append, habsences, hconditions,
      ← hfirst, hjoins, hselect, hjoin, hexpression, h.limit, h'.limit, h.offset, h'.offset,
      halike.limit, halike.offset]
  rw [AcceptedRequest.layout, AcceptedRequest.layout, hlength]
  exact Plan.erase_layout hplan hproject _

end SearchRequest

end RecordSearch
