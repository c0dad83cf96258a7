import RecordSearch.Proofs.Operands

/-!
# Association filters by their values

Each filter template has a grammar of values: a label source and ids, creators, two
bounds, or a task. An association filter is accepted if its values are in the grammar of
its template, and its subquery is then the text of the template with a part of the values
in each slot, and the project in the slots of the project.
-/
namespace RecordSearch

open Json (Value)
open Sql (Fragment Segment Style Substitution segments)

/-- The values that each filter template takes, and what they are taken for. -/
inductive QueryTemplate.Accepts (limits : Limits) :
    QueryTemplate → List Value → SubqueryValues → Prop
  | source {t : QueryTemplate} (ht : t ∈ [.label, .noLabel, .informationSource])
      (source : LabelSource) {ids : List Value} (hids : ids ≠ [])
      (hscalars : ∀ v ∈ ids, v.isScalar = true)
      (hlimit : 0 < limits.maxInValues → ids.length ≤ limits.maxInValues) :
      Accepts limits t (.string (Named.name source) :: ids) (.idsFromSource source ids)
  | creators {ids : List String} (hids : ids ≠ [])
      (hlimit : 0 < limits.maxInValues → ids.length ≤ limits.maxInValues) :
      Accepts limits .createdBy (ids.map .string) (.creators ids)
  | texts {t : QueryTemplate} (ht : t ∈ [.confidence, .callbackConfidence])
      (lower upper : String) :
      Accepts limits t [.string lower, .string upper] (.bounds (.string lower) (.string upper))
  | numbers {t : QueryTemplate} (ht : t ∈ [.confidence, .callbackConfidence])
      (lower upper : Json.Number) :
      Accepts limits t [.number lower, .number upper] (.bounds (.number lower) (.number upper))
  | task {t : QueryTemplate} (ht : t ∈ [.differentClassification, .differentExtraction])
      (id : String) : Accepts limits t [.string id] (.task id)

namespace QueryTemplate

variable {limits : Limits} {t : QueryTemplate} {vs : List Value} {values : SubqueryValues}

theorem Accepts.isFilter (h : t.Accepts limits vs values) : t.isFilter = true := by
  cases h with
  | source ht | texts ht | numbers ht | task ht =>
    simp only [List.mem_cons, List.not_mem_nil, or_false] at ht
    rcases ht with rfl | rfl | rfl <;> rfl
  | creators => rfl

theorem accepts_of_confidenceBounds (ht : t ∈ [confidence, callbackConfidence])
    (h : t.confidenceBounds vs = .ok values) : t.Accepts limits vs values := by
  unfold confidenceBounds at h
  split at h
  next lower upper =>
    cases h
    exact .texts ht lower upper
  next lower upper =>
    cases h
    exact .numbers ht lower upper
  next => cases h

/-- Values that a template takes within the limits are those that it takes without limits,
if its list is not too long. -/
theorem accepts_of_filterValues (h : t.filterValues limits vs = .ok values) :
    t.Accepts limits vs values := by
  have hlists : ∀ count ∈ values.lists, withinLimit limits.maxInValues count = true := by
    rw [filterValues_eq] at h
    obtain ⟨values', -, h⟩ := bind_eq_ok h
    obtain ⟨_, hlength, h⟩ := bind_eq_ok h
    cases h
    exact checkLists_eq_ok_iff.1 hlength
  cases t with
  | label | noLabel | informationSource =>
    obtain ⟨source, ids, rfl, rfl, hids, hscalars⟩ := sourceAndIds_eq_ok h
    have hlimit := withinLimit_iff.1 (hlists ids.length (by simp [SubqueryValues.lists]))
    exact .source (by simp) source hids hscalars hlimit
  | createdBy =>
    obtain ⟨ids, rfl, rfl, hids⟩ := creators_eq_ok h
    have hlimit := withinLimit_iff.1 (hlists ids.length (by simp [SubqueryValues.lists]))
    exact .creators hids hlimit
  | confidence | callbackConfidence => exact accepts_of_confidenceBounds (by simp) h
  | differentClassification | differentExtraction =>
    obtain ⟨id, rfl, rfl⟩ := taskId_eq_ok h
    exact .task (by simp) id
  | base | orderJoin => cases h

theorem sourceAndIds_of_accepts {source : LabelSource} {ids : List Value} (hids : ids ≠ [])
    (hscalars : ∀ v ∈ ids, v.isScalar = true)
    (hlimit : 0 < limits.maxInValues → ids.length ≤ limits.maxInValues) (t : QueryTemplate) :
    t.sourceAndIds limits (.string (Named.name source) :: ids) =
      .ok (.idsFromSource source ids) := by
  obtain ⟨id, ids, rfl⟩ := List.exists_cons_of_ne_nil hids
  rw [sourceAndIds, Named.resolve_name, requireScalars_of_isScalar hscalars, checkInList,
    withinLimit_iff.2 hlimit]
  rfl

theorem creators_of_accepts {ids : List String} (hids : ids ≠ [])
    (hlimit : 0 < limits.maxInValues → ids.length ≤ limits.maxInValues) (t : QueryTemplate) :
    t.creators limits (ids.map .string) = .ok (.creators ids) := by
  obtain ⟨id, ids, rfl⟩ := List.exists_cons_of_ne_nil hids
  rw [creators, requireStrings_map_string]
  change (checkInList limits (id :: ids).length >>= fun _ => _) = _
  rw [checkInList, withinLimit_iff.2 hlimit]
  rfl

theorem filterValues_eq_ok_iff :
    t.filterValues limits vs = .ok values ↔ t.Accepts limits vs values := by
  refine ⟨accepts_of_filterValues, fun h => ?_⟩
  cases h with
  | source ht source hids hscalars hlimit =>
    simp only [List.mem_cons, List.not_mem_nil, or_false] at ht
    rcases ht with rfl | rfl | rfl <;> exact sourceAndIds_of_accepts hids hscalars hlimit _
  | creators hids hlimit => exact creators_of_accepts hids hlimit _
  | texts ht | numbers ht | task ht =>
    simp only [List.mem_cons, List.not_mem_nil, or_false] at ht
    rcases ht with rfl | rfl <;> rfl

end QueryTemplate

namespace SubquerySpec

def Takes (limits : Limits) (spec : SubquerySpec) (t : QueryTemplate)
    (values : SubqueryValues) : Prop :=
  Named.name t = spec.queryTemplate ∧ t.Accepts limits spec.values values

variable {limits : Limits} {spec : SubquerySpec}

theorem check_eq_ok_iff {f : AssociationFilter} :
    spec.check limits = .ok f ↔
      spec.Takes limits f.template f.values ∧ f.negation = spec.negation := by
  constructor
  · intro h
    obtain ⟨q, hresolve, h⟩ := bind_eq_ok h
    obtain ⟨values, hvalues, h⟩ := bind_eq_ok h
    cases h
    obtain ⟨htemplate, -, hspec, hnegation⟩ := Subquery.resolve_eq_ok hresolve
    rw [hspec] at hvalues
    exact ⟨⟨htemplate, QueryTemplate.accepts_of_filterValues hvalues⟩, hnegation⟩
  · rintro ⟨⟨htemplate, haccepts⟩, hnegation⟩
    have hresolve : Subquery.resolve spec = .ok ⟨f.template, spec.values, spec.negation⟩ := by
      rw [Subquery.resolve, ← htemplate, Named.resolve_name]
      exact if_pos haccepts.isFilter
    rw [check, hresolve]
    change (f.template.filterValues limits spec.values >>= _) = _
    rw [QueryTemplate.filterValues_eq_ok_iff.2 haccepts, ← hnegation]
    rfl

end SubquerySpec

namespace Sql

def Segment.text : Segment → String
  | .fixed text => text
  | .marker name => name

theorem join_segments (cs : List Char) :
    String.join ((segments cs).map Segment.text) = String.ofList cs := by
  fun_induction segments cs with
  | case1 cs h => simp [Segment.text]
  | case2 cs before after h h' => simp [Segment.text]
  | case3 cs before after h inner rest h' ih =>
    rw [List.map_cons, List.map_cons, String.join_cons, String.join_cons, ih,
      splitPair_eq_some h, splitPair_eq_some h', ← String.toList_inj]
    simp [Segment.text, markerName]

def Segment.filled (slots : List (String × String)) : Segment → String
  | .fixed text => text
  | .marker name => (slots.lookup name).getD ""

/-- The texts that fragments put in the places of markers. -/
def Substitution.texts (style : Style) (table : Substitution) : List (String × String) :=
  table.map fun entry => (entry.1, Fragment.text style entry.2)

theorem Substitution.lookup_texts (style : Style) (table : Substitution) (name : String) :
    (table.texts style).lookup name = (table.lookup name).map (Fragment.text style) := by
  induction table with
  | nil => rfl
  | cons entry table ih =>
    rw [texts, List.map_cons, List.lookup_cons, List.lookup_cons]
    split
    next => rfl
    next => exact ih

theorem text_place (style : Style) (table : Substitution) (segs : List Segment) :
    Fragment.text style (segs.flatMap (Segment.place table)) =
      String.join (segs.map (Segment.filled (table.texts style))) := by
  rw [Fragment.text_flatMap]
  congr 1
  refine List.map_congr_left fun s _ => ?_
  cases s with
  | fixed text =>
    rw [Segment.place, Fragment.text_fixed, Fragment.text_nil, String.append_empty]
    rfl
  | marker name =>
    rw [Segment.place, Segment.filled, Substitution.lookup_texts]
    cases table.lookup name <;> rfl

end Sql

/-- What stands in the slots of a template whose values are bound from position `n` on,
with the project bound after them. -/
def SubqueryValues.slots (style : Style) (projectId : String) (n : Nat)
    (values : SubqueryValues) : List (String × String) :=
  (match values with
    | .idsFromSource source ids =>
      [("@@SOURCE_TYPE@@", Named.name source), ("@@IN_VALUES@@", style.writtenValues n ids)]
    | .creators ids => [("@@IN_VALUES@@", style.writtenValues n (ids.map .string))]
    | .bounds lower upper =>
      [("@@VALUE1@@", style.writtenValue n lower), ("@@VALUE2@@", style.writtenValue (n + 1) upper)]
    | .task id => [("@@LABELING_TASK_ID@@", style.writtenValue n (.string id))]) ++
  [("@@PROJECT_ID@@", style.writtenValue (n + values.bound.length) (.string projectId))]

namespace AssociationFilter

theorem texts_table (style : Style) (f : AssociationFilter) (projectId : String) (n : Nat) :
    (f.table projectId n).texts style = f.values.slots style projectId n := by
  obtain ⟨t, values, negation⟩ := f
  cases values <;>
    simp [table, SubqueryValues.table, Substitution.texts, SubqueryValues.slots,
      Sql.Style.text_valuesAt, Sql.Style.writtenValues_singleton]

/-- The subquery is the text of its template with the slots filled. -/
theorem text_subquery_eq (style : Style) (f : AssociationFilter) (projectId : String) (n : Nat) :
    (f.subquery projectId n).text style =
      String.join ((segments f.template.text.toList).map
        (Segment.filled (f.values.slots style projectId n))) := by
  rw [subquery, QueryTemplate.place, Sql.text_place, texts_table]

end AssociationFilter

namespace SearchRequest

theorem check_ofSubquery {projectId : String} (h : Text.allBlank projectId = false)
    (limits : Limits) (spec : SubquerySpec) :
    (ofSubquery projectId spec).check limits =
      (spec.check limits).map fun f => ⟨projectId, [], [f], {}, none, none⟩ := by
  have hrequest : checkRequest limits (ofSubquery projectId spec) = .ok () :=
    checkRequest_eq_ok_iff.2 ⟨h, withinLimit_iff.2 fun _ => Nat.zero_le _⟩
  rw [check, hrequest]
  change ([spec].mapM (SubquerySpec.check limits) >>= _) = _
  rw [List.mapM_cons]
  cases spec.check limits <;> rfl

end SearchRequest

namespace Config

def subqueryPlan (projectId : String) (negation : Bool) (subquery : Fragment) : Plan where
  projectId
  joins := [⟨if negation then .left else .inner, subquery, "sq_0"⟩]
  filters := if negation then [[.fixed "sq_0.rID IS NULL"]] else []

/-- What is built for an association filter alone: the project is bound twice. -/
theorem build_ofSubquery {projectId : String} (h : Text.allBlank projectId = false)
    (config : Config) (dialect : Sql.Dialect) (spec : SubquerySpec) :
    config.build dialect (.ofSubquery projectId spec) =
      (spec.check config.limits).map fun f =>
        ⟨Plan.written (config.style dialect) (f.values.bound.length + 1)
            (subqueryPlan projectId f.negation (f.subquery projectId 0)),
          (config.style dialect).params
            (f.values.bound ++ [.string projectId, .string projectId])⟩ := by
  rw [build_eq, SearchRequest.check_ofSubquery h]
  cases spec.check config.limits with
  | error e => rfl
  | ok f =>
    have hbound : AcceptedRequest.elementValues ⟨projectId, [], [f], {}, none, none⟩ =
        f.values.bound ++ [.string projectId] := by
      simp [AcceptedRequest.elementValues, AssociationFilter.bound]
    have hplan : AcceptedRequest.plan ⟨projectId, [], [f], {}, none, none⟩ 0 =
        subqueryPlan projectId f.negation (f.subquery projectId 0) := by
      have halias : subqueryAlias 0 = "sq_0" := by decide
      have habsence : subqueryAlias 0 ++ ".rID IS NULL" = "sq_0.rID IS NULL" := by
        rw [halias]
        decide
      obtain ⟨t, values, negation⟩ := f
      rw [subqueryPlan, ← habsence, ← halias]
      cases negation <;> rfl
    simp only [Except.map, AcceptedRequest.text_layout, AcceptedRequest.bound, hbound, hplan,
      List.length_append, List.length_singleton, List.append_assoc, List.singleton_append]

/-- An association filter alone is accepted if and only if its template takes its values.
Its subquery is then the text of the template with the slots filled: every marker of the
template has a slot, and whether the filter is negated shows neither in the subquery nor in
what is bound. -/
theorem build_subquery_exact {projectId : String} (h : Text.allBlank projectId = false)
    (config : Config) (dialect : Sql.Dialect) (spec : SubquerySpec) :
    ((∃ compiled, config.build dialect (.ofSubquery projectId spec) = .ok compiled) ↔
      ∃ t values, spec.Takes config.limits t values) ∧
    ∀ t values, spec.Takes config.limits t values →
      String.join ((segments t.text.toList).map Segment.text) = t.text ∧
      (∀ m ∈ (segments t.text.toList).filterMap Segment.marker?,
        ((values.slots (config.style dialect) projectId 0).lookup m).isSome = true) ∧
      ∃ subquery : Fragment,
        subquery.text (config.style dialect) =
          String.join ((segments t.text.toList).map
            (Segment.filled (values.slots (config.style dialect) projectId 0))) ∧
        ∀ negation, config.build dialect (.ofSubquery projectId { spec with negation }) =
          .ok ⟨Plan.written (config.style dialect) (values.bound.length + 1)
              (subqueryPlan projectId negation subquery),
            (config.style dialect).params
              (values.bound ++ [.string projectId, .string projectId])⟩ := by
  refine ⟨?_, fun t values htakes => ?_⟩
  · rw [build_ofSubquery h]
    constructor
    · rintro ⟨compiled, hok⟩
      cases hcheck : spec.check config.limits with
      | error e =>
        rw [hcheck] at hok
        cases hok
      | ok f => exact ⟨_, _, (SubquerySpec.check_eq_ok_iff.1 hcheck).1⟩
    · rintro ⟨t, values, htakes⟩
      rw [SubquerySpec.check_eq_ok_iff (f := ⟨t, values, spec.negation⟩) |>.2 ⟨htakes, rfl⟩]
      exact ⟨_, rfl⟩
  · have haccepted : ∀ negation, SubquerySpec.check config.limits { spec with negation } =
        .ok ⟨t, values, negation⟩ :=
      fun negation => SubquerySpec.check_eq_ok_iff.2 ⟨htakes, rfl⟩
    have hmarkers : ∀ m ∈ (segments t.text.toList).filterMap Segment.marker?,
        ((values.slots (config.style dialect) projectId 0).lookup m).isSome = true := by
      intro m hm
      rw [QueryTemplate.filterMap_marker?] at hm
      have hslot := AssociationFilter.lookup_isSome (f := ⟨t, values, spec.negation⟩)
        (SubquerySpec.yields_of_check (haccepted _)).takes projectId 0 m hm
      rw [← AssociationFilter.texts_table (config.style dialect) ⟨t, values, spec.negation⟩,
        Substitution.lookup_texts, Option.isSome_map]
      exact hslot
    refine ⟨by rw [Sql.join_segments, String.ofList_toList], hmarkers,
      AssociationFilter.subquery ⟨t, values, spec.negation⟩ projectId 0,
      AssociationFilter.text_subquery_eq _ _ _ _, fun negation => ?_⟩
    rw [build_ofSubquery h, haccepted]
    rfl

def byConfidence (values : List Value) : SubquerySpec :=
  ⟨"SUBQUERY_RLA_CONFIDENCE", values, true⟩

/-- The first bound is the lower one. A text and a number are no bounds. -/
theorem build_subquery_by_confidence :
    Text.allBlank "p" = false ∧
      (∃ sql subquery, build { mode := .parameterized } .postgres
            (.ofSubquery "p" (byConfidence [.number (.int 0), .number (.int 1)])) =
          .ok ⟨sql, [.number (.int 0), .number (.int 1), .string "p", .string "p"]⟩ ∧
        Fragment.text ⟨.parameterized, .verbatim, .postgres⟩ subquery =
          String.join ((segments QueryTemplate.confidence.text.toList).map
            (Segment.filled
              [("@@VALUE1@@", "$1"), ("@@VALUE2@@", "$2"), ("@@PROJECT_ID@@", "$3")]))) ∧
      ¬ ∃ compiled, build {} .postgres
        (.ofSubquery "p" (byConfidence [.string "0", .number (.int 1)])) = .ok compiled := by
  have hproject : Text.allBlank "p" = false := by decide
  have htakes : (byConfidence [.number (.int 0), .number (.int 1)]).Takes {} .confidence
      (.bounds (.number (.int 0)) (.number (.int 1))) := ⟨rfl, .numbers (by simp) _ _⟩
  obtain ⟨-, -, subquery, htext, hbuild⟩ :=
    (build_subquery_exact hproject { mode := .parameterized } .postgres _).2 _ _ htakes
  refine ⟨hproject, ⟨_, subquery, hbuild true, htext⟩, ?_⟩
  rw [(build_subquery_exact hproject {} .postgres _).1]
  rintro ⟨t, values, hname, haccepts⟩
  obtain rfl : t = .confidence := Named.name_injective hname
  cases QueryTemplate.filterValues_eq_ok_iff.2 haccepts

end Config

end RecordSearch
