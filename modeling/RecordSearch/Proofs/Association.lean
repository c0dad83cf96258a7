import RecordSearch.Proofs.Bound
import RecordSearch.Proofs.Check
import RecordSearch.Proofs.Filling
import RecordSearch.Proofs.Layout

/-!
# Association filters, checked and laid out

The values of an association filter are checked before any is bound. What its
template is filled with is then the values, in the shape that the template asks
for, and the project, which is bound after them wherever its marker stands.
-/
namespace RecordSearch

open Json (Value)
open Sql (Fragment Binder Erasure Substitution usedAt sourceMarker)
open Sql.Binder (valuesAt)

namespace SubqueryValues

def source? : SubqueryValues → Option LabelSource
  | .idsFromSource source _ => some source
  | .creators _ | .bounds _ _ | .task _ => none

def bound : SubqueryValues → List Value
  | .idsFromSource _ ids => ids
  | .creators ids => ids.map Value.string
  | .bounds lower upper => [lower, upper]
  | .task id => [.string id]

/-- The entries for values that are bound from position `n` on. -/
def table (n : Nat) : SubqueryValues → Substitution
  | .idsFromSource source ids =>
    [("@@SOURCE_TYPE@@", [.fixed (Named.name source)]), ("@@IN_VALUES@@", valuesAt n ids)]
  | .creators ids => [("@@IN_VALUES@@", valuesAt n (ids.map Value.string))]
  | .bounds lower upper =>
    [("@@VALUE1@@", valuesAt n [lower]), ("@@VALUE2@@", valuesAt (n + 1) [upper])]
  | .task id => [("@@LABELING_TASK_ID@@", valuesAt n [.string id])]

theorem substitution_writes (values : SubqueryValues) :
    values.substitution.Writes values.bound fun n => values.table n := by
  cases values with
  | idsFromSource source ids => exact (Binder.writes_values ids).map _
  | creators ids => exact (Binder.writes_values _).map _
  | bounds lower upper =>
    exact (Binder.writes_value lower).bind
      (fun n m => [("@@VALUE1@@", valuesAt n [lower]), ("@@VALUE2@@", valuesAt m [upper])])
      fun n => (Binder.writes_value upper).map fun f =>
        [("@@VALUE1@@", valuesAt n [lower]), ("@@VALUE2@@", f)]
  | task id => exact (Binder.writes_value _).map _

end SubqueryValues

namespace QueryTemplate

def takes : QueryTemplate → SubqueryValues → Bool
  | .label, .idsFromSource _ _ | .noLabel, .idsFromSource _ _
  | .informationSource, .idsFromSource _ _ => true
  | .createdBy, .creators _ => true
  | .confidence, .bounds _ _ | .callbackConfidence, .bounds _ _ => true
  | .differentClassification, .task _ | .differentExtraction, .task _ => true
  | _, _ => false

theorem sourceAndIds_eq_ok {t : QueryTemplate} {limits : Limits} {vs : List Value}
    {values : SubqueryValues} (h : t.sourceAndIds limits vs = .ok values) :
    ∃ source ids, values = .idsFromSource source ids ∧
      vs = .string (Named.name source) :: ids ∧ ids ≠ [] ∧ ∀ v ∈ ids, v.isScalar = true := by
  unfold sourceAndIds at h
  split at h
  next name id ids =>
    obtain ⟨source, hsource, h⟩ := bind_eq_ok h
    obtain ⟨_, hscalars, h⟩ := bind_eq_ok h
    obtain ⟨_, -, h⟩ := bind_eq_ok h
    cases h
    exact ⟨source, id :: ids, rfl, by rw [Named.resolve_eq_ok hsource], List.cons_ne_nil _ _,
      requireScalars_eq_ok hscalars⟩
  next => cases h

theorem creators_eq_ok {t : QueryTemplate} {limits : Limits} {vs : List Value}
    {values : SubqueryValues} (h : t.creators limits vs = .ok values) :
    ∃ ids, values = .creators ids ∧ vs = ids.map Value.string ∧ ids ≠ [] := by
  obtain ⟨ids, hids, h⟩ := bind_eq_ok h
  cases ids with
  | nil => cases h
  | cons id ids =>
    obtain ⟨_, -, h⟩ := bind_eq_ok h
    cases h
    exact ⟨id :: ids, rfl, requireStrings_eq_ok hids, List.cons_ne_nil _ _⟩

theorem confidenceBounds_eq_ok {t : QueryTemplate} {vs : List Value} {values : SubqueryValues}
    (h : t.confidenceBounds vs = .ok values) :
    ∃ lower upper, values = .bounds lower upper ∧ vs = [lower, upper] ∧
      lower.isScalar = true ∧ upper.isScalar = true := by
  unfold confidenceBounds at h
  split at h
  next =>
    cases h
    exact ⟨_, _, rfl, rfl, rfl, rfl⟩
  next =>
    cases h
    exact ⟨_, _, rfl, rfl, rfl, rfl⟩
  next => cases h

theorem taskId_eq_ok {t : QueryTemplate} {vs : List Value} {values : SubqueryValues}
    (h : t.taskId vs = .ok values) : ∃ id, values = .task id ∧ vs = [.string id] := by
  unfold taskId at h
  split at h
  next id =>
    cases h
    exact ⟨id, rfl, rfl⟩
  next => cases h

/-- Values that pass their check are the label source, if the template takes one,
and then at least one scalar. -/
theorem filterValues_eq_ok {t : QueryTemplate} {limits : Limits} {vs : List Value}
    {values : SubqueryValues} (h : t.filterValues limits vs = .ok values) :
    t.takes values = true ∧
      vs = (values.source?.map fun s => Value.string (Named.name s)).toList ++ values.bound ∧
      values.bound ≠ [] ∧ ∀ v ∈ values.bound, v.isScalar = true := by
  cases t with
  | label | noLabel | informationSource =>
    obtain ⟨source, ids, rfl, rfl, hne, hscalars⟩ := sourceAndIds_eq_ok h
    exact ⟨rfl, rfl, hne, hscalars⟩
  | createdBy =>
    obtain ⟨ids, rfl, rfl, hne⟩ := creators_eq_ok h
    refine ⟨rfl, rfl, by simpa [SubqueryValues.bound] using hne, fun v hv => ?_⟩
    obtain ⟨s, _, rfl⟩ := List.mem_map.1 hv
    rfl
  | confidence | callbackConfidence =>
    obtain ⟨lower, upper, rfl, rfl, hlower, hupper⟩ := confidenceBounds_eq_ok h
    refine ⟨rfl, rfl, List.cons_ne_nil _ _, ?_⟩
    simp [SubqueryValues.bound, hlower, hupper]
  | differentClassification | differentExtraction =>
    obtain ⟨id, rfl, rfl⟩ := taskId_eq_ok h
    refine ⟨rfl, rfl, List.cons_ne_nil _ _, ?_⟩
    simp [SubqueryValues.bound, Value.isScalar]
  | base | orderJoin => cases h

/-- How often the project is mentioned before the values of a filter template. -/
def projectsBefore : QueryTemplate → Nat
  | .noLabel => 0
  | .differentExtraction => 2
  | _ => 1

def projectsAfter : QueryTemplate → Nat
  | .noLabel => 1
  | _ => 0

end QueryTemplate

/-- An association filter that has passed its checks. -/
structure AssociationFilter where
  template : QueryTemplate
  values : SubqueryValues
  negation : Bool

namespace AssociationFilter

def bound (f : AssociationFilter) (projectId : String) : List Value :=
  f.values.bound ++ [.string projectId]

/-- The entries for the values and for the project after them. -/
def table (f : AssociationFilter) (projectId : String) (n : Nat) : Substitution :=
  f.values.table n ++
    [("@@PROJECT_ID@@", valuesAt (n + f.values.bound.length) [.string projectId])]

def subquery (f : AssociationFilter) (projectId : String) (n : Nat) : Fragment :=
  f.template.place (f.table projectId n)

def join (projectId : String) (f : AssociationFilter × Nat) (n : Nat) : Join :=
  ⟨if f.1.negation then .left else .inner, f.1.subquery projectId n, subqueryAlias f.2⟩

/-- What a filter template is filled with, in the order of its text: the entries
of the values, and the project around them. -/
def entries (f : AssociationFilter) (projectId : String) (n : Nat) : List Fragment :=
  let project := valuesAt (n + f.values.bound.length) [.string projectId]
  List.replicate f.template.projectsBefore project ++ (f.values.table n).map Prod.snd ++
    List.replicate f.template.projectsAfter project

theorem lookup_table {f : AssociationFilter} (h : f.template.takes f.values = true)
    (projectId : String) (n : Nat) :
    f.template.markerOrder.map (fun m => (f.table projectId n).lookup m) =
      (f.entries projectId n).map some := by
  obtain ⟨t, values, negation⟩ := f
  dsimp only at h
  cases t <;> cases values <;> cases h <;> rfl

theorem lookup_isSome {f : AssociationFilter} (h : f.template.takes f.values = true)
    (projectId : String) (n : Nat) :
    ∀ m ∈ f.template.markerOrder, ((f.table projectId n).lookup m).isSome = true := by
  intro m hm
  have hentry := List.mem_map_of_mem (f := fun m => (f.table projectId n).lookup m) hm
  rw [lookup_table h] at hentry
  obtain ⟨entry, -, hlookup⟩ := List.mem_map.1 hentry
  rw [← hlookup]
  rfl

theorem flatMap_markerOrder {β : Type} {f : AssociationFilter}
    (h : f.template.takes f.values = true) (projectId : String) (n : Nat)
    (g : Fragment → List β) :
    f.template.markerOrder.flatMap (fun m => g (((f.table projectId n).lookup m).getD [])) =
      (f.entries projectId n).flatMap g := by
  have hentries := congrArg (List.flatMap fun o => g (o.getD [])) (lookup_table h projectId n)
  rw [List.flatMap_map, List.flatMap_map] at hentries
  exact hentries

theorem slots_table (values : SubqueryValues) (n : Nat) :
    ((values.table n).map Prod.snd).flatMap Fragment.slots =
      usedAt n (values.bound.map fun v => (v, 1)) := by
  cases values with
  | idsFromSource source ids =>
    have hids := Sql.slots_valuesAt n ids
    simp [SubqueryValues.table, SubqueryValues.bound, hids]
  | creators ids =>
    have hids := Sql.slots_valuesAt n (ids.map Value.string)
    simp [SubqueryValues.table, SubqueryValues.bound, hids]
  | bounds lower upper => rfl
  | task id => rfl

theorem slots_subquery {f : AssociationFilter} (h : f.template.takes f.values = true)
    (projectId : String) (n : Nat) :
    Fragment.slots (f.subquery projectId n) =
      List.replicate f.template.projectsBefore (n + f.values.bound.length, .string projectId) ++
        usedAt n (f.values.bound.map fun v => (v, 1)) ++
        List.replicate f.template.projectsAfter
          (n + f.values.bound.length, .string projectId) := by
  have hproject : ∀ k, (List.replicate k
      (valuesAt (n + f.values.bound.length) [.string projectId])).flatMap Fragment.slots =
      List.replicate k (n + f.values.bound.length, .string projectId) := by
    intro k
    rw [List.flatMap_replicate, Sql.slots_valuesAt]
    exact List.flatten_replicate_singleton
  rw [subquery, QueryTemplate.slots_place, flatMap_markerOrder h, entries, List.flatMap_append,
    List.flatMap_append, hproject, hproject, slots_table]

/-- A subquery mentions each of its values once, and the project around them. -/
def uses (f : AssociationFilter) (projectId : String) : List (Value × Nat) :=
  f.values.bound.map (fun v => (v, 1)) ++
    [(.string projectId, f.template.projectsBefore + f.template.projectsAfter)]

theorem uses_fst (f : AssociationFilter) (projectId : String) :
    (f.uses projectId).map Prod.fst = f.bound projectId := by
  simp [uses, bound, Function.comp_def]

theorem perm_slots_subquery {f : AssociationFilter} (h : f.template.takes f.values = true)
    (projectId : String) (n : Nat) :
    (Fragment.slots (f.subquery projectId n)).Perm (usedAt n (f.uses projectId)) := by
  have huses : usedAt (n + f.values.bound.length)
      [(.string projectId, f.template.projectsBefore + f.template.projectsAfter)] =
      List.replicate f.template.projectsBefore (n + f.values.bound.length, .string projectId) ++
        List.replicate f.template.projectsAfter
          (n + f.values.bound.length, .string projectId) := by
    rw [List.replicate_append_replicate]
    exact List.append_nil _
  rw [slots_subquery h, uses, Sql.usedAt_append, List.length_map, huses, List.append_assoc]
  refine List.perm_append_comm.trans ?_
  rw [List.append_assoc]
  exact List.perm_append_comm.append_left _

theorem clients_subquery {f : AssociationFilter} (h : f.template.takes f.values = true)
    (projectId : String) (n : Nat) : Fragment.clients (f.subquery projectId n) = [] := by
  have hvalues : ((f.values.table n).map Prod.snd).flatMap Fragment.clients = [] := by
    cases f.values <;> simp [SubqueryValues.table, Sql.clients_valuesAt]
  rw [subquery, QueryTemplate.clients_place, flatMap_markerOrder h, entries, List.flatMap_append,
    List.flatMap_append, hvalues]
  simp [Sql.clients_valuesAt]

/-- Filters from the same template and label source write the same subquery, but
for their values. -/
theorem erase_subquery {e : Erasure} {f f' : AssociationFilter} {projectId projectId' : String}
    (h : f.template.takes f.values = true) (h' : f'.template.takes f'.values = true)
    (htemplate : f.template = f'.template) (hsource : f.values.source? = f'.values.source?)
    (hvalues : f.values.bound.map e.value = f'.values.bound.map e.value)
    (hproject : e.value (.string projectId) = e.value (.string projectId')) (n : Nat) :
    Fragment.erase e (f.subquery projectId n) = Fragment.erase e (f'.subquery projectId' n) := by
  have hlength : f.values.bound.length = f'.values.bound.length := by
    simpa using congrArg List.length hvalues
  have htable : (f.values.table n).erase e = (f'.values.table n).erase e := by
    obtain ⟨t, values, negation⟩ := f
    obtain ⟨t', values', negation'⟩ := f'
    obtain rfl : t = t' := htemplate
    clear hproject hlength
    dsimp only at h h' hsource hvalues ⊢
    cases t <;> cases values <;> cases h <;> cases values' <;> cases h' <;>
      simp_all [Substitution.erase, SubqueryValues.table, SubqueryValues.source?,
        SubqueryValues.bound, Sql.erase_valuesAt]
  have happend : ∀ table table' : Substitution,
      Substitution.erase e (table ++ table') = table.erase e ++ table'.erase e :=
    fun _ _ => List.map_append
  rw [subquery, subquery, QueryTemplate.erase_place, QueryTemplate.erase_place, htemplate, table,
    table, happend, happend, htable, hlength]
  simp [Substitution.erase, Sql.erase_valuesAt, hproject]

theorem balanced_table (f : AssociationFilter) (projectId : String) (n : Nat) :
    ∀ entry ∈ f.table projectId n, entry.1 ≠ sourceMarker → Fragment.Balanced entry.2 := by
  intro entry hmem hname
  rcases List.mem_append.1 hmem with hmem | hmem
  · cases hvalues : f.values with
    | idsFromSource source ids =>
      rw [hvalues] at hmem
      rcases List.mem_cons.1 hmem with rfl | hmem
      · exact absurd rfl hname
      · rw [List.mem_singleton.1 hmem]
        exact Sql.balanced_valuesAt _ _
    | creators ids =>
      rw [hvalues] at hmem
      rw [List.mem_singleton.1 hmem]
      exact Sql.balanced_valuesAt _ _
    | bounds lower upper =>
      rw [hvalues] at hmem
      rcases List.mem_cons.1 hmem with rfl | hmem
      · exact Sql.balanced_valuesAt _ _
      · rw [List.mem_singleton.1 hmem]
        exact Sql.balanced_valuesAt _ _
    | task id =>
      rw [hvalues] at hmem
      rw [List.mem_singleton.1 hmem]
      exact Sql.balanced_valuesAt _ _
  · rw [List.mem_singleton.1 hmem]
    exact Sql.balanced_valuesAt _ _

theorem balanced_subquery {f : AssociationFilter} (h : f.template.takes f.values = true)
    (projectId : String) (n : Nat) : Fragment.Balanced (f.subquery projectId n) := by
  refine QueryTemplate.balanced_place (f.values.source?.getD .manual) ?_
    (f.balanced_table projectId n)
  obtain ⟨t, values, negation⟩ := f
  dsimp only at h ⊢
  cases t <;> cases values <;> cases h <;>
    simp [table, QueryTemplate.markerOrder, SubqueryValues.table, SubqueryValues.source?,
      sourceMarker, List.lookup_cons]

def write (f : AssociationFilter) (projectId : String) : Binder Fragment := do
  let table ← f.values.substitution
  let project ← Binder.text projectId
  f.template.fill (table ++ [("@@PROJECT_ID@@", project)])

theorem write_writes {f : AssociationFilter} (h : f.template.takes f.values = true)
    (projectId : String) :
    (f.write projectId).Writes (f.bound projectId) (f.subquery projectId) := by
  intro bound
  have htable : f.values.table bound.length ++
      [("@@PROJECT_ID@@",
        [.value (bound ++ f.values.bound).length (.string projectId)])] =
      f.table projectId bound.length := by
    rw [table, List.length_append]
    rfl
  rw [write, Binder.runOn_bind, f.values.substitution_writes bound]
  dsimp only
  rw [Binder.runOn_bind, Binder.text, Binder.runOn_value]
  dsimp only
  rw [htable, QueryTemplate.fill_eq_place (lookup_isSome h projectId bound.length),
    AssociationFilter.bound, List.append_assoc]
  rfl

end AssociationFilter

namespace QueryTemplate

theorem render_filter {t : QueryTemplate} (h : t.isFilter = true) (limits : Limits)
    (projectId : String) (values : List Value) :
    t.render (.filter values projectId limits) = t.subquery limits projectId values := by
  cases t with
  | base | orderJoin => cases h
  | label | noLabel | informationSource | createdBy => rfl
  | confidence | callbackConfidence | differentClassification | differentExtraction => rfl

theorem render_filter_of_not {t : QueryTemplate} (h : t.isFilter = false) (limits : Limits)
    (projectId : String) (values : List Value) :
    t.render (.filter values projectId limits) = throw (.template (.wrongArguments t)) := by
  cases t with
  | base | orderJoin => rfl
  | label | noLabel | informationSource | createdBy => cases h
  | confidence | callbackConfidence | differentClassification | differentExtraction => cases h

theorem subquery_eq (t : QueryTemplate) (limits : Limits) (projectId : String)
    (values : List Value) (negation : Bool) :
    t.subquery limits projectId values = (do
      let checked ← t.filterValues limits values
      AssociationFilter.write ⟨t, checked, negation⟩ projectId) := rfl

/-- The check of the values decides, and then the subquery is written. -/
theorem subquery_performs (t : QueryTemplate) (limits : Limits) (projectId : String)
    (values : List Value) (negation : Bool) :
    Binder.Performs (t.subquery limits projectId values)
      ((t.filterValues limits values).map fun checked => ⟨t, checked, negation⟩)
      (fun f : AssociationFilter => f.bound projectId) fun f => f.subquery projectId := by
  rw [subquery_eq t limits projectId values negation]
  cases hvalues : t.filterValues limits values with
  | error e => exact Binder.lift_error rfl _
  | ok checked =>
    exact AssociationFilter.write_writes (filterValues_eq_ok hvalues).1 projectId

end QueryTemplate

namespace SubquerySpec

def check (limits : Limits) (spec : SubquerySpec) : Except SearchError AssociationFilter := do
  let subquery ← Subquery.resolve spec
  let values ← subquery.template.filterValues limits subquery.values
  return ⟨subquery.template, values, subquery.negation⟩

/-- What is known of an accepted association filter. -/
structure Yields (spec : SubquerySpec) (f : AssociationFilter) : Prop where
  takes : f.template.takes f.values = true
  template : Named.name f.template = spec.queryTemplate
  negation : f.negation = spec.negation
  source : spec.source? = f.values.source?.map fun s => .string (Named.name s)
  bound : f.values.bound = spec.ownValues
  bound_ne_nil : f.values.bound ≠ []
  scalars : ∀ v ∈ f.values.bound, v.isScalar = true

end SubquerySpec

theorem Subquery.resolve_eq_ok {spec : SubquerySpec} {q : Subquery}
    (h : Subquery.resolve spec = .ok q) :
    Named.name q.template = spec.queryTemplate ∧ q.template.isFilter = true ∧
      q.values = spec.values ∧ q.negation = spec.negation := by
  obtain ⟨template, htemplate, h⟩ := bind_eq_ok h
  split at h
  next hfilter =>
    cases h
    exact ⟨Named.resolve_eq_ok htemplate, hfilter, rfl, rfl⟩
  next => cases h

namespace SubquerySpec

variable {limits : Limits} {spec : SubquerySpec} {f : AssociationFilter}

theorem yields_of_check (h : spec.check limits = .ok f) : spec.Yields f := by
  obtain ⟨q, hresolve, h⟩ := bind_eq_ok h
  obtain ⟨values, hvalues, h⟩ := bind_eq_ok h
  cases h
  obtain ⟨htemplate, -, hspec, hnegation⟩ := Subquery.resolve_eq_ok hresolve
  obtain ⟨htakes, hparts, hne, hscalars⟩ := QueryTemplate.filterValues_eq_ok hvalues
  rw [hspec] at hparts
  have hsource : spec.takesSource = values.source?.isSome := by
    rw [takesSource, ← htemplate]
    generalize q.template = t at htakes
    cases t <;> cases values <;> cases htakes <;> rfl
  refine ⟨htakes, htemplate, hnegation, ?_, ?_, hne, hscalars⟩
  · rw [source?, hsource, hparts]
    cases values.source? <;> rfl
  · rw [ownValues, hsource, hparts]
    cases values.source? <;> rfl

theorem Yields.projectUses (h : spec.Yields f) :
    f.template.projectsBefore + f.template.projectsAfter = spec.projectUses := by
  rw [SubquerySpec.projectUses, ← h.template]
  cases f.template <;> rfl

theorem join_eq (limits : Limits) (projectId : String) (index : Nat) (spec : SubquerySpec) :
    spec.join limits projectId index = (do
      let f ← spec.check limits
      let sql ← f.write projectId
      return ⟨if f.negation then .left else .inner, sql, subqueryAlias index⟩) := by
  unfold join check
  cases hresolve : Subquery.resolve spec with
  | error e => rfl
  | ok q =>
    obtain ⟨-, hfilter, -⟩ := Subquery.resolve_eq_ok hresolve
    change (q.template.render _ >>= _ : Binder Join) = _
    rw [QueryTemplate.render_filter hfilter]
    change ((liftM (q.template.filterValues limits q.values) >>= _) >>= _ : Binder Join) =
      liftM (q.template.filterValues limits q.values >>= _) >>= _
    generalize q.template.filterValues limits q.values = values
    cases values <;> rfl

theorem join_performs (limits : Limits) (projectId : String) (spec : SubquerySpec × Nat) :
    Binder.Performs (spec.1.join limits projectId spec.2)
      ((spec.1.check limits).map fun f => (f, spec.2)) (fun f => f.1.bound projectId)
      (AssociationFilter.join projectId) := by
  rw [join_eq]
  cases hcheck : spec.1.check limits with
  | error e => exact Binder.lift_error rfl _
  | ok f =>
    have hwrites := AssociationFilter.write_writes (yields_of_check hcheck).takes projectId
    exact hwrites.map fun sql =>
      (⟨if f.negation then .left else .inner, sql, subqueryAlias spec.2⟩ : Join)

end SubquerySpec

end RecordSearch
