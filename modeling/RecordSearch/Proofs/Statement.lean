import RecordSearch.Plan
import RecordSearch.Proofs.Filling
import RecordSearch.Proofs.Layout

/-!
# Plans laid out

The statement of a plan is the base template around its fragments, with the
project bound last. If the fragments of a plan are balanced then so is its
statement, and its bound values stand in this order: those of the joins, the
project, those of the conditions.
-/
namespace RecordSearch

open Json (Value)
open Sql (Fragment Piece Binder Erasure Substitution fixedAtoms ordinary sourceMarker walk)
open Sql.Binder (valuesAt)

theorem ordinary_subqueryAlias (index : Nat) :
    (subqueryAlias index).toList.all ordinary = true := by
  have hname : "sq_".toList.all ordinary = true := by decide
  rw [subqueryAlias, String.toList_append, List.all_append, hname,
    Fragment.ordinary_decimal index]
  rfl

theorem subqueryAlias_injective {i j : Nat} (h : subqueryAlias i = subqueryAlias j) : i = j := by
  have hdigits : Nat.toDigits 10 i = Nat.toDigits 10 j := by
    have hchars := congrArg String.toList h
    simpa [subqueryAlias, decimal] using hchars
  rw [← Nat.ofDigitChars_ten_toDigits (n := i), hdigits, Nat.ofDigitChars_ten_toDigits]

namespace Join

/-- The alias of a join is ordinary text, and its subquery is balanced. -/
structure Tidy (j : Join) : Prop where
  aliasName : j.aliasName.toList.all ordinary = true
  subquery : Fragment.Balanced j.subquery

theorem Tidy.balanced {j : Join} (h : j.Tidy) : Fragment.Balanced j.fragment := by
  have hopen : walk .outside (fixedAtoms (j.kind.text ++ " (")) = some .outside := by
    cases j.kind <;> decide
  have hclose : walk .apart (fixedAtoms (") " ++ j.aliasName ++ "\n    ON r.project_id = " ++
      j.aliasName ++ ".pID AND r.id = " ++ j.aliasName ++ ".rID")) = some .outside := by
    have hstart : walk .apart (fixedAtoms ") ") = some .outside := by decide
    have hproject : "\n    ON r.project_id = ".toList.all ordinary = true := by decide
    have hrecord : ".pID AND r.id = ".toList.all ordinary = true := by decide
    have hfirst :=
      Fragment.walk_fixed_append (Fragment.walk_fixed_append hstart h.aliasName) hproject
    have hsecond :=
      Fragment.walk_fixed_append (Fragment.walk_fixed_append hfirst h.aliasName) hrecord
    exact Fragment.walk_fixed_append (Fragment.walk_fixed_append hsecond h.aliasName) (by decide)
  exact Fragment.balancedFrom_fixed hopen
    (h.subquery.append (Fragment.balancedFrom_fixed hclose Fragment.balanced_nil))

theorem Tidy.balanced_absence {j : Join} (h : j.Tidy) {f : Fragment} (hf : j.absence? = some f) :
    Fragment.Balanced f := by
  unfold absence? at hf
  split at hf
  next =>
    obtain rfl := Option.some.inj hf
    have hname := Sql.Fragment.walk_fixed_outside h.aliasName
    exact Fragment.balancedFrom_fixed (Fragment.walk_fixed_append hname (by decide))
      Fragment.balanced_nil
  next => cases hf

theorem slots_absence {j : Join} {f : Fragment} (hf : j.absence? = some f) :
    Fragment.slots f = [] := by
  unfold absence? at hf
  split at hf
  next =>
    obtain rfl := Option.some.inj hf
    rfl
  next => cases hf

theorem clients_absence {j : Join} {f : Fragment} (hf : j.absence? = some f) :
    Fragment.clients f = [] := by
  unfold absence? at hf
  split at hf
  next =>
    obtain rfl := Option.some.inj hf
    rfl
  next => cases hf

theorem filterMap_fragment {β : Type} {g : Piece → Option β}
    (hg : ∀ text, g (.fixed text) = none) (j : Join) :
    j.fragment.filterMap g = j.subquery.filterMap g := by
  simp [fragment, hg]

/-- A join with the pieces of its subquery changed. -/
def mapPieces (g : Piece → Piece) (j : Join) : Join := { j with subquery := j.subquery.map g }

variable {g : Piece → Piece}

theorem map_fragment (hg : ∀ text, g (.fixed text) = .fixed text) (j : Join) :
    j.fragment.map g = (j.mapPieces g).fragment := by
  simp [fragment, mapPieces, hg]

theorem absences_mapPieces (hg : ∀ text, g (.fixed text) = .fixed text) (joins : List Join) :
    (joins.map (mapPieces g)).filterMap absence? =
      (joins.filterMap absence?).map (List.map g) := by
  have habsence : ∀ j : Join, (j.mapPieces g).absence? = j.absence?.map (List.map g) := by
    rintro ⟨kind, subquery, aliasName⟩
    cases kind <;> simp [absence?, mapPieces, hg]
  rw [List.filterMap_map, List.map_filterMap]
  congr 1
  funext j
  exact habsence j

end Join

namespace Plan

def selected (plan : Plan) : Fragment := plan.select.flatMap fun item => .fixed ", " :: item

def joined (plan : Plan) : Fragment :=
  Fragment.join "\n" (plan.joins.map Join.fragment ++ plan.orderJoin.toList)

def conditions (plan : Plan) : Fragment :=
  Fragment.join "\n" (plan.filters.map fun f => .fixed "AND " :: f)

def ordered (plan : Plan) : Fragment :=
  match plan.orderBy with
  | some expression => .fixed "ORDER BY " :: expression
  | none => []

/-- The entries of the base statement around the project. -/
def entries (plan : Plan) (project : Fragment) : Substitution := [
  ("@@SELECT_ADD@@", plan.selected),
  ("@@FROM_ADD@@", plan.joined),
  ("@@PROJECT_ID@@", project),
  ("@@WHERE_ADD@@", plan.conditions),
  ("@@ORDER_BY_ADD@@", plan.ordered)]

/-- The entries of the base statement, if the project is bound at `n`. -/
def table (plan : Plan) (n : Nat) : Substitution :=
  plan.entries (valuesAt n [.string plan.projectId])

def layout (plan : Plan) (n : Nat) : Fragment :=
  QueryTemplate.base.place (plan.table n) ++ boundLine "LIMIT" plan.limit ++
    boundLine "OFFSET" plan.offset

/-- The base statement takes any plan. -/
theorem fill_entries (plan : Plan) (project : Fragment) :
    QueryTemplate.base.fill (plan.entries project) =
      .ok (QueryTemplate.base.place (plan.entries project)) := by
  apply QueryTemplate.fill_eq_place
  intro m hm
  simp only [QueryTemplate.markerOrder, List.mem_cons, List.not_mem_nil, or_false] at hm
  rcases hm with rfl | rfl | rfl | rfl | rfl <;> rfl

theorem statement_writes (plan : Plan) :
    plan.statement.Writes [.string plan.projectId] plan.layout := by
  have hsubstitution : plan.substitution.Writes [.string plan.projectId] plan.table :=
    (Binder.writes_value _).map _
  intro bound
  rw [statement, Binder.runOn_bind, hsubstitution bound]
  dsimp only
  rw [table, fill_entries]
  rfl

/-- All that goes into the slots of the base statement is balanced. -/
structure Tidy (plan : Plan) : Prop where
  select : ∀ f ∈ plan.select, Fragment.Balanced f
  joins : ∀ j ∈ plan.joins, j.Tidy
  orderJoin : ∀ f ∈ plan.orderJoin, Fragment.Balanced f
  filters : ∀ f ∈ plan.filters, Fragment.Balanced f
  orderBy : ∀ f ∈ plan.orderBy, Fragment.Balanced f

variable {plan : Plan}

theorem Tidy.balanced_selected (h : plan.Tidy) : Fragment.Balanced plan.selected := by
  have hitems : ∀ items : List Fragment, (∀ f ∈ items, Fragment.Balanced f) →
      Fragment.Follows (items.flatMap fun item => .fixed ", " :: item) := by
    intro items hitems
    induction items with
    | nil => exact Fragment.follows_nil
    | cons item items ih =>
      rw [List.flatMap_cons]
      have hitem : Fragment.Follows (.fixed ", " :: item) :=
        Fragment.balancedFrom_fixed (by decide) (hitems item (by simp))
      exact hitem.append (ih fun f hf => hitems f (by simp [hf]))
  exact (hitems plan.select h.select).balanced

theorem Tidy.balanced_joined (h : plan.Tidy) : Fragment.Balanced plan.joined := by
  apply Fragment.balanced_join (by decide)
  intro f hf
  rcases List.mem_append.1 hf with hf | hf
  · obtain ⟨j, hj, rfl⟩ := List.mem_map.1 hf
    exact (h.joins j hj).balanced
  · exact h.orderJoin f (by simpa using hf)

theorem Tidy.balanced_conditions (h : plan.Tidy) : Fragment.Balanced plan.conditions := by
  apply Fragment.balanced_join (by decide)
  intro f hf
  obtain ⟨g, hg, rfl⟩ := List.mem_map.1 hf
  exact Fragment.balancedFrom_fixed (by decide) (h.filters g hg)

theorem Tidy.balanced_ordered (h : plan.Tidy) : Fragment.Balanced plan.ordered := by
  unfold ordered
  split
  next expression hexpression =>
    exact Fragment.balancedFrom_fixed (by decide) (h.orderBy expression hexpression)
  next => exact Fragment.balanced_nil

theorem follows_boundLine {keyword : String} (h : keyword ∈ ["LIMIT", "OFFSET"])
    (count : Option Nat) : Fragment.Follows (boundLine keyword count) := by
  have hkeyword : ∀ k ∈ ["LIMIT", "OFFSET"],
      walk .apart (fixedAtoms (k ++ " ")) = some .outside := by
    decide
  cases count with
  | none => exact Fragment.follows_nil
  | some n =>
    refine Fragment.balancedFrom_fixed ?_ Fragment.balanced_nil
    exact Fragment.walk_fixed_append
      (Fragment.walk_fixed_append (hkeyword keyword h) (Fragment.ordinary_decimal n)) (by decide)

theorem Tidy.balanced_layout (h : plan.Tidy) (n : Nat) : Fragment.Balanced (plan.layout n) := by
  have hbase : Fragment.Balanced (QueryTemplate.base.place (plan.table n)) := by
    refine QueryTemplate.balanced_place .manual (fun hmem => ?_) fun entry hentry _ => ?_
    · exact absurd hmem (by decide)
    · simp only [table, entries, List.mem_cons, List.not_mem_nil, or_false] at hentry
      rcases hentry with rfl | rfl | rfl | rfl | rfl
      · exact h.balanced_selected
      · exact h.balanced_joined
      · exact Sql.balanced_valuesAt n _
      · exact h.balanced_conditions
      · exact h.balanced_ordered
  exact (hbase.append (follows_boundLine (by decide) plan.limit)).append
    (follows_boundLine (by decide) plan.offset)

/-- What is collected piece by piece, but not from fixed text, in the order of the
statement. -/
theorem filterMap_layout {β : Type} {g : Piece → Option β}
    (hg : ∀ text, g (.fixed text) = none) (plan : Plan) (n : Nat) :
    (plan.layout n).filterMap g =
      plan.select.flatMap (List.filterMap g) ++
        (plan.joins.flatMap (fun j => j.subquery.filterMap g) ++
          plan.orderJoin.toList.flatMap (List.filterMap g) ++
          ((g (.value n (.string plan.projectId))).toList ++
            (plan.filters.flatMap (List.filterMap g) ++
              plan.orderBy.toList.flatMap (List.filterMap g)))) := by
  have hline : ∀ keyword count, (boundLine keyword count).filterMap g = [] := by
    intro keyword count
    cases count with
    | none => rfl
    | some m => simp [boundLine, hg]
  have hselected : plan.selected.filterMap g = plan.select.flatMap (List.filterMap g) := by
    rw [selected, List.filterMap_flatMap]
    simp [hg]
  have hjoined : plan.joined.filterMap g =
      plan.joins.flatMap (fun j => j.subquery.filterMap g) ++
        plan.orderJoin.toList.flatMap (List.filterMap g) := by
    rw [joined, Fragment.filterMap_join hg, List.flatMap_append, List.flatMap_map]
    simp only [Join.filterMap_fragment hg]
  have hproject : (valuesAt n [.string plan.projectId]).filterMap g =
      (g (.value n (.string plan.projectId))).toList := by
    rw [Sql.valuesAt_singleton, List.filterMap_cons]
    cases g (.value n (.string plan.projectId)) <;> rfl
  have hconditions : plan.conditions.filterMap g = plan.filters.flatMap (List.filterMap g) := by
    rw [conditions, Fragment.filterMap_join hg, List.flatMap_map]
    simp [hg]
  have hordered : plan.ordered.filterMap g =
      plan.orderBy.toList.flatMap (List.filterMap g) := by
    unfold ordered
    cases plan.orderBy with
    | none => rfl
    | some expression => simp [hg]
  have hplace := Sql.filterMap_place hg (plan.table n) (Sql.segments QueryTemplate.base.text.toList)
  rw [QueryTemplate.filterMap_marker?] at hplace
  rw [layout, List.filterMap_append, List.filterMap_append, hline, hline, List.append_nil,
    List.append_nil, QueryTemplate.place, hplace, ← hselected, ← hjoined, ← hproject,
    ← hconditions, ← hordered]
  simp [QueryTemplate.markerOrder, table, entries, List.lookup_cons]

/-- The order of the text: the joins, the project, the conditions. -/
theorem slots_layout {plan : Plan} (hselect : ∀ f ∈ plan.select, Fragment.slots f = [])
    (horderJoin : ∀ f ∈ plan.orderJoin, Fragment.slots f = [])
    (horderBy : ∀ f ∈ plan.orderBy, Fragment.slots f = []) (n : Nat) :
    Fragment.slots (plan.layout n) =
      plan.joins.flatMap (fun j => Fragment.slots j.subquery) ++
        (n, .string plan.projectId) :: plan.filters.flatMap Fragment.slots := by
  have hnone : ∀ fs : List Fragment, (∀ f ∈ fs, Fragment.slots f = []) →
      fs.flatMap (List.filterMap Piece.slot?) = [] :=
    fun fs hfs => List.flatMap_eq_nil_iff.2 hfs
  refine (filterMap_layout Piece.slot?_fixed plan n).trans ?_
  rw [hnone _ hselect, hnone plan.orderJoin.toList fun f hf => horderJoin f (by simpa using hf),
    hnone plan.orderBy.toList fun f hf => horderBy f (by simpa using hf), List.append_nil,
    List.append_nil]
  rfl

/-- All fragments that go into the slots of the base statement. -/
def fragments (plan : Plan) : List Fragment :=
  plan.select ++ plan.joins.map Join.subquery ++ plan.orderJoin.toList ++ plan.filters ++
    plan.orderBy.toList

theorem mem_clients_layout {plan : Plan} {n : Nat} {q : Char × String}
    (h : q ∈ Fragment.clients (plan.layout n)) :
    ∃ f ∈ plan.fragments, q ∈ Fragment.clients f := by
  have hall : Fragment.clients (plan.layout n) = _ :=
    filterMap_layout Piece.client?_fixed plan n
  rw [hall] at h
  simp only [List.mem_append, List.mem_flatMap] at h
  simp only [fragments, List.mem_append, List.mem_map]
  rcases h with ⟨f, hf, hq⟩ | (⟨j, hj, hq⟩ | ⟨f, hf, hq⟩) | hq | ⟨f, hf, hq⟩ | ⟨f, hf, hq⟩
  · exact ⟨f, by simp [hf], hq⟩
  · exact ⟨j.subquery, .inl (.inl (.inl (.inr ⟨j, hj, rfl⟩))), hq⟩
  · exact ⟨f, by simp [hf], hq⟩
  · cases hq
  · exact ⟨f, by simp [hf], hq⟩
  · exact ⟨f, by simp [hf], hq⟩

/-- A plan with all its pieces changed. -/
def mapPieces (g : Piece → Piece) (plan : Plan) : Plan :=
  { plan with
    select := plan.select.map (List.map g)
    joins := plan.joins.map (Join.mapPieces g)
    orderJoin := plan.orderJoin.map (List.map g)
    filters := plan.filters.map (List.map g)
    orderBy := plan.orderBy.map (List.map g) }

theorem fragments_mapPieces (g : Piece → Piece) (plan : Plan) :
    (plan.mapPieces g).fragments = plan.fragments.map (List.map g) := by
  simp only [fragments, mapPieces, List.map_append, List.map_map, Option.toList_map]
  rfl

section MapPieces

variable {g : Piece → Piece} (hg : ∀ text, g (.fixed text) = .fixed text)

include hg

theorem map_selected (plan : Plan) :
    plan.selected.map g = (plan.mapPieces g).selected := by
  simp [selected, mapPieces, List.map_flatMap, List.flatMap_map, hg]

theorem map_joined (plan : Plan) :
    plan.joined.map g = (plan.mapPieces g).joined := by
  rw [joined, joined, Fragment.map_join hg]
  simp only [mapPieces, List.map_append, List.map_map, Option.toList_map]
  congr 2
  exact List.map_congr_left fun j _ => j.map_fragment hg

theorem map_conditions (plan : Plan) :
    plan.conditions.map g = (plan.mapPieces g).conditions := by
  rw [conditions, conditions, Fragment.map_join hg]
  simp [mapPieces, Function.comp_def, hg]

theorem map_ordered (plan : Plan) :
    plan.ordered.map g = (plan.mapPieces g).ordered := by
  unfold ordered mapPieces
  cases plan.orderBy <;> simp [hg]

theorem map_boundLine (keyword : String) (bound : Option Nat) :
    (boundLine keyword bound).map g = boundLine keyword bound := by
  cases bound <;> simp [boundLine, hg]

theorem mapPieces_entries (plan : Plan) (project : Fragment) :
    (plan.entries project).mapPieces g = (plan.mapPieces g).entries (project.map g) := by
  rw [entries, entries, ← map_selected hg, ← map_joined hg, ← map_conditions hg,
    ← map_ordered hg]
  rfl

theorem map_layout (plan : Plan) (n : Nat) :
    (plan.layout n).map g =
      QueryTemplate.base.place
          ((plan.mapPieces g).entries [g (.value n (.string plan.projectId))]) ++
        boundLine "LIMIT" plan.limit ++ boundLine "OFFSET" plan.offset := by
  rw [layout, List.map_append, List.map_append, map_boundLine hg, map_boundLine hg,
    QueryTemplate.map_place hg, table, mapPieces_entries hg, Sql.valuesAt_singleton]
  rfl

end MapPieces

/-- A plan with its fragments erased, and without its project. -/
def erase (e : Erasure) (plan : Plan) : Plan where
  select := plan.select.map (Fragment.erase e)
  joins := plan.joins.map (Join.mapPieces (Piece.erase e))
  orderJoin := plan.orderJoin.map (Fragment.erase e)
  filters := plan.filters.map (Fragment.erase e)
  orderBy := plan.orderBy.map (Fragment.erase e)
  limit := plan.limit
  offset := plan.offset

/-- Plans alike, and with alike projects, have alike statements. -/
theorem erase_layout {e : Erasure} {plan plan' : Plan} (h : plan.erase e = plan'.erase e)
    (hproject : e.value (.string plan.projectId) = e.value (.string plan'.projectId)) (n : Nat) :
    Fragment.erase e (plan.layout n) = Fragment.erase e (plan'.layout n) := by
  have hentries : ∀ project, (plan.mapPieces (Piece.erase e)).entries project =
      (plan'.mapPieces (Piece.erase e)).entries project := by
    intro project
    have herased : (plan.erase e).entries project = (plan'.erase e).entries project := by rw [h]
    exact herased
  have hlimit : (plan.erase e).limit = (plan'.erase e).limit := by rw [h]
  have hoffset : (plan.erase e).offset = (plan'.erase e).offset := by rw [h]
  change plan.limit = plan'.limit at hlimit
  change plan.offset = plan'.offset at hoffset
  rw [Fragment.erase, Fragment.erase, map_layout fun _ => rfl, map_layout fun _ => rfl,
    Piece.erase, Piece.erase, hproject, hentries, hlimit, hoffset]

end Plan

end RecordSearch
