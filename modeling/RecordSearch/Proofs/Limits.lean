import RecordSearch.Proofs.Failure

/-!
# Limits

The limits on a request are checked after everything else that is asked of what they
limit, and nothing that is built depends on them. Without limits a request is accepted
or not; with limits it is accepted if it was and nothing in it is too long.
-/
namespace RecordSearch

open Json (Value)

/-- The lengths of the lists of a filter: of its operands, if they are a list. -/
def FilterSpec.lists (spec : FilterSpec) : List Nat :=
  if spec.operator = "IN" then [spec.operands.length] else []

def SubquerySpec.lists (spec : SubquerySpec) : List Nat :=
  if spec.takesSource || spec.queryTemplate = "SUBQUERY_RLA_CREATED_BY" then
    [spec.ownValues.length]
  else []

/-- What is wrong with lists of some lengths: the first that is too long. -/
def overlong? (limits : Limits) (counts : List Nat) : Option MalformedValues :=
  (counts.find? fun count => !withinLimit limits.maxInValues count).map fun count =>
    .longInList count limits.maxInValues

theorem overlong?_append (limits : Limits) (counts counts' : List Nat) :
    overlong? limits (counts ++ counts') =
      (overlong? limits counts).or (overlong? limits counts') := by
  rw [overlong?, List.find?_append, Option.map_or]
  rfl

namespace SearchRequest

def lists (request : SearchRequest) : List Nat :=
  request.filters.flatMap FilterSpec.lists ++ request.subqueries.flatMap SubquerySpec.lists

/-- There are no more filters and no longer lists than the limits allow. -/
def Within (limits : Limits) (request : SearchRequest) : Prop :=
  withinLimit limits.maxFilters request.filters.length = true ∧
    ∀ count ∈ request.lists, withinLimit limits.maxInValues count = true

/-- What a request is refused for if it is not within the limits: its filters are too
many, or else one of its lists is too long. -/
def overrun? (limits : Limits) (request : SearchRequest) : Option MalformedValues :=
  if withinLimit limits.maxFilters request.filters.length then overlong? limits request.lists
  else some (.tooManyFilters request.filters.length limits.maxFilters)

theorem overrun?_eq_none_iff {limits : Limits} {request : SearchRequest} :
    request.overrun? limits = none ↔ request.Within limits := by
  unfold overrun? Within overlong?
  split <;> simp_all

end SearchRequest

/-- The limit allows all that the other one does. Zero is no limit. -/
def NoTighter (limit' limit : Nat) : Prop := limit' = 0 ∨ (limit ≠ 0 ∧ limit ≤ limit')

theorem NoTighter.within {limit' limit count : Nat} (h : NoTighter limit' limit)
    (hwithin : withinLimit limit count = true) : withinLimit limit' count = true := by
  simp only [withinLimit, Bool.or_eq_true, decide_eq_true_eq] at hwithin ⊢
  unfold NoTighter at h
  omega

structure Limits.Loosens (limits' limits : Limits) : Prop where
  maxFilters : NoTighter limits'.maxFilters limits.maxFilters
  maxInValues : NoTighter limits'.maxInValues limits.maxInValues

theorem SearchRequest.Within.loosen {limits limits' : Limits} {request : SearchRequest}
    (h : request.Within limits) (hloosens : limits'.Loosens limits) : request.Within limits' :=
  ⟨hloosens.maxFilters.within h.1,
    fun count hcount => hloosens.maxInValues.within (h.2 count hcount)⟩

def checkLists (limits : Limits) (counts : List Nat) : Except SearchError Unit :=
  match overlong? limits counts with
  | some cause => .error (.malformed cause)
  | none => .ok ()

theorem checkLists_singleton (limits : Limits) (count : Nat) :
    checkLists limits [count] = checkInList limits count := by
  unfold checkLists overlong? checkInList
  rw [List.find?_singleton]
  cases withinLimit limits.maxInValues count <;> rfl

theorem checkLists_eq_ok_iff {limits : Limits} {counts : List Nat} :
    checkLists limits counts = .ok () ↔
      ∀ count ∈ counts, withinLimit limits.maxInValues count = true := by
  unfold checkLists overlong?
  cases hfind : counts.find? fun count => !withinLimit limits.maxInValues count with
  | none => simpa using hfind
  | some count =>
    have hmem := List.mem_of_find?_eq_some hfind
    have hover := List.find?_some hfind
    simp only [Option.map_some, reduceCtorEq, false_iff]
    intro hall
    simp [hall count hmem] at hover

theorem failure?_checkLists (limits : Limits) (counts : List Nat) :
    failure? (checkLists limits counts) = (overlong? limits counts).map .malformed := by
  unfold checkLists
  cases overlong? limits counts <;> rfl

variable {α ε : Type} {x y : Except ε α} {measure : Except ε Unit} {a : α}

theorem ok_of_measured (h : x = y >>= fun a => measure >>= fun _ => .ok a) (hx : x = .ok a) :
    y = .ok a := by
  obtain ⟨b, hy, hb⟩ := bind_eq_ok (h.symm.trans hx)
  obtain ⟨_, -, hab⟩ := bind_eq_ok hb
  rwa [Except.ok.inj hab] at hy

theorem failure?_of_measured (h : x = y >>= fun a => measure >>= fun _ => .ok a)
    (hy : y = .ok a) : failure? x = failure? measure := by
  rw [h, hy]
  exact failure?_bind_ok measure fun _ => a

/-- Elements that are accepted but for their lists fail as the first list that is too long. -/
theorem findSome?_measured {β δ : Type} {limits : Limits} {f g : δ → Except SearchError β}
    {lists : δ → List Nat}
    (h : ∀ x, f x = g x >>= fun y => checkLists limits (lists x) >>= fun _ => .ok y)
    {xs : List δ} {ys : List β} (hxs : xs.mapM g = .ok ys) :
    (xs.findSome? fun x => failure? (f x)) =
      (overlong? limits (xs.flatMap lists)).map .malformed := by
  induction xs generalizing ys with
  | nil => rfl
  | cons x xs ih =>
    obtain ⟨y, zs, hx, hrest, rfl⟩ := mapM_cons_ok hxs
    rw [List.findSome?_cons, failure?_of_measured (h x) hx, failure?_checkLists, ih hrest,
      List.flatMap_cons, overlong?_append]
    cases overlong? limits (lists x) <;> rfl

theorem Filter.exists_predicate {f : Filter} {operand : Operand}
    (hhas : f.table.has f.column = true) (h : f.operand = .ok operand) :
    ∃ p, f.predicate = .ok p := by
  obtain ⟨key, hkey, -⟩ := bind_eq_ok h
  have hcolumn : f.table.columnName f.column = .ok f.column.physical := by
    rw [TargetTable.columnName, if_pos hhas]
  unfold predicate columnRef
  rw [hcolumn, hkey, h]
  cases key <;> exact ⟨_, rfl⟩

theorem checkLength_of_operand {spec : FilterSpec} {f : Filter} {operand : Operand}
    (hresolve : Filter.resolve spec = .ok f) (h : f.operand = .ok operand) (limits : Limits) :
    operand.checkLength limits = checkLists limits spec.lists := by
  have hoperator : Named.name f.operator = spec.operator :=
    (Filter.resolve_eq_ok hresolve).2.2.1
  rw [FilterSpec.lists, ← hoperator, FilterSpec.operands_of_resolve hresolve]
  rcases (Filter.operand_eq_ok h).2 with ⟨hop, -, rfl⟩ | ⟨hop, v, -, rfl⟩
  · rw [hop]
    exact (checkLists_singleton limits _).symm
  · have hname : Named.name f.operator ≠ "IN" :=
      fun hname => hop (Named.name_injective (b := Operator.isIn) hname)
    rw [if_neg hname]
    rfl

theorem FilterSpec.check_eq (limits : Limits) (spec : FilterSpec) :
    spec.check limits = spec.check {} >>= fun p =>
      checkLists limits spec.lists >>= fun _ => .ok p := by
  unfold check
  cases hresolve : Filter.resolve spec with
  | error e => rfl
  | ok f =>
    change f.operand >>= _ = (f.operand >>= _) >>= _
    cases hoperand : f.operand with
    | error e => rfl
    | ok operand =>
      obtain ⟨p, hp⟩ := Filter.exists_predicate (Filter.resolve_eq_ok hresolve).2.2.2.1 hoperand
      have hlists := checkLength_of_operand hresolve hoperand limits
      change operand.checkLength limits >>= (fun _ => f.predicate) =
        (operand.checkLength {} >>= fun _ => f.predicate) >>= _
      rw [hp, hlists]
      cases operand <;> rfl

def SubqueryValues.lists : SubqueryValues → List Nat
  | .idsFromSource _ ids => [ids.length]
  | .creators ids => [ids.length]
  | .bounds _ _ | .task _ => []

namespace QueryTemplate

theorem sourceAndIds_eq (t : QueryTemplate) (limits : Limits) (vs : List Value) :
    t.sourceAndIds limits vs = t.sourceAndIds {} vs >>= fun values =>
      checkLists limits values.lists >>= fun _ => .ok values := by
  unfold sourceAndIds
  split
  next name id ids =>
    cases (Named.resolve name : Except SearchError LabelSource) with
    | error e => rfl
    | ok source =>
      cases hscalars : requireScalars (id :: ids) with
      | error e => rfl
      | ok _ =>
        change (checkInList limits (id :: ids).length >>= fun _ => _) =
          checkLists limits [(id :: ids).length] >>= fun _ => _
        rw [checkLists_singleton]
        rfl
  next => rfl

theorem creators_eq (t : QueryTemplate) (limits : Limits) (vs : List Value) :
    t.creators limits vs = t.creators {} vs >>= fun values =>
      checkLists limits values.lists >>= fun _ => .ok values := by
  unfold creators
  cases requireStrings "creator ids" vs with
  | error e => rfl
  | ok ids =>
    cases ids with
    | nil => rfl
    | cons id ids =>
      change (checkInList limits (id :: ids).length >>= fun _ => _) =
        checkLists limits [(id :: ids).length] >>= fun _ => _
      rw [checkLists_singleton]
      rfl

theorem filterValues_eq (t : QueryTemplate) (limits : Limits) (vs : List Value) :
    t.filterValues limits vs = t.filterValues {} vs >>= fun values =>
      checkLists limits values.lists >>= fun _ => .ok values := by
  cases t with
  | label | noLabel | informationSource => exact sourceAndIds_eq _ limits vs
  | createdBy => exact creators_eq _ limits vs
  | confidence | callbackConfidence =>
    change confidenceBounds _ vs = confidenceBounds _ vs >>= _
    cases hvalues : confidenceBounds _ vs with
    | error e => rfl
    | ok values =>
      obtain ⟨lower, upper, rfl, -⟩ := confidenceBounds_eq_ok hvalues
      rfl
  | differentClassification | differentExtraction =>
    change taskId _ vs = taskId _ vs >>= _
    cases hvalues : taskId _ vs with
    | error e => rfl
    | ok values =>
      obtain ⟨id, rfl, -⟩ := taskId_eq_ok hvalues
      rfl
  | base | orderJoin => rfl

end QueryTemplate

theorem SubquerySpec.Yields.lists {spec : SubquerySpec} {f : AssociationFilter}
    (h : spec.Yields f) : spec.lists = f.values.lists := by
  rw [SubquerySpec.lists, takesSource, ← h.bound, ← h.template]
  have htakes := h.takes
  generalize f.template = t at htakes
  generalize f.values = values at htakes
  cases t <;> cases values <;> cases htakes <;>
    simp [SubqueryValues.lists, SubqueryValues.bound, Named.name]

theorem SubquerySpec.check_eq (limits : Limits) (spec : SubquerySpec) :
    spec.check limits = spec.check {} >>= fun f =>
      checkLists limits spec.lists >>= fun _ => .ok f := by
  cases hresolve : Subquery.resolve spec with
  | error e =>
    unfold check
    rw [hresolve]
    rfl
  | ok q =>
    have hcheck : ∀ limits, spec.check limits =
        q.template.filterValues limits q.values >>= fun values =>
          .ok ⟨q.template, values, q.negation⟩ := by
      intro limits
      unfold check
      rw [hresolve]
      rfl
    rw [hcheck limits, QueryTemplate.filterValues_eq]
    cases hvalues : q.template.filterValues {} q.values with
    | error e =>
      rw [hcheck, hvalues]
      rfl
    | ok values =>
      have haccepted : spec.check {} = .ok ⟨q.template, values, q.negation⟩ := by
        rw [hcheck, hvalues]
        rfl
      rw [haccepted, (yields_of_check haccepted).lists]
      change (checkLists limits values.lists >>= _) >>= _ = checkLists limits values.lists >>= _
      cases checkLists limits values.lists <;> rfl

namespace SearchRequest

variable {limits limits' : Limits} {request : SearchRequest} {c : AcceptedRequest}

theorem checkRequest_unlimited (h : checkRequest limits request = .ok ()) :
    checkRequest {} request = .ok () :=
  checkRequest_eq_ok_iff.2 ⟨(checkRequest_eq_ok_iff.1 h).1, rfl⟩

theorem failure?_checkRequest (h : checkRequest {} request = .ok ()) (limits : Limits) :
    failure? (checkRequest limits request) =
      if withinLimit limits.maxFilters request.filters.length then none
      else some (.malformed (.tooManyFilters request.filters.length limits.maxFilters)) := by
  unfold checkRequest at h ⊢
  split at h
  next => cases h
  next hblank =>
    rw [if_neg hblank]
    split <;> rfl

/-- What is accepted with limits is accepted without them, and is the same. -/
theorem check_unlimited (h : request.check limits = .ok c) : request.check {} = .ok c := by
  obtain ⟨_, hrequest, h⟩ := bind_eq_ok h
  obtain ⟨predicates, hpredicates, h⟩ := bind_eq_ok h
  obtain ⟨associations, hassociations, h⟩ := bind_eq_ok h
  have hfilters : request.filters.mapM (FilterSpec.check {}) = .ok predicates :=
    mapM_ok_mono (fun spec _ => ok_of_measured (spec.check_eq limits)) hpredicates
  have hsubqueries : request.subqueries.mapM (SubquerySpec.check {}) = .ok associations :=
    mapM_ok_mono (fun spec _ => ok_of_measured (spec.check_eq limits)) hassociations
  rw [check, checkRequest_unlimited hrequest, hfilters, hsubqueries]
  exact h

/-- With limits, an accepted request fails exactly as it overruns them. -/
theorem failure?_check_limits (h : request.check {} = .ok c) (limits : Limits) :
    failure? (request.check limits) = (request.overrun? limits).map .malformed := by
  obtain ⟨_, hrequest, h⟩ := bind_eq_ok h
  obtain ⟨predicates, hpredicates, h⟩ := bind_eq_ok h
  obtain ⟨associations, hassociations, h⟩ := bind_eq_ok h
  obtain ⟨order, horder, -⟩ := bind_eq_ok h
  have hfilters := findSome?_measured (fun spec => spec.check_eq limits) hpredicates
  have hsubqueries := findSome?_measured (fun spec => spec.check_eq limits) hassociations
  have hparts : (request.order.toList.findSome? fun spec => failure? spec.parts) = none := by
    rw [← failure?_orderParts, horder, failure?_ok]
  rw [failure?_check, failure?_checkRequest hrequest, hfilters, hsubqueries, hparts, overrun?,
    lists, overlong?_append, Option.or_none, ← Option.map_or]
  split <;> rfl

theorem check_limits (h : request.check {} = .ok c) (limits : Limits) :
    request.check limits = match request.overrun? limits with
      | some cause => .error (.malformed cause)
      | none => .ok c := by
  have hfailure := failure?_check_limits h limits
  cases hoverrun : request.overrun? limits with
  | some cause =>
    rw [hoverrun] at hfailure
    exact failure?_eq_some_iff.1 hfailure
  | none =>
    rw [hoverrun] at hfailure
    obtain ⟨c', hc'⟩ := failure?_eq_none_iff.1 hfailure
    have hsame := check_unlimited hc'
    rw [h] at hsame
    rw [hc', Except.ok.inj hsame]

theorem check_of_within (h : request.check {} = .ok c) (hwithin : request.Within limits) :
    request.check limits = .ok c := by
  rw [check_limits h, overrun?_eq_none_iff.2 hwithin]

theorem within_of_check (h : request.check limits = .ok c) : request.Within limits := by
  rw [← overrun?_eq_none_iff]
  cases hoverrun : request.overrun? limits with
  | none => rfl
  | some cause =>
    rw [check_limits (check_unlimited h), hoverrun] at h
    cases h

/-- Whether there are too many filters is asked once, of the filters alone. -/
theorem check_of_few_filters (h : withinLimit limits.maxFilters request.filters.length = true) :
    request.check limits = request.check { limits with maxFilters := 0 } := by
  have hrequest : checkRequest limits request =
      checkRequest { limits with maxFilters := 0 } request := by
    unfold checkRequest
    rw [h]
    rfl
  rw [check, hrequest]
  rfl

end SearchRequest

namespace Config

/-- Limits refuse and do nothing else. Looser limits build the same; without limits all is
built that any limits allow, and the limits refuse of it exactly what is not within them.
A limit on filters that the filters keep is none, whatever subqueries there are. -/
theorem build_limits_exact (mode : Sql.RenderMode) (quoting : Sql.Quoting)
    (dialect : Sql.Dialect) (request : SearchRequest) :
    (∀ limits limits' compiled, limits'.Loosens limits →
      build ⟨mode, quoting, limits⟩ dialect request = .ok compiled →
        build ⟨mode, quoting, limits'⟩ dialect request = .ok compiled) ∧
    (∀ compiled, build ⟨mode, quoting, {}⟩ dialect request = .ok compiled → ∀ limits,
      (request.Within limits → build ⟨mode, quoting, limits⟩ dialect request = .ok compiled) ∧
      (¬ request.Within limits → ∃ cause, request.overrun? limits = some cause ∧
        build ⟨mode, quoting, limits⟩ dialect request = .error (.malformed cause))) ∧
    ∀ limits : Limits, withinLimit limits.maxFilters request.filters.length = true →
      build ⟨mode, quoting, limits⟩ dialect request =
        build ⟨mode, quoting, { limits with maxFilters := 0 }⟩ dialect request := by
  refine ⟨fun limits limits' compiled hloosens h => ?_, fun compiled h limits => ?_,
    fun limits hfew => ?_⟩
  · obtain ⟨c, hcheck, -, rfl⟩ := build_eq_ok h
    have hwithin := (SearchRequest.within_of_check hcheck).loosen hloosens
    rw [build_eq, SearchRequest.check_of_within (SearchRequest.check_unlimited hcheck) hwithin]
    rfl
  · obtain ⟨c, hcheck, -, rfl⟩ := build_eq_ok h
    constructor
    · intro hwithin
      rw [build_eq, SearchRequest.check_of_within hcheck hwithin]
      rfl
    · intro hover
      rw [← SearchRequest.overrun?_eq_none_iff, ← ne_eq, Option.ne_none_iff_exists'] at hover
      obtain ⟨cause, hcause⟩ := hover
      refine ⟨cause, hcause, ?_⟩
      rw [build_eq, SearchRequest.check_limits hcheck, hcause]
      rfl
  · rw [build_eq, build_eq, SearchRequest.check_of_few_filters hfew]
    rfl

def byLists : SearchRequest where
  projectId := "p"
  filters := [⟨"RECORD", "DATA", "IN", [.string "k", .string "a", .string "b"]⟩]
  subqueries := [⟨"SUBQUERY_RLA_LABEL", [.string "MANUAL", .string "x", .string "y"], false⟩]

/-- Neither the key nor the label source is counted, and a subquery is no filter. -/
theorem build_limits_of_two :
    ∃ compiled,
      build { limits := ⟨1, 2⟩ } .postgres byLists = .ok compiled ∧
        build { limits := ⟨1, 7⟩ } .postgres byLists = .ok compiled ∧
        build { limits := ⟨1, 1⟩ } .postgres byLists =
          .error (.malformed (.longInList 2 1)) ∧
        build { limits := ⟨1, 1⟩ } .postgres byLists =
          build { limits := ⟨0, 1⟩ } .postgres byLists := by
  obtain ⟨compiled, h⟩ : ∃ compiled, build {} .postgres byLists = .ok compiled := by
    rw [build_eq]
    exact ⟨_, rfl⟩
  obtain ⟨hmono, hexact, hfew⟩ := build_limits_exact .literal .verbatim .postgres byLists
  have htwo := (hexact compiled h ⟨1, 2⟩).1 ⟨rfl, by decide⟩
  have hloosens : Limits.Loosens ⟨1, 7⟩ ⟨1, 2⟩ := ⟨.inr (by decide), .inr (by decide)⟩
  refine ⟨compiled, htwo, hmono _ _ _ hloosens htwo, ?_, hfew ⟨1, 1⟩ rfl⟩
  have hover : ¬ byLists.Within ⟨1, 1⟩ := fun hwithin => absurd (hwithin.2 2) (by decide)
  obtain ⟨cause, hcause, herror⟩ := (hexact compiled h ⟨1, 1⟩).2 hover
  obtain rfl := Option.some.inj hcause
  exact herror

end Config

end RecordSearch
