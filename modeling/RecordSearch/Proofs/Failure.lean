import RecordSearch.Proofs.Accepted

/-!
# Failures one by one

What a request is refused for is decided element by element. Every element alone
makes a request of its own, and the whole fails as the first of these that does.
-/
namespace RecordSearch

variable {α β ε : Type}

def failure? : Except ε α → Option ε
  | .ok _ => none
  | .error e => some e

@[simp] theorem failure?_ok (a : α) : failure? (.ok a : Except ε α) = none := rfl

@[simp] theorem failure?_error (e : ε) : failure? (.error e : Except ε α) = some e := rfl

theorem failure?_eq_none_iff {x : Except ε α} : failure? x = none ↔ ∃ a, x = .ok a := by
  cases x <;> simp

theorem failure?_eq_some_iff {x : Except ε α} {e : ε} : failure? x = some e ↔ x = .error e := by
  cases x <;> simp

@[simp] theorem failure?_map (f : α → β) (x : Except ε α) : failure? (x.map f) = failure? x := by
  cases x <;> rfl

/-- A chain fails as its first part, or else as what follows. -/
theorem failure?_bind {x : Except ε α} {f : α → Except ε β} {after : Option ε}
    (hf : ∀ a, failure? (f a) = after) : failure? (x >>= f) = (failure? x).or after := by
  cases x with
  | error e => rfl
  | ok a => exact hf a

theorem failure?_bind_ok (x : Except ε α) (f : α → β) :
    failure? (x >>= fun a => .ok (f a)) = failure? x := by
  cases x <;> rfl

theorem failure?_mapM (f : α → Except ε β) (xs : List α) :
    failure? (xs.mapM f) = xs.findSome? fun x => failure? (f x) := by
  induction xs with
  | nil => rfl
  | cons x xs ih =>
    have hrest : ∀ y, failure? (xs.mapM f >>= fun ys => .ok (y :: ys)) =
        xs.findSome? fun x => failure? (f x) := by
      intro y
      rw [failure?_bind_ok, ih]
    have hcons : failure? ((x :: xs).mapM f) =
        (failure? (f x)).or (xs.findSome? fun x => failure? (f x)) := by
      rw [List.mapM_cons]
      exact failure?_bind hrest
    rw [hcons, List.findSome?_cons]
    cases failure? (f x) <;> rfl

namespace SearchRequest

def ofFilter (projectId : String) (spec : FilterSpec) : SearchRequest where
  projectId
  filters := [spec]

def ofSubquery (projectId : String) (spec : SubquerySpec) : SearchRequest where
  projectId
  subqueries := [spec]

def ofOrder (projectId : String) (spec : OrderSpec) : SearchRequest where
  projectId
  order := some spec

/-- The requests for one element each, in the order of planning. -/
def singles (request : SearchRequest) : List SearchRequest :=
  request.filters.map (ofFilter request.projectId) ++
    request.subqueries.map (ofSubquery request.projectId) ++
    request.order.toList.map (ofOrder request.projectId)

variable {limits : Limits} {request request' : SearchRequest}

/-- What is asked of the whole holds of every request for less of it. -/
theorem checkRequest_mono (h : checkRequest limits request = .ok ())
    (hproject : request'.projectId = request.projectId)
    (hcount : request'.filters.length ≤ request.filters.length) :
    checkRequest limits request' = .ok () := by
  rw [checkRequest_eq_ok_iff] at h ⊢
  refine ⟨hproject ▸ h.1, withinLimit_iff.2 fun hpos => ?_⟩
  exact Nat.le_trans hcount (withinLimit_iff.1 h.2 hpos)

theorem failure?_orderParts (request : SearchRequest) :
    failure? request.orderParts =
      request.order.toList.findSome? fun spec => failure? spec.parts := by
  unfold orderParts
  cases request.order with
  | none => rfl
  | some spec =>
    dsimp only
    rw [Option.toList_some, List.findSome?_singleton]

/-- A request fails as a whole, or as the first element that fails its own check. -/
theorem failure?_check (limits : Limits) (request : SearchRequest) :
    failure? (request.check limits) =
      (failure? (checkRequest limits request)).or
        ((request.filters.findSome? fun spec => failure? (spec.check limits)).or
          ((request.subqueries.findSome? fun spec => failure? (spec.check limits)).or
            (request.order.toList.findSome? fun spec => failure? spec.parts))) := by
  rw [← failure?_mapM, ← failure?_mapM, ← failure?_orderParts]
  unfold check
  refine failure?_bind fun _ => failure?_bind fun predicates => failure?_bind fun associations => ?_
  exact failure?_bind_ok _ _

theorem failure?_check_ofFilter (h : checkRequest limits request = .ok ()) {spec : FilterSpec}
    (hmem : spec ∈ request.filters) :
    failure? ((ofFilter request.projectId spec).check limits) = failure? (spec.check limits) := by
  have hcount := List.length_pos_of_mem hmem
  have hwhole : checkRequest limits (ofFilter request.projectId spec) = .ok () :=
    checkRequest_mono h rfl hcount
  rw [failure?_check, hwhole]
  simp [ofFilter]

theorem failure?_check_ofSubquery (h : checkRequest limits request = .ok ())
    (spec : SubquerySpec) :
    failure? ((ofSubquery request.projectId spec).check limits) =
      failure? (spec.check limits) := by
  have hwhole : checkRequest limits (ofSubquery request.projectId spec) = .ok () :=
    checkRequest_mono h rfl (Nat.zero_le _)
  rw [failure?_check, hwhole]
  simp [ofSubquery]

theorem failure?_check_ofOrder (h : checkRequest limits request = .ok ()) (spec : OrderSpec) :
    failure? ((ofOrder request.projectId spec).check limits) = failure? spec.parts := by
  have hwhole : checkRequest limits (ofOrder request.projectId spec) = .ok () :=
    checkRequest_mono h rfl (Nat.zero_le _)
  rw [failure?_check, hwhole]
  simp [ofOrder]

/-- Once the whole is in order, a request fails as the first of its elements alone. -/
theorem failure?_check_singles (h : checkRequest limits request = .ok ()) :
    failure? (request.check limits) =
      request.singles.findSome? fun single => failure? (single.check limits) := by
  have hfilters := congrArg (List.findSome? id)
    (List.map_congr_left fun _ hmem => failure?_check_ofFilter h hmem)
  simp only [List.findSome?_map, Function.id_comp] at hfilters
  rw [failure?_check, h, singles, List.findSome?_append, List.findSome?_append,
    List.findSome?_map, List.findSome?_map, List.findSome?_map]
  simp only [Function.comp_def, failure?_check_ofSubquery h, failure?_check_ofOrder h, hfilters,
    failure?_ok, Option.none_or, Option.or_assoc]

end SearchRequest

namespace Config

theorem failure?_build (config : Config) (dialect : Sql.Dialect) (request : SearchRequest) :
    failure? (config.build dialect request) = failure? (request.check config.limits) := by
  rw [build_eq, failure?_map]

/-- The first failure wins: that of the whole request, or else that of the first of its
elements that fails alone. How the statement is written has no part in it. -/
theorem build_fails_with_first (config : Config) (dialect : Sql.Dialect)
    (request : SearchRequest) :
    (∀ e, checkRequest config.limits request = .error e →
      ∀ request' : SearchRequest, request'.projectId = request.projectId →
        request'.filters.length = request.filters.length →
          config.build dialect request' = .error e) ∧
    (checkRequest config.limits request = .ok () →
      ((∃ compiled, config.build dialect request = .ok compiled) ↔
        ∀ single ∈ request.singles, ∃ compiled, config.build dialect single = .ok compiled) ∧
      ∀ e, config.build dialect request = .error e ↔
        ∃ before single after, request.singles = before ++ single :: after ∧
          (∀ other ∈ before, ∃ compiled, config.build dialect other = .ok compiled) ∧
          config.build dialect single = .error e) ∧
    ∀ mode quoting dialect' e, config.build dialect request = .error e ↔
      build ⟨mode, quoting, config.limits⟩ dialect' request = .error e := by
  refine ⟨fun e he request' hproject hcount => ?_, fun hwhole => ?_,
    fun mode quoting dialect' e => ?_⟩
  · have he' : checkRequest config.limits request' = .error e := by
      rw [checkRequest_congr _ hproject hcount, he]
    rw [← failure?_eq_some_iff, failure?_build, SearchRequest.failure?_check, he']
    rfl
  · have hsingles : failure? (config.build dialect request) =
        request.singles.findSome? fun single => failure? (config.build dialect single) := by
      simp only [failure?_build]
      exact SearchRequest.failure?_check_singles hwhole
    simp only [← failure?_eq_none_iff, ← failure?_eq_some_iff, hsingles]
    refine ⟨List.findSome?_eq_none_iff, fun e => ?_⟩
    rw [List.findSome?_eq_some_iff]
    constructor
    · rintro ⟨before, single, after, hsplit, hfails, hbefore⟩
      exact ⟨before, single, after, hsplit, hbefore, hfails⟩
    · rintro ⟨before, single, after, hsplit, hbefore, hfails⟩
      exact ⟨before, single, after, hsplit, hfails, hbefore⟩
  · rw [← failure?_eq_some_iff, ← failure?_eq_some_iff, failure?_build, failure?_build]

def byId (projectId : String) (operators : List String) : SearchRequest where
  projectId
  filters := operators.map fun op => ⟨"RECORD", "ID", op, [.string "x"]⟩
  subqueries := [⟨"SUBQUERY", [], false⟩]

/-- An unknown operator after a good filter decides before an unknown template does, and
a blank project decides before both. -/
theorem build_fails_with_operator :
    build {} .postgres (byId "p" ["EQUAL", "LIKE"]) = .error (.unknown .operator "LIKE") ∧
      build {} .postgres (byId " " ["EQUAL", "LIKE"]) = .error (.malformed .blankProject) := by
  have hgood : ∃ compiled, build {} .postgres
      (.ofFilter "p" ⟨"RECORD", "ID", "EQUAL", [.string "x"]⟩) = .ok compiled := by
    rw [build_eq]
    exact ⟨_, rfl⟩
  have hbad : build {} .postgres (.ofFilter "p" ⟨"RECORD", "ID", "LIKE", [.string "x"]⟩) =
      .error (.unknown .operator "LIKE") := by
    rw [build_eq]
    rfl
  constructor
  · have hfirst := ((build_fails_with_first {} .postgres
      (byId "p" ["EQUAL", "LIKE"])).2.1 rfl).2 (.unknown .operator "LIKE")
    refine hfirst.2 ⟨[_], _, [.ofSubquery "p" ⟨"SUBQUERY", [], false⟩], rfl,
      fun other hmem => ?_, hbad⟩
    rw [List.mem_singleton.1 hmem]
    exact hgood
  · have hwhole := (build_fails_with_first {} .postgres (byId " " ["IN", "IN"])).1
    exact hwhole _ rfl (byId " " ["EQUAL", "LIKE"]) rfl rfl

end Config

end RecordSearch
