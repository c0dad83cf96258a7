import RecordSearch.Proofs.Fields
import RecordSearch.Request.Json

/-!
# The request format

What it takes for a tree to write a request: for each structure the declaration
of its fields, and for each field what its tree must say. Main statement
`SearchRequest.read_eq_ok_iff`: a request is read from a tree exactly if the
tree writes it.
-/
namespace RecordSearch

open Json

namespace Json

variable {α β : Type}

/-- A tree writes a value of any kind. -/
def Tree.IsValue (t : Tree) (v : Value) : Prop := t.value = .ok v

def Tree.IsText (t : Tree) (s : String) : Prop := t = .string s

def Tree.IsFlag (t : Tree) (b : Bool) : Prop := t = .bool b

/-- An integer from zero on. -/
def Tree.IsNatural (t : Tree) (n : Nat) : Prop := t = .number (.int (.ofNat n))

/-- An array writes a list, item by item. -/
def ListOf (writes : Tree → β → Prop) (t : Tree) (xs : List β) : Prop :=
  ∃ items, t = .array items .closed ∧ List.Forall₂ writes items xs

/-- A null stands for nothing. -/
def Nullable (writes : Tree → β → Prop) (t : Tree) : Option β → Prop
  | none => t = .null
  | some b => writes t b

theorem asString_eq_ok_iff {t : Tree} {s : String} : t.asString = .ok s ↔ t.IsText s := by
  cases t <;> simp [Tree.asString, Tree.IsText]

theorem asBool_eq_ok_iff {t : Tree} {b : Bool} : t.asBool = .ok b ↔ t.IsFlag b := by
  cases t <;> simp [Tree.asBool, Tree.IsFlag]

theorem asNatural_eq_ok_iff {t : Tree} {n : Nat} : t.asNatural = .ok n ↔ t.IsNatural n := by
  unfold Tree.asNatural Tree.IsNatural
  split
  next m =>
    constructor
    · rintro ⟨⟩
      rfl
    · rintro ⟨⟩
      rfl
  next => simp
  next hnat _ =>
    simp only [reduceCtorEq, false_iff]
    exact hnat n

theorem asValue_eq_ok_iff {t : Tree} {v : Value} : t.asValue = .ok v ↔ t.IsValue v := by
  rw [Tree.asValue, Tree.IsValue]
  cases t.value <;> simp [Read.ofFault]

theorem mapM_eq_ok_iff {read : Tree → Read β} {writes : Tree → β → Prop}
    (h : ∀ t b, read t = .ok b ↔ writes t b) {items : List Tree} {xs : List β} :
    items.mapM read = .ok xs ↔ List.Forall₂ writes items xs := by
  constructor
  · intro hread
    induction items generalizing xs with
    | nil =>
      cases hread
      exact .nil
    | cons t items ih =>
      obtain ⟨x, xs, hx, hxs, rfl⟩ := mapM_cons_ok hread
      exact .cons ((h t x).mp hx) (ih hxs)
  · intro hwrites
    induction hwrites with
    | nil => rfl
    | cons hx _ ih => exact mapM_cons_eq_ok ((h _ _).mpr hx) ih

theorem asList_eq_ok_iff {read : Tree → Read β} {writes : Tree → β → Prop}
    (h : ∀ t b, read t = .ok b ↔ writes t b) {t : Tree} {xs : List β} :
    t.asList read = .ok xs ↔ ListOf writes t xs := by
  constructor
  · intro hread
    cases t with
    | array items ending =>
      obtain ⟨ys, hitems, hend⟩ := bind_eq_ok hread
      obtain ⟨_, hclosed, hys⟩ := bind_eq_ok hend
      cases hys
      obtain rfl := Shape.check_eq_ok_iff.mp hclosed
      exact ⟨items, rfl, (mapM_eq_ok_iff h).mp hitems⟩
    | null => cases hread
    | bool => cases hread
    | number => cases hread
    | string => cases hread
    | object => cases hread
    | broken => cases hread
  · rintro ⟨items, rfl, hwrites⟩
    rw [Tree.asList, (mapM_eq_ok_iff h).mpr hwrites]
    rfl

theorem asOptional_eq_ok_iff {read : Tree → Read β} {writes : Tree → β → Prop}
    (h : ∀ t b, read t = .ok b ↔ writes t b) (hnull : ∀ b, ¬ writes .null b) {t : Tree}
    {o : Option β} : t.asOptional read = .ok o ↔ Nullable writes t o := by
  by_cases ht : t = .null
  · subst ht
    cases o with
    | none => simp [Tree.asOptional, Nullable]
    | some b => simp [Tree.asOptional, Nullable, hnull b]
  · have hread : t.asOptional read = (read t).map some := by
      cases t <;> first | rfl | exact absurd rfl ht
    rw [hread]
    cases o with
    | none => cases read t <;> simp [Except.map, Nullable, ht]
    | some b =>
      rw [Nullable, ← h]
      cases read t <;> simp [Except.map]

/-- Reading a field that sets what its tree writes, and then the others. -/
theorem fill_map_cons_eq_ok_iff {name : String} {spellings : List String} {required : Bool}
    {read : Tree → Read β} {update : β → α → α} {fields : List (Field α)} {t : Tree}
    {trees : List Tree} {a b : α} :
    fill (⟨name, spellings, required, fun t => (read t).map update⟩ :: fields) (t :: trees) a
        = .ok b ↔
      ∃ x, read t = .ok x ∧ fill fields trees (update x a) = .ok b := by
  rw [fill_cons_eq_ok_iff]
  cases hread : read t <;> simp [hread, Except.map]

/-- Two fields that set different parts of a structure. -/
theorem apart_of_update {γ : Type} {name name' : String} {spellings spellings' : List String}
    {required required' : Bool} {read : Tree → Read β} {read' : Tree → Read γ}
    {update : β → α → α} {update' : γ → α → α} (hname : name ≠ name')
    (hkeys : ∀ key ∈ spellings, key ∉ spellings')
    (hupdate : ∀ x y a, update x (update' y a) = update' y (update x a)) :
    Field.Apart ⟨name, spellings, required, fun t => (read t).map update⟩
      ⟨name', spellings', required', fun t => (read' t).map update'⟩ where
  name := hname
  keys key hin hin' := hkeys key hin hin'
  commute t u set set' hset hset' a := by
    simp only at hset hset'
    cases ht : read t with
    | error e => rw [ht] at hset; cases hset
    | ok x =>
      cases hu : read' u with
      | error e => rw [hu] at hset'; cases hset'
      | ok y =>
        rw [ht] at hset
        rw [hu] at hset'
        cases hset
        cases hset'
        exact hupdate x y a

theorem matches_required {f : Field α} {keys : List String} {a : α} (hkeys : f.spellings = keys)
    (hrequired : f.required = true) : f.Matches a ⟨keys, none⟩ where
  keys := hkeys
  required := hrequired
  default d hd := by cases hd

theorem matches_optional {f : Field α} {keys : List String} {d : Tree} {set : α → α} {a : α}
    (hkeys : f.spellings = keys) (hrequired : f.required = false) (hread : f.read d = .ok set)
    (hkeep : set a = a) : f.Matches a ⟨keys, some d⟩ where
  keys := hkeys
  required := hrequired
  default e he := by
    cases he
    exact ⟨set, hread, hkeep⟩

end Json

def FilterSpec.slots : List Slot := [
  ⟨["TARGET_TABLE", "target_table"], none⟩,
  ⟨["TARGET_COLUMN", "target_column"], none⟩,
  ⟨["OPERATOR", "operator"], none⟩,
  ⟨["VALUES", "values"], some (.array [] .closed)⟩]

/-- A tree writes a filter. -/
def FilterSpec.Writes (t : Tree) (f : FilterSpec) : Prop :=
  ∃ table column operator values,
    Assigns FilterSpec.slots t [table, column, operator, values] ∧
      table.IsText f.targetTable ∧ column.IsText f.targetColumn ∧ operator.IsText f.operator ∧
      ListOf Tree.IsValue values f.values

theorem FilterSpec.declares : FilterSpec.shape.Declares FilterSpec.slots where
  agree := .cons (matches_required rfl rfl) <| .cons (matches_required rfl rfl) <|
    .cons (matches_required rfl rfl) <| .cons (matches_optional rfl rfl rfl rfl) .nil
  apart := by
    simp only [FilterSpec.shape, List.pairwise_cons, List.forall_mem_cons, List.not_mem_nil,
      false_implies, implies_true, and_true, List.Pairwise.nil]
    refine ⟨⟨?_, ?_, ?_⟩, ⟨?_, ?_⟩, ?_⟩
    all_goals exact apart_of_update (by decide) (by decide) fun _ _ _ => rfl

theorem FilterSpec.fill_eq_ok_iff {table column operator values : Tree} {f : FilterSpec} :
    fill FilterSpec.shape.fields [table, column, operator, values] FilterSpec.shape.start = .ok f ↔
      table.IsText f.targetTable ∧ column.IsText f.targetColumn ∧ operator.IsText f.operator ∧
        ListOf Tree.IsValue values f.values := by
  simp only [FilterSpec.shape, fill_map_cons_eq_ok_iff, asString_eq_ok_iff,
    asList_eq_ok_iff fun _ _ => asValue_eq_ok_iff, fill_nil, Except.ok.injEq]
  constructor
  · rintro ⟨_, htable, _, hcolumn, _, hoperator, _, hvalues, rfl⟩
    exact ⟨htable, hcolumn, hoperator, hvalues⟩
  · rintro ⟨htable, hcolumn, hoperator, hvalues⟩
    exact ⟨_, htable, _, hcolumn, _, hoperator, _, hvalues, rfl⟩

theorem FilterSpec.read_eq_ok_iff {t : Tree} {f : FilterSpec} :
    FilterSpec.shape.read t = .ok f ↔ FilterSpec.Writes t f := by
  rw [Shape.read_eq_ok_iff FilterSpec.declares]
  constructor
  · rintro ⟨given, hassigns, hfill⟩
    match given, hassigns.length_eq with
    | [table, column, operator, values], _ =>
      exact ⟨table, column, operator, values, hassigns, FilterSpec.fill_eq_ok_iff.mp hfill⟩
  · rintro ⟨table, column, operator, values, hassigns, hwrites⟩
    exact ⟨_, hassigns, FilterSpec.fill_eq_ok_iff.mpr hwrites⟩

def SubquerySpec.slots : List Slot := [
  ⟨["QUERY_TEMPLATE", "query_template"], none⟩,
  ⟨["VALUES", "values"], some (.array [] .closed)⟩,
  ⟨["NEGATION", "negation"], some (.bool false)⟩]

def SubquerySpec.Writes (t : Tree) (q : SubquerySpec) : Prop :=
  ∃ template values negation, Assigns SubquerySpec.slots t [template, values, negation] ∧
    template.IsText q.queryTemplate ∧ ListOf Tree.IsValue values q.values ∧
    negation.IsFlag q.negation

theorem SubquerySpec.declares : SubquerySpec.shape.Declares SubquerySpec.slots where
  agree := .cons (matches_required rfl rfl) <| .cons (matches_optional rfl rfl rfl rfl) <|
    .cons (matches_optional rfl rfl rfl rfl) .nil
  apart := by
    simp only [SubquerySpec.shape, List.pairwise_cons, List.forall_mem_cons, List.not_mem_nil,
      false_implies, implies_true, and_true, List.Pairwise.nil]
    refine ⟨⟨?_, ?_⟩, ?_⟩
    all_goals exact apart_of_update (by decide) (by decide) fun _ _ _ => rfl

theorem SubquerySpec.fill_eq_ok_iff {template values negation : Tree} {q : SubquerySpec} :
    fill SubquerySpec.shape.fields [template, values, negation] SubquerySpec.shape.start = .ok q ↔
      template.IsText q.queryTemplate ∧ ListOf Tree.IsValue values q.values ∧
        negation.IsFlag q.negation := by
  simp only [SubquerySpec.shape, fill_map_cons_eq_ok_iff, asString_eq_ok_iff, asBool_eq_ok_iff,
    asList_eq_ok_iff fun _ _ => asValue_eq_ok_iff, fill_nil, Except.ok.injEq]
  constructor
  · rintro ⟨_, htemplate, _, hvalues, _, hnegation, rfl⟩
    exact ⟨htemplate, hvalues, hnegation⟩
  · rintro ⟨htemplate, hvalues, hnegation⟩
    exact ⟨_, htemplate, _, hvalues, _, hnegation, rfl⟩

theorem SubquerySpec.read_eq_ok_iff {t : Tree} {q : SubquerySpec} :
    SubquerySpec.shape.read t = .ok q ↔ SubquerySpec.Writes t q := by
  rw [Shape.read_eq_ok_iff SubquerySpec.declares]
  constructor
  · rintro ⟨given, hassigns, hfill⟩
    match given, hassigns.length_eq with
    | [template, values, negation], _ =>
      exact ⟨template, values, negation, hassigns, SubquerySpec.fill_eq_ok_iff.mp hfill⟩
  · rintro ⟨template, values, negation, hassigns, hwrites⟩
    exact ⟨_, hassigns, SubquerySpec.fill_eq_ok_iff.mpr hwrites⟩

def OrderSpec.slots : List Slot := [
  ⟨["order_by"], none⟩,
  ⟨["direction"], some (.string "ASC")⟩,
  ⟨["data_type"], some .null⟩]

def OrderSpec.Writes (t : Tree) (o : OrderSpec) : Prop :=
  ∃ key direction dataType, Assigns OrderSpec.slots t [key, direction, dataType] ∧
    key.IsText o.orderBy ∧ direction.IsText o.direction ∧
    Nullable Tree.IsText dataType o.dataType

theorem OrderSpec.declares : OrderSpec.shape.Declares OrderSpec.slots where
  agree := .cons (matches_required rfl rfl) <| .cons (matches_optional rfl rfl rfl rfl) <|
    .cons (matches_optional rfl rfl rfl rfl) .nil
  apart := by
    simp only [OrderSpec.shape, List.pairwise_cons, List.forall_mem_cons, List.not_mem_nil,
      false_implies, implies_true, and_true, List.Pairwise.nil]
    refine ⟨⟨?_, ?_⟩, ?_⟩
    all_goals exact apart_of_update (by decide) (by decide) fun _ _ _ => rfl

theorem asOptional_asString_eq_ok_iff {t : Tree} {o : Option String} :
    t.asOptional Tree.asString = .ok o ↔ Nullable Tree.IsText t o :=
  asOptional_eq_ok_iff (fun _ _ => asString_eq_ok_iff) (by simp [Tree.IsText])

theorem OrderSpec.fill_eq_ok_iff {key direction dataType : Tree} {o : OrderSpec} :
    fill OrderSpec.shape.fields [key, direction, dataType] OrderSpec.shape.start = .ok o ↔
      key.IsText o.orderBy ∧ direction.IsText o.direction ∧
        Nullable Tree.IsText dataType o.dataType := by
  simp only [OrderSpec.shape, fill_map_cons_eq_ok_iff, asString_eq_ok_iff,
    asOptional_asString_eq_ok_iff, fill_nil, Except.ok.injEq]
  constructor
  · rintro ⟨_, hkey, _, hdirection, _, htype, rfl⟩
    exact ⟨hkey, hdirection, htype⟩
  · rintro ⟨hkey, hdirection, htype⟩
    exact ⟨_, hkey, _, hdirection, _, htype, rfl⟩

theorem OrderSpec.read_eq_ok_iff {t : Tree} {o : OrderSpec} :
    OrderSpec.shape.read t = .ok o ↔ OrderSpec.Writes t o := by
  rw [Shape.read_eq_ok_iff OrderSpec.declares]
  constructor
  · rintro ⟨given, hassigns, hfill⟩
    match given, hassigns.length_eq with
    | [key, direction, dataType], _ =>
      exact ⟨key, direction, dataType, hassigns, OrderSpec.fill_eq_ok_iff.mp hfill⟩
  · rintro ⟨key, direction, dataType, hassigns, hwrites⟩
    exact ⟨_, hassigns, OrderSpec.fill_eq_ok_iff.mpr hwrites⟩

def SearchRequest.slots : List Slot := [
  ⟨["project_id"], none⟩,
  ⟨["filters"], some (.array [] .closed)⟩,
  ⟨["subqueries"], some (.array [] .closed)⟩,
  ⟨["order"], some .null⟩,
  ⟨["limit"], some .null⟩,
  ⟨["offset"], some .null⟩]

def SearchRequest.Writes (t : Tree) (r : SearchRequest) : Prop :=
  ∃ project filters subqueries order limit offset,
    Assigns SearchRequest.slots t [project, filters, subqueries, order, limit, offset] ∧
      project.IsText r.projectId ∧ ListOf FilterSpec.Writes filters r.filters ∧
      ListOf SubquerySpec.Writes subqueries r.subqueries ∧
      Nullable OrderSpec.Writes order r.order ∧ Nullable Tree.IsNatural limit r.limit ∧
      Nullable Tree.IsNatural offset r.offset

theorem SearchRequest.declares : SearchRequest.shape.Declares SearchRequest.slots where
  agree := .cons (matches_required rfl rfl) <| .cons (matches_optional rfl rfl rfl rfl) <|
    .cons (matches_optional rfl rfl rfl rfl) <| .cons (matches_optional rfl rfl rfl rfl) <|
    .cons (matches_optional rfl rfl rfl rfl) <| .cons (matches_optional rfl rfl rfl rfl) .nil
  apart := by
    simp only [SearchRequest.shape, List.pairwise_cons, List.forall_mem_cons, List.not_mem_nil,
      false_implies, implies_true, and_true, List.Pairwise.nil]
    refine ⟨⟨?_, ?_, ?_, ?_, ?_⟩, ⟨?_, ?_, ?_, ?_⟩, ⟨?_, ?_, ?_⟩, ⟨?_, ?_⟩, ?_⟩
    all_goals exact apart_of_update (by decide) (by decide) fun _ _ _ => rfl

theorem OrderSpec.not_writes_null (o : OrderSpec) : ¬ OrderSpec.Writes .null o := by
  rintro ⟨_, _, _, hassigns, -⟩
  cases hassigns

theorem OrderSpec.asOptional_eq_ok_iff {t : Tree} {o : Option OrderSpec} :
    t.asOptional OrderSpec.shape.read = .ok o ↔ Nullable OrderSpec.Writes t o :=
  Json.asOptional_eq_ok_iff (@OrderSpec.read_eq_ok_iff) OrderSpec.not_writes_null

theorem asOptional_asNatural_eq_ok_iff {t : Tree} {o : Option Nat} :
    t.asOptional Tree.asNatural = .ok o ↔ Nullable Tree.IsNatural t o :=
  asOptional_eq_ok_iff (fun _ _ => asNatural_eq_ok_iff) (by simp [Tree.IsNatural])

theorem SearchRequest.fill_eq_ok_iff {project filters subqueries order limit offset : Tree}
    {r : SearchRequest} :
    fill SearchRequest.shape.fields [project, filters, subqueries, order, limit, offset]
        SearchRequest.shape.start = .ok r ↔
      project.IsText r.projectId ∧ ListOf FilterSpec.Writes filters r.filters ∧
        ListOf SubquerySpec.Writes subqueries r.subqueries ∧
        Nullable OrderSpec.Writes order r.order ∧ Nullable Tree.IsNatural limit r.limit ∧
        Nullable Tree.IsNatural offset r.offset := by
  simp only [SearchRequest.shape, fill_map_cons_eq_ok_iff, asString_eq_ok_iff,
    asList_eq_ok_iff fun _ _ => FilterSpec.read_eq_ok_iff,
    asList_eq_ok_iff fun _ _ => SubquerySpec.read_eq_ok_iff,
    OrderSpec.asOptional_eq_ok_iff, asOptional_asNatural_eq_ok_iff, fill_nil, Except.ok.injEq]
  constructor
  · rintro ⟨_, hproject, _, hfilters, _, hsubqueries, _, horder, _, hlimit, _, hoffset, rfl⟩
    exact ⟨hproject, hfilters, hsubqueries, horder, hlimit, hoffset⟩
  · rintro ⟨hproject, hfilters, hsubqueries, horder, hlimit, hoffset⟩
    exact ⟨_, hproject, _, hfilters, _, hsubqueries, _, horder, _, hlimit, _, hoffset, rfl⟩

theorem SearchRequest.read_eq_ok_iff {t : Tree} {r : SearchRequest} :
    SearchRequest.shape.read t = .ok r ↔ SearchRequest.Writes t r := by
  rw [Shape.read_eq_ok_iff SearchRequest.declares]
  constructor
  · rintro ⟨given, hassigns, hfill⟩
    match given, hassigns.length_eq with
    | [project, filters, subqueries, order, limit, offset], _ =>
      exact ⟨project, filters, subqueries, order, limit, offset, hassigns,
        SearchRequest.fill_eq_ok_iff.mp hfill⟩
  · rintro ⟨project, filters, subqueries, order, limit, offset, hassigns, hwrites⟩
    exact ⟨_, hassigns, SearchRequest.fill_eq_ok_iff.mpr hwrites⟩

/-- A request is read from a text exactly if nothing follows the tree of the
text and the tree writes the request. -/
theorem SearchRequest.ofJson_eq_ok_iff {text : String} {r : SearchRequest} :
    SearchRequest.ofJson text = .ok r ↔
      (Document.ofText text).trailing = false ∧
        SearchRequest.Writes (Document.ofText text).tree r := by
  rw [← SearchRequest.read_eq_ok_iff, SearchRequest.ofJson, Shape.readText]
  cases hread : SearchRequest.shape.read (Document.ofText text).tree with
  | error e => simp [bind, Except.bind, Except.mapError]
  | ok a =>
    cases htrailing : (Document.ofText text).trailing <;>
      simp [bind, Except.bind, Except.mapError]

end RecordSearch
