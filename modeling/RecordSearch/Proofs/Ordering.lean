import RecordSearch.Proofs.Bound
import RecordSearch.Proofs.Check
import RecordSearch.Proofs.Filling

/-!
# Orders, checked and laid out

An order binds nothing. What it adds to a plan follows from the names that it
gives, and from the key of the payload where it sorts by one.
-/
namespace RecordSearch

open Sql (Fragment Erasure singleQuote doubleQuote)

namespace Order

/-- The aggregate of the confidence, on which the association keys sort. -/
def confidenceColumn (direction : SortDirection) : OrderColumn :=
  ⟨direction.aggregate ++ "(" ++ confidenceExpression ++ ") " ++
    (direction.aggregate ++ "_" ++ Column.confidence.physical),
    direction.aggregate ++ "_" ++ Column.confidence.physical⟩

def payloadItem (dataType : DataType) (key : String) : Fragment :=
  let extracted : Fragment := [.fixed "r.\"data\" ->> ", .key key]
  let item : Fragment := match dataType.cast? with
    | some type => .fixed "CAST(" :: extracted ++ [.fixed (" AS " ++ type ++ ")")]
    | none => extracted
  item ++ .fixed " " :: payloadAlias key

def sorted (order : Order) (target : Fragment) : Fragment :=
  target ++ [.fixed (" " ++ Named.name order.direction ++ " " ++ order.direction.nulls)]

/-- What an order adds to a plan, if `key` is its key of the payload. -/
def layout (order : Order) (key : String) : OrderParts :=
  match order.key with
  | .recordData =>
    { select := [payloadItem order.dataType key]
      expression := some (order.sorted (payloadAlias key)) }
  | .recordId =>
    { expression := some (order.sorted
        [.fixed (TargetTable.record.aliasName ++ "." ++ Column.id.physical)]) }
  | .recordCreatedAt =>
    { expression := some (order.sorted
        [.fixed (TargetTable.record.aliasName ++ "." ++ Column.createdAt.physical)]) }
  | .weakSupervisionConfidence | .modelCallbackConfidence =>
    let column := confidenceColumn order.direction
    { join := some (QueryTemplate.orderJoin.place [("@@ORDER_COLUMNS@@", [.fixed column.text])])
      select := [Fragment.ofText column.aliasName]
      expression := some (order.sorted
        [.fixed (order.direction.aggregate ++ "_" ++ Column.confidence.physical)]) }

end Order

/-- The join for sorting has a place for its aggregate, whichever that is. -/
theorem OrderColumn.join_eq (column : OrderColumn) :
    column.join =
      .ok (QueryTemplate.orderJoin.place [("@@ORDER_COLUMNS@@", [.fixed column.text])]) := by
  apply QueryTemplate.fill_eq_place
  intro m hm
  rw [List.mem_singleton.1 hm]
  rfl

namespace OrderSpec

/-- What is known of an accepted order, and of its key of the payload if it has one. -/
structure Yields (spec : OrderSpec) (order : Order) (key : String) : Prop where
  name : Named.name order.key = (splitOrderKey spec.orderBy).1
  direction : Named.name order.direction = spec.direction
  dataType : ∀ name, spec.dataType = some name → Named.name order.dataType = name
  undeclared : spec.dataType = none → order.dataType = .undeclared
  payload : order.key = .recordData → (splitOrderKey spec.orderBy).2 = some key

end OrderSpec

theorem Order.checkKey_eq_ok {orderBy : String} {key : OrderKey} {rest payloadKey : Option String}
    (h : checkKey orderBy key rest = .ok payloadKey) :
    payloadKey = rest ∧ (key = .recordData ↔ ∃ k, rest = some k) := by
  unfold checkKey at h
  split at h
  next k =>
    split at h
    next => cases h
    next =>
      cases h
      exact ⟨rfl, fun _ => ⟨k, rfl⟩, fun _ => rfl⟩
  next => cases h
  next => cases h
  next hkey =>
    cases h
    refine ⟨rfl, fun hk => (hkey hk).elim, ?_⟩
    rintro ⟨k, hk⟩
    cases hk

def DataType.declared : Option String → Except SearchError DataType
  | some name => Named.resolve name
  | none => .ok .undeclared

theorem DataType.declared_eq_ok {declaration : Option String} {dataType : DataType}
    (h : DataType.declared declaration = .ok dataType) :
    (∀ name, declaration = some name → Named.name dataType = name) ∧
      (declaration = none → dataType = .undeclared) := by
  cases declaration with
  | none =>
    cases h
    constructor
    · intro name hname
      cases hname
    · intro _
      rfl
  | some name =>
    constructor
    · intro name' hname
      rw [Named.resolve_eq_ok h]
      exact Option.some.inj hname
    · intro hnone
      cases hnone

theorem Order.resolve_eq (spec : OrderSpec) :
    Order.resolve spec = (do
      let key ← Named.resolve (splitOrderKey spec.orderBy).1
      let payloadKey ← checkKey spec.orderBy key (splitOrderKey spec.orderBy).2
      let dataType ← DataType.declared spec.dataType
      let direction ← Named.resolve spec.direction
      return ⟨key, payloadKey, direction, dataType⟩) := by
  unfold Order.resolve
  cases spec.dataType <;> rfl

/-- An order that is resolved has a key of the payload if it sorts by one. -/
theorem Order.resolve_eq_ok {spec : OrderSpec} {order : Order}
    (h : Order.resolve spec = .ok order) :
    ∃ key, spec.Yields order key ∧
      order.payloadKey = if order.key = .recordData then some key else none := by
  rw [Order.resolve_eq] at h
  obtain ⟨key, hkey, h⟩ := bind_eq_ok h
  obtain ⟨payloadKey, hpayload, h⟩ := bind_eq_ok h
  obtain ⟨dataType, hdataType, h⟩ := bind_eq_ok h
  obtain ⟨direction, hdirection, h⟩ := bind_eq_ok h
  cases h
  have hname := Named.resolve_eq_ok hkey
  have hnamed := Named.resolve_eq_ok hdirection
  obtain ⟨hdeclared, hundeclared⟩ := DataType.declared_eq_ok hdataType
  obtain ⟨hrest, hiff⟩ := Order.checkKey_eq_ok hpayload
  by_cases hdata : key = .recordData
  · obtain ⟨k, hk⟩ := hiff.1 hdata
    refine ⟨k, ⟨hname, hnamed, hdeclared, hundeclared, fun _ => hk⟩, ?_⟩
    rw [if_pos hdata, hrest, hk]
  · refine ⟨"", ⟨hname, hnamed, hdeclared, hundeclared, fun h => absurd h hdata⟩, ?_⟩
    have hnone : (splitOrderKey spec.orderBy).2 = none :=
      Option.eq_none_iff_forall_ne_some.2 fun k hk => hdata (hiff.2 ⟨k, hk⟩)
    rw [if_neg hdata, hrest, hnone]

theorem OrderSpec.parts_eq_ok {spec : OrderSpec} {parts : OrderParts} (h : spec.parts = .ok parts) :
    ∃ order key, Order.resolve spec = .ok order ∧ spec.Yields order key ∧
      parts = order.layout key := by
  obtain ⟨order, horder, h⟩ := bind_eq_ok h
  obtain ⟨key, hyields, hpayload⟩ := Order.resolve_eq_ok horder
  refine ⟨order, key, horder, hyields, ?_⟩
  obtain ⟨column, hcolumn, h⟩ := bind_eq_ok h
  obtain ⟨join, hjoin, h⟩ := bind_eq_ok h
  clear horder hyields
  obtain ⟨okey, payloadKey, direction, dataType⟩ := order
  cases okey with
  | recordData =>
    rw [if_pos rfl] at hpayload
    cases hpayload
    cases hcolumn
    cases hjoin
    cases h
    rfl
  | recordId | recordCreatedAt =>
    cases hcolumn
    cases hjoin
    cases h
    rfl
  | weakSupervisionConfidence | modelCallbackConfidence =>
    obtain rfl : column = some (Order.confidenceColumn direction) := by
      cases hcolumn
      rfl
    rw [Option.mapM_some, OrderColumn.join_eq] at hjoin
    cases hjoin
    cases h
    rfl

/-- Every order is an expression, keys on associations are joined in, and at most one item
is selected for it. -/
theorem Order.layout_slots (order : Order) (key : String) :
    (order.layout key).expression.isSome = true ∧
      ((order.layout key).join.isSome = true ↔ order.key.table = .association) ∧
      (order.layout key).select.length ≤ 1 := by
  obtain ⟨okey, payloadKey, direction, dataType⟩ := order
  cases okey <;> simp [layout, OrderKey.table]

def OrderParts.fragments (parts : OrderParts) : List Fragment :=
  parts.join.toList ++ parts.select ++ parts.expression.toList

namespace Order

theorem walk_confidenceColumn (direction : SortDirection) :
    Sql.walk .outside (Sql.fixedAtoms (confidenceColumn direction).text) = some .outside := by
  cases direction <;> decide +kernel

theorem balanced_sorted (order : Order) {target : Fragment} (h : Fragment.Balanced target) :
    Fragment.Balanced (order.sorted target) := by
  refine h.append (Fragment.balancedFrom_fixed ?_ Fragment.balanced_nil)
  cases order.direction <;> decide

theorem balanced_payloadItem (dataType : DataType) (key : String) :
    Fragment.Balanced (payloadItem dataType key) := by
  have halias : Fragment.Balanced (payloadAlias key) :=
    Fragment.balanced_ident _ Fragment.follows_nil
  have htail : Fragment.Follows (.fixed " " :: payloadAlias key) :=
    Fragment.balancedFrom_fixed (by decide) halias
  have hitem : ∀ {f : Fragment}, Fragment.Follows f →
      Fragment.Balanced (.fixed "r.\"data\" ->> " :: .key key :: f) := fun hf =>
    Fragment.balancedFrom_fixed (by decide) (Fragment.balanced_key key hf)
  cases dataType with
  | category | text | boolean | unknown => exact hitem htail
  | integer | float =>
    exact Fragment.balancedFrom_fixed (by decide)
      (hitem (Fragment.balancedFrom_fixed (by decide) htail.balanced))

theorem balanced_orderJoin (direction : SortDirection) :
    Fragment.Balanced (QueryTemplate.orderJoin.place
      [("@@ORDER_COLUMNS@@", [.fixed (confidenceColumn direction).text])]) := by
  refine QueryTemplate.balanced_place .manual (fun hmem => ?_) fun entry hentry _ => ?_
  · exact absurd hmem (by decide)
  · rw [List.mem_singleton.1 hentry]
    exact Fragment.balancedFrom_fixed (walk_confidenceColumn direction) Fragment.balanced_nil

/-- The names that an order without a key of the payload sorts on. -/
def sortNames : List String := ["r.id", "r.created_at", "min_confidence", "max_confidence"]

/-- The kinds of fragments that an order adds. -/
inductive Adds (order : Order) (key : String) : Fragment → Prop
  | item : order.key = .recordData → Adds order key (payloadItem order.dataType key)
  | payload : order.key = .recordData → Adds order key (order.sorted (payloadAlias key))
  | join (direction : SortDirection) : Adds order key (QueryTemplate.orderJoin.place
      [("@@ORDER_COLUMNS@@", [.fixed (confidenceColumn direction).text])])
  | name {text : String} : text ∈ sortNames → Adds order key [.fixed text]
  | sorted {text : String} : text ∈ sortNames → Adds order key (order.sorted [.fixed text])

theorem adds_of_mem_fragments {order : Order} {key : String} :
    ∀ f ∈ (order.layout key).fragments, Adds order key f := by
  obtain ⟨okey, payloadKey, direction, dataType⟩ := order
  intro f hf
  cases okey with
  | recordData =>
    obtain rfl | rfl : f = payloadItem dataType key ∨ f = _ := by
      simpa [OrderParts.fragments, layout] using hf
    · exact .item rfl
    · exact .payload rfl
  | recordId | recordCreatedAt =>
    obtain rfl : f = _ := by simpa [OrderParts.fragments, layout] using hf
    exact .sorted (by decide)
  | weakSupervisionConfidence | modelCallbackConfidence =>
    have hname : direction.aggregate ++ "_" ++ Column.confidence.physical ∈ sortNames := by
      cases direction <;> decide
    obtain rfl | rfl | rfl : f = _ ∨ f = _ ∨ f = _ := by
      simpa [OrderParts.fragments, layout] using hf
    · exact .join direction
    · exact .name hname
    · exact .sorted hname

theorem balanced_sortName {text : String} (h : text ∈ sortNames) :
    Fragment.Balanced [.fixed text] := by
  have hwalk : ∀ name ∈ sortNames, Sql.walk .outside (Sql.fixedAtoms name) = some .outside := by
    decide
  exact Fragment.balancedFrom_fixed (hwalk text h) Fragment.balanced_nil

variable {order : Order} {key : String} {f : Fragment}

theorem Adds.balanced (h : Adds order key f) : Fragment.Balanced f := by
  cases h with
  | item _ => exact balanced_payloadItem _ key
  | payload _ => exact balanced_sorted _ (Fragment.balanced_ident _ Fragment.follows_nil)
  | join direction => exact balanced_orderJoin direction
  | name hname => exact balanced_sortName hname
  | sorted hname => exact balanced_sorted _ (balanced_sortName hname)

theorem Adds.slots (h : Adds order key f) : Fragment.slots f = [] := by
  cases h with
  | item _ => cases order.dataType <;> rfl
  | join direction =>
    rw [QueryTemplate.slots_place]
    rfl
  | payload _ | name _ | sorted _ => rfl

theorem Adds.clients (h : Adds order key f) : ∀ q ∈ Fragment.clients f,
    order.key = .recordData ∧ q ∈ [(singleQuote, key), (doubleQuote, "order_" ++ key)] := by
  intro q hq
  cases h with
  | item hdata =>
    have hitem : Fragment.clients (payloadItem order.dataType key) =
        [(singleQuote, key), (doubleQuote, "order_" ++ key)] := by
      cases order.dataType <;> rfl
    rw [hitem] at hq
    exact ⟨hdata, hq⟩
  | payload hdata => exact ⟨hdata, List.mem_cons_of_mem _ hq⟩
  | join direction =>
    rw [QueryTemplate.clients_place] at hq
    cases hq
  | name _ | sorted _ => cases hq

end Order

def OrderParts.erase (e : Erasure) (parts : OrderParts) : OrderParts where
  join := parts.join.map (Fragment.erase e)
  select := parts.select.map (Fragment.erase e)
  expression := parts.expression.map (Fragment.erase e)

namespace OrderSpec

variable {spec spec' : OrderSpec} {order order' : Order} {key key' : String}

theorem Yields.keyTexts (h : spec.Yields order key) (hdata : order.key = .recordData) :
    spec.keyTexts = [(singleQuote, key), (doubleQuote, "order_" ++ key)] := by
  have hname := h.name
  rw [hdata] at hname
  have hsplit : splitOrderKey spec.orderBy = ("RECORD_DATA", some key) :=
    Prod.ext hname.symm (h.payload hdata)
  rw [OrderSpec.keyTexts, hsplit]
  rfl

theorem Yields.keyTexts_eq_nil (h : spec.Yields order key) (hdata : order.key ≠ .recordData) :
    spec.keyTexts = [] := by
  unfold OrderSpec.keyTexts
  split
  next hsplit =>
    have hname := h.name
    rw [hsplit] at hname
    exact absurd (Named.name_injective (b := OrderKey.recordData) hname) hdata
  next => rfl

theorem Yields.clients (h : spec.Yields order key) :
    ∀ f ∈ (order.layout key).fragments, ∀ q ∈ Fragment.clients f, q ∈ spec.keyTexts := by
  intro f hf q hq
  obtain ⟨hdata, hmem⟩ := (Order.adds_of_mem_fragments f hf).clients q hq
  rw [h.keyTexts hdata]
  exact hmem

/-- Orders by the same names add the same parts, but for their keys of the payload. -/
theorem Yields.erase_layout {e : Erasure} (h : spec.Yields order key)
    (h' : spec'.Yields order' key')
    (hname : (splitOrderKey spec.orderBy).1 = (splitOrderKey spec'.orderBy).1)
    (hdirection : spec.direction = spec'.direction) (htype : spec.dataType = spec'.dataType)
    (hkeys : spec.keyTexts.map (fun q => e.text q.2) = spec'.keyTexts.map fun q => e.text q.2) :
    (order.layout key).erase e = (order'.layout key').erase e := by
  have hkey : order.key = order'.key :=
    Named.name_injective (by rw [h.name, h'.name, hname])
  have hdir : order.direction = order'.direction :=
    Named.name_injective (by rw [h.direction, h'.direction, hdirection])
  have hdataType : order.dataType = order'.dataType := by
    cases hspec : spec.dataType with
    | none => rw [h.undeclared hspec, h'.undeclared (htype ▸ hspec)]
    | some name =>
      exact Named.name_injective (by rw [h.dataType name hspec, h'.dataType name (htype ▸ hspec)])
  by_cases hdata : order.key = .recordData
  · rw [h.keyTexts hdata, h'.keyTexts (hkey ▸ hdata)] at hkeys
    obtain ⟨htext, halias⟩ : e.text key = e.text key' ∧
        e.text ("order_" ++ key) = e.text ("order_" ++ key') := by simpa using hkeys
    have hitem : Fragment.erase e (Order.payloadItem order.dataType key) =
        Fragment.erase e (Order.payloadItem order.dataType key') := by
      cases order.dataType <;>
        simp [Order.payloadItem, DataType.cast?, Order.payloadAlias, Sql.Piece.erase, htext, halias]
    have hsorted : Fragment.erase e (order.sorted (Order.payloadAlias key)) =
        Fragment.erase e (order'.sorted (Order.payloadAlias key')) := by
      simp [Order.sorted, Order.payloadAlias, Sql.Piece.erase, halias, hdir]
    rw [Order.layout, Order.layout, ← hkey, hdata]
    simp only [OrderParts.erase, List.map_cons, List.map_nil, Option.map_some]
    rw [hitem, hsorted, hdataType]
  · rw [Order.layout, Order.layout, ← hkey]
    cases hcase : order.key with
    | recordData => exact absurd hcase hdata
    | recordId | recordCreatedAt | weakSupervisionConfidence | modelCallbackConfidence =>
      simp only [Order.sorted, hdir]

end OrderSpec

end RecordSearch
