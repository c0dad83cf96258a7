import RecordSearch.Proofs.Printed
import RecordSearch.Proofs.Schema

/-!
# Requests that are written and read again

The compact JSON of a request is the text of a tree, in which every field stands
under its declared name, and is read as that request: main statement
`SearchRequest.ofJson_toJson`. Values may hold integers of 64 bits, any text, and
lists and objects up to the depth that the reader allows.
-/
namespace RecordSearch

open Json

namespace Json

mutual
def Value.tree : Value → Tree
  | .null => .null
  | .bool b => .bool b
  | .number n => .number n
  | .string s => .string s
  | .array items => .array (itemTrees items) .closed
  | .object members => .object (memberTrees members) .closed

def itemTrees : List Value → List Tree
  | [] => []
  | v :: rest => v.tree :: itemTrees rest

def memberTrees : List (String × Value) → List (String × Tree)
  | [] => []
  | (key, v) :: rest => (key, v.tree) :: memberTrees rest
end

theorem itemTrees_eq_map (items : List Value) : itemTrees items = items.map Value.tree := by
  induction items with
  | nil => rfl
  | cons v items ih => rw [itemTrees, ih, List.map_cons]

theorem memberTrees_eq_map (members : Members) :
    memberTrees members = members.map fun m => (m.1, m.2.tree) := by
  induction members with
  | nil => rfl
  | cons m members ih => rw [memberTrees, ih, List.map_cons]

theorem itemsAfter_eq_map (items : List Value) :
    itemsAfter items = elementsAfter (items.map Value.chars) := by
  induction items with
  | nil => rfl
  | cons v items ih => rw [itemsAfter, ih, List.map_cons, elementsAfter]

theorem chars_array (items : List Value) :
    Value.chars (.array items) = arrayText (items.map Value.chars) := by
  cases items with
  | nil => rfl
  | cons v items => rw [Value.chars, itemsAfter_eq_map, List.map_cons, arrayText]

theorem membersAfter_eq_map (members : Members) :
    membersAfter members = fieldsAfter (members.map fun m => (m.1, m.2.chars)) := by
  induction members with
  | nil => rfl
  | cons m members ih => rw [membersAfter, ih, List.map_cons, fieldsAfter]

theorem chars_object (members : Members) :
    Value.chars (.object members) = objectText (members.map fun m => (m.1, m.2.chars)) := by
  cases members with
  | nil => rfl
  | cons m members => rw [Value.chars, membersAfter_eq_map, List.map_cons, objectText]

/-- A value of integers that fit 64 bits, nested at most `depth` deep, with the
members of its objects in the order in which they are kept. -/
inductive Value.Integral : Nat → Value → Prop
  | null {depth : Nat} : Integral depth .null
  | bool {depth : Nat} (b : Bool) : Integral depth (.bool b)
  | int {depth : Nat} {i : Int} (h : Word.holds 64 i = true) : Integral depth (.number (.int i))
  | string {depth : Nat} (s : String) : Integral depth (.string s)
  | array {depth : Nat} {items : List Value} (h : ∀ v ∈ items, Integral depth v) :
      Integral (depth + 1) (.array items)
  | object {depth : Nat} {members : Members} (h : ∀ m ∈ members, Integral depth m.2)
      (hkeys : members.Pairwise fun m m' => m.1 < m'.1) : Integral (depth + 1) (.object members)

theorem Members.insert_last {members : Members} {key : String} (v : Value)
    (h : ∀ m ∈ members, m.1 < key) : members.insert key v = members ++ [(key, v)] := by
  induction members with
  | nil => rfl
  | cons m members ih =>
    obtain ⟨hm, hrest⟩ := List.forall_mem_cons.mp h
    have hne : key ≠ m.1 := fun heq => String.lt_irrefl key (heq ▸ hm)
    rw [Members.insert, if_neg hne, if_neg (String.lt_asymm hm), ih hrest]
    rfl

/-- An object whose members are in order is kept as it is written. -/
theorem Members.ofList_of_pairwise {members : Members}
    (h : members.Pairwise fun m m' => m.1 < m'.1) : Members.ofList members = members := by
  induction members using List.reverseRecOn with
  | nil => rfl
  | append_singleton members m ih =>
    obtain ⟨hfront, -, hlast⟩ := List.pairwise_append.mp h
    have hkeys : ∀ m' ∈ members, m'.1 < m.1 := fun m' hm' => hlast m' hm' m List.mem_cons_self
    have hinsert := Members.insert_last m.2 hkeys
    rw [Members.ofList] at ih ⊢
    rw [List.foldl_append, ih hfront]
    exact hinsert

theorem itemValues_map {items : List Value} (h : ∀ v ∈ items, v.tree.IsValue v) :
    itemValues (items.map Value.tree) = .ok items := by
  induction items with
  | nil => rfl
  | cons v items ih =>
    obtain ⟨hv, hitems⟩ := List.forall_mem_cons.mp h
    rw [Tree.IsValue] at hv
    rw [List.map_cons, itemValues, hv, ih hitems]
    rfl

theorem memberValues_map {members : Members} (h : ∀ m ∈ members, m.2.tree.IsValue m.2) :
    memberValues (members.map fun m => (m.1, m.2.tree)) = .ok members := by
  induction members with
  | nil => rfl
  | cons m members ih =>
    obtain ⟨hm, hmembers⟩ := List.forall_mem_cons.mp h
    rw [Tree.IsValue] at hm
    rw [List.map_cons, memberValues, hm, ih hmembers]
    rfl

/-- A text is read, up to `depth` deep, as a tree that writes `x`. -/
structure Spells {β : Type} (depth : Nat) (text : List Char) (t : Tree)
    (writes : Tree → β → Prop) (x : β) : Prop where
  prints : Prints depth text t
  writes : writes t x

theorem spells_text (depth : Nat) (s : String) :
    Spells depth (stringText s) (.string s) Tree.IsText s :=
  ⟨prints_string depth s, rfl⟩

theorem spells_natural (depth : Nat) {n : Nat} (h : n < Word.size 64) :
    Spells depth (Nat.toDigits 10 n) (.number (.int (.ofNat n))) Tree.IsNatural n :=
  ⟨prints_int (i := .ofNat n) (holds_ofNat_iff.mpr h) depth, rfl⟩

section

variable {β : Type} {depth : Nat} {chars : β → List Char} {tree : β → Tree}
  {writes : Tree → β → Prop}

theorem spells_list {xs : List β} (h : ∀ x ∈ xs, Spells depth (chars x) (tree x) writes x) :
    Spells (depth + 1) (arrayText (xs.map chars)) (.array (xs.map tree) .closed) (ListOf writes) xs
    where
  prints := by
    refine .array ?_
    rw [List.forall₂_map_left_iff, List.forall₂_map_right_iff, List.forall₂_same]
    exact fun x hx => (h x hx).prints
  writes := by
    refine ⟨xs.map tree, rfl, ?_⟩
    rw [List.forall₂_map_left_iff, List.forall₂_same]
    exact fun x hx => (h x hx).writes

def optionalTree (tree : β → Tree) : Option β → Tree
  | none => .null
  | some x => tree x

theorem spells_optional {o : Option β} (h : ∀ x ∈ o, Spells depth (chars x) (tree x) writes x) :
    Spells depth (optionalText chars o) (optionalTree tree o) (Nullable writes) o := by
  cases o with
  | none => exact ⟨prints_null depth, rfl⟩
  | some x => exact ⟨(h x rfl).prints, (h x rfl).writes⟩

end

theorem Value.Integral.spells {depth : Nat} {v : Value} (h : v.Integral depth) :
    Spells depth v.chars v.tree Tree.IsValue v := by
  induction h with
  | null => exact ⟨prints_null _, rfl⟩
  | bool b => exact ⟨prints_bool _ b, rfl⟩
  | int h => exact ⟨prints_int h _, rfl⟩
  | string s => exact ⟨prints_string _ s, rfl⟩
  | @array depth items _ ih =>
    have hprints := (spells_list ih).prints
    rw [← chars_array, ← itemTrees_eq_map] at hprints
    refine ⟨hprints, ?_⟩
    rw [Tree.IsValue, Value.tree, Tree.value, itemTrees_eq_map,
      itemValues_map fun v hv => (ih v hv).writes]
    rfl
  | @object depth members _ hkeys ih =>
    refine ⟨?_, ?_⟩
    · rw [chars_object, Value.tree, memberTrees_eq_map]
      refine .object ?_
      rw [List.forall₂_map_left_iff, List.forall₂_map_right_iff, List.forall₂_same]
      exact fun m hm => ⟨rfl, (ih m hm).prints⟩
    · rw [Tree.IsValue, Value.tree, Tree.value, memberTrees_eq_map,
        memberValues_map fun m hm => (ih m hm).writes]
      change Except.ok (Value.object (Members.ofList members)) = _
      rw [Members.ofList_of_pairwise hkeys]

theorem spells_values {values : List Value} {depth : Nat} (h : ∀ v ∈ values, v.Integral depth) :
    Spells (depth + 1) (arrayText (values.map Value.chars)) (.array (values.map Value.tree) .closed)
      (ListOf Tree.IsValue) values :=
  spells_list fun v hv => (h v hv).spells

end Json

def FilterSpec.tree (f : FilterSpec) : Tree :=
  .object [
    ("target_table", .string f.targetTable),
    ("target_column", .string f.targetColumn),
    ("operator", .string f.operator),
    ("values", .array (f.values.map Value.tree) .closed)] .closed

def SubquerySpec.tree (q : SubquerySpec) : Tree :=
  .object [
    ("query_template", .string q.queryTemplate),
    ("values", .array (q.values.map Value.tree) .closed),
    ("negation", .bool q.negation)] .closed

def OrderSpec.tree (o : OrderSpec) : Tree :=
  .object [
    ("order_by", .string o.orderBy),
    ("direction", .string o.direction),
    ("data_type", optionalTree Tree.string o.dataType)] .closed

def SearchRequest.tree (r : SearchRequest) : Tree :=
  .object [
    ("project_id", .string r.projectId),
    ("filters", .array (r.filters.map FilterSpec.tree) .closed),
    ("subqueries", .array (r.subqueries.map SubquerySpec.tree) .closed),
    ("order", optionalTree OrderSpec.tree r.order),
    ("limit", optionalTree (fun n => .number (.int (.ofNat n))) r.limit),
    ("offset", optionalTree (fun n => .number (.int (.ofNat n))) r.offset)] .closed

/-- How deep a value may be nested: the reader opens 127 containers, and four of
them stand around every value of a request. -/
def valueDepth : Nat := 123

/-- What a request must be for its text to be read again. -/
structure SearchRequest.Integral (r : SearchRequest) : Prop where
  filters : ∀ f ∈ r.filters, ∀ v ∈ f.values, v.Integral valueDepth
  subqueries : ∀ q ∈ r.subqueries, ∀ v ∈ q.values, v.Integral valueDepth
  limit : ∀ n ∈ r.limit, n < Word.size 64
  offset : ∀ n ∈ r.offset, n < Word.size 64

theorem FilterSpec.spells {f : FilterSpec} (h : ∀ v ∈ f.values, v.Integral valueDepth) :
    Spells (valueDepth + 2) f.chars f.tree FilterSpec.Writes f where
  prints := .object <| .cons ⟨rfl, prints_string _ _⟩ <| .cons ⟨rfl, prints_string _ _⟩ <|
    .cons ⟨rfl, prints_string _ _⟩ <| .cons ⟨rfl, (spells_values h).prints⟩ .nil
  writes := by
    refine ⟨_, _, _, _, ?_, rfl, rfl, rfl, (spells_values h).writes⟩
    simp [FilterSpec.tree, assigns_object_iff, FilterSpec.slots, Slot.given_cons_iff, Slot.writers]

theorem SubquerySpec.spells {q : SubquerySpec} (h : ∀ v ∈ q.values, v.Integral valueDepth) :
    Spells (valueDepth + 2) q.chars q.tree SubquerySpec.Writes q where
  prints := .object <| .cons ⟨rfl, prints_string _ _⟩ <|
    .cons ⟨rfl, (spells_values h).prints⟩ <| .cons ⟨rfl, prints_bool _ _⟩ .nil
  writes := by
    refine ⟨_, _, _, ?_, rfl, (spells_values h).writes, rfl⟩
    simp [SubquerySpec.tree, assigns_object_iff, SubquerySpec.slots, Slot.given_cons_iff,
      Slot.writers]

theorem OrderSpec.spells (depth : Nat) (o : OrderSpec) :
    Spells (depth + 1) o.chars o.tree OrderSpec.Writes o := by
  have htype := spells_optional fun s (_ : s ∈ o.dataType) => spells_text depth s
  refine ⟨.object <| .cons ⟨rfl, prints_string _ _⟩ <| .cons ⟨rfl, prints_string _ _⟩ <|
    .cons ⟨rfl, htype.prints⟩ .nil, _, _, _, ?_, rfl, rfl, htype.writes⟩
  simp [OrderSpec.tree, assigns_object_iff, OrderSpec.slots, Slot.given_cons_iff, Slot.writers]

theorem SearchRequest.Integral.spells {r : SearchRequest} (h : r.Integral) :
    Spells depthLimit r.chars r.tree SearchRequest.Writes r := by
  have hfilters := spells_list fun f hf => FilterSpec.spells (h.filters f hf)
  have hsubqueries := spells_list fun q hq => SubquerySpec.spells (h.subqueries q hq)
  have horder := spells_optional fun o (_ : o ∈ r.order) => OrderSpec.spells (valueDepth + 2) o
  have hlimit := spells_optional fun n hn => spells_natural (valueDepth + 3) (h.limit n hn)
  have hoffset := spells_optional fun n hn => spells_natural (valueDepth + 3) (h.offset n hn)
  constructor
  · exact .object <| .cons ⟨rfl, prints_string _ _⟩ <| .cons ⟨rfl, hfilters.prints⟩ <|
      .cons ⟨rfl, hsubqueries.prints⟩ <| .cons ⟨rfl, horder.prints⟩ <|
      .cons ⟨rfl, hlimit.prints⟩ <| .cons ⟨rfl, hoffset.prints⟩ .nil
  · refine ⟨_, _, _, _, _, _, ?_, rfl, hfilters.writes, hsubqueries.writes, horder.writes,
      hlimit.writes, hoffset.writes⟩
    simp [SearchRequest.tree, assigns_object_iff, SearchRequest.slots, Slot.given_cons_iff,
      Slot.writers]

/-- The compact text of a request writes its tree and is read as that request. -/
theorem SearchRequest.ofJson_toJson {r : SearchRequest} (h : r.Integral) :
    Document.ofText r.toJson = ⟨r.tree, false⟩ ∧ SearchRequest.ofJson r.toJson = .ok r := by
  have htext : Document.ofText r.toJson = ⟨r.tree, false⟩ := h.spells.prints.ofText (Nat.le_refl _)
  refine ⟨htext, SearchRequest.ofJson_eq_ok_iff.mpr ?_⟩
  rw [htext]
  exact ⟨rfl, h.spells.writes⟩

/-- A request at the bounds of its integers, with texts that must be escaped. -/
def boundaryRequest : SearchRequest where
  projectId := "a \"quoted\" \\ \u0001\n\u007f é 😀"
  filters := [⟨"RECORD", "", "EQUAL", [
    .number (.int 18446744073709551615), .number (.int (-9223372036854775808)),
    .object [("", .null), ("a", .array [.bool true, .string "\t"])]]⟩]
  subqueries := [⟨"SUBQUERY", [], true⟩]
  order := some { orderBy := "RECORD_DATA@k" }
  limit := some 18446744073709551615

theorem ofJson_toJson_boundaryRequest :
    boundaryRequest.Integral ∧
      Document.ofText boundaryRequest.toJson = ⟨boundaryRequest.tree, false⟩ ∧
      SearchRequest.ofJson boundaryRequest.toJson = .ok boundaryRequest := by
  have h : boundaryRequest.Integral := by
    refine ⟨?_, ?_, by decide, by decide⟩
    · intro f hf v hv
      obtain rfl := List.mem_singleton.mp hf
      simp only [List.mem_cons, List.not_mem_nil, or_false] at hv
      rcases hv with rfl | rfl | rfl
      · exact .int (by decide)
      · exact .int (by decide)
      · refine .object ?_ (by decide)
        simp only [List.forall_mem_cons, List.not_mem_nil, false_implies, implies_true, and_true]
        refine ⟨.null, .array ?_⟩
        simp only [List.forall_mem_cons, List.not_mem_nil, false_implies, implies_true, and_true]
        exact ⟨.bool true, .string "\t"⟩
    · intro q hq v hv
      obtain rfl := List.mem_singleton.mp hq
      cases hv
  exact ⟨h, SearchRequest.ofJson_toJson h⟩

end RecordSearch
