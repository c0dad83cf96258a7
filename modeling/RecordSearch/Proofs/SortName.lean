import RecordSearch.Proofs.Planned
import RecordSearch.Proofs.Slots
import RecordSearch.Proofs.Written

/-!
# The name that is sorted on

An order is written in up to three places: an aggregate in a join, an item of the selection
and the expression to sort by. They are made one by one, from the order alone, and agree on
a name. For an attribute of the payload the item ends with the identifier that the
expression begins with; for a confidence the aggregate ends with it; a column of the record
has its name already.
-/
namespace RecordSearch

open Sql (Fragment Bindings Style Token tokens? singleQuote doubleQuote)

/-- What is written around the text of an attribute before it is compared. -/
def DataType.around : DataType → String × String
  | .integer => ("CAST(", " AS INTEGER)")
  | .float => ("CAST(", " AS FLOAT)")
  | .category | .text | .boolean | .unknown => ("", "")

/-- What stands after the name that is sorted on. -/
def SortDirection.suffix (direction : SortDirection) : String :=
  " " ++ Named.name direction ++ " " ++ direction.nulls

/-- The name under which an attribute of the payload is selected. -/
def Sql.Style.payloadName (style : Style) (key : String) : String :=
  String.ofList (style.inlineQuoting.wrap doubleQuote ("order_" ++ key))

def Sql.Style.extracted (style : Style) (key : String) : String :=
  "r.\"data\" ->> '" ++ style.embedded key ++ "'"

/-- The join that has an aggregate as an item. -/
def OrderColumn.written (column : OrderColumn) : String :=
  "\nLEFT JOIN (\n    SELECT rla.project_id pID, rla.record_id rID, " ++ column.text ++
    "\n    FROM record_label_association rla\n" ++
    "    GROUP BY rla.project_id, rla.record_id ) order_rla\n" ++
    "    ON r.project_id = order_rla.pID AND r.id = order_rla.rID "

namespace Order

/-- What an order selects and sorts on: an attribute of the payload under the name of its
key, the aggregate of a confidence, or a column of the record. Escaped texts can be read
back, and then show the key. -/
inductive SortsOn (order : Order) (style : Style) :
    Option OrderColumn → Option Fragment → Fragment → Prop
  | payload {key : String} {item expression : Fragment} :
      order.key = .recordData → order.payloadKey = some key →
      item.text style = order.dataType.around.1 ++ style.extracted key ++
        order.dataType.around.2 ++ " " ++ style.payloadName key →
      expression.text style = style.payloadName key ++ order.direction.suffix →
      (style.inlineQuoting = .escaped →
        tokens? (item.text style) = some (order.dataType.around.1.toList.map .bare ++
            "r.".toList.map .bare ++ [.quoted doubleQuote "data"] ++
            " ->> ".toList.map .bare ++ [.quoted singleQuote key] ++
            order.dataType.around.2.toList.map .bare ++
            " ".toList.map .bare ++ [.quoted doubleQuote ("order_" ++ key)]) ∧
          tokens? (expression.text style) =
            some (.quoted doubleQuote ("order_" ++ key) ::
              order.direction.suffix.toList.map .bare)) →
      SortsOn order style none (some item) expression
  | confidence {column : OrderColumn} {expression : Fragment} :
      order.key.table = .association →
      column.aliasName = order.direction.aggregate ++ "_confidence" →
      column.text = order.direction.aggregate ++ "(" ++ confidenceExpression ++ ") " ++
        column.aliasName →
      expression.text style = column.aliasName ++ order.direction.suffix →
      SortsOn order style (some column) none expression
  | column {column : Column} {expression : Fragment} :
      (order.key, column) ∈ [(.recordId, .id), (.recordCreatedAt, .createdAt)] →
      expression.text style = "r." ++ column.physical ++ order.direction.suffix →
      SortsOn order style none none expression

theorem text_sorted (order : Order) (style : Style) (target : Fragment) :
    (order.sorted target).text style = target.text style ++ order.direction.suffix := by
  rw [sorted, Fragment.text_append, Fragment.text_fixed, Fragment.text_nil, String.append_empty]
  rfl

theorem text_payloadAlias (style : Style) (key : String) :
    (payloadAlias key).text style = style.payloadName key := by
  simp [payloadAlias, Fragment.text, Sql.Piece.chars, Sql.Style.payloadName]

theorem text_payloadItem (dataType : DataType) (style : Style) (key : String) :
    (payloadItem dataType key).text style = dataType.around.1 ++ style.extracted key ++
      dataType.around.2 ++ " " ++ style.payloadName key := by
  rw [← String.toList_inj]
  cases dataType <;>
    simp [payloadItem, payloadAlias, DataType.cast?, DataType.around, Fragment.text,
      Sql.Piece.chars, Sql.Style.extracted, Sql.Style.embedded, Sql.Style.payloadName,
      Sql.Quoting.wrap, singleQuote]

theorem isQuote_of_all {text : String} (h : (text.toList.all fun c => !Sql.isQuote c) = true) :
    ∀ c ∈ text.toList, Sql.isQuote c = false := by
  simpa using h

section Escaped

variable {style : Style} (h : style.inlineQuoting = .escaped) (key : String)

include h

theorem read_payloadName (rest : List Char) (hrest : rest.head? ≠ some doubleQuote) :
    Sql.read .outside ((style.payloadName key).toList ++ rest) =
      (Sql.read .outside rest).map (.quoted doubleQuote ("order_" ++ key) :: ·) := by
  rw [Sql.Style.payloadName, String.toList_ofList, h]
  exact Sql.read_wrap (by decide) _ hrest

theorem read_extracted (rest : List Char) (hrest : rest.head? ≠ some singleQuote) :
    Sql.read .outside ((style.extracted key).toList ++ rest) =
      (Sql.read .outside rest).map ("r.".toList.map .bare ++ [.quoted doubleQuote "data"] ++
        " ->> ".toList.map .bare ++ [.quoted singleQuote key] ++ ·) := by
  have hspelled : (style.extracted key).toList ++ rest = "r.".toList ++
      (Sql.Quoting.escaped.wrap doubleQuote "data" ++ (" ->> ".toList ++
        (Sql.Quoting.escaped.wrap singleQuote key ++ rest))) := by
    simp [Sql.Style.extracted, Sql.Style.embedded, h, Sql.Quoting.wrap, Sql.Quoting.inside,
      singleQuote, doubleQuote]
  rw [hspelled, Sql.read_bare (isQuote_of_all (by decide)),
    Sql.read_wrap (by decide) _ (by simp [doubleQuote]),
    Sql.read_bare (isQuote_of_all (by decide)), Sql.read_wrap (by decide) _ hrest]
  cases Sql.read .outside rest with
  | none => rfl
  | some ts => simp

theorem tokens?_payload (order : Order) :
    tokens? ((payloadItem order.dataType key).text style) =
        some (order.dataType.around.1.toList.map .bare ++
          "r.".toList.map .bare ++ [.quoted doubleQuote "data"] ++
          " ->> ".toList.map .bare ++ [.quoted singleQuote key] ++
          order.dataType.around.2.toList.map .bare ++
          " ".toList.map .bare ++ [.quoted doubleQuote ("order_" ++ key)]) ∧
      tokens? ((order.sorted (payloadAlias key)).text style) =
        some (.quoted doubleQuote ("order_" ++ key) ::
          order.direction.suffix.toList.map .bare) := by
  constructor
  · have hname := read_payloadName h key [] (by simp)
    have hbefore : ∀ c ∈ order.dataType.around.1.toList, Sql.isQuote c = false := by
      cases order.dataType <;> exact isQuote_of_all (by decide)
    have hafter : ∀ c ∈ order.dataType.around.2.toList, Sql.isQuote c = false := by
      cases order.dataType <;> exact isQuote_of_all (by decide)
    have hends : ∀ rest, (order.dataType.around.2.toList ++ (" ".toList ++ rest)).head? ≠
        some singleQuote := by
      cases order.dataType <;> simp [DataType.around, singleQuote]
    rw [List.append_nil] at hname
    simp only [tokens?, text_payloadItem, String.toList_append, List.append_assoc]
    rw [Sql.read_bare hbefore, read_extracted h key _ (hends _), Sql.read_bare hafter,
      Sql.read_bare (isQuote_of_all (by decide)), hname]
    simp [Sql.read]
  · have hsuffix : ∀ c ∈ order.direction.suffix.toList, Sql.isQuote c = false := by
      cases order.direction <;> exact isQuote_of_all (by decide)
    have hfirst : order.direction.suffix.toList.head? ≠ some doubleQuote := by
      cases order.direction <;> decide
    have hrest := Sql.read_bare hsuffix []
    rw [List.append_nil] at hrest
    rw [tokens?, text_sorted, text_payloadAlias, String.toList_append,
      read_payloadName h key _ hfirst, hrest]
    simp [Sql.read]

end Escaped

def joinColumn (order : Order) : Option OrderColumn :=
  match order.key.table with
  | .association => some (confidenceColumn order.direction)
  | .record => none

/-- The item that an order selects of the payload, if it sorts by one. -/
def payloadItem? (order : Order) : Option Fragment :=
  order.payloadKey.map (payloadItem order.dataType)

theorem aliasName_confidenceColumn (direction : SortDirection) :
    (confidenceColumn direction).aliasName = direction.aggregate ++ "_confidence" := by
  cases direction <;> decide

theorem text_sorted_fixed (order : Order) (style : Style) (name : String) :
    (order.sorted [.fixed name]).text style = name ++ order.direction.suffix := by
  rw [text_sorted, Fragment.text_fixed, Fragment.text_nil, String.append_empty]

variable {spec : OrderSpec} {order : Order}

theorem expression_column (order : Order) (h : order.key ∈ [OrderKey.recordId, .recordCreatedAt]) :
    ∃ column,
      (order.key, column) ∈ [(OrderKey.recordId, Column.id), (.recordCreatedAt, .createdAt)] ∧
      order.expression = .ok (order.sorted [.fixed ("r." ++ column.physical)]) := by
  simp only [List.mem_cons, List.not_mem_nil, or_false] at h
  rcases h with hkey | hkey
  · refine ⟨.id, by rw [hkey]; decide, ?_⟩
    rw [expression, target, hkey]
    rfl
  · refine ⟨.createdAt, by rw [hkey]; decide, ?_⟩
    rw [expression, target, hkey]
    rfl

/-- Whatever an order sorts by, its parts are made, and agree on the name. -/
theorem exists_sortsOn (h : resolve spec = .ok order) :
    ∃ target, order.key.joined order.direction = .ok order.joinColumn ∧
      order.selected = .ok order.payloadItem? ∧ order.expression = .ok (order.sorted target) ∧
      Fragment.slots target = [] ∧
      ∀ style, order.SortsOn style order.joinColumn order.payloadItem? (order.sorted target) := by
  obtain ⟨key, -, hpayload⟩ := resolve_eq_ok h
  clear h
  cases hkey : order.key with
  | recordData =>
    rw [hkey, if_pos rfl] at hpayload
    have hjoin : order.joinColumn = none := by rw [joinColumn, hkey]; rfl
    have hitem : order.payloadItem? = some (payloadItem order.dataType key) := by
      rw [payloadItem?, hpayload]; rfl
    refine ⟨payloadAlias key, ?_, ?_, ?_, rfl, fun style => ?_⟩
    · rw [hjoin]; rfl
    · rw [hitem, selected, hkey, requirePayloadKey, hpayload]; rfl
    · rw [expression, target, hkey, requirePayloadKey, hpayload]; rfl
    · rw [hjoin, hitem]
      exact .payload hkey hpayload (text_payloadItem _ style key)
        (by rw [text_sorted, text_payloadAlias]) fun hescaped => tokens?_payload hescaped key order
  | recordId | recordCreatedAt =>
    rw [hkey, if_neg nofun] at hpayload
    have hjoin : order.joinColumn = none := by rw [joinColumn, hkey]; rfl
    have hitem : order.payloadItem? = none := by rw [payloadItem?, hpayload]; rfl
    obtain ⟨column, hcolumn, hexpression⟩ :=
      expression_column order (by rw [hkey]; decide)
    refine ⟨_, ?_, ?_, hexpression, rfl, fun style => ?_⟩
    · rw [hjoin]; rfl
    · rw [hitem, selected, hkey]; rfl
    · rw [hjoin, hitem]
      exact .column hcolumn (text_sorted_fixed order style _)
  | weakSupervisionConfidence | modelCallbackConfidence =>
    rw [hkey, if_neg nofun] at hpayload
    have hjoin : order.joinColumn = some (confidenceColumn order.direction) := by
      rw [joinColumn, hkey]; rfl
    have hitem : order.payloadItem? = none := by rw [payloadItem?, hpayload]; rfl
    refine ⟨[.fixed (confidenceColumn order.direction).aliasName], ?_, ?_, ?_, rfl,
      fun style => ?_⟩
    · rw [hjoin]; rfl
    · rw [hitem, selected, hkey]; rfl
    · rw [expression, target, hkey]; rfl
    · rw [hjoin, hitem]
      exact .confidence (by rw [hkey]; rfl) (aliasName_confidenceColumn _) rfl
        (text_sorted_fixed order style _)

end Order

theorem QueryTemplate.segments_orderJoin : Sql.segments orderJoin.text.toList = [
    .fixed "\nLEFT JOIN (\n    SELECT rla.project_id pID, rla.record_id rID, ",
    .marker "@@ORDER_COLUMNS@@",
    .fixed ("\n    FROM record_label_association rla\n" ++
      "    GROUP BY rla.project_id, rla.record_id ) order_rla\n" ++
      "    ON r.project_id = order_rla.pID AND r.id = order_rla.rID ")] := by
  rw [Sql.segments_eq_cuts]
  unfold text
  dsimp only
  unfold orderJoinText
  simp only [String.toList_append]
  repeat rw [String.toList_ofList]
  decide +kernel

namespace Order

variable {spec : OrderSpec} {order : Order}

def joinFragment? (order : Order) : Option Fragment :=
  order.joinColumn.map fun column =>
    QueryTemplate.orderJoin.place [("@@ORDER_COLUMNS@@", [.fixed column.text])]

theorem text_joinFragment (order : Order) (style : Style) :
    order.joinFragment?.map (Fragment.text style) = order.joinColumn.map OrderColumn.written := by
  rw [joinFragment?, Option.map_map]
  congr 1
  funext column
  have hlookup : (Sql.Substitution.texts style
      [("@@ORDER_COLUMNS@@", [.fixed column.text])]).lookup "@@ORDER_COLUMNS@@" =
        some column.text := by
    rw [Sql.Substitution.lookup_texts]
    change some (Fragment.text style [.fixed column.text]) = _
    rw [Fragment.text_fixed, Fragment.text_nil, String.append_empty]
  rw [Function.comp_apply, QueryTemplate.place, Sql.text_place, QueryTemplate.segments_orderJoin]
  simp only [List.map_cons, List.map_nil, Sql.Segment.filled, hlookup, Option.getD_some,
    String.join_cons, String.join_nil]
  unfold OrderColumn.written
  rw [← String.toList_inj]
  simp only [String.toList_append, List.append_assoc, String.toList_empty, List.append_nil]

theorem mapM_join (order : Order) :
    order.joinColumn.mapM OrderColumn.join = .ok order.joinFragment? := by
  rw [joinFragment?]
  cases order.joinColumn with
  | none => rfl
  | some column =>
    rw [Option.mapM_some, column.join_eq]
    rfl

theorem mapM_render (order : Order) (bound : Bindings) :
    (order.joinColumn.mapM fun column =>
      QueryTemplate.orderJoin.render (.order column)).runOn bound =
        (.ok order.joinFragment?, bound) := by
  rw [joinFragment?]
  cases order.joinColumn with
  | none => rfl
  | some column =>
    rw [Option.mapM_some, QueryTemplate.render, column.join_eq]
    rfl

theorem slots_parts {target : Fragment} (h : Fragment.slots target = []) :
    ∀ f ∈ order.joinFragment?.toList ++ order.payloadItem?.toList ++ [order.sorted target],
      Fragment.slots f = [] := by
  intro f hf
  simp only [List.mem_append, Option.mem_toList, List.mem_singleton] at hf
  rcases hf with (hjoin | hitem) | rfl
  · obtain ⟨column, -, rfl⟩ := Option.map_eq_some_iff.1 hjoin
    rw [QueryTemplate.slots_place]
    rfl
  · obtain ⟨key, -, rfl⟩ := Option.map_eq_some_iff.1 hitem
    cases order.dataType <;> rfl
  · rw [sorted, Fragment.slots_append, h]
    rfl

/-- An order that is resolved adds its parts to a plan, and they agree on the name. -/
theorem parts_of_resolve (h : resolve spec = .ok order) {target : Fragment}
    (hjoined : order.key.joined order.direction = .ok order.joinColumn)
    (hselected : order.selected = .ok order.payloadItem?)
    (hexpression : order.expression = .ok (order.sorted target)) :
    spec.parts = .ok {
      join := order.joinFragment?
      select := (order.joinColumn.map fun c => Fragment.ofText c.aliasName).toList ++
        order.payloadItem?.toList
      expression := some (order.sorted target) } := by
  rw [OrderSpec.parts, h]
  change (order.key.joined order.direction >>= _) = _
  rw [hjoined]
  change (order.joinColumn.mapM OrderColumn.join >>= _) = _
  rw [order.mapM_join]
  change (order.selected >>= _) = _
  rw [hselected]
  change (order.expression >>= _) = _
  rw [hexpression]
  rfl

end Order

namespace SearchRequest

variable {limits : Limits} {request : SearchRequest} {c : AcceptedRequest}

theorem check_unordered (h : request.check limits = .ok c) :
    { request with order := none }.check limits = .ok { c with order := {} } := by
  have hyields := yields_of_check h
  obtain ⟨_, hwhole, -⟩ := bind_eq_ok h
  have hcount : checkRequest limits { request with order := none } = checkRequest limits request :=
    rfl
  have horder : { request with order := none }.orderParts = .ok {} := rfl
  unfold check
  rw [hcount, hwhole, horder, hyields.predicates, hyields.associations, ← hyields.projectId,
    ← hyields.limit, ← hyields.offset]
  rfl

end SearchRequest

namespace Order

/-- All that an order adds to a plan is known from the order alone, binds nothing, and
refers to one column by one name. -/
theorem parts_agree_on_name {spec : OrderSpec} {order : Order} (h : resolve spec = .ok order) :
    ∃ column item expression, order.key.joined order.direction = .ok column ∧
      order.selected = .ok item ∧ order.expression = .ok expression ∧
      (∀ style, order.SortsOn style column item expression) ∧
      ∃ join, (∀ bound, (column.mapM fun c =>
          QueryTemplate.orderJoin.render (.order c)).runOn bound = (.ok join, bound)) ∧
        (∀ style, join.map (Fragment.text style) = column.map OrderColumn.written) ∧
        (∀ f ∈ join.toList ++ item.toList ++ [expression], Fragment.slots f = []) ∧
        ∀ (limits : Limits) (request : SearchRequest) (bound : Bindings) (plan : Plan)
          (bound' : Bindings), request.order = some spec →
          (request.plan limits).runOn bound = (.ok plan, bound') →
          plan.orderJoin = join ∧
            plan.select =
              (column.map fun c => Fragment.ofText c.aliasName).toList ++ item.toList ∧
            plan.orderBy = some expression ∧
            ∃ plan', ({ request with order := none }.plan limits).runOn bound =
              (.ok plan', bound') := by
  obtain ⟨target, hjoined, hselected, hexpression, htarget, hsorts⟩ := exists_sortsOn h
  refine ⟨_, _, _, hjoined, hselected, hexpression, hsorts, _, order.mapM_render,
    order.text_joinFragment, slots_parts htarget, ?_⟩
  intro limits request bound plan bound' hspec hplan
  obtain ⟨c, hcheck, rfl⟩ := SearchRequest.plan_eq_ok hplan
  have horder := (SearchRequest.yields_of_check hcheck).order
  rw [SearchRequest.orderParts, hspec] at horder
  change spec.parts = _ at horder
  rw [parts_of_resolve h hjoined hselected hexpression] at horder
  have hwrites := SearchRequest.plan_writes hcheck bound
  rw [hplan] at hwrites
  obtain ⟨-, rfl⟩ := Prod.mk.inj hwrites
  have hunordered := SearchRequest.plan_writes (SearchRequest.check_unordered hcheck) bound
  rw [AcceptedRequest.plan, ← Except.ok.inj horder]
  exact ⟨rfl, rfl, rfl, _, hunordered⟩

def bySize : OrderSpec := ⟨"RECORD_DATA@5\" d'or", "DESC", some "INTEGER"⟩

/-- A quote of the key is doubled where it would end a region, so in the item and in the
expression alike. -/
theorem parts_agree_on_size :
    resolve bySize = .ok ⟨.recordData, some "5\" d'or", .desc, .integer⟩ ∧
      ∃ plan bound, (({ projectId := "p", order := bySize } : SearchRequest).plan {}).runOn [] =
          (.ok plan, bound) ∧
        plan.select.map (Fragment.text ⟨.parameterized, .verbatim, .postgres⟩) =
          ["CAST(r.\"data\" ->> '5\" d''or' AS INTEGER) \"order_5\"\" d'or\""] ∧
        plan.orderBy.map (Fragment.text ⟨.parameterized, .verbatim, .postgres⟩) =
          some "\"order_5\"\" d'or\" DESC NULLS LAST" := by
  have h : resolve bySize = .ok ⟨.recordData, some "5\" d'or", .desc, .integer⟩ := rfl
  obtain ⟨plan, bound, hplan⟩ : ∃ plan bound,
      (({ projectId := "p", order := bySize } : SearchRequest).plan {}).runOn [] =
        (.ok plan, bound) := ⟨_, _, rfl⟩
  obtain ⟨column, item, expression, -, -, -, hsorts, join, -, -, -, hadds⟩ :=
    parts_agree_on_name h
  obtain ⟨-, hselect, horderBy, -⟩ := hadds {} _ [] plan bound rfl hplan
  refine ⟨h, plan, bound, hplan, ?_⟩
  rw [hselect, horderBy]
  cases hsorts ⟨.parameterized, .verbatim, .postgres⟩ with
  | payload _ hpayload hitem hexpression _ =>
    cases hpayload
    constructor
    · refine (congrArg (fun text => [text]) hitem).trans ?_
      decide +kernel
    · refine (congrArg some hexpression).trans ?_
      decide +kernel
  | confidence htable _ _ _ => cases htable
  | column hcolumn _ => simp at hcolumn

end Order

end RecordSearch
