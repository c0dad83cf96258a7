import RecordSearch.Proofs.Confinement
import RecordSearch.Proofs.Spelled

/-!
# Statements as they are written

The statement of a plan is its slots between the fixed lines of the base statement,
whatever text the slots hold: what stands in a slot is not searched for markers again.
A verbatim statement is therefore a frame around the texts of the client, and the
contents of these texts have no part in the frame.
-/
namespace RecordSearch

open Json (Value)
open Sql (Fragment Style Bindings Segment)
open Sql.Binder (valuesAt)

namespace Sql.Fragment

@[simp] theorem text_nil (style : Style) : text style [] = "" := rfl

@[simp] theorem text_append (style : Style) (f g : Fragment) :
    text style (f ++ g) = text style f ++ text style g := by
  rw [text, text, text, chars_append, String.ofList_append]

@[simp] theorem text_fixed (style : Style) (s : String) (f : Fragment) :
    text style (.fixed s :: f) = s ++ text style f := by
  rw [text, text, chars_cons, String.ofList_append]
  simp [Piece.chars]

theorem text_join (style : Style) (sep : String) (fs : List Fragment) :
    text style (join sep fs) = sep.intercalate (fs.map (text style)) := by
  induction fs with
  | nil => rfl
  | cons f fs ih =>
    cases fs with
    | nil => simp [join, List.intercalate]
    | cons f' fs =>
      rw [join_cons_cons, text_append, text_fixed, ih]
      simp [String.append_assoc]

theorem text_flatMap {α : Type} (style : Style) (g : α → Fragment) (xs : List α) :
    text style (xs.flatMap g) = String.join (xs.map fun x => text style (g x)) := by
  induction xs with
  | nil => rfl
  | cons x xs ih => rw [List.flatMap_cons, text_append, ih, List.map_cons, String.join_cons]

end Sql.Fragment

namespace Sql.Style

/-- A value as it is written: spelled out, or as the placeholder that it is bound to. -/
def writtenValue (style : Style) (slot : Nat) (v : Value) : String :=
  match style.mode with
  | .literal => String.ofList (literal style.quoting v)
  | .parameterized => String.ofList (style.dialect.placeholder slot)

/-- Values that are bound from position `n` on, separated by commas. -/
def writtenValues (style : Style) (n : Nat) (vs : List Value) : String :=
  ", ".intercalate ((vs.zipIdx n).map fun p => style.writtenValue p.2 p.1)

theorem writtenValues_singleton (style : Style) (n : Nat) (v : Value) :
    style.writtenValues n [v] = style.writtenValue n v := rfl

theorem text_value (style : Style) (slot : Nat) (v : Value) :
    Fragment.text style [.value slot v] = style.writtenValue slot v := by
  obtain ⟨mode, quoting, dialect⟩ := style
  cases mode <;> simp [Fragment.text, Piece.chars, writtenValue]

theorem text_valuesAt (style : Style) (n : Nat) (vs : List Value) :
    Fragment.text style (valuesAt n vs) = style.writtenValues n vs := by
  rw [valuesAt, Fragment.text_join, List.map_map, writtenValues]
  simp only [Function.comp_def, text_value]

end Sql.Style

def Join.written (style : Style) (j : Join) : String :=
  j.kind.text ++ " (" ++ j.subquery.text style ++ ") " ++ j.aliasName ++
    "\n    ON r.project_id = " ++ j.aliasName ++ ".pID AND r.id = " ++ j.aliasName ++ ".rID"

theorem Join.text_fragment (style : Style) (j : Join) :
    j.fragment.text style = j.written style := by
  simp [fragment, written, String.append_assoc]

namespace Plan

def writtenBound (keyword : String) : Option Nat → String
  | some n => keyword ++ " " ++ decimal n ++ "\n"
  | none => ""

def writtenOrder (style : Style) : Option Fragment → String
  | some expression => "ORDER BY " ++ expression.text style
  | none => ""

/-- The statement line by line, with the project as the value at a position. -/
def written (style : Style) (slot : Nat) (plan : Plan) : String :=
  "\nSELECT r.project_id, r.id record_id " ++
  String.join (plan.select.map fun item => ", " ++ item.text style) ++
  "\nFROM record r\n" ++
  "\n".intercalate (plan.joins.map (Join.written style) ++
    plan.orderJoin.toList.map (Fragment.text style)) ++
  "\nWHERE r.project_id = " ++
  Fragment.text style [.value slot (.string plan.projectId)] ++
  "\n" ++
  "\n".intercalate (plan.filters.map fun f => "AND " ++ f.text style) ++
  "\n" ++
  writtenOrder style plan.orderBy ++
  "\n" ++
  writtenBound "LIMIT" plan.limit ++
  writtenBound "OFFSET" plan.offset

end Plan

theorem QueryTemplate.segments_base : Sql.segments base.text.toList = [
    .fixed "\nSELECT r.project_id, r.id record_id ", .marker "@@SELECT_ADD@@",
    .fixed "\nFROM record r\n", .marker "@@FROM_ADD@@",
    .fixed "\nWHERE r.project_id = ", .marker "@@PROJECT_ID@@",
    .fixed "\n", .marker "@@WHERE_ADD@@",
    .fixed "\n", .marker "@@ORDER_BY_ADD@@",
    .fixed "\n"] := by
  rw [Sql.segments_eq_cuts]
  unfold text
  dsimp only
  unfold baseText
  simp only [String.toList_append]
  repeat rw [String.toList_ofList]
  decide +kernel

namespace Plan

theorem text_boundLine (style : Style) (keyword : String) (count : Option Nat) :
    (boundLine keyword count).text style = writtenBound keyword count := by
  cases count with
  | none => rfl
  | some n =>
    rw [boundLine, Fragment.text_fixed, writtenBound, Fragment.text_nil, String.append_empty]

theorem text_layout (plan : Plan) (style : Style) (n : Nat) :
    (plan.layout n).text style = plan.written style n := by
  have hselected : plan.selected.text style =
      String.join (plan.select.map fun item => ", " ++ item.text style) := by
    simp only [selected, Fragment.text_flatMap, Fragment.text_fixed]
  have hjoined : plan.joined.text style = "\n".intercalate
      (plan.joins.map (Join.written style) ++
        plan.orderJoin.toList.map (Fragment.text style)) := by
    rw [joined, Fragment.text_join, List.map_append, List.map_map]
    simp only [Function.comp_def, Join.text_fragment]
  have hconditions : plan.conditions.text style =
      "\n".intercalate (plan.filters.map fun f => "AND " ++ f.text style) := by
    rw [conditions, Fragment.text_join, List.map_map]
    simp only [Function.comp_def, Fragment.text_fixed]
  have hordered : plan.ordered.text style = writtenOrder style plan.orderBy := by
    unfold ordered
    cases plan.orderBy with
    | none => rfl
    | some expression => exact Fragment.text_fixed style _ expression
  have hplace : QueryTemplate.base.place (plan.table n) =
      .fixed "\nSELECT r.project_id, r.id record_id " :: (plan.selected ++
        .fixed "\nFROM record r\n" :: (plan.joined ++
        .fixed "\nWHERE r.project_id = " :: (valuesAt n [.string plan.projectId] ++
        .fixed "\n" :: (plan.conditions ++
        .fixed "\n" :: (plan.ordered ++ [.fixed "\n"]))))) := by
    rw [QueryTemplate.place, QueryTemplate.segments_base]
    simp [Segment.place, table, entries, List.lookup_cons]
  rw [layout, hplace]
  simp only [Fragment.text_append, Fragment.text_fixed, Fragment.text_nil, text_boundLine,
    hselected, hjoined, hconditions, hordered, Sql.valuesAt_singleton]
  unfold written
  rw [← String.toList_inj]
  simp only [String.toList_append, List.append_assoc, String.toList_empty, List.append_nil]

end Plan

/-- The texts in the gaps between the parts of a frame. -/
def woven : List String → List String → String
  | part :: frame, text :: texts => part ++ text ++ woven frame texts
  | frame, _ => String.join frame

/-- A frame whose first part begins with a text. -/
def preceded (s : String) : List String → List String
  | [] => [s]
  | part :: frame => (s ++ part) :: frame

theorem woven_preceded (s : String) {frame : List String} (h : frame ≠ []) (texts : List String) :
    woven (preceded s frame) texts = s ++ woven frame texts := by
  cases frame with
  | nil => exact absurd rfl h
  | cons part frame =>
    cases texts with
    | nil => simp [preceded, woven, String.append_assoc]
    | cons text texts => simp [preceded, woven, String.append_assoc]

theorem length_preceded (s : String) {frame : List String} (h : frame ≠ []) :
    (preceded s frame).length = frame.length := by
  cases frame with
  | nil => exact absurd rfl h
  | cons part frame => rfl

namespace Sql

namespace Piece

theorem spelled?_erase (p : Piece) :
    (p.erase .contents).spelled? = p.spelled?.map fun q => (q.1, "") := by
  cases p with
  | value slot v => cases v <;> rfl
  | fixed text | key text | ident text => rfl

theorem erase_of_unspelled {p : Piece} (h : p.spelled? = none) : p.erase .contents = p := by
  cases p with
  | value slot v =>
    cases v with
    | string s => cases h
    | null | bool _ | number _ | array _ | object _ => rfl
  | fixed text => rfl
  | key text | ident text => cases h

end Piece

namespace Fragment

/-- What a verbatim text has around the texts of the client: all else, and their quotes. -/
def frame : Fragment → List String
  | [] => [""]
  | p :: f =>
    match p.spelled? with
    | some (quote, _) => String.singleton quote :: preceded (String.singleton quote) (frame f)
    | none => preceded (String.ofList (p.chars ⟨.literal, .verbatim, .postgres⟩)) (frame f)

theorem length_frame (f : Fragment) : (frame f).length = (spelled f).length + 1 := by
  induction f with
  | nil => rfl
  | cons p f ih =>
    have hne : frame f ≠ [] := List.ne_nil_of_length_eq_add_one ih
    rw [frame, spelled_cons]
    cases p.spelled? with
    | none => exact (length_preceded _ hne).trans ih
    | some q => exact congrArg (· + 1) ((length_preceded _ hne).trans ih)

theorem frame_erase (f : Fragment) : frame (erase .contents f) = frame f := by
  induction f with
  | nil => rfl
  | cons p f ih =>
    rw [erase_cons, frame, frame, ih, p.spelled?_erase]
    cases hspelled : p.spelled? with
    | none => simp only [Option.map_none, Piece.erase_of_unspelled hspelled]
    | some q => rfl

theorem text_eq_woven (dialect : Dialect) (f : Fragment) :
    text ⟨.literal, .verbatim, dialect⟩ f = woven (frame f) ((spelled f).map Prod.snd) := by
  induction f with
  | nil => rfl
  | cons p f ih =>
    have hne : frame f ≠ [] := List.ne_nil_of_length_eq_add_one (length_frame f)
    have hcons : text ⟨.literal, .verbatim, dialect⟩ (p :: f) =
        String.ofList (p.chars ⟨.literal, .verbatim, dialect⟩) ++
          text ⟨.literal, .verbatim, dialect⟩ f := by
      rw [text, text, chars_cons, String.ofList_append]
    rw [hcons, ih, frame, spelled_cons]
    cases hspelled : p.spelled? with
    | none =>
      have hchars : p.chars ⟨.literal, .verbatim, dialect⟩ =
          p.chars ⟨.literal, .verbatim, .postgres⟩ := by
        cases p <;> rfl
      rw [hchars]
      exact (woven_preceded _ hne _).symm
    | some q =>
      have hquoted : String.ofList (p.chars ⟨.literal, .verbatim, dialect⟩) =
          String.singleton q.1 ++ q.2 ++ String.singleton q.1 := by
        rw [p.chars_of_spelled hspelled, ← String.toList_inj]
        simp [Quoting.wrap, Quoting.inside]
      have hwoven := woven_preceded (String.singleton q.1) hne ((spelled f).map Prod.snd)
      rw [hquoted, String.append_assoc, ← hwoven]
      rfl

end Fragment

end Sql

theorem AcceptedRequest.text_layout (c : AcceptedRequest) (style : Style) :
    (c.layout 0).text style = (c.plan 0).written style c.elementValues.length := by
  rw [layout, Nat.zero_add]
  exact (c.plan 0).text_layout style _

namespace SearchRequest

variable {limits : Limits} {request request' : SearchRequest} {c c' : AcceptedRequest}

theorem exists_plan_written (h : request.check limits = .ok c) (style : Style) :
    ∃ plan bound, (request.plan limits).runOn [] = (.ok plan, bound) ∧
      (c.layout 0).text style = plan.written style bound.length :=
  ⟨c.plan 0, c.elementValues, plan_writes h [], c.text_layout style⟩

theorem Yields.text_eq_woven (h : request.Yields limits c) (dialect : Sql.Dialect) :
    (c.layout 0).text ⟨.literal, .verbatim, dialect⟩ =
      woven (c.layout 0).frame (request.spelledTexts.map Prod.snd) := by
  rw [Fragment.text_eq_woven, h.spelled_layout]

theorem Yields.length_frame (h : request.Yields limits c) :
    (c.layout 0).frame.length = request.spelledTexts.length + 1 := by
  rw [Fragment.length_frame, h.spelled_layout]

/-- Accepted requests with the same skeleton have the same frame. -/
theorem Yields.frame_congr (h : request.Yields limits c) (h' : request'.Yields limits c')
    (hskeleton : request.skeleton = request'.skeleton) :
    (c.layout 0).frame = (c'.layout 0).frame := by
  rw [← Fragment.frame_erase, ← Fragment.frame_erase (c'.layout 0),
    h.erase_layout h' (h.alikeUpTo_contents h' hskeleton) 0]

end SearchRequest

namespace Config

/-- The base statement is its lines around the slots of a plan, whatever stands in them.
A verbatim statement is a frame with the texts of the client in its gaps, each as it was
written and in their order, and the frame is the same for all requests that differ only
in the contents of these texts. -/
theorem statement_leaves_texts (limits : Limits) (dialect : Sql.Dialect) :
    (∀ (plan : Plan) (bound : Bindings), ∃ f,
      (QueryTemplate.base.render (.base plan)).runOn bound =
          (.ok f, bound ++ [.string plan.projectId]) ∧
        ∀ style : Style, f.text style = plan.written style bound.length) ∧
    ∀ (request : SearchRequest) (compiled : CompiledSearch),
      build ⟨.literal, .verbatim, limits⟩ dialect request = .ok compiled →
        (∃ plan bound, (request.plan limits).runOn [] = (.ok plan, bound) ∧
          compiled.sql = plan.written ⟨.literal, .verbatim, dialect⟩ bound.length) ∧
        ∃ frame, frame.length = request.spelledTexts.length + 1 ∧
          compiled.sql = woven frame (request.spelledTexts.map Prod.snd) ∧
          ∀ (request' : SearchRequest) (compiled' : CompiledSearch),
            request.skeleton = request'.skeleton →
            build ⟨.literal, .verbatim, limits⟩ dialect request' = .ok compiled' →
              compiled'.sql = woven frame (request'.spelledTexts.map Prod.snd) := by
  refine ⟨fun plan bound => ⟨plan.layout bound.length, plan.statement_writes bound,
    fun style => plan.text_layout style bound.length⟩, fun request compiled h => ?_⟩
  obtain ⟨c, hcheck, hyields, rfl⟩ := build_eq_ok h
  refine ⟨SearchRequest.exists_plan_written hcheck _, (c.layout 0).frame, hyields.length_frame,
    hyields.text_eq_woven dialect, fun request' compiled' hskeleton h' => ?_⟩
  obtain ⟨c', -, hyields', rfl⟩ := build_eq_ok h'
  rw [hyields.frame_congr hyields' hskeleton]
  exact hyields'.text_eq_woven dialect

def ofText (text : String) : SearchRequest where
  projectId := text
  filters := [⟨"RECORD", "DATA", "CONTAINS", [.string text, .string text]⟩]
  subqueries := [⟨"SUBQUERY_RLA_LABEL", [.string "MANUAL", .string text], true⟩]

/-- The name of a slot is a text like any other. -/
theorem statement_leaves_markers :
    ∃ compiled compiled' frame,
      build {} .postgres (ofText "@@WHERE_ADD@@") = .ok compiled ∧
        build {} .postgres (ofText "x") = .ok compiled' ∧
        compiled.sql = woven frame ["@@WHERE_ADD@@", "@@WHERE_ADD@@", "@@WHERE_ADD@@",
          "@@WHERE_ADD@@", "%@@WHERE_ADD@@%"] ∧
        compiled'.sql = woven frame ["x", "x", "x", "x", "%x%"] := by
  obtain ⟨compiled, h⟩ : ∃ compiled,
      build {} .postgres (ofText "@@WHERE_ADD@@") = .ok compiled := by
    rw [build_eq]
    exact ⟨_, rfl⟩
  obtain ⟨compiled', h'⟩ : ∃ compiled, build {} .postgres (ofText "x") = .ok compiled := by
    rw [build_eq]
    exact ⟨_, rfl⟩
  obtain ⟨-, frame, -, hsql, hframe⟩ :=
    (statement_leaves_texts {} .postgres).2 (ofText "@@WHERE_ADD@@") compiled h
  exact ⟨compiled, compiled', frame, h, h', hsql, hframe (ofText "x") compiled' rfl h'⟩

end Config

end RecordSearch
