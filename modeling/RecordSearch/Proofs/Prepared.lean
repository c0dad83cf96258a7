import RecordSearch.Proofs.Alike

/-!
# Prepared statements

With placeholders, a statement is the same text whatever values travel beside it.
Two requests that leave the same once their bound values are taken out have the same
statement, and as many parameters.
-/
namespace RecordSearch

open Json (Value)
open Sql (Fragment Erasure)

namespace Sql

/-- Forgets the values that are bound, and nothing else. -/
def Erasure.values : Erasure where
  value _ := .null
  text := id

theorem Piece.chars_erase_values {style : Style} (h : style.mode = .parameterized) (p : Piece) :
    (p.erase .values).chars style = p.chars style := by
  cases p with
  | value slot v => simp only [Piece.erase, Piece.chars, h]
  | fixed text | key text | ident text => rfl

/-- Fragments alike up to their values are the same text with placeholders. -/
theorem Fragment.text_congr_of_erase_values {f g : Fragment}
    (hfragments : Fragment.erase .values f = Fragment.erase .values g) {style : Style}
    (h : style.mode = .parameterized) : Fragment.text style f = Fragment.text style g := by
  have hf := f.chars_map (Piece.chars_erase_values h)
  have hg := g.chars_map (Piece.chars_erase_values h)
  rw [Fragment.text, Fragment.text, ← hf, ← hg]
  exact congrArg (String.ofList ∘ Fragment.chars style) hfragments

end Sql

def FilterSpec.prepared (spec : FilterSpec) : FilterSpec := spec.mapOperands fun _ => .null

def SubquerySpec.prepared (spec : SubquerySpec) : SubquerySpec :=
  spec.mapOwnValues fun _ => .null

/-- The request with the project and all values that are bound left open. What is left
are names, keys of the payload, the order, the bounds, and how many values there are. -/
def SearchRequest.prepared (request : SearchRequest) : SearchRequest :=
  { request with
    projectId := ""
    filters := request.filters.map FilterSpec.prepared
    subqueries := request.subqueries.map SubquerySpec.prepared }

theorem FilterSpec.outline_prepared (spec : FilterSpec) :
    spec.prepared.outline .values = spec.outline .values := by
  have hbound : spec.prepared.boundValues.map Erasure.values.value =
      spec.boundValues.map Erasure.values.value := by
    have hlength : spec.prepared.boundValues.length = spec.boundValues.length := by
      rw [length_boundValues, prepared, operands_mapOperands, List.length_map, length_boundValues]
    simp only [Erasure.values, List.map_const', hlength]
  rw [outline, hbound, prepared, payloadKeys_mapOperands]
  rfl

theorem SubquerySpec.outline_prepared (spec : SubquerySpec) :
    spec.prepared.outline .values = spec.outline .values := by
  rw [outline, prepared, source?_mapOwnValues, ownValues_mapOwnValues, List.map_map]
  rfl

namespace SearchRequest

variable {request request' : SearchRequest}

theorem AlikeUpTo.of_prepared (h : request.prepared = request'.prepared) :
    request.AlikeUpTo .values request' := by
  simp only [prepared, SearchRequest.mk.injEq, true_and] at h
  obtain ⟨hfilters, hsubqueries, horder, hlimit, hoffset⟩ := h
  constructor
  case project => rfl
  case filters => exact map_congr_of_reduced FilterSpec.outline_prepared hfilters
  case subqueries => exact map_congr_of_reduced SubquerySpec.outline_prepared hsubqueries
  case order => rw [horder]
  case limit => exact hlimit
  case offset => exact hoffset

end SearchRequest

namespace Config

/-- With placeholders, the statement depends on the prepared form of the request only, and
so does the number of parameters. -/
theorem build_prepared_congr {config : Config} (hmode : config.mode = .parameterized)
    {dialect : Sql.Dialect} {request request' : SearchRequest} {compiled compiled' : CompiledSearch}
    (hprepared : request.prepared = request'.prepared)
    (h : config.build dialect request = .ok compiled)
    (h' : config.build dialect request' = .ok compiled') :
    compiled.sql = compiled'.sql ∧ compiled.params.length = compiled'.params.length := by
  obtain ⟨c, -, hyields, rfl⟩ := build_eq_ok h
  obtain ⟨c', -, hyields', rfl⟩ := build_eq_ok h'
  have hstyle : (config.style dialect).mode = .parameterized := hmode
  have halike := SearchRequest.AlikeUpTo.of_prepared hprepared
  constructor
  · exact Sql.Fragment.text_congr_of_erase_values (hyields.erase_layout hyields' halike 0) hstyle
  · have hlength := (hyields.length_elementValues hyields' halike).2
    simp only [Sql.Style.params, hstyle, AcceptedRequest.bound, List.length_append, hlength,
      List.length_singleton]

def byValues (projectId : String) (v w : Value) : SearchRequest where
  projectId
  filters := [⟨"RECORD", "DATA", "CONTAINS", [.string "k", v]⟩, ⟨"RECORD", "ID", "IN", [v, w]⟩]
  subqueries := [⟨"SUBQUERY_RLA_LABEL", [.string "MANUAL", w], true⟩]

/-- Neither a quote in a value nor its type shows in the text of a prepared statement. -/
theorem build_prepared_of_types :
    ∃ compiled compiled',
      build { mode := .parameterized } .plain (byValues "p" (.string "a") (.string "b")) =
          .ok compiled ∧
        build { mode := .parameterized } .plain (byValues "q'" (.bool true) (.string "' --")) =
          .ok compiled' ∧
        compiled.sql = compiled'.sql ∧ compiled.params.length = compiled'.params.length := by
  obtain ⟨compiled, h⟩ : ∃ compiled, build { mode := .parameterized } .plain
      (byValues "p" (.string "a") (.string "b")) = .ok compiled := by
    rw [build_eq]
    exact ⟨_, rfl⟩
  obtain ⟨compiled', h'⟩ : ∃ compiled, build { mode := .parameterized } .plain
      (byValues "q'" (.bool true) (.string "' --")) = .ok compiled := by
    rw [build_eq]
    exact ⟨_, rfl⟩
  have hprepared : (byValues "p" (.string "a") (.string "b")).prepared =
      (byValues "q'" (.bool true) (.string "' --")).prepared := rfl
  exact ⟨compiled, compiled', h, h', build_prepared_congr rfl hprepared h h'⟩

end Config

end RecordSearch
