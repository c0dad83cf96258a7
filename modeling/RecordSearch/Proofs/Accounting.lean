import RecordSearch.Proofs.Accepted

/-!
# Every parameter is accounted for

The parameters of a statement are the values that the request asks to bind, in
their order, and its placeholders mention each of them as often as it is used.
-/
namespace RecordSearch

open Json (Value)
open Sql (tokens? placeholders)

variable {limits : Limits} {request : SearchRequest} {c : AcceptedRequest}

/-- How often the text mentions each position, counted from one. -/
theorem SearchRequest.Yields.count_placeholders (h : request.Yields limits c) (k : Nat) :
    ((c.layout 0).slots.map fun p => p.1 + 1).count (k + 1) =
      ((request.boundUses.map Prod.snd)[k]?).getD 0 := by
  have hcount := Sql.count_usedAt 0 k request.boundUses
  rw [Nat.zero_add] at hcount
  rw [(h.perm_boundUses.map _).count_eq, hcount]

namespace Config

/-- The parameters are the bound values of the request, all of them scalars, and a
placeholder stands in the text for each of them as often as it is used. A literal
statement has no parameters. -/
theorem build_accounts_for_parameters {config : Config} {compiled : CompiledSearch}
    (h : config.build .postgres request = .ok compiled) :
    (config.mode = .literal → compiled.params = []) ∧
    (config.mode = .parameterized →
      compiled.params = request.boundValues ∧
      (∀ v ∈ compiled.params, v.isScalar = true) ∧
      ∃ ts, tokens? compiled.sql = some ts ∧ 0 ∉ placeholders ts ∧
        ∀ k, (placeholders ts).count (k + 1) =
          ((request.boundUses.map Prod.snd)[k]?).getD 0) := by
  obtain ⟨mode, quoting, limits⟩ := config
  obtain ⟨c, -, hyields, rfl⟩ := build_eq_ok h
  constructor
  · rintro rfl
    rfl
  · rintro rfl
    obtain ⟨ts, hts, hplaceholders⟩ := (hyields.balanced 0).placeholders_text quoting
    refine ⟨hyields.bound_eq, hyields.scalars, ts, hts, ?_, fun k => ?_⟩
    · rw [hplaceholders]
      simp
    · rw [hplaceholders]
      exact hyields.count_placeholders k

/-- The project of an extraction subquery is one parameter with two placeholders. -/
theorem build_accounts_for_extraction :
    ∃ compiled ts,
      build { mode := .parameterized } .postgres
          { projectId := "p"
            filters := [⟨"RECORD", "CATEGORY", "CONTAINS", [.string "a"]⟩]
            subqueries := [⟨"SUBQUERY_RLA_DIFFERENT_IS_EXTRACTION", [.string "t"], false⟩] } =
        .ok compiled ∧
      compiled.params = [.string "%a%", .string "t", .string "p", .string "p"] ∧
      tokens? compiled.sql = some ts ∧ (placeholders ts).count 3 = 2 := by
  obtain ⟨compiled, h⟩ : ∃ compiled, build { mode := .parameterized } .postgres
      { projectId := "p"
        filters := [⟨"RECORD", "CATEGORY", "CONTAINS", [.string "a"]⟩]
        subqueries := [⟨"SUBQUERY_RLA_DIFFERENT_IS_EXTRACTION", [.string "t"], false⟩] } =
      .ok compiled := by
    rw [build_eq]
    exact ⟨_, rfl⟩
  obtain ⟨hparams, -, ts, hts, -, hcount⟩ := (build_accounts_for_parameters h).2 rfl
  exact ⟨compiled, ts, h, hparams, hts, hcount 2⟩

end Config

end RecordSearch
