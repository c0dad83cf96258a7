import RecordSearch.Proofs.Accepted

/-!
# Literal and parameterized statements agree

Whether a request is accepted does not depend on the style. The parameterized
statement of an accepted one, with each of its numbered placeholders replaced by
the literal of its parameter, is the literal statement.
-/
namespace RecordSearch

open Sql (literalStyle tokens? placeholders fillPlaceholders)

namespace Config

/-- Parameterized and literal statements: both are refused with the same error, or
both are built and the placeholders of the one stand where the literals of its
parameters stand in the other. -/
theorem build_parameterized_agrees_literal (limits : Limits) (quoting : Sql.Quoting)
    (request : SearchRequest) :
    (∃ e, build ⟨.parameterized, quoting, limits⟩ .postgres request = .error e ∧
      build ⟨.literal, .escaped, limits⟩ .postgres request = .error e ∧
      ∀ mode, buildSql ⟨mode, .escaped, limits⟩ request = .error e) ∨
    ∃ sql params literal,
      build ⟨.parameterized, quoting, limits⟩ .postgres request = .ok ⟨sql, params⟩ ∧
      build ⟨.literal, .escaped, limits⟩ .postgres request = .ok ⟨literal, []⟩ ∧
      fillPlaceholders params sql = some literal ∧
      (∃ ts, tokens? sql = some ts ∧ ∀ k ∈ placeholders ts, 1 ≤ k ∧ k ≤ params.length) ∧
      ∀ mode, buildSql ⟨mode, .escaped, limits⟩ request = .ok literal := by
  have hsql : ∀ mode, buildSql ⟨mode, .escaped, limits⟩ request =
      ((request.check limits).map fun c =>
        (⟨(c.layout 0).text literalStyle, []⟩ : CompiledSearch)).map CompiledSearch.sql :=
    fun mode => congrArg (Except.map CompiledSearch.sql) (request.compile_eq limits literalStyle)
  simp only [hsql, build_eq]
  cases hcheck : request.check limits with
  | error e => exact .inl ⟨e, rfl, rfl, fun _ => rfl⟩
  | ok c =>
    have hyields := SearchRequest.yields_of_check hcheck
    have hparams : ∀ p ∈ (c.layout 0).slots, c.bound[p.1]? = some p.2 :=
      fun p hp => hyields.getElem?_of_mem_slots hp
    obtain ⟨ts, hts, hplaceholders⟩ := (hyields.balanced 0).placeholders_text quoting
    refine .inr ⟨_, _, _, rfl, rfl,
      (hyields.balanced 0).fillPlaceholders_text hparams quoting, ⟨ts, hts, fun k hk => ?_⟩,
      fun _ => rfl⟩
    rw [hplaceholders] at hk
    obtain ⟨p, hp, rfl⟩ := List.mem_map.1 hk
    have hbound := (List.getElem?_eq_some_iff.1 (hparams p hp)).1
    exact ⟨Nat.succ_le_succ (Nat.zero_le _), hbound⟩

end Config

end RecordSearch
