import RecordSearch.Proofs.Accepted
import RecordSearch.Proofs.Failure
import RecordSearch.Proofs.Like
import RecordSearch.Proofs.Written

/-!
# What the pattern operators find

The pattern of a filter is its operand between wildcards. The operand is not escaped, so
that it is a pattern itself: what is found is a text that matches it, anywhere, at the
front or at the end. This is the operand and nothing else exactly for those operands that
have no character with a meaning in patterns.
-/
namespace RecordSearch

open Json (Value)
open Sql (Bindings Fragment LetterCase Element Like Matches elements? isSpecial sample)
open Sql.Binder (valuesAt)

namespace Operator

/-- Where an operator looks for its operand: anywhere, at the front, or at the end. The
operators without a pattern compare with the whole. -/
def Places {α : Type} (op : Operator) (part whole : List α) : Prop :=
  match op with
  | .contains => part <:+: whole
  | .beginsWith => part <+: whole
  | .endsWith => part <:+ whole
  | .equal | .isIn => part = whole

namespace Places

variable {α β : Type} {op : Operator}

theorem refl (op : Operator) (whole : List α) : op.Places whole whole := by
  cases op with
  | contains => exact List.infix_rfl
  | beginsWith => exact List.prefix_rfl
  | endsWith => exact List.suffix_rfl
  | equal | isIn => rfl

theorem isInfix {part whole : List α} (h : op.Places part whole) : part <:+: whole := by
  cases op with
  | contains => exact h
  | beginsWith => exact List.IsPrefix.isInfix h
  | endsWith => exact List.IsSuffix.isInfix h
  | equal | isIn =>
    rw [show part = whole from h]

theorem map_iff {g : α → β} {part : List β} {whole : List α} :
    op.Places part (whole.map g) ↔ ∃ own, op.Places own whole ∧ part = own.map g := by
  cases op with
  | contains => exact List.infix_map_iff
  | beginsWith => exact List.prefix_map_iff
  | endsWith => exact List.suffix_map_iff
  | equal | isIn => simp [Places]

end Places

/-- The text that is bound for an operand. -/
def pattern (op : Operator) (v : String) : String :=
  match op.form with
  | .pattern before after => before ++ v ++ after
  | .single | .list => v

variable {op : Operator} {letters : LetterCase}

theorem toList_pattern_contains (v : String) :
    (contains.pattern v).toList = '%' :: (v.toList ++ ['%']) := by
  simp [pattern, form]

theorem toList_pattern_beginsWith (v : String) :
    (beginsWith.pattern v).toList = v.toList ++ ['%'] := by
  simp [pattern, form]

theorem toList_pattern_endsWith (v : String) :
    (endsWith.pattern v).toList = '%' :: v.toList := by
  simp [pattern, form]

/-- An operand that is a pattern itself is looked for as one. -/
theorem like_pattern_iff (hop : op.quotesOperand = true) {v : String} {es : List Element}
    (hes : elements? v.toList = some es) (s : String) :
    Like letters (op.pattern v) s ↔
      ∃ part, op.Places part s.toList ∧ Matches letters es part := by
  have hclosed : elements? (v.toList ++ ['%']) = some (es ++ [.any]) :=
    Sql.elements?_append hes ['%']
  cases op with
  | contains =>
    have hpattern : elements? (contains.pattern v).toList = some (.any :: (es ++ [.any])) := by
      rw [toList_pattern_contains, Sql.elements?_char (by decide), hclosed]
      rfl
    simp only [Sql.like_iff hpattern, Sql.matches_any_cons, Sql.matches_append_any, Places,
      List.infix_iff_prefix_suffix]
    constructor
    · rintro ⟨rest, hrest, part, hpart, hmatches⟩
      exact ⟨part, ⟨rest, hpart, hrest⟩, hmatches⟩
    · rintro ⟨part, ⟨rest, hpart, hrest⟩, hmatches⟩
      exact ⟨rest, hrest, part, hpart, hmatches⟩
  | beginsWith =>
    rw [← toList_pattern_beginsWith] at hclosed
    exact (Sql.like_iff hclosed).trans Sql.matches_append_any
  | endsWith =>
    have hpattern : elements? (endsWith.pattern v).toList = some (.any :: es) := by
      rw [toList_pattern_endsWith, Sql.elements?_char (by decide), hes]
      rfl
    exact (Sql.like_iff hpattern).trans Sql.matches_any_cons
  | equal | isIn => cases hop

/-- A lone backslash at the end of an operand takes the meaning from the wildcard behind it.
What is found then ends in a percent sign instead of the backslash. -/
theorem exists_like_of_lone (letters : LetterCase) (hop : op = .contains ∨ op = .beginsWith)
    {front : List Char} {es : List Element} (hes : elements? front = some es) :
    Like letters (op.pattern (String.ofList (front ++ ['\\'])))
      (String.ofList (sample es ++ ['%'])) := by
  have hclosed : elements? (front ++ ['\\', '%']) = some (es ++ [.exactly '%']) :=
    Sql.elements?_append hes ['\\', '%']
  have hsample : Matches letters (es ++ [.exactly '%']) (sample es ++ ['%']) :=
    Sql.matches_append.2 ⟨sample es, ['%'], rfl, Sql.matches_sample letters es,
      '%', [], rfl, rfl, rfl⟩
  rcases hop with rfl | rfl
  · have hpattern : elements? (contains.pattern (String.ofList (front ++ ['\\']))).toList =
        some (.any :: (es ++ [.exactly '%'])) := by
      rw [toList_pattern_contains, String.toList_ofList, List.append_assoc,
        Sql.elements?_char (by decide)]
      simp [hclosed, Element.ofChar]
    rw [Sql.like_iff hpattern, String.toList_ofList]
    exact Sql.matches_any_cons.2 ⟨_, List.suffix_rfl, hsample⟩
  · have hpattern : elements? (beginsWith.pattern (String.ofList (front ++ ['\\']))).toList =
        some (es ++ [.exactly '%']) := by
      rw [toList_pattern_beginsWith, String.toList_ofList, List.append_assoc]
      exact hclosed
    rw [Sql.like_iff hpattern, String.toList_ofList]
    exact hsample

theorem exists_differs_of_lone (letters : LetterCase) (hop : op.quotesOperand = true) {v : String}
    (hnone : elements? v.toList = none) : ∃ s,
    ¬ (Like letters (op.pattern v) s ↔ op.Places (letters.folded v) (letters.folded s)) := by
  obtain ⟨front, es, hv, hes⟩ := Sql.exists_of_elements?_eq_none hnone
  have hpercent : (op = .contains ∨ op = .beginsWith) → ∃ s,
      ¬ (Like letters (op.pattern v) s ↔
        op.Places (letters.folded v) (letters.folded s)) := by
    intro hop
    have hlike := exists_like_of_lone letters hop hes
    rw [← hv, String.ofList_toList] at hlike
    refine ⟨String.ofList (sample es ++ ['%']), fun hiff => ?_⟩
    have hpart := (hiff.1 hlike).isInfix
    rw [LetterCase.folded, LetterCase.folded, String.toList_ofList, hv] at hpart
    have hle : ((sample es ++ ['%']).map letters.fold).length ≤
        ((front ++ ['\\']).map letters.fold).length := by
      simpa using Sql.length_sample_le hes
    have heq := List.IsInfix.eq_of_length_le hpart hle
    rw [List.map_append, List.map_append] at heq
    obtain ⟨-, hlast⟩ := List.append_inj' heq rfl
    cases letters.eq_of_isSpecial (by decide) (List.cons.inj hlast).1
  cases op with
  | contains => exact hpercent (.inl rfl)
  | beginsWith => exact hpercent (.inr rfl)
  | endsWith =>
    refine ⟨v, fun hiff => ?_⟩
    obtain ⟨fs, hfs, -⟩ := hiff.2 (.refl _ _)
    rw [toList_pattern_endsWith, Sql.elements?_char (by decide), hnone] at hfs
    cases hfs
  | equal | isIn => cases hop

/-- The pattern finds the operand in every text exactly if the operand has no character
with a meaning in patterns. -/
theorem like_iff_places_iff (letters : LetterCase) (hop : op.quotesOperand = true) (v : String) :
    (∀ s, Like letters (op.pattern v) s ↔
      op.Places (letters.folded v) (letters.folded s)) ↔ ∀ c ∈ v.toList, isSpecial c = false := by
  constructor
  · intro hmeans
    cases hes : elements? v.toList with
    | none =>
      obtain ⟨s, hs⟩ := exists_differs_of_lone letters hop hes
      exact absurd (hmeans s) hs
    | some es =>
      have hfound : Like letters (op.pattern v) (String.ofList (sample es)) :=
        (like_pattern_iff hop hes _).2 ⟨sample es, by rw [String.toList_ofList]; exact .refl op _,
          Sql.matches_sample letters es⟩
      have hpart := ((hmeans _).1 hfound).isInfix
      rw [LetterCase.folded, LetterCase.folded, String.toList_ofList] at hpart
      refine Sql.plain_of_map_sample hes (List.IsInfix.eq_of_length_le hpart ?_)
      simpa using Sql.length_sample_le hes
  · intro hplain s
    rw [like_pattern_iff hop (Sql.elements?_of_plain hplain), LetterCase.folded,
      LetterCase.folded, Places.map_iff]
    simp only [Sql.matches_exactly]

theorem form_of_quotesOperand (hop : op.quotesOperand = true) :
    ∃ before after, op.form = .pattern before after := by
  cases op with
  | contains | beginsWith | endsWith => exact ⟨_, _, rfl⟩
  | equal | isIn => cases hop

theorem bound_string (hop : op.quotesOperand = true) (v : String) :
    op.bound (.scalar (.string v)) = [.string (op.pattern v)] := by
  obtain ⟨before, after, hform⟩ := form_of_quotesOperand hop
  simp [bound, pattern, hform, Value.plain]

theorem condition_binds_pattern (hop : op.quotesOperand = true) (v : String) (bound : Bindings) :
    ∃ f, (op.condition (.scalar (.string v))).runOn bound =
        (.ok f, bound ++ [.string (op.pattern v)]) ∧
      ∀ quoting dialect, f.text ⟨.parameterized, quoting, dialect⟩ =
        " ILIKE " ++ String.ofList (dialect.placeholder bound.length) := by
  obtain ⟨before, after, hform⟩ := form_of_quotesOperand hop
  have hfits : op.fits (.scalar (.string v)) = true := by simp [fits, hform]
  have hframe : op.frame = (" ILIKE ", "") := by simp [frame, hform]
  refine ⟨op.around (valuesAt bound.length [.string (op.pattern v)]), ?_, ?_⟩
  · rw [condition_writes hfits bound, bound_string hop]
  · intro quoting dialect
    rw [around, List.cons_append, Fragment.text_fixed, Fragment.text_append,
      Sql.Style.text_valuesAt, Sql.Style.writtenValues_singleton, Fragment.text_fixed, hframe]
    simp [Sql.Style.writtenValue]

end Operator

theorem FilterSpec.boundValues_string {spec : FilterSpec} {op : Operator}
    (hop : op.quotesOperand = true) (hoperator : spec.operator = Named.name op) {v : String}
    (hv : spec.operands = [.string v]) : spec.boundValues = [.string (op.pattern v)] := by
  obtain ⟨before, after, hform⟩ := op.form_of_quotesOperand hop
  rw [boundValues_of_operator hoperator.symm, hv]
  simp [Operator.pattern, hform, Value.plain]

namespace Config

/-- What a filter with a pattern operator and a text as its operand binds, and what the
bound pattern finds. The operand is looked for as a pattern of its own, and it finds itself
and nothing else, in every text, exactly if it has no character with a meaning in patterns. -/
theorem build_finds_operand_iff {op : Operator} (hop : op.quotesOperand = true) (v : String) :
    ∃ pattern : String,
      (∀ bound : Bindings, ∃ f, (op.condition (.scalar (.string v))).runOn bound =
          (.ok f, bound ++ [.string pattern]) ∧
        ∀ quoting dialect, f.text ⟨.parameterized, quoting, dialect⟩ =
          " ILIKE " ++ String.ofList (dialect.placeholder bound.length)) ∧
      (∀ (config : Config) (dialect : Sql.Dialect) (request : SearchRequest)
          (compiled : CompiledSearch), config.mode = .parameterized →
        config.build dialect request = .ok compiled →
        ∀ before spec after, request.filters = before ++ spec :: after →
          spec.operator = Named.name op → spec.operands = [.string v] →
          compiled.params[(before.flatMap FilterSpec.boundValues).length]? =
            some (.string pattern)) ∧
      ∀ letters : LetterCase,
        ((∀ s, Like letters pattern s ↔
          op.Places (letters.folded v) (letters.folded s)) ↔
            ∀ c ∈ v.toList, isSpecial c = false) ∧
        ∀ es, elements? v.toList = some es → ∀ s, Like letters pattern s ↔
          ∃ part, op.Places part s.toList ∧ Matches letters es part := by
  refine ⟨op.pattern v, op.condition_binds_pattern hop v, ?_,
    fun letters => ⟨op.like_iff_places_iff letters hop v,
      fun es hes s => Operator.like_pattern_iff hop hes s⟩⟩
  intro config dialect request compiled hmode hbuild before spec after hfilters hoperator hv
  obtain ⟨c, -, hyields, rfl⟩ := build_eq_ok hbuild
  have hvalues := FilterSpec.boundValues_string hop hoperator hv
  simp [style, Sql.Style.params, hmode, hyields.bound_eq, SearchRequest.boundValues, hfilters,
    hvalues]

/-- A percent sign is found in every text. -/
theorem build_percent_finds_letter :
    ∃ (compiled : CompiledSearch) (pattern : String),
      build { mode := .parameterized } .postgres
          (.ofFilter "p1" ⟨"RECORD", "ID", "CONTAINS", [.string "%"]⟩) = .ok compiled ∧
      compiled.params = [.string pattern, .string "p1"] ∧
      Like .insensitive pattern "a" ∧
      ¬ Operator.contains.Places (LetterCase.insensitive.folded "%")
        (LetterCase.insensitive.folded "a") := by
  obtain ⟨compiled, h, hparams⟩ : ∃ compiled, build { mode := .parameterized } .postgres
      (.ofFilter "p1" ⟨"RECORD", "ID", "CONTAINS", [.string "%"]⟩) = .ok compiled ∧
        compiled.params = [.string "%%%", .string "p1"] := by
    rw [build_eq]
    exact ⟨_, rfl, rfl⟩
  refine ⟨compiled, "%%%", h, hparams, by decide, fun hpart => ?_⟩
  have heq := List.IsInfix.eq_of_length_le hpart (by decide)
  exact absurd heq (by decide)

/-- An underscore is found where there is any one character, so that the beginning that is
found need not be the operand. -/
theorem build_underscore_finds_more :
    Operator.beginsWith.quotesOperand = true ∧
      ∃ (compiled : CompiledSearch) (pattern : String),
        build { mode := .parameterized } .postgres
            (.ofFilter "p1" ⟨"RECORD", "ID", "BEGINS_WITH", [.string "a_c"]⟩) = .ok compiled ∧
        compiled.params[0]? = some (.string pattern) ∧
        Like .sensitive pattern "abcd" ∧
        ¬ ∀ s, Like .sensitive pattern s ↔
          LetterCase.sensitive.folded "a_c" <+: LetterCase.sensitive.folded s := by
  refine ⟨rfl, ?_⟩
  obtain ⟨compiled, h⟩ : ∃ compiled, build { mode := .parameterized } .postgres
      (.ofFilter "p1" ⟨"RECORD", "ID", "BEGINS_WITH", [.string "a_c"]⟩) = .ok compiled := by
    rw [build_eq]
    exact ⟨_, rfl⟩
  obtain ⟨pattern, -, hbound, hfinds⟩ :=
    build_finds_operand_iff (show Operator.beginsWith.quotesOperand = true from rfl) "a_c"
  obtain ⟨hplain, hlike⟩ := hfinds .sensitive
  refine ⟨compiled, pattern, h, hbound _ _ _ _ rfl h [] _ [] rfl rfl rfl, ?_, fun hmeans => ?_⟩
  · exact (hlike _ rfl "abcd").2 ⟨"abc".toList, ⟨"d".toList, rfl⟩,
      Sql.accepts_eq_true_iff.1 (by decide)⟩
  · exact absurd (hplain.1 hmeans '_' (by decide)) (by decide)

end Config

end RecordSearch
