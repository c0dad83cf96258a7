import Mathlib.Data.List.Basic
import Mathlib.Data.List.Flatten
import RecordSearch.Proofs.Literal
import RecordSearch.Proofs.Spelled

/-!
# Where doubling quotes shows

A literal statement keeps the quotes of the client's texts or doubles them. Doubling
only adds characters, so that changes in different places cannot make up for each
other: the two statements are the same exactly if no text has a quote of the kind that
stands around it. Placeholders leave nothing to choose.
-/
namespace RecordSearch

open Json (Value)
open Sql (Fragment Piece Style singleQuote doubleQuote)

/-- Where each part can only get longer, the whole changes with any part. -/
theorem flatMap_eq_iff_of_sublist {α β : Type} {f g : α → List β} {xs : List α}
    (h : ∀ x ∈ xs, (f x).Sublist (g x)) :
    xs.flatMap f = xs.flatMap g ↔ ∀ x ∈ xs, f x = g x := by
  constructor
  case mpr => exact List.flatMap_congr
  case mp =>
    intro heq
    induction xs with
    | nil => simp
    | cons x xs ih =>
      have hhead := h x (by simp)
      have htail : (xs.flatMap f).Sublist (xs.flatMap g) :=
        .flatMap_right xs fun y hy => h y (by simp [hy])
      have hlength : (f x).length = (g x).length := by
        have hsum := congrArg List.length heq
        simp only [List.flatMap_cons, List.length_append] at hsum
        have h₁ := hhead.length_le
        have h₂ := htail.length_le
        omega
      rw [List.flatMap_cons, List.flatMap_cons] at heq
      obtain ⟨hx, hxs⟩ := List.append_inj heq hlength
      intro y hy
      rcases List.mem_cons.1 hy with rfl | hy
      · exact hx
      · exact ih (fun z hz => h z (by simp [hz])) hxs y hy

namespace Sql

namespace Quoting

theorem sublist_doubled (quote c : Char) :
    [c].Sublist (if c = quote then [quote, quote] else [c]) := by
  split
  next hc => exact hc ▸ .cons c (.refl [c])
  next => exact .refl [c]

theorem inside_sublist (quote : Char) (text : List Char) :
    text.Sublist (escaped.inside quote text) := by
  have hdoubled : (text.flatMap fun c => [c]).Sublist (escaped.inside quote text) :=
    .flatMap_right text fun c _ => sublist_doubled quote c
  rwa [List.flatMap_singleton'] at hdoubled

theorem inside_eq_iff (quote : Char) (text : List Char) :
    text = escaped.inside quote text ↔ quote ∉ text := by
  have hchars := flatMap_eq_iff_of_sublist fun c (_ : c ∈ text) => sublist_doubled quote c
  have hnone : (∀ c ∈ text, [c] = if c = quote then [quote, quote] else [c]) ↔ quote ∉ text := by
    constructor
    · intro h hmem
      have hself := h quote hmem
      rw [if_pos rfl] at hself
      cases hself
    · intro h c hc
      rw [if_neg]
      rintro rfl
      exact h hc
  rw [List.flatMap_singleton'] at hchars
  exact hchars.trans hnone

theorem wrap_sublist (quote : Char) (text : String) :
    (verbatim.wrap quote text).Sublist (escaped.wrap quote text) :=
  ((inside_sublist quote text.toList).cons_cons quote).append (.refl _)

theorem wrap_eq_iff (quote : Char) (text : String) :
    verbatim.wrap quote text = escaped.wrap quote text ↔ quote ∉ text.toList := by
  rw [← inside_eq_iff, wrap, wrap, inside, List.append_cancel_right_eq, List.cons.injEq]
  exact and_iff_right rfl

end Quoting

namespace Fragment

/-- All values of a fragment are single ones. -/
def Scalar (f : Fragment) : Prop := ∀ s ∈ slots f, s.2.isScalar = true

theorem Scalar.piece {f : Fragment} (h : Scalar f) {p : Piece} (hp : p ∈ f) :
    ∀ slot v, p = .value slot v → v.isScalar = true := by
  rintro slot v rfl
  exact h (slot, v) (List.mem_filterMap.2 ⟨_, hp, rfl⟩)

/-- Doubling changes a literal text exactly if one of its texts has its own quote. -/
theorem Scalar.text_eq_iff {f : Fragment} (h : Scalar f) (dialect : Dialect) :
    text ⟨.literal, .verbatim, dialect⟩ f = text ⟨.literal, .escaped, dialect⟩ f ↔
      ∀ q ∈ spelled f, q.1 ∉ q.2.toList := by
  have hsublist : ∀ p ∈ f, (p.chars ⟨.literal, .verbatim, dialect⟩).Sublist
      (p.chars ⟨.literal, .escaped, dialect⟩) := by
    intro p hp
    cases hspelled : p.spelled? with
    | none => rw [p.chars_of_unspelled hspelled (h.piece hp) .verbatim .escaped dialect]
    | some q =>
      rw [p.chars_of_spelled hspelled, p.chars_of_spelled hspelled]
      exact Quoting.wrap_sublist q.1 q.2
  rw [text, text, String.ofList_inj, chars, chars, flatMap_eq_iff_of_sublist hsublist]
  constructor
  · intro heq q hq
    obtain ⟨p, hp, hspelled⟩ := List.mem_filterMap.1 hq
    rw [← Quoting.wrap_eq_iff, ← p.chars_of_spelled hspelled .verbatim dialect,
      ← p.chars_of_spelled hspelled .escaped dialect]
    exact heq p hp
  · intro hnone p hp
    cases hspelled : p.spelled? with
    | none => exact p.chars_of_unspelled hspelled (h.piece hp) .verbatim .escaped dialect
    | some q =>
      rw [p.chars_of_spelled hspelled, p.chars_of_spelled hspelled, Quoting.wrap_eq_iff]
      exact hnone q (List.mem_filterMap.2 ⟨p, hp, hspelled⟩)

theorem text_parameterized (quoting quoting' : Quoting) (dialect : Dialect) (f : Fragment) :
    text ⟨.parameterized, quoting, dialect⟩ f = text ⟨.parameterized, quoting', dialect⟩ f := by
  have hpiece : Piece.chars ⟨.parameterized, quoting, dialect⟩ =
      Piece.chars ⟨.parameterized, quoting', dialect⟩ := by
    funext p
    cases p <;> rfl
  rw [text, text, chars, chars, hpiece]

end Fragment

end Sql

/-- No text that the client writes into the statement has a single quote, and a key of
the payload to sort by has no quote of either kind. -/
structure SearchRequest.Quoteless (request : SearchRequest) : Prop where
  projectId : singleQuote ∉ request.projectId.toList
  payloadKeys : ∀ spec ∈ request.filters, ∀ key ∈ spec.payloadKeys, singleQuote ∉ key.toList
  operands : ∀ spec ∈ request.filters, ∀ s, .string s ∈ spec.operands → singleQuote ∉ s.toList
  ownValues : ∀ spec ∈ request.subqueries, ∀ s, .string s ∈ spec.ownValues →
    singleQuote ∉ s.toList
  orderKey : ∀ spec ∈ request.order, ∀ key, splitOrderKey spec.orderBy = ("RECORD_DATA", some key) →
    singleQuote ∉ key.toList ∧ doubleQuote ∉ key.toList

/-- A text without the quote that is to stand around it. -/
def Unquoted (q : Char × String) : Prop := q.1 ∉ q.2.toList

theorem unquoted_values_iff (vs : List Value) :
    (∀ q ∈ vs.filterMap Value.spelled?, Unquoted q) ↔
      ∀ s, .string s ∈ vs → singleQuote ∉ s.toList := by
  constructor
  · intro h s hs
    exact h (singleQuote, s) (List.mem_filterMap.2 ⟨_, hs, rfl⟩)
  · intro h q hq
    obtain ⟨v, hv, hspelled⟩ := List.mem_filterMap.1 hq
    cases v with
    | string s =>
      obtain rfl := Option.some.inj hspelled
      exact h s hv
    | null | bool _ | number _ | array _ | object _ => cases hspelled

/-- Numbers and truth values have no quotes when they become part of a pattern. -/
theorem quote_notMem_plain_iff {v : Value} (h : v.isScalar = true) :
    singleQuote ∉ v.plain.toList ↔ ∀ s, v = .string s → singleQuote ∉ s.toList := by
  cases v with
  | string s =>
    constructor
    · rintro hs _ ⟨⟩
      exact hs
    · intro hall
      exact hall s rfl
  | bool b =>
    have hnone : singleQuote ∉ (Value.bool b).plain.toList := by
      cases b <;> decide
    exact iff_of_true hnone fun s hs => by cases hs
  | number n =>
    have hnone : singleQuote ∉ (Value.number n).plain.toList := by
      intro hmem
      have htext : singleQuote ∈ n.text := by
        simpa [Value.plain, Value.compact, Value.chars] using hmem
      cases Sql.isQuote_of_isNumeral (Json.isNumeral_of_mem_text n _ htext)
    exact iff_of_true hnone fun s hs => by cases hs
  | null | array _ | object _ => cases h

namespace FilterSpec

theorem isScalar_of_check {limits : Limits} {spec : FilterSpec} {p : Predicate}
    (h : spec.check limits = .ok p) : ∀ v ∈ spec.operands, v.isScalar = true := by
  obtain ⟨f, hresolve, h⟩ := bind_eq_ok h
  obtain ⟨operand, hoperand, -⟩ := bind_eq_ok h
  rw [operands_of_resolve hresolve]
  exact (Filter.operand_eq_ok hoperand).1

theorem unquoted_bound_iff {limits : Limits} {spec : FilterSpec} {p : Predicate}
    (h : spec.check limits = .ok p) :
    (∀ s, .string s ∈ spec.boundValues → singleQuote ∉ s.toList) ↔
      ∀ s, .string s ∈ spec.operands → singleQuote ∉ s.toList := by
  have hscalars := isScalar_of_check h
  rw [boundValues_of_operator (yields_of_check h).operator]
  have hpattern : ∀ before after : String, singleQuote ∉ before.toList →
      singleQuote ∉ after.toList →
      ((∀ s, .string s ∈ spec.operands.map (fun v => Value.string (before ++ v.plain ++ after)) →
          singleQuote ∉ s.toList) ↔
        ∀ s, .string s ∈ spec.operands → singleQuote ∉ s.toList) := by
    intro before after hbefore hafter
    have hmem : ∀ v : Value, singleQuote ∉ (before ++ v.plain ++ after).toList ↔
        singleQuote ∉ v.plain.toList := by
      simp [hbefore, hafter]
    constructor
    · intro hall s hs
      exact (hmem (.string s)).1 (hall _ (List.mem_map_of_mem hs))
    · intro hall t ht
      obtain ⟨v, hv, heq⟩ := List.mem_map.1 ht
      obtain rfl := Value.string.inj heq
      refine (hmem v).2 ((quote_notMem_plain_iff (hscalars v hv)).2 ?_)
      rintro s rfl
      exact hall s hv
  cases p.operator with
  | equal | isIn => exact Iff.rfl
  | contains | beginsWith | endsWith => exact hpattern _ _ (by decide) (by decide)

theorem unquoted_spelledTexts_iff {limits : Limits} {spec : FilterSpec} {p : Predicate}
    (h : spec.check limits = .ok p) :
    (∀ q ∈ spec.spelledTexts, Unquoted q) ↔
      (∀ key ∈ spec.payloadKeys, singleQuote ∉ key.toList) ∧
        ∀ s, .string s ∈ spec.operands → singleQuote ∉ s.toList := by
  rw [← unquoted_bound_iff h, spelledTexts, List.forall_mem_append, List.forall_mem_map,
    unquoted_values_iff]
  exact Iff.rfl

end FilterSpec

theorem SubquerySpec.unquoted_textValues_iff (spec : SubquerySpec) (projectId : String) :
    (∀ q ∈ (spec.textValues projectId).filterMap Value.spelled?, Unquoted q) ↔
      singleQuote ∉ projectId.toList ∧
        ∀ s, .string s ∈ spec.ownValues → singleQuote ∉ s.toList := by
  have hmem : ∀ v, v ∈ spec.textValues projectId ↔ v = .string projectId ∨ v ∈ spec.ownValues := by
    intro v
    have huses : spec.projectUses ≠ 0 := by
      unfold projectUses
      split <;> decide
    unfold textValues
    split
    next => simp [or_comm]
    next => simp [huses]
  rw [unquoted_values_iff]
  simp only [hmem]
  constructor
  · intro h
    exact ⟨h projectId (.inl rfl), fun s hs => h s (.inr hs)⟩
  · rintro ⟨hproject, hown⟩ s (hs | hs)
    · rwa [Value.string.inj hs]
    · exact hown s hs

theorem OrderSpec.unquoted_keyTexts_iff (spec : OrderSpec) :
    (∀ q ∈ spec.keyTexts, Unquoted q) ↔
      ∀ key, splitOrderKey spec.orderBy = ("RECORD_DATA", some key) →
        singleQuote ∉ key.toList ∧ doubleQuote ∉ key.toList := by
  have halias : ∀ key : String, doubleQuote ∉ ("order_" ++ key).toList ↔
      doubleQuote ∉ key.toList := by
    intro key
    have horder : doubleQuote ∉ "order_".toList := by decide
    rw [String.toList_append, List.mem_append]
    simp only [horder, false_or]
  unfold keyTexts
  split
  next key hsplit =>
    rw [hsplit]
    simp only [List.forall_mem_cons, Unquoted, halias, Prod.mk.injEq, Option.some.injEq, true_and,
      forall_eq']
    exact and_congr_right fun _ => and_iff_left fun q hq => by cases hq
  next hnone =>
    exact iff_of_true (fun q hq => by cases hq) fun key hsplit => absurd hsplit (hnone key)

namespace SearchRequest.Yields

variable {limits : Limits} {request : SearchRequest} {c : AcceptedRequest}

/-- The texts of an accepted request lack their quotes exactly if it is without them. -/
theorem unquoted_iff (h : request.Yields limits c) :
    (∀ q ∈ request.spelledTexts, Unquoted q) ↔ request.Quoteless := by
  have hfilters : (∀ q ∈ request.filters.flatMap FilterSpec.spelledTexts, Unquoted q) ↔
      ∀ spec ∈ request.filters, (∀ key ∈ spec.payloadKeys, singleQuote ∉ key.toList) ∧
        ∀ s, .string s ∈ spec.operands → singleQuote ∉ s.toList := by
    rw [List.forall_mem_flatMap]
    refine forall₂_congr fun spec hspec => ?_
    obtain ⟨p, -, hcheck⟩ := exists_ok_of_mapM_ok h.predicates hspec
    exact FilterSpec.unquoted_spelledTexts_iff hcheck
  have hsubqueries : (∀ q ∈ request.subqueries.flatMap (fun spec =>
        (spec.textValues request.projectId).filterMap Value.spelled?), Unquoted q) ↔
      ∀ spec ∈ request.subqueries, singleQuote ∉ request.projectId.toList ∧
        ∀ s, .string s ∈ spec.ownValues → singleQuote ∉ s.toList := by
    rw [List.forall_mem_flatMap]
    exact forall₂_congr fun spec _ => spec.unquoted_textValues_iff request.projectId
  have horder : (∀ q ∈ request.orderTexts, Unquoted q) ↔
      ∀ spec ∈ request.order, ∀ key, splitOrderKey spec.orderBy = ("RECORD_DATA", some key) →
        singleQuote ∉ key.toList ∧ doubleQuote ∉ key.toList := by
    rw [orderTexts, List.forall_mem_flatMap]
    simp only [Option.mem_toList]
    exact forall₂_congr fun spec _ => spec.unquoted_keyTexts_iff
  rw [spelledTexts, List.forall_mem_append, List.forall_mem_append, List.forall_mem_append,
    List.forall_mem_cons, horder, hsubqueries, hfilters]
  constructor
  · rintro ⟨⟨⟨hkey, hown⟩, hproject, hspecs⟩, -⟩
    exact ⟨hproject, fun spec hspec => (hspecs spec hspec).1,
      fun spec hspec => (hspecs spec hspec).2, fun spec hspec => (hown spec hspec).2, hkey⟩
  · intro hnone
    refine ⟨⟨⟨hnone.orderKey, fun spec hspec => ⟨hnone.projectId, hnone.ownValues spec hspec⟩⟩,
      hnone.projectId, fun spec hspec =>
        ⟨hnone.payloadKeys spec hspec, hnone.operands spec hspec⟩⟩, fun q hq => ?_⟩
    exact horder.2 hnone.orderKey q (List.mem_of_mem_tail hq)

theorem scalar_layout (h : request.Yields limits c) : (c.layout 0).Scalar := fun _ hs =>
  h.isScalar_of_mem_slots hs

end SearchRequest.Yields

namespace Config

/-- Whether quotes are doubled has no part in whether a request is accepted. It shows in a
literal statement exactly if the client wrote a quote that stands between its like, and in
a statement with placeholders it never shows. -/
theorem build_quoting_agree_iff (limits : Limits) (dialect : Sql.Dialect)
    (request : SearchRequest) :
    ((∃ e, build ⟨.literal, .verbatim, limits⟩ dialect request = .error e ∧
        build ⟨.literal, .escaped, limits⟩ dialect request = .error e) ∨
      ∃ kept doubled,
        build ⟨.literal, .verbatim, limits⟩ dialect request = .ok ⟨kept, []⟩ ∧
        build ⟨.literal, .escaped, limits⟩ dialect request = .ok ⟨doubled, []⟩ ∧
        (kept = doubled ↔ request.Quoteless)) ∧
      build ⟨.parameterized, .verbatim, limits⟩ dialect request =
        build ⟨.parameterized, .escaped, limits⟩ dialect request := by
  simp only [build_eq]
  cases hcheck : request.check limits with
  | error e => exact ⟨.inl ⟨e, rfl, rfl⟩, rfl⟩
  | ok c =>
    have hyields := SearchRequest.yields_of_check hcheck
    refine ⟨.inr ⟨_, _, rfl, rfl, ?_⟩, ?_⟩
    · rw [← hyields.unquoted_iff, ← hyields.spelled_layout 0]
      exact hyields.scalar_layout.text_eq_iff dialect
    · have htext := (c.layout 0).text_parameterized .verbatim .escaped dialect
      exact congrArg (fun sql => Except.ok (⟨sql, c.bound⟩ : CompiledSearch)) htext

end Config

end RecordSearch
