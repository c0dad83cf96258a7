import Mathlib.Data.List.Infix
import RecordSearch.Sql.Template

/-!
# The markers of a text

Where the markers of a text stand is said here without a loop: a marker begins at
the first pair of `@` that is left and ends at the first pair after that one, and
what remains when there are no two pairs any more is ordinary text. The loop that
collects markers and the loop that cuts a text for filling both follow this reading.
-/
namespace RecordSearch.Sql

def pair : List Char := ['@', '@']

def Pairless (cs : List Char) : Prop := ¬ pair <:+: cs

theorem pairless_cons {c : Char} {cs : List Char} :
    Pairless (c :: cs) ↔ ¬ pair <+: c :: cs ∧ Pairless cs := by
  rw [Pairless, List.infix_cons_iff, not_or, Pairless]

/-- A text with what stands before each of its markers and between its pairs, from left
to right, and the rest after the last marker. No pair begins earlier than the ones named. -/
inductive Marked : List Char → List (List Char × List Char) → List Char → Prop
  | rest {cs : List Char} :
      (∀ before inner after, cs ≠ before ++ pair ++ inner ++ pair ++ after) → Marked cs [] cs
  | marker {before inner after rest : List Char} {parts : List (List Char × List Char)} :
      Pairless (before ++ ['@']) → Pairless (inner ++ ['@']) → Marked after parts rest →
      Marked (before ++ pair ++ inner ++ pair ++ after) ((before, inner) :: parts) rest

theorem splitPair_cons {c : Char} {cs : List Char} (h : ¬ pair <+: c :: cs) :
    splitPair (c :: cs) = (splitPair cs).map fun p => (c :: p.1, p.2) := by
  rw [splitPair.eq_3]
  rintro rest rfl rfl
  exact h ⟨rest, rfl⟩

theorem splitPair_eq_none_iff {cs : List Char} : splitPair cs = none ↔ Pairless cs := by
  induction cs with
  | nil => simp [splitPair, Pairless, pair]
  | cons c cs ih =>
    by_cases hpair : pair <+: c :: cs
    · obtain ⟨rest, hrest⟩ := hpair
      rw [pairless_cons, ← hrest]
      simp [pair, splitPair]
    · rw [splitPair_cons hpair, Option.map_eq_none_iff, ih, pairless_cons, and_iff_right hpair]

theorem pairless_of_splitPair {cs before after : List Char}
    (h : splitPair cs = some (before, after)) : Pairless (before ++ ['@']) := by
  induction cs generalizing before with
  | nil => cases h
  | cons c cs ih =>
    by_cases hpair : pair <+: c :: cs
    · obtain ⟨rest, hrest⟩ := hpair
      rw [← hrest] at h
      cases h
      simp [Pairless, pair, List.infix_cons_iff]
    · rw [splitPair_cons hpair] at h
      obtain ⟨⟨b, a⟩, hsplit, heq⟩ := Option.map_eq_some_iff.1 h
      cases heq
      refine pairless_cons.2 ⟨fun hbegins => hpair ?_, ih hsplit⟩
      rw [splitPair_eq_some hsplit]
      exact hbegins.trans ⟨'@' :: a, by simp⟩

theorem splitPair_of_pairless {before : List Char} (h : Pairless (before ++ ['@']))
    (after : List Char) : splitPair (before ++ pair ++ after) = some (before, after) := by
  induction before with
  | nil => rfl
  | cons c before ih =>
    obtain ⟨hbegins, htail⟩ := pairless_cons.1 h
    have hpair : ¬ pair <+: c :: (before ++ pair ++ after) := by
      rintro ⟨rest, hrest⟩
      obtain ⟨rfl, hhead⟩ := List.cons.inj hrest
      apply hbegins
      cases before with
      | nil => exact ⟨[], rfl⟩
      | cons d before =>
        obtain ⟨rfl, -⟩ := List.cons.inj hhead
        exact ⟨before ++ ['@'], rfl⟩
    rw [List.cons_append, List.cons_append, splitPair_cons hpair, ih htail]
    rfl

theorem Marked.unique {cs rest rest' : List Char} {parts parts' : List (List Char × List Char)}
    (h : Marked cs parts rest) (h' : Marked cs parts' rest') : parts = parts' ∧ rest = rest' := by
  induction h generalizing parts' with
  | rest hnone =>
    cases h' with
    | rest => exact ⟨rfl, rfl⟩
    | marker => exact absurd rfl (hnone _ _ _)
  | @marker before inner after rest parts hbefore hinner _ ih =>
    generalize hcs : before ++ pair ++ inner ++ pair ++ after = cs at h'
    cases h' with
    | rest hnone => exact absurd hcs.symm (hnone _ _ _)
    | @marker before' inner' after' _ parts' hbefore' hinner' htail' =>
      have hsplit := splitPair_of_pairless hbefore (inner ++ pair ++ after)
      have hsplit' := splitPair_of_pairless hbefore' (inner' ++ pair ++ after')
      simp only [List.append_assoc] at hcs hsplit hsplit'
      rw [hcs, hsplit'] at hsplit
      obtain ⟨rfl, hafter⟩ := Prod.mk.inj (Option.some.inj hsplit)
      have hclose := splitPair_of_pairless hinner after
      have hclose' := splitPair_of_pairless hinner' after'
      simp only [List.append_assoc] at hclose hclose'
      rw [← hafter, hclose'] at hclose
      obtain ⟨rfl, rfl⟩ := Prod.mk.inj (Option.some.inj hclose)
      obtain ⟨rfl, rfl⟩ := ih htail'
      exact ⟨rfl, rfl⟩

theorem infix_of_splitPair {cs before after : List Char}
    (h : splitPair cs = some (before, after)) {b inner a : List Char}
    (hcs : cs = b ++ pair ++ inner ++ pair ++ a) : pair <:+: after := by
  have hinner : pair <:+: inner ++ pair ++ a := ⟨inner, a, rfl⟩
  have hafter : after <:+ cs := ⟨before ++ pair, by simp [splitPair_eq_some h, pair]⟩
  have hbehind : inner ++ pair ++ a <:+ cs := ⟨b ++ pair, by simp [hcs]⟩
  rcases List.suffix_or_suffix_of_suffix hbehind hafter with hle | ⟨skipped, hskipped⟩
  · exact hinner.trans hle.isInfix
  · -- The first pair cannot begin behind another one.
    have hfront : before ++ ['@', '@'] = b ++ pair ++ skipped := by
      have heq : before ++ ['@', '@'] ++ after = b ++ pair ++ skipped ++ after := by
        rw [splitPair_eq_some h] at hcs
        simpa [← hskipped] using hcs
      exact List.append_cancel_right heq
    rcases List.eq_nil_or_concat skipped with rfl | ⟨front, c, rfl⟩
    · exact hinner.trans ⟨[], [], by simpa using hskipped.symm⟩
    · refine absurd ?_ (pairless_of_splitPair h)
      have hpairs : before ++ ['@'] ++ ['@'] = b ++ pair ++ front ++ [c] := by
        simpa using hfront
      rw [(List.append_inj' hpairs rfl).1]
      exact ⟨b, front, rfl⟩

theorem exists_marked (cs : List Char) : ∃ parts rest, Marked cs parts rest := by
  fun_induction segments cs with
  | case1 cs hnone =>
    refine ⟨[], cs, .rest fun before inner after hcs => ?_⟩
    exact splitPair_eq_none_iff.1 hnone ⟨before, inner ++ pair ++ after, by simp [hcs]⟩
  | case2 cs before after hsome hnone =>
    refine ⟨[], cs, .rest fun b inner a hcs => ?_⟩
    exact splitPair_eq_none_iff.1 hnone (infix_of_splitPair hsome hcs)
  | case3 cs before after hopen inner behind hclose ih =>
    obtain ⟨parts, rest, hmarked⟩ := ih
    refine ⟨(before, inner) :: parts, rest, ?_⟩
    rw [splitPair_eq_some hopen, splitPair_eq_some hclose]
    simpa [pair] using
      Marked.marker (pairless_of_splitPair hopen) (pairless_of_splitPair hclose) hmarked

/-- Induction on a list of names, each with its repetitions at once. -/
theorem names_induction {motive : List String → Prop} (nil : motive [])
    (cons : ∀ name names, motive (names.filter fun b => !b == name) → motive (name :: names)) :
    ∀ names, motive names
  | [] => nil
  | name :: names => cons name names (names_induction nil cons _)
termination_by names => names.length
decreasing_by exact Nat.lt_succ_of_le (List.length_filter_le _ names)

theorem nodup_eraseDups (names : List String) : names.eraseDups.Nodup := by
  induction names using names_induction with
  | nil => exact List.nodup_nil
  | cons name names ih =>
    rw [List.eraseDups_cons, List.nodup_cons, List.mem_eraseDups]
    exact ⟨by simp, ih⟩

/-- What is found first is not found among repetitions. -/
theorem find?_eraseDups (p : String → Bool) (names : List String) :
    names.eraseDups.find? p = names.find? p := by
  induction names using names_induction with
  | nil => rfl
  | cons name names ih =>
    rw [List.eraseDups_cons, List.find?_cons, List.find?_cons, ih]
    cases hname : p name with
    | true => rfl
    | false =>
      have hp : (fun b => decide ((!b == name) = true ∧ p b = true)) = p := by
        funext b
        by_cases hb : b = name <;> simp [hb, hname]
      rw [List.find?_filter, hp]

namespace Marked

variable {cs rest : List Char} {parts : List (List Char × List Char)}

/-- Without a marker, there is no pair or no second one. -/
theorem splitPair_rest (h : ∀ before inner after, cs ≠ before ++ pair ++ inner ++ pair ++ after) :
    splitPair cs = none ∨ ∃ before after,
      splitPair cs = some (before, after) ∧ splitPair after = none := by
  cases hopen : splitPair cs with
  | none => exact .inl rfl
  | some p =>
    obtain ⟨before, after⟩ := p
    refine .inr ⟨before, after, rfl, ?_⟩
    cases hclose : splitPair after with
    | none => rfl
    | some q =>
      obtain ⟨inner, behind⟩ := q
      refine absurd ?_ (h before inner behind)
      rw [splitPair_eq_some hopen, splitPair_eq_some hclose]
      simp [pair]

/-- What a text is cut into for filling: the texts before its markers, each with its
marker, and the rest. -/
theorem segments_eq (h : Marked cs parts rest) :
    segments cs = parts.flatMap (fun p =>
        [.fixed (String.ofList p.1), .marker (markerName p.2)]) ++
      [.fixed (String.ofList rest)] := by
  induction h with
  | rest hnone =>
    rcases splitPair_rest hnone with hopen | ⟨before, after, hopen, hclose⟩
    · rw [segments, hopen]
      rfl
    · rw [segments, hopen]
      dsimp only
      rw [hclose]
      rfl
  | @marker before inner after rest parts hbefore hinner _ ih =>
    have hopen := splitPair_of_pairless hbefore (inner ++ pair ++ after)
    rw [← List.append_assoc, ← List.append_assoc] at hopen
    rw [segments, hopen]
    dsimp only
    rw [splitPair_of_pairless hinner after]
    dsimp only
    rw [ih, List.flatMap_cons]
    rfl

theorem filterMap_marker? (h : Marked cs parts rest) :
    (segments cs).filterMap Segment.marker? = parts.map fun p => markerName p.2 := by
  rw [h.segments_eq, List.filterMap_append, List.filterMap_flatMap, List.map_eq_flatMap]
  exact List.append_nil _

/-- The markers that are collected are those of the text, each where it is met first. -/
theorem scan_eq (h : Marked cs parts rest) (seen : List String) :
    scan seen.eraseDups cs = (seen ++ parts.map fun p => markerName p.2).eraseDups := by
  induction h generalizing seen with
  | rest hnone =>
    rcases splitPair_rest hnone with hopen | ⟨before, after, hopen, hclose⟩
    · rw [scan, hopen]
      simp
    · rw [scan, hopen]
      dsimp only
      rw [hclose]
      simp
  | @marker before inner after rest parts hbefore hinner _ ih =>
    have hopen := splitPair_of_pairless hbefore (inner ++ pair ++ after)
    rw [← List.append_assoc, ← List.append_assoc] at hopen
    have hseen : (seen ++ [markerName inner]).eraseDups =
        if markerName inner ∈ seen.eraseDups then seen.eraseDups
        else seen.eraseDups ++ [markerName inner] := by
      simp only [List.eraseDups_append, List.mem_eraseDups]
      by_cases hmem : markerName inner ∈ seen <;> simp [List.removeAll, List.eraseDups_cons, hmem]
    rw [scan, hopen]
    dsimp only
    rw [splitPair_of_pairless hinner after]
    dsimp only
    rw [← hseen, ih, List.map_cons, List.append_assoc, List.singleton_append]

theorem markers_eq {text : String} (h : Marked text.toList parts rest) :
    markers text = (parts.map fun p => markerName p.2).eraseDups :=
  h.scan_eq []

end Marked

theorem mem_markers {text m : String} :
    m ∈ markers text ↔ m ∈ (segments text.toList).filterMap Segment.marker? := by
  obtain ⟨parts, rest, hmarked⟩ := exists_marked text.toList
  rw [hmarked.markers_eq, hmarked.filterMap_marker?, List.mem_eraseDups]

end RecordSearch.Sql
