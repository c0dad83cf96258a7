import Mathlib.Data.List.Find
import RecordSearch.Proofs.Slots

/-!
# Markers that are looked up

The markers that are collected from a text are the ones that filling looks up: a table
fills the text if it has all of them, and otherwise filling stops at the first that it
lacks. A filled text is the text with the entries in the places of its markers, and is
not read again.
-/
namespace RecordSearch.Sql

namespace Substitution

def keys (table : Substitution) : List String := table.map Prod.fst

theorem lacks_eq_true_iff {table : Substitution} {name : String} :
    table.lacks name = true ↔ name ∉ table.keys := by
  rw [lacks, Option.isNone_iff_eq_none, List.lookup_eq_none_iff, keys]
  simp only [bne_iff_ne, List.mem_map, not_exists, not_and]
  exact ⟨fun h p hp heq => h p hp heq.symm, fun h p hp heq => h p hp heq.symm⟩

theorem lacks_eq_false_iff {table : Substitution} {name : String} :
    table.lacks name = false ↔ name ∈ table.keys := by
  rw [← Bool.not_eq_true, lacks_eq_true_iff, not_not]

end Substitution

theorem exists_substitute_iff {table : Substitution} {text : String} :
    (∃ f, substitute table text = .ok f) ↔ ∀ m ∈ markers text, m ∈ table.keys := by
  rw [substitute_eq]
  cases hfind : (markers text).find? table.lacks with
  | none =>
    rw [List.find?_eq_none] at hfind
    simpa [Substitution.lacks_eq_false_iff] using hfind
  | some name =>
    refine ⟨fun h => ?_, fun h => ?_⟩
    · obtain ⟨f, hf⟩ := h
      cases hf
    · have hlacks := List.find?_some hfind
      rw [Substitution.lacks_eq_true_iff] at hlacks
      exact absurd (h name (List.mem_of_find?_eq_some hfind)) hlacks

theorem substitute_eq_error_iff {table : Substitution} {text m : String} :
    substitute table text = .error m ↔ ∃ earlier later, markers text = earlier ++ m :: later ∧
      (∀ name ∈ earlier, name ∈ table.keys) ∧ m ∉ table.keys := by
  have hfind : substitute table text = .error m ↔
      (markers text).find? table.lacks = some m := by
    rw [substitute_eq]
    cases (markers text).find? table.lacks <;> simp
  rw [hfind, List.find?_eq_some_iff_append, Substitution.lacks_eq_true_iff]
  simp only [Bool.not_eq_true', Substitution.lacks_eq_false_iff]
  constructor
  · rintro ⟨hm, earlier, later, heq, hearlier⟩
    exact ⟨earlier, later, heq, hearlier, hm⟩
  · rintro ⟨earlier, later, heq, hearlier, hm⟩
    exact ⟨hm, earlier, later, heq, hearlier⟩

/-- Only the entries of markers are looked up. -/
theorem substitute_congr {table table' : Substitution} {text : String}
    (h : ∀ m ∈ markers text, table.lookup m = table'.lookup m) :
    substitute table text = substitute table' text := by
  have hlacks : (markers text).find? table.lacks = (markers text).find? table'.lacks :=
    List.find?_congr fun m hm => by rw [Substitution.lacks, Substitution.lacks, h m hm]
  have hplace : (segments text.toList).flatMap (Segment.place table) =
      (segments text.toList).flatMap (Segment.place table') := by
    refine List.flatMap_congr fun s hs => ?_
    cases s with
    | fixed text => rfl
    | marker name =>
      have hname : name ∈ markers text := mem_markers.2 (List.mem_filterMap.2 ⟨_, hs, rfl⟩)
      rw [Segment.place, Segment.place, h name hname]
  rw [substitute_eq, substitute_eq, hlacks, hplace]

/-- A text with other texts in the places of its markers: what stands before each marker,
the entry of the marker, and the rest in the end. -/
def refilled (entry : String → String) (parts : List (List Char × List Char))
    (rest : List Char) : String :=
  String.join (parts.map fun p => String.ofList p.1 ++ entry (markerName p.2)) ++
    String.ofList rest

theorem Marked.join_segments {cs rest : List Char} {parts : List (List Char × List Char)}
    (h : Marked cs parts rest) (slots : List (String × String)) :
    String.join ((segments cs).map (Segment.filled slots)) =
      refilled (fun name => (slots.lookup name).getD "") parts rest := by
  rw [h.segments_eq]
  clear h
  induction parts with
  | nil => simp [refilled, Segment.filled]
  | cons p parts ih =>
    rw [List.flatMap_cons, List.append_assoc, List.map_append, String.join_append, ih, refilled,
      refilled, List.map_cons, String.join_cons, String.append_assoc]
    simp [Segment.filled, String.append_assoc]

theorem text_of_substitute {table : Substitution} {text : String} {f : Fragment}
    {parts : List (List Char × List Char)} {rest : List Char}
    (h : substitute table text = .ok f) (hmarked : Marked text.toList parts rest)
    (style : Style) : f.text style =
      refilled (fun m => ((table.lookup m).map (Fragment.text style)).getD "") parts rest := by
  rw [substitute_eq] at h
  split at h
  next => cases h
  next =>
    obtain rfl := Except.ok.inj h
    rw [text_place, hmarked.join_segments]
    simp only [Substitution.lookup_texts]

/-- The markers of a text are collected without repetitions, in the order in which they
are met first, and they are what filling looks up. A table that has them all fills the
text, and otherwise the first of them that it lacks is reported. In the filled text each
marker has given way to its first entry and all else is kept, whatever the entries hold. -/
theorem substitute_looks_up_markers (text : String) :
    ∃ parts rest, Marked text.toList parts rest ∧
      (∀ parts' rest', Marked text.toList parts' rest' → parts' = parts ∧ rest' = rest) ∧
      markers text = (parts.map fun p => markerName p.2).eraseDups ∧ (markers text).Nodup ∧
      ∀ table : Substitution,
        ((∃ f, substitute table text = .ok f) ↔ ∀ m ∈ markers text, m ∈ table.keys) ∧
        (∀ m, substitute table text = .error m ↔
          ∃ earlier later, markers text = earlier ++ m :: later ∧
            (∀ name ∈ earlier, name ∈ table.keys) ∧ m ∉ table.keys) ∧
        (∀ f, substitute table text = .ok f → ∀ style : Style, f.text style =
          refilled (fun m => ((table.lookup m).map (Fragment.text style)).getD "") parts rest) ∧
        ∀ table' : Substitution, (∀ m ∈ markers text, table.lookup m = table'.lookup m) →
          substitute table text = substitute table' text := by
  obtain ⟨parts, rest, hmarked⟩ := exists_marked text.toList
  refine ⟨parts, rest, hmarked, fun _ _ h => h.unique hmarked, hmarked.markers_eq, ?_,
    fun table => ⟨exists_substitute_iff, fun m => substitute_eq_error_iff,
      fun f hf style => text_of_substitute hf hmarked style, fun _ => substitute_congr⟩⟩
  rw [hmarked.markers_eq]
  exact nodup_eraseDups _

/-- Pairs that overlap make one marker, an empty name is a name, and the pair that is left
over is ordinary text. -/
example : markers "a@@@b@@ @@@@ @@@@ @@" = ["@@@b@@", "@@@@"] := by
  simp only [markers, String.reduceToList]
  decide +kernel

end RecordSearch.Sql
