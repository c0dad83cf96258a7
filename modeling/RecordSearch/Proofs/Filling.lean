import RecordSearch.Proofs.Erasure
import RecordSearch.Proofs.Marking
import RecordSearch.Subquery

/-!
# Filled templates

A table that has an entry for every marker of a template fills it: the entries
take the places of the markers, in the order in which the markers stand. Which
markers a template has, and in which order, is read off its text once for all,
and so is that the text around them is balanced.
-/
namespace RecordSearch

namespace Sql

open Json (Value)

def Segment.place (table : Substitution) : Segment → Fragment
  | .fixed text => [.fixed text]
  | .marker name => (table.lookup name).getD []

def Substitution.lacks (table : Substitution) (name : String) : Bool := (table.lookup name).isNone

theorem Substitution.lacks_eq_not_any (table : Substitution) (name : String) :
    table.lacks name = !(table.any fun entry => entry.1 = name) := by
  induction table with
  | nil => rfl
  | cons entry table ih =>
    rw [lacks, List.lookup_cons, List.any_cons]
    by_cases hname : entry.1 = name
    · simp [hname]
    · have hne : (name == entry.1) = false := beq_false_of_ne (Ne.symm hname)
      rw [hne, decide_eq_false hname, Bool.false_or]
      exact ih

/-- Segments are filled unless there is a marker among them that the table lacks. -/
theorem fill_eq (table : Substitution) (segs : List Segment) :
    fill table segs =
      match (segs.filterMap Segment.marker?).find? table.lacks with
      | some name => .error name
      | none => .ok (segs.flatMap (Segment.place table)) := by
  induction segs with
  | nil => rfl
  | cons s segs ih =>
    cases s with
    | fixed text =>
      rw [fill, ih, List.filterMap_cons_none rfl]
      cases (segs.filterMap Segment.marker?).find? table.lacks <;> rfl
    | marker name =>
      have hcons : (Segment.marker name :: segs).filterMap Segment.marker? =
          name :: segs.filterMap Segment.marker? := List.filterMap_cons_some rfl
      rw [fill, ih, hcons, List.find?_cons]
      cases hlookup : table.lookup name with
      | none => simp [Substitution.lacks, hlookup]
      | some value =>
        simp only [Substitution.lacks, hlookup, Option.isNone_some]
        rw [List.flatMap_cons, Segment.place, hlookup]
        cases (segs.filterMap Segment.marker?).find? table.lacks <;> rfl

theorem substitute_eq (table : Substitution) (text : String) :
    substitute table text =
      match (markers text).find? table.lacks with
      | some name => .error name
      | none => .ok ((segments text.toList).flatMap (Segment.place table)) := by
  obtain ⟨parts, rest, hmarked⟩ := exists_marked text.toList
  rw [substitute, fill_eq, hmarked.markers_eq, find?_eraseDups, hmarked.filterMap_marker?]

/-- The segments of a text as characters: fixed text on the left, what stands
between the pairs of a marker on the right. -/
def cuts (cs : List Char) : List (List Char ⊕ List Char) :=
  match _h : splitPair cs with
  | none => [.inl cs]
  | some (before, after) =>
    match _h' : splitPair after with
    | none => [.inl cs]
    | some (inner, rest) => .inl before :: .inr inner :: cuts rest
termination_by cs.length
decreasing_by exact length_lt_of_splitPair _h _h'

def Segment.ofCut : List Char ⊕ List Char → Segment
  | .inl text => .fixed (String.ofList text)
  | .inr inner => .marker (markerName inner)

theorem segments_eq_cuts (cs : List Char) : segments cs = (cuts cs).map Segment.ofCut := by
  fun_induction cuts cs with
  | case1 cs h => rw [segments, h]; rfl
  | case2 cs before after h h' =>
    rw [segments, h]
    dsimp only
    rw [h']
    rfl
  | case3 cs before after h inner rest h' ih =>
    rw [segments, h]
    dsimp only
    rw [h']
    dsimp only
    rw [ih]
    rfl

def sourceMarker : String := "@@SOURCE_TYPE@@"

/-- A cut as a walk sees it: the label source stands in the text itself, and any
other marker for a value. -/
def probe (source : String) : List Char ⊕ List Char → List Atom
  | .inl text => text.map .char
  | .inr inner =>
    if markerName inner = sourceMarker then fixedAtoms source else [.value 0 .null]

/-- What a table may put in the places of markers: the name of a label source
where one is asked for, and balanced fragments elsewhere. -/
def FitsProbe (source : String) (table : Substitution) (name : String) : Prop :=
  if name = sourceMarker then table.lookup name = some [.fixed source]
  else ∀ f, table.lookup name = some f → Fragment.Balanced f

theorem walk_marker {source name : String} {table : Substitution}
    (hfits : FitsProbe source table name) {s t w : Stand} (hle : s.Tighter t)
    (hw : walk s (if name = sourceMarker then fixedAtoms source else [.value 0 .null]) = some w) :
    ∃ x, walk t (Fragment.atoms ((Segment.marker name).place table)) = some x ∧
      w.Tighter x := by
  unfold FitsProbe at hfits
  split at hw
  next hname =>
    rw [if_pos hname] at hfits
    obtain ⟨x, hx, hwx⟩ := hle.walk hw
    refine ⟨x, ?_, hwx⟩
    simpa [Segment.place, hfits, Piece.atoms] using hx
  next hname =>
    rw [if_neg hname] at hfits
    obtain ⟨ls, hwalks⟩ := Walks.of_walk hw
    cases hwalks with
    | cons hstep hnil =>
      cases hnil
      cases hstep
      obtain rfl : t = .outside := by
        rcases hle with rfl | ⟨h, _⟩
        · rfl
        · exact Stand.noConfusion h
      have hbalanced : Fragment.Balanced ((table.lookup name).getD []) := by
        cases hlookup : table.lookup name with
        | none => exact Fragment.balanced_nil
        | some f => exact hfits f hlookup
      obtain ⟨x, hx, hsettled⟩ := hbalanced
      exact ⟨x, hx, Stand.tighter_of_settled hsettled⟩

theorem walk_place {source : String} {table : Substitution} {cs : List (List Char ⊕ List Char)}
    (htable : ∀ m ∈ (cs.map Segment.ofCut).filterMap Segment.marker?,
      FitsProbe source table m) {s t u : Stand} (hle : s.Tighter t)
    (h : walk s (cs.flatMap (probe source)) = some u) :
    ∃ v, walk t (Fragment.atoms ((cs.map Segment.ofCut).flatMap (Segment.place table))) = some v ∧
      u.Tighter v := by
  induction cs generalizing s t with
  | nil =>
    obtain rfl := Option.some.inj h
    exact ⟨t, rfl, hle⟩
  | cons c cs ih =>
    have htail : ∀ m ∈ (cs.map Segment.ofCut).filterMap Segment.marker?,
        FitsProbe source table m := by
      intro m hm
      apply htable
      rw [List.map_cons, List.filterMap_cons]
      cases (Segment.ofCut c).marker? with
      | none => exact hm
      | some name => exact List.mem_cons_of_mem _ hm
    rw [List.flatMap_cons, walk_append] at h
    obtain ⟨w, hw, hrest⟩ := Option.bind_eq_some_iff.1 h
    have hentry : ∃ x, walk t (Fragment.atoms ((Segment.ofCut c).place table)) = some x ∧
        w.Tighter x := by
      cases c with
      | inl text =>
        obtain ⟨x, hx, hwx⟩ := hle.walk hw
        refine ⟨x, ?_, hwx⟩
        simpa [Segment.ofCut, Segment.place, Piece.atoms, fixedAtoms, probe] using hx
      | inr inner =>
        have hfits : FitsProbe source table (markerName inner) := by
          apply htable
          rw [List.map_cons, List.filterMap_cons]
          exact List.mem_cons_self
        exact walk_marker hfits hle hw
    obtain ⟨x, hx, hwx⟩ := hentry
    obtain ⟨v, hv, huv⟩ := ih htail hwx hrest
    rw [List.map_cons, List.flatMap_cons, Fragment.atoms_append, walk_append, hx]
    exact ⟨v, hv, huv⟩

/-- What is collected piece by piece, but not from fixed text, is collected from
the entries of the markers one after the other. -/
theorem filterMap_place {β : Type} {g : Piece → Option β} (hg : ∀ text, g (.fixed text) = none)
    (table : Substitution) (segs : List Segment) :
    (segs.flatMap (Segment.place table)).filterMap g =
      (segs.filterMap Segment.marker?).flatMap fun m =>
        ((table.lookup m).getD []).filterMap g := by
  induction segs with
  | nil => rfl
  | cons s segs ih =>
    rw [List.flatMap_cons, List.filterMap_append, ih]
    cases s with
    | fixed text =>
      rw [Segment.place, List.filterMap_cons, hg]
      rfl
    | marker name => rfl

def Substitution.mapPieces (g : Piece → Piece) (table : Substitution) : Substitution :=
  table.map fun entry => (entry.1, entry.2.map g)

theorem Substitution.lookup_mapPieces (g : Piece → Piece) (table : Substitution) (name : String) :
    (table.mapPieces g).lookup name = (table.lookup name).map (List.map g) := by
  induction table with
  | nil => rfl
  | cons entry table ih =>
    rw [mapPieces, List.map_cons, List.lookup_cons, List.lookup_cons]
    split
    next => rfl
    next => exact ih

theorem map_place {g : Piece → Piece} (hg : ∀ text, g (.fixed text) = .fixed text)
    (table : Substitution) (segs : List Segment) :
    (segs.flatMap (Segment.place table)).map g =
      segs.flatMap (Segment.place (table.mapPieces g)) := by
  induction segs with
  | nil => rfl
  | cons s segs ih =>
    rw [List.flatMap_cons, List.flatMap_cons, List.map_append, ih]
    cases s with
    | fixed text => rw [Segment.place, Segment.place, List.map_singleton, hg]
    | marker name =>
      rw [Segment.place, Segment.place, Substitution.lookup_mapPieces]
      cases table.lookup name <;> rfl

def Substitution.erase (e : Erasure) (table : Substitution) : Substitution :=
  table.map fun entry => (entry.1, Fragment.erase e entry.2)

end Sql

open Sql

namespace QueryTemplate

def markerOrder : QueryTemplate → List String
  | .base =>
    ["@@SELECT_ADD@@", "@@FROM_ADD@@", "@@PROJECT_ID@@", "@@WHERE_ADD@@", "@@ORDER_BY_ADD@@"]
  | .orderJoin => ["@@ORDER_COLUMNS@@"]
  | .label | .informationSource => ["@@PROJECT_ID@@", sourceMarker, "@@IN_VALUES@@"]
  | .noLabel => [sourceMarker, "@@IN_VALUES@@", "@@PROJECT_ID@@"]
  | .createdBy => ["@@PROJECT_ID@@", "@@IN_VALUES@@"]
  | .confidence | .callbackConfidence => ["@@PROJECT_ID@@", "@@VALUE1@@", "@@VALUE2@@"]
  | .differentClassification => ["@@PROJECT_ID@@", "@@LABELING_TASK_ID@@"]
  | .differentExtraction => ["@@PROJECT_ID@@", "@@PROJECT_ID@@", "@@LABELING_TASK_ID@@"]

end QueryTemplate

/-- A text with the given markers that is balanced around them, whichever label
source is named. -/
def Sql.WellCut (cs : List Char) (names : List String) : Prop :=
  ((cuts cs).map Segment.ofCut).filterMap Segment.marker? = names ∧
    ∀ source ∈ (Named.all : List LabelSource),
      walk .outside ((cuts cs).flatMap (probe (Named.name source))) = some .outside

instance (cs : List Char) (names : List String) : Decidable (WellCut cs names) :=
  inferInstanceAs (Decidable (_ ∧ _))

namespace QueryTemplate

theorem wellCut (t : QueryTemplate) : WellCut t.text.toList t.markerOrder := by
  cases t <;> unfold text <;> dsimp only
  all_goals
    first
    | unfold baseText
    | unfold orderJoinText
    | unfold labelText
    | unfold noLabelText
    | unfold informationSourceText
    | unfold createdByText
    | unfold confidenceText
    | unfold callbackConfidenceText
    | unfold differentClassificationText
    | unfold differentExtractionText
    simp only [String.toList_append]
    repeat rw [String.toList_ofList]
    decide +kernel

theorem filterMap_marker? (t : QueryTemplate) :
    (segments t.text.toList).filterMap Segment.marker? = t.markerOrder := by
  rw [segments_eq_cuts]
  exact t.wellCut.1

def place (t : QueryTemplate) (table : Substitution) : Fragment :=
  (segments t.text.toList).flatMap (Segment.place table)

/-- Filling stops at a marker without entry before anything is looked up, and for no other
reason. -/
theorem fill_eq (t : QueryTemplate) (table : Substitution) :
    t.fill table =
      match (markers t.text).find? table.lacks with
      | some marker => .error (.template (.unresolved t marker))
      | none => .ok (t.place table) := by
  have hlacks : (fun m => !(table.any fun entry => entry.1 = m)) = table.lacks := by
    funext m
    exact (table.lacks_eq_not_any m).symm
  rw [fill, hlacks, substitute_eq]
  cases (markers t.text).find? table.lacks <;> rfl

theorem fill_eq_place {t : QueryTemplate} {table : Substitution}
    (h : ∀ m ∈ t.markerOrder, (table.lookup m).isSome = true) :
    t.fill table = .ok (t.place table) := by
  have hnone : (markers t.text).find? table.lacks = none := by
    rw [List.find?_eq_none]
    intro m hm
    rw [mem_markers, filterMap_marker?] at hm
    simp [Substitution.lacks, ← Option.not_isSome, h m hm]
  rw [fill_eq, hnone]

theorem slots_place (t : QueryTemplate) (table : Substitution) :
    Fragment.slots (t.place table) =
      t.markerOrder.flatMap fun m => Fragment.slots ((table.lookup m).getD []) := by
  rw [← filterMap_marker?]
  exact filterMap_place Piece.slot?_fixed table _

theorem clients_place (t : QueryTemplate) (table : Substitution) :
    Fragment.clients (t.place table) =
      t.markerOrder.flatMap fun m => Fragment.clients ((table.lookup m).getD []) := by
  rw [← filterMap_marker?]
  exact filterMap_place Piece.client?_fixed table _

theorem map_place {g : Piece → Piece} (hg : ∀ text, g (.fixed text) = .fixed text)
    (t : QueryTemplate) (table : Substitution) :
    (t.place table).map g = t.place (table.mapPieces g) :=
  Sql.map_place hg table _

theorem erase_place (e : Erasure) (t : QueryTemplate) (table : Substitution) :
    Fragment.erase e (t.place table) = t.place (table.erase e) :=
  t.map_place (fun _ => rfl) table

/-- A template filled with balanced entries is balanced. The label source stands
in quotes of the template, so that its entry is the name alone. -/
theorem balanced_place {t : QueryTemplate} {table : Substitution} (source : LabelSource)
    (hsource : sourceMarker ∈ t.markerOrder →
      table.lookup sourceMarker = some [.fixed (Named.name source)])
    (h : ∀ entry ∈ table, entry.1 ≠ sourceMarker → Fragment.Balanced entry.2) :
    Fragment.Balanced (t.place table) := by
  have hfits : ∀ m ∈ t.markerOrder, FitsProbe (Named.name source) table m := by
    intro m hm
    unfold FitsProbe
    split
    next hname =>
      subst hname
      exact hsource hm
    next hname =>
      intro f hf
      obtain ⟨l₁, l₂, rfl, -⟩ := List.lookup_eq_some_iff.1 hf
      exact h (m, f) (by simp) hname
  obtain ⟨v, hv, hsettled⟩ := walk_place (s := .outside) (t := .outside)
    (by rw [← segments_eq_cuts, filterMap_marker?]; exact hfits) (.inl rfl)
    (t.wellCut.2 source (Named.mem_all source))
  rw [place, segments_eq_cuts]
  exact ⟨v, hv, hsettled.settled rfl⟩

end QueryTemplate

end RecordSearch
