import RecordSearch.Proofs.Schema
import RecordSearch.Proofs.Subtree

/-!
# Respelled requests

The order of members, the choice between the keys of a field, a default that is
written out and the form of an array or an object are spelling: a request is
determined by what its fields get. Main statement `SearchRequest.ofJson_exact`.
-/
namespace RecordSearch

open Json

namespace Json

theorem listOf_array_iff {β : Type} {writes : Tree → β → Prop} {items : List Tree} {xs : List β} :
    ListOf writes (.array items .closed) xs ↔ List.Forall₂ writes items xs := by
  simp [ListOf]

theorem listOf_replace {β : Type} {writes : Tree → β → Prop} {t t' : Tree}
    (h : ∀ x, writes t x ↔ writes t' x) {before after : List Tree} {xs : List β} :
    ListOf writes (.array (before ++ t :: after) .closed) xs ↔
      ListOf writes (.array (before ++ t' :: after) .closed) xs := by
  rw [listOf_array_iff, listOf_array_iff]
  induction before generalizing xs with
  | nil => cases xs <;> simp [h]
  | cons u before ih => cases xs <;> simp [ih]

end Json

inductive Part where
  | request
  | filter
  | subquery
  | order

def Part.slots : Part → List Slot
  | .request => SearchRequest.slots
  | .filter => FilterSpec.slots
  | .subquery => SubquerySpec.slots
  | .order => OrderSpec.slots

theorem Part.separate (p : Part) : Separate p.slots := by
  cases p <;> simp [Part.slots, Separate, SearchRequest.slots, FilterSpec.slots,
    SubquerySpec.slots, OrderSpec.slots]

/-- One tree writes what the other writes. -/
def Part.Alike (t t' : Tree) : Part → Prop
  | .request => ∀ r, SearchRequest.Writes t r ↔ SearchRequest.Writes t' r
  | .filter => ∀ f, FilterSpec.Writes t f ↔ FilterSpec.Writes t' f
  | .subquery => ∀ q, SubquerySpec.Writes t q ↔ SubquerySpec.Writes t' q
  | .order => ∀ o, OrderSpec.Writes t o ↔ OrderSpec.Writes t' o

/-- The ways of writing a structure. Members are taken from the front, where
`permute` brings them. -/
inductive Respells : Part → Tree → Tree → Prop
  | permute {p : Part} {members members' : List (String × Tree)} (h : members.Perm members') :
      Respells p (.object members .closed) (.object members' .closed)
  | rename {p : Part} {s : Slot} {key key' : String} {t : Tree} {members : List (String × Tree)}
      (hs : s ∈ p.slots) (hkey : key ∈ s.keys) (hkey' : key' ∈ s.keys) :
      Respells p (.object ((key, t) :: members) .closed) (.object ((key', t) :: members) .closed)
  | leaveOut {p : Part} {s : Slot} {key : String} {t : Tree} {members : List (String × Tree)}
      (hs : s ∈ p.slots) (hkey : key ∈ s.keys) (hd : s.default = some t)
      (hnone : ∀ m ∈ members, m.1 ∉ s.keys) :
      Respells p (.object ((key, t) :: members) .closed) (.object members .closed)
  | spread {p : Part} {items : List Tree} {keys : List String}
      (hfits : items.length ≤ p.slots.length)
      (hkeys : List.Forall₂ (fun key s => key ∈ s.keys) keys (p.slots.take items.length)) :
      Respells p (.array items .closed) (.object (keys.zip items) .closed)
  | inFilters {t t' : Tree} {before after : List Tree} {members : List (String × Tree)}
      (h : Respells .filter t t') :
      Respells .request
        (.object (("filters", .array (before ++ t :: after) .closed) :: members) .closed)
        (.object (("filters", .array (before ++ t' :: after) .closed) :: members) .closed)
  | inSubqueries {t t' : Tree} {before after : List Tree} {members : List (String × Tree)}
      (h : Respells .subquery t t') :
      Respells .request
        (.object (("subqueries", .array (before ++ t :: after) .closed) :: members) .closed)
        (.object (("subqueries", .array (before ++ t' :: after) .closed) :: members) .closed)
  | inOrder {t t' : Tree} {members : List (String × Tree)} (h : Respells .order t t') :
      Respells .request (.object (("order", t) :: members) .closed)
        (.object (("order", t') :: members) .closed)
  | refl {p : Part} (t : Tree) : Respells p t t
  | symm {p : Part} {t t' : Tree} (h : Respells p t t') : Respells p t' t
  | trans {p : Part} {t t' t'' : Tree} (h : Respells p t t') (h' : Respells p t' t'') :
      Respells p t t''

namespace Part

variable {p : Part} {t t' t'' : Tree}

theorem alike_refl (p : Part) (t : Tree) : p.Alike t t := by
  cases p <;> exact fun _ => Iff.rfl

theorem Alike.symm (h : p.Alike t t') : p.Alike t' t := by
  cases p <;> exact fun x => (h x).symm

theorem Alike.trans (h : p.Alike t t') (h' : p.Alike t' t'') : p.Alike t t'' := by
  cases p <;> exact fun x => (h x).trans (h' x)

/-- What a structure writes is determined by what its fields get. -/
theorem alike_of_assigns (h : ∀ given, Assigns p.slots t given ↔ Assigns p.slots t' given) :
    p.Alike t t' := by
  cases p <;> simp only [Part.slots] at h <;> intro x
  · simp only [SearchRequest.Writes, h]
  · simp only [FilterSpec.Writes, h]
  · simp only [SubquerySpec.Writes, h]
  · simp only [OrderSpec.Writes, h]

end Part

theorem Respells.null_iff {p : Part} {t t' : Tree} (h : Respells p t t') :
    t = .null ↔ t' = .null := by
  induction h with
  | refl t => rfl
  | symm _ ih => exact ih.symm
  | trans _ _ ih ih' => exact ih.trans ih'
  | _ => exact iff_of_false Tree.noConfusion Tree.noConfusion

theorem nullable_replace {β : Type} {writes : Tree → β → Prop} {t t' : Tree}
    (hnull : t = .null ↔ t' = .null) (h : ∀ x, writes t x ↔ writes t' x) {o : Option β} :
    Nullable writes t o ↔ Nullable writes t' o := by
  cases o with
  | none => exact hnull
  | some x => exact h x

theorem Respells.alike {p : Part} {t t' : Tree} (h : Respells p t t') : p.Alike t t' := by
  induction h with
  | permute h => exact Part.alike_of_assigns fun _ => assigns_perm h
  | @rename p _ _ _ _ _ hs hkey hkey' =>
    exact Part.alike_of_assigns fun _ => assigns_rename p.separate hs hkey hkey'
  | @leaveOut p s _ _ _ hs hkey hd hnone =>
    exact Part.alike_of_assigns fun _ =>
      assigns_leaveOut p.separate hs hkey hd (s.writers_eq_nil_iff.mpr hnone)
  | @spread p _ _ hfits hkeys =>
    exact Part.alike_of_assigns fun _ => assigns_spread p.separate hfits hkeys
  | inFilters _ ih =>
    intro r
    simp [SearchRequest.Writes, assigns_object_iff, SearchRequest.slots, Slot.given_cons_iff,
      listOf_replace ih]
  | inSubqueries _ ih =>
    intro r
    simp [SearchRequest.Writes, assigns_object_iff, SearchRequest.slots, Slot.given_cons_iff,
      listOf_replace ih]
  | inOrder h ih =>
    intro r
    simp [SearchRequest.Writes, assigns_object_iff, SearchRequest.slots, Slot.given_cons_iff,
      nullable_replace h.null_iff ih]
  | refl t => exact Part.alike_refl _ t
  | symm _ ih => exact ih.symm
  | trans _ _ ih ih' => exact ih.trans ih'

/-- What a field gets is written in the tree, or is its default. -/
theorem Json.Assigns.inside_or_default {slots : List Slot} {t : Tree} {given : List Tree}
    (h : Assigns slots t given) :
    ∀ u ∈ given, u.Inside t ∨ ∃ s ∈ slots, s.default = some u := by
  cases h with
  | object _ heach =>
    intro u hu
    obtain ⟨s, hs, hgiven⟩ := exists_of_mem_right heach hu
    cases hgiven with
    | @written key _ hw =>
      have hm : (key, u) ∈ s.writers _ := hw ▸ List.mem_cons_self
      exact .inl (.member (List.mem_of_mem_filter hm) .self)
    | leftOut _ hd => exact .inr ⟨s, hs, hd⟩
  | array _ hrest =>
    intro u hu
    rcases List.mem_append.mp hu with hu | hu
    · exact .inl (.item hu .self)
    · have hdefault := hrest ▸ List.mem_map_of_mem (f := some) hu
      obtain ⟨s, hs, hd⟩ := List.mem_map.mp hdefault
      exact .inr ⟨s, List.mem_of_mem_drop hs, hd⟩

/-- The integers that a request gets from a text fit 64 bits. -/
theorem SearchRequest.lt_of_natural {text : String} {given : List Tree}
    (h : Assigns SearchRequest.slots (Document.ofText text).tree given) {t : Tree} (ht : t ∈ given)
    {o : Option Nat} (hwrites : Nullable Tree.IsNatural t o) : ∀ n ∈ o, n < Word.size 64 := by
  rintro n rfl
  rw [Nullable, Tree.IsNatural] at hwrites
  subst hwrites
  rcases h.inside_or_default _ ht with hinside | ⟨s, hs, hd⟩
  · exact holds_ofNat_iff.mp (Document.holds_of_inside hinside)
  · simp only [SearchRequest.slots, List.mem_cons, List.not_mem_nil, or_false] at hs
    rcases hs with rfl | rfl | rfl | rfl | rfl | rfl <;> cases hd

theorem SearchRequest.bounds_of_ofJson {text : String} {r : SearchRequest}
    (h : SearchRequest.ofJson text = .ok r) :
    (∀ n ∈ r.limit, n < Word.size 64) ∧ ∀ n ∈ r.offset, n < Word.size 64 := by
  obtain ⟨-, _, _, _, _, _, _, hassigns, -, -, -, -, hlimit, hoffset⟩ :=
    SearchRequest.ofJson_eq_ok_iff.mp h
  exact ⟨SearchRequest.lt_of_natural hassigns (by simp) hlimit,
    SearchRequest.lt_of_natural hassigns (by simp) hoffset⟩

/-- A text is read as a request exactly if its tree writes the request and
nothing follows it. Of a text that is well formed, any part may stand among the
values. Trees that are spelled differently write the same requests. An integer is
read from its numeral and nothing else, and what is read as a limit or an offset
fits 64 bits. -/
theorem SearchRequest.ofJson_exact :
    (∀ text r, SearchRequest.ofJson text = .ok r ↔
      (Document.ofText text).trailing = false ∧
        SearchRequest.Writes (Document.ofText text).tree r) ∧
    (∀ text v (t : Tree), Value.ofText text = .ok v → t.Inside (Document.ofText text).tree →
      ∃ w, t.IsValue w) ∧
    (∀ text text', (Document.ofText text).trailing = (Document.ofText text').trailing →
      Respells .request (Document.ofText text).tree (Document.ofText text').tree →
      ∀ r, SearchRequest.ofJson text = .ok r ↔ SearchRequest.ofJson text' = .ok r) ∧
    (∀ cs n rest, firstToken cs = .read (.number (.int (.ofNat n))) rest ↔
      cs = Nat.toDigits 10 n ++ rest ∧ EndsInteger rest ∧ n < Word.size 64) ∧
    (∀ text r, SearchRequest.ofJson text = .ok r →
      (∀ n ∈ r.limit, n < Word.size 64) ∧ ∀ n ∈ r.offset, n < Word.size 64) := by
  refine ⟨fun _ _ => SearchRequest.ofJson_eq_ok_iff, ?_, ?_, ?_, ?_⟩
  · intro text v t h hinside
    obtain ⟨w, hw, -⟩ := bind_eq_ok h
    exact hinside.exists_value hw
  · intro text text' htrailing h r
    rw [SearchRequest.ofJson_eq_ok_iff, SearchRequest.ofJson_eq_ok_iff, htrailing]
    exact and_congr_right fun _ => h.alike r
  · intro cs n rest
    rw [firstToken_eq_int_iff, holds_ofNat_iff]
    rfl
  · exact fun _ _ => SearchRequest.bounds_of_ofJson

def keyedText : String :=
  "\x7b\"filters\":[\x7b\"OPERATOR\":\"EQUAL\",\"target_table\":\"RECORD\"," ++
    "\"target_column\":\"ID\"\x7d],\"project_id\":\"p\"\x7d"

def positionalText : String := "[\"p\",[[\"RECORD\",\"ID\",\"EQUAL\"]]]"

theorem ofText_keyedText :
    Document.ofText keyedText =
      ⟨.object [
        ("filters", .array [.object [("OPERATOR", .string "EQUAL"),
          ("target_table", .string "RECORD"), ("target_column", .string "ID")] .closed] .closed),
        ("project_id", .string "p")] .closed, false⟩ := by
  cbv

theorem ofText_positionalText :
    Document.ofText positionalText =
      ⟨.array [.string "p",
        .array [.array [.string "RECORD", .string "ID", .string "EQUAL"] .closed] .closed]
        .closed, false⟩ := by
  cbv

theorem respells_positionalText :
    Respells .request (Document.ofText keyedText).tree (Document.ofText positionalText).tree := by
  rw [ofText_keyedText, ofText_positionalText]
  have hfilter : Respells .filter
      (.object [("OPERATOR", .string "EQUAL"), ("target_table", .string "RECORD"),
        ("target_column", .string "ID")] .closed)
      (.array [.string "RECORD", .string "ID", .string "EQUAL"] .closed) :=
    .trans (.permute (List.perm_append_singleton _ [_, _]).symm) <| .symm <|
      @Respells.spread _ [_, _, _] ["target_table", "target_column", "OPERATOR"] (by decide) <|
        .cons (by decide) <| .cons (by decide) <| .cons (by decide) .nil
  exact .trans (@Respells.inFilters _ _ [] [] _ hfilter) <| .trans (.permute (.swap _ _ _)) <|
    .symm <| @Respells.spread _ [_, _] ["project_id", "filters"] (by decide) <|
      .cons (by decide) <| .cons (by decide) .nil

theorem SearchRequest.ofJson_positionalText :
    (Document.ofText keyedText).trailing = (Document.ofText positionalText).trailing ∧
      Respells .request (Document.ofText keyedText).tree (Document.ofText positionalText).tree ∧
      (SearchRequest.ofJson keyedText =
          .ok { projectId := "p", filters := [⟨"RECORD", "ID", "EQUAL", []⟩] } ↔
        SearchRequest.ofJson positionalText =
          .ok { projectId := "p", filters := [⟨"RECORD", "ID", "EQUAL", []⟩] }) := by
  have htrailing : (Document.ofText keyedText).trailing =
      (Document.ofText positionalText).trailing := by
    rw [ofText_keyedText, ofText_positionalText]
  exact ⟨htrailing, respells_positionalText,
    SearchRequest.ofJson_exact.2.2.1 _ _ htrailing respells_positionalText _⟩

end RecordSearch
