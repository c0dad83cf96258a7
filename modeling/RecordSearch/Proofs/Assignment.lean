import Mathlib.Data.List.Forall2
import Mathlib.Data.List.Pairwise
import RecordSearch.Json.Tree

/-!
# Fields and the trees given to them

A structure is declared by its fields: the keys each may be written under, and
what it stands for where it is left out. `Assigns` says which tree each field
gets from an object or an array, without a word of how it is read. The order of
the members, the choice between keys, a default that is written out and the
choice between object and array do not change what is assigned.
-/
namespace RecordSearch.Json

variable {α β : Type}

/-- A field as a format declares it. -/
structure Slot where
  /-- The keys it may be written under. -/
  keys : List String
  /-- What it stands for where it is left out. A field without this must be written. -/
  default : Option Tree

def Slot.writers (s : Slot) (members : List (String × Tree)) : List (String × Tree) :=
  members.filter fun m => m.1 ∈ s.keys

/-- What a field gets from the members of an object. Two members that write it give it nothing. -/
inductive Slot.Given (s : Slot) (members : List (String × Tree)) : Tree → Prop
  | written {key : String} {t : Tree} (h : s.writers members = [(key, t)]) : s.Given members t
  | leftOut {t : Tree} (h : s.writers members = []) (hd : s.default = some t) : s.Given members t

/-- The trees that a structure gives to its fields, in the order in which they
are declared. All keys of an object must be known, and an array may stop early
but not go on after the last field. -/
inductive Assigns (slots : List Slot) : Tree → List Tree → Prop
  | object {members : List (String × Tree)} {given : List Tree}
      (known : ∀ m ∈ members, ∃ s ∈ slots, m.1 ∈ s.keys)
      (each : List.Forall₂ (fun s t => s.Given members t) slots given) :
      Assigns slots (.object members .closed) given
  | array {items rest : List Tree} (fits : items.length ≤ slots.length)
      (left : (slots.drop items.length).map Slot.default = rest.map some) :
      Assigns slots (.array items .closed) (items ++ rest)

theorem Assigns.length_eq {slots : List Slot} {t : Tree} {given : List Tree}
    (h : Assigns slots t given) : given.length = slots.length := by
  cases h with
  | object known each => exact each.length_eq.symm
  | array fits left =>
    have hrest := congrArg List.length left
    simp only [List.length_map, List.length_drop] at hrest
    simp only [List.length_append]
    omega

theorem exists_of_mem_right {R : α → β → Prop} {xs : List α} {ys : List β}
    (h : List.Forall₂ R xs ys) {y : β} (hy : y ∈ ys) : ∃ x ∈ xs, R x y := by
  induction h with
  | nil => cases hy
  | @cons x _ xs _ hxy _ ih =>
    rcases List.mem_cons.mp hy with rfl | hy
    · exact ⟨x, List.mem_cons_self, hxy⟩
    · obtain ⟨w, hw, hwy⟩ := ih hy
      exact ⟨w, List.mem_cons_of_mem x hw, hwy⟩

theorem exists_forall₂ {R : α → β → Prop} {xs : List α} (h : ∀ x ∈ xs, ∃ y, R x y) :
    ∃ ys, List.Forall₂ R xs ys := by
  induction xs with
  | nil => exact ⟨[], .nil⟩
  | cons x xs ih =>
    obtain ⟨⟨y, hy⟩, hrest⟩ := List.forall_mem_cons.mp h
    obtain ⟨ys, hys⟩ := ih hrest
    exact ⟨y :: ys, .cons hy hys⟩

theorem Slot.writers_eq_nil_iff {s : Slot} {members : List (String × Tree)} :
    s.writers members = [] ↔ ∀ m ∈ members, m.1 ∉ s.keys := by
  simp [writers, List.filter_eq_nil_iff]

theorem Slot.mem_keys_of_mem_writers {s : Slot} {members : List (String × Tree)}
    {m : String × Tree} (h : m ∈ s.writers members) : m.1 ∈ s.keys := by
  simpa using (List.mem_filter.mp h).2

theorem Slot.perm_of_writers {s : Slot} {members : List (String × Tree)} {m : String × Tree}
    (h : s.writers members = [m]) :
    members.Perm (m :: members.filter fun m => m.1 ∉ s.keys) := by
  have hsplit := List.filter_append_perm (fun m => decide (m.1 ∈ s.keys)) members
  have hothers : (members.filter fun m => !decide (m.1 ∈ s.keys)) =
      members.filter fun m => m.1 ∉ s.keys := by
    simp only [decide_not]
  rw [writers] at h
  rw [hothers, h] at hsplit
  exact hsplit.symm

theorem Slot.writers_filter {s s' : Slot} (h : List.Disjoint s.keys s'.keys)
    (members : List (String × Tree)) :
    s'.writers (members.filter fun m => m.1 ∉ s.keys) = s'.writers members := by
  rw [writers, writers, List.filter_filter]
  refine List.filter_congr fun m _ => ?_
  by_cases hm : m.1 ∈ s'.keys
  · have hnot : m.1 ∉ s.keys := fun hin => h hin hm
    simp [hm, hnot]
  · simp [hm]

theorem Slot.Given.congr {s : Slot} {members members' : List (String × Tree)}
    (hw : s.writers members = s.writers members') {t : Tree} (h : s.Given members t) :
    s.Given members' t := by
  cases h with
  | written h => exact .written (hw ▸ h)
  | leftOut h hd => exact .leftOut (hw ▸ h) hd

theorem Slot.given_iff {s : Slot} {members : List (String × Tree)} {t : Tree} :
    s.Given members t ↔
      (∃ key, s.writers members = [(key, t)]) ∨
        s.writers members = [] ∧ s.default = some t := by
  constructor
  · rintro (⟨h⟩ | ⟨h, hd⟩)
    · exact .inl ⟨_, h⟩
    · exact .inr ⟨h, hd⟩
  · rintro (⟨key, h⟩ | ⟨h, hd⟩)
    · exact .written h
    · exact .leftOut h hd

/-- A member gives its tree to the field it writes, which no other member may
write, and nothing to the other fields. -/
theorem Slot.given_cons_iff {s : Slot} {members : List (String × Tree)} {key : String}
    {t u : Tree} :
    s.Given ((key, t) :: members) u ↔
      if key ∈ s.keys then s.writers members = [] ∧ u = t else s.Given members u := by
  by_cases hkey : key ∈ s.keys
  · have hwriters : s.writers ((key, t) :: members) = (key, t) :: s.writers members :=
      List.filter_cons_of_pos (by simpa using hkey)
    rw [if_pos hkey, Slot.given_iff, hwriters]
    simp only [List.cons.injEq, Prod.mk.injEq, reduceCtorEq, false_and, or_false]
    constructor
    · rintro ⟨_, ⟨-, rfl⟩, hnone⟩
      exact ⟨hnone, rfl⟩
    · rintro ⟨hnone, rfl⟩
      exact ⟨key, ⟨rfl, rfl⟩, hnone⟩
  · have hwriters : s.writers ((key, t) :: members) = s.writers members :=
      List.filter_cons_of_neg (by simpa using hkey)
    rw [if_neg hkey, Slot.given_iff, Slot.given_iff, hwriters]

theorem Slot.Given.perm {s : Slot} {members members' : List (String × Tree)}
    (hperm : members.Perm members') {t : Tree} (h : s.Given members t) : s.Given members' t := by
  have hwriters : (s.writers members).Perm (s.writers members') := hperm.filter _
  cases h with
  | written h => exact .written (List.perm_singleton.mp (h ▸ hwriters).symm)
  | leftOut h hd => exact .leftOut (List.perm_nil.mp (h ▸ hwriters).symm) hd

section

variable {slots : List Slot} {members : List (String × Tree)} {given : List Tree} {s : Slot}
  {key key' : String} {t : Tree}

theorem assigns_object_iff :
    Assigns slots (.object members .closed) given ↔
      (∀ m ∈ members, ∃ s ∈ slots, m.1 ∈ s.keys) ∧
        List.Forall₂ (fun s t => s.Given members t) slots given := by
  constructor
  · rintro ⟨hknown, heach⟩
    exact ⟨hknown, heach⟩
  · rintro ⟨hknown, heach⟩
    exact .object hknown heach

theorem assigns_array_iff {items : List Tree} :
    Assigns slots (.array items .closed) given ↔
      items.length ≤ slots.length ∧ ∃ rest : List Tree,
        (slots.drop items.length).map Slot.default = rest.map some ∧ given = items ++ rest := by
  constructor
  · intro h
    cases h with
    | array hfits hrest => exact ⟨hfits, _, hrest, rfl⟩
  · rintro ⟨hfits, rest, hrest, rfl⟩
    exact .array hfits hrest

theorem forall₂_congr_of_mem {α β : Type} {R S : α → β → Prop} {xs : List α} {ys : List β}
    (h : ∀ x ∈ xs, ∀ y, R x y ↔ S x y) : List.Forall₂ R xs ys ↔ List.Forall₂ S xs ys := by
  induction xs generalizing ys with
  | nil => rw [List.forall₂_nil_left_iff, List.forall₂_nil_left_iff]
  | cons x xs ih =>
    rw [List.forall_mem_cons] at h
    cases ys with
    | nil => simp
    | cons y ys => rw [List.forall₂_cons, List.forall₂_cons, h.1 y, ih h.2]

/-- No key belongs to two fields. -/
def Separate (slots : List Slot) : Prop :=
  slots.Pairwise fun s s' => ∀ key ∈ s.keys, key ∉ s'.keys

theorem Separate.eq_of_mem_keys (h : Separate slots) {s' : Slot} (hs : s ∈ slots)
    (hs' : s' ∈ slots) (hkey : key ∈ s.keys) (hkey' : key ∈ s'.keys) : s = s' := by
  have : Std.Symm fun s s' : Slot => ∀ key ∈ s.keys, key ∉ s'.keys :=
    ⟨fun _ _ h key hin hin' => h key hin' hin⟩
  by_contra hne
  exact List.Pairwise.forall h hs hs' hne key hkey hkey'

/-- The order of the members does not matter. -/
theorem assigns_perm {members' : List (String × Tree)} (hperm : members.Perm members') :
    Assigns slots (.object members .closed) given ↔
      Assigns slots (.object members' .closed) given := by
  rw [assigns_object_iff, assigns_object_iff]
  refine and_congr ⟨fun h m hm => h m (hperm.mem_iff.mpr hm),
    fun h m hm => h m (hperm.mem_iff.mp hm)⟩ ⟨fun h => h.imp fun _ _ hg => hg.perm hperm,
    fun h => h.imp fun _ _ hg => hg.perm hperm.symm⟩

/-- The keys of a field are as good as one another. -/
theorem assigns_rename (h : Separate slots) (hs : s ∈ slots) (hkey : key ∈ s.keys)
    (hkey' : key' ∈ s.keys) :
    Assigns slots (.object ((key, t) :: members) .closed) given ↔
      Assigns slots (.object ((key', t) :: members) .closed) given := by
  have hsame : ∀ s' ∈ slots, key ∈ s'.keys ↔ key' ∈ s'.keys := by
    intro s' hs'
    constructor
    · intro hin
      rwa [← h.eq_of_mem_keys hs hs' hkey hin]
    · intro hin
      rwa [← h.eq_of_mem_keys hs hs' hkey' hin]
  rw [assigns_object_iff, assigns_object_iff, List.forall_mem_cons, List.forall_mem_cons]
  refine and_congr (and_congr_left fun _ => ?_) (forall₂_congr_of_mem fun s' hs' u => ?_)
  · exact exists_congr fun s' => and_congr_right fun hs' => hsame s' hs'
  · simp only [Slot.given_cons_iff, hsame s' hs']

/-- A default may be written out or left out. -/
theorem assigns_leaveOut (h : Separate slots) (hs : s ∈ slots) (hkey : key ∈ s.keys)
    (hd : s.default = some t) (hnone : s.writers members = []) :
    Assigns slots (.object ((key, t) :: members) .closed) given ↔
      Assigns slots (.object members .closed) given := by
  rw [assigns_object_iff, assigns_object_iff, List.forall_mem_cons]
  refine and_congr (and_iff_right ⟨s, hs, hkey⟩) (forall₂_congr_of_mem fun s' hs' u => ?_)
  rw [Slot.given_cons_iff]
  split
  next hin =>
    obtain rfl := h.eq_of_mem_keys hs hs' hkey hin
    rw [Slot.given_iff, hnone, hd]
    simp [eq_comm]
  next => rfl

theorem forall₂_given_nil_iff :
    List.Forall₂ (fun s t => s.Given [] t) slots given ↔
      slots.map Slot.default = given.map some := by
  have hleft : ∀ s ∈ slots, ∀ t, s.Given [] t ↔ s.default = some t := by
    intro s _ t
    simp [Slot.given_iff, Slot.writers]
  rw [forall₂_congr_of_mem hleft, ← List.forall₂_eq_eq_eq, List.forall₂_map_left_iff,
    List.forall₂_map_right_iff]

/-- Items under the keys of the first fields are what these fields get. -/
theorem forall₂_given_zip_iff (h : Separate slots) {items : List Tree} {keys : List String}
    (hfits : items.length ≤ slots.length)
    (hkeys : List.Forall₂ (fun key s => key ∈ s.keys) keys (slots.take items.length)) :
    List.Forall₂ (fun s t => s.Given (keys.zip items) t) slots given ↔
      ∃ rest : List Tree,
        (slots.drop items.length).map Slot.default = rest.map some ∧ given = items ++ rest := by
  induction slots generalizing items keys given with
  | nil =>
    obtain rfl := List.eq_nil_of_length_eq_zero (Nat.le_zero.mp hfits)
    simp
  | cons s slots ih =>
    cases items with
    | nil => simp [forall₂_given_nil_iff]
    | cons t items =>
      obtain ⟨key, keys, hkey, hrest, rfl⟩ := List.forall₂_cons_right_iff.mp hkeys
      obtain ⟨hapart, h⟩ := List.pairwise_cons.mp h
      have hnone : s.writers (keys.zip items) = [] := by
        rw [Slot.writers_eq_nil_iff]
        intro m hm hin
        obtain ⟨s', hs', hkey'⟩ := exists_of_mem_right hrest.flip (List.of_mem_zip hm).1
        exact hapart s' (List.mem_of_mem_take hs') m.1 hin hkey'
      have hothers : ∀ s' ∈ slots, ∀ u,
          s'.Given ((key, t) :: keys.zip items) u ↔ s'.Given (keys.zip items) u := by
        intro s' hs' u
        rw [Slot.given_cons_iff, if_neg (hapart s' hs' key hkey)]
      cases given with
      | nil => simp
      | cons u given =>
        rw [List.zip_cons_cons, List.forall₂_cons, Slot.given_cons_iff, if_pos hkey,
          forall₂_congr_of_mem hothers, ih h (Nat.le_of_succ_le_succ hfits) hrest]
        simp [hnone, and_left_comm]

/-- An array is an object with the keys left away. -/
theorem assigns_spread (h : Separate slots) {items : List Tree} {keys : List String}
    (hfits : items.length ≤ slots.length)
    (hkeys : List.Forall₂ (fun key s => key ∈ s.keys) keys (slots.take items.length)) :
    Assigns slots (.array items .closed) given ↔
      Assigns slots (.object (keys.zip items) .closed) given := by
  rw [assigns_array_iff, assigns_object_iff, forall₂_given_zip_iff h hfits hkeys]
  refine and_congr_left fun _ => iff_of_true hfits fun m hm => ?_
  obtain ⟨key, hkey, hm⟩ := exists_of_mem_right hkeys.flip (List.of_mem_zip hm).1
  exact ⟨key, List.mem_of_mem_take hkey, hm⟩

end

end RecordSearch.Json
