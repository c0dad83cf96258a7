import RecordSearch.Json.Shape
import RecordSearch.Proofs.Assignment
import RecordSearch.Proofs.Check

/-!
# Reading fields

A shape that keeps to the declaration of its fields reads a tree exactly if the
tree assigns a tree to each field and each field can be read from the tree it
gets: main statement `Shape.read_eq_ok_iff`. The members of an object are read in
the order in which they are written, so this rests on fields that do not disturb
one another.
-/
namespace RecordSearch.Json

variable {α : Type}

/-- A field is read under its declared keys, and where it may be left out its
default leaves the structure as it is. -/
structure Field.Matches (a : α) (f : Field α) (s : Slot) : Prop where
  keys : f.spellings = s.keys
  required : f.required = s.default.isNone
  default : ∀ d, s.default = some d → ∃ set, f.read d = .ok set ∧ set a = a

/-- Two fields share no name and no key, and it does not matter which is read first. -/
structure Field.Apart (f g : Field α) : Prop where
  name : f.name ≠ g.name
  keys : List.Disjoint f.spellings g.spellings
  commute : ∀ t u set set', f.read t = .ok set → g.read u = .ok set' →
    ∀ a, set (set' a) = set' (set a)

theorem Field.Apart.symm {f g : Field α} (h : f.Apart g) : g.Apart f where
  name := h.name.symm
  keys _ hg hf := h.keys hf hg
  commute t u set set' hset hset' a := (h.commute u t set' set hset' hset a).symm

structure Shape.Declares (shape : Shape α) (slots : List Slot) : Prop where
  agree : List.Forall₂ (Field.Matches shape.start) shape.fields slots
  apart : shape.fields.Pairwise Field.Apart

/-- The structure that results when each field is read from its tree. -/
def fill : List (Field α) → List Tree → α → Read α
  | f :: fields, t :: trees, a => do
    let set ← f.read t
    fill fields trees (set a)
  | _, _, a => .ok a

theorem fill_nil (trees : List Tree) (a : α) : fill [] trees a = .ok a := rfl

theorem fill_cons_eq_ok_iff {f : Field α} {fields : List (Field α)} {t : Tree}
    {trees : List Tree} {a b : α} :
    fill (f :: fields) (t :: trees) a = .ok b ↔
      ∃ set, f.read t = .ok set ∧ fill fields trees (set a) = .ok b := by
  constructor
  · exact bind_eq_ok
  · rintro ⟨set, hset, h⟩
    simp only [fill, hset]
    exact h

namespace Shape

variable {shape : Shape α} {slots : List Slot} {ending : Ending} {seen : List String} {a b : α}

theorem check_eq_ok_iff : Read.ofFault ending.check = .ok () ↔ ending = .closed := by
  cases ending <;> simp [Ending.check, Read.ofFault]

theorem Declares.apart_of_ne (hs : shape.Declares slots) {f g : Field α} (hf : f ∈ shape.fields)
    (hg : g ∈ shape.fields) (hne : f ≠ g) : f.Apart g :=
  have : Std.Symm (Field.Apart (α := α)) := ⟨fun _ _ => Field.Apart.symm⟩
  hs.apart.forall hf hg hne

theorem Declares.find?_eq_some_iff (hs : shape.Declares slots) {key : String} {f : Field α} :
    shape.fields.find? (fun f => f.spellings.contains key) = some f ↔
      f ∈ shape.fields ∧ key ∈ f.spellings := by
  constructor
  · intro h
    exact ⟨List.mem_of_find?_eq_some h, by simpa using List.find?_some h⟩
  · rintro ⟨hf, hkey⟩
    cases hfound : shape.fields.find? fun f => f.spellings.contains key with
    | none => exact absurd hkey (by simpa using List.find?_eq_none.mp hfound f hf)
    | some g =>
      have hg : key ∈ g.spellings := by simpa using List.find?_some hfound
      by_contra hne
      have hgf : g ≠ f := fun heq => hne (congrArg some heq)
      exact (hs.apart_of_ne (List.mem_of_find?_eq_some hfound) hf hgf).keys hg hkey

theorem readMembers_nil_eq_ok_iff :
    shape.readMembers ending seen a [] = .ok b ↔
      ending = .closed ∧ (∀ f ∈ shape.fields, f.required = true → f.name ∈ seen) ∧ a = b := by
  constructor
  · intro h
    obtain ⟨_, hclosed, hfields⟩ := bind_eq_ok h
    refine ⟨check_eq_ok_iff.mp hclosed, ?_⟩
    cases hmissing : shape.fields.find? fun f => f.required && !seen.contains f.name with
    | some f =>
      rw [hmissing] at hfields
      cases hfields
    | none =>
      rw [hmissing] at hfields
      cases hfields
      refine ⟨fun f hf hrequired => ?_, rfl⟩
      simpa [hrequired] using List.find?_eq_none.mp hmissing f hf
  · rintro ⟨rfl, hseen, rfl⟩
    have hmissing : shape.fields.find? (fun f => f.required && !seen.contains f.name) = none := by
      rw [List.find?_eq_none]
      intro f hf
      cases hrequired : f.required with
      | false => simp
      | true => simpa using hseen f hf hrequired
    rw [readMembers, hmissing]
    rfl

theorem readMembers_cons_eq_ok_iff (hs : shape.Declares slots) {key : String} {t : Tree}
    {rest : List (String × Tree)} :
    shape.readMembers ending seen a ((key, t) :: rest) = .ok b ↔
      ∃ f ∈ shape.fields, key ∈ f.spellings ∧ f.name ∉ seen ∧ ∃ set, f.read t = .ok set ∧
        shape.readMembers ending (f.name :: seen) (set a) rest = .ok b := by
  constructor
  · intro h
    rw [readMembers] at h
    split at h
    next => cases h
    next f hf =>
      split at h
      next => cases h
      next hnew =>
        obtain ⟨hmem, hkey⟩ := hs.find?_eq_some_iff.mp hf
        exact ⟨f, hmem, hkey, by simpa using hnew, bind_eq_ok h⟩
  · rintro ⟨f, hf, hkey, hnew, set, hset, hrest⟩
    have hseen : seen.contains f.name = false := by simpa using hnew
    rw [readMembers, hs.find?_eq_some_iff.mpr ⟨hf, hkey⟩]
    simp only [hseen, hset]
    exact hrest

/-- Only which fields were seen matters, not when. -/
theorem readMembers_seen (hs : shape.Declares slots) {seen' : List String}
    (hseen : ∀ n, n ∈ seen ↔ n ∈ seen') {members : List (String × Tree)}
    (h : shape.readMembers ending seen a members = .ok b) :
    shape.readMembers ending seen' a members = .ok b := by
  induction members generalizing seen seen' a with
  | nil =>
    obtain ⟨hclosed, hrequired, hab⟩ := readMembers_nil_eq_ok_iff.mp h
    exact readMembers_nil_eq_ok_iff.mpr
      ⟨hclosed, fun f hf hr => (hseen f.name).mp (hrequired f hf hr), hab⟩
  | cons m rest ih =>
    obtain ⟨f, hf, hkey, hnew, set, hset, hrest⟩ := (readMembers_cons_eq_ok_iff hs).mp h
    refine (readMembers_cons_eq_ok_iff hs).mpr
      ⟨f, hf, hkey, fun hin => hnew ((hseen f.name).mpr hin), set, hset, ih (fun n => ?_) hrest⟩
    simp only [List.mem_cons, hseen]

/-- The members of an object may be written in any order. -/
theorem readMembers_perm (hs : shape.Declares slots) {members members' : List (String × Tree)}
    (hperm : members.Perm members') (h : shape.readMembers ending seen a members = .ok b) :
    shape.readMembers ending seen a members' = .ok b := by
  induction hperm generalizing seen a with
  | nil => exact h
  | cons m _ ih =>
    obtain ⟨f, hf, hkey, hnew, set, hset, hrest⟩ := (readMembers_cons_eq_ok_iff hs).mp h
    exact (readMembers_cons_eq_ok_iff hs).mpr ⟨f, hf, hkey, hnew, set, hset, ih hrest⟩
  | swap m m' rest =>
    obtain ⟨f, hf, hkey, hfnew, set, hset, hrest⟩ := (readMembers_cons_eq_ok_iff hs).mp h
    obtain ⟨g, hg, hkey', hgnew, set', hset', hrest'⟩ := (readMembers_cons_eq_ok_iff hs).mp hrest
    have hne : f.name ≠ g.name := fun heq => hgnew (heq ▸ List.mem_cons_self)
    have hapart : f.Apart g := hs.apart_of_ne hf hg fun heq => hne (congrArg Field.name heq)
    have hcommute := hapart.commute _ _ _ _ hset hset' a
    rw [← hcommute] at hrest'
    refine (readMembers_cons_eq_ok_iff hs).mpr
      ⟨g, hg, hkey', fun hin => hgnew (List.mem_cons_of_mem _ hin), set', hset', ?_⟩
    refine (readMembers_cons_eq_ok_iff hs).mpr ⟨f, hf, hkey, ?_, set, hset, ?_⟩
    · simp only [List.mem_cons, not_or]
      exact ⟨hne, hfnew⟩
    · refine readMembers_seen hs (fun n => ?_) hrest'
      simp only [List.mem_cons, or_left_comm]
  | trans _ _ ih ih' => exact ih' (ih h)

theorem readMembers_leftOut (hs : shape.Declares slots) {f : Field α} (hf : f ∈ shape.fields)
    (hoptional : f.required = false) {members : List (String × Tree)}
    (hnone : ∀ m ∈ members, m.1 ∉ f.spellings) :
    shape.readMembers ending (f.name :: seen) a members = .ok b ↔
      shape.readMembers ending seen a members = .ok b := by
  induction members generalizing seen a with
  | nil =>
    rw [readMembers_nil_eq_ok_iff, readMembers_nil_eq_ok_iff]
    refine and_congr_right fun _ => and_congr_left fun _ => ?_
    constructor
    · intro h g hg hrequired
      rcases List.mem_cons.mp (h g hg hrequired) with heq | hin
      · have hgf : g = f := by
          by_contra hne
          exact (hs.apart_of_ne hg hf hne).name heq
        rw [hgf, hoptional] at hrequired
        cases hrequired
      · exact hin
    · exact fun h g hg hrequired => List.mem_cons_of_mem _ (h g hg hrequired)
  | cons m rest ih =>
    obtain ⟨key, t⟩ := m
    have hkey : key ∉ f.spellings := hnone (key, t) List.mem_cons_self
    have hrest : ∀ m ∈ rest, m.1 ∉ f.spellings := fun m hm => hnone m (List.mem_cons_of_mem _ hm)
    have hswap : ∀ g : Field α, ∀ n,
        n ∈ g.name :: f.name :: seen ↔ n ∈ f.name :: g.name :: seen := by
      intro g n
      simp only [List.mem_cons, or_left_comm]
    rw [readMembers_cons_eq_ok_iff hs, readMembers_cons_eq_ok_iff hs]
    constructor
    · rintro ⟨g, hg, hgkey, hnew, set, hset, h⟩
      exact ⟨g, hg, hgkey, fun hin => hnew (List.mem_cons_of_mem _ hin), set, hset,
        (ih hrest).mp (readMembers_seen hs (hswap g) h)⟩
    · rintro ⟨g, hg, hgkey, hnew, set, hset, h⟩
      have hne : g ≠ f := fun heq => hkey (heq ▸ hgkey)
      refine ⟨g, hg, hgkey, ?_, set, hset,
        readMembers_seen hs (fun n => (hswap g n).symm) ((ih hrest).mpr h)⟩
      simp only [List.mem_cons, not_or]
      exact ⟨(hs.apart_of_ne hg hf hne).name, hnew⟩

/-- What is known while fields are read in their order: those still to come are
unseen, and the structure still has their defaults. -/
structure Pending (shape : Shape α) (seen : List String) (a : α) (todo : List (Field α))
    (left : List Slot) : Prop where
  mem : ∀ f ∈ todo, f ∈ shape.fields
  apart : todo.Pairwise Field.Apart
  agree : List.Forall₂ (Field.Matches a) todo left
  covers : ∀ f ∈ shape.fields, f.name ∈ seen ∨ f ∈ todo
  unseen : ∀ f ∈ todo, f.name ∉ seen

theorem Declares.pending (hs : shape.Declares slots) :
    shape.Pending [] shape.start shape.fields slots where
  mem _ hf := hf
  apart := hs.apart
  agree := hs.agree
  covers _ hf := .inr hf
  unseen _ _ := List.not_mem_nil

theorem Pending.next {f : Field α} {todo : List (Field α)} {s : Slot} {left : List Slot}
    (h : shape.Pending seen a (f :: todo) (s :: left)) {t : Tree} {set : α → α}
    (hset : f.read t = .ok set) : shape.Pending (f.name :: seen) (set a) todo left where
  mem g hg := h.mem g (List.mem_cons_of_mem f hg)
  apart := (List.pairwise_cons.mp h.apart).2
  agree := by
    have hagree := (List.forall₂_cons.mp h.agree).2
    have hapart := (List.pairwise_cons.mp h.apart).1
    refine List.Forall₂.imp ?_ ((List.forall₂_and_left todo left).mpr ⟨hapart, hagree⟩)
    rintro g s ⟨hfg, hg⟩
    refine ⟨hg.keys, hg.required, fun d hd => ?_⟩
    obtain ⟨set', hset', hkeep⟩ := hg.default d hd
    refine ⟨set', hset', ?_⟩
    rw [← hfg.commute _ _ _ _ hset hset', hkeep]
  covers g hg := by
    rcases h.covers g hg with hin | hin
    · exact .inl (List.mem_cons_of_mem _ hin)
    · rcases List.mem_cons.mp hin with rfl | hin
      · exact .inl List.mem_cons_self
      · exact .inr hin
  unseen g hg := by
    have hfg := (List.pairwise_cons.mp h.apart).1 g hg
    simp only [List.mem_cons, not_or]
    exact ⟨hfg.name.symm, h.unseen g (List.mem_cons_of_mem f hg)⟩

theorem readMembers_cons_of_pending (hs : shape.Declares slots) {f : Field α}
    {todo : List (Field α)} {left : List Slot} (h : shape.Pending seen a (f :: todo) left)
    {key : String} (hkey : key ∈ f.spellings) {t : Tree} {rest : List (String × Tree)} :
    shape.readMembers ending seen a ((key, t) :: rest) = .ok b ↔
      ∃ set, f.read t = .ok set ∧
        shape.readMembers ending (f.name :: seen) (set a) rest = .ok b := by
  have hf := h.mem f List.mem_cons_self
  rw [readMembers_cons_eq_ok_iff hs]
  constructor
  · rintro ⟨g, hg, hgkey, -, hread⟩
    have hgf : g = f := by
      by_contra hne
      exact (hs.apart_of_ne hg hf hne).keys hgkey hkey
    rwa [hgf] at hread
  · intro hread
    exact ⟨f, hf, hkey, h.unseen f List.mem_cons_self, hread⟩

theorem Pending.keys_disjoint {f : Field α} {todo : List (Field α)} {s : Slot}
    {left : List Slot} (h : shape.Pending seen a (f :: todo) (s :: left)) :
    ∀ s' ∈ left, List.Disjoint s.keys s'.keys := by
  obtain ⟨hmatch, hagree⟩ := List.forall₂_cons.mp h.agree
  intro s' hs'
  obtain ⟨g, hg, hmatch'⟩ := exists_of_mem_right hagree hs'
  rw [← hmatch.keys, ← hmatch'.keys]
  exact ((List.pairwise_cons.mp h.apart).1 g hg).keys

/-- What an object gives to the fields to come is what they are read from. -/
theorem readMembers_eq_ok_iff_fill (hs : shape.Declares slots) {todo : List (Field α)}
    {left : List Slot} (h : shape.Pending seen a todo left) {members : List (String × Tree)}
    (hknown : ∀ m ∈ members, ∃ s ∈ left, m.1 ∈ s.keys) {given : List Tree}
    (hgiven : List.Forall₂ (fun s t => s.Given members t) left given) :
    shape.readMembers .closed seen a members = .ok b ↔ fill todo given a = .ok b := by
  induction todo generalizing seen a left members given with
  | nil =>
    obtain rfl := List.forall₂_nil_left_iff.mp h.agree
    obtain rfl := List.forall₂_nil_left_iff.mp hgiven
    obtain rfl : members = [] := by
      rw [List.eq_nil_iff_forall_not_mem]
      intro m hm
      obtain ⟨s, hs, -⟩ := hknown m hm
      cases hs
    have hseen : ∀ f ∈ shape.fields, f.required = true → f.name ∈ seen :=
      fun f hf _ => (h.covers f hf).resolve_right List.not_mem_nil
    rw [readMembers_nil_eq_ok_iff, fill_nil, Except.ok.injEq]
    exact ⟨fun h => h.2.2, fun h => ⟨rfl, hseen, h⟩⟩
  | cons f todo ih =>
    obtain ⟨s, left, hmatch, hagree, rfl⟩ := List.forall₂_cons_left_iff.mp h.agree
    obtain ⟨t, given, ht, hrest, rfl⟩ := List.forall₂_cons_left_iff.mp hgiven
    have hothers : ∀ m ∈ members, m.1 ∉ s.keys → ∃ s' ∈ left, m.1 ∈ s'.keys := by
      intro m hm hnot
      obtain ⟨s', hs', hkey⟩ := hknown m hm
      rcases List.mem_cons.mp hs' with rfl | hs'
      · exact absurd hkey hnot
      · exact ⟨s', hs', hkey⟩
    rw [fill_cons_eq_ok_iff]
    cases ht with
    | @written key _ hw =>
      have hkey : key ∈ f.spellings :=
        hmatch.keys ▸ s.mem_keys_of_mem_writers (m := (key, t)) (hw ▸ List.mem_cons_self)
      have hperm := s.perm_of_writers hw
      have hrest' : List.Forall₂
          (fun s' t => s'.Given (members.filter fun m => m.1 ∉ s.keys) t) left given := by
        refine List.Forall₂.imp ?_
          ((List.forall₂_and_left left given).mpr ⟨h.keys_disjoint, hrest⟩)
        rintro s' u ⟨hdisjoint, hu⟩
        exact hu.congr (Slot.writers_filter hdisjoint members).symm
      have hknown' : ∀ m ∈ members.filter fun m => m.1 ∉ s.keys, ∃ s' ∈ left, m.1 ∈ s'.keys := by
        intro m hm
        rw [List.mem_filter, decide_eq_true_eq] at hm
        exact hothers m hm.1 hm.2
      calc shape.readMembers .closed seen a members = .ok b
        _ ↔ shape.readMembers .closed seen a
              ((key, t) :: members.filter fun m => m.1 ∉ s.keys) = .ok b :=
          ⟨readMembers_perm hs hperm, readMembers_perm hs hperm.symm⟩
        _ ↔ _ := readMembers_cons_of_pending hs h hkey
        _ ↔ _ := exists_congr fun set => and_congr_right fun hset =>
          ih (h.next hset) hknown' hrest'
    | leftOut hw hd =>
      have hnone := s.writers_eq_nil_iff.mp hw
      have hoptional : f.required = false := by rw [hmatch.required, hd]; rfl
      obtain ⟨set, hset, hkeep⟩ := hmatch.default t hd
      have hnext := h.next hset
      rw [hkeep] at hnext
      have hih := ih hnext (fun m hm => hothers m hm (hnone m hm)) hrest
      rw [← readMembers_leftOut hs (h.mem f List.mem_cons_self) hoptional
        (hmatch.keys ▸ hnone), hih]
      simp [hset, hkeep]

theorem fill_defaults {todo : List (Field α)} {left : List Slot}
    (hagree : List.Forall₂ (Field.Matches a) todo left) {rest : List Tree}
    (hrest : left.map Slot.default = rest.map some) : fill todo rest a = .ok a := by
  induction hagree generalizing rest with
  | nil => simp [fill]
  | cons hmatch _ ih =>
    cases rest with
    | nil => cases hrest
    | cons d rest =>
      rw [List.map_cons, List.map_cons, List.cons.injEq] at hrest
      obtain ⟨set, hset, hkeep⟩ := hmatch.default d hrest.1
      exact fill_cons_eq_ok_iff.mpr ⟨set, hset, by rw [hkeep]; exact ih hrest.2⟩

theorem readItems_nil_eq_ok_iff {count : Nat} {todo : List (Field α)} :
    shape.readItems ending count a todo [] = .ok b ↔
      ending = .closed ∧ (∀ f ∈ todo, f.required = false) ∧ a = b := by
  constructor
  · intro h
    rw [readItems] at h
    obtain ⟨_, hclosed, hfields⟩ := bind_eq_ok h
    refine ⟨check_eq_ok_iff.mp hclosed, ?_⟩
    split at hfields
    next => cases hfields
    next hoptional =>
      cases hfields
      exact ⟨by simpa using hoptional, rfl⟩
  · rintro ⟨rfl, hoptional, rfl⟩
    have hany : todo.any Field.required = false := by simpa using hoptional
    rw [readItems, hany]
    rfl

theorem readItems_cons_eq_ok_iff {count : Nat} {f : Field α} {todo : List (Field α)} {t : Tree}
    {rest : List Tree} :
    shape.readItems ending count a (f :: todo) (t :: rest) = .ok b ↔
      ∃ set, f.read t = .ok set ∧ shape.readItems ending count (set a) todo rest = .ok b := by
  constructor
  · exact bind_eq_ok
  · rintro ⟨set, hset, h⟩
    rw [readItems, hset]
    exact h

theorem exists_defaults_iff {todo : List (Field α)} {left : List Slot}
    (hagree : List.Forall₂ (Field.Matches a) todo left) :
    (∃ rest : List Tree, left.map Slot.default = rest.map some) ↔
      ∀ f ∈ todo, f.required = false := by
  induction hagree with
  | nil => exact ⟨fun _ _ hf => absurd hf List.not_mem_nil, fun _ => ⟨[], rfl⟩⟩
  | @cons f s todo left hmatch _ ih =>
    rw [List.forall_mem_cons, ← ih, hmatch.required]
    constructor
    · rintro ⟨rest, hrest⟩
      cases rest with
      | nil => cases hrest
      | cons d rest =>
        rw [List.map_cons, List.map_cons, List.cons.injEq] at hrest
        exact ⟨by rw [hrest.1]; rfl, rest, hrest.2⟩
    · rintro ⟨hd, rest, hrest⟩
      obtain ⟨d, hd⟩ := Option.isSome_iff_exists.mp (Option.isNone_eq_false_iff.mp hd)
      exact ⟨d :: rest, by rw [List.map_cons, List.map_cons, hd, hrest]⟩

/-- The items of an array are what the fields are read from, and the defaults
of the fields for which there are no items. -/
theorem readItems_eq_ok_iff {count : Nat} {todo : List (Field α)} {left : List Slot}
    (h : shape.Pending seen a todo left) {items : List Tree} :
    shape.readItems ending count a todo items = .ok b ↔
      ending = .closed ∧ items.length ≤ left.length ∧ ∃ rest : List Tree,
        (left.drop items.length).map Slot.default = rest.map some ∧
          fill todo (items ++ rest) a = .ok b := by
  induction items generalizing seen a todo left with
  | nil =>
    rw [readItems_nil_eq_ok_iff, ← exists_defaults_iff h.agree]
    constructor
    · rintro ⟨hclosed, ⟨rest, hrest⟩, rfl⟩
      exact ⟨hclosed, Nat.zero_le _, rest, hrest, fill_defaults h.agree hrest⟩
    · rintro ⟨hclosed, -, rest, hrest, hfill⟩
      refine ⟨hclosed, ⟨rest, hrest⟩, ?_⟩
      rw [List.nil_append, fill_defaults h.agree hrest] at hfill
      exact Except.ok.inj hfill
  | cons t items ih =>
    cases todo with
    | nil =>
      obtain rfl := List.forall₂_nil_left_iff.mp h.agree
      simp [readItems]
    | cons f todo =>
      obtain ⟨s, left, hmatch, hagree, rfl⟩ := List.forall₂_cons_left_iff.mp h.agree
      rw [readItems_cons_eq_ok_iff]
      constructor
      · rintro ⟨set, hset, hread⟩
        obtain ⟨hclosed, hlength, rest, hrest, hfill⟩ := (ih (h.next hset)).mp hread
        exact ⟨hclosed, Nat.succ_le_succ hlength, rest, hrest,
          fill_cons_eq_ok_iff.mpr ⟨set, hset, hfill⟩⟩
      · rintro ⟨hclosed, hlength, rest, hrest, hfill⟩
        obtain ⟨set, hset, hfill⟩ := fill_cons_eq_ok_iff.mp hfill
        exact ⟨set, hset, (ih (h.next hset)).mpr
          ⟨hclosed, Nat.le_of_succ_le_succ hlength, rest, hrest, hfill⟩⟩

theorem writers_of_readMembers (hs : shape.Declares slots) {members : List (String × Tree)}
    (h : shape.readMembers ending seen a members = .ok b) {f : Field α} (hf : f ∈ shape.fields)
    {s : Slot} (hkeys : f.spellings = s.keys) :
    (f.name ∈ seen → s.writers members = []) ∧
      (f.name ∉ seen → (∃ key t, s.writers members = [(key, t)]) ∨
        s.writers members = [] ∧ f.required = false) := by
  induction members generalizing seen a with
  | nil =>
    obtain ⟨-, hrequired, -⟩ := readMembers_nil_eq_ok_iff.mp h
    refine ⟨fun _ => rfl, fun hnew => .inr ⟨rfl, ?_⟩⟩
    by_contra hr
    exact hnew (hrequired f hf (by simpa using hr))
  | cons m rest ih =>
    obtain ⟨key, t⟩ := m
    obtain ⟨g, hg, hkey, hgnew, set, hset, hrest⟩ := (readMembers_cons_eq_ok_iff hs).mp h
    by_cases hgf : g = f
    · subst hgf
      have hrest := (ih hrest).1 List.mem_cons_self
      have hwriters : s.writers ((key, t) :: rest) = (key, t) :: s.writers rest :=
        List.filter_cons_of_pos (by simpa [← hkeys] using hkey)
      exact ⟨fun hin => absurd hin hgnew, fun _ => .inl ⟨key, t, by rw [hwriters, hrest]⟩⟩
    · have hapart := hs.apart_of_ne hg hf hgf
      have hwriters : s.writers ((key, t) :: rest) = s.writers rest :=
        List.filter_cons_of_neg (by simpa [← hkeys] using hapart.keys hkey)
      have hseen : f.name ∈ g.name :: seen ↔ f.name ∈ seen := by
        simp [hapart.name.symm]
      have hih := ih hrest
      rwa [hseen, ← hwriters] at hih

theorem known_of_readMembers (hs : shape.Declares slots) {members : List (String × Tree)}
    (h : shape.readMembers ending seen a members = .ok b) :
    ending = .closed ∧ ∀ m ∈ members, ∃ s ∈ slots, m.1 ∈ s.keys := by
  induction members generalizing seen a with
  | nil => exact ⟨(readMembers_nil_eq_ok_iff.mp h).1, fun _ hm => absurd hm List.not_mem_nil⟩
  | cons m rest ih =>
    obtain ⟨f, hf, hkey, -, set, -, hrest⟩ := (readMembers_cons_eq_ok_iff hs).mp h
    obtain ⟨s, hslot, hmatch⟩ := exists_of_mem_right hs.agree.flip hf
    exact ⟨(ih hrest).1,
      List.forall_mem_cons.mpr ⟨⟨s, hslot, hmatch.keys ▸ hkey⟩, (ih hrest).2⟩⟩

theorem given_of_readMembers (hs : shape.Declares slots) {members : List (String × Tree)}
    (h : shape.readMembers ending [] a members = .ok b) :
    ∃ given, List.Forall₂ (fun s t => s.Given members t) slots given := by
  refine exists_forall₂ fun s hslot => ?_
  obtain ⟨f, hf, hmatch⟩ := exists_of_mem_right hs.agree hslot
  have hwriters := (writers_of_readMembers hs h hf hmatch.keys).2 List.not_mem_nil
  rcases hwriters with ⟨key, t, hw⟩ | ⟨hw, hoptional⟩
  · exact ⟨t, .written hw⟩
  · rw [hmatch.required, Option.isNone_eq_false_iff] at hoptional
    obtain ⟨d, hd⟩ := Option.isSome_iff_exists.mp hoptional
    exact ⟨d, .leftOut hw hd⟩

/-- Reading finds an assignment, and reads each field from the tree it gets. -/
theorem read_eq_ok_iff (hs : shape.Declares slots) {t : Tree} :
    shape.read t = .ok b ↔
      ∃ given, Assigns slots t given ∧ fill shape.fields given shape.start = .ok b := by
  constructor
  · intro h
    cases t with
    | object members ending =>
      obtain ⟨rfl, hknown⟩ := known_of_readMembers hs h
      obtain ⟨given, heach⟩ := given_of_readMembers hs h
      exact ⟨given, .object hknown heach,
        (readMembers_eq_ok_iff_fill hs hs.pending hknown heach).mp h⟩
    | array items ending =>
      obtain ⟨rfl, hfits, rest, hrest, hfill⟩ := (readItems_eq_ok_iff hs.pending).mp h
      exact ⟨items ++ rest, .array hfits hrest, hfill⟩
    | null => cases h
    | bool => cases h
    | number => cases h
    | string => cases h
    | broken => cases h
  · rintro ⟨given, hassigns, hfill⟩
    cases hassigns with
    | object hknown heach =>
      exact (readMembers_eq_ok_iff_fill hs hs.pending hknown heach).mpr hfill
    | array hfits hrest =>
      exact (readItems_eq_ok_iff hs.pending).mpr ⟨rfl, hfits, _, hrest, hfill⟩

end Shape

end RecordSearch.Json
