import RecordSearch.Error
import RecordSearch.Proofs.Walk

/-!
# Balanced fragments

A fragment is balanced when a walk over it from outside of regions ends outside
of regions. Balanced fragments can be put one after the other if the later one
begins with a character that separates, and the text of a balanced fragment in
any safe style is read back as its lexemes.
-/
namespace RecordSearch.Sql

open Json (Value)

/-- Whatever can be walked over from the first stand can be walked over from the
second. -/
def Stand.Tighter (s t : Stand) : Prop := s = t ∨ (s = .apart ∧ t = .outside)

theorem Stand.Tighter.settled {s t : Stand} (h : s.Tighter t) (hs : s.settled = true) :
    t.settled = true := by
  rcases h with rfl | ⟨_, rfl⟩
  · exact hs
  · rfl

theorem Stand.tighter_of_settled {t : Stand} (h : t.settled = true) :
    Stand.apart.Tighter t := by
  cases t with
  | outside => exact .inr ⟨rfl, rfl⟩
  | apart => exact .inl rfl
  | inside quote content => cases h

theorem Stand.Tighter.next {s t u : Stand} (h : s.Tighter t) {a : Atom}
    (hu : s.next a = some u) : ∃ v, t.next a = some v ∧ u.Tighter v := by
  rcases h with rfl | ⟨rfl, rfl⟩
  · exact ⟨u, hu, .inl rfl⟩
  · obtain ⟨ls, hstep⟩ := Step.of_next hu
    cases hstep with
    | @separates c hc =>
      have hord := ordinary_of_separates hc
      refine ⟨.outside, ?_, .inl rfl⟩
      simp [Stand.next, hord, isQuote_of_ordinary hord]

theorem Stand.Tighter.walk {s t u : Stand} (h : s.Tighter t) {as : List Atom}
    (hu : walk s as = some u) : ∃ v, walk t as = some v ∧ u.Tighter v := by
  induction as generalizing s t with
  | nil =>
    obtain rfl := Option.some.inj hu
    exact ⟨t, rfl, h⟩
  | cons a as ih =>
    rw [Sql.walk] at hu
    split at hu
    next w hw =>
      obtain ⟨x, hx, hle⟩ := h.next hw
      obtain ⟨v, hv, huv⟩ := ih hle hu
      exact ⟨v, by rw [Sql.walk, hx]; exact hv, huv⟩
    next => cases hu

namespace Fragment

/-- A walk from `s` over the fragment ends outside of regions. -/
def BalancedFrom (s : Stand) (f : Fragment) : Prop :=
  ∃ t, walk s (atoms f) = some t ∧ t.settled = true

abbrev Balanced (f : Fragment) : Prop := BalancedFrom .outside f

/-- The fragment may stand right after a region or a value. -/
abbrev Follows (f : Fragment) : Prop := BalancedFrom .apart f

theorem BalancedFrom.loosen {s t : Stand} {f : Fragment} (h : BalancedFrom s f)
    (hle : s.Tighter t) : BalancedFrom t f := by
  obtain ⟨u, hu, hsettled⟩ := h
  obtain ⟨v, hv, huv⟩ := hle.walk hu
  exact ⟨v, hv, huv.settled hsettled⟩

theorem Follows.balanced {f : Fragment} (h : Follows f) : Balanced f :=
  h.loosen (.inr ⟨rfl, rfl⟩)

theorem balanced_nil : Balanced [] := ⟨.outside, rfl, rfl⟩

theorem follows_nil : Follows [] := ⟨.apart, rfl, rfl⟩

theorem BalancedFrom.append {s : Stand} {f g : Fragment} (hf : BalancedFrom s f)
    (hg : Follows g) : BalancedFrom s (f ++ g) := by
  obtain ⟨t, ht, hsettled⟩ := hf
  obtain ⟨u, hu, husettled⟩ := hg.loosen (Stand.tighter_of_settled hsettled)
  refine ⟨u, ?_, husettled⟩
  rw [atoms_append, walk_append, ht]
  exact hu

theorem balancedFrom_fixed {s : Stand} {text : String}
    (htext : walk s (fixedAtoms text) = some .outside) {f : Fragment} (hf : Balanced f) :
    BalancedFrom s (.fixed text :: f) := by
  obtain ⟨t, ht, hsettled⟩ := hf
  refine ⟨t, ?_, hsettled⟩
  rw [atoms_cons, walk_append, Piece.atoms, htext]
  exact ht

theorem balanced_value (slot : Nat) (v : Value) {f : Fragment} (hf : Follows f) :
    Balanced (.value slot v :: f) := hf

theorem balanced_key (text : String) {f : Fragment} (hf : Follows f) :
    Balanced (.key text :: f) := hf

theorem balanced_ident (text : String) {f : Fragment} (hf : Follows f) :
    Balanced (.ident text :: f) := hf

theorem join_cons_cons (sep : String) (f g : Fragment) (fs : List Fragment) :
    join sep (f :: g :: fs) = f ++ .fixed sep :: join sep (g :: fs) := by
  simp [join, ofText, List.intercalate]

theorem balanced_join {sep : String} (hsep : walk .apart (fixedAtoms sep) = some .outside)
    {fs : List Fragment} (h : ∀ f ∈ fs, Balanced f) : Balanced (join sep fs) := by
  induction fs with
  | nil => exact balanced_nil
  | cons f fs ih =>
    have hf := h f (by simp)
    have hfs := ih fun g hg => h g (by simp [hg])
    cases fs with
    | nil => simpa [join, List.intercalate] using hf
    | cons g fs =>
      rw [join_cons_cons]
      exact hf.append (balancedFrom_fixed hsep hfs)

theorem walk_fixed_outside {text : String} (h : text.toList.all ordinary = true) :
    walk .outside (fixedAtoms text) = some .outside := by
  unfold fixedAtoms
  generalize text.toList = cs at h
  induction cs with
  | nil => rfl
  | cons c cs ih =>
    rw [List.all_cons, Bool.and_eq_true] at h
    obtain ⟨hc, hcs⟩ := h
    have hnext : Stand.outside.next (.char c) = some .outside := by
      simp [Stand.next, hc, isQuote_of_ordinary hc]
    rw [List.map_cons, walk, hnext]
    exact ih hcs

theorem walk_fixed_append {s : Stand} {text rest : String}
    (htext : walk s (fixedAtoms text) = some .outside)
    (hrest : rest.toList.all ordinary = true) :
    walk s (fixedAtoms (text ++ rest)) = some .outside := by
  have hatoms : fixedAtoms (text ++ rest) = fixedAtoms text ++ fixedAtoms rest := by
    simp [fixedAtoms]
  rw [hatoms, walk_append, htext]
  exact walk_fixed_outside hrest

theorem ordinary_decimal (n : Nat) : (decimal n).toList.all ordinary = true := by
  rw [List.all_eq_true]
  intro c hc
  rw [decimal, String.toList_ofList] at hc
  have hdigit : c.isDigit = true :=
    Nat.isDigit_of_mem_toDigits (by decide) (by decide) hc
  have hne : ∀ d : Char, d.isDigit = false → c ≠ d := by
    rintro d hd rfl
    rw [hdigit] at hd
    cases hd
  simp [ordinary, isQuote, hne '$' (by decide), hne '?' (by decide),
    hne singleQuote (by decide), hne doubleQuote (by decide)]

end Fragment

def Piece.slot? : Piece → Option (Nat × Value)
  | .value slot v => some (slot, v)
  | .fixed _ | .key _ | .ident _ => none

/-- A text of the client with the quotes around it. -/
def Piece.client? : Piece → Option (Char × String)
  | .key text => some (singleQuote, text)
  | .ident text => some (doubleQuote, text)
  | .fixed _ | .value _ _ => none

@[simp] theorem Piece.slot?_fixed (text : String) : (Piece.fixed text).slot? = none := rfl

@[simp] theorem Piece.client?_fixed (text : String) : (Piece.fixed text).client? = none := rfl

namespace Fragment

def slots (f : Fragment) : List (Nat × Value) := f.filterMap Piece.slot?

/-- The texts of the client that are never bound. -/
def clients (f : Fragment) : List (Char × String) := f.filterMap Piece.client?

@[simp] theorem slots_nil : slots [] = [] := rfl

@[simp] theorem clients_nil : clients [] = [] := rfl

@[simp] theorem slots_append (f g : Fragment) : slots (f ++ g) = slots f ++ slots g :=
  List.filterMap_append

@[simp] theorem clients_append (f g : Fragment) : clients (f ++ g) = clients f ++ clients g :=
  List.filterMap_append

@[simp] theorem slots_fixed (text : String) (f : Fragment) :
    slots (.fixed text :: f) = slots f := rfl

@[simp] theorem clients_fixed (text : String) (f : Fragment) :
    clients (.fixed text :: f) = clients f := rfl

/-- What is collected piece by piece, but not from fixed text, is collected from
joined fragments one after the other. -/
theorem filterMap_join {β : Type} {g : Piece → Option β}
    (hg : ∀ text, g (.fixed text) = none) (sep : String) (fs : List Fragment) :
    (join sep fs).filterMap g = fs.flatMap fun f => f.filterMap g := by
  induction fs with
  | nil => rfl
  | cons f fs ih =>
    cases fs with
    | nil => simp [join, List.intercalate]
    | cons f' fs =>
      rw [join_cons_cons, List.filterMap_append, List.filterMap_cons, hg, ih]
      rfl

theorem clients_join (sep : String) (fs : List Fragment) :
    clients (join sep fs) = fs.flatMap clients :=
  filterMap_join Piece.client?_fixed sep fs

theorem slots_eq_atoms (f : Fragment) : (atoms f).filterMap Atom.slot? = slots f := by
  induction f with
  | nil => rfl
  | cons p f ih =>
    rw [atoms_cons, List.filterMap_append, ih]
    cases p with
    | fixed text =>
      have hnone : (fixedAtoms text).filterMap Atom.slot? = [] := by
        simp [fixedAtoms, Atom.slot?]
      rw [Piece.atoms, hnone]
      rfl
    | value slot v => rfl
    | key text => rfl
    | ident text => rfl

theorem mem_clients_of_mem_atoms {f : Fragment} {quote : Char} {text : String}
    (h : .client quote text ∈ atoms f) : (quote, text) ∈ clients f := by
  obtain ⟨p, hp, hmem⟩ := List.mem_flatMap.1 h
  refine List.mem_filterMap.2 ⟨p, hp, ?_⟩
  cases p with
  | fixed text' =>
    obtain ⟨c, _, hc⟩ := List.mem_map.1 hmem
    exact Atom.noConfusion hc
  | value slot v => exact Atom.noConfusion (List.mem_singleton.1 hmem)
  | key text' =>
    obtain ⟨rfl, rfl⟩ := Atom.client.inj (List.mem_singleton.1 hmem)
    rfl
  | ident text' =>
    obtain ⟨rfl, rfl⟩ := Atom.client.inj (List.mem_singleton.1 hmem)
    rfl

/-- The lexemes of a fragment: tidy, its text in every safe style, its bound
values, and no regions but the compiler's own and its client texts. -/
structure Lexed (f : Fragment) (ls : List Lexeme) : Prop where
  tidy : Tidy ls
  chars : ∀ style : Style, style.Safe → chars style f = ls.flatMap (Lexeme.chars style)
  slots : ls.filterMap Lexeme.slot? = slots f
  quoted : ∀ (quote : Char) (content : String), .quoted quote content ∈ ls →
    (quote, content) ∈ ownRegions ∨ (quote, content) ∈ clients f

theorem Lexed.of_walks {f : Fragment} {t : Stand} {ls : List Lexeme}
    (hwalks : Walks .outside (atoms f) t ls) (ht : t.settled = true) : Lexed f ls where
  tidy := (hwalks.tidy fun _ ha => wrapped_of_mem_atoms ha).1
  chars style hsafe := by
    rw [chars_eq_atoms, hwalks.chars hsafe ht]
    rfl
  slots := by rw [hwalks.slots, slots_eq_atoms]
  quoted _ _ hmem := (hwalks.quoted hmem).imp_right mem_clients_of_mem_atoms

theorem Balanced.lexed {f : Fragment} (h : Balanced f) : ∃ ls, Lexed f ls := by
  obtain ⟨t, ht, hsettled⟩ := h
  obtain ⟨ls, hwalks⟩ := Walks.of_walk ht
  exact ⟨ls, .of_walks hwalks hsettled⟩

theorem Lexed.tokens {f : Fragment} {ls : List Lexeme} (h : Lexed f ls) {style : Style}
    (hsafe : style.Safe) :
    tokens? (text style f) = some (ls.flatMap (Lexeme.tokens style)) := by
  rw [tokens?, text, String.toList_ofList, h.chars style hsafe, h.tidy.read hsafe]

/-- In a numbered text, the placeholders count the positions of the fragment. -/
theorem Balanced.placeholders_text {f : Fragment} (h : Balanced f) (quoting : Quoting) :
    ∃ ts, tokens? (text (numberedStyle quoting) f) = some ts ∧
      placeholders ts = (Fragment.slots f).map fun p => p.1 + 1 := by
  obtain ⟨ls, hlexed⟩ := h.lexed
  refine ⟨_, hlexed.tokens (numberedStyle_safe quoting), ?_⟩
  rw [hlexed.tidy.placeholders, hlexed.slots]

/-- The numbered text, filled with the values at the positions, is the literal text. -/
theorem Balanced.fillPlaceholders_text {f : Fragment} (h : Balanced f) {params : List Value}
    (hparams : ∀ p ∈ Fragment.slots f, params[p.1]? = some p.2) (quoting : Quoting) :
    fillPlaceholders params (text (numberedStyle quoting) f) = some (text literalStyle f) := by
  obtain ⟨ls, hlexed⟩ := h.lexed
  rw [← hlexed.slots] at hparams
  have hfilled := Lexeme.mapM_filled hparams
  rw [fillPlaceholders, hlexed.tokens (numberedStyle_safe quoting), Option.bind_eq_bind,
    Option.bind_some, hlexed.tidy.marks, hfilled, text,
    hlexed.chars literalStyle literalStyle_safe, List.flatMap_def]
  rfl

/-- The numbered text without its numbers is the text whose placeholders are all alike. -/
theorem Balanced.unnumber_text {f : Fragment} (h : Balanced f) (quoting : Quoting) :
    unnumber (text (numberedStyle quoting) f) = some (text (plainStyle quoting) f) := by
  obtain ⟨ls, hlexed⟩ := h.lexed
  rw [unnumber, hlexed.tokens (numberedStyle_safe quoting), Option.map_some, hlexed.tidy.marks,
    text, hlexed.chars _ (plainStyle_safe quoting), List.flatMap_map]
  simp only [Lexeme.unnumbered_mark _ quoting]

theorem Balanced.questionMarks_text {f : Fragment} (h : Balanced f) (quoting : Quoting) :
    ∃ ts, tokens? (text (plainStyle quoting) f) = some ts ∧
      questionMarks ts = (Fragment.slots f).length := by
  obtain ⟨ls, hlexed⟩ := h.lexed
  refine ⟨_, hlexed.tokens (plainStyle_safe quoting), ?_⟩
  rw [hlexed.tidy.questionMarks, hlexed.slots]

end Fragment

end RecordSearch.Sql
