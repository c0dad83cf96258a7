import RecordSearch.Proofs.Balanced

/-!
# Erasing what a client wrote

An erasure replaces the values, keys and identifiers of a fragment and leaves
its fixed text and its positions. It commutes with everything that fragments are
made with. Fragments that agree once the contents of texts are erased have the
same text outside quotes, for a walk goes the same way over both.
-/
namespace RecordSearch.Sql

open Json (Value)

structure Erasure where
  value : Value → Value
  text : String → String

/-- Forgets the contents of texts, and nothing else. -/
def Erasure.contents : Erasure where
  value
    | .string _ => .string ""
    | v => v
  text _ := ""

def Piece.erase (e : Erasure) : Piece → Piece
  | .fixed text => .fixed text
  | .value slot v => .value slot (e.value v)
  | .key text => .key (e.text text)
  | .ident text => .ident (e.text text)

namespace Fragment

def erase (e : Erasure) (f : Fragment) : Fragment := f.map (Piece.erase e)

@[simp] theorem erase_nil (e : Erasure) : erase e [] = [] := rfl

@[simp] theorem erase_cons (e : Erasure) (p : Piece) (f : Fragment) :
    erase e (p :: f) = p.erase e :: erase e f := rfl

@[simp] theorem erase_append (e : Erasure) (f g : Fragment) :
    erase e (f ++ g) = erase e f ++ erase e g := List.map_append

theorem chars_map {style : Style} {g : Piece → Piece}
    (hg : ∀ p : Piece, (g p).chars style = p.chars style) (f : Fragment) :
    chars style (f.map g) = chars style f := by
  rw [chars, chars, List.flatMap_map]
  simp only [hg]

/-- What changes pieces, but no fixed text, changes the fragments between separators. -/
theorem map_join {g : Piece → Piece} (hg : ∀ text, g (.fixed text) = .fixed text) (sep : String)
    (fs : List Fragment) : (join sep fs).map g = join sep (fs.map (List.map g)) := by
  induction fs with
  | nil => rfl
  | cons f fs ih =>
    cases fs with
    | nil => simp [join, List.intercalate]
    | cons f' fs =>
      rw [join_cons_cons, List.map_append, List.map_cons, hg, ih]
      exact (join_cons_cons sep (f.map g) (f'.map g) (fs.map (List.map g))).symm

theorem erase_join (e : Erasure) (sep : String) (fs : List Fragment) :
    erase e (join sep fs) = join sep (fs.map (erase e)) :=
  map_join (fun _ => rfl) sep fs

end Fragment

def Atom.outline : Atom → Atom
  | .char c => .char c
  | .value slot v => .value slot (Erasure.contents.value v)
  | .client quote _ => .client quote ""

def Lexeme.outline : Lexeme → Lexeme
  | .bare c => .bare c
  | .quoted quote _ => .quoted quote ""
  | .value slot v => .value slot (Erasure.contents.value v)

theorem Fragment.atoms_erase (f : Fragment) :
    Fragment.atoms (Fragment.erase .contents f) = (Fragment.atoms f).map Atom.outline := by
  induction f with
  | nil => rfl
  | cons p f ih =>
    rw [erase_cons, atoms_cons, atoms_cons, List.map_append, ih]
    congr 1
    cases p with
    | fixed text => simp [Piece.erase, Piece.atoms, fixedAtoms, Atom.outline]
    | value slot v => rfl
    | key text => rfl
    | ident text => rfl

theorem Step.alike {s t t' : Stand} {a a' : Atom} {ls ls' : List Lexeme}
    (h : Step s a t ls) (h' : Step s a' t' ls') (hatom : a.outline = a'.outline) :
    t = t' ∧ ls.map Lexeme.outline = ls'.map Lexeme.outline := by
  cases a with
  | char c =>
    cases a' with
    | char c' =>
      obtain rfl := Atom.char.inj hatom
      cases h with
      | opens hc =>
        cases h' with
        | opens _ => exact ⟨rfl, rfl⟩
        | bare hc' => simp [isQuote_of_ordinary hc'] at hc
      | bare hc =>
        cases h' with
        | opens hc' => simp [isQuote_of_ordinary hc] at hc'
        | bare _ => exact ⟨rfl, rfl⟩
      | separates _ =>
        cases h'
        exact ⟨rfl, rfl⟩
      | continues hc =>
        cases h' with
        | continues _ => exact ⟨rfl, rfl⟩
        | closes _ => exact absurd rfl hc
      | closes _ =>
        cases h' with
        | continues hc => exact absurd rfl hc
        | closes _ => exact ⟨rfl, rfl⟩
    | value slot v => cases hatom
    | client quote text => cases hatom
  | value slot v =>
    cases a' with
    | value slot' v' =>
      obtain ⟨hslot, hvalue⟩ := Atom.value.inj hatom
      cases h
      cases h'
      exact ⟨rfl, by simp [Lexeme.outline, hslot, hvalue]⟩
    | char c => cases hatom
    | client quote text => cases hatom
  | client quote text =>
    cases a' with
    | client quote' text' =>
      obtain ⟨rfl, _⟩ := Atom.client.inj hatom
      cases h
      cases h'
      exact ⟨rfl, rfl⟩
    | char c => cases hatom
    | value slot v => cases hatom

theorem Walks.alike {s t t' : Stand} {as as' : List Atom} {ls ls' : List Lexeme}
    (h : Walks s as t ls) (h' : Walks s as' t' ls')
    (hatoms : as.map Atom.outline = as'.map Atom.outline) :
    ls.map Lexeme.outline = ls'.map Lexeme.outline := by
  induction h generalizing as' ls' with
  | nil s =>
    rw [List.map_nil, eq_comm, List.map_eq_nil_iff] at hatoms
    subst hatoms
    cases h'
    rfl
  | cons hstep _ ih =>
    cases h' with
    | nil => simp at hatoms
    | cons hstep' hwalks' =>
      obtain ⟨hatom, htail⟩ := List.cons.inj hatoms
      obtain ⟨rfl, hhead⟩ := hstep.alike hstep' hatom
      rw [List.map_append, List.map_append, hhead, ih hwalks' htail]

/-- The tokens of a lexeme, masked, do not show the contents of its text. -/
theorem Lexeme.mask_tokens_outline (style : Style) (l : Lexeme) :
    (l.outline.tokens style).map Token.mask = (l.tokens style).map Token.mask := by
  cases l with
  | bare c => rfl
  | quoted quote content => rfl
  | value slot v =>
    simp only [outline, tokens]
    cases style.mode with
    | parameterized => rfl
    | literal =>
      cases v with
      | string s => rfl
      | null | bool _ | number _ | array _ | object _ => rfl

theorem Lexeme.mask_tokens_congr {ls ls' : List Lexeme}
    (h : ls.map Lexeme.outline = ls'.map Lexeme.outline) (style : Style) :
    (ls.flatMap (Lexeme.tokens style)).map Token.mask =
      (ls'.flatMap (Lexeme.tokens style)).map Token.mask := by
  have hmask : ∀ ms : List Lexeme, (ms.flatMap (Lexeme.tokens style)).map Token.mask =
      (ms.map Lexeme.outline).flatMap fun l => (l.tokens style).map Token.mask := by
    intro ms
    rw [List.map_flatMap, List.flatMap_map]
    congr 1
    funext l
    exact (l.mask_tokens_outline style).symm
  rw [hmask ls, hmask ls', h]

/-- Fragments alike up to the contents of texts agree outside quotes. -/
theorem Fragment.outsideTexts_congr {f g : Fragment} (hf : Balanced f) (hg : Balanced g)
    (h : erase .contents f = erase .contents g) {style : Style} (hsafe : style.Safe) :
    (tokens? (text style f)).map outsideTexts = (tokens? (text style g)).map outsideTexts := by
  obtain ⟨t, ht, hsettled⟩ := hf
  obtain ⟨u, hu, husettled⟩ := hg
  obtain ⟨ls, hwalks⟩ := Walks.of_walk ht
  obtain ⟨ms, hwalks'⟩ := Walks.of_walk hu
  have hatoms : (atoms f).map Atom.outline = (atoms g).map Atom.outline := by
    rw [← atoms_erase, ← atoms_erase, h]
  have hmasks := Lexeme.mask_tokens_congr (hwalks.alike hwalks' hatoms) style
  rw [(Lexed.of_walks hwalks hsettled).tokens hsafe,
    (Lexed.of_walks hwalks' husettled).tokens hsafe, Option.map_some, Option.map_some,
    Sql.outsideTexts_congr hmasks]

end RecordSearch.Sql
