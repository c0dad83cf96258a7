import RecordSearch.Catalog.Template
import RecordSearch.Proofs.Lexeme

/-!
# Walks over fragments

A walk checks that the fixed text of a fragment opens and closes quotes only
around texts of the compiler's own, that the other pieces stand outside those
quotes, and that something other than a quote or a digit follows each of them.
It does not depend on the style or on what the client wrote. The lexemes that a
walk completes are tidy, and in every safe style they are the fragment's text.
-/
namespace RecordSearch.Sql

open Json (Value)

/-- A fragment cut into characters of fixed text and whole pieces of other kinds. -/
inductive Atom where
  | char (c : Char)
  | value (slot : Nat) (v : Value)
  /-- A text of the client between quotes. -/
  | client (quote : Char) (text : String)

def fixedAtoms (text : String) : List Atom := text.toList.map .char

def Piece.atoms : Piece → List Atom
  | .fixed text => fixedAtoms text
  | .value slot v => [.value slot v]
  | .key text => [.client singleQuote text]
  | .ident text => [.client doubleQuote text]

def Fragment.atoms (f : Fragment) : List Atom := f.flatMap Piece.atoms

@[simp] theorem Fragment.atoms_nil : Fragment.atoms [] = [] := rfl

@[simp] theorem Fragment.atoms_cons (p : Piece) (f : Fragment) :
    Fragment.atoms (p :: f) = p.atoms ++ Fragment.atoms f := by
  simp [Fragment.atoms]

@[simp] theorem Fragment.atoms_append (f g : Fragment) :
    Fragment.atoms (f ++ g) = Fragment.atoms f ++ Fragment.atoms g := by
  simp [Fragment.atoms]

/-- The quoted texts of the compiler itself: label sources, return types, the
separator of token indices and the payload column. -/
def ownRegions : List (Char × String) :=
  (Named.all : List LabelSource).map (fun source => (singleQuote, Named.name source)) ++
    [(singleQuote, "RETURN"), (singleQuote, "YIELD"), (singleQuote, "-"), (doubleQuote, "data")]

/-- Where a walk stands. After a region or a value, only a character that
separates may follow. -/
inductive Stand where
  | outside
  | apart
  | inside (quote : Char) (content : List Char)
  deriving DecidableEq

namespace Stand

def next : Stand → Atom → Option Stand
  | .outside, .char c =>
    if isQuote c then some (.inside c []) else if ordinary c then some .outside else none
  | .outside, .value _ _ | .outside, .client _ _ => some .apart
  | .apart, .char c => if separates c then some .outside else none
  | .apart, .value _ _ | .apart, .client _ _ => none
  | .inside quote content, .char c =>
    if c = quote then
      if (quote, String.ofList content) ∈ ownRegions then some .apart else none
    else some (.inside quote (content ++ [c]))
  | .inside _ _, .value _ _ | .inside _ _, .client _ _ => none

/-- A walk may end outside of regions only. -/
def settled : Stand → Bool
  | .outside | .apart => true
  | .inside _ _ => false

/-- What has been walked over of the region that a walk stands in. -/
def pending : Stand → List Char
  | .outside | .apart => []
  | .inside quote content => quote :: Quoting.escaped.inside quote content

end Stand

def walk : Stand → List Atom → Option Stand
  | s, [] => some s
  | s, a :: as =>
    match s.next a with
    | some t => walk t as
    | none => none

theorem walk_append (s : Stand) (as bs : List Atom) :
    walk s (as ++ bs) = (walk s as).bind fun t => walk t bs := by
  induction as generalizing s with
  | nil => rfl
  | cons a as ih =>
    rw [List.cons_append, walk, walk]
    cases s.next a with
    | none => rfl
    | some t => exact ih t

/-- One step of a walk with the lexeme that it completes, if it completes one. -/
inductive Step : Stand → Atom → Stand → List Lexeme → Prop
  | opens {c : Char} : isQuote c = true → Step .outside (.char c) (.inside c []) []
  | bare {c : Char} : ordinary c = true → Step .outside (.char c) .outside [.bare c]
  | separates {c : Char} : separates c = true → Step .apart (.char c) .outside [.bare c]
  | value (slot : Nat) (v : Value) : Step .outside (.value slot v) .apart [.value slot v]
  | client (quote : Char) (text : String) :
      Step .outside (.client quote text) .apart [.quoted quote text]
  | continues {quote c : Char} {content : List Char} : c ≠ quote →
      Step (.inside quote content) (.char c) (.inside quote (content ++ [c])) []
  | closes {quote : Char} {content : List Char} : (quote, String.ofList content) ∈ ownRegions →
      Step (.inside quote content) (.char quote) .apart [.quoted quote (String.ofList content)]

inductive Walks : Stand → List Atom → Stand → List Lexeme → Prop
  | nil (s : Stand) : Walks s [] s []
  | cons {s t u : Stand} {a : Atom} {as : List Atom} {ls ms : List Lexeme} :
      Step s a u ls → Walks u as t ms → Walks s (a :: as) t (ls ++ ms)

theorem Step.of_next {s t : Stand} {a : Atom} (h : s.next a = some t) :
    ∃ ls, Step s a t ls := by
  cases s with
  | outside =>
    cases a with
    | char c =>
      simp only [Stand.next] at h
      split at h
      next hc =>
        obtain rfl := Option.some.inj h
        exact ⟨_, .opens hc⟩
      next =>
        split at h
        next hc =>
          obtain rfl := Option.some.inj h
          exact ⟨_, .bare hc⟩
        next => cases h
    | value slot v =>
      obtain rfl := Option.some.inj h
      exact ⟨_, .value slot v⟩
    | client quote text =>
      obtain rfl := Option.some.inj h
      exact ⟨_, .client quote text⟩
  | apart =>
    cases a with
    | char c =>
      simp only [Stand.next] at h
      split at h
      next hc =>
        obtain rfl := Option.some.inj h
        exact ⟨_, .separates hc⟩
      next => cases h
    | value slot v => cases h
    | client quote text => cases h
  | inside quote content =>
    cases a with
    | char c =>
      simp only [Stand.next] at h
      split at h
      next hc =>
        obtain rfl := hc
        split at h
        next hmem =>
          obtain rfl := Option.some.inj h
          exact ⟨_, .closes hmem⟩
        next => cases h
      next hc =>
        obtain rfl := Option.some.inj h
        exact ⟨_, .continues hc⟩
    | value slot v => cases h
    | client quote text => cases h

theorem Walks.of_walk {s t : Stand} {as : List Atom} (h : walk s as = some t) :
    ∃ ls, Walks s as t ls := by
  induction as generalizing s with
  | nil =>
    obtain rfl := Option.some.inj h
    exact ⟨_, .nil s⟩
  | cons a as ih =>
    rw [walk] at h
    split at h
    next u hu =>
      obtain ⟨ls, hstep⟩ := Step.of_next hu
      obtain ⟨ms, hwalks⟩ := ih h
      exact ⟨_, .cons hstep hwalks⟩
    next => cases h

theorem isQuote_of_mem_ownRegions {quote : Char} {content : String}
    (h : (quote, content) ∈ ownRegions) : isQuote quote = true := by
  have hall : ∀ p ∈ ownRegions, isQuote p.1 = true := by decide
  exact hall _ h

/-- The marks around a text of the client are quotes. -/
def Atom.Wrapped : Atom → Prop
  | .client quote _ => isQuote quote = true
  | .char _ | .value _ _ => True

theorem Fragment.wrapped_of_mem_atoms {f : Fragment} {a : Atom} (h : a ∈ Fragment.atoms f) :
    a.Wrapped := by
  obtain ⟨p, _, ha⟩ := List.mem_flatMap.1 h
  cases p with
  | fixed text =>
    obtain ⟨c, _, rfl⟩ := List.mem_map.1 ha
    trivial
  | value slot v =>
    obtain rfl := List.mem_singleton.1 ha
    trivial
  | key text =>
    obtain rfl := List.mem_singleton.1 ha
    exact (by decide : isQuote singleQuote = true)
  | ident text =>
    obtain rfl := List.mem_singleton.1 ha
    exact (by decide : isQuote doubleQuote = true)

theorem Walks.tidy {s t : Stand} {as : List Atom} {ls : List Lexeme} (h : Walks s as t ls)
    (hwrapped : ∀ a ∈ as, a.Wrapped) :
    Tidy ls ∧ (s = .apart → Apart ls) := by
  induction h with
  | nil s => exact ⟨.nil, fun _ => trivial⟩
  | @cons s t u a as ls ms hstep _ ih =>
    obtain ⟨htidy, hapart⟩ := ih fun b hb => hwrapped b (by simp [hb])
    have ha := hwrapped a (by simp)
    cases hstep with
    | opens _ => exact ⟨htidy, fun hs => Stand.noConfusion hs⟩
    | bare hc => exact ⟨.bare hc htidy, fun hs => Stand.noConfusion hs⟩
    | separates hc => exact ⟨.bare (ordinary_of_separates hc) htidy, fun _ => hc⟩
    | value slot v => exact ⟨.value (hapart rfl) htidy, fun hs => Stand.noConfusion hs⟩
    | client quote text => exact ⟨.quoted ha (hapart rfl) htidy, fun hs => Stand.noConfusion hs⟩
    | continues _ => exact ⟨htidy, fun hs => Stand.noConfusion hs⟩
    | closes hmem =>
      exact ⟨.quoted (isQuote_of_mem_ownRegions hmem) (hapart rfl) htidy,
        fun hs => Stand.noConfusion hs⟩

def Atom.chars (style : Style) : Atom → List Char
  | .char c => [c]
  | .value slot v => (Piece.value slot v).chars style
  | .client quote text => style.inlineQuoting.wrap quote text

theorem Fragment.chars_eq_atoms (style : Style) (f : Fragment) :
    Fragment.chars style f = (Fragment.atoms f).flatMap (Atom.chars style) := by
  induction f with
  | nil => rfl
  | cons p f ih =>
    rw [Fragment.chars_cons, Fragment.atoms_cons, List.flatMap_append, ← ih]
    congr 1
    cases p <;> simp [Piece.chars, Piece.atoms, fixedAtoms, Atom.chars, List.flatMap_map]

/-- In a safe style, the lexemes are written as the atoms are. -/
theorem Walks.chars {style : Style} (hsafe : style.Safe) {s t : Stand} {as : List Atom}
    {ls : List Lexeme} (h : Walks s as t ls) (ht : t.settled = true) :
    ls.flatMap (Lexeme.chars style) = s.pending ++ as.flatMap (Atom.chars style) := by
  induction h with
  | nil s =>
    cases s with
    | outside => rfl
    | apart => rfl
    | inside quote content => simp [Stand.settled] at ht
  | cons hstep _ ih =>
    rw [List.flatMap_append, ih ht]
    cases hstep with
    | opens _ => simp [Stand.pending, Atom.chars, Quoting.inside]
    | bare _ => simp [Stand.pending, Atom.chars, Lexeme.chars]
    | separates _ => simp [Stand.pending, Atom.chars, Lexeme.chars]
    | value slot v => simp [Stand.pending, Atom.chars, Lexeme.chars]
    | client quote text =>
      simp [Stand.pending, Atom.chars, Lexeme.chars, hsafe.inlineQuoting]
    | continues hc => simp [Stand.pending, Atom.chars, inside_append, inside_singleton, hc]
    | closes _ => simp [Stand.pending, Atom.chars, Lexeme.chars, wrap_ofList]

def Atom.slot? : Atom → Option (Nat × Value)
  | .value slot v => some (slot, v)
  | .char _ | .client _ _ => none

theorem Walks.slots {s t : Stand} {as : List Atom} {ls : List Lexeme} (h : Walks s as t ls) :
    ls.filterMap Lexeme.slot? = as.filterMap Atom.slot? := by
  induction h with
  | nil s => rfl
  | cons hstep _ ih =>
    rw [List.filterMap_append, ih]
    cases hstep <;> rfl

/-- A region is the compiler's own or a whole text of the client. -/
theorem Walks.quoted {s t : Stand} {as : List Atom} {ls : List Lexeme} (h : Walks s as t ls)
    {quote : Char} {content : String} (hmem : .quoted quote content ∈ ls) :
    (quote, content) ∈ ownRegions ∨ .client quote content ∈ as := by
  induction h with
  | nil s => simp at hmem
  | cons hstep _ ih =>
    rcases List.mem_append.1 hmem with hmem | hmem
    · cases hstep with
      | client q text =>
        obtain ⟨rfl, rfl⟩ : quote = q ∧ content = text := by simpa using hmem
        exact .inr (by simp)
      | closes hown =>
        obtain ⟨rfl, rfl⟩ : quote = _ ∧ content = _ := by simpa using hmem
        exact .inl hown
      | opens _ | continues _ => simp at hmem
      | bare _ | separates _ | value _ _ => simp at hmem
    · rcases ih hmem with hown | hclient
      · exact .inl hown
      · exact .inr (List.mem_cons_of_mem _ hclient)

end RecordSearch.Sql
