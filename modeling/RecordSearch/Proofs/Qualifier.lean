import RecordSearch.Proofs.Layout
import RecordSearch.Request.Check

/-!
# Names in front of a point

A column is qualified by the name in front of its point. These names are found by
a scan over the tokens of a text, so that points between quotes do not count, and
neither does the point of a number. The scan can be cut anywhere: what it finds
after the cut depends on the word that it stands in and on nothing else.
-/
namespace RecordSearch.Sql

open Json (Value)
open Binder (valuesAt)

def isNameChar (c : Char) : Bool := c.isAlphanum || c = '_'

/-- The word that a scan stands in. One that begins with a digit is not a name. -/
inductive Pending where
  | nothing
  | number
  | name (text : List Char)
  deriving DecidableEq, Repr

namespace Pending

def next : Pending → Token → Pending
  | _, .quoted quote content => if quote = doubleQuote then .name content.toList else .nothing
  | word, .bare c =>
    if isNameChar c then
      match word with
      | .nothing => if c.isDigit then .number else .name [c]
      | .number => .number
      | .name text => .name (text ++ [c])
    else .nothing

/-- The name that a point right after it makes a qualifier. -/
def qualifier? : Pending → Token → Option String
  | .name text, .bare c => if c = '.' then some (String.ofList text) else none
  | .name _, .quoted _ _ | .nothing, _ | .number, _ => none

end Pending

/-- The qualifiers that a scan finds from a word on. -/
def qualifiersFrom : Pending → List Token → List String
  | _, [] => []
  | word, t :: ts => (word.qualifier? t).toList ++ qualifiersFrom (word.next t) ts

/-- The names that qualify another one in a text, from left to right, if all its
quotes are closed. -/
def qualifiers? (sql : String) : Option (List String) :=
  (tokens? sql).map (qualifiersFrom .nothing)

theorem qualifiersFrom_append (word : Pending) (ts us : List Token) :
    qualifiersFrom word (ts ++ us) =
      qualifiersFrom word ts ++ qualifiersFrom (ts.foldl Pending.next word) us := by
  induction ts generalizing word with
  | nil => rfl
  | cons t ts ih =>
    rw [List.cons_append, qualifiersFrom, qualifiersFrom, ih, List.append_assoc, List.foldl_cons]

/-- A character that ends a word and does not make it a qualifier. -/
def endsWord (c : Char) : Bool := !isQuote c && !isNameChar c && c != '.'

/-- Whatever stands before them is not a part of the words of these tokens. -/
def Detached (ts : List Token) : Prop :=
  ∀ word, qualifiersFrom word ts = qualifiersFrom .nothing ts

theorem detached_bare {c : Char} (h : endsWord c = true) (ts : List Token) :
    Detached (.bare c :: ts) := by
  intro word
  simp only [endsWord, Bool.and_eq_true, Bool.not_eq_true', bne_iff_ne] at h
  obtain ⟨⟨-, hname⟩, hpoint⟩ := h
  cases word <;> simp [qualifiersFrom, Pending.qualifier?, Pending.next, hname, hpoint]

theorem Detached.after {us : List Token} (h : Detached us) (word : Pending) (ts : List Token) :
    qualifiersFrom word (ts ++ us) = qualifiersFrom word ts ++ qualifiersFrom .nothing us := by
  rw [qualifiersFrom_append, h]

theorem qualifiersFrom_of_pointless {cs : List Char} (h : '.' ∉ cs) (word : Pending) :
    qualifiersFrom word (cs.map .bare) = [] := by
  induction cs generalizing word with
  | nil => rfl
  | cons c cs ih =>
    rw [List.mem_cons, not_or] at h
    rw [List.map_cons, qualifiersFrom, ih h.2]
    cases word <;> simp [Pending.qualifier?, Ne.symm h.1]

def isName : List Char → Bool
  | [] => false
  | c :: cs => !c.isDigit && (c :: cs).all isNameChar

theorem foldl_next_name {cs : List Char} (h : cs.all isNameChar = true) (text : List Char) :
    (cs.map .bare).foldl Pending.next (.name text) = .name (text ++ cs) := by
  induction cs generalizing text with
  | nil => rw [List.append_nil]; rfl
  | cons c cs ih =>
    rw [List.all_cons, Bool.and_eq_true] at h
    rw [List.map_cons, List.foldl_cons, Pending.next, if_pos h.1, ih h.2, List.append_assoc,
      List.singleton_append]

theorem foldl_next_of_isName {cs : List Char} (h : isName cs = true) :
    (cs.map .bare).foldl Pending.next .nothing = .name cs := by
  cases cs with
  | nil => cases h
  | cons c cs =>
    simp only [isName, List.all_cons, Bool.and_eq_true, Bool.not_eq_true'] at h
    obtain ⟨hdigit, hc, hcs⟩ := h
    rw [List.map_cons, List.foldl_cons, Pending.next, if_pos hc]
    simp only [hdigit, Bool.false_eq_true, if_false]
    exact foldl_next_name hcs [c]

theorem isNameChar_of_mem {cs : List Char} (h : isName cs = true) :
    ∀ c ∈ cs, isNameChar c = true := by
  cases cs with
  | nil => exact fun c hc => by cases hc
  | cons c cs =>
    rw [isName, Bool.and_eq_true] at h
    exact List.all_eq_true.1 h.2

theorem pointless_of_isName {cs : List Char} (h : isName cs = true) : '.' ∉ cs := by
  intro hmem
  cases isNameChar_of_mem h '.' hmem

theorem isQuote_of_isNameChar {c : Char} (h : isNameChar c = true) : isQuote c = false := by
  cases hquote : isQuote c with
  | false => rfl
  | true =>
    simp only [isQuote, Bool.or_eq_true, decide_eq_true_eq] at hquote
    rcases hquote with rfl | rfl <;> cases h

/-- The name in front of a point is found, and nothing else if there is no other point. -/
theorem qualifiersFrom_qualified {name : String} (hname : isName name.toList = true)
    {rest : List Char} (hrest : '.' ∉ rest) :
    qualifiersFrom .nothing ((name.toList ++ '.' :: rest).map .bare) = [name] := by
  rw [List.map_append, qualifiersFrom_append, foldl_next_of_isName hname,
    qualifiersFrom_of_pointless (pointless_of_isName hname), List.map_cons, qualifiersFrom,
    qualifiersFrom_of_pointless hrest]
  simp [Pending.qualifier?]

theorem qualifiersFrom_of_isFixedPoint {cs : List Char}
    (h : ∀ c ∈ cs, Json.isFixedPoint c = true) {word : Pending}
    (hword : ∀ text, word ≠ .name text) : qualifiersFrom word (cs.map .bare) = [] := by
  induction cs generalizing word with
  | nil => rfl
  | cons c cs ih =>
    obtain ⟨hc, hcs⟩ := List.forall_mem_cons.1 h
    have hfirst : word.qualifier? (.bare c) = none := by
      cases word with
      | nothing | number => rfl
      | name text => exact absurd rfl (hword text)
    have hnext : ∀ text, word.next (.bare c) ≠ .name text := by
      intro text hname
      simp only [Json.isFixedPoint, Bool.or_eq_true, decide_eq_true_eq] at hc
      rcases hc with (hdigit | rfl) | rfl
      · have hchar : isNameChar c = true := by simp [isNameChar, Char.isAlphanum, hdigit]
        cases word with
        | nothing | number => simp [Pending.next, hchar, hdigit] at hname
        | name text => exact hword text rfl
      · cases hname
      · cases hname
    rw [List.map_cons, qualifiersFrom, hfirst, ih hcs hnext]
    rfl

/-- The point of a number follows digits, and after its exponent mark there is none. -/
theorem qualifiersFrom_of_numeric {cs : List Char} (h : Json.Numeric cs) :
    qualifiersFrom .nothing (cs.map .bare) = [] := by
  obtain ⟨front, back, rfl, hfront, hback⟩ := h
  rw [List.map_append, qualifiersFrom_append,
    qualifiersFrom_of_isFixedPoint hfront fun _ => Pending.noConfusion,
    qualifiersFrom_of_pointless fun hmem => (hback _ hmem).2 rfl]
  rfl

/-- A scalar holds no qualifier, spelled out or not. -/
theorem qualifiersFrom_value {v : Value} (hscalar : v.isScalar = true) (style : Style)
    (slot : Nat) : qualifiersFrom .nothing ((Lexeme.value slot v).tokens style) = [] := by
  simp only [Lexeme.tokens]
  cases style.mode with
  | literal =>
    cases v with
    | string s => rfl
    | bool b => cases b <;> rfl
    | number n => exact qualifiersFrom_of_numeric n.numeric_text
    | null | array _ | object _ => cases hscalar
  | parameterized =>
    cases style.dialect with
    | plain => rfl
    | postgres =>
      refine qualifiersFrom_of_pointless (fun hmem => ?_) _
      rcases List.mem_cons.1 hmem with hdollar | hdigit
      · cases hdollar
      · cases Json.isDigit_of_mem_decimal hdigit

namespace Fragment

/-- A scan that enters the text of a fragment in a word finds these qualifiers in it. -/
def Qualifies (style : Style) (word : Pending) (f : Fragment) (names : List String) : Prop :=
  ∃ ts, read .outside (chars style f) = some ts ∧ qualifiersFrom word ts = names

/-- The text of a fragment begins with a character that ends words, if it has any. -/
def Breaks (style : Style) (f : Fragment) : Prop := ∀ c ∈ (chars style f).head?, endsWord c = true

variable {style : Style} {word : Pending} {f : Fragment} {names : List String}

theorem Qualifies.qualifiers?_text (h : Qualifies style .nothing f names) :
    qualifiers? (text style f) = some names := by
  obtain ⟨ts, hread, rfl⟩ := h
  rw [qualifiers?, tokens?, text, String.toList_ofList, hread]
  rfl

theorem qualifies_nil (style : Style) (word : Pending) : Qualifies style word [] [] :=
  ⟨[], rfl, rfl⟩

theorem breaks_nil (style : Style) : Breaks style [] := fun _ hc => by cases hc

theorem breaks_fixed {text : String} (h : text.toList.head?.any endsWord = true)
    (f : Fragment) : Breaks style (.fixed text :: f) := by
  intro c hc
  rw [chars_cons, Piece.chars] at hc
  cases hchars : text.toList with
  | nil =>
    rw [hchars] at h
    cases h
  | cons d ds =>
    rw [hchars] at h hc
    exact Option.some.inj hc ▸ h

theorem Breaks.head?_ne (h : Breaks style f) {quote : Char} (hquote : isQuote quote = true) :
    (chars style f).head? ≠ some quote := by
  intro hhead
  have hends := h quote hhead
  rw [endsWord, hquote] at hends
  cases hends

/-- What breaks off the word before it can be entered in any word. -/
theorem Qualifies.of_breaks (h : Qualifies style .nothing f names) (hbreaks : Breaks style f)
    (word : Pending) : Qualifies style word f names := by
  obtain ⟨ts, hread, rfl⟩ := h
  refine ⟨ts, hread, ?_⟩
  cases hchars : chars style f with
  | nil =>
    rw [hchars] at hread
    obtain rfl := Option.some.inj hread
    rfl
  | cons c cs =>
    have hends : endsWord c = true := hbreaks c (by rw [hchars]; rfl)
    have hquote : isQuote c = false := by
      simp only [endsWord, Bool.and_eq_true, Bool.not_eq_true'] at hends
      exact hends.1.1
    rw [hchars, read, hquote, if_neg Bool.false_ne_true] at hread
    obtain ⟨us, -, rfl⟩ := Option.map_eq_some_iff.1 hread
    exact detached_bare hends us word

theorem qualifies_fixed {text : String} (htext : text.toList.any isQuote = false)
    (hf : Qualifies style ((text.toList.map .bare).foldl Pending.next word) f names) :
    Qualifies style word (.fixed text :: f)
      (qualifiersFrom word (text.toList.map .bare) ++ names) := by
  obtain ⟨ts, hread, rfl⟩ := hf
  refine ⟨text.toList.map .bare ++ ts, ?_, qualifiersFrom_append _ _ _⟩
  rw [chars_cons, Piece.chars, read_bare (by simpa using htext), hread]
  rfl

theorem qualifies_qualified {text name : String} {rest : List Char}
    (htext : text.toList = name.toList ++ '.' :: rest) (hname : isName name.toList = true)
    (hrest : rest.all (fun c => !isQuote c && c != '.') = true)
    (hf : Qualifies style .nothing f names) (hbreaks : Breaks style f) :
    Qualifies style .nothing (.fixed text :: f) (name :: names) := by
  simp only [List.all_eq_true, Bool.and_eq_true, Bool.not_eq_true', bne_iff_ne] at hrest
  have hquotes : text.toList.any isQuote = false := by
    rw [htext, List.any_append, List.any_cons, Bool.or_eq_false_iff, Bool.or_eq_false_iff]
    refine ⟨?_, rfl, ?_⟩
    · simpa using fun c hc => isQuote_of_isNameChar (isNameChar_of_mem hname c hc)
    · simpa using fun c hc => (hrest c hc).1
  have hfound : Qualifies style .nothing (.fixed text :: f)
      (qualifiersFrom .nothing (text.toList.map .bare) ++ names) :=
    qualifies_fixed hquotes (hf.of_breaks hbreaks _)
  rw [htext, qualifiersFrom_qualified hname fun hmem => (hrest '.' hmem).2 rfl] at hfound
  exact hfound

theorem qualifies_wrap {quote : Char} (hquote : isQuote quote = true) {content : String}
    {p : Piece} (hp : p.chars style = Quoting.escaped.wrap quote content) (word : Pending)
    (hf : Qualifies style .nothing f names) (hbreaks : Breaks style f) :
    Qualifies style word (p :: f) names := by
  obtain ⟨ts, hread, rfl⟩ := hf.of_breaks hbreaks (word.next (.quoted quote content))
  refine ⟨.quoted quote content :: ts, ?_, ?_⟩
  · rw [chars_cons, hp, read_wrap hquote content (hbreaks.head?_ne hquote), hread]
    rfl
  · cases word <;> rfl

theorem qualifies_key (hsafe : style.Safe) (text : String) (word : Pending)
    (hf : Qualifies style .nothing f names) (hbreaks : Breaks style f) :
    Qualifies style word (.key text :: f) names := by
  have hquote : isQuote singleQuote = true := by decide
  exact qualifies_wrap hquote (by rw [Piece.chars, hsafe.inlineQuoting]) word hf hbreaks

theorem qualifies_ident (hsafe : style.Safe) (text : String) (word : Pending)
    (hf : Qualifies style .nothing f names) (hbreaks : Breaks style f) :
    Qualifies style word (.ident text :: f) names := by
  have hquote : isQuote doubleQuote = true := by decide
  exact qualifies_wrap hquote (by rw [Piece.chars, hsafe.inlineQuoting]) word hf hbreaks

theorem qualifies_value (hsafe : style.Safe) {v : Value} (hscalar : v.isScalar = true)
    (slot : Nat) (hf : Qualifies style .nothing f names) (hbreaks : Breaks style f) :
    Qualifies style .nothing (.value slot v :: f) names := by
  obtain ⟨ts, hread, rfl⟩ := hf
  have hdetached : Detached ts := by
    intro word
    obtain ⟨us, hus, hnames⟩ := Qualifies.of_breaks ⟨ts, hread, rfl⟩ hbreaks word
    obtain rfl := Option.some.inj (hread.symm.trans hus)
    exact hnames
  refine ⟨(Lexeme.value slot v).tokens style ++ ts, ?_, ?_⟩
  · have hquote : isQuote singleQuote = true := by decide
    have hvalue := read_value hsafe slot v (hbreaks.head?_ne hquote)
    rw [chars_cons]
    exact hvalue.trans (by rw [hread]; rfl)
  · rw [hdetached.after, qualifiersFrom_value hscalar]
    rfl

theorem qualifies_valuesAt (hsafe : style.Safe) {vs : List Value}
    (hscalars : ∀ v ∈ vs, v.isScalar = true) (n : Nat) (hf : Qualifies style .nothing f names)
    (hbreaks : Breaks style f) : Qualifies style .nothing (valuesAt n vs ++ f) names := by
  induction vs generalizing n with
  | nil => exact hf
  | cons v vs ih =>
    obtain ⟨hv, hvs⟩ := List.forall_mem_cons.1 hscalars
    cases vs with
    | nil => exact qualifies_value hsafe hv n hf hbreaks
    | cons w vs =>
      rw [valuesAt_cons_cons]
      exact qualifies_value hsafe hv n (qualifies_fixed (by decide) (ih hvs (n + 1)))
        (breaks_fixed (by decide) _)

end Fragment

end RecordSearch.Sql
