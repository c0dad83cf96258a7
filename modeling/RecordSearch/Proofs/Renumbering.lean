import RecordSearch.Proofs.Shift
import RecordSearch.Proofs.Written

/-!
# Moving the numbers of placeholders

A text whose placeholders are numbered can be moved behind other values: every number
outside quotes grows by their count. For a balanced fragment this is the text of the
fragment with its positions moved. A column is copied as it is, and a condition can be
moved like that only if the column's own text is closed and has no placeholders.
-/
namespace RecordSearch.Sql

open Json (Value)

def Mark.moved (k : Nat) : Mark → List Char
  | .token t => t.spelling
  | .placeholder number => '$' :: Nat.toDigits 10 (number + k)

/-- A statement with every number of a placeholder outside quotes moved by `k`. -/
def renumber (k : Nat) (sql : String) : Option String :=
  (tokens? sql).map fun ts => String.ofList ((marks none ts).flatMap (Mark.moved k))

def Reader.opened? : Reader → Option Char
  | .outside => none
  | .inside quote _ | .closing quote _ => some quote

/-- What is closed can be read before what follows it, if that does not begin with a quote. -/
theorem read_append {r : Reader} (hr : ∀ c ∈ r.opened?, isQuote c = true) {cs : List Char}
    {ts : List Token} (h : read r cs = some ts) {rest : List Char}
    (hrest : ∀ c ∈ rest.head?, isQuote c = false) :
    read r (cs ++ rest) = (read .outside rest).map (ts ++ ·) := by
  -- A reader that closes a region goes on like one outside it, so that step is said once.
  induction cs generalizing r ts with
  | nil =>
    cases r with
    | outside =>
      obtain rfl := Option.some.inj h
      simp
    | inside quote content => cases h
    | closing quote content =>
      obtain rfl := Option.some.inj h
      refine read_closing (fun hhead => ?_) content
      have hquote := hr quote rfl
      rw [hrest quote hhead] at hquote
      cases hquote
  | cons c cs ih =>
    have hout : ∀ {us : List Token},
        (if isQuote c then read (.inside c []) cs
          else (read .outside cs).map (.bare c :: ·)) = some us →
        (if isQuote c then read (.inside c []) (cs ++ rest)
          else (read .outside (cs ++ rest)).map (.bare c :: ·)) =
            (read .outside rest).map (us ++ ·) := by
      intro us hus
      split at hus
      next hc =>
        rw [if_pos hc]
        exact ih (fun d hd => by cases hd; exact hc) hus
      next hc =>
        obtain ⟨vs, hvs, rfl⟩ := Option.map_eq_some_iff.1 hus
        rw [if_neg hc, ih (by simp [Reader.opened?]) hvs, Option.map_map]
        rfl
    rw [List.cons_append]
    cases r with
    | outside => exact hout h
    | inside quote content =>
      rw [read] at h ⊢
      split at h
      next hc => rw [if_pos hc, ih (by exact hr) h]
      next hc => rw [if_neg hc, ih (by exact hr) h]
    | closing quote content =>
      rw [read] at h ⊢
      split at h
      next hc => rw [if_pos hc, ih (by exact hr) h]
      next hc =>
        obtain ⟨us, hus, rfl⟩ := Option.map_eq_some_iff.1 h
        rw [if_neg hc]
        exact (congrArg (Option.map _) (hout hus)).trans (Option.map_map _ _ _)

/-- Marks do not reach over a token that is not a digit. -/
theorem marks_append {ts us : List Token} (h : us.head?.bind Token.digit? = none)
    (digits : Option (List Char)) :
    marks digits (ts ++ us) = marks digits ts ++ marks none us := by
  induction ts generalizing digits with
  | nil =>
    cases digits with
    | none => rfl
    | some digits => exact marks_some_of_no_digit h digits
  | cons t ts ih =>
    have hout : (if t = .bare '$' then marks (some []) (ts ++ us)
          else .token t :: marks none (ts ++ us)) =
        (if t = .bare '$' then marks (some []) ts else .token t :: marks none ts) ++
          marks none us := by
      split
      next => exact ih _
      next => rw [ih, List.cons_append]
    rw [List.cons_append]
    cases digits with
    | none => exact hout
    | some digits =>
      rw [marks, marks]
      split
      next => exact ih _
      next => rw [hout, List.cons_append]

theorem marks_eq_map {ts : List Token} :
    (placeholders ts = [] → marks none ts = ts.map .token) ∧
      ∀ digits, (marks (some digits) ts).filterMap Mark.number? = [] →
        digits = [] ∧ marks (some digits) ts = .token (.bare '$') :: ts.map .token := by
  -- A dollar is held back until its digits are read, so both states go through the induction.
  have hdollar : ∀ digits, (dollarMark digits).number? = none →
      digits = [] ∧ dollarMark digits = .token (.bare '$') := by
    intro digits h
    unfold dollarMark at h ⊢
    split at h
    next hdigits => exact ⟨hdigits, if_pos hdigits⟩
    next => cases h
  induction ts with
  | nil =>
    refine ⟨fun _ => rfl, fun digits h => ?_⟩
    obtain ⟨hdigits, hmark⟩ := hdollar digits (by simpa [marks] using h)
    exact ⟨hdigits, congrArg (fun m => [m]) hmark⟩
  | cons t ts ih =>
    obtain ⟨ihnone, ihsome⟩ := ih
    have hout : ((if t = .bare '$' then marks (some []) ts
          else .token t :: marks none ts).filterMap Mark.number? = []) →
        (if t = .bare '$' then marks (some []) ts else .token t :: marks none ts) =
          (t :: ts).map .token := by
      intro h
      split at h
      next ht => rw [if_pos ht, (ihsome [] h).2, ht, List.map_cons]
      next ht => rw [if_neg ht, ihnone h, List.map_cons]
    refine ⟨hout, fun digits h => ?_⟩
    rw [marks] at h ⊢
    split at h
    next c hc =>
      obtain ⟨hdigits, -⟩ := ihsome _ h
      simp at hdigits
    next hc =>
      have hmark : (dollarMark digits).number? = none := by
        cases hnumber : (dollarMark digits).number? with
        | none => rfl
        | some number =>
          rw [List.filterMap_cons, hnumber] at h
          cases h
      rw [List.filterMap_cons, hmark] at h
      obtain ⟨hdigits, hdollars⟩ := hdollar digits hmark
      exact ⟨hdigits, by rw [hdollars, hout h]⟩

def Atom.shift (k : Nat) : Atom → Atom
  | .char c => .char c
  | .value slot v => .value (slot + k) v
  | .client quote text => .client quote text

def Lexeme.shift (k : Nat) : Lexeme → Lexeme
  | .bare c => .bare c
  | .quoted quote content => .quoted quote content
  | .value slot v => .value (slot + k) v

theorem Step.shift (k : Nat) {s t : Stand} {a : Atom} {ls : List Lexeme} (h : Step s a t ls) :
    Step s (a.shift k) t (ls.map (Lexeme.shift k)) := by
  cases h with
  | opens hc => exact .opens hc
  | bare hc => exact .bare hc
  | separates hc => exact .separates hc
  | value slot v => exact .value (slot + k) v
  | client quote text => exact .client quote text
  | continues hc => exact .continues hc
  | closes hmem => exact .closes hmem

theorem Walks.shift (k : Nat) {s t : Stand} {as : List Atom} {ls : List Lexeme}
    (h : Walks s as t ls) : Walks s (as.map (Atom.shift k)) t (ls.map (Lexeme.shift k)) := by
  induction h with
  | nil s => exact .nil s
  | cons hstep _ ih =>
    rw [List.map_append]
    exact .cons (hstep.shift k) ih

theorem Lexeme.moved_mark (l : Lexeme) (k : Nat) (quoting : Quoting) :
    l.mark.moved k = (l.shift k).chars (numberedStyle quoting) := by
  cases l with
  | bare c => rfl
  | quoted quote content => rfl
  | value slot v =>
    rw [mark, Mark.moved, Nat.add_right_comm]
    rfl

namespace Fragment

theorem atoms_shift (k : Nat) (f : Fragment) :
    atoms (shift k f) = (atoms f).map (Atom.shift k) := by
  rw [atoms, atoms, shift, List.flatMap_map, List.map_flatMap]
  congr 1
  funext p
  cases p with
  | fixed text => simp [Piece.shift, Piece.atoms, fixedAtoms, Atom.shift]
  | value slot v => rfl
  | key text => rfl
  | ident text => rfl

/-- In a numbered text the placeholders count the positions of the fragment, and the text
with its numbers moved is that of the fragment with its positions moved. -/
def Numbered (f : Fragment) : Prop :=
  ∀ quoting,
    (∃ ts, tokens? (text (numberedStyle quoting) f) = some ts ∧
      placeholders ts = (slots f).map fun p => p.1 + 1) ∧
    ∀ k, renumber k (text (numberedStyle quoting) f) =
      some (text (numberedStyle quoting) (shift k f))

theorem Balanced.numbered {f : Fragment} (h : Balanced f) : Numbered f := by
  intro quoting
  refine ⟨h.placeholders_text quoting, fun k => ?_⟩
  obtain ⟨t, ht, hsettled⟩ := h
  obtain ⟨ls, hwalks⟩ := Walks.of_walk ht
  have hlexed := Lexed.of_walks hwalks hsettled
  have hmoved := hwalks.shift k
  rw [← atoms_shift] at hmoved
  have hlexed' := Lexed.of_walks hmoved hsettled
  rw [renumber, hlexed.tokens (numberedStyle_safe quoting), Option.map_some, hlexed.tidy.marks,
    text, hlexed'.chars _ (numberedStyle_safe quoting), List.flatMap_map, List.flatMap_map]
  simp only [Lexeme.moved_mark _ k quoting]

/-- The text of the fragment is closed, and no placeholder stands in it. -/
def Closed (f : Fragment) : Prop :=
  ∀ quoting, ∃ ts, tokens? (text (numberedStyle quoting) f) = some ts ∧ placeholders ts = []

theorem Balanced.closed {f : Fragment} (h : Balanced f) (hslots : slots f = []) : Closed f := by
  intro quoting
  obtain ⟨ts, hts, hnumbers⟩ := h.placeholders_text quoting
  exact ⟨ts, hts, by rw [hnumbers, hslots, List.map_nil]⟩

/-- A closed text does not disturb what follows it after a blank. -/
theorem Closed.numbered_append {f g : Fragment} (hf : Closed f) (hshift : ∀ k, shift k f = f)
    (hslots : slots f = []) (hg : Numbered g)
    (hblank : ∀ quoting, ∃ cs, chars (numberedStyle quoting) g = ' ' :: cs) :
    Numbered (f ++ g) := by
  intro quoting
  obtain ⟨ts, hts, hnone⟩ := hf quoting
  obtain ⟨⟨us, hus, hnumbers⟩, hmoved⟩ := hg quoting
  obtain ⟨cs, hcs⟩ := hblank quoting
  have htokens : tokens? (text (numberedStyle quoting) (f ++ g)) = some (ts ++ us) := by
    rw [tokens?] at hts hus ⊢
    have hrest : ∀ c ∈ (text (numberedStyle quoting) g).toList.head?, isQuote c = false := by
      rw [text, String.toList_ofList, hcs]
      intro c hc
      cases hc
      decide
    rw [text_append, String.toList_append,
      read_append (by simp [Reader.opened?]) hts hrest, hus, Option.map_some]
  have hfirst : us.head?.bind Token.digit? = none := by
    rw [tokens?, text, String.toList_ofList, hcs, read, if_neg (by decide)] at hus
    obtain ⟨vs, -, rfl⟩ := Option.map_eq_some_iff.1 hus
    rfl
  have hmarks : marks none (ts ++ us) = ts.map .token ++ marks none us := by
    rw [marks_append hfirst, marks_eq_map.1 hnone]
  refine ⟨⟨ts ++ us, htokens, ?_⟩, fun k => ?_⟩
  · have hplain : (ts.map Mark.token).filterMap Mark.number? = [] := by
      rw [← marks_eq_map.1 hnone]
      exact hnone
    rw [placeholders, hmarks, List.filterMap_append, hplain, slots_append, hslots]
    exact hnumbers
  · have hcopied : (ts.map Mark.token).flatMap (Mark.moved k) =
        (text (numberedStyle quoting) f).toList := by
      rw [List.flatMap_map]
      exact spelling_of_read hts
    have htail := hmoved k
    rw [renumber, hus, Option.map_some] at htail
    rw [renumber, htokens, Option.map_some, hmarks, List.flatMap_append, String.ofList_append,
      hcopied, String.ofList_toList, Option.some.inj htail, shift_append, hshift, text_append]

end Fragment

end RecordSearch.Sql

namespace RecordSearch

open Sql (Fragment)
open Sql.Binder (valuesAt)

/-- A column whose text can be copied in front of placeholders. -/
abbrev ColumnRef.Closed (c : ColumnRef) : Prop := Fragment.Closed c.fragment

theorem ColumnRef.closed_physical (t : TargetTable) (c : Column) :
    (ColumnRef.physical t.aliasName c.physical).Closed :=
  Fragment.Balanced.closed
    (Fragment.balancedFrom_fixed (Column.walk_physical t c) Fragment.balanced_nil) rfl

theorem ColumnRef.closed_payload (key : String) : (ColumnRef.payload "r" "data" key).Closed := by
  have htype : Fragment.Follows [.fixed "::TEXT"] :=
    Fragment.balancedFrom_fixed (by decide) Fragment.balanced_nil
  exact Fragment.Balanced.closed
    (Fragment.balancedFrom_fixed (by decide) (Fragment.balanced_key key htype)) rfl

theorem Operator.numbered_around (op : Operator) (n : Nat) (vs : List Json.Value) :
    Fragment.Numbered (op.around (valuesAt n vs)) :=
  (op.follows_around (Sql.balanced_valuesAt n vs)).balanced.numbered

theorem Predicate.numbered_layout {p : Predicate} (h : p.column.Closed) (n : Nat) :
    Fragment.Numbered (p.layout n) := by
  refine h.numbered_append (fun k => p.column.shift_fragment k) p.column.slots_fragment
    (p.operator.numbered_around n p.bound) fun quoting => ?_
  cases p.operator <;> exact ⟨_, rfl⟩

end RecordSearch
