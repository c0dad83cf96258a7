import RecordSearch.Proofs.Literal
import RecordSearch.Proofs.Placeholder
import RecordSearch.Sql.Fragment

/-!
# Lexemes of a fragment

Between a fragment and its texts stand its lexemes: bare characters, quoted
regions and bound values. They do not depend on the style. When they are tidy,
every text that is written from them with quotes doubled is read back as exactly
them, and its placeholders are exactly its bound values.
-/
namespace RecordSearch.Sql

open Json (Value)

inductive Lexeme where
  | bare (c : Char)
  | quoted (quote : Char) (content : String)
  | value (slot : Nat) (v : Value)

namespace Lexeme

def chars (style : Style) : Lexeme → List Char
  | .bare c => [c]
  | .quoted quote content => Quoting.escaped.wrap quote content
  | .value slot v => (Piece.value slot v).chars style

def tokens (style : Style) : Lexeme → List Token
  | .bare c => [.bare c]
  | .quoted quote content => [.quoted quote content]
  | .value slot v =>
    match style.mode with
    | .literal => literalTokens v
    | .parameterized => (style.dialect.placeholder slot).map .bare

def mark : Lexeme → Mark
  | .bare c => .token (.bare c)
  | .quoted quote content => .token (.quoted quote content)
  | .value slot _ => .placeholder (slot + 1)

def slot? : Lexeme → Option (Nat × Value)
  | .value slot v => some (slot, v)
  | .bare _ | .quoted _ _ => none

end Lexeme

/-- A character of the compiler's own text outside quotes. -/
def ordinary (c : Char) : Bool := !isQuote c && c != '$' && c != '?'

/-- Whether a character may follow a region or a value without becoming a part of it. -/
def separates (c : Char) : Bool := ordinary c && !c.isDigit

def Apart : List Lexeme → Prop
  | [] => True
  | .bare c :: _ => separates c = true
  | .quoted _ _ :: _ | .value _ _ :: _ => False

/-- No region and no value touches the next one, and no character outside the
regions could be taken for a quote or for a placeholder. -/
inductive Tidy : List Lexeme → Prop
  | nil : Tidy []
  | bare {c : Char} {ls : List Lexeme} : ordinary c = true → Tidy ls → Tidy (.bare c :: ls)
  | quoted {quote : Char} {content : String} {ls : List Lexeme} :
      isQuote quote = true → Apart ls → Tidy ls → Tidy (.quoted quote content :: ls)
  | value {slot : Nat} {v : Value} {ls : List Lexeme} :
      Apart ls → Tidy ls → Tidy (.value slot v :: ls)

theorem isQuote_of_ordinary {c : Char} (h : ordinary c = true) : isQuote c = false := by
  simp only [ordinary, Bool.and_eq_true, Bool.not_eq_true'] at h
  exact h.1.1

theorem ordinary_of_separates {c : Char} (h : separates c = true) : ordinary c = true := by
  simp only [separates, Bool.and_eq_true] at h
  exact h.1

theorem ne_dollar_of_ordinary {c : Char} (h : ordinary c = true) : c ≠ '$' := by
  rintro rfl
  revert h
  decide

theorem ne_questionMark_of_ordinary {c : Char} (h : ordinary c = true) : c ≠ '?' := by
  rintro rfl
  revert h
  decide

theorem Apart.head?_chars_ne {ls : List Lexeme} (h : Apart ls) (style : Style) {quote : Char}
    (hquote : isQuote quote = true) :
    (ls.flatMap (Lexeme.chars style)).head? ≠ some quote := by
  match ls with
  | [] => simp
  | .bare c :: ls =>
    have hc := isQuote_of_ordinary (ordinary_of_separates h)
    have hne : c ≠ quote := by
      rintro rfl
      rw [hquote] at hc
      exact Bool.noConfusion hc
    simpa [Lexeme.chars] using hne
  | .quoted _ _ :: _ | .value _ _ :: _ => exact h.elim

theorem Apart.no_digit {ls : List Lexeme} (h : Apart ls) (style : Style) :
    (ls.flatMap (Lexeme.tokens style)).head?.bind Token.digit? = none := by
  match ls with
  | [] => rfl
  | .bare c :: ls =>
    have hc : c.isDigit = false := by
      have := (Bool.and_eq_true _ _ ▸ h : ordinary c = true ∧ (!c.isDigit) = true).2
      simpa using this
    simp [Lexeme.tokens, Token.digit?, hc]
  | .quoted _ _ :: _ | .value _ _ :: _ => exact h.elim

/-- Styles that never write the quotes of a client text as they are. -/
def Style.Safe (style : Style) : Prop := style.mode = .parameterized ∨ style.quoting = .escaped

theorem Style.Safe.inlineQuoting {style : Style} (h : style.Safe) :
    style.inlineQuoting = .escaped := by
  unfold Style.inlineQuoting
  rcases h with h | h
  · rw [h]
  · cases style.mode with
    | literal => exact h
    | parameterized => rfl

theorem isQuote_of_mem_placeholder (dialect : Dialect) (slot : Nat) :
    ∀ c ∈ dialect.placeholder slot, isQuote c = false := by
  intro c hc
  cases dialect with
  | plain =>
    obtain rfl := List.mem_singleton.1 hc
    decide
  | postgres =>
    rcases List.mem_cons.1 hc with rfl | hc
    · decide
    · exact isQuote_of_isNumeral (Json.isNumeral_of_mem_toDigits hc)

theorem read_value {style : Style} (hsafe : style.Safe) (slot : Nat) (v : Value)
    {rest : List Char} (hrest : rest.head? ≠ some singleQuote) :
    read .outside ((Lexeme.value slot v).chars style ++ rest) =
      (read .outside rest).map ((Lexeme.value slot v).tokens style ++ ·) := by
  simp only [Lexeme.chars, Lexeme.tokens, Piece.chars]
  cases hmode : style.mode with
  | parameterized => exact read_bare (isQuote_of_mem_placeholder style.dialect slot) rest
  | literal =>
    have hquoting : style.quoting = .escaped := by
      rcases hsafe with h | h
      · rw [hmode] at h
        exact RenderMode.noConfusion h
      · exact h
    rw [hquoting]
    exact read_literal v hrest

theorem Tidy.read {ls : List Lexeme} (h : Tidy ls) {style : Style} (hsafe : style.Safe) :
    read .outside (ls.flatMap (Lexeme.chars style)) =
      some (ls.flatMap (Lexeme.tokens style)) := by
  induction h with
  | nil => rfl
  | @bare c ls hc _ ih =>
    have hchar : ∀ d ∈ [c], isQuote d = false := by
      simpa using isQuote_of_ordinary hc
    rw [List.flatMap_cons, List.flatMap_cons]
    exact (read_bare hchar _).trans (by rw [ih]; rfl)
  | @quoted quote content ls hquote hapart _ ih =>
    rw [List.flatMap_cons, List.flatMap_cons]
    exact (read_wrap hquote content (hapart.head?_chars_ne style hquote)).trans
      (by rw [ih]; rfl)
  | @value slot v ls hapart _ ih =>
    rw [List.flatMap_cons, List.flatMap_cons,
      read_value hsafe slot v (hapart.head?_chars_ne style (by decide)), ih]
    rfl

/-- The style whose placeholders carry their numbers. -/
def numberedStyle (quoting : Quoting) : Style := ⟨.parameterized, quoting, .postgres⟩

def plainStyle (quoting : Quoting) : Style := ⟨.parameterized, quoting, .plain⟩

def literalStyle : Style := ⟨.literal, .escaped, .postgres⟩

theorem numberedStyle_safe (quoting : Quoting) : (numberedStyle quoting).Safe := .inl rfl

theorem plainStyle_safe (quoting : Quoting) : (plainStyle quoting).Safe := .inl rfl

theorem literalStyle_safe : literalStyle.Safe := .inr rfl

theorem Tidy.marks {ls : List Lexeme} (h : Tidy ls) (quoting : Quoting) :
    marks none (ls.flatMap (Lexeme.tokens (numberedStyle quoting))) = ls.map Lexeme.mark := by
  induction h with
  | nil => rfl
  | @bare c ls hc _ ih =>
    have hne : Token.bare c ≠ .bare '$' :=
      fun heq => ne_dollar_of_ordinary hc (Token.bare.inj heq)
    rw [List.flatMap_cons, List.map_cons, ← ih]
    exact marks_cons hne _
  | @quoted quote content ls _ _ _ ih =>
    rw [List.flatMap_cons, List.map_cons, ← ih]
    exact marks_cons Token.noConfusion _
  | @value slot v ls hapart _ ih =>
    rw [List.flatMap_cons, List.map_cons, ← ih]
    exact marks_placeholder (slot + 1) (hapart.no_digit (numberedStyle quoting))

/-- The placeholders stand for the bound values, slot by slot. -/
theorem Tidy.placeholders {ls : List Lexeme} (h : Tidy ls) (quoting : Quoting) :
    placeholders (ls.flatMap (Lexeme.tokens (numberedStyle quoting))) =
      (ls.filterMap Lexeme.slot?).map fun p => p.1 + 1 := by
  unfold Sql.placeholders
  rw [h.marks, List.filterMap_map, List.map_filterMap]
  congr 1
  funext l
  cases l <;> rfl

theorem Tidy.questionMarks {ls : List Lexeme} (h : Tidy ls) (quoting : Quoting) :
    questionMarks (ls.flatMap (Lexeme.tokens (plainStyle quoting))) =
      (ls.filterMap Lexeme.slot?).length := by
  unfold Sql.questionMarks
  induction h with
  | nil => rfl
  | @bare c ls hc _ ih =>
    have hne : Token.bare c ≠ .bare '?' :=
      fun heq => ne_questionMark_of_ordinary hc (Token.bare.inj heq)
    rw [List.flatMap_cons, List.count_append, ih]
    simp [Lexeme.tokens, Lexeme.slot?, List.filterMap_cons, hne]
  | @quoted quote content ls _ _ _ ih =>
    rw [List.flatMap_cons, List.count_append, ih]
    simp [Lexeme.tokens, Lexeme.slot?, List.filterMap_cons]
  | @value slot v ls _ _ ih =>
    rw [List.flatMap_cons, List.count_append, ih]
    simp [Lexeme.tokens, Lexeme.slot?, plainStyle, Dialect.placeholder, Nat.add_comm]

theorem Lexeme.unnumbered_mark (l : Lexeme) (quoting : Quoting) :
    l.mark.unnumbered = l.chars (plainStyle quoting) := by
  cases l <;> rfl

/-- Each placeholder filled with the literal of its value, the text is the
literal one. -/
theorem Lexeme.mapM_filled {ls : List Lexeme} {params : List Value}
    (hparams : ∀ p ∈ ls.filterMap Lexeme.slot?, params[p.1]? = some p.2) :
    (ls.map Lexeme.mark).mapM (Mark.filled params) =
      some (ls.map (Lexeme.chars literalStyle)) := by
  induction ls with
  | nil => rfl
  | cons l ls ih =>
    have htail := ih fun p hp => hparams p (by
      rw [List.filterMap_cons]
      cases l.slot? with
      | none => exact hp
      | some q => exact List.mem_cons_of_mem q hp)
    have hhead : l.mark.filled params = some (l.chars literalStyle) := by
      cases l with
      | bare c => rfl
      | quoted quote content => rfl
      | value slot v =>
        have hslot := hparams (slot, v) (by simp [Lexeme.slot?])
        simp only [Lexeme.mark, Mark.filled]
        rw [hslot]
        rfl
    rw [List.map_cons, List.mapM_cons, hhead, htail]
    rfl

end RecordSearch.Sql
