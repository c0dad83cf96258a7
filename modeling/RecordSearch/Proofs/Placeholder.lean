import RecordSearch.Proofs.Reading

/-!
# Placeholders in a statement

Outside quotes, a dollar sign and the longest run of digits after it are a
numbered placeholder. A dollar sign without a digit is an ordinary character.
A question mark outside quotes is a placeholder without a number.
-/
namespace RecordSearch.Sql

open Json (Value)

inductive Mark where
  | token (t : Token)
  | placeholder (number : Nat)
  deriving DecidableEq, Repr

/-- What a dollar sign and the digits after it are. -/
def dollarMark (digits : List Char) : Mark :=
  if digits = [] then .token (.bare '$') else .placeholder (Nat.ofDigitChars 10 digits 0)

def Token.digit? : Token → Option Char
  | .bare c => if c.isDigit then some c else none
  | .quoted _ _ => none

/-- The marks of a list of tokens. After a dollar sign, `digits` are the digits
read so far. -/
def marks : Option (List Char) → List Token → List Mark
  | none, [] => []
  | some digits, [] => [dollarMark digits]
  | none, t :: ts => if t = .bare '$' then marks (some []) ts else .token t :: marks none ts
  | some digits, t :: ts =>
    match t.digit? with
    | some c => marks (some (digits ++ [c])) ts
    | none =>
      dollarMark digits ::
        if t = .bare '$' then marks (some []) ts else .token t :: marks none ts

def Mark.number? : Mark → Option Nat
  | .token _ => none
  | .placeholder number => some number

def placeholders (ts : List Token) : List Nat := (marks none ts).filterMap Mark.number?

def questionMarks (ts : List Token) : Nat := ts.count (.bare '?')

/-- A mark with the literal of its parameter in the place of a placeholder.
Parameters are counted from one. -/
def Mark.filled (params : List Value) : Mark → Option (List Char)
  | .token t => some t.spelling
  | .placeholder 0 => none
  | .placeholder (i + 1) => params[i]?.map (literal .escaped)

/-- A statement with every numbered placeholder outside quotes replaced by the
escaped literal of its parameter. All else stays as it is. -/
def fillPlaceholders (params : List Value) (sql : String) : Option String := do
  let ts ← tokens? sql
  let texts ← (marks none ts).mapM (Mark.filled params)
  return String.ofList texts.flatten

def Mark.unnumbered : Mark → List Char
  | .token t => t.spelling
  | .placeholder _ => ['?']

/-- A statement whose numbered placeholders outside quotes are question marks. -/
def unnumber (sql : String) : Option String :=
  (tokens? sql).map fun ts => String.ofList ((marks none ts).flatMap Mark.unnumbered)

theorem marks_digits {ds : List Char} (h : ∀ c ∈ ds, c.isDigit = true) (digits : List Char)
    (rest : List Token) :
    marks (some digits) (ds.map .bare ++ rest) = marks (some (digits ++ ds)) rest := by
  induction ds generalizing digits with
  | nil => simp
  | cons c ds ih =>
    have hc : c.isDigit = true := h c (by simp)
    have hds := ih fun d hd => h d (by simp [hd])
    simp [marks, Token.digit?, hc, hds]

theorem marks_some_of_no_digit {rest : List Token} (h : rest.head?.bind Token.digit? = none)
    (digits : List Char) :
    marks (some digits) rest = dollarMark digits :: marks none rest := by
  cases rest with
  | nil => rfl
  | cons t ts =>
    have ht : t.digit? = none := h
    simp only [marks, ht]

/-- A written placeholder is one mark, unless a digit follows. -/
theorem marks_placeholder (n : Nat) {rest : List Token}
    (h : rest.head?.bind Token.digit? = none) :
    marks none (('$' :: Nat.toDigits 10 n).map .bare ++ rest) =
      .placeholder n :: marks none rest := by
  have hdigits : ∀ c ∈ Nat.toDigits 10 n, c.isDigit = true :=
    fun c hc => Nat.isDigit_of_mem_toDigits (by decide) (by decide) hc
  have hrun := marks_digits hdigits [] rest
  rw [List.nil_append] at hrun
  rw [List.map_cons, List.cons_append, marks, if_pos rfl, hrun, marks_some_of_no_digit h,
    dollarMark, if_neg Nat.toDigits_ne_nil, Nat.ofDigitChars_ten_toDigits]

theorem marks_cons {t : Token} (h : t ≠ .bare '$') (ts : List Token) :
    marks none (t :: ts) = .token t :: marks none ts := by
  rw [marks, if_neg h]

end RecordSearch.Sql
