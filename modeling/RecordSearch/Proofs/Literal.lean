import RecordSearch.Proofs.Reading

/-!
# Reading literals

An escaped literal is read as the regions of its texts with bare characters
around them. An array is read item by item, so its nested arrays disappear; an
object is one region that holds its compact text. The decimal text of a number
has no quote.
-/
namespace RecordSearch

/-- The characters that numbers are written with. -/
def Json.isNumeral (c : Char) : Bool :=
  c.isDigit || c = '-' || c = '+' || c = '.' || c = 'e'

namespace Json

/-- The characters that numbers without an exponent are written with. -/
def isFixedPoint (c : Char) : Bool := c.isDigit || c = '-' || c = '.'

theorem isNumeral_of_isDigit {c : Char} (h : c.isDigit = true) : isNumeral c = true := by
  simp [isNumeral, h]

theorem isNumeral_of_isFixedPoint {c : Char} (h : isFixedPoint c = true) :
    isNumeral c = true := by
  simp only [isFixedPoint, Bool.or_eq_true, decide_eq_true_eq] at h
  rcases h with (h | rfl) | rfl
  · exact isNumeral_of_isDigit h
  · decide
  · decide

theorem isDigit_of_mem_decimal {n : Nat} {c : Char} (h : c ∈ Nat.toDigits 10 n) :
    c.isDigit = true :=
  Nat.isDigit_of_mem_toDigits (by decide) (by decide) h

theorem isNumeral_of_mem_toDigits {n : Nat} {c : Char} (h : c ∈ Nat.toDigits 10 n) :
    isNumeral c = true :=
  isNumeral_of_isDigit (isDigit_of_mem_decimal h)

theorem isFixedPoint_of_mem_positional {digits : List Char}
    (hdigits : ∀ c ∈ digits, isFixedPoint c = true) (power exponent : Int) :
    ∀ c ∈ Shortest.positional digits power exponent, isFixedPoint c = true := by
  have hzeros : ∀ n, ∀ c ∈ Shortest.zeros n, isFixedPoint c = true := by
    intro n c hc
    obtain rfl := List.eq_of_mem_replicate hc
    decide
  have htake : ∀ n, ∀ c ∈ digits.take n, isFixedPoint c = true :=
    fun n c hc => hdigits c (List.mem_of_mem_take hc)
  have hdrop : ∀ n, ∀ c ∈ digits.drop n, isFixedPoint c = true :=
    fun n c hc => hdigits c (List.mem_of_mem_drop hc)
  have hpoint : isFixedPoint '.' = true := by decide
  have hzero : isFixedPoint '0' = true := by decide
  unfold Shortest.positional
  intro c hc
  split at hc
  · simp only [List.mem_append, List.mem_cons, List.not_mem_nil, or_false] at hc
    rcases hc with (hc | hc) | rfl | rfl
    · exact hdigits c hc
    · exact hzeros _ c hc
    · exact hpoint
    · exact hzero
  · split at hc
    · simp only [List.mem_append, List.mem_cons] at hc
      rcases hc with hc | rfl | hc
      · exact htake _ c hc
      · exact hpoint
      · exact hdrop _ c hc
    · simp only [List.cons_append, List.mem_append, List.mem_cons] at hc
      rcases hc with rfl | rfl | hc | hc
      · exact hzero
      · exact hpoint
      · exact hzeros _ c hc
      · exact hdigits c hc

/-- A text that is written like a number without an exponent, up to the mark of its
exponent if it has one. There is no point after that mark. -/
def Numeric (text : List Char) : Prop :=
  ∃ front back, text = front ++ back ∧ (∀ c ∈ front, isFixedPoint c = true) ∧
    ∀ c ∈ back, isNumeral c = true ∧ c ≠ '.'

theorem numeric_of_isFixedPoint {text : List Char} (h : ∀ c ∈ text, isFixedPoint c = true) :
    Numeric text :=
  ⟨text, [], (List.append_nil text).symm, h, fun c hc => by cases hc⟩

theorem Numeric.negated {text : List Char} (h : Numeric text) : Numeric ('-' :: text) := by
  obtain ⟨front, back, rfl, hfront, hback⟩ := h
  exact ⟨'-' :: front, back, rfl, List.forall_mem_cons.2 ⟨by decide, hfront⟩, hback⟩

theorem numeric_scientific {digits : List Char} (hdigits : ∀ c ∈ digits, isFixedPoint c = true)
    (exponent : Int) : Numeric (Shortest.scientific digits exponent) := by
  refine ⟨_, _, rfl, ?_, ?_⟩
  · intro c hc
    split at hc
    next => cases hc
    next => exact hdigits c hc
    next d rest _ =>
      obtain ⟨hd, hrest⟩ := List.forall_mem_cons.1 hdigits
      rcases List.mem_cons.1 hc with rfl | hc
      · exact hd
      · exact List.forall_mem_cons.2 ⟨by decide, hrest⟩ c hc
  · refine List.forall_mem_cons.2 ⟨by decide, List.forall_mem_cons.2 ⟨?_, fun c hc => ?_⟩⟩
    · split <;> decide
    · refine ⟨isNumeral_of_mem_toDigits hc, ?_⟩
      rintro rfl
      cases isDigit_of_mem_decimal hc

theorem numeric_magnitudeText (x : Binary64) : Numeric (Shortest.magnitudeText x) := by
  unfold Shortest.magnitudeText
  have hdigits : ∀ c ∈ Nat.toDigits 10 (Shortest.numeral x).digits, isFixedPoint c = true :=
    fun c hc => by simp [isFixedPoint, isDigit_of_mem_decimal hc]
  split
  · exact numeric_of_isFixedPoint (List.all_eq_true.1 (by decide))
  · dsimp only
    split
    · exact numeric_of_isFixedPoint (isFixedPoint_of_mem_positional hdigits _ _)
    · exact numeric_scientific hdigits _

theorem Number.numeric_text (n : Number) : Numeric n.text := by
  have hnatural : ∀ m, Numeric (Nat.toDigits 10 m) := fun m =>
    numeric_of_isFixedPoint fun c hc => by simp [isFixedPoint, isDigit_of_mem_decimal hc]
  cases n with
  | int i =>
    cases i with
    | ofNat m => exact hnatural m
    | negSucc m => exact (hnatural (m + 1)).negated
  | real x =>
    simp only [Number.text, Shortest.text]
    split
    · exact (numeric_magnitudeText x).negated
    · exact numeric_magnitudeText x

/-- A number is written with digits, signs, a point and an exponent mark. -/
theorem isNumeral_of_mem_text (n : Number) : ∀ c ∈ n.text, isNumeral c = true := by
  obtain ⟨front, back, htext, hfront, hback⟩ := n.numeric_text
  rw [htext, List.forall_mem_append]
  exact ⟨fun c hc => isNumeral_of_isFixedPoint (hfront c hc), fun c hc => (hback c hc).1⟩

end Json

namespace Sql

open Json (Value)

theorem isQuote_of_isNumeral {c : Char} (h : Json.isNumeral c = true) : isQuote c = false := by
  cases hc : isQuote c with
  | false => rfl
  | true =>
    simp only [isQuote, Bool.or_eq_true, decide_eq_true_eq] at hc
    rcases hc with rfl | rfl <;> revert h <;> decide

mutual
/-- The tokens of an escaped literal. -/
def literalTokens : Value → List Token
  | .null => ['N', 'U', 'L', 'L'].map .bare
  | .bool b => (Json.boolText b).map .bare
  | .number n => n.text.map .bare
  | .string s => [.quoted singleQuote s]
  | .array [] => []
  | .array (v :: rest) => literalTokens v ++ literalTokensAfter rest
  | .object members => [.quoted singleQuote (Value.object members).compact]

def literalTokensAfter : List Value → List Token
  | [] => []
  | v :: rest => .bare ',' :: .bare ' ' :: literalTokens v ++ literalTokensAfter rest
end

theorem head?_literalsAfter_append (quoting : Quoting) (vs : List Value) {rest : List Char}
    (h : rest.head? ≠ some singleQuote) :
    (literalsAfter quoting vs ++ rest).head? ≠ some singleQuote := by
  cases vs with
  | nil => exact h
  | cons v vs => simp [literalsAfter, singleQuote]

mutual
theorem read_literal (v : Value) {rest : List Char} (h : rest.head? ≠ some singleQuote) :
    read .outside (literal .escaped v ++ rest) =
      (read .outside rest).map (literalTokens v ++ ·) := by
  match v with
  | .null =>
    have hquotes : ∀ c ∈ literal .escaped .null, isQuote c = false := by
      simp [literal, isQuote, singleQuote, doubleQuote]
    exact read_bare hquotes rest
  | .bool b =>
    have hquotes : ∀ c ∈ literal .escaped (.bool b), isQuote c = false := by
      cases b <;> simp [literal, Json.boolText, isQuote, singleQuote, doubleQuote]
    exact read_bare hquotes rest
  | .number n =>
    exact read_bare (fun c hc => isQuote_of_isNumeral (Json.isNumeral_of_mem_text n c hc)) rest
  | .string s =>
    simp only [literal, literalTokens]
    exact read_wrap (by decide) s h
  | .array [] => simp [literal, literalTokens]
  | .array (v :: vs) =>
    have hitem := read_literal v (head?_literalsAfter_append .escaped vs h)
    have hitems := read_literalsAfter vs h
    simp only [literal, literalTokens, List.append_assoc]
    rw [hitem, hitems, Option.map_map]
    rfl
  | .object members =>
    simp only [literal, literalTokens]
    exact read_wrap (by decide) _ h

theorem read_literalsAfter (vs : List Value) {rest : List Char}
    (h : rest.head? ≠ some singleQuote) :
    read .outside (literalsAfter .escaped vs ++ rest) =
      (read .outside rest).map (literalTokensAfter vs ++ ·) := by
  match vs with
  | [] => simp [literalsAfter, literalTokensAfter]
  | v :: vs =>
    have hcomma : isQuote ',' = false := by decide
    have hblank : isQuote ' ' = false := by decide
    have hitem := read_literal v (head?_literalsAfter_append .escaped vs h)
    have hitems := read_literalsAfter vs h
    simp only [literalsAfter, literalTokensAfter, List.cons_append, List.append_assoc]
    rw [read, hcomma, if_neg Bool.false_ne_true, read, hblank, if_neg Bool.false_ne_true,
      hitem, hitems]
    simp [Function.comp_def]
end

end Sql

end RecordSearch
