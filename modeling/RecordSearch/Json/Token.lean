import RecordSearch.Json.Value
import RecordSearch.Number.Decimal
import RecordSearch.Number.Word

/-!
# JSON tokens

A text is cut into tokens from left to right. Where no token can be read the
list ends in a `broken` one, which says whether the text was cut short or is
malformed; nothing after that point is looked at.
-/
namespace RecordSearch.Json

inductive Fault where
  | cutShort
  | malformed
  deriving DecidableEq, Repr

inductive Token where
  | beginArray
  | endArray
  | beginObject
  | endObject
  | comma
  | colon
  | null
  | bool (b : Bool)
  | number (n : Number)
  | string (s : String)
  | broken (inString : Bool) (fault : Fault)
  deriving DecidableEq, Repr

def isSpace (c : Char) : Bool := c = ' ' || c = '\n' || c = '\t' || c = '\r'

def hexValue (c : Char) : Option Nat :=
  if '0' ≤ c ∧ c ≤ '9' then some (c.toNat - '0'.toNat)
  else if 'a' ≤ c ∧ c ≤ 'f' then some (c.toNat - 'a'.toNat + 10)
  else if 'A' ≤ c ∧ c ≤ 'F' then some (c.toNat - 'A'.toNat + 10)
  else none

def codeUnit (a b c d : Char) : Option Nat := do
  return ((← hexValue a) * 16 + (← hexValue b)) * 256 + (← hexValue c) * 16 + (← hexValue d)

def isLeading (n : Nat) : Bool := 0xD800 ≤ n && n < 0xDC00

def isTrailing (n : Nat) : Bool := 0xDC00 ≤ n && n < 0xE000

def joinSurrogates (lead trail : Nat) : Char :=
  Char.ofNat (0x10000 + (lead - 0xD800) * 0x400 + (trail - 0xDC00))

def shortEscape (c : Char) : Option Char :=
  if c = '"' ∨ c = '\\' ∨ c = '/' then some c
  else if c = 'b' then some '\x08'
  else if c = 'f' then some '\x0c'
  else if c = 'n' then some '\n'
  else if c = 'r' then some '\r'
  else if c = 't' then some '\t'
  else none

/-- Four bytes are taken for the digits of a code unit, whatever they are. -/
def digitsFault (rest : List Char) : Fault :=
  if (String.ofList rest).utf8ByteSize < 4 then .cutShort else .malformed

abbrev StringRead := Except Fault (List Char × List Char)

def StringRead.push (c : Char) : StringRead → StringRead
  | .ok (s, rest) => .ok (c :: s, rest)
  | .error f => .error f

theorem StringRead.push_eq_ok {c : Char} {r : StringRead} {s rest : List Char}
    (h : r.push c = .ok (s, rest)) : ∃ t, r = .ok (t, rest) ∧ s = c :: t := by
  cases r with
  | error f => simp [push] at h
  | ok p => obtain ⟨t, u⟩ := p; simp [push] at h; exact ⟨t, by simp [h.2], h.1.symm⟩

/-- The content of a string up to its closing quote, and the text after that. -/
def stringBody : List Char → StringRead
  | [] => .error .cutShort
  | '"' :: rest => .ok ([], rest)
  | '\\' :: rest =>
    match rest with
    | [] => .error .cutShort
    | 'u' :: a :: b :: c :: d :: rest =>
      match codeUnit a b c d with
      | none => .error .malformed
      | some lead =>
        if isTrailing lead then .error .malformed
        else if isLeading lead then
          match rest with
          | [] => .error .cutShort
          | '\\' :: [] => .error .cutShort
          | '\\' :: 'u' :: e :: f :: g :: h :: rest =>
            match codeUnit e f g h with
            | none => .error .malformed
            | some trail =>
              if isTrailing trail then (stringBody rest).push (joinSurrogates lead trail)
              else .error .malformed
          | '\\' :: 'u' :: rest => .error (digitsFault rest)
          | _ => .error .malformed
        else (stringBody rest).push (Char.ofNat lead)
    | 'u' :: rest => .error (digitsFault rest)
    | c :: rest =>
      match shortEscape c with
      | some d => (stringBody rest).push d
      | none => .error .malformed
  | c :: rest => if c.toNat < 0x20 then .error .malformed else (stringBody rest).push c

theorem stringBody_length {cs s rest : List Char} (h : stringBody cs = .ok (s, rest)) :
    rest.length ≤ cs.length := by
  fun_induction stringBody cs generalizing s
  all_goals first
    | (simp at h; done)
    | (rename_i ih
       obtain ⟨t, ht, -⟩ := StringRead.push_eq_ok h
       have := ih ht
       simp only [List.length_cons]
       omega)
    | (simp at h; simp [h])

def isDigit (c : Char) : Bool := '0' ≤ c && c ≤ '9'

def digitValue (c : Char) : Nat := c.toNat - '0'.toNat

/-- The first value that a significand cannot hold. -/
def significandLimit : Nat := Word.size 64

/-- Digits taken into the significand until one no longer fits, and the digits left. -/
def absorb (significand : Nat) : List Char → Nat × List Char
  | [] => (significand, [])
  | c :: rest =>
    let next := significand * 10 + digitValue c
    if next < significandLimit then absorb next rest else (significand, c :: rest)

def naturalValue (digits : List Char) : Nat :=
  digits.foldl (fun n c => n * 10 + digitValue c) 0

abbrev NumberRead := Except Fault (Number × List Char)

def missingDigit : List Char → Fault
  | [] => .cutShort
  | _ :: _ => .malformed

def realNumber (d : Decimal) (rest : List Char) : NumberRead :=
  match d.scaled with
  | some x => .ok (.real x, rest)
  | none => .error .malformed

/-- Whether a minus sign starts the exponent, and the text after the sign, if any. -/
def exponentSign : List Char → Bool × List Char
  | '+' :: rest => (false, rest)
  | '-' :: rest => (true, rest)
  | cs => (false, cs)

def Decimal.shift (d : Decimal) (down : Bool) (n : Nat) : Decimal :=
  { d with power := if down then d.power - n else d.power + n }

/-- After `e` or `E`: a sign, if any, and at least one digit. -/
def exponentPart (d : Decimal) (cs : List Char) : NumberRead :=
  let (down, cs) := exponentSign cs
  let digits := cs.takeWhile isDigit
  let rest := cs.dropWhile isDigit
  if digits.isEmpty then .error (missingDigit rest)
  else realNumber (Decimal.shift d down (naturalValue digits)) rest

/-- After the point: at least one digit. Digits that no longer fit are dropped. -/
def fractionPart (d : Decimal) (cs : List Char) : NumberRead :=
  let digits := cs.takeWhile isDigit
  let rest := cs.dropWhile isDigit
  if digits.isEmpty then .error (missingDigit rest)
  else
    let (significand, left) := absorb d.significand digits
    let d : Decimal :=
      { d with significand, power := d.power - ((digits.length : Int) - left.length) }
    match rest with
    | 'e' :: rest => exponentPart d rest
    | 'E' :: rest => exponentPart d rest
    | _ => realNumber d rest

/-- An integer that fits 64 bits stays one. The others and `-0` become reals. -/
def integerNumber (d : Decimal) (rest : List Char) : NumberRead :=
  if d.power ≠ 0 then realNumber d rest
  else if !d.negative then .ok (.int d.significand, rest)
  else if 0 < d.significand && Word.holdsSigned 64 (-d.significand) then
    .ok (.int (-d.significand), rest)
  else realNumber d rest

/-- A number after its sign. Integer digits that no longer fit the significand
count as a factor of ten each. -/
def unsignedNumber (negative : Bool) (cs : List Char) : NumberRead :=
  let digits := cs.takeWhile isDigit
  let rest := cs.dropWhile isDigit
  match digits with
  | [] => .error (missingDigit rest)
  | '0' :: _ :: _ => .error .malformed
  | _ =>
    let (significand, left) := absorb 0 digits
    let d : Decimal := ⟨negative, significand, left.length⟩
    match rest with
    | '.' :: rest => fractionPart d rest
    | 'e' :: rest => exponentPart d rest
    | 'E' :: rest => exponentPart d rest
    | _ => integerNumber d rest

def afterWord : List Char → List Char → Except Fault (List Char)
  | [], rest => .ok rest
  | _ :: _, [] => .error .cutShort
  | w :: word, c :: rest => if c = w then afterWord word rest else .error .malformed

inductive Step where
  | done
  | read (token : Token) (rest : List Char)
  | stuck (inString : Bool) (fault : Fault)
  deriving DecidableEq, Repr

def Step.ofWord (token : Token) : Except Fault (List Char) → Step
  | .ok rest => .read token rest
  | .error f => .stuck false f

def Step.ofNumber : NumberRead → Step
  | .ok (n, rest) => .read (.number n) rest
  | .error f => .stuck false f

def Step.ofString : StringRead → Step
  | .ok (s, rest) => .read (.string (String.ofList s)) rest
  | .error f => .stuck true f

def punctuation (c : Char) : Option Token :=
  if c = '[' then some .beginArray
  else if c = ']' then some .endArray
  else if c = '{' then some .beginObject
  else if c = '}' then some .endObject
  else if c = ',' then some .comma
  else if c = ':' then some .colon
  else none

def wordAt (c : Char) : Option (Token × List Char) :=
  if c = 'n' then some (.null, ['u', 'l', 'l'])
  else if c = 't' then some (.bool true, ['r', 'u', 'e'])
  else if c = 'f' then some (.bool false, ['a', 'l', 's', 'e'])
  else none

/-- The token at the start of a text that does not start with space. -/
def firstToken : List Char → Step
  | [] => .done
  | c :: rest =>
    match punctuation c, wordAt c with
    | some t, _ => .read t rest
    | none, some (t, letters) => Step.ofWord t (afterWord letters rest)
    | none, none =>
      if c = '"' then Step.ofString (stringBody rest)
      else if c = '-' then Step.ofNumber (unsignedNumber true rest)
      else if isDigit c then Step.ofNumber (unsignedNumber false (c :: rest))
      else .stuck false .malformed

theorem length_dropWhile_le (p : Char → Bool) (cs : List Char) :
    (cs.dropWhile p).length ≤ cs.length := (List.dropWhile_sublist p).length_le

theorem realNumber_rest {d : Decimal} {cs rest : List Char} {n : Number}
    (h : realNumber d cs = .ok (n, rest)) : rest = cs := by
  unfold realNumber at h; split at h <;> simp_all

theorem exponentSign_length (cs : List Char) : (exponentSign cs).2.length ≤ cs.length := by
  unfold exponentSign; split <;> simp

theorem exponentPart_length {d : Decimal} {cs rest : List Char} {n : Number}
    (h : exponentPart d cs = .ok (n, rest)) : rest.length ≤ cs.length := by
  have hs := exponentSign_length cs
  have hd := length_dropWhile_le isDigit (exponentSign cs).2
  unfold exponentPart at h
  simp only at h
  split at h
  · simp at h
  · have := realNumber_rest h; subst this; omega

theorem fractionPart_length {d : Decimal} {cs rest : List Char} {n : Number}
    (h : fractionPart d cs = .ok (n, rest)) : rest.length ≤ cs.length := by
  have hd := length_dropWhile_le isDigit cs
  unfold fractionPart at h
  simp only at h
  split at h
  · simp at h
  · split at h
    · rename_i hr; have := exponentPart_length h; simp [hr] at hd; omega
    · rename_i hr; have := exponentPart_length h; simp [hr] at hd; omega
    · have := realNumber_rest h; subst this; exact hd

theorem integerNumber_rest {d : Decimal} {cs rest : List Char} {n : Number}
    (h : integerNumber d cs = .ok (n, rest)) : rest = cs := by
  unfold integerNumber at h
  repeat' split at h
  all_goals first | exact realNumber_rest h | simp_all

theorem unsignedNumber_length {negative : Bool} {cs rest : List Char} {n : Number}
    (h : unsignedNumber negative cs = .ok (n, rest)) : rest.length < cs.length := by
  have hd : (cs.takeWhile isDigit).length + (cs.dropWhile isDigit).length = cs.length := by
    rw [← List.length_append, List.takeWhile_append_dropWhile]
  unfold unsignedNumber at h
  simp only at h
  split at h
  · simp at h
  · simp at h
  · rename_i hne _
    have hpos : 0 < (cs.takeWhile isDigit).length := List.length_pos_iff.mpr hne
    split at h
    · rename_i hr; have := fractionPart_length h; simp [hr] at hd; omega
    · rename_i hr; have := exponentPart_length h; simp [hr] at hd; omega
    · rename_i hr; have := exponentPart_length h; simp [hr] at hd; omega
    · have := integerNumber_rest h; subst this; omega

theorem afterWord_length {word cs rest : List Char} (h : afterWord word cs = .ok rest) :
    rest.length ≤ cs.length := by
  fun_induction afterWord word cs <;> grind

theorem firstToken_length {cs rest : List Char} {t : Token}
    (h : firstToken cs = .read t rest) : rest.length < cs.length := by
  cases cs with
  | nil => simp [firstToken] at h
  | cons c cs =>
    simp only [firstToken] at h
    have hw : ∀ {t' w}, Step.ofWord t' (afterWord w cs) = .read t rest →
        rest.length ≤ cs.length := by
      intro t' w hw
      cases ha : afterWord w cs <;> simp [ha, Step.ofWord] at hw
      have := afterWord_length ha; rw [← hw.2]; exact this
    have hn : ∀ {neg ds}, Step.ofNumber (unsignedNumber neg ds) = .read t rest →
        rest.length < ds.length := by
      intro neg ds hn
      cases ha : unsignedNumber neg ds <;> simp [ha, Step.ofNumber] at hn
      have := unsignedNumber_length ha; rw [← hn.2]; exact this
    have hs : Step.ofString (stringBody cs) = .read t rest → rest.length ≤ cs.length := by
      intro hs
      cases ha : stringBody cs <;> simp [ha, Step.ofString] at hs
      have := stringBody_length ha; rw [← hs.2]; exact this
    simp only [List.length_cons]
    repeat' split at h
    all_goals first
      | exact Nat.lt_succ_of_le (hs h)
      | exact Nat.lt_succ_of_le (hw h)
      | exact Nat.lt_succ_of_lt (hn h)
      | exact hn h
      | (simp only [Step.read.injEq] at h; rw [h.2]; omega)
      | simp at h

/-- The tokens of a text, up to the first place where none can be read. -/
def tokens (cs : List Char) : List Token :=
  match _h : firstToken (cs.dropWhile isSpace) with
  | .done => []
  | .read t rest => t :: tokens rest
  | .stuck s f => [.broken s f]
termination_by cs.length
decreasing_by
  have := firstToken_length _h
  have := length_dropWhile_le isSpace cs
  omega

end RecordSearch.Json
