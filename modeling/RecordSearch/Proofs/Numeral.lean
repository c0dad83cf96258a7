import Mathlib.Data.List.Induction
import RecordSearch.Json.Token

/-!
# Integers in JSON text

An integer token is the decimal numeral of an integer that fits 64 bits, and
every such numeral is read as its integer. A plus sign, a zero in front, a
fraction or an exponent makes no integer, not even where its value is one:
main statement `firstToken_eq_int_iff`.
-/
namespace RecordSearch.Json

/-- The characters that go on with an integer, or make a real of it. -/
def extendsInteger (c : Char) : Bool := isDigit c || c = '.' || c = 'e' || c = 'E'

/-- What follows an integer does not belong to it. -/
def EndsInteger (rest : List Char) : Prop := ∀ c ∈ rest.head?, extendsInteger c = false

theorem EndsInteger.cons {c : Char} (h : extendsInteger c = false) (rest : List Char) :
    EndsInteger (c :: rest) := by
  simpa [EndsInteger] using h

theorem EndsInteger.isDigit_head {rest : List Char} (h : EndsInteger rest) :
    ∀ c ∈ rest.head?, isDigit c = false := by
  intro c hc
  have hno := h c hc
  simp only [extendsInteger, Bool.or_eq_false_iff] at hno
  exact hno.1.1.1

theorem isDigit_iff {c : Char} : isDigit c = true ↔ 48 ≤ c.toNat ∧ c.toNat ≤ 57 := by
  simp only [isDigit, Bool.and_eq_true, decide_eq_true_eq, Char.le_def, UInt32.le_iff_toNat_le]
  rfl

theorem digitValue_lt {c : Char} (h : isDigit c = true) : digitValue c < 10 := by
  have hc := isDigit_iff.mp h
  change c.toNat - 48 < 10
  omega

theorem digitChar_digitValue {c : Char} (h : isDigit c = true) :
    Nat.digitChar (digitValue c) = c := by
  have hc := isDigit_iff.mp h
  apply Char.toNat_inj.mp
  rw [Nat.toNat_digitChar_of_lt_ten (digitValue_lt h)]
  change 48 + (c.toNat - 48) = c.toNat
  omega

theorem isDigit_of_mem_toDigits {n : Nat} : ∀ c ∈ Nat.toDigits 10 n, isDigit c = true := by
  intro c hc
  have h := Nat.isDigit_of_mem_toDigits (by decide) (by decide) hc
  simpa [isDigit, Char.isDigit, Char.le_def] using h

theorem naturalValue_toDigits (n : Nat) : naturalValue (Nat.toDigits 10 n) = n := by
  have h := Nat.ofDigitChars_ten_toDigits (n := n)
  simpa [naturalValue, Nat.ofDigitChars, digitValue, Nat.mul_comm] using h

theorem naturalValue_append_digit (ds : List Char) (c : Char) :
    naturalValue (ds ++ [c]) = 10 * naturalValue ds + digitValue c := by
  simp [naturalValue, Nat.mul_comm]

/-- A run of digits without a zero in front, unless it is the zero. -/
def NoLeadingZero (ds : List Char) : Prop := ∀ d rest, ds ≠ '0' :: d :: rest

theorem NoLeadingZero.of_append {ds : List Char} {c : Char} (h : NoLeadingZero (ds ++ [c])) :
    NoLeadingZero ds := by
  rintro d rest rfl
  exact h d (rest ++ [c]) rfl

theorem noLeadingZero_toDigits (n : Nat) : NoLeadingZero (Nat.toDigits 10 n) := by
  induction n using Nat.base_induction 10 (by decide) with
  | single m hm =>
    intro d rest h
    rw [Nat.toDigits_of_lt_base hm] at h
    simp at h
  | digit m k hk hm ih =>
    intro d rest h
    rw [← Nat.toDigits_append_toDigits (by decide) hm hk] at h
    cases hds : Nat.toDigits 10 m with
    | nil => exact Nat.toDigits_ne_nil hds
    | cons e es =>
      rw [hds, List.cons_append, List.cons.injEq] at h
      obtain ⟨rfl, hrest⟩ := h
      cases es with
      | cons f fs => exact ih f fs hds
      | nil =>
        have hzero := naturalValue_toDigits m
        rw [hds] at hzero
        exact Nat.ne_of_gt hm hzero.symm

/-- A run of digits without a zero in front is the numeral of its value. -/
theorem toDigits_naturalValue {ds : List Char} (hne : ds ≠ []) (hd : ∀ c ∈ ds, isDigit c = true)
    (hz : NoLeadingZero ds) : Nat.toDigits 10 (naturalValue ds) = ds := by
  induction ds using List.reverseRecOn with
  | nil => exact absurd rfl hne
  | append_singleton ds c ih =>
    have hc : isDigit c = true := hd c (by simp)
    rw [naturalValue_append_digit]
    cases ds with
    | nil =>
      have hvalue : 10 * naturalValue [] + digitValue c = digitValue c := by simp [naturalValue]
      rw [hvalue, Nat.toDigits_of_lt_base (digitValue_lt hc), digitChar_digitValue hc]
      rfl
    | cons d ds =>
      have hfront := ih (by simp) (fun x hx => hd x (List.mem_append_left [c] hx)) hz.of_append
      have hpos : 0 < naturalValue (d :: ds) := by
        refine Nat.pos_of_ne_zero fun hzero => ?_
        rw [hzero, Nat.toDigits_zero, List.cons.injEq] at hfront
        obtain ⟨rfl, rfl⟩ := hfront
        exact hz c [] rfl
      rw [← Nat.toDigits_append_toDigits (by decide) hpos (digitValue_lt hc), hfront,
        Nat.toDigits_of_lt_base (digitValue_lt hc), digitChar_digitValue hc]

theorem takeWhile_digits {ds rest : List Char} (hd : ∀ c ∈ ds, isDigit c = true)
    (hr : ∀ c ∈ rest.head?, isDigit c = false) :
    (ds ++ rest).takeWhile isDigit = ds ∧ (ds ++ rest).dropWhile isDigit = rest := by
  have hrest : rest.takeWhile isDigit = [] ∧ rest.dropWhile isDigit = rest := by
    cases rest with
    | nil => exact ⟨rfl, rfl⟩
    | cons c rest =>
      have hc := hr c rfl
      simp [hc]
  rw [List.takeWhile_append_of_pos hd, List.dropWhile_append_of_pos hd, hrest.1, hrest.2]
  simp

theorem le_foldl_digits (n : Nat) (ds : List Char) :
    n ≤ ds.foldl (fun n c => n * 10 + digitValue c) n := by
  induction ds generalizing n with
  | nil => exact Nat.le_refl n
  | cons c ds ih =>
    have hstep := ih (n * 10 + digitValue c)
    simp only [List.foldl_cons]
    omega

/-- All digits go into a significand exactly if their value is below the limit. -/
theorem absorb_eq_nil_iff {n m : Nat} (hn : n < significandLimit) (ds : List Char) :
    absorb n ds = (m, []) ↔
      m = ds.foldl (fun n c => n * 10 + digitValue c) n ∧ m < significandLimit := by
  induction ds generalizing n with
  | nil => simp [absorb]; omega
  | cons c ds ih =>
    simp only [absorb, List.foldl_cons]
    split
    next hnext => exact ih hnext
    next hnext =>
      have hle := le_foldl_digits (n * 10 + digitValue c) ds
      simp only [Prod.mk.injEq, reduceCtorEq, and_false, false_iff, not_and]
      omega

theorem realNumber_ne_int {d : Decimal} {cs rest : List Char} {i : Int} :
    realNumber d cs ≠ .ok (.int i, rest) := by
  unfold realNumber
  split <;> simp

theorem exponentPart_ne_int {d : Decimal} {cs rest : List Char} {i : Int} :
    exponentPart d cs ≠ .ok (.int i, rest) := by
  unfold exponentPart
  simp only
  split
  · simp
  · exact realNumber_ne_int

theorem fractionPart_ne_int {d : Decimal} {cs rest : List Char} {i : Int} :
    fractionPart d cs ≠ .ok (.int i, rest) := by
  unfold fractionPart
  simp only
  split
  · simp
  · split
    · exact exponentPart_ne_int
    · exact exponentPart_ne_int
    · exact realNumber_ne_int

/-- Where the integer with these digits after this sign fits 64 bits, it is `i`. -/
def IsSigned (negative : Bool) (n : Nat) (i : Int) : Prop :=
  if negative then 0 < n ∧ Word.holdsSigned 64 (-n) = true ∧ i = -n else i = n

theorem integerNumber_eq_int_iff {negative : Bool} {n : Nat} {power : Int} {cs rest : List Char}
    {i : Int} :
    integerNumber ⟨negative, n, power⟩ cs = .ok (.int i, rest) ↔
      power = 0 ∧ rest = cs ∧ IsSigned negative n i := by
  unfold integerNumber
  split
  next hpower => simp [realNumber_ne_int, hpower]
  next hpower =>
    have hzero : power = 0 := not_not.mp hpower
    split
    next hplus =>
      have hsign : negative = false := by simpa using hplus
      simp [IsSigned, hzero, hsign, and_comm, eq_comm]
    next hminus =>
      have hsign : negative = true := by simpa using hminus
      split
      next hfits =>
        have hfits : 0 < n ∧ Word.holdsSigned 64 (-n) = true := by simpa using hfits
        simp [IsSigned, hzero, hsign, hfits, and_comm, eq_comm]
      next hfits =>
        have hfits : ¬ (0 < n ∧ Word.holdsSigned 64 (-n) = true) := by simpa using hfits
        simp only [realNumber_ne_int, IsSigned, hsign, if_true, false_iff]
        exact fun h => hfits ⟨h.2.2.1, h.2.2.2.1⟩

/-- A run of digits that nothing goes on with is read as an integer. -/
theorem unsignedNumber_of_digits {negative : Bool} {ds rest : List Char} (hne : ds ≠ [])
    (hd : ∀ c ∈ ds, isDigit c = true) (hz : NoLeadingZero ds) (hend : EndsInteger rest) :
    unsignedNumber negative (ds ++ rest) =
      integerNumber ⟨negative, (absorb 0 ds).1, (absorb 0 ds).2.length⟩ rest := by
  obtain ⟨htake, hdrop⟩ := takeWhile_digits hd hend.isDigit_head
  have hhead : ∀ c, extendsInteger c = true → ∀ tail, rest ≠ c :: tail := by
    rintro c hc tail rfl
    rw [hend c rfl] at hc
    cases hc
  unfold unsignedNumber
  simp only [htake, hdrop]
  split
  next => exact absurd rfl hne
  next d tail => exact absurd rfl (hz d tail)
  next =>
    split
    next tail => exact absurd rfl (hhead '.' (by decide) tail)
    next tail => exact absurd rfl (hhead 'e' (by decide) tail)
    next tail => exact absurd rfl (hhead 'E' (by decide) tail)
    next => rfl

/-- Where an integer is read, a run of digits stands that nothing goes on with. -/
theorem digits_of_unsignedNumber {negative : Bool} {cs rest : List Char} {i : Int}
    (h : unsignedNumber negative cs = .ok (.int i, rest)) :
    ∃ ds tail, cs = ds ++ tail ∧ ds ≠ [] ∧ (∀ c ∈ ds, isDigit c = true) ∧ NoLeadingZero ds ∧
      EndsInteger tail := by
  refine ⟨cs.takeWhile isDigit, cs.dropWhile isDigit, List.takeWhile_append_dropWhile.symm, ?_⟩
  have hdigit := List.head?_dropWhile_not isDigit cs
  unfold unsignedNumber at h
  simp only at h
  split at h
  next => simp at h
  next => simp at h
  next hne hz =>
    refine ⟨hne, List.all_eq_true.mp List.all_takeWhile, hz, ?_⟩
    split at h
    next => exact absurd h fractionPart_ne_int
    next => exact absurd h exponentPart_ne_int
    next => exact absurd h exponentPart_ne_int
    next hpoint he hE =>
      intro c hc
      rw [Option.mem_def] at hc
      obtain ⟨tail, htail⟩ := List.head?_eq_some_iff.mp hc
      rw [hc] at hdigit
      simp only [extendsInteger, Bool.or_eq_false_iff, decide_eq_false_iff_not]
      refine ⟨⟨⟨hdigit, ?_⟩, ?_⟩, ?_⟩
      · rintro rfl; exact hpoint tail htail
      · rintro rfl; exact he tail htail
      · rintro rfl; exact hE tail htail

theorem unsignedNumber_eq_int_iff {negative : Bool} {cs rest : List Char} {i : Int} :
    unsignedNumber negative cs = .ok (.int i, rest) ↔
      ∃ n, cs = Nat.toDigits 10 n ++ rest ∧ EndsInteger rest ∧ n < significandLimit ∧
        IsSigned negative n i := by
  constructor
  · intro h
    obtain ⟨ds, tail, rfl, hne, hd, hz, hend⟩ := digits_of_unsignedNumber h
    rw [unsignedNumber_of_digits hne hd hz hend, integerNumber_eq_int_iff] at h
    obtain ⟨hpower, rfl, hsigned⟩ := h
    have hleft : (absorb 0 ds).2 = [] := by simpa using hpower
    obtain ⟨hvalue, hfits⟩ := (absorb_eq_nil_iff (by decide) ds).mp (Prod.ext rfl hleft)
    refine ⟨naturalValue ds, by rw [toDigits_naturalValue hne hd hz], hend, ?_, ?_⟩
    · rwa [naturalValue, ← hvalue]
    · rwa [naturalValue, ← hvalue]
  · rintro ⟨n, rfl, hend, hfits, hsigned⟩
    have habsorb : absorb 0 (Nat.toDigits 10 n) = (n, []) :=
      (absorb_eq_nil_iff (by decide) _).mpr ⟨(naturalValue_toDigits n).symm, hfits⟩
    rw [unsignedNumber_of_digits Nat.toDigits_ne_nil isDigit_of_mem_toDigits
      (noLeadingZero_toDigits n) hend, habsorb, integerNumber_eq_int_iff]
    exact ⟨rfl, rfl, hsigned⟩

theorem firstToken_of_isDigit {c : Char} (h : isDigit c = true) (cs : List Char) :
    firstToken (c :: cs) = Step.ofNumber (unsignedNumber false (c :: cs)) := by
  have hne : ∀ d : Char, isDigit d = false → c ≠ d := by
    rintro d hd rfl
    rw [h] at hd
    cases hd
  simp [firstToken, punctuation, wordAt, h, hne '[' (by decide), hne ']' (by decide),
    hne '\x7b' (by decide), hne '\x7d' (by decide), hne ',' (by decide), hne ':' (by decide),
    hne 'n' (by decide), hne 't' (by decide), hne 'f' (by decide), hne '"' (by decide),
    hne '-' (by decide)]

theorem Step.ofNumber_eq_read_iff {r : NumberRead} {m : Number} {rest : List Char} :
    Step.ofNumber r = .read (.number m) rest ↔ r = .ok (m, rest) := by
  rcases r with f | ⟨m', rest'⟩ <;> simp [Step.ofNumber]

theorem punctuation_ne_number {c : Char} {m : Number} : punctuation c ≠ some (.number m) := by
  unfold punctuation
  repeat' split
  all_goals simp

theorem wordAt_ne_number {c : Char} {m : Number} {letters : List Char} :
    wordAt c ≠ some (.number m, letters) := by
  unfold wordAt
  repeat' split
  all_goals simp

/-- A number token starts with its minus sign or with a digit. -/
theorem eq_number_of_firstToken {cs rest : List Char} {m : Number}
    (h : firstToken cs = .read (.number m) rest) :
    unsignedNumber false cs = .ok (m, rest) ∨
      ∃ tail, cs = '-' :: tail ∧ unsignedNumber true tail = .ok (m, rest) := by
  cases cs with
  | nil => simp [firstToken] at h
  | cons c tail =>
    simp only [firstToken] at h
    split at h
    next t hpunctuation =>
      simp only [Step.read.injEq] at h
      exact absurd (h.1 ▸ hpunctuation) punctuation_ne_number
    next t letters _ hword =>
      cases hafter : afterWord letters tail with
      | error f => simp [hafter, Step.ofWord] at h
      | ok after =>
        simp only [hafter, Step.ofWord, Step.read.injEq] at h
        exact absurd (h.1 ▸ hword) wordAt_ne_number
    next =>
      split at h
      next =>
        cases hbody : stringBody tail <;> simp [hbody, Step.ofString] at h
      next =>
        split at h
        next hminus => exact .inr ⟨tail, by rw [hminus], Step.ofNumber_eq_read_iff.mp h⟩
        next =>
          split at h
          next => exact .inl (Step.ofNumber_eq_read_iff.mp h)
          next => simp at h

theorem size_sixtyFour : Word.size 64 = 18446744073709551616 := by decide

theorem size_sixtyThree : Word.size 63 = 9223372036854775808 := by decide

theorem holds_ofNat_iff {n : Nat} : Word.holds 64 (.ofNat n) = true ↔ n < Word.size 64 := by
  simp only [Word.holds, Word.holdsUnsigned, Word.holdsSigned, size_sixtyFour,
    size_sixtyThree, Nat.reduceSub, Bool.or_eq_true, Bool.and_eq_true, decide_eq_true_eq,
    Int.ofNat_eq_natCast]
  omega

/-- Below zero an integer that can be held is held with a sign. -/
theorem holds_negSucc_iff {n : Nat} :
    Word.holds 64 (.negSucc n) = true ↔ n + 1 ≤ Word.size 63 := by
  simp only [Word.holds, Word.holdsUnsigned, Word.holdsSigned, size_sixtyFour,
    size_sixtyThree, Nat.reduceSub, Bool.or_eq_true, Bool.and_eq_true, decide_eq_true_eq]
  omega

theorem isSigned_negSucc_iff {n k : Nat} :
    IsSigned true k (.negSucc n) ↔ k = n + 1 ∧ Word.holds 64 (.negSucc n) = true := by
  rw [holds_negSucc_iff]
  simp only [IsSigned, Word.holdsSigned, size_sixtyThree, Nat.reduceSub, if_true, Bool.and_eq_true,
    decide_eq_true_eq]
  omega

theorem not_isSigned_ofNat {n k : Nat} : ¬ IsSigned true k (.ofNat n) := by
  simp only [IsSigned, if_true, Int.ofNat_eq_natCast]
  omega

/-- An integer token is the decimal numeral of an integer of 64 bits that does not
go on as a number. -/
theorem firstToken_eq_int_iff {cs rest : List Char} {i : Int} :
    firstToken cs = .read (.number (.int i)) rest ↔
      cs = intText i ++ rest ∧ EndsInteger rest ∧ Word.holds 64 i = true := by
  constructor
  · intro h
    rcases eq_number_of_firstToken h with hread | ⟨tail, rfl, hread⟩
    · obtain ⟨n, rfl, hend, hn, rfl⟩ := unsignedNumber_eq_int_iff.mp hread
      exact ⟨rfl, hend, holds_ofNat_iff.mpr hn⟩
    · obtain ⟨n, rfl, hend, -, hsigned⟩ := unsignedNumber_eq_int_iff.mp hread
      cases i with
      | ofNat m => exact absurd hsigned not_isSigned_ofNat
      | negSucc m =>
        obtain ⟨rfl, hholds⟩ := isSigned_negSucc_iff.mp hsigned
        exact ⟨rfl, hend, hholds⟩
  · rintro ⟨rfl, hend, hholds⟩
    cases i with
    | ofNat n =>
      have hread : unsignedNumber false (Nat.toDigits 10 n ++ rest) = .ok (.int n, rest) :=
        unsignedNumber_eq_int_iff.mpr ⟨n, rfl, hend, holds_ofNat_iff.mp hholds, rfl⟩
      cases hds : Nat.toDigits 10 n with
      | nil => exact absurd hds Nat.toDigits_ne_nil
      | cons d ds =>
        have hd : isDigit d = true :=
          isDigit_of_mem_toDigits (n := n) d (hds ▸ List.mem_cons_self)
        rw [hds] at hread
        rw [intText, hds, List.cons_append, firstToken_of_isDigit hd]
        exact Step.ofNumber_eq_read_iff.mpr hread
    | negSucc n =>
      have hsigned : IsSigned true (n + 1) (.negSucc n) := isSigned_negSucc_iff.mpr ⟨rfl, hholds⟩
      have hfits : n + 1 < significandLimit :=
        Nat.lt_of_le_of_lt (holds_negSucc_iff.mp hholds) (by decide)
      exact Step.ofNumber_eq_read_iff.mpr
        (unsignedNumber_eq_int_iff.mpr ⟨n + 1, rfl, hend, hfits, hsigned⟩)

end RecordSearch.Json
