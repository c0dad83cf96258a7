import Mathlib.Data.List.Infix

/-!
# LIKE patterns

What a text has to be to match a pattern: a percent sign stands for any text, an
underscore for any one character, and a backslash takes the meaning from the character
after it. Every other character stands for itself, up to letter case. A pattern that ends
in a backslash with nothing to take the meaning from matches no text.
-/
namespace RecordSearch.Sql

/-- The characters that have a meaning in patterns. -/
def isSpecial (c : Char) : Bool := c = '%' || c = '_' || c = '\\'

/-- Characters are compared by what they are folded to. Those with a meaning in patterns
have no case, so that they are like no other character. -/
structure LetterCase where
  fold : Char → Char
  eq_of_isSpecial : ∀ {c d : Char}, isSpecial c = true → fold d = fold c → d = c

namespace LetterCase

def sensitive : LetterCase := ⟨id, fun _ h => h⟩

def insensitive : LetterCase where
  fold := Char.toLower
  eq_of_isSpecial {c d} hc h := by
    simp only [isSpecial, Bool.or_eq_true, decide_eq_true_eq] at hc
    have hfixed : c.toLower = c := by
      rcases hc with (rfl | rfl) | rfl <;> rfl
    rw [hfixed] at h
    delta Char.toLower at h
    split at h
    next hupper =>
      have hlower : d.val + 32 = c.val := congrArg Char.val h
      have hfirst : 65 ≤ d.val := hupper.1
      have hlast : d.val ≤ 90 := hupper.2
      rcases hc with (rfl | rfl) | rfl <;> grind
    next => exact h

def folded (letters : LetterCase) (s : String) : List Char := s.toList.map letters.fold

end LetterCase

inductive Element where
  | any
  | one
  | exactly (c : Char)
  deriving DecidableEq, Repr

def Element.ofChar (c : Char) : Element :=
  if c = '%' then .any else if c = '_' then .one else .exactly c

/-- The elements of a pattern, unless it ends in a backslash that has nothing to escape. -/
def elements? : List Char → Option (List Element)
  | [] => some []
  | ['\\'] => none
  | '\\' :: c :: p => (elements? p).map (.exactly c :: ·)
  | c :: p => (elements? p).map (Element.ofChar c :: ·)

theorem elements?_escaped (c : Char) (p : List Char) :
    elements? ('\\' :: c :: p) = (elements? p).map (.exactly c :: ·) := rfl

theorem elements?_char {c : Char} (h : c ≠ '\\') (p : List Char) :
    elements? (c :: p) = (elements? p).map (Element.ofChar c :: ·) := by
  cases p <;> simp [elements?, h]

/-- Induction on a pattern, with what a backslash escapes at once. -/
@[elab_as_elim]
theorem pattern_induction {motive : List Char → Prop} (nil : motive []) (lone : motive ['\\'])
    (escaped : ∀ c p, motive p → motive ('\\' :: c :: p))
    (char : ∀ c p, c ≠ '\\' → motive p → motive (c :: p)) : ∀ p, motive p
  | [] => nil
  | [c] => if h : c = '\\' then h ▸ lone else char c [] h nil
  | c :: d :: p =>
    if h : c = '\\' then h ▸ escaped d p (pattern_induction nil lone escaped char p)
    else char c (d :: p) h (pattern_induction nil lone escaped char (d :: p))

theorem elements?_append {p : List Char} {es : List Element} (h : elements? p = some es)
    (q : List Char) : elements? (p ++ q) = (elements? q).map (es ++ ·) := by
  induction p using pattern_induction generalizing es with
  | nil =>
    obtain rfl := Option.some.inj h
    simp
  | lone => cases h
  | escaped c p ih =>
    obtain ⟨es, hes, rfl⟩ := Option.map_eq_some_iff.1 h
    rw [List.cons_append, List.cons_append, elements?_escaped, ih hes, Option.map_map]
    rfl
  | char c p hc ih =>
    rw [elements?_char hc] at h
    obtain ⟨es, hes, rfl⟩ := Option.map_eq_some_iff.1 h
    rw [List.cons_append, elements?_char hc, ih hes, Option.map_map]
    rfl

/-- A pattern without elements ends in a backslash, behind a pattern that has some. -/
theorem exists_of_elements?_eq_none {p : List Char} (h : elements? p = none) :
    ∃ front es, p = front ++ ['\\'] ∧ elements? front = some es := by
  induction p using pattern_induction with
  | nil => cases h
  | lone => exact ⟨[], [], rfl, rfl⟩
  | escaped c p ih =>
    obtain ⟨front, es, rfl, hes⟩ := ih (Option.map_eq_none_iff.1 h)
    exact ⟨'\\' :: c :: front, .exactly c :: es, rfl, by rw [elements?_escaped, hes]; rfl⟩
  | char c p hc ih =>
    rw [elements?_char hc, Option.map_eq_none_iff] at h
    obtain ⟨front, es, rfl, hes⟩ := ih h
    exact ⟨c :: front, Element.ofChar c :: es, rfl, by rw [elements?_char hc, hes]; rfl⟩

theorem elements?_of_plain {p : List Char} (h : ∀ c ∈ p, isSpecial c = false) :
    elements? p = some (p.map .exactly) := by
  induction p with
  | nil => rfl
  | cons c p ih =>
    obtain ⟨hc, hp⟩ := List.forall_mem_cons.1 h
    simp only [isSpecial, Bool.or_eq_false_iff, decide_eq_false_iff_not] at hc
    obtain ⟨⟨hpercent, hunderscore⟩, hbackslash⟩ := hc
    rw [elements?_char hbackslash, ih hp, Element.ofChar, if_neg hpercent, if_neg hunderscore]
    rfl

/-- Whether the elements stand for the parts of a text, one after the other. -/
def Matches (letters : LetterCase) : List Element → List Char → Prop
  | [], s => s = []
  | .any :: es, s => ∃ skipped rest, s = skipped ++ rest ∧ Matches letters es rest
  | .one :: es, s => ∃ c rest, s = c :: rest ∧ Matches letters es rest
  | .exactly c :: es, s =>
    ∃ d rest, s = d :: rest ∧ letters.fold d = letters.fold c ∧ Matches letters es rest

/-- A text matches a pattern that has elements if it matches these. -/
def Like (letters : LetterCase) (pattern s : String) : Prop :=
  ∃ es, elements? pattern.toList = some es ∧ Matches letters es s.toList

variable {letters : LetterCase} {es fs : List Element} {s : List Char}

/-- A matcher that tries one after the other what a percent sign can stand for. -/
def accepts (letters : LetterCase) : List Element → List Char → Bool
  | [], s => s.isEmpty
  | .any :: es, s => s.tails.any (accepts letters es)
  | .one :: _, [] => false
  | .one :: es, _ :: s => accepts letters es s
  | .exactly _ :: _, [] => false
  | .exactly c :: es, d :: s => letters.fold d = letters.fold c && accepts letters es s

theorem accepts_eq_true_iff : accepts letters es s = true ↔ Matches letters es s := by
  induction es generalizing s with
  | nil => simp [accepts, Matches]
  | cons e es ih =>
    cases e with
    | any =>
      simp only [accepts, Matches, List.any_eq_true, List.mem_tails, ih]
      constructor
      · rintro ⟨rest, ⟨skipped, rfl⟩, hrest⟩
        exact ⟨skipped, rest, rfl, hrest⟩
      · rintro ⟨skipped, rest, rfl, hrest⟩
        exact ⟨rest, ⟨skipped, rfl⟩, hrest⟩
    | one => cases s <;> simp [accepts, Matches, ih]
    | exactly c => cases s <;> simp [accepts, Matches, ih]

instance (letters : LetterCase) (pattern text : String) : Decidable (Like letters pattern text) :=
  decidable_of_iff ((elements? pattern.toList).any (accepts letters · text.toList) = true) <| by
    simp [Like, Option.any_eq_true, accepts_eq_true_iff]

theorem matches_append : Matches letters (es ++ fs) s ↔
    ∃ front back, s = front ++ back ∧ Matches letters es front ∧ Matches letters fs back := by
  induction es generalizing s with
  | nil => simp [Matches]
  | cons e es ih =>
    cases e with
    | any =>
      simp only [List.cons_append, Matches, ih]
      constructor
      · rintro ⟨skipped, rest, rfl, front, back, rfl, hfront, hback⟩
        exact ⟨skipped ++ front, back, by simp, ⟨skipped, front, rfl, hfront⟩, hback⟩
      · rintro ⟨_, back, rfl, ⟨skipped, front, rfl, hfront⟩, hback⟩
        exact ⟨skipped, front ++ back, by simp, front, back, rfl, hfront, hback⟩
    | one =>
      simp only [List.cons_append, Matches, ih]
      constructor
      · rintro ⟨c, rest, rfl, front, back, rfl, hfront, hback⟩
        exact ⟨c :: front, back, rfl, ⟨c, front, rfl, hfront⟩, hback⟩
      · rintro ⟨_, back, rfl, ⟨c, front, rfl, hfront⟩, hback⟩
        exact ⟨c, front ++ back, rfl, front, back, rfl, hfront, hback⟩
    | exactly c =>
      simp only [List.cons_append, Matches, ih]
      constructor
      · rintro ⟨d, rest, rfl, hd, front, back, rfl, hfront, hback⟩
        exact ⟨d :: front, back, rfl, ⟨d, front, rfl, hd, hfront⟩, hback⟩
      · rintro ⟨_, back, rfl, ⟨d, front, rfl, hd, hfront⟩, hback⟩
        exact ⟨d, front ++ back, rfl, hd, front, back, rfl, hfront, hback⟩

theorem matches_any_cons : Matches letters (.any :: es) s ↔
    ∃ part, part <:+ s ∧ Matches letters es part := by
  constructor
  · rintro ⟨skipped, rest, rfl, hrest⟩
    exact ⟨rest, ⟨skipped, rfl⟩, hrest⟩
  · rintro ⟨rest, ⟨skipped, rfl⟩, hrest⟩
    exact ⟨skipped, rest, rfl, hrest⟩

theorem matches_append_any : Matches letters (es ++ [.any]) s ↔
    ∃ part, part <+: s ∧ Matches letters es part := by
  rw [matches_append]
  constructor
  · rintro ⟨front, back, rfl, hfront, -⟩
    exact ⟨front, ⟨back, rfl⟩, hfront⟩
  · rintro ⟨front, ⟨back, rfl⟩, hfront⟩
    exact ⟨front, back, rfl, hfront, back, [], (List.append_nil back).symm, rfl⟩

theorem like_iff {pattern text : String} (h : elements? pattern.toList = some es) :
    Like letters pattern text ↔ Matches letters es text.toList := by
  simp [Like, h]

theorem matches_exactly {p : List Char} :
    Matches letters (p.map .exactly) s ↔ p.map letters.fold = s.map letters.fold := by
  induction p generalizing s with
  | nil => simp [Matches, eq_comm]
  | cons c p ih =>
    simp only [List.map_cons, Matches, ih]
    cases s with
    | nil => simp
    | cons d s => simp [eq_comm]

/-- A text that the elements match, with no more characters than they were written with. -/
def sample : List Element → List Char
  | [] => []
  | .any :: es => sample es
  | .one :: es => 'a' :: sample es
  | .exactly c :: es => c :: sample es

theorem matches_sample (letters : LetterCase) : ∀ es, Matches letters es (sample es)
  | [] => rfl
  | .any :: es => ⟨[], sample es, rfl, matches_sample letters es⟩
  | .one :: es => ⟨'a', sample es, rfl, matches_sample letters es⟩
  | .exactly c :: es => ⟨c, sample es, rfl, rfl, matches_sample letters es⟩

theorem length_sample_le {p : List Char} (h : elements? p = some es) :
    (sample es).length ≤ p.length := by
  induction p using pattern_induction generalizing es with
  | nil =>
    obtain rfl := Option.some.inj h
    exact Nat.le_refl _
  | lone => cases h
  | escaped c p ih =>
    obtain ⟨es, hes, rfl⟩ := Option.map_eq_some_iff.1 h
    have hle := ih hes
    simp only [sample, List.length_cons]
    omega
  | char c p hc ih =>
    rw [elements?_char hc] at h
    obtain ⟨es, hes, rfl⟩ := Option.map_eq_some_iff.1 h
    have hle := ih hes
    unfold Element.ofChar
    split
    next => exact Nat.le_succ_of_le hle
    next => split <;> exact Nat.succ_le_succ hle

/-- If a pattern is like its own sample then nothing in it has a meaning. -/
theorem plain_of_map_sample {p : List Char} (h : elements? p = some es)
    (heq : p.map letters.fold = (sample es).map letters.fold) :
    ∀ c ∈ p, isSpecial c = false := by
  induction p using pattern_induction generalizing es with
  | nil => simp
  | lone => cases h
  | escaped c p ih =>
    obtain ⟨es, hes, rfl⟩ := Option.map_eq_some_iff.1 h
    have hle := length_sample_le hes
    have hlength := congrArg List.length heq
    simp only [List.length_map, sample, List.length_cons] at hlength
    omega
  | char c p hc ih =>
    rw [elements?_char hc] at h
    obtain ⟨es, hes, rfl⟩ := Option.map_eq_some_iff.1 h
    have hle := length_sample_le hes
    unfold Element.ofChar at heq
    split at heq
    next =>
      have hlength := congrArg List.length heq
      simp only [List.length_map, sample, List.length_cons] at hlength
      omega
    next hpercent =>
      split at heq
      next hunderscore =>
        subst hunderscore
        have ha := letters.eq_of_isSpecial (by decide) (List.cons.inj heq).1.symm
        cases ha
      next hunderscore =>
        refine List.forall_mem_cons.2 ⟨?_, ih hes (List.cons.inj heq).2⟩
        simp [isSpecial, hpercent, hunderscore, hc]

end RecordSearch.Sql
