import RecordSearch.Sql.Style

/-!
# Reading a statement at its quotes

A statement is read from left to right, as PostgreSQL does with standard
conforming strings. A single quote opens a string and a double quote opens an
identifier. Inside, the opening quote written twice is one quote of the content,
and written once it ends the region. All other characters are kept as they are.
Nothing else of SQL is read here: comments and dollar quotes are not regions.
-/
namespace RecordSearch.Sql

open Json (Value)

def isQuote (c : Char) : Bool := c = singleQuote || c = doubleQuote

/-- A character outside quotes, or a quoted region with its decoded content. -/
inductive Token where
  | bare (c : Char)
  | quoted (quote : Char) (content : String)
  deriving DecidableEq, Repr

/-- Where a reader stands. After a quote inside a region, only the next
character tells whether the region has ended. -/
inductive Reader where
  | outside
  | inside (quote : Char) (content : List Char)
  | closing (quote : Char) (content : List Char)

/-- The tokens of a text, or nothing if a region does not end. -/
def read : Reader → List Char → Option (List Token)
  | .outside, [] => some []
  | .inside _ _, [] => none
  | .closing quote content, [] => some [.quoted quote (String.ofList content)]
  | .outside, c :: cs =>
    if isQuote c then read (.inside c []) cs else (read .outside cs).map (.bare c :: ·)
  | .inside quote content, c :: cs =>
    if c = quote then read (.closing quote content) cs
    else read (.inside quote (content ++ [c])) cs
  | .closing quote content, c :: cs =>
    if c = quote then read (.inside quote (content ++ [c])) cs
    else
      let rest :=
        if isQuote c then read (.inside c []) cs else (read .outside cs).map (.bare c :: ·)
      rest.map (.quoted quote (String.ofList content) :: ·)

def tokens? (sql : String) : Option (List Token) := read .outside sql.toList

/-- The texts outside the quoted regions: before the first, between each two and
after the last. -/
def outsideTexts : List Token → List (List Char)
  | [] => [[]]
  | .quoted _ _ :: rest => [] :: outsideTexts rest
  | .bare c :: rest =>
    match outsideTexts rest with
    | [] => [[c]]
    | run :: runs => (c :: run) :: runs

def Token.mask : Token → Option Char
  | .bare c => some c
  | .quoted _ _ => none

theorem outsideTexts_congr {ts us : List Token}
    (h : ts.map Token.mask = us.map Token.mask) : outsideTexts ts = outsideTexts us := by
  induction ts generalizing us with
  | nil =>
    rw [List.map_nil, eq_comm, List.map_eq_nil_iff] at h
    rw [h]
  | cons t ts ih =>
    cases us with
    | nil => simp at h
    | cons u us =>
      obtain ⟨hmask, htail⟩ := List.cons.inj h
      have htexts := ih htail
      cases t <;> cases u <;> simp_all [Token.mask, outsideTexts]

/-- A token as it is written: the quotes of a region's content are doubled. -/
def Token.spelling : Token → List Char
  | .bare c => [c]
  | .quoted quote content => Quoting.escaped.wrap quote content

/-- What a reader has read of the region that it stands in. -/
def Reader.pending : Reader → List Char
  | .outside => []
  | .inside quote content => quote :: Quoting.escaped.inside quote content
  | .closing quote content => quote :: Quoting.escaped.inside quote content ++ [quote]

theorem inside_append (quote : Char) (s t : List Char) :
    Quoting.escaped.inside quote (s ++ t) =
      Quoting.escaped.inside quote s ++ Quoting.escaped.inside quote t := by
  simp [Quoting.inside]

theorem inside_singleton (quote c : Char) :
    Quoting.escaped.inside quote [c] = if c = quote then [quote, quote] else [c] := by
  simp [Quoting.inside]

theorem wrap_ofList (quote : Char) (s : List Char) :
    Quoting.escaped.wrap quote (String.ofList s) =
      quote :: Quoting.escaped.inside quote s ++ [quote] := by
  simp [Quoting.wrap]

/-- Reading loses nothing: the tokens, written again, are the text. -/
theorem spelling_of_read {r : Reader} {cs : List Char} {ts : List Token}
    (h : read r cs = some ts) : ts.flatMap Token.spelling = r.pending ++ cs := by
  induction cs generalizing r ts with
  | nil =>
    cases r with
    | outside => simp_all [read, Reader.pending]
    | inside quote content => simp [read] at h
    | closing quote content =>
      obtain rfl := Option.some.inj h
      simp [Token.spelling, Reader.pending, wrap_ofList]
  | cons c cs ih =>
    have hout : ∀ {us : List Token},
        (if isQuote c then read (.inside c []) cs
          else (read .outside cs).map (.bare c :: ·)) = some us →
        us.flatMap Token.spelling = c :: cs := by
      intro us hus
      split at hus
      · simpa [Reader.pending, Quoting.inside] using ih hus
      · obtain ⟨vs, hvs, rfl⟩ := Option.map_eq_some_iff.1 hus
        simpa [Token.spelling, Reader.pending] using ih hvs
    cases r with
    | outside => exact hout h
    | inside quote content =>
      rw [read] at h
      split at h
      next hc => simpa [Reader.pending, hc] using ih h
      next hc => simpa [Reader.pending, inside_append, inside_singleton, hc] using ih h
    | closing quote content =>
      rw [read] at h
      split at h
      next hc => simpa [Reader.pending, inside_append, inside_singleton, hc] using ih h
      next hc =>
        obtain ⟨us, hus, rfl⟩ := Option.map_eq_some_iff.1 h
        simp [Token.spelling, Reader.pending, wrap_ofList, hout hus]

theorem read_closing {quote : Char} {rest : List Char} (h : rest.head? ≠ some quote)
    (content : List Char) :
    read (.closing quote content) rest =
      (read .outside rest).map (.quoted quote (String.ofList content) :: ·) := by
  cases rest with
  | nil => rfl
  | cons c cs =>
    have hc : c ≠ quote := by simpa using h
    simp only [read, if_neg hc]

theorem read_inside (quote : Char) (s content rest : List Char) :
    read (.inside quote content) (Quoting.escaped.inside quote s ++ rest) =
      read (.inside quote (content ++ s)) rest := by
  induction s generalizing content with
  | nil => simp [Quoting.inside]
  | cons c s ih =>
    have hcons := inside_append quote [c] s
    rw [List.singleton_append, inside_singleton] at hcons
    by_cases hc : c = quote
    · rw [hcons, if_pos hc, hc]
      simp [read, ih]
    · rw [hcons, if_neg hc]
      simp [read, hc, ih]

/-- A wrapped text is one region, and its content is that text. -/
theorem read_wrap {quote : Char} (hquote : isQuote quote = true) (s : String)
    {rest : List Char} (h : rest.head? ≠ some quote) :
    read .outside (Quoting.escaped.wrap quote s ++ rest) =
      (read .outside rest).map (.quoted quote s :: ·) := by
  have hregion := read_inside quote s.toList [] (quote :: rest)
  simp only [List.nil_append] at hregion
  simp only [Quoting.wrap, List.cons_append, List.append_assoc, List.nil_append]
  rw [read, if_pos hquote, hregion, read, if_pos rfl, read_closing h, String.ofList_toList]

theorem read_bare {cs : List Char} (h : ∀ c ∈ cs, isQuote c = false) (rest : List Char) :
    read .outside (cs ++ rest) = (read .outside rest).map (cs.map .bare ++ ·) := by
  induction cs with
  | nil => simp
  | cons c cs ih =>
    have hc := h c (by simp)
    have hcs := ih fun d hd => h d (by simp [hd])
    simp [read, hc, hcs, Function.comp_def]

end RecordSearch.Sql
