import RecordSearch.Sql.Fragment

/-!
# Filling templates

A template is cut from left to right at its markers. What is put in the place of
a marker is a fragment, which is never searched for markers again. A pair of `@`
without a partner is ordinary text. Where the name of the marker is known, the text
is cut at its occurrences, and nothing has to be looked up.
-/
namespace RecordSearch.Sql

/-- A stretch of ordinary text, or a marker with the pairs of `@` around it. -/
inductive Segment where
  | fixed (text : String)
  | marker (name : String)
  deriving DecidableEq, Repr

/-- The text before the first pair of `@` and the text after it. -/
def splitPair : List Char → Option (List Char × List Char)
  | [] => none
  | '@' :: '@' :: rest => some ([], rest)
  | c :: rest => (splitPair rest).map fun p => (c :: p.1, p.2)

theorem splitPair_eq_some {cs before after : List Char}
    (h : splitPair cs = some (before, after)) : cs = before ++ '@' :: '@' :: after := by
  fun_induction splitPair cs generalizing before with
  | case1 => simp at h
  | case2 rest => simp_all
  | case3 c rest _ ih =>
    obtain ⟨⟨b, a⟩, hb, he⟩ := Option.map_eq_some_iff.1 h
    obtain ⟨rfl, rfl⟩ := Prod.mk.inj he
    simp [← ih hb]

theorem length_lt_of_splitPair {cs before after inner rest : List Char}
    (h : splitPair cs = some (before, after)) (h' : splitPair after = some (inner, rest)) :
    rest.length < cs.length := by
  rw [splitPair_eq_some h, splitPair_eq_some h']
  simp only [List.length_append, List.length_cons]
  omega

def markerName (inner : List Char) : String :=
  String.ofList ('@' :: '@' :: inner ++ ['@', '@'])

def segments (cs : List Char) : List Segment :=
  match _h : splitPair cs with
  | none => [.fixed (String.ofList cs)]
  | some (before, after) =>
    match _h' : splitPair after with
    | none => [.fixed (String.ofList cs)]
    | some (inner, rest) =>
      .fixed (String.ofList before) :: .marker (markerName inner) :: segments rest
termination_by cs.length
decreasing_by exact length_lt_of_splitPair _h _h'

def Segment.marker? : Segment → Option String
  | .fixed _ => none
  | .marker name => some name

/-- The markers that are met from here on, added to those found before. A marker
that was found is not added again. -/
def scan (found : List String) (cs : List Char) : List String :=
  match _h : splitPair cs with
  | none => found
  | some (_, after) =>
    match _h' : splitPair after with
    | none => found
    | some (inner, rest) =>
      scan (if markerName inner ∈ found then found else found ++ [markerName inner]) rest
termination_by cs.length
decreasing_by exact length_lt_of_splitPair _h _h'

/-- The markers of a text, each once, in the order of their first appearance. -/
def markers (text : String) : List String := scan [] text.toList

/-- What each marker stands for; the first entry of a name counts. -/
abbrev Substitution := List (String × Fragment)

/-- The segments with every marker replaced, or the first marker without entry. -/
def fill (table : Substitution) : List Segment → Except String Fragment
  | [] => .ok []
  | .fixed text :: rest => do
    let f ← fill table rest
    return .fixed text :: f
  | .marker name :: rest =>
    match table.lookup name with
    | none => .error name
    | some value => do
      let f ← fill table rest
      return value ++ f

def substitute (table : Substitution) (text : String) : Except String Fragment :=
  fill table (segments text.toList)

/-- The text before the first occurrence of `mark`, and the text after it. -/
def cutFirst (mark cs : List Char) : Option (List Char × List Char) :=
  match mark.isPrefixOf? cs with
  | some rest => some ([], rest)
  | none =>
    match cs with
    | [] => none
    | c :: cs => (cutFirst mark cs).map fun p => (c :: p.1, p.2)

def cutLast (mark : Char) (cs : List Char) : Option (List Char × List Char) :=
  (cutFirst [mark] cs.reverse).map fun p => (p.2.reverse, p.1.reverse)

/-- The stretches of a text around the occurrences of `mark`, from left to right.
The first `inMark` characters belong to an occurrence that has been found. -/
def stretches (mark : List Char) : Nat → List Char → List (List Char)
  | _, [] => [[]]
  | inMark + 1, _ :: cs => stretches mark inMark cs
  | 0, c :: cs =>
    if mark.isPrefixOf (c :: cs) then [] :: stretches mark (mark.length - 1) cs
    else
      match stretches mark 0 cs with
      | [] => [[c]]
      | stretch :: rest => (c :: stretch) :: rest

def replaceAll (mark : String) (value : Fragment) (text : String) : Fragment :=
  List.intercalate value
    ((stretches mark.toList 0 text.toList).map fun cs => [.fixed (String.ofList cs)])

end RecordSearch.Sql
