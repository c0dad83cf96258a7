import RecordSearch.Yaml.Cursor

/-!
# YAML scalars

The text of a scalar in its four written forms: plain, between single or double
quotes, and as an indented block. Line breaks inside the first three are folded:
a single one becomes a space, and of several the first is dropped. Blanks around
a folded break do not count. Loops run on a number of steps that no text of that
length exhausts.
-/
namespace RecordSearch.Yaml

/-- Blanks and line breaks between two words of a scalar. -/
structure Gap where
  /-- The blanks, if there is no break. -/
  blanks : List Char := []
  broken : Bool := false
  first : List Char := []
  more : List Char := []

def Gap.text (g : Gap) : List Char :=
  if !g.broken then g.blanks
  else if g.first = ['\n'] then (if g.more.isEmpty then [' '] else g.more)
  else g.first ++ g.more

/-- The gap at the cursor. A tab left of `tabLimit` may not indent a line. -/
def readGap (tabLimit : Nat) : Nat → Gap → Cursor → Option (Gap × Cursor)
  | 0, g, c => some (g, c)
  | steps + 1, g, c =>
    match c.rest with
    | [] => some (g, c)
    | ch :: _ =>
      if isBlank ch then
        if !g.broken then readGap tabLimit steps { g with blanks := g.blanks ++ [ch] } (c.skip 1)
        else if ch = '\t' && c.column < tabLimit then none
        else readGap tabLimit steps g (c.skip 1)
      else if isBreak ch then
        let (text, c) := c.lineBreak
        if g.broken then readGap tabLimit steps { g with more := g.more ++ text } c
        else readGap tabLimit steps { broken := true, first := text } c
      else some (g, c)

def isFlowIndicator (c : Char) : Bool :=
  c = ',' || c = '[' || c = ']' || c = '{' || c = '}'

/-- A colon in a collection must not stand before an indicator. -/
def isMisplacedColon (flow : Bool) (c : Char) (rest : List Char) : Bool :=
  flow && c = ':' && match rest with
    | d :: _ => isFlowIndicator d || d = '?'
    | [] => false

def endsPlain (flow : Bool) (c : Char) (rest : List Char) : Bool :=
  isGap c || (flow && isFlowIndicator c) ||
    (c = ':' && match rest with
      | d :: _ => isGap d
      | [] => true)

def plainWord (flow : Bool) : List Char → Option (List Char × List Char)
  | [] => some ([], [])
  | c :: rest =>
    if isMisplacedColon flow c rest then none
    else if endsPlain flow c rest then some ([], c :: rest)
    else (plainWord flow rest).map fun p => (c :: p.1, p.2)

/-- A scalar's text, whether it ends after a line break, and where reading goes on. -/
structure ScalarRead where
  text : List Char
  broken : Bool
  after : Cursor

def plainScalar (flow : Bool) (indent : Nat) :
    Nat → List Char → Gap → Cursor → Option ScalarRead
  | 0, _, _, _ => none
  | steps + 1, text, gap, c =>
    if c.atDocumentMark || c.rest.head? = some '#' then some ⟨text, gap.broken, c⟩
    else do
      let (word, rest) ← plainWord flow c.rest
      let (text, broken) :=
        if word.isEmpty then (text, gap.broken) else (text ++ gap.text ++ word, false)
      let c := c.skip word.length
      match rest with
      | [] => some ⟨text, broken, c⟩
      | d :: _ =>
        if !isGap d then some ⟨text, broken, c⟩
        else do
          let (gap, c) ← readGap indent (c.rest.length + 1) {} c
          if !flow && c.column < indent then some ⟨text, gap.broken, c⟩
          else plainScalar flow indent steps text gap c

def hexValue (c : Char) : Option Nat :=
  if '0' ≤ c ∧ c ≤ '9' then some (c.toNat - '0'.toNat)
  else if 'a' ≤ c ∧ c ≤ 'f' then some (c.toNat - 'a'.toNat + 10)
  else if 'A' ≤ c ∧ c ≤ 'F' then some (c.toNat - 'A'.toNat + 10)
  else none

def letterEscape (c : Char) : Option Char :=
  if c = '0' then some '\x00'
  else if c = 'a' then some '\x07'
  else if c = 'b' then some '\x08'
  else if c = 't' || c = '\t' then some '\t'
  else if c = 'n' then some '\n'
  else if c = 'v' then some '\x0b'
  else if c = 'f' then some '\x0c'
  else if c = 'r' then some '\r'
  else if c = 'e' then some '\x1b'
  else if c = ' ' || c = '"' || c = '/' || c = '\\' then some c
  else if c = 'N' then some '\u0085'
  else if c = '_' then some '\u00a0'
  else if c = 'L' then some '\u2028'
  else if c = 'P' then some '\u2029'
  else none

def escapeWidth (c : Char) : Option Nat :=
  if c = 'x' then some 2 else if c = 'u' then some 4 else if c = 'U' then some 8 else none

def numberedEscape (width : Nat) (cs : List Char) : Option Char := do
  let digits ← (cs.take width).mapM hexValue
  if digits.length < width then none
  else
    let n := digits.foldl (fun n d => n * 16 + d) 0
    if (0xD800 ≤ n && n ≤ 0xDFFF) || 0x10FFFF < n then none else some (Char.ofNat n)

def escape (cs : List Char) : Option (Char × Nat) :=
  match cs with
  | [] => none
  | c :: rest =>
    match escapeWidth c with
    | some width => (numberedEscape width rest).map fun d => (d, width + 2)
    | none => (letterEscape c).map fun d => (d, 2)

/-- Whether a quoted scalar ends at its quote or at a gap. An escaped line break
opens a gap that contributes no space. -/
structure WordRead where
  word : List Char
  escapedBreak : Bool
  after : Cursor

def quotedWord (quote : Char) : Nat → List Char → Cursor → Option WordRead
  | 0, word, c => some ⟨word, false, c⟩
  | steps + 1, word, c =>
    match c.rest with
    | [] => some ⟨word, false, c⟩
    | ch :: rest =>
      if isGap ch then some ⟨word, false, c⟩
      else if ch = quote then
        if quote = '\x27' && rest.head? = some quote then
          quotedWord quote steps (word ++ [quote]) (c.skip 2)
        else some ⟨word, false, c⟩
      else if quote = '"' && ch = '\\' then
        if (rest.head?.map isBreak).getD false then
          some ⟨word, true, (c.skip 1).lineBreak.2⟩
        else do
          let (d, length) ← escape rest
          quotedWord quote steps (word ++ [d]) (c.skip length)
      else quotedWord quote steps (word ++ [ch]) (c.skip 1)

def quotedScalar (quote : Char) : Nat → List Char → Cursor → Option ScalarRead
  | 0, _, _ => none
  | steps + 1, text, c =>
    if c.atDocumentMark || c.rest.isEmpty then none
    else do
      let w ← quotedWord quote (c.rest.length + 1) [] c
      if w.after.rest.head? = some quote then
        some ⟨text ++ w.word, false, w.after.skip 1⟩
      else
        let (gap, c) ← readGap 0 (w.after.rest.length + 1) { broken := w.escapedBreak } w.after
        quotedScalar quote steps (text ++ w.word ++ gap.text) c

/-- What happens to the line breaks at the end of a block. -/
inductive Chomping where
  | strip
  | clip
  | keep
  deriving DecidableEq

structure BlockHeader where
  chomping : Chomping := .clip
  increment : Nat := 0

def chompingOf (c : Char) : Option Chomping :=
  if c = '+' then some .keep else if c = '-' then some .strip else none

def incrementOf (c : Char) : Option Nat :=
  if '1' ≤ c ∧ c ≤ '9' then some (c.toNat - '0'.toNat) else none

/-- The indicators after `|` or `>`, in either order, and how many there are. -/
def blockHeader (cs : List Char) : BlockHeader × Nat :=
  match cs with
  | [] => ({}, 0)
  | a :: rest =>
    match chompingOf a, incrementOf a with
    | some chomping, _ =>
      match rest.head?.bind incrementOf with
      | some increment => (⟨chomping, increment⟩, 2)
      | none => (⟨chomping, 0⟩, 1)
    | none, some increment =>
      match rest.head?.bind chompingOf with
      | some chomping => (⟨chomping, increment⟩, 2)
      | none => (⟨.clip, increment⟩, 1)
    | none, none => ({}, 0)

def headerEnd (c : Cursor) : Option Cursor :=
  let c := c.skip (c.rest.takeWhile isBlank).length
  let c :=
    if c.rest.head? = some '#' then c.skip (c.rest.takeWhile fun ch => !isBreak ch).length
    else c
  match c.rest with
  | [] => some c
  | ch :: _ => if isBreak ch then some c.lineBreak.2 else none

/-- The line breaks before a line with text, and the widest indentation met. An
`indent` of zero is still to be found. -/
def blockBreaks (indent : Nat) :
    Nat → Nat → List Char → Cursor → Option (Nat × List Char × Cursor)
  | 0, _, _, _ => none
  | steps + 1, widest, breaks, c =>
    let spaces := (c.rest.takeWhile (· = ' ')).length
    let c := c.skip (if indent = 0 then spaces else min spaces (indent - c.column))
    let widest := max widest c.column
    match c.rest with
    | [] => some (widest, breaks, c)
    | ch :: _ =>
      if ch = '\t' && (indent = 0 || c.column < indent) then none
      else if isBreak ch then
        let (text, c) := c.lineBreak
        blockBreaks indent steps widest (breaks ++ text) c
      else some (widest, breaks, c)

/-- The text of a block being read, with the breaks that are not yet part of it. -/
structure BlockText where
  text : List Char
  first : List Char
  more : List Char
  /-- Whether the last line began with a blank. -/
  blankLine : Bool

/-- The lines of a block. In a folded block a break between two lines that begin
with text becomes a space. -/
def blockLines (literal : Bool) (indent : Nat) :
    Nat → BlockText → Cursor → Option (BlockText × Cursor)
  | 0, _, _ => none
  | steps + 1, b, c =>
    match c.rest with
    | [] => some (b, c)
    | ch :: _ =>
      if c.column ≠ indent then some (b, c)
      else do
        let blank := isBlank ch
        let joined :=
          if !literal && b.first = ['\n'] && !b.blankLine && !blank then
            if b.more.isEmpty then [' '] else []
          else b.first
        let line := c.rest.takeWhile fun ch => !isBreak ch
        let (first, c) := (c.skip line.length).lineBreak
        let (_, more, c) ← blockBreaks indent (c.rest.length + 1) 0 [] c
        blockLines literal indent steps ⟨b.text ++ joined ++ b.more ++ line, first, more, blank⟩ c

/-- A block scalar from its header on, inside a collection indented by `parent`. -/
def blockScalar (literal : Bool) (parent : Int) (c : Cursor) : Option ScalarRead := do
  let (header, length) := blockHeader c.rest
  let c ← headerEnd (c.skip length)
  let given := if header.increment = 0 then 0 else (max parent 0).toNat + header.increment
  let (widest, breaks, c) ← blockBreaks given (c.rest.length + 1) 0 [] c
  let indent := if given = 0 then max (max widest (parent + 1).toNat) 1 else given
  let (b, c) ← blockLines literal indent (c.rest.length + 1) ⟨[], [], breaks, false⟩ c
  let tail := match header.chomping with
    | .strip => []
    | .clip => b.first
    | .keep => b.first ++ b.more
  return ⟨b.text ++ tail, false, c⟩

end RecordSearch.Yaml
