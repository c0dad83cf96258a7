/-!
# Positions in a YAML text

A cursor is what is left of a text, with the place where that begins. YAML
depends on places: on columns for nesting, on lines and distances for keys.
Columns count characters, distances count the bytes of UTF-8.
-/
namespace RecordSearch.Yaml

def isBreak (c : Char) : Bool :=
  c = '\n' || c = '\r' || c = '\u0085' || c = '\u2028' || c = '\u2029'

def isBlank (c : Char) : Bool := c = ' ' || c = '\t'

def isGap (c : Char) : Bool := isBlank c || isBreak c

structure Cursor where
  rest : List Char
  /-- How many bytes came before. -/
  index : Nat
  line : Nat
  column : Nat

namespace Cursor

def start (text : List Char) : Cursor := ⟨text, 0, 0, 0⟩

def byteCount (cs : List Char) : Nat := cs.foldl (fun n c => n + c.utf8Size) 0

def skip (c : Cursor) (n : Nat) : Cursor :=
  { c with
    rest := c.rest.drop n
    index := c.index + byteCount (c.rest.take n)
    column := c.column + n }

/-- The line break at the cursor as it counts in a scalar, and the cursor after
it. All breaks but the two separators of Unicode count as a line feed. -/
def lineBreak (c : Cursor) : List Char × Cursor :=
  match c.rest with
  | '\r' :: '\n' :: rest => (['\n'], ⟨rest, c.index + 2, c.line + 1, 0⟩)
  | b :: rest =>
    (if b = '\u2028' || b = '\u2029' then [b] else ['\n'],
      ⟨rest, c.index + b.utf8Size, c.line + 1, 0⟩)
  | [] => ([], c)

/-- Whether a blank, a line break or the end is `n` characters ahead. -/
def gapAt (c : Cursor) (n : Nat) : Bool :=
  match c.rest.drop n with
  | [] => true
  | ch :: _ => isGap ch

/-- Whether the line begins with three of `ch` that stand alone. -/
def atMark (c : Cursor) (ch : Char) : Bool :=
  c.column = 0 && c.rest.take 3 = [ch, ch, ch] && c.gapAt 3

def atDocumentMark (c : Cursor) : Bool := c.atMark '-' || c.atMark '.'

end Cursor

end RecordSearch.Yaml
