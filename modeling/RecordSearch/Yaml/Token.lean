import RecordSearch.Yaml.Scalar

/-!
# YAML tokens

The tokens of a text, with the nesting by indentation made explicit. A mapping
shows only at the colon after its first key, so the token that opens it is put
in front of that key afterwards. A key that has no mark of its own stays on one
line and within 1024 bytes.

Anchors, aliases, tags and directives are not read: a text that has one is
refused.
-/
namespace RecordSearch.Yaml

inductive Token where
  | documentStart
  | documentEnd
  | blockSequence
  | blockMapping
  | blockEnd
  | blockEntry
  | key
  | value
  | flowSequence
  | flowSequenceEnd
  | flowMapping
  | flowMappingEnd
  | flowEntry
  | scalar (plain : Bool) (text : String)
  deriving DecidableEq, Repr

/-- A token that may turn out to be a key: its number and its place. A key that
is required must be followed by its colon. -/
structure PossibleKey where
  required : Bool
  number : Nat
  index : Nat
  line : Nat
  column : Nat

structure Scanner where
  cursor : Cursor
  tokens : Array Token := #[]
  /-- The column of the innermost block collection, and of those around it. -/
  indent : Int := -1
  outer : List Int := []
  keyAllowed : Bool := true
  /-- The possible key of each open flow collection and of the block around. -/
  keys : List (Option PossibleKey) := [none]

namespace Scanner

def inFlow (s : Scanner) : Bool := 1 < s.keys.length

def emit (s : Scanner) (t : Token) : Scanner := { s with tokens := s.tokens.push t }

def skip (s : Scanner) (n : Nat) : Scanner := { s with cursor := s.cursor.skip n }

def allowKey (s : Scanner) (allowed : Bool) : Scanner := { s with keyAllowed := allowed }

/-- The innermost possible key is given up, which a required key cannot be. -/
def dropKey (s : Scanner) : Option Scanner :=
  match s.keys with
  | [] => some s
  | none :: _ => some s
  | some k :: rest => if k.required then none else some { s with keys := none :: rest }

def markKey (s : Scanner) : Option Scanner :=
  if s.keyAllowed then do
    let s ← s.dropKey
    let k : PossibleKey :=
      { required := !s.inFlow && s.indent = s.cursor.column
        number := s.tokens.size
        index := s.cursor.index
        line := s.cursor.line
        column := s.cursor.column }
    return { s with keys := some k :: s.keys.tail }
  else some s

def isStale (c : Cursor) (k : PossibleKey) : Bool :=
  k.line < c.line || k.index + 1024 < c.index

/-- Keys that have become too long are given up. -/
def dropStaleKeys (s : Scanner) : Option Scanner := do
  let keys ← s.keys.mapM fun k? =>
    match k? with
    | none => some none
    | some k =>
      if isStale s.cursor k then (if k.required then none else some none) else some (some k)
  return { s with keys }

/-- A block collection opens at a column right of the innermost one; its token
goes to position `number`. -/
def openBlock (s : Scanner) (column : Nat) (number : Nat) (t : Token) : Scanner :=
  if !s.inFlow && s.indent < column then
    { s with
      indent := column
      outer := s.indent :: s.outer
      tokens := s.tokens.insertIdxIfInBounds number t }
  else s

/-- Every block collection right of a column closes. -/
def closeBlocks (s : Scanner) (column : Int) : Scanner :=
  if s.inFlow then s
  else
    let closed := (s.indent :: s.outer).takeWhile fun i => column < i
    let left := (s.indent :: s.outer).dropWhile fun i => column < i
    { s with
      indent := left.headD (-1)
      outer := left.tail
      tokens := s.tokens ++ (closed.map fun _ => Token.blockEnd).toArray }

/-- Past blanks, comments and line breaks. A tab may not stand where a key could
begin. A byte order mark at the start of a line means nothing, but what follows it
on its line stands one column further right. -/
def skipGap : Nat → Scanner → Scanner
  | 0, s => s
  | steps + 1, s =>
    let s := if s.cursor.column = 0 && s.cursor.rest.head? = some '\uFEFF' then s.skip 1 else s
    let blank := fun ch => ch = ' ' || ((s.inFlow || !s.keyAllowed) && ch = '\t')
    let s := s.skip (s.cursor.rest.takeWhile blank).length
    let s :=
      if s.cursor.rest.head? = some '#' then
        s.skip (s.cursor.rest.takeWhile fun ch => !isBreak ch).length
      else s
    match s.cursor.rest with
    | [] => s
    | ch :: _ =>
      if isBreak ch then
        skipGap steps
          { s with cursor := s.cursor.lineBreak.2, keyAllowed := s.keyAllowed || !s.inFlow }
      else s

def documentMark (s : Scanner) (t : Token) : Option Scanner := do
  let s ← (s.closeBlocks (-1)).dropKey
  return ((s.allowKey false).skip 3).emit t

def openFlow (s : Scanner) (t : Token) : Option Scanner := do
  let s ← s.markKey
  return ((({ s with keys := none :: s.keys }).allowKey true).skip 1).emit t

def closeFlow (s : Scanner) (t : Token) : Option Scanner := do
  let s ← s.dropKey
  let s := if s.inFlow then { s with keys := s.keys.tail } else s
  return ((s.allowKey false).skip 1).emit t

def flowEntry (s : Scanner) : Option Scanner := do
  let s ← s.dropKey
  return ((s.allowKey true).skip 1).emit .flowEntry

/-- A block collection may open only where a key would be allowed. -/
def openHere (s : Scanner) (t : Token) : Option Scanner :=
  if s.inFlow then some s
  else if s.keyAllowed then some (s.openBlock s.cursor.column s.tokens.size t)
  else none

def blockEntry (s : Scanner) : Option Scanner := do
  let s ← s.openHere .blockSequence
  let s ← s.dropKey
  return ((s.allowKey true).skip 1).emit .blockEntry

def explicitKey (s : Scanner) : Option Scanner := do
  let s ← s.openHere .blockMapping
  let s ← s.dropKey
  return ((s.allowKey (!s.inFlow)).skip 1).emit .key

/-- A colon: the possible key before it becomes a key, and a mapping may open. -/
def value (s : Scanner) : Option Scanner :=
  match s.keys with
  | some k :: rest =>
    let s := { s with keys := none :: rest, tokens := s.tokens.insertIdxIfInBounds k.number .key }
    let s := s.openBlock k.column k.number .blockMapping
    some (((s.allowKey false).skip 1).emit .value)
  | _ => do
    let s ← s.openHere .blockMapping
    return ((s.allowKey (!s.inFlow)).skip 1).emit .value

def flowScalar (s : Scanner) (quote : Char) : Option Scanner := do
  let s ← s.markKey
  let r ← quotedScalar quote (s.cursor.rest.length + 1) [] (s.cursor.skip 1)
  let s := { s with cursor := r.after, keyAllowed := false }
  return s.emit (.scalar false (String.ofList r.text))

def plain (s : Scanner) : Option Scanner := do
  let s ← s.markKey
  let r ← plainScalar s.inFlow (s.indent + 1).toNat (s.cursor.rest.length + 1) [] {} s.cursor
  let s := { s with cursor := r.after, keyAllowed := r.broken }
  return s.emit (.scalar true (String.ofList r.text))

def block (s : Scanner) (literal : Bool) : Option Scanner := do
  let s ← s.dropKey
  let r ← blockScalar literal s.indent (s.cursor.skip 1)
  let s := { s with cursor := r.after, keyAllowed := true }
  return s.emit (.scalar false (String.ofList r.text))

def isIndicator (c : Char) : Bool :=
  isFlowIndicator c || "-?:#&*!|>'\"%@`".toList.contains c

def beginsPlain (s : Scanner) (c : Char) (rest : List Char) : Bool :=
  !(isGap c || isIndicator c) ||
    (c = '-' && !(rest.head?.map isBlank).getD false) ||
    (!s.inFlow && (c = '?' || c = ':') && !(rest.head?.map isGap).getD true)

def fetch (s : Scanner) (c : Char) (rest : List Char) : Option Scanner :=
  let alone := s.cursor.gapAt 1
  if s.cursor.column = 0 && c = '%' then none
  else if s.cursor.atMark '-' then s.documentMark .documentStart
  else if s.cursor.atMark '.' then s.documentMark .documentEnd
  else if c = '[' then s.openFlow .flowSequence
  else if c = '{' then s.openFlow .flowMapping
  else if c = ']' then s.closeFlow .flowSequenceEnd
  else if c = '}' then s.closeFlow .flowMappingEnd
  else if c = ',' then s.flowEntry
  else if c = '-' && alone then s.blockEntry
  else if c = '?' && (s.inFlow || alone) then s.explicitKey
  else if c = ':' && (s.inFlow || alone) then s.value
  else if c = '|' && !s.inFlow then s.block true
  else if c = '>' && !s.inFlow then s.block false
  else if c = '\x27' || c = '"' then s.flowScalar c
  else if s.beginsPlain c rest then s.plain
  else none

/-- The remaining tokens. At the end every block closes. -/
def finish : Nat → Scanner → Option (Array Token)
  | 0, _ => none
  | steps + 1, s => do
    let s := s.skipGap (s.cursor.rest.length + 1)
    let s ← s.dropStaleKeys
    let s := s.closeBlocks s.cursor.column
    match s.cursor.rest with
    | [] =>
      let s ← (s.closeBlocks (-1)).dropKey
      return s.tokens
    | c :: rest =>
      let s ← s.fetch c rest
      finish steps s

end Scanner

def isAllowed (c : Char) : Bool :=
  c = '\t' || c = '\n' || c = '\r' || c = '\u0085' || (' ' ≤ c && c ≤ '~') ||
    ('\u00a0' ≤ c && c ≤ '\uFFFD') || 0x10000 ≤ c.toNat

def tokens (text : String) : Option (Array Token) :=
  let cs := text.toList
  if cs.all isAllowed then
    Scanner.finish (cs.length + 1) { cursor := Cursor.start cs }
  else none

end RecordSearch.Yaml
