import RecordSearch.Toml.Literal

/-!
# Reading TOML

A text is a sequence of lines: headers of tables, keys with values, comments and
blank lines. Arrays may stretch over several lines, tables written inline may
not. A loop runs on a number of steps that no text of that length exhausts.
-/
namespace RecordSearch.Toml

def isSpace (c : Char) : Bool := c = ' ' || c = '\t'

def skipSpace (cs : List Char) : List Char := cs.dropWhile isSpace

/-- Characters that may stand in comments and in quotes. -/
def isShown (c : Char) : Bool := c = '\t' || (' ' ≤ c && c ≠ '\x7f')

def lineBreak : List Char → Option (List Char)
  | '\n' :: rest => some rest
  | '\r' :: '\n' :: rest => some rest
  | _ => none

def skipComment (cs : List Char) : List Char :=
  match skipSpace cs with
  | '#' :: rest => rest.dropWhile isShown
  | cs => cs

def lineEnd (cs : List Char) : Option (List Char) :=
  match skipComment cs with
  | [] => some []
  | cs => lineBreak cs

def skipLines : Nat → List Char → List Char
  | 0, cs => cs
  | steps + 1, cs =>
    let cs := skipComment cs
    match lineBreak cs with
    | some rest => skipLines steps rest
    | none => cs

abbrev StringRead := Option (List Char × List Char)

def numberedEscape (width : Nat) (cs : List Char) : Option (Char × List Char) := do
  let ds ← (cs.take width).mapM (digitIn 16)
  let n := ds.foldl (fun n d => n * 16 + d) 0
  if ds.length < width || (0xD800 ≤ n && n ≤ 0xDFFF) || 0x10FFFF < n then none
  else some (Char.ofNat n, cs.drop width)

def escape : List Char → Option (Char × List Char)
  | [] => none
  | c :: rest =>
    if c = 'b' then some ('\x08', rest)
    else if c = 't' then some ('\t', rest)
    else if c = 'n' then some ('\n', rest)
    else if c = 'f' then some ('\x0c', rest)
    else if c = 'r' then some ('\r', rest)
    else if c = '"' || c = '\\' then some (c, rest)
    else if c = 'u' then numberedEscape 4 rest
    else if c = 'U' then numberedEscape 8 rest
    else none

/-- A string on one line, from after its quote. Only double quotes allow escapes. -/
def lineString (quote : Char) : Nat → List Char → List Char → StringRead
  | 0, _, _ => none
  | steps + 1, text, cs =>
    match cs with
    | [] => none
    | c :: rest =>
      if c = quote then some (text, rest)
      else if c = '\\' && quote = '"' then do
        let (d, rest) ← escape rest
        lineString quote steps (text ++ [d]) rest
      else if isShown c then lineString quote steps (text ++ [c]) rest
      else none

/-- Past a line break after a backslash, and all space and line breaks then. -/
def skipBlankLines : Nat → List Char → List Char
  | 0, cs => cs
  | steps + 1, cs =>
    let cs := skipSpace cs
    match lineBreak cs with
    | some rest => skipBlankLines steps rest
    | none => cs

/-- A string between three quotes, from after the first three. Up to two quotes
more may stand before the closing ones. -/
def blockString (quote : Char) : Nat → List Char → List Char → StringRead
  | 0, _, _ => none
  | steps + 1, text, cs =>
    match cs with
    | [] => none
    | c :: rest =>
      if c = quote then
        let run := cs.takeWhile (· = quote)
        if 5 < run.length then none
        else if 3 ≤ run.length then some (text ++ run.drop 3, cs.drop run.length)
        else blockString quote steps (text ++ run) (cs.drop run.length)
      else if c = '\\' && quote = '"' then
        match lineBreak (skipSpace rest) with
        | some rest => blockString quote steps text (skipBlankLines (rest.length + 1) rest)
        | none => do
          let (d, rest) ← escape rest
          blockString quote steps (text ++ [d]) rest
      else if isShown c then blockString quote steps (text ++ [c]) rest
      else match lineBreak cs with
        | some rest => blockString quote steps (text ++ ['\n']) rest
        | none => none

/-- A line break right after the opening quotes does not count. -/
def afterFirstBreak (cs : List Char) : List Char := (lineBreak cs).getD cs

def readString (quote : Char) (cs : List Char) : StringRead :=
  match cs with
  | a :: b :: rest =>
    if a = quote && b = quote then
      blockString quote (cs.length + 1) [] (afterFirstBreak rest)
    else lineString quote (cs.length + 1) [] cs
  | cs => lineString quote (cs.length + 1) [] cs

def isQuote (c : Char) : Bool := c = '"' || c = '\x27'

def isKeyChar (c : Char) : Bool :=
  isDigit c || ('a' ≤ c && c ≤ 'z') || ('A' ≤ c && c ≤ 'Z') || c = '_' || c = '-'

def simpleKey (cs : List Char) : Option (String × List Char) :=
  match cs with
  | [] => none
  | c :: rest =>
    if isQuote c then
      (lineString c (rest.length + 1) [] rest).map fun p => (String.ofList p.1, p.2)
    else
      let name := cs.takeWhile isKeyChar
      if name.isEmpty then none else some (String.ofList name, cs.drop name.length)

/-- Simple keys with points between them: the front part and the last. -/
def keyParts : Nat → List Char → Option ((List String × String) × List Char)
  | 0, _ => none
  | steps + 1, cs => do
    let (key, rest) ← simpleKey (skipSpace cs)
    match skipSpace rest with
    | '.' :: rest => do
      let ((path, last), rest) ← keyParts steps rest
      return ((key :: path, last), rest)
    | rest => return (([], key), rest)

def readKey (cs : List Char) : Option ((List String × String) × List Char) :=
  (keyParts (cs.length + 1) cs).filter fun p => p.1.1.length < nestingLimit

mutual

def readValue : Nat → List Char → Option (Item × List Char)
  | 0, _ => none
  | steps + 1, cs =>
    match cs with
    | '[' :: rest => do
      let (items, rest) ← readItems steps rest
      return (.array items, rest)
    | '{' :: rest =>
      match skipSpace rest with
      | '}' :: rest => some (.inline [], rest)
      | rest => do
        let (entries, rest) ← readEntries steps [] rest
        return (.inline entries, rest)
    | c :: rest =>
      if isQuote c then (readString c rest).map fun p => (.string (String.ofList p.1), p.2)
      else readLiteral cs
    | [] => none

/-- The items of an array up to its bracket; the last may have a comma. -/
def readItems : Nat → List Char → Option (List Item × List Char)
  | 0, _ => none
  | steps + 1, cs =>
    match skipLines (cs.length + 1) cs with
    | ']' :: rest => some ([], rest)
    | cs => do
      let (item, rest) ← readValue steps cs
      match skipLines (rest.length + 1) rest with
      | ',' :: rest => do
        let (items, rest) ← readItems steps rest
        return (item :: items, rest)
      | ']' :: rest => some ([item], rest)
      | _ => none

/-- The keys and values of a table written inline; the last has no comma. -/
def readEntries : Nat → Table → List Char → Option (Table × List Char)
  | 0, _, _ => none
  | steps + 1, table, cs => do
    let ((path, key), item, rest) ← readAssignment steps cs
    let table ← table.alterDotted (Table.insertNew key item) path
    match skipSpace rest with
    | ',' :: rest => readEntries steps table rest
    | '}' :: rest => some (table, rest)
    | _ => none

def readAssignment :
    Nat → List Char → Option ((List String × String) × Item × List Char)
  | 0, _ => none
  | steps + 1, cs => do
    let (key, rest) ← readKey cs
    match rest with
    | '=' :: rest => do
      let (item, rest) ← readValue steps (skipSpace rest)
      return (key, item, rest)
    | _ => none

end

/-- A table so far, and the header under which keys are added. -/
structure State where
  table : Table := []
  header : List String := []

def readHeader (closing : List Char) (cs : List Char) :
    Option ((List String × String) × List Char) := do
  let (key, rest) ← readKey cs
  if closing.isPrefixOf rest then some (key, rest.drop closing.length) else none

/-- What stands on a line, if anything, and the text after it. -/
def readLine (s : State) (cs : List Char) : Option (State × List Char) :=
  match cs with
  | [] => some (s, [])
  | '#' :: _ => some (s, cs)
  | '\n' :: _ => some (s, cs)
  | '\r' :: _ => some (s, cs)
  | '[' :: '[' :: rest => do
    let ((path, key), rest) ← readHeader [']', ']'] rest
    let table ← s.table.openNext path key
    return (⟨table, path ++ [key]⟩, rest)
  | '[' :: rest => do
    let ((path, key), rest) ← readHeader [']'] rest
    let table ← s.table.openHeader path key
    return (⟨table, path ++ [key]⟩, rest)
  | cs => do
    let ((path, key), item, rest) ← readAssignment (2 * cs.length + 2) cs
    if nestingLimit < item.depth then none
    else
      let table ← s.table.assign s.header path key item
      return ({ s with table }, rest)

def readLines : Nat → State → List Char → Option Table
  | 0, _, _ => none
  | steps + 1, s, cs => do
    let (s, rest) ← readLine s (skipSpace cs)
    match ← lineEnd rest with
    | [] => some s.table
    | rest => readLines steps s rest

/-- The table that a text writes. A byte order mark at its start is passed over. -/
def Table.ofText (text : String) : Option Table :=
  let cs := match text.toList with
    | '\uFEFF' :: rest => rest
    | cs => cs
  readLines (cs.length + 1) {} cs

end RecordSearch.Toml
