import RecordSearch.Yaml.Token

/-!
# YAML nodes

A text with one document, as a tree of scalars, sequences and mappings. Nothing
is known about the meaning of a scalar here, only its text and whether it was
written plainly. What is left out is an empty plain scalar.
-/
namespace RecordSearch.Yaml

inductive Node where
  | scalar (plain : Bool) (text : String)
  | sequence (items : List Node)
  | mapping (pairs : List (Node × Node))
  deriving Repr, Inhabited

def Node.empty : Node := .scalar true ""

/-- Where a node may stand: inside a flow collection, in a block, or as the value
of a block mapping, where a sequence need not be indented. -/
inductive Context where
  | flow
  | block
  | blockValue
  deriving DecidableEq

/-- Whether one of the tokens that leave a node out comes next. -/
def leftOut (stops : List Token) : List Token → Bool
  | t :: _ => stops.contains t
  | [] => false

def afterComma (first : Bool) (ts : List Token) : Option (List Token) :=
  if first then some ts
  else match ts with
    | .flowEntry :: rest => some rest
    | _ => none

mutual

def readNode : Nat → Context → List Token → Option (Node × List Token)
  | 0, _, _ => none
  | steps + 1, context, ts =>
    match ts, context with
    | .scalar plain text :: rest, _ => some (.scalar plain text, rest)
    | .flowSequence :: rest, _ => do
      let (items, rest) ← flowItems steps true rest
      return (.sequence items, rest)
    | .flowMapping :: rest, _ => do
      let (pairs, rest) ← flowPairs steps true rest
      return (.mapping pairs, rest)
    | .blockEntry :: rest, .blockValue => do
      let (items, rest) ← looseItems steps (.blockEntry :: rest)
      return (.sequence items, rest)
    | .blockSequence :: rest, .block | .blockSequence :: rest, .blockValue => do
      let (items, rest) ← blockItems steps rest
      return (.sequence items, rest)
    | .blockMapping :: rest, .block | .blockMapping :: rest, .blockValue => do
      let (pairs, rest) ← blockPairs steps rest
      return (.mapping pairs, rest)
    | _, _ => none

/-- A node, or an empty one where one of `stops` comes instead. -/
def readOptional : Nat → Context → List Token → List Token → Option (Node × List Token)
  | 0, _, _, _ => none
  | steps + 1, context, stops, ts =>
    if leftOut stops ts then some (.empty, ts) else readNode steps context ts

def blockItems : Nat → List Token → Option (List Node × List Token)
  | 0, _ => none
  | steps + 1, ts =>
    match ts with
    | .blockEntry :: rest => do
      let (item, rest) ← readOptional steps .block [.blockEntry, .blockEnd] rest
      let (items, rest) ← blockItems steps rest
      return (item :: items, rest)
    | .blockEnd :: rest => some ([], rest)
    | _ => none

/-- The items of a sequence that is not indented end where something else comes. -/
def looseItems : Nat → List Token → Option (List Node × List Token)
  | 0, _ => none
  | steps + 1, ts =>
    match ts with
    | .blockEntry :: rest => do
      let (item, rest) ←
        readOptional steps .block [.blockEntry, .key, .value, .blockEnd] rest
      let (items, rest) ← looseItems steps rest
      return (item :: items, rest)
    | ts => some ([], ts)

def blockPairs : Nat → List Token → Option (List (Node × Node) × List Token)
  | 0, _ => none
  | steps + 1, ts =>
    match ts with
    | .key :: rest => do
      let (key, rest) ← readOptional steps .blockValue [.key, .value, .blockEnd] rest
      let (value, rest) ← match rest with
        | .value :: rest => readOptional steps .blockValue [.key, .value, .blockEnd] rest
        | rest => some (.empty, rest)
      let (pairs, rest) ← blockPairs steps rest
      return ((key, value) :: pairs, rest)
    | .blockEnd :: rest => some ([], rest)
    | _ => none

/-- The items of a flow sequence; one of them may be a pair without braces. A marked
key that is left out takes the token that shows its absence with it, so that a
comma, a colon or the closing bracket has to be written twice after it. -/
def flowItems : Nat → Bool → List Token → Option (List Node × List Token)
  | 0, _, _ => none
  | steps + 1, first, ts =>
    match ts with
    | .flowSequenceEnd :: rest => some ([], rest)
    | ts => do
      let ts ← afterComma first ts
      match ts with
      | .flowSequenceEnd :: rest => some ([], rest)
      | .key :: rest => do
        let (key, rest) ←
          if leftOut [.value, .flowEntry, .flowSequenceEnd] rest then some (.empty, rest.tail)
          else readNode steps .flow rest
        let (value, rest) ← match rest with
          | .value :: rest => readOptional steps .flow [.flowEntry, .flowSequenceEnd] rest
          | rest => some (.empty, rest)
        let (items, rest) ← flowItems steps false rest
        return (.mapping [(key, value)] :: items, rest)
      | ts => do
        let (item, rest) ← readNode steps .flow ts
        let (items, rest) ← flowItems steps false rest
        return (item :: items, rest)

def flowPairs : Nat → Bool → List Token → Option (List (Node × Node) × List Token)
  | 0, _, _ => none
  | steps + 1, first, ts =>
    match ts with
    | .flowMappingEnd :: rest => some ([], rest)
    | ts => do
      let ts ← afterComma first ts
      match ts with
      | .flowMappingEnd :: rest => some ([], rest)
      | .key :: rest => do
        let (key, rest) ← readOptional steps .flow [.value, .flowEntry, .flowMappingEnd] rest
        let (value, rest) ← match rest with
          | .value :: rest => readOptional steps .flow [.flowEntry, .flowMappingEnd] rest
          | rest => some (.empty, rest)
        let (pairs, rest) ← flowPairs steps false rest
        return ((key, value) :: pairs, rest)
      | ts => do
        let (key, rest) ← readNode steps .flow ts
        let (pairs, rest) ← flowPairs steps false rest
        return ((key, .empty) :: pairs, rest)

end

/-- The one document of a text. It may be marked at its start and its end. -/
def readDocument (ts : List Token) : Option Node := do
  let steps := 4 * ts.length + 4
  let (node, rest) ← match ts with
    | [] => none
    | .documentStart :: rest =>
      if rest.isEmpty || leftOut [.documentStart, .documentEnd] rest then some (Node.empty, rest)
      else readNode steps .block rest
    | ts => readNode steps .block ts
  if rest.all (· = .documentEnd) then some node else none

mutual
def Node.depth : Node → Nat
  | .scalar _ _ => 0
  | .sequence items => itemsDepth items + 1
  | .mapping pairs => pairsDepth pairs + 1

def itemsDepth : List Node → Nat
  | [] => 0
  | n :: rest => max n.depth (itemsDepth rest)

def pairsDepth : List (Node × Node) → Nat
  | [] => 0
  | (k, v) :: rest => max (max k.depth v.depth) (pairsDepth rest)
end

def depthLimit : Nat := 128

def Node.ofText (text : String) : Option Node := do
  let ts ← tokens text
  let node ← readDocument ts.toList
  if node.depth ≤ depthLimit then some node else none

end RecordSearch.Yaml
