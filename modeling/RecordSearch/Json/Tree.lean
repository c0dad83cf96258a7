import RecordSearch.Json.Token

/-!
# JSON syntax trees

A tree is what a text says, up to the place where it stops being JSON. There it
is `broken`: as a value that never came, or as a container that was never
closed. A reader of the tree meets that place exactly when it has read
everything before it, so the first mistake of a text wins whether it is one of
syntax or one of meaning.

At most 127 containers are open at once; a deeper one is malformed.
-/
namespace RecordSearch.Json

/-- How a container ends. -/
inductive Ending where
  | closed
  | broken (fault : Fault)
  deriving DecidableEq, Repr

inductive Tree where
  | null
  | bool (b : Bool)
  | number (n : Number)
  | string (s : String)
  | array (items : List Tree) (ending : Ending)
  | object (members : List (String × Tree)) (ending : Ending)
  | broken (fault : Fault)
  deriving Repr, Inhabited

/-- An open container around the one being read: what it holds so far, last
first. An object also has the key whose value is being read. -/
inductive Frame where
  | array (before : List Tree)
  | object (before : List (String × Tree)) (key : String)

/-- What may come next, with the content of the innermost container so far. -/
inductive Place where
  | value
  | firstItem
  | afterItem (items : List Tree)
  | firstKey
  | nextKey (members : List (String × Tree))
  | colon (members : List (String × Tree)) (key : String)
  | afterMember (members : List (String × Tree))
  | complete (tree : Tree)

structure State where
  place : Place
  frames : List Frame

def depthLimit : Nat := 127

def place (t : Tree) : List Frame → State
  | [] => ⟨.complete t, []⟩
  | .array before :: frames => ⟨.afterItem (t :: before), frames⟩
  | .object before key :: frames => ⟨.afterMember ((key, t) :: before), frames⟩

/-- A broken tree breaks every container around it. -/
def enclose (fault : Fault) (t : Tree) : List Frame → Tree
  | [] => t
  | .array before :: frames =>
    enclose fault (.array (before.reverse ++ [t]) (.broken fault)) frames
  | .object before key :: frames =>
    enclose fault (.object (before.reverse ++ [(key, t)]) (.broken fault)) frames

/-- The innermost tree when reading stops at a place. -/
def Place.broken (fault : Fault) : Place → Tree
  | .value => .broken fault
  | .firstItem => .array [] (.broken fault)
  | .afterItem items => .array items.reverse (.broken fault)
  | .firstKey => .object [] (.broken fault)
  | .nextKey members => .object members.reverse (.broken fault)
  | .colon members key => .object (members.reverse ++ [(key, .broken fault)]) (.broken fault)
  | .afterMember members => .object members.reverse (.broken fault)
  | .complete t => t

def State.stop (s : State) (fault : Fault) : Tree :=
  enclose fault (s.place.broken fault) s.frames

def State.fail (s : State) (fault : Fault) : State := ⟨.complete (s.stop fault), []⟩

def beginValue (frames : List Frame) : Token → State
  | .null => place .null frames
  | .bool b => place (.bool b) frames
  | .number n => place (.number n) frames
  | .string s => place (.string s) frames
  | .beginArray =>
    if frames.length < depthLimit then ⟨.firstItem, frames⟩
    else State.fail ⟨.value, frames⟩ .malformed
  | .beginObject =>
    if frames.length < depthLimit then ⟨.firstKey, frames⟩
    else State.fail ⟨.value, frames⟩ .malformed
  | .broken _ fault => State.fail ⟨.value, frames⟩ fault
  | _ => State.fail ⟨.value, frames⟩ .malformed

def beginMember (here : Place) (before : List (String × Tree)) (frames : List Frame) :
    Token → State
  | .string key => ⟨.colon before key, frames⟩
  | .broken true fault => State.fail ⟨here, frames⟩ fault
  | _ => State.fail ⟨here, frames⟩ .malformed

def step (s : State) (t : Token) : State :=
  match s.place, t with
  | .value, t => beginValue s.frames t
  | .firstItem, .endArray => place (.array [] .closed) s.frames
  | .firstItem, t => beginValue (.array [] :: s.frames) t
  | .afterItem items, .endArray => place (.array items.reverse .closed) s.frames
  | .afterItem items, .comma => ⟨.value, .array items :: s.frames⟩
  | .afterItem _, _ => s.fail .malformed
  | .firstKey, .endObject => place (.object [] .closed) s.frames
  | .firstKey, t => beginMember .firstKey [] s.frames t
  | .nextKey members, t => beginMember (.nextKey members) members s.frames t
  | .colon members key, .colon => ⟨.value, .object members key :: s.frames⟩
  | .colon _ _, _ => s.fail .malformed
  | .afterMember members, .endObject => place (.object members.reverse .closed) s.frames
  | .afterMember members, .comma => ⟨.nextKey members, s.frames⟩
  | .afterMember _, _ => s.fail .malformed
  | .complete _, _ => s

/-- The tree of the tokens, and the tokens that follow it. -/
def run : State → List Token → Tree × List Token
  | ⟨.complete t, _⟩, ts => (t, ts)
  | s, [] => (s.stop .cutShort, [])
  | s, t :: ts => run (step s t) ts

/-- A text as a tree, and whether anything follows it. -/
structure Document where
  tree : Tree
  trailing : Bool

def Document.ofText (text : String) : Document :=
  let (tree, rest) := run ⟨.value, []⟩ (tokens text.toList)
  ⟨tree, !rest.isEmpty⟩

def Ending.check : Ending → Except Fault Unit
  | .closed => .ok ()
  | .broken fault => .error fault

mutual
/-- The value of a tree that is whole, and otherwise its first fault. -/
def Tree.value : Tree → Except Fault Value
  | .null => .ok .null
  | .bool b => .ok (.bool b)
  | .number n => .ok (.number n)
  | .string s => .ok (.string s)
  | .array items ending => do
    let vs ← itemValues items
    ending.check
    return .array vs
  | .object members ending => do
    let ms ← memberValues members
    ending.check
    return .object (Members.ofList ms)
  | .broken fault => .error fault

def itemValues : List Tree → Except Fault (List Value)
  | [] => .ok []
  | t :: rest => do
    let v ← t.value
    let vs ← itemValues rest
    return v :: vs

def memberValues : List (String × Tree) → Except Fault (List (String × Value))
  | [] => .ok []
  | (key, t) :: rest => do
    let v ← t.value
    let ms ← memberValues rest
    return (key, v) :: ms
end

def Value.ofText (text : String) : Except Fault Value := do
  let document := Document.ofText text
  let v ← document.tree.value
  if document.trailing then .error .malformed else .ok v

end RecordSearch.Json
