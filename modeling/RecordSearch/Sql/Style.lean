import RecordSearch.Json.Printer

/-!
# Statement style

How client values enter the text of a statement. In literal mode they are
spelled out; in parameterized mode a placeholder stands for each and the values
travel beside the text. Text that is spelled out either keeps its quotes as they
are or has them doubled. Keys and identifiers are always spelled out, and in
parameterized mode their quotes are always doubled.
-/
namespace RecordSearch.Sql

open Json (Value)

inductive RenderMode where
  | literal
  | parameterized
  deriving DecidableEq, Repr

inductive Quoting where
  | verbatim
  | escaped
  deriving DecidableEq, Repr

/-- How placeholders are written: numbered from `$1`, or all alike. -/
inductive Dialect where
  | postgres
  | plain
  deriving DecidableEq, Repr

structure Style where
  mode : RenderMode
  quoting : Quoting
  dialect : Dialect
  deriving DecidableEq, Repr

namespace RenderMode

def ofName? (s : String) : Option RenderMode :=
  if s = "literal" then some .literal
  else if s = "parameterized" then some .parameterized
  else none

def name : RenderMode → String
  | .literal => "literal"
  | .parameterized => "parameterized"

end RenderMode

def singleQuote : Char := '\x27'

def doubleQuote : Char := '\x22'

namespace Quoting

def ofName? (s : String) : Option Quoting :=
  if s = "verbatim" then some .verbatim
  else if s = "escaped" then some .escaped
  else none

def name : Quoting → String
  | .verbatim => "verbatim"
  | .escaped => "escaped"

/-- The text that stands between two `quote`s. -/
def inside (quoting : Quoting) (quote : Char) (text : List Char) : List Char :=
  match quoting with
  | .verbatim => text
  | .escaped => text.flatMap fun c => if c = quote then [quote, quote] else [c]

def wrap (quoting : Quoting) (quote : Char) (text : String) : List Char :=
  quote :: quoting.inside quote text.toList ++ [quote]

end Quoting

mutual
/-- A value spelled out: texts quoted, the items of an array one after the
other, an object as its compact text. -/
def literal (quoting : Quoting) : Value → List Char
  | .null => ['N', 'U', 'L', 'L']
  | .bool b => Json.boolText b
  | .number n => n.text
  | .string s => quoting.wrap singleQuote s
  | .array [] => []
  | .array (v :: rest) => literal quoting v ++ literalsAfter quoting rest
  | .object members => quoting.wrap singleQuote (Value.object members).compact

def literalsAfter (quoting : Quoting) : List Value → List Char
  | [] => []
  | v :: rest => ',' :: ' ' :: literal quoting v ++ literalsAfter quoting rest
end

/-- The placeholder of the value bound at `slot`, counted from zero. -/
def Dialect.placeholder (dialect : Dialect) (slot : Nat) : List Char :=
  match dialect with
  | .postgres => '$' :: Nat.toDigits 10 (slot + 1)
  | .plain => ['?']

def Style.inlineQuoting (style : Style) : Quoting :=
  match style.mode with
  | .literal => style.quoting
  | .parameterized => .escaped

/-- A text that is to stand between single quotes written by someone else. -/
def Style.embedded (style : Style) (text : String) : String :=
  String.ofList (style.inlineQuoting.inside singleQuote text.toList)

end RecordSearch.Sql

namespace RecordSearch.Json

/-- A value as bare text: a string without quotes, `NULL`, and compact JSON for
the rest. -/
def Value.plain : Value → String
  | .string s => s
  | .null => "NULL"
  | v => v.compact

end RecordSearch.Json
