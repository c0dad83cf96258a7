import RecordSearch.Sql.Style

/-!
# Fragments

A piece of a statement is fixed text, a client value, a key of the payload or an
identifier. A fragment is a list of pieces, and in this one place a style decides
how each of them is written.
-/
namespace RecordSearch.Sql

open Json (Value)

inductive Piece where
  | fixed (text : String)
  /-- A value and the position at which it is bound. -/
  | value (slot : Nat) (v : Value)
  /-- Text between single quotes that is never bound. -/
  | key (text : String)
  /-- A quoted identifier. -/
  | ident (text : String)
  deriving Repr

abbrev Fragment := List Piece

namespace Piece

def chars (style : Style) : Piece → List Char
  | .fixed text => text.toList
  | .value slot v =>
    match style.mode with
    | .literal => literal style.quoting v
    | .parameterized => style.dialect.placeholder slot
  | .key text => style.inlineQuoting.wrap singleQuote text
  | .ident text => style.inlineQuoting.wrap doubleQuote text

end Piece

namespace Fragment

def chars (style : Style) (f : Fragment) : List Char := f.flatMap (Piece.chars style)

def text (style : Style) (f : Fragment) : String := String.ofList (chars style f)

def ofText (s : String) : Fragment := [.fixed s]

/-- The fragments with `sep` between each two. -/
def join (sep : String) (fs : List Fragment) : Fragment :=
  List.intercalate (ofText sep) fs

@[simp] theorem chars_nil (style : Style) : chars style [] = [] := rfl

@[simp] theorem chars_cons (style : Style) (p : Piece) (f : Fragment) :
    chars style (p :: f) = p.chars style ++ chars style f := by
  simp [chars]

@[simp] theorem chars_append (style : Style) (f g : Fragment) :
    chars style (f ++ g) = chars style f ++ chars style g := by
  simp [chars]

@[simp] theorem chars_ofText (style : Style) (s : String) :
    chars style (ofText s) = s.toList := by
  simp [ofText, Piece.chars]

end Fragment

end RecordSearch.Sql
