import RecordSearch.Proofs.Association
import RecordSearch.Proofs.Condition

/-!
# Moving positions

What is laid out later has the same text around higher positions: each of them is moved
by the number of values that are bound in between. A literal text shows no positions, so
that it is the same wherever it is laid out.
-/
namespace RecordSearch

open Json (Value)
open Sql (Fragment Substitution)
open Sql.Binder (valuesAt)

namespace Sql

/-- A piece with its position moved. -/
def Piece.shift (k : Nat) : Piece → Piece
  | .fixed text => .fixed text
  | .value slot v => .value (slot + k) v
  | .key text => .key text
  | .ident text => .ident text

namespace Fragment

def shift (k : Nat) (f : Fragment) : Fragment := f.map (Piece.shift k)

theorem shift_append (k : Nat) (f g : Fragment) : shift k (f ++ g) = shift k f ++ shift k g :=
  List.map_append

/-- A literal text shows no positions. -/
theorem text_shift {style : Style} (h : style.mode = .literal) (k : Nat) (f : Fragment) :
    text style (shift k f) = text style f := by
  have hpiece : ∀ p : Piece, (p.shift k).chars style = p.chars style := by
    intro p
    cases p with
    | value slot v => simp only [Piece.shift, Piece.chars, h]
    | fixed text | key text | ident text => rfl
  rw [text, text, shift, chars_map hpiece]

end Fragment

theorem valuesAt_add (n k : Nat) (vs : List Value) :
    valuesAt (n + k) vs = Fragment.shift k (valuesAt n vs) := by
  induction vs generalizing n with
  | nil => rfl
  | cons v vs ih =>
    cases vs with
    | nil => rfl
    | cons w vs =>
      have hrest := ih (n + 1)
      rw [Nat.add_right_comm] at hrest
      rw [valuesAt_cons_cons, valuesAt_cons_cons, hrest]
      rfl

end Sql

theorem ColumnRef.shift_fragment (k : Nat) (c : ColumnRef) :
    Fragment.shift k c.fragment = c.fragment := by
  cases c <;> rfl

theorem Operator.shift_around (k : Nat) (op : Operator) (f : Fragment) :
    Fragment.shift k (op.around f) = op.around (Fragment.shift k f) := by
  simp [around, Fragment.shift, Sql.Piece.shift]

theorem Predicate.layout_add (p : Predicate) (n k : Nat) :
    p.layout (n + k) = Fragment.shift k (p.layout n) := by
  rw [layout, layout, Fragment.shift_append, p.column.shift_fragment, p.operator.shift_around,
    Sql.valuesAt_add]

theorem Predicate.text_layout {style : Sql.Style} (h : style.mode = .literal) (p : Predicate)
    (n : Nat) : Fragment.text style (p.layout n) = Fragment.text style (p.layout 0) := by
  have hshift := p.layout_add 0 n
  rw [Nat.zero_add] at hshift
  rw [hshift, Fragment.text_shift h]

theorem SubqueryValues.table_add (values : SubqueryValues) (n k : Nat) :
    values.table (n + k) = (values.table n).mapPieces (Sql.Piece.shift k) := by
  cases values with
  | idsFromSource source ids =>
    rw [table, Sql.valuesAt_add]
    rfl
  | creators ids =>
    rw [table, Sql.valuesAt_add]
    rfl
  | bounds lower upper =>
    rw [table, Nat.add_right_comm]
    rfl
  | task id => rfl

theorem AssociationFilter.subquery_add (f : AssociationFilter) (projectId : String) (n k : Nat) :
    f.subquery projectId (n + k) = Fragment.shift k (f.subquery projectId n) := by
  have hproject : valuesAt (n + k + f.values.bound.length) [.string projectId] =
      Fragment.shift k (valuesAt (n + f.values.bound.length) [.string projectId]) := by
    rw [Nat.add_right_comm, Sql.valuesAt_add]
  have htable : f.table projectId (n + k) =
      (f.table projectId n).mapPieces (Sql.Piece.shift k) := by
    rw [table, f.values.table_add, hproject, table, Substitution.mapPieces,
      Substitution.mapPieces, List.map_append]
    rfl
  rw [subquery, htable, subquery, Fragment.shift, QueryTemplate.map_place fun _ => rfl]

theorem AssociationFilter.text_subquery {style : Sql.Style} (h : style.mode = .literal)
    (f : AssociationFilter) (projectId : String) (n : Nat) :
    Fragment.text style (f.subquery projectId n) =
      Fragment.text style (f.subquery projectId 0) := by
  have hshift := f.subquery_add projectId 0 n
  rw [Nat.zero_add] at hshift
  rw [hshift, Fragment.text_shift h]

end RecordSearch
