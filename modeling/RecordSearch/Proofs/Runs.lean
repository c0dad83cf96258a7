import RecordSearch.Proofs.Operations

/-!
# Runs of operations

Operations are run one after the other on one list of bindings. What holds of every step
holds of the run: the list grows at its end, whether operations succeed or fail, no position
is given twice, and every position holds in the end the value that it was given to.
-/
namespace RecordSearch

open Json (Value)
open Sql (Fragment Bindings Style renumber numberedStyle tokens?)

theorem Mentions.getElem? {fs : List Fragment} {n : Nat} {vs : List Value} (h : Mentions fs n vs)
    {p : Nat × Value} (hp : p ∈ fs.flatMap Fragment.slots) :
    n ≤ p.1 ∧ vs[p.1 - n]? = some p.2 := by
  obtain ⟨uses, rfl, hperm⟩ := h
  exact Sql.getElem?_of_mem_usedAt (hperm.mem_iff.1 hp)

/-- An operation, what was bound before it, and what came of it. -/
structure Entry where
  operation : Operation
  before : Bindings
  outcome : Except SearchError (List Fragment)

namespace Entry

def after (entry : Entry) : Bindings := entry.before ++ entry.operation.values

/-- The positions that the operation gave to values, each with its value. -/
def positions (entry : Entry) : List (Nat × Value) :=
  match entry.outcome with
  | .ok fs => fs.flatMap Fragment.slots
  | .error _ => []

/-- The entry tells what the operation does. -/
def Faithful (entry : Entry) : Prop :=
  entry.operation.binder.runOn entry.before = (entry.outcome, entry.after)

theorem Faithful.bounds {entry : Entry} (h : entry.Faithful) {p : Nat × Value}
    (hp : p ∈ entry.positions) :
    entry.before.length ≤ p.1 ∧ entry.after[p.1]? = some p.2 := by
  unfold positions at hp
  split at hp
  next fs hfs =>
    rw [Faithful, hfs] at h
    obtain ⟨hle, hget⟩ := (Operation.lays_of_runOn_eq_ok h).1.getElem? hp
    exact ⟨hle, by rw [after, List.getElem?_append_right hle, hget]⟩
  next => cases hp

end Entry

namespace Operation

/-- The operations one after the other, whether they succeed or not. -/
def runAll : List Operation → Bindings → List Entry × Bindings
  | [], bound => ([], bound)
  | op :: ops, bound =>
    let (outcome, bound') := op.binder.runOn bound
    let (log, final) := runAll ops bound'
    (⟨op, bound, outcome⟩ :: log, final)

theorem runAll_cons (op : Operation) (ops : List Operation) (bound : Bindings) :
    runAll (op :: ops) bound =
      (⟨op, bound, (op.binder.runOn bound).1⟩ :: (runAll ops (bound ++ op.values)).1,
        (runAll ops (bound ++ op.values)).2) := by
  rw [runAll]
  rw [op.runOn_eq bound]

theorem operations_runAll (ops : List Operation) (bound : Bindings) :
    (runAll ops bound).1.map Entry.operation = ops := by
  induction ops generalizing bound with
  | nil => rfl
  | cons op ops ih => rw [runAll_cons, List.map_cons, ih]

/-- The bindings of a run grow at their end only. -/
theorem runAll_grows (ops : List Operation) (bound : Bindings) :
    (runAll ops bound).2 = bound ++ ops.flatMap values ∧
      (∀ entry ∈ (runAll ops bound).1,
        bound <+: entry.before ∧ entry.after <+: (runAll ops bound).2 ∧ entry.Faithful) ∧
      (runAll ops bound).1.Pairwise fun entry entry' => entry.after <+: entry'.before := by
  -- Each entry is compared with what its run began with, so the rest of a run, which begins
  -- behind the first operation, is behind it as a whole.
  induction ops generalizing bound with
  | nil => exact ⟨by simp [runAll], by simp [runAll], by simp [runAll]⟩
  | cons op ops ih =>
    obtain ⟨hfinal, hentries, hpairwise⟩ := ih (bound ++ op.values)
    rw [runAll_cons]
    refine ⟨?_, ?_, List.pairwise_cons.2 ⟨fun entry hentry => ?_, hpairwise⟩⟩
    · rw [hfinal, List.flatMap_cons, List.append_assoc]
    · intro entry hentry
      rcases List.mem_cons.1 hentry with rfl | hentry
      · refine ⟨List.prefix_rfl, ?_, ?_⟩
        · rw [hfinal]
          exact List.prefix_append _ _
        · have hafter : (op.binder.runOn bound).2 = bound ++ op.values := by rw [op.runOn_eq]
          exact Prod.ext rfl hafter
      · obtain ⟨hbefore, hrest⟩ := hentries entry hentry
        exact ⟨(List.prefix_append _ _).trans hbefore, hrest⟩
    · exact (hentries entry hentry).1

end Operation

/-- What an entry of a run stands for once the run has ended. -/
structure Entry.Accounted (entry : Entry) (final : Bindings) : Prop where
  faithful : entry.Faithful
  after : entry.after <+: final
  /-- The operation gives its own positions, and each to the value that is bound there. -/
  mentions : ∀ fs, entry.outcome = .ok fs →
    Mentions fs entry.before.length entry.operation.values
  positions : ∀ p ∈ entry.positions, final[p.1]? = some p.2
  placeholders : entry.operation.Closed → ∀ fs, entry.outcome = .ok fs → ∀ quoting, ∀ f ∈ fs,
    ∃ ts, tokens? (f.text (numberedStyle quoting)) = some ts ∧
      Sql.placeholders ts = (Fragment.slots f).map fun p => p.1 + 1

theorem Entry.Faithful.accounted {entry : Entry} {final : Bindings} (h : entry.Faithful)
    (hafter : entry.after <+: final) : entry.Accounted final where
  faithful := h
  after := hafter
  mentions fs hfs := by
    rw [Faithful, hfs] at h
    exact (Operation.lays_of_runOn_eq_ok h).1
  positions p hp := by
    obtain ⟨suffix, rfl⟩ := hafter
    obtain ⟨-, hget⟩ := h.bounds hp
    have hlt := (List.getElem?_eq_some_iff.1 hget).1
    rw [List.getElem?_append_left hlt, hget]
  placeholders hclosed fs hfs quoting f hf := by
    rw [Faithful, hfs] at h
    exact ((Operation.lays_of_runOn_eq_ok h).2 hclosed f hf quoting).1

/-- What an operation does after another one, it does behind the values of that one. -/
theorem Entry.Faithful.positions_lt {entry entry' : Entry} (h : entry.Faithful)
    (h' : entry'.Faithful) (hgrows : entry.after <+: entry'.before) {p q : Nat × Value}
    (hp : p ∈ entry.positions) (hq : q ∈ entry'.positions) : p.1 < q.1 := by
  obtain ⟨-, hget⟩ := h.bounds hp
  have hlt := (List.getElem?_eq_some_iff.1 hget).1
  exact Nat.lt_of_lt_of_le hlt (Nat.le_trans hgrows.length_le (h'.bounds hq).1)

namespace Operation

/-- Operations compose by moving positions: behind other values an operation binds what it
binds alone, and writes what it writes alone with its placeholders renumbered, where it
copies closed text only; all columns of the catalog are closed. A literal run binds nothing
and writes the same texts. In a run the bindings grow at their end, whether operations fail
or not, and no position is given twice: in the end it holds the value that it was given to. -/
theorem runs_compose :
    (∀ (op : Operation) (bound : Bindings) (fs : List Fragment) (bound' : Bindings),
      op.binder.runOn bound = (.ok fs, bound') →
        ∃ fresh, op.MovedBehind bound fs bound' fresh) ∧
    (∀ (f : Filter) (column : ColumnRef), f.columnRef = .ok column → column.Closed) ∧
    (∀ (op : Operation) (style : Style) (bound : Bindings), style.mode = .parameterized →
      op.binder.runIn style bound = op.binder.runOn bound) ∧
    (∀ (op : Operation) (style : Style) (bound : Bindings), style.mode = .literal →
      (op.binder.runIn style []).2 = [] ∧
        (op.binder.runIn style []).1.map (List.map (Fragment.text style)) =
          (op.binder.runOn bound).1.map (List.map (Fragment.text style))) ∧
    ∀ (ops : List Operation) (bound : Bindings),
      (runAll ops bound).1.map Entry.operation = ops ∧
      (runAll ops bound).2 = bound ++ ops.flatMap values ∧
      (∀ entry ∈ (runAll ops bound).1,
        bound <+: entry.before ∧ entry.Accounted (runAll ops bound).2) ∧
      (runAll ops bound).1.Pairwise fun entry entry' => entry.after <+: entry'.before ∧
        ∀ p ∈ entry.positions, ∀ q ∈ entry'.positions, p.1 < q.1 := by
  refine ⟨fun _ _ _ _ => exists_movedBehind, fun _ _ => Filter.closed_column,
    fun op _ bound hstyle => op.runIn_of_parameterized hstyle bound,
    fun op _ bound hstyle => op.texts_of_literal hstyle bound, fun ops bound => ?_⟩
  obtain ⟨hfinal, hentries, hpairwise⟩ := runAll_grows ops bound
  refine ⟨operations_runAll ops bound, hfinal, fun entry hentry => ?_, ?_⟩
  · obtain ⟨hbefore, hafter, hfaithful⟩ := hentries entry hentry
    exact ⟨hbefore, hfaithful.accounted hafter⟩
  · refine hpairwise.imp_of_mem fun {entry entry'} hentry hentry' hgrows => ⟨hgrows, ?_⟩
    intro p hp q hq
    exact (hentries entry hentry).2.2.positions_lt (hentries entry' hentry').2.2 hgrows hp hq

def byDollarKey : Predicate :=
  ⟨.payload "r" "data" "$1", .isIn, .list [.string "x", .string "y"]⟩

/-- Behind one value the placeholders are moved, and what looks like one in quotes is not. -/
theorem runs_compose_byDollarKey :
    (predicate byDollarKey).binder.runOn [.string "a"] =
        (.ok [byDollarKey.layout 1], [.string "a", .string "x", .string "y"]) ∧
      byDollarKey.column.Closed ∧
      renumber 1 "r.\"data\" ->> '$1'::TEXT IN ($1, $2)" =
        some "r.\"data\" ->> '$1'::TEXT IN ($2, $3)" := by
  have hrun : (predicate byDollarKey).binder.runOn [.string "a"] =
      (.ok [byDollarKey.layout 1], [.string "a", .string "x", .string "y"]) := rfl
  have hclosed := ColumnRef.closed_payload "$1"
  obtain ⟨fresh, hmoved⟩ := runs_compose.1 _ _ _ _ hrun
  have halone : (predicate byDollarKey).binder.runOn [] =
      (.ok [byDollarKey.layout 0], [.string "x", .string "y"]) := rfl
  rw [hmoved.alone] at halone
  obtain rfl := Except.ok.inj (Prod.mk.inj halone).1
  have htexts := hmoved.renumbered hclosed .escaped
  refine ⟨hrun, hclosed, (List.cons.inj htexts).1.symm.trans ?_⟩
  decide +kernel

def likePlaceholder : Predicate := ⟨.physical "$1" "id", .equal, .scalar (.string "x")⟩

/-- The column is copied behind another value as it is, and is not renumbered. -/
theorem runs_copy_column :
    ((predicate likePlaceholder).binder.runOn [.string "a"]).1.map
        (List.map (Fragment.text (numberedStyle .escaped))) = .ok ["$1.id = $2"] ∧
      ((predicate likePlaceholder).binder.runOn []).1.map
        (List.map (Fragment.text (numberedStyle .escaped))) = .ok ["$1.id = $1"] ∧
      renumber 1 "$1.id = $1" = some "$2.id = $2" ∧
      some "$1.id = $2" ≠ renumber 1 "$1.id = $1" := by
  refine ⟨rfl, rfl, ?_, ?_⟩
  · decide +kernel
  · decide +kernel

end Operation

end RecordSearch
