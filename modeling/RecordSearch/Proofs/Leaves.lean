import RecordSearch.Proofs.Literal

/-!
# The leaves of a literal

An escaped literal of any value can be read back. Arrays disappear in it, at any depth;
what is left of the value are its leaves, and the tokens of the literal are these leaves
with separators between them: a text or an object is one region, and a number, a truth
value or `NULL` stands bare.
-/
namespace RecordSearch

namespace Json.Value

mutual
/-- The values that are met when arrays, and nothing else, are flattened from left to right. -/
def leaves : Value → List Value
  | .array vs => leavesOf vs
  | .null => [.null]
  | .bool b => [.bool b]
  | .number n => [.number n]
  | .string s => [.string s]
  | .object members => [.object members]

def leavesOf : List Value → List Value
  | [] => []
  | v :: vs => leaves v ++ leavesOf vs
end

/-- What a leaf has between its quotes: a string its text, an object its compact text. -/
def region? : Value → Option String
  | .string s => some s
  | .object members => some (Value.object members).compact
  | .null | .bool _ | .number _ | .array _ => none

/-- How a leaf is written that has no quotes. -/
def bareWord? : Value → Option String
  | .null => some "NULL"
  | .bool true => some "true"
  | .bool false => some "false"
  | .number n => some (String.ofList n.text)
  | .string _ | .array _ | .object _ => none

end Json.Value

namespace Sql

open Json (Value)

def Token.region? : Token → Option (Char × String)
  | .quoted quote content => some (quote, content)
  | .bare _ => none

/-- Tokens that are some leaves in their order, with any separators. -/
inductive Shows : List Token → List Value → Prop
  | nil : Shows [] []
  | separator {ts : List Token} {vs : List Value} :
      Shows ts vs → Shows (.bare ',' :: .bare ' ' :: ts) vs
  | word {w : String} {v : Value} {ts : List Token} {vs : List Value} :
      v.bareWord? = some w → Shows ts vs → Shows (w.toList.map .bare ++ ts) (v :: vs)
  | region {s : String} {v : Value} {ts : List Token} {vs : List Value} :
      v.region? = some s → Shows ts vs → Shows (.quoted singleQuote s :: ts) (v :: vs)

namespace Shows

theorem append {ts us : List Token} {vs ws : List Value} (h : Shows ts vs) (h' : Shows us ws) :
    Shows (ts ++ us) (vs ++ ws) := by
  induction h with
  | nil => exact h'
  | separator _ ih => exact .separator ih
  | word hw _ ih =>
    rw [List.append_assoc]
    exact .word hw ih
  | region hs _ ih => exact .region hs ih

theorem ofWord {v : Value} {w : String} (h : v.bareWord? = some w) :
    Shows (w.toList.map .bare) [v] := by
  have hword := Shows.word h .nil
  rwa [List.append_nil] at hword

end Shows

mutual
theorem shows_literalTokens (v : Value) : Shows (literalTokens v) v.leaves := by
  match v with
  | .null => exact .ofWord (w := "NULL") rfl
  | .bool true => exact .ofWord (w := "true") rfl
  | .bool false => exact .ofWord (w := "false") rfl
  | .number n =>
    have hword := Shows.ofWord (v := .number n) (w := String.ofList n.text) rfl
    rwa [String.toList_ofList] at hword
  | .string s => exact .region rfl .nil
  | .object members => exact .region rfl .nil
  | .array [] => exact .nil
  | .array (v :: vs) =>
    exact (shows_literalTokens v).append (shows_literalTokensAfter vs)

theorem shows_literalTokensAfter (vs : List Value) :
    Shows (literalTokensAfter vs) (Value.leavesOf vs) := by
  match vs with
  | [] => exact .nil
  | v :: vs => exact .separator ((shows_literalTokens v).append (shows_literalTokensAfter vs))
end

/-- A text that is made of separators and the bare words of some leaves. -/
def WordsOf (vs : List Value) (run : List Char) : Prop :=
  ∃ words : List String, run = words.flatMap String.toList ∧
    ∀ w ∈ words, w = ", " ∨ ∃ v ∈ vs, v.bareWord? = some w

namespace WordsOf

variable {vs : List Value} {run : List Char}

theorem nil : WordsOf vs [] := ⟨[], rfl, by simp⟩

theorem cons {w : String} (hw : w = ", " ∨ ∃ v ∈ vs, v.bareWord? = some w)
    (h : WordsOf vs run) : WordsOf vs (w.toList ++ run) := by
  obtain ⟨words, rfl, hwords⟩ := h
  exact ⟨w :: words, rfl, List.forall_mem_cons.2 ⟨hw, hwords⟩⟩

theorem mono {ws : List Value} (h : WordsOf vs run) (hle : vs ⊆ ws) : WordsOf ws run := by
  obtain ⟨words, rfl, hwords⟩ := h
  refine ⟨words, rfl, fun w hw => (hwords w hw).imp_right ?_⟩
  rintro ⟨v, hv, hword⟩
  exact ⟨v, hle hv, hword⟩

end WordsOf

theorem outsideTexts_ne_nil (ts : List Token) : outsideTexts ts ≠ [] := by
  cases ts with
  | nil => exact List.cons_ne_nil _ _
  | cons t ts =>
    cases t with
    | quoted quote content => exact List.cons_ne_nil _ _
    | bare c =>
      rw [outsideTexts]
      split <;> exact List.cons_ne_nil _ _

theorem outsideTexts_bare {ts : List Token} {run : List Char} {runs : List (List Char)}
    (h : outsideTexts ts = run :: runs) (cs : List Char) :
    outsideTexts (cs.map .bare ++ ts) = (cs ++ run) :: runs := by
  induction cs with
  | nil => exact h
  | cons c cs ih => rw [List.map_cons, List.cons_append, outsideTexts, ih]; rfl

namespace Shows

variable {ts : List Token} {vs : List Value}

theorem regions (h : Shows ts vs) : ts.filterMap Token.region? =
    vs.filterMap fun v => v.region?.map fun s => (singleQuote, s) := by
  induction h with
  | nil => rfl
  | separator _ ih => exact ih
  | @word w v ts vs hw _ ih =>
    have hnone : v.region? = none := by
      cases v <;> first | rfl | cases hw
    have hbare : (w.toList.map Token.bare).filterMap Token.region? = [] := by
      simp [Token.region?]
    rw [List.filterMap_append, hbare, List.nil_append, ih, List.filterMap_cons, hnone]
    rfl
  | @region s v ts vs hs _ ih =>
    rw [List.filterMap_cons, List.filterMap_cons, hs, ih]
    rfl

theorem wordsOf (h : Shows ts vs) : ∀ run ∈ outsideTexts ts, WordsOf vs run := by
  have hfront : ∀ {us : List Token} {ws : List Value} (w : String),
      (∀ run ∈ outsideTexts us, WordsOf ws run) → (w = ", " ∨ ∃ v ∈ ws, v.bareWord? = some w) →
      ∀ run ∈ outsideTexts (w.toList.map .bare ++ us), WordsOf ws run := by
    intro us ws w hus hw
    obtain ⟨first, runs, hruns⟩ := List.exists_cons_of_ne_nil (outsideTexts_ne_nil us)
    rw [hruns, List.forall_mem_cons] at hus
    rw [outsideTexts_bare hruns, List.forall_mem_cons]
    exact ⟨hus.1.cons hw, hus.2⟩
  induction h with
  | nil =>
    rintro run hrun
    rw [List.mem_singleton.1 hrun]
    exact .nil
  | separator _ ih => exact hfront ", " ih (.inl rfl)
  | @word w v ts vs hw _ ih =>
    refine hfront w (fun run hrun => ?_) (.inr ⟨v, List.mem_cons_self, hw⟩)
    exact (ih run hrun).mono (List.subset_cons_self v vs)
  | @region s v ts vs _ _ ih =>
    refine List.forall_mem_cons.2 ⟨.nil, fun run hrun => ?_⟩
    exact (ih run hrun).mono (List.subset_cons_self v vs)

end Shows

/-- An escaped literal of any value is closed: whatever follows it, but a quote at once, is
read as if it stood alone. Its regions are the texts of the leaves that have quotes, in
their order, and outside of them there is nothing but separators and the other leaves. -/
theorem read_escaped_literal (v : Value) : ∃ ts : List Token,
    (∀ rest : List Char, rest.head? ≠ some singleQuote →
      read .outside (literal .escaped v ++ rest) = (read .outside rest).map (ts ++ ·)) ∧
    ts.filterMap Token.region? =
      v.leaves.filterMap (fun leaf => leaf.region?.map fun s => (singleQuote, s)) ∧
    ∀ run ∈ outsideTexts ts, WordsOf v.leaves run := by
  have hshows := shows_literalTokens v
  exact ⟨literalTokens v, fun _ hrest => read_literal v hrest, hshows.regions, hshows.wordsOf⟩

/-- Empty arrays leave their separators behind, and the quotes of an object's own text are
not doubled. -/
example : String.ofList (literal .escaped (.array [.array [.string "it's", .null], .array [],
    .object [("k", .bool true)]])) = "'it''s', NULL, , '\x7b\x22k\x22:true\x7d'" := by
  decide

end Sql

end RecordSearch
