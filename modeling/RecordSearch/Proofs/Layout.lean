import RecordSearch.Proofs.Erasure
import RecordSearch.Proofs.Writes

/-!
# Layouts

What a list of elements looks like in the text, once it is known how each of
them is laid out from the position where it starts: which fragments occur, which
bound values they mention how often, and what is left of them by an erasure.
-/
namespace RecordSearch.Sql

open Json (Value)
open Binder (valuesAt layoutAll)

/-- The positions from `n` on of the given values, each as often as it is used. -/
def usedAt (n : Nat) : List (Value × Nat) → List (Nat × Value)
  | [] => []
  | (v, uses) :: rest => List.replicate uses (n, v) ++ usedAt (n + 1) rest

theorem usedAt_append (n : Nat) (us ws : List (Value × Nat)) :
    usedAt n (us ++ ws) = usedAt n us ++ usedAt (n + us.length) ws := by
  induction us generalizing n with
  | nil => rfl
  | cons u us ih =>
    rw [List.cons_append, usedAt, usedAt, ih, List.append_assoc, List.length_cons,
      Nat.add_assoc, Nat.add_comm 1]

theorem getElem?_of_mem_usedAt {n slot : Nat} {v : Value} {us : List (Value × Nat)}
    (h : (slot, v) ∈ usedAt n us) : n ≤ slot ∧ (us.map Prod.fst)[slot - n]? = some v := by
  induction us generalizing n with
  | nil => cases h
  | cons u us ih =>
    rcases List.mem_append.1 h with hhead | htail
    · obtain ⟨rfl, rfl⟩ := Prod.mk.inj (List.eq_of_mem_replicate hhead)
      simp
    · obtain ⟨hle, hget⟩ := ih htail
      obtain ⟨k, rfl⟩ := Nat.exists_eq_add_of_le hle
      have hsub : n + 1 + k - n = k + 1 := by omega
      rw [Nat.add_sub_cancel_left] at hget
      refine ⟨by omega, ?_⟩
      rw [hsub, List.map_cons, List.getElem?_cons_succ, hget]

theorem count_usedAt (n k : Nat) (us : List (Value × Nat)) :
    ((usedAt n us).map fun p => p.1 + 1).count (n + k + 1) =
      ((us.map Prod.snd)[k]?).getD 0 := by
  induction us generalizing n k with
  | nil => simp [usedAt]
  | cons u us ih =>
    rw [usedAt, List.map_append, List.count_append, List.map_replicate, List.count_replicate]
    cases k with
    | zero =>
      have hrest : ((usedAt (n + 1) us).map fun p => p.1 + 1).count (n + 0 + 1) = 0 := by
        rw [List.count_eq_zero]
        intro hmem
        obtain ⟨⟨slot, v⟩, hslot, heq⟩ := List.mem_map.1 hmem
        have hle := (getElem?_of_mem_usedAt hslot).1
        simp only at heq
        omega
      rw [hrest]
      simp
    | succ k =>
      have hne : ((n + 1 == n + (k + 1) + 1) : Bool) = false := by
        simp
      have hcount := ih (n + 1) k
      rw [show n + 1 + k + 1 = n + (k + 1) + 1 by omega] at hcount
      rw [hcount]
      simp

theorem map_fst_usedAt {us : List (Value × Nat)} (h : ∀ u ∈ us, u.2 = 1) (n : Nat) :
    (usedAt n us).map Prod.fst = List.range' n us.length := by
  induction us generalizing n with
  | nil => rfl
  | cons u us ih =>
    have htail := ih (fun w hw => h w (by simp [hw])) (n + 1)
    rw [usedAt, h u (by simp), List.map_append, htail, List.length_cons, List.range'_succ]
    rfl

theorem map_snd_usedAt (n : Nat) (vs : List Value) :
    (usedAt n (vs.map fun v => (v, 1))).map Prod.snd = vs := by
  induction vs generalizing n with
  | nil => rfl
  | cons v vs ih =>
    rw [List.map_cons, usedAt, List.map_append, ih]
    rfl

theorem valuesAt_singleton (n : Nat) (v : Value) : valuesAt n [v] = [.value n v] := rfl

theorem valuesAt_cons_cons (n : Nat) (v w : Value) (vs : List Value) :
    valuesAt n (v :: w :: vs) = .value n v :: .fixed ", " :: valuesAt (n + 1) (w :: vs) := by
  simp [valuesAt, List.zipIdx_cons, Fragment.join_cons_cons]

theorem balanced_valuesAt (n : Nat) (vs : List Value) : Fragment.Balanced (valuesAt n vs) := by
  apply Fragment.balanced_join (by decide)
  intro f hf
  obtain ⟨p, _, rfl⟩ := List.mem_map.1 hf
  exact Fragment.balanced_value p.2 p.1 Fragment.follows_nil

theorem slots_valuesAt (n : Nat) (vs : List Value) :
    Fragment.slots (valuesAt n vs) = usedAt n (vs.map fun v => (v, 1)) := by
  induction vs generalizing n with
  | nil => rfl
  | cons v vs ih =>
    cases vs with
    | nil => rfl
    | cons w vs =>
      have hrest := ih (n + 1)
      rw [valuesAt_cons_cons, List.map_cons, usedAt, ← hrest]
      rfl

theorem clients_valuesAt (n : Nat) (vs : List Value) :
    Fragment.clients (valuesAt n vs) = [] := by
  rw [valuesAt, Fragment.clients_join, List.flatMap_eq_nil_iff]
  intro f hf
  obtain ⟨p, _, rfl⟩ := List.mem_map.1 hf
  rfl

theorem erase_valuesAt (e : Erasure) (n : Nat) (vs : List Value) :
    Fragment.erase e (valuesAt n vs) = valuesAt n (vs.map e.value) := by
  rw [valuesAt, valuesAt, Fragment.erase_join, List.map_map, List.zipIdx_map, List.map_map]
  rfl

variable {α β γ δ : Type}

theorem exists_of_mem_layoutAll {vs : γ → List Value} {layout : γ → Nat → α} {cs : List γ}
    {n : Nat} {a : α} (h : a ∈ layoutAll vs layout n cs) : ∃ c ∈ cs, ∃ m, a = layout c m := by
  induction cs generalizing n with
  | nil => cases h
  | cons c cs ih =>
    rcases List.mem_cons.1 h with rfl | h
    · exact ⟨c, by simp, n, rfl⟩
    · obtain ⟨d, hd, m, rfl⟩ := ih h
      exact ⟨d, by simp [hd], m, rfl⟩

theorem exists_mem_layoutAll {cs : List γ} {c : γ} (h : c ∈ cs) (vs : γ → List Value)
    (layout : γ → Nat → α) (n : Nat) : ∃ m, layout c m ∈ layoutAll vs layout n cs := by
  induction cs generalizing n with
  | nil => cases h
  | cons d cs ih =>
    rcases List.mem_cons.1 h with rfl | h
    · exact ⟨n, List.mem_cons_self⟩
    · obtain ⟨m, hm⟩ := ih h (n + (vs d).length)
      exact ⟨m, List.mem_cons_of_mem _ hm⟩

theorem getElem?_layoutAll (vs : γ → List Value) (layout : γ → Nat → α) (cs : List γ)
    (n i : Nat) :
    (layoutAll vs layout n cs)[i]? =
      cs[i]?.map fun c => layout c (n + ((cs.take i).flatMap vs).length) := by
  induction cs generalizing n i with
  | nil => rfl
  | cons c cs ih =>
    cases i with
    | zero => rfl
    | succ i =>
      rw [layoutAll, List.getElem?_cons_succ, List.getElem?_cons_succ, ih, List.take_succ_cons,
        List.flatMap_cons, List.length_append, Nat.add_assoc]

theorem length_layoutAll (vs : γ → List Value) (layout : γ → Nat → α) (n : Nat) (cs : List γ) :
    (layoutAll vs layout n cs).length = cs.length := by
  induction cs generalizing n with
  | nil => rfl
  | cons c cs ih => rw [layoutAll, List.length_cons, List.length_cons, ih]

theorem perm_layoutAll {vs : γ → List Value} {layout : γ → Nat → α} {slots : α → List (Nat × Value)}
    {uses : γ → List (Value × Nat)} {cs : List γ}
    (hfst : ∀ c ∈ cs, (uses c).map Prod.fst = vs c)
    (hslots : ∀ c ∈ cs, ∀ n, (slots (layout c n)).Perm (usedAt n (uses c))) (n : Nat) :
    ((layoutAll vs layout n cs).flatMap slots).Perm (usedAt n (cs.flatMap uses)) := by
  induction cs generalizing n with
  | nil => exact .refl _
  | cons c cs ih =>
    have hlength : (uses c).length = (vs c).length := by
      rw [← hfst c (by simp), List.length_map]
    have htail := ih (fun d hd => hfst d (by simp [hd])) (fun d hd => hslots d (by simp [hd]))
      (n + (vs c).length)
    rw [layoutAll, List.flatMap_cons, List.flatMap_cons, usedAt_append, hlength]
    exact (hslots c (by simp) n).append htail

/-- Elements that mention their values in the order of binding do so together. -/
theorem flatMap_layoutAll {vs : γ → List Value} {layout : γ → Nat → α}
    {slots : α → List (Nat × Value)} {uses : γ → List (Value × Nat)} {cs : List γ}
    (hfst : ∀ c ∈ cs, (uses c).map Prod.fst = vs c)
    (hslots : ∀ c ∈ cs, ∀ n, slots (layout c n) = usedAt n (uses c)) (n : Nat) :
    (layoutAll vs layout n cs).flatMap slots = usedAt n (cs.flatMap uses) := by
  induction cs generalizing n with
  | nil => rfl
  | cons c cs ih =>
    have hlength : (uses c).length = (vs c).length := by
      rw [← hfst c (by simp), List.length_map]
    have htail := ih (fun d hd => hfst d (by simp [hd])) (fun d hd => hslots d (by simp [hd]))
      (n + (vs c).length)
    rw [layoutAll, List.flatMap_cons, List.flatMap_cons, usedAt_append, hlength, htail,
      hslots c (by simp)]

/-- What does not depend on the position is read off the elements. -/
theorem map_layoutAll {vs : γ → List Value} {layout : γ → Nat → α} {g : α → β} {k : γ → β}
    {cs : List γ} (h : ∀ c ∈ cs, ∀ n, g (layout c n) = k c) (n : Nat) :
    (layoutAll vs layout n cs).map g = cs.map k := by
  induction cs generalizing n with
  | nil => rfl
  | cons c cs ih =>
    rw [layoutAll, List.map_cons, List.map_cons, h c (by simp),
      ih fun d hd => h d (by simp [hd])]

theorem layoutAll_congr {vs : γ → List Value} {vs' : δ → List Value} {layout : γ → Nat → α}
    {layout' : δ → Nat → α} {g : α → β} {cs : List γ} {ds : List δ}
    (h : cs.map (fun c => ((vs c).length, fun n => g (layout c n))) =
      ds.map (fun d => ((vs' d).length, fun n => g (layout' d n)))) (n : Nat) :
    (layoutAll vs layout n cs).map g = (layoutAll vs' layout' n ds).map g := by
  induction cs generalizing ds n with
  | nil =>
    cases ds with
    | nil => rfl
    | cons d ds => cases h
  | cons c cs ih =>
    cases ds with
    | nil => cases h
    | cons d ds =>
      obtain ⟨hhead, htail⟩ := List.cons.inj h
      obtain ⟨hlength, hlayout⟩ := Prod.mk.inj hhead
      rw [layoutAll, layoutAll, List.map_cons, List.map_cons, hlength, ih htail,
        congrFun hlayout n]

/-- Elements that are run one by one, each on what the ones before it have bound, are
what is laid out. -/
theorem layoutAll_eq_runs {ε : Type} {xs : List δ} {own : δ → List Value}
    {run : δ → Bindings → Except ε β} {vs : γ → List Value} {layout : γ → Nat → α} {g : α → β}
    {cs : List γ}
    (h : xs.map (fun x => (own x, run x)) =
      cs.map fun c => (vs c, fun bound => .ok (g (layout c bound.length)))) (bound : Bindings) :
    (layoutAll vs layout bound.length cs).map (fun a => .ok (g a)) =
      xs.zipIdx.map fun q => run q.1 (bound ++ (xs.take q.2).flatMap own) := by
  have hbefore : ∀ i, (xs.take i).flatMap own = (cs.take i).flatMap vs := by
    intro i
    have htake := congrArg (fun l => ((l.take i).map Prod.fst).flatten) h
    simpa only [← List.map_take, List.map_map, Function.comp_def, List.flatMap_def] using htake
  apply List.ext_getElem?
  intro i
  have hi := congrArg (fun l => (l[i]?).map fun p => p.2 (bound ++ (cs.take i).flatMap vs)) h
  simp only [List.getElem?_map, Option.map_map, Function.comp_def, List.length_append] at hi
  simp only [List.getElem?_map, getElem?_layoutAll, List.getElem?_zipIdx, Option.map_map,
    Function.comp_def, Nat.zero_add, hbefore, hi]

end RecordSearch.Sql
