import RecordSearch.Proofs.Check
import RecordSearch.Proofs.Numeral
import RecordSearch.Json.Tree

/-!
# Parts of a tree

Everything in the tree of a text comes from its tokens: `run_parts` carries what
holds of the numbers among the tokens through the stack of open containers, so
every integer in the tree of a text fits 64 bits. Each part of a tree that has a
value has one itself.
-/
namespace RecordSearch.Json

/-- A tree stands somewhere in another. -/
inductive Tree.Inside (t : Tree) : Tree → Prop
  | self : t.Inside t
  | item {items : List Tree} {ending : Ending} {u : Tree} (hu : u ∈ items) (h : t.Inside u) :
      t.Inside (.array items ending)
  | member {members : List (String × Tree)} {ending : Ending} {m : String × Tree}
      (hm : m ∈ members) (h : t.Inside m.2) : t.Inside (.object members ending)

theorem exists_value_of_mem_itemValues {items : List Tree} {vs : List Value}
    (h : itemValues items = .ok vs) : ∀ t ∈ items, ∃ v, t.value = .ok v := by
  induction items generalizing vs with
  | nil => exact fun _ ht => absurd ht List.not_mem_nil
  | cons t items ih =>
    rw [itemValues] at h
    obtain ⟨v, hv, h⟩ := bind_eq_ok h
    obtain ⟨rest, hrest, -⟩ := bind_eq_ok h
    exact List.forall_mem_cons.mpr ⟨⟨v, hv⟩, ih hrest⟩

theorem exists_value_of_mem_memberValues {members : List (String × Tree)} {ms : Members}
    (h : memberValues members = .ok ms) : ∀ m ∈ members, ∃ v, m.2.value = .ok v := by
  induction members generalizing ms with
  | nil => exact fun _ hm => absurd hm List.not_mem_nil
  | cons m members ih =>
    rw [memberValues] at h
    obtain ⟨v, hv, h⟩ := bind_eq_ok h
    obtain ⟨rest, hrest, -⟩ := bind_eq_ok h
    exact List.forall_mem_cons.mpr ⟨⟨v, hv⟩, ih hrest⟩

/-- Each part of a tree that has a value has one itself. -/
theorem Tree.Inside.exists_value {t u : Tree} (h : t.Inside u) {v : Value}
    (hv : u.value = .ok v) : ∃ w, t.value = .ok w := by
  induction h generalizing v with
  | self => exact ⟨v, hv⟩
  | item hu _ ih =>
    rw [Tree.value] at hv
    obtain ⟨vs, hvs, -⟩ := bind_eq_ok hv
    obtain ⟨w, hw⟩ := exists_value_of_mem_itemValues hvs _ hu
    exact ih hw
  | member hm _ ih =>
    rw [Tree.value] at hv
    obtain ⟨ms, hms, -⟩ := bind_eq_ok hv
    obtain ⟨w, hw⟩ := exists_value_of_mem_memberValues hms _ hm
    exact ih hw

/-- Every number in the tree is one of these. -/
def Tree.Numbers (P : Number → Prop) (t : Tree) : Prop := ∀ n, (Tree.number n).Inside t → P n

variable {P : Number → Prop}

theorem numbers_array_iff {items : List Tree} {ending : Ending} :
    (Tree.array items ending).Numbers P ↔ ∀ t ∈ items, t.Numbers P := by
  constructor
  · exact fun h t ht n hn => h n (.item ht hn)
  · rintro h n (_ | ⟨ht, hn⟩)
    exact h _ ht n hn

theorem numbers_object_iff {members : List (String × Tree)} {ending : Ending} :
    (Tree.object members ending).Numbers P ↔ ∀ m ∈ members, m.2.Numbers P := by
  constructor
  · exact fun h m hm n hn => h n (.member hm hn)
  · rintro h n (_ | _ | ⟨hm, hn⟩)
    exact h _ hm n hn

theorem numbers_number_iff {n : Number} : (Tree.number n).Numbers P ↔ P n := by
  constructor
  · exact fun h => h n .self
  · rintro h _ (_ | _)
    exact h

theorem numbers_broken (fault : Fault) : (Tree.broken fault).Numbers P := by
  rintro _ (_ | _)

def Frame.Numbers (P : Number → Prop) : Frame → Prop
  | .array before => ∀ t ∈ before, t.Numbers P
  | .object before _ => ∀ m ∈ before, m.2.Numbers P

def Place.Numbers (P : Number → Prop) : Place → Prop
  | .value | .firstItem | .firstKey => True
  | .afterItem items => ∀ t ∈ items, t.Numbers P
  | .nextKey members | .colon members _ | .afterMember members => ∀ m ∈ members, m.2.Numbers P
  | .complete t => t.Numbers P

structure State.Numbers (P : Number → Prop) (s : State) : Prop where
  here : s.place.Numbers P
  around : ∀ f ∈ s.frames, f.Numbers P

section

variable {frames : List Frame} (hframes : ∀ f ∈ frames, f.Numbers P)

include hframes

theorem place_numbers {t : Tree} (ht : t.Numbers P) : (place t frames).Numbers P := by
  cases frames with
  | nil => exact ⟨ht, hframes⟩
  | cons f frames =>
    obtain ⟨hf, hrest⟩ := List.forall_mem_cons.mp hframes
    cases f with
    | array before => exact ⟨List.forall_mem_cons.mpr ⟨ht, hf⟩, hrest⟩
    | object before key => exact ⟨List.forall_mem_cons.mpr ⟨ht, hf⟩, hrest⟩

theorem enclose_numbers (fault : Fault) {t : Tree} (ht : t.Numbers P) :
    (enclose fault t frames).Numbers P := by
  induction frames generalizing t with
  | nil => exact ht
  | cons f frames ih =>
    obtain ⟨hf, hrest⟩ := List.forall_mem_cons.mp hframes
    cases f with
    | array before =>
      refine ih hrest (numbers_array_iff.mpr fun u hu => ?_)
      rcases List.mem_append.mp hu with hu | hu
      · exact hf u (List.mem_reverse.mp hu)
      · exact List.mem_singleton.mp hu ▸ ht
    | object before key =>
      refine ih hrest (numbers_object_iff.mpr fun m hm => ?_)
      rcases List.mem_append.mp hm with hm | hm
      · exact hf m (List.mem_reverse.mp hm)
      · exact List.mem_singleton.mp hm ▸ ht

end

theorem Place.broken_numbers {here : Place} (h : here.Numbers P) (fault : Fault) :
    (here.broken fault).Numbers P := by
  cases here with
  | value => exact numbers_broken fault
  | firstItem => exact numbers_array_iff.mpr fun _ ht => absurd ht List.not_mem_nil
  | afterItem items => exact numbers_array_iff.mpr fun t ht => h t (List.mem_reverse.mp ht)
  | firstKey => exact numbers_object_iff.mpr fun _ hm => absurd hm List.not_mem_nil
  | nextKey members => exact numbers_object_iff.mpr fun m hm => h m (List.mem_reverse.mp hm)
  | colon members key =>
    refine numbers_object_iff.mpr fun m hm => ?_
    rcases List.mem_append.mp hm with hm | hm
    · exact h m (List.mem_reverse.mp hm)
    · exact List.mem_singleton.mp hm ▸ numbers_broken fault
  | afterMember members => exact numbers_object_iff.mpr fun m hm => h m (List.mem_reverse.mp hm)
  | complete t => exact h

theorem State.Numbers.stop {s : State} (h : s.Numbers P) (fault : Fault) :
    (s.stop fault).Numbers P :=
  enclose_numbers h.around fault (Place.broken_numbers h.here fault)

theorem State.Numbers.fail {s : State} (h : s.Numbers P) (fault : Fault) :
    (s.fail fault).Numbers P :=
  ⟨h.stop fault, fun _ hf => absurd hf List.not_mem_nil⟩

theorem beginValue_numbers {frames : List Frame} (hframes : ∀ f ∈ frames, f.Numbers P)
    {token : Token} (htoken : ∀ n, token = .number n → P n) :
    (beginValue frames token).Numbers P := by
  have hfail : ∀ fault, (State.fail ⟨.value, frames⟩ fault).Numbers P :=
    State.Numbers.fail ⟨trivial, hframes⟩
  cases token with
  | null => exact place_numbers hframes fun _ hn => nomatch hn
  | bool b => exact place_numbers hframes fun _ hn => nomatch hn
  | string s => exact place_numbers hframes fun _ hn => nomatch hn
  | number n => exact place_numbers hframes (numbers_number_iff.mpr (htoken n rfl))
  | beginArray =>
    rw [beginValue]
    split
    · exact ⟨trivial, hframes⟩
    · exact hfail _
  | beginObject =>
    rw [beginValue]
    split
    · exact ⟨trivial, hframes⟩
    · exact hfail _
  | _ => exact hfail _

theorem beginMember_numbers {here : Place} {before : List (String × Tree)} {frames : List Frame}
    (h : State.Numbers P ⟨here, frames⟩) (hbefore : ∀ m ∈ before, m.2.Numbers P) (token : Token) :
    (beginMember here before frames token).Numbers P := by
  unfold beginMember
  split
  · exact ⟨hbefore, h.around⟩
  · exact h.fail _
  · exact h.fail _

theorem numbers_reverse {items : List Tree} (h : ∀ t ∈ items, t.Numbers P) :
    (Tree.array items.reverse .closed).Numbers P :=
  numbers_array_iff.mpr fun t ht => h t (List.mem_reverse.mp ht)

theorem numbers_reverse_members {members : List (String × Tree)}
    (h : ∀ m ∈ members, m.2.Numbers P) : (Tree.object members.reverse .closed).Numbers P :=
  numbers_object_iff.mpr fun m hm => h m (List.mem_reverse.mp hm)

theorem step_numbers {s : State} (h : s.Numbers P) {token : Token}
    (htoken : ∀ n, token = .number n → P n) : (step s token).Numbers P := by
  obtain ⟨here, frames⟩ := s
  have hframes : ∀ f ∈ frames, f.Numbers P := h.around
  have hnone : ∀ {β : Type} {Q : β → Prop}, ∀ x ∈ ([] : List β), Q x :=
    fun _ hx => absurd hx List.not_mem_nil
  cases here with
  | value => exact beginValue_numbers hframes htoken
  | firstItem =>
    by_cases hend : token = .endArray
    · subst hend
      exact place_numbers hframes (numbers_array_iff.mpr hnone)
    · have hstep : step ⟨.firstItem, frames⟩ token = beginValue (.array [] :: frames) token := by
        cases token <;> first | rfl | exact absurd rfl hend
      have hfirst : Frame.Numbers P (.array []) := hnone
      rw [hstep]
      exact beginValue_numbers (List.forall_mem_cons.mpr ⟨hfirst, hframes⟩) htoken
  | afterItem items =>
    have hitems : ∀ t ∈ items, t.Numbers P := h.here
    cases token with
    | endArray => exact place_numbers hframes (numbers_reverse hitems)
    | comma => exact ⟨trivial, List.forall_mem_cons.mpr ⟨hitems, hframes⟩⟩
    | _ => exact h.fail _
  | firstKey =>
    by_cases hend : token = .endObject
    · subst hend
      exact place_numbers hframes (numbers_object_iff.mpr hnone)
    · have hstep : step ⟨.firstKey, frames⟩ token = beginMember .firstKey [] frames token := by
        cases token <;> first | rfl | exact absurd rfl hend
      rw [hstep]
      exact beginMember_numbers h hnone token
  | nextKey members => exact beginMember_numbers h h.here token
  | colon members key =>
    cases token with
    | colon => exact ⟨trivial, List.forall_mem_cons.mpr ⟨h.here, hframes⟩⟩
    | _ => exact h.fail _
  | afterMember members =>
    cases token with
    | endObject => exact place_numbers hframes (numbers_reverse_members h.here)
    | comma => exact ⟨h.here, hframes⟩
    | _ => exact h.fail _
  | complete t => exact h

/-- What holds of the numbers among the tokens holds of those in the tree. -/
theorem run_numbers {s : State} (h : s.Numbers P) {ts : List Token}
    (hts : ∀ n, .number n ∈ ts → P n) : (run s ts).1.Numbers P := by
  fun_induction run s ts with
  | case1 t frames ts => exact h.here
  | case2 s _ => exact h.stop _
  | case3 s token ts _ ih =>
    exact ih (step_numbers h fun n hn => hts n (hn ▸ List.mem_cons_self))
      fun n hn => hts n (List.mem_cons_of_mem token hn)

/-- A number among the tokens of a text is read where its text starts. -/
theorem firstToken_of_mem_tokens {cs : List Char} {n : Number} (h : .number n ∈ tokens cs) :
    ∃ cs' rest, firstToken cs' = .read (.number n) rest := by
  fun_induction tokens cs with
  | case1 => cases h
  | case2 cs token rest hfirst ih =>
    rcases List.mem_cons.mp h with rfl | h
    · exact ⟨_, _, hfirst⟩
    · exact ih h
  | case3 => simp at h

/-- Every integer in the tree of a text fits 64 bits. -/
theorem Document.holds_of_inside {text : String} {i : Int}
    (h : (Tree.number (.int i)).Inside (Document.ofText text).tree) : Word.holds 64 i = true := by
  have hstart : State.Numbers (fun n => .number n ∈ tokens text.toList) ⟨.value, []⟩ :=
    ⟨trivial, fun _ hf => absurd hf List.not_mem_nil⟩
  have hnumbers : (Document.ofText text).tree.Numbers fun n => .number n ∈ tokens text.toList :=
    run_numbers hstart fun _ hn => hn
  obtain ⟨_, _, hfirst⟩ := firstToken_of_mem_tokens (hnumbers _ h)
  exact (firstToken_eq_int_iff.mp hfirst).2.2

end RecordSearch.Json
