import RecordSearch.Proofs.Ordering

/-!
# Texts of order keys

An order gives its key, and the key of the payload with it, in one text. Which texts are
understood, and what each of the others is refused for, is said here without cutting a
text: a key alone, or `RECORD_DATA`, a separator, and a part that is not empty. What stands
after a second separator is never looked at.
-/
namespace RecordSearch

/-- The part of a text before its first separator, or all of it if it has none. -/
def LeadsKeyText (part text : String) : Prop :=
  orderSeparator ∉ part.toList ∧ (text = part ∨ ∃ rest, text = part ++ "@" ++ rest)

/-- The texts that name an order key, with the key of the payload that they carry. -/
inductive OrderKey.Text : OrderKey → Option String → String → Prop
  | plain {key : OrderKey} : key ≠ .recordData → Text key none (Named.name key)
  | payload {k rest : String} : k ≠ "" → LeadsKeyText k rest →
      Text .recordData (some k) ("RECORD_DATA@" ++ rest)

namespace OrderSpec

def Declares (spec : OrderSpec) (dataType : DataType) : Prop :=
  spec.dataType = some (Named.name dataType) ∨ spec.dataType = none ∧ dataType = .text

/-- The order that a specification spells. -/
structure Spells (spec : OrderSpec) (order : Order) : Prop where
  key : order.key.Text order.payloadKey spec.orderBy
  dataType : spec.Declares order.dataType
  direction : Named.name order.direction = spec.direction

/-- What a specification is refused for. Each reason counts only where none of the ones
before it does. -/
inductive Refused (spec : OrderSpec) : SearchError → Prop
  | key {name : String} : LeadsKeyText name spec.orderBy →
      (∀ key : OrderKey, Named.name key ≠ name) → Refused spec (.unknown .orderKey name)
  | incomplete : spec.orderBy = "RECORD_DATA" ∨
        (∃ rest, LeadsKeyText "" rest ∧ spec.orderBy = "RECORD_DATA@" ++ rest) →
      Refused spec (.malformed (.orderKeyIncomplete spec.orderBy))
  | overfull {key : OrderKey} {rest : String} : key ≠ .recordData →
      spec.orderBy = Named.name key ++ "@" ++ rest →
      Refused spec (.malformed (.orderKeyOverfull spec.orderBy))
  | dataType {key : OrderKey} {payloadKey : Option String} {name : String} :
      key.Text payloadKey spec.orderBy → spec.dataType = some name →
      (∀ dataType : DataType, Named.name dataType ≠ name) →
      Refused spec (.unknown .dataType name)
  | direction {key : OrderKey} {payloadKey : Option String} {dataType : DataType} :
      key.Text payloadKey spec.orderBy → spec.Declares dataType →
      (∀ direction : SortDirection, Named.name direction ≠ spec.direction) →
      Refused spec (.unknown .sortDirection spec.direction)

end OrderSpec

theorem takeWhile_separator {cs : List Char} (h : orderSeparator ∉ cs) (tail : List Char)
    (htail : ∀ c ∈ tail.head?, c = orderSeparator) :
    (cs ++ tail).takeWhile (· ≠ orderSeparator) = cs ∧
      (cs ++ tail).dropWhile (· ≠ orderSeparator) = tail := by
  have hall : ∀ c ∈ cs, decide (c ≠ orderSeparator) = true := by
    intro c hc
    exact decide_eq_true fun heq => h (heq ▸ hc)
  rw [List.takeWhile_append_of_pos hall, List.dropWhile_append_of_pos hall]
  cases tail with
  | nil => exact ⟨List.append_nil cs, rfl⟩
  | cons c tail =>
    obtain rfl := htail c rfl
    exact ⟨List.append_nil cs, rfl⟩

theorem toList_separated (part rest : String) :
    (part ++ "@" ++ rest).toList = part.toList ++ orderSeparator :: rest.toList := by
  simp [orderSeparator]

theorem LeadsKeyText.takeWhile {part text : String} (h : LeadsKeyText part text) :
    text.toList.takeWhile (· ≠ orderSeparator) = part.toList := by
  obtain ⟨hpart, rfl | ⟨rest, rfl⟩⟩ := h
  · have hcut := (takeWhile_separator hpart [] (by simp)).1
    rwa [List.append_nil] at hcut
  · rw [toList_separated]
    exact (takeWhile_separator hpart _ (by simp)).1

theorem exists_leadsKeyText (text : String) : ∃ part, LeadsKeyText part text := by
  refine ⟨String.ofList (text.toList.takeWhile (· ≠ orderSeparator)), ?_, ?_⟩
  · rw [String.toList_ofList]
    intro hmem
    have hall := List.all_takeWhile (p := (· ≠ orderSeparator)) (l := text.toList)
    simpa using List.all_eq_true.1 hall _ hmem
  · have hcut := List.takeWhile_append_dropWhile (p := (· ≠ orderSeparator)) (l := text.toList)
    cases hrest : text.toList.dropWhile (· ≠ orderSeparator) with
    | nil =>
      rw [hrest, List.append_nil] at hcut
      rw [hcut, String.ofList_toList]
      exact .inl rfl
    | cons c rest =>
      have hc : c = orderSeparator := by
        have hhead := List.head?_dropWhile_not (· ≠ orderSeparator) text.toList
        rw [hrest] at hhead
        simpa using hhead
      refine .inr ⟨String.ofList rest, ?_⟩
      rw [hrest, hc] at hcut
      rw [← String.toList_inj, toList_separated, String.toList_ofList, String.toList_ofList, hcut]

theorem splitOrderKey_of_bare {name : String} (h : orderSeparator ∉ name.toList) :
    splitOrderKey name = (name, none) := by
  obtain ⟨htake, hdrop⟩ := takeWhile_separator h [] (by simp)
  rw [List.append_nil] at htake hdrop
  simp only [splitOrderKey, htake, hdrop, String.ofList_toList]

theorem splitOrderKey_append (name : String) {k rest : String} (h : orderSeparator ∉ name.toList)
    (hk : LeadsKeyText k rest) : splitOrderKey (name ++ "@" ++ rest) = (name, some k) := by
  obtain ⟨htake, hdrop⟩ :=
    takeWhile_separator h (orderSeparator :: rest.toList) (by simp)
  simp only [splitOrderKey, toList_separated, htake, hdrop, hk.takeWhile, String.ofList_toList]

theorem Named.resolve_of_ne {α : Type} [Named α] {s : String} (h : ∀ a : α, Named.name a ≠ s) :
    (Named.resolve s : Except SearchError α) = .error (.unknown (Named.kind α) s) := by
  unfold Named.resolve
  split
  next a ha => exact absurd (Named.parse?_eq_some_iff.1 ha) (h a)
  next => rfl

theorem OrderKey.separator_notMem_name (key : OrderKey) :
    orderSeparator ∉ (Named.name key).toList := by
  cases key <;> decide

namespace OrderSpec

variable {spec : OrderSpec}

theorem Declares.declared {dataType : DataType} (h : spec.Declares dataType) :
    DataType.declared spec.dataType = .ok dataType := by
  rcases h with hname | ⟨hnone, rfl⟩
  · rw [hname]
    exact Named.resolve_name dataType
  · rw [hnone]
    rfl

end OrderSpec

theorem OrderKey.Text.splitOrderKey {key : OrderKey} {payloadKey : Option String} {text : String}
    (h : key.Text payloadKey text) :
    splitOrderKey text = (Named.name key, payloadKey) ∧
      ∀ orderBy, Order.checkKey orderBy key payloadKey = .ok payloadKey := by
  cases h with
  | plain hkey =>
    refine ⟨splitOrderKey_of_bare key.separator_notMem_name, fun orderBy => ?_⟩
    cases key with
    | recordData => exact absurd rfl hkey
    | weakSupervisionConfidence | modelCallbackConfidence | recordId | recordCreatedAt => rfl
  | payload hk hrest =>
    refine ⟨splitOrderKey_append "RECORD_DATA" (by decide) hrest, fun orderBy => ?_⟩
    exact if_neg (by simpa using hk)

/-- Once the key is understood, there are the type and the direction to look up. -/
theorem Order.resolve_of_text {spec : OrderSpec} {key : OrderKey} {payloadKey : Option String}
    (h : key.Text payloadKey spec.orderBy) :
    resolve spec = (do
      let dataType ← DataType.declared spec.dataType
      let direction ← Named.resolve spec.direction
      return ⟨key, payloadKey, direction, dataType⟩) := by
  obtain ⟨hsplit, hcheck⟩ := h.splitOrderKey
  rw [resolve_eq, hsplit, Named.resolve_name]
  change (checkKey spec.orderBy key payloadKey >>= _) = _
  rw [hcheck]
  rfl

theorem Order.resolve_of_spells {spec : OrderSpec} {order : Order} (h : spec.Spells order) :
    resolve spec = .ok order := by
  rw [resolve_of_text h.key, h.dataType.declared, ← h.direction, Named.resolve_name]
  rfl

theorem Order.resolve_of_refused {spec : OrderSpec} {e : SearchError} (h : spec.Refused e) :
    resolve spec = .error e := by
  cases h with
  | @key name hname hne =>
    have hunknown := Named.resolve_of_ne hne
    have hsplit : (splitOrderKey spec.orderBy).1 = name := by
      obtain ⟨hbare, heq | ⟨rest, heq⟩⟩ := hname
      · rw [heq, splitOrderKey_of_bare hbare]
      · obtain ⟨k, hk⟩ := exists_leadsKeyText rest
        rw [heq, splitOrderKey_append _ hbare hk]
    rw [resolve_eq, hsplit, hunknown]
    rfl
  | incomplete htext =>
    rcases htext with heq | ⟨rest, hrest, heq⟩
    · rw [resolve_eq, heq, splitOrderKey_of_bare (by decide)]
      rfl
    · have hsplit : splitOrderKey spec.orderBy = ("RECORD_DATA", some "") := by
        rw [heq]
        exact splitOrderKey_append "RECORD_DATA" (by decide) hrest
      rw [resolve_eq, hsplit]
      rfl
  | @overfull key rest hkey heq =>
    obtain ⟨k, hk⟩ := exists_leadsKeyText rest
    have hsplit : splitOrderKey spec.orderBy = (Named.name key, some k) := by
      rw [heq, splitOrderKey_append _ key.separator_notMem_name hk]
    rw [resolve_eq, hsplit, Named.resolve_name]
    cases key with
    | recordData => exact absurd rfl hkey
    | weakSupervisionConfidence | modelCallbackConfidence | recordId | recordCreatedAt => rfl
  | @dataType key payloadKey name hkey hname hne =>
    have hunknown : DataType.declared spec.dataType = .error (.unknown .dataType name) := by
      rw [hname]
      exact Named.resolve_of_ne hne
    rw [resolve_of_text hkey, hunknown]
    rfl
  | @direction key payloadKey dataType hkey htype hne =>
    rw [resolve_of_text hkey, htype.declared, Named.resolve_of_ne hne]
    rfl

namespace OrderSpec

theorem exists_text_or_refused (spec : OrderSpec) :
    (∃ (key : OrderKey) (payloadKey : Option String), key.Text payloadKey spec.orderBy) ∨
      ∃ e, spec.Refused e := by
  obtain ⟨name, hname⟩ := exists_leadsKeyText spec.orderBy
  by_cases hknown : ∃ key : OrderKey, Named.name key = name
  · obtain ⟨key, rfl⟩ := hknown
    obtain ⟨-, heq | ⟨rest, heq⟩⟩ := hname
    · by_cases hdata : key = .recordData
      · subst hdata
        exact .inr ⟨_, .incomplete (.inl heq)⟩
      · exact .inl ⟨key, none, heq ▸ .plain hdata⟩
    · by_cases hdata : key = .recordData
      · subst hdata
        obtain ⟨k, hk⟩ := exists_leadsKeyText rest
        by_cases hempty : k = ""
        · subst hempty
          exact .inr ⟨_, .incomplete (.inr ⟨rest, hk, heq⟩)⟩
        · exact .inl ⟨.recordData, some k, heq ▸ .payload hempty hk⟩
      · exact .inr ⟨_, .overfull hdata heq⟩
  · exact .inr ⟨_, .key hname fun key heq => hknown ⟨key, heq⟩⟩

theorem exists_spells_or_refused (spec : OrderSpec) :
    (∃ order, spec.Spells order) ∨ ∃ e, spec.Refused e := by
  rcases spec.exists_text_or_refused with ⟨key, payloadKey, hkey⟩ | hrefused
  · have htype : (∃ dataType, spec.Declares dataType) ∨ ∃ e, spec.Refused e := by
      cases hname : spec.dataType with
      | none => exact .inl ⟨.text, .inr ⟨hname, rfl⟩⟩
      | some name =>
        by_cases hknown : ∃ dataType : DataType, Named.name dataType = name
        · obtain ⟨dataType, rfl⟩ := hknown
          exact .inl ⟨dataType, .inl hname⟩
        · exact .inr ⟨_, .dataType hkey hname fun dataType heq => hknown ⟨dataType, heq⟩⟩
    rcases htype with ⟨dataType, htype⟩ | hrefused
    · by_cases hknown : ∃ direction : SortDirection, Named.name direction = spec.direction
      · obtain ⟨direction, hdirection⟩ := hknown
        exact .inl ⟨⟨key, payloadKey, direction, dataType⟩, hkey, htype, hdirection⟩
      · exact .inr ⟨_, .direction hkey htype fun direction heq => hknown ⟨direction, heq⟩⟩
    · exact .inr hrefused
  · exact .inr hrefused

end OrderSpec

namespace Order

theorem resolve_eq_ok_iff {spec : OrderSpec} {order : Order} :
    resolve spec = .ok order ↔ spec.Spells order := by
  refine ⟨fun h => ?_, resolve_of_spells⟩
  rcases spec.exists_spells_or_refused with ⟨order', hspells⟩ | ⟨e, hrefused⟩
  · rw [resolve_of_spells hspells] at h
    exact Except.ok.inj h ▸ hspells
  · rw [resolve_of_refused hrefused] at h
    cases h

theorem resolve_eq_error_iff {spec : OrderSpec} {e : SearchError} :
    resolve spec = .error e ↔ spec.Refused e := by
  refine ⟨fun h => ?_, resolve_of_refused⟩
  rcases spec.exists_spells_or_refused with ⟨order, hspells⟩ | ⟨e', hrefused⟩
  · rw [resolve_of_spells hspells] at h
    cases h
  · rw [resolve_of_refused hrefused] at h
    exact Except.error.inj h ▸ hrefused

end Order

theorem OrderKey.Text.payloadKey {key : OrderKey} {payloadKey : Option String} {text : String}
    (h : key.Text payloadKey text) :
    (payloadKey.isSome = true ↔ key = .recordData) ∧
      ∀ k, payloadKey = some k → k ≠ "" ∧ orderSeparator ∉ k.toList := by
  cases h with
  | plain hkey => exact ⟨by simpa using hkey, fun k hk => by cases hk⟩
  | payload hk hrest =>
    refine ⟨by simp, fun k' hk' => ?_⟩
    obtain rfl := Option.some.inj hk'
    exact ⟨hk, hrest.1⟩

namespace Order

/-- Orders are understood exactly as their specifications spell them, and refused for the
first thing that is wrong: an unknown key, then a key of the payload that is missing or
misplaced, then the type, then the direction. What follows a second separator does not
matter. -/
theorem resolve_exact (spec : OrderSpec) :
    (∀ order, resolve spec = .ok order ↔ spec.Spells order) ∧
    (∀ e, resolve spec = .error e ↔ spec.Refused e) ∧
    (∀ order, resolve spec = .ok order →
      (order.payloadKey.isSome = true ↔ order.key = .recordData) ∧
      (∀ k, order.payloadKey = some k → k ≠ "" ∧ orderSeparator ∉ k.toList) ∧
      (spec.dataType = none → order.dataType = .text)) ∧
    ∀ k rest : String, k ≠ "" → orderSeparator ∉ k.toList →
      resolve { spec with orderBy := "RECORD_DATA@" ++ (k ++ "@" ++ rest) } =
        resolve { spec with orderBy := "RECORD_DATA@" ++ k } := by
  refine ⟨fun order => resolve_eq_ok_iff, fun e => resolve_eq_error_iff, fun order h => ?_,
    fun k rest hk hbare => ?_⟩
  · have hspells := resolve_eq_ok_iff.1 h
    obtain ⟨hpresent, hkey⟩ := hspells.key.payloadKey
    refine ⟨hpresent, hkey, fun hnone => ?_⟩
    rcases hspells.dataType with hname | ⟨-, htext⟩
    · rw [hnone] at hname
      cases hname
    · exact htext
  · rw [resolve_of_text (.payload hk ⟨hbare, .inr ⟨rest, rfl⟩⟩),
      resolve_of_text (.payload hk ⟨hbare, .inl rfl⟩)]

/-- A second separator ends the key of the payload. Where it follows the first one at once
there is no key, and that is said before a bad type and a bad direction are. -/
theorem resolve_exact_twice :
    resolve ⟨"RECORD_DATA@a@b", "DESC", some "INTEGER"⟩ =
        .ok ⟨.recordData, some "a", .desc, .integer⟩ ∧
      "a" ≠ "" ∧ orderSeparator ∉ "a".toList ∧
      resolve ⟨"RECORD_DATA@a@b", "DESC", some "INTEGER"⟩ =
        resolve ⟨"RECORD_DATA@a", "DESC", some "INTEGER"⟩ ∧
      resolve ⟨"RECORD_DATA@@b", "UP", some "DATE"⟩ =
        .error (.malformed (.orderKeyIncomplete "RECORD_DATA@@b")) := by
  have hbare : orderSeparator ∉ "a".toList := by decide
  have hkey : OrderKey.Text .recordData (some "a") "RECORD_DATA@a@b" :=
    .payload (by decide) ⟨hbare, .inr ⟨"b", rfl⟩⟩
  obtain ⟨hspelled, -, hknown, hdropped⟩ :=
    resolve_exact ⟨"RECORD_DATA@a@b", "DESC", some "INTEGER"⟩
  obtain ⟨-, hrefused, -, -⟩ := resolve_exact ⟨"RECORD_DATA@@b", "UP", some "DATE"⟩
  have hok := (hspelled ⟨.recordData, some "a", .desc, .integer⟩).2 ⟨hkey, .inl rfl, rfl⟩
  obtain ⟨hne, hpart⟩ := (hknown _ hok).2.1 "a" rfl
  refine ⟨hok, hne, hpart, hdropped "a" "b" hne hpart, ?_⟩
  exact (hrefused _).2 (.incomplete (.inr ⟨"@b", ⟨List.not_mem_nil, .inr ⟨"b", rfl⟩⟩, rfl⟩))

end Order

end RecordSearch
