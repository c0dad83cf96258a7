import RecordSearch.Request.Check

/-!
# Checks that succeed or fail

What is known when a chain or a list of checks has succeeded, what the single checks
of names and values ask for, and of which kind their errors are: a name that is not in
the catalog is one kind, values that do not fit are the other.
-/
namespace RecordSearch

open Json (Value)

variable {α β γ δ ε : Type}

theorem bind_eq_ok {x : Except ε α} {f : α → Except ε β} {b : β} (h : (x >>= f) = .ok b) :
    ∃ a, x = .ok a ∧ f a = .ok b := by
  cases x with
  | error e => cases h
  | ok a => exact ⟨a, rfl, h⟩

theorem mapM_cons_ok {f : α → Except ε β} {x : α} {xs : List α} {zs : List β}
    (h : (x :: xs).mapM f = .ok zs) : ∃ y ys, f x = .ok y ∧ xs.mapM f = .ok ys ∧ zs = y :: ys := by
  rw [List.mapM_cons] at h
  cases hx : f x with
  | error e =>
    rw [hx] at h
    cases h
  | ok y =>
    cases hxs : xs.mapM f with
    | error e =>
      rw [hx, hxs] at h
      cases h
    | ok ys =>
      rw [hx, hxs] at h
      cases h
      exact ⟨y, ys, rfl, rfl, rfl⟩

theorem exists_of_mem_mapM_ok {f : α → Except ε β} {xs : List α} {ys : List β}
    (h : xs.mapM f = .ok ys) {y : β} (hy : y ∈ ys) : ∃ x ∈ xs, f x = .ok y := by
  induction xs generalizing ys with
  | nil =>
    cases h
    cases hy
  | cons x xs ih =>
    obtain ⟨z, zs, hx, hxs, rfl⟩ := mapM_cons_ok h
    rcases List.mem_cons.1 hy with rfl | hy
    · exact ⟨x, by simp, hx⟩
    · obtain ⟨w, hw, hfw⟩ := ih hxs hy
      exact ⟨w, by simp [hw], hfw⟩

theorem exists_ok_of_mapM_ok {f : α → Except ε β} {xs : List α} {ys : List β}
    (h : xs.mapM f = .ok ys) {x : α} (hx : x ∈ xs) : ∃ y ∈ ys, f x = .ok y := by
  induction xs generalizing ys with
  | nil => cases hx
  | cons w xs ih =>
    obtain ⟨z, zs, hw, hxs, rfl⟩ := mapM_cons_ok h
    rcases List.mem_cons.1 hx with rfl | hx
    · exact ⟨z, by simp, hw⟩
    · obtain ⟨y, hy, hfx⟩ := ih hxs hx
      exact ⟨y, by simp [hy], hfx⟩

theorem mapM_cons_eq_ok {f : α → Except ε β} {x : α} {xs : List α} {y : β} {ys : List β}
    (hx : f x = .ok y) (hxs : xs.mapM f = .ok ys) : (x :: xs).mapM f = .ok (y :: ys) := by
  rw [List.mapM_cons, hx, hxs]
  rfl

/-- Checks that accept whatever others do accept their lists as well. -/
theorem mapM_ok_mono {f g : α → Except ε β} (h : ∀ x y, f x = .ok y → g x = .ok y)
    {xs : List α} {ys : List β} (hxs : xs.mapM f = .ok ys) : xs.mapM g = .ok ys := by
  induction xs generalizing ys with
  | nil =>
    cases hxs
    rfl
  | cons x xs ih =>
    obtain ⟨z, zs, hx, hrest, rfl⟩ := mapM_cons_ok hxs
    exact mapM_cons_eq_ok (h x z hx) (ih hrest)

/-- Checks that succeed in one order do so in any other, each with its own result. -/
theorem mapM_ok_of_perm {f : α → Except ε β} {xs xs' : List α} (hperm : xs.Perm xs')
    {ys : List β} (h : xs.mapM f = .ok ys) :
    ∃ ys', xs'.mapM f = .ok ys' ∧ (xs'.zip ys').Perm (xs.zip ys) := by
  induction hperm generalizing ys with
  | nil => exact ⟨ys, h, .refl _⟩
  | cons x _ ih =>
    obtain ⟨y, zs, hx, hxs, rfl⟩ := mapM_cons_ok h
    obtain ⟨zs', hxs', hzip⟩ := ih hxs
    exact ⟨y :: zs', mapM_cons_eq_ok hx hxs', hzip.cons (x, y)⟩
  | swap x x' xs =>
    obtain ⟨y', zs, hx', hrest, rfl⟩ := mapM_cons_ok h
    obtain ⟨y, ws, hx, hxs, rfl⟩ := mapM_cons_ok hrest
    exact ⟨y :: y' :: ws, mapM_cons_eq_ok hx (mapM_cons_eq_ok hx' hxs), .swap _ _ _⟩
  | trans _ _ ih ih' =>
    obtain ⟨zs, hzs, hzip⟩ := ih h
    obtain ⟨ws, hws, hzip'⟩ := ih' hzs
    exact ⟨ws, hws, hzip'.trans hzip⟩

theorem map_of_mapM_ok {f : α → Except ε β} {g : β → γ} {k : α → γ} {xs : List α} {ys : List β}
    (h : xs.mapM f = .ok ys) (hf : ∀ x y, f x = .ok y → g y = k x) : ys.map g = xs.map k := by
  induction xs generalizing ys with
  | nil =>
    cases h
    rfl
  | cons x xs ih =>
    obtain ⟨y, zs, hx, hxs, rfl⟩ := mapM_cons_ok h
    rw [List.map_cons, List.map_cons, hf x y hx, ih hxs]

/-- Elements alike before their checks are alike after them. -/
theorem map_congr_of_mapM_ok {f : α → Except ε β} {before : α → δ} {g g' : β → γ}
    {xs xs' : List α} {ys ys' : List β} (h : xs.mapM f = .ok ys) (h' : xs'.mapM f = .ok ys')
    (halike : xs.map before = xs'.map before)
    (hf : ∀ x x' y y', before x = before x' → f x = .ok y → f x' = .ok y' → g y = g' y') :
    ys.map g = ys'.map g' := by
  induction xs generalizing xs' ys ys' with
  | nil =>
    cases xs' with
    | nil =>
      cases h
      cases h'
      rfl
    | cons x' xs' => cases halike
  | cons x xs ih =>
    cases xs' with
    | nil => cases halike
    | cons x' xs' =>
      obtain ⟨y, zs, hx, hxs, rfl⟩ := mapM_cons_ok h
      obtain ⟨y', zs', hx', hxs', rfl⟩ := mapM_cons_ok h'
      obtain ⟨hhead, htail⟩ := List.cons.inj halike
      rw [List.map_cons, List.map_cons, hf x x' y y' hhead hx hx', ih hxs hxs' htail]

theorem length_of_mapM_ok {f : α → Except ε β} {xs : List α} {ys : List β}
    (h : xs.mapM f = .ok ys) : ys.length = xs.length := by
  have hunits : ys.map (fun _ => ()) = xs.map fun _ => () :=
    map_of_mapM_ok h fun _ _ _ => rfl
  simpa using congrArg List.length hunits

/-- The error, if there is one, is of a kind. -/
def FailsOnly {α : Type} (kind : SearchError → Prop) (x : Except SearchError α) : Prop :=
  ∀ e, x = .error e → kind e

namespace FailsOnly

variable {α β : Type} {kind kind' : SearchError → Prop} {x : Except SearchError α}

theorem mono (hx : FailsOnly kind x) (h : ∀ e, kind e → kind' e) : FailsOnly kind' x :=
  fun e he => h e (hx e he)

theorem ok (a : α) : FailsOnly kind (.ok a) := by
  intro e h
  cases h

theorem error {e : SearchError} (h : kind e) :
    FailsOnly kind (.error e : Except SearchError α) := by
  intro e' he
  cases he
  exact h

theorem bind {f : α → Except SearchError β} (hx : FailsOnly kind x)
    (hf : ∀ a, x = .ok a → FailsOnly kind (f a)) : FailsOnly kind (x >>= f) := by
  cases x with
  | error e => exact error (hx e rfl)
  | ok a => exact hf a rfl

theorem map (hx : FailsOnly kind x) (f : α → β) : FailsOnly kind (x.map f) := by
  cases x with
  | error e => exact error (hx e rfl)
  | ok a => exact ok (f a)

theorem mapM {f : α → Except SearchError β} (hf : ∀ x, FailsOnly kind (f x)) (xs : List α) :
    FailsOnly kind (xs.mapM f) := by
  induction xs with
  | nil => exact ok []
  | cons x xs ih =>
    rw [List.mapM_cons]
    have hrest : ∀ y, FailsOnly kind (xs.mapM f >>= fun ys => .ok (y :: ys)) :=
      fun y => ih.bind fun ys _ => ok (y :: ys)
    exact (hf x).bind fun y _ => hrest y

end FailsOnly

def SearchError.IsUnknown (e : SearchError) : Prop := ∃ kind name, e = .unknown kind name

def SearchError.IsMalformed (e : SearchError) : Prop := ∃ cause, e = .malformed cause

open SearchError (IsUnknown IsMalformed)

/-- A limit of zero allows any count. -/
theorem withinLimit_iff {limit count : Nat} :
    withinLimit limit count = true ↔ (0 < limit → count ≤ limit) := by
  simp only [withinLimit, Bool.or_eq_true, decide_eq_true_eq]
  omega

theorem checkRequest_eq_ok_iff {limits : Limits} {request : SearchRequest} :
    checkRequest limits request = .ok () ↔
      Text.allBlank request.projectId = false ∧
        withinLimit limits.maxFilters request.filters.length = true := by
  unfold checkRequest
  cases Text.allBlank request.projectId <;>
    cases withinLimit limits.maxFilters request.filters.length <;> simp

/-- Only the project and the number of filters are looked at. -/
theorem checkRequest_congr (limits : Limits) {request request' : SearchRequest}
    (hproject : request'.projectId = request.projectId)
    (hcount : request'.filters.length = request.filters.length) :
    checkRequest limits request' = checkRequest limits request := by
  rw [checkRequest, checkRequest, hproject, hcount]

theorem Named.resolve_eq_ok {α : Type} [Named α] {s : String} {a : α}
    (h : Named.resolve s = .ok a) : Named.name a = s := by
  unfold Named.resolve at h
  split at h
  next b hb =>
    cases h
    exact Named.parse?_eq_some_iff.1 hb
  next => cases h

theorem Named.resolve_name {α : Type} [Named α] (a : α) : Named.resolve (Named.name a) = .ok a := by
  unfold Named.resolve
  rw [Named.parse?_name]

theorem Named.resolve_fails {α : Type} [Named α] (s : String) :
    FailsOnly IsUnknown (Named.resolve s : Except SearchError α) := by
  unfold Named.resolve
  split
  next => exact .ok _
  next => exact .error ⟨_, _, rfl⟩

theorem TargetTable.columnName_eq_ok {table : TargetTable} {column : Column} {name : String}
    (h : table.columnName column = .ok name) :
    table.has column = true ∧ name = column.physical := by
  unfold TargetTable.columnName at h
  split at h
  next hhas =>
    cases h
    exact ⟨hhas, rfl⟩
  next => cases h

theorem TargetTable.columnName_fails (table : TargetTable) (column : Column) :
    FailsOnly IsUnknown (table.columnName column) := by
  unfold TargetTable.columnName
  split
  next => exact .ok _
  next => exact .error ⟨_, _, rfl⟩

theorem checkRequest_fails (limits : Limits) (request : SearchRequest) :
    FailsOnly IsMalformed (checkRequest limits request) := by
  unfold checkRequest
  split
  next => exact .error ⟨_, rfl⟩
  next =>
    split
    next => exact .ok _
    next => exact .error ⟨_, rfl⟩

theorem checkInList_fails (limits : Limits) (count : Nat) :
    FailsOnly IsMalformed (checkInList limits count) := by
  unfold checkInList
  split
  next => exact .ok _
  next => exact .error ⟨_, rfl⟩

theorem requireScalars_eq_ok {vs : List Value} (h : requireScalars vs = .ok ()) :
    ∀ v ∈ vs, v.isScalar = true := by
  induction vs with
  | nil => simp
  | cons v vs ih =>
    unfold requireScalars at h
    split at h
    next hv =>
      intro w hw
      rcases List.mem_cons.1 hw with rfl | hw
      · exact hv
      · exact ih h w hw
    next => cases h

theorem requireScalars_of_isScalar {vs : List Value} (h : ∀ v ∈ vs, v.isScalar = true) :
    requireScalars vs = .ok () := by
  induction vs with
  | nil => rfl
  | cons v vs ih =>
    rw [requireScalars, if_pos (h v (by simp))]
    exact ih fun w hw => h w (by simp [hw])

theorem requireScalars_fails (vs : List Value) : FailsOnly IsMalformed (requireScalars vs) := by
  induction vs with
  | nil => exact .ok ()
  | cons v vs ih =>
    unfold requireScalars
    split
    next => exact ih
    next => exact .error ⟨_, rfl⟩

theorem requireStrings_eq_ok {what : String} {vs : List Value} {texts : List String}
    (h : requireStrings what vs = .ok texts) : vs = texts.map Value.string := by
  induction vs generalizing texts with
  | nil =>
    cases h
    rfl
  | cons v vs ih =>
    cases v with
    | string s =>
      unfold requireStrings at h
      cases hvs : requireStrings what vs with
      | error e =>
        rw [hvs] at h
        cases h
      | ok rest =>
        rw [hvs] at h
        cases h
        rw [List.map_cons, ih hvs]
    | null | bool _ | number _ | array _ | object _ => cases h

theorem requireStrings_map_string (what : String) (texts : List String) :
    requireStrings what (texts.map Value.string) = .ok texts := by
  induction texts with
  | nil => rfl
  | cons s texts ih =>
    rw [List.map_cons, requireStrings, ih]
    rfl

theorem requireStrings_fails (what : String) (vs : List Value) :
    FailsOnly IsMalformed (requireStrings what vs) := by
  induction vs with
  | nil => exact .ok []
  | cons v vs ih =>
    cases v with
    | string s => exact ih.map (s :: ·)
    | null | bool _ | number _ | array _ | object _ => exact .error ⟨_, rfl⟩

end RecordSearch
