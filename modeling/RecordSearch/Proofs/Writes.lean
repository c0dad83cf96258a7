import RecordSearch.Sql.Binder

/-!
# What a binder writes

A binder that succeeds appends the same values to any bindings, and its result
depends on those bindings only through their number, from which it counts its
positions. A binder that is told by a check to fail does so with the error of
that check. Single elements bind nothing when they fail.
-/
namespace RecordSearch.Sql.Binder

open Json (Value)

variable {α β γ δ : Type}

/-- On any bindings, `vs` is bound and the result is the one laid out there. -/
def Writes (b : Binder α) (vs : List Value) (layout : Nat → α) : Prop :=
  ∀ bound, b.runOn bound = (.ok (layout bound.length), bound ++ vs)

/-- On any bindings, the binder fails and binds nothing. -/
def Rejects (b : Binder α) (e : SearchError) : Prop :=
  ∀ bound, b.runOn bound = (.error e, bound)

def Fails (b : Binder α) (e : SearchError) : Prop :=
  ∀ bound, (b.runOn bound).1 = .error e

theorem Rejects.fails {b : Binder α} {e : SearchError} (h : b.Rejects e) : b.Fails e :=
  fun bound => by rw [h]

theorem writes_pure (a : α) : Writes (pure a) [] fun _ => a := by
  intro bound
  simp

theorem writes_value (v : Value) : Writes (value v) [v] fun n => [.value n v] :=
  fun _ => rfl

/-- Values one after the other, numbered from `n`. -/
def valuesAt (n : Nat) (vs : List Value) : Fragment :=
  Fragment.join ", " ((vs.zipIdx n).map fun p => [.value p.2 p.1])

theorem writes_values (vs : List Value) : Writes (values vs) vs fun n => valuesAt n vs :=
  runOn_values vs

theorem Writes.bind {b : Binder α} {vs : List Value} {layout : Nat → α} (hb : b.Writes vs layout)
    {f : α → Binder β} {ws : List Value} (next : Nat → Nat → β)
    (hf : ∀ n, (f (layout n)).Writes ws (next n)) :
    (b >>= f).Writes (vs ++ ws) fun n => next n (n + vs.length) := by
  intro bound
  rw [runOn_bind, hb bound]
  dsimp only
  rw [hf, List.length_append, List.append_assoc]

theorem Writes.map {b : Binder α} {vs : List Value} {layout : Nat → α} (hb : b.Writes vs layout)
    (f : α → β) : (b >>= fun a => pure (f a)).Writes vs fun n => f (layout n) := by
  intro bound
  rw [runOn_bind, hb bound]
  rfl

theorem Writes.bind_fails {b : Binder α} {vs : List Value} {layout : Nat → α}
    (hb : b.Writes vs layout) {f : α → Binder β} {e : SearchError}
    (hf : ∀ n, (f (layout n)).Fails e) : (b >>= f).Fails e := by
  intro bound
  rw [runOn_bind, hb bound]
  exact hf _ _

theorem Rejects.bind {b : Binder α} {e : SearchError} (hb : b.Rejects e) (f : α → Binder β) :
    (b >>= f).Rejects e := by
  intro bound
  rw [runOn_bind, hb bound]

theorem Fails.bind {b : Binder α} {e : SearchError} (hb : b.Fails e) (f : α → Binder β) :
    (b >>= f).Fails e := by
  intro bound
  have h := hb bound
  rw [runOn_bind]
  rcases hrun : b.runOn bound with ⟨_ | a, bound'⟩
  · rw [hrun] at h
    cases h
    rfl
  · rw [hrun] at h
    cases h

theorem runOn_lift (x : Except SearchError α) (bound : Bindings) :
    (liftM x : Binder α).runOn bound = (x, bound) := by
  cases x <;> rfl

theorem lift_ok {x : Except SearchError α} {a : α} (h : x = .ok a) (f : α → Binder β) :
    (liftM x >>= f : Binder β) = f a := by
  subst h
  rfl

theorem lift_error {x : Except SearchError α} {e : SearchError} (h : x = .error e)
    (f : α → Binder β) : (liftM x >>= f : Binder β).Rejects e := by
  intro bound
  rw [runOn_bind, runOn_lift, h]

/-- One element: the check decides, and what it returns is written. -/
def Performs (b : Binder α) (check : Except SearchError γ) (vs : γ → List Value)
    (layout : γ → Nat → α) : Prop :=
  match check with
  | .ok c => b.Writes (vs c) (layout c)
  | .error e => b.Rejects e

/-- Results laid out one after the other. -/
def layoutAll (vs : γ → List Value) (layout : γ → Nat → α) : Nat → List γ → List α
  | _, [] => []
  | n, c :: cs => layout c n :: layoutAll vs layout (n + (vs c).length) cs

/-- A list of elements: all of them are written, or the first that is refused
decides the error. -/
theorem mapM_of_performs {f : δ → Binder α} {check : δ → Except SearchError γ}
    {vs : γ → List Value} {layout : γ → Nat → α}
    (h : ∀ x, Performs (f x) (check x) vs layout) (xs : List δ) :
    match xs.mapM check with
    | .ok cs => Writes (xs.mapM f) (cs.flatMap vs) fun n => layoutAll vs layout n cs
    | .error e => Fails (xs.mapM f) e := by
  induction xs with
  | nil => exact writes_pure []
  | cons x xs ih =>
    have hx := h x
    unfold Performs at hx
    simp only [List.mapM_cons]
    cases hcheck : check x with
    | error e =>
      rw [hcheck] at hx
      exact (hx.bind _).fails
    | ok c =>
      rw [hcheck] at hx
      cases hrest : xs.mapM check with
      | error e =>
        rw [hrest] at ih
        exact hx.bind_fails fun n => ih.bind _
      | ok cs =>
        rw [hrest] at ih
        exact hx.bind (fun n m => layout c n :: layoutAll vs layout m cs)
          fun n => ih.map (layout c n :: ·)

end RecordSearch.Sql.Binder
