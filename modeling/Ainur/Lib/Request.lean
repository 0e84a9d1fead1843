import Mathlib.Tactic.Common

set_option autoImplicit false

/-! # Requests that may break off

A request is a program over a store `σ` that reaches the store by calls only. Each call has a
fate, given from outside: it proceeds, it fails with an error and does nothing, or the process
stops before it. A request ends with a value, with an error, in a panic or stopped, and leaves the
store as the calls that proceeded have made it.

`Keeps π m` says that `m` never changes the part `π` of the store, whatever the fates. What a
request does to that part is then what its few remaining calls do to it (`bind_keeps`,
`call_bind`).
-/

namespace Faulty

universe u

/-- What happens to one call. -/
inductive Fate (ε : Type u) where
  | proceed
  | fail (err : ε)
  | stop

/-- How a request ends. -/
inductive Outcome (ε α : Type u) where
  | ok (a : α)
  | err (e : ε)
  | panicked
  | stopped

def Outcome.isOk {ε α : Type u} : Outcome ε α → Bool
  | .ok _ => true
  | _ => false

/-- A request: from the fates of its calls, the number of calls already made and the store to its
outcome, the number of calls then made and the store it leaves. -/
def Request (ε σ α : Type u) : Type u :=
  (Nat → Fate ε) → Nat → σ → Outcome ε α × Nat × σ

namespace Request

variable {ε σ α β : Type u} {ρ : Type u}

/-- The rest of a request; nothing follows an outcome other than a value. -/
def andThen (m : Request ε σ α) (f : α → Request ε σ β) : Request ε σ β := fun fates n s =>
  match m fates n s with
  | (.ok a, n', s') => f a fates n' s'
  | (.err e, n', s') => (.err e, n', s')
  | (.panicked, n', s') => (.panicked, n', s')
  | (.stopped, n', s') => (.stopped, n', s')

instance : Monad (Request ε σ) where
  pure a := fun _ n s => (.ok a, n, s)
  bind := andThen

/-- Return an error. -/
def throw (e : ε) : Request ε σ α := fun _ n s => (.err e, n, s)

def panic : Request ε σ α := fun _ n s => (.panicked, n, s)

/-- The `?` on a pure computation. -/
def ofExcept (x : Except ε α) : Request ε σ α := fun _ n s =>
  match x with
  | .ok a => (.ok a, n, s)
  | .error e => (.err e, n, s)

/-- The `?` on a call of the store. -/
def call (op : σ → Except ε (α × σ)) : Request ε σ α := fun fates n s =>
  match fates n with
  | .proceed =>
      match op s with
      | .ok (a, s') => (.ok a, n + 1, s')
      | .error e => (.err e, n + 1, s)
  | .fail e => (.err e, n + 1, s)
  | .stop => (.stopped, n + 1, s)

/-- The result of a request whose error is not passed on. -/
def attempt (m : Request ε σ α) : Request ε σ (Except ε α) := fun fates n s =>
  match m fates n s with
  | (.ok a, n', s') => (.ok (.ok a), n', s')
  | (.err e, n', s') => (.ok (.error e), n', s')
  | (.panicked, n', s') => (.panicked, n', s')
  | (.stopped, n', s') => (.stopped, n', s')

/-- What a call with this fate does, where it does anything. -/
def performed (fate : Fate ε) (x : Except ε (α × σ)) : Option (α × σ) :=
  match fate, x with
  | .proceed, .ok r => some r
  | _, _ => none

/-! ## What a request leaves alone -/

/-- The part `π` of the store is the same after `m` as before it. -/
def Keeps (π : σ → ρ) (m : Request ε σ α) : Prop :=
  ∀ fates n s, π (m fates n s).2.2 = π s

variable {π : σ → ρ}

theorem keeps_pure (a : α) : Keeps π (pure a : Request ε σ α) := fun _ _ _ => rfl

theorem keeps_throw (e : ε) : Keeps π (throw e : Request ε σ α) := fun _ _ _ => rfl

theorem keeps_panic : Keeps π (panic : Request ε σ α) := fun _ _ _ => rfl

theorem keeps_ofExcept (x : Except ε α) : Keeps π (ofExcept x : Request ε σ α) := by
  intro fates n s
  cases x <;> rfl

theorem keeps_bind {m : Request ε σ α} {f : α → Request ε σ β} (hm : Keeps π m)
    (hf : ∀ a, Keeps π (f a)) : Keeps π (m >>= f) := by
  intro fates n s
  show π (andThen m f fates n s).2.2 = π s
  have hkeep := hm fates n s
  unfold andThen
  split
  · next a n' s' h =>
      rw [hf a fates n' s']
      rwa [h] at hkeep
  · next h => rwa [h] at hkeep
  · next h => rwa [h] at hkeep
  · next h => rwa [h] at hkeep

/-- A call whose operation never changes the part. -/
theorem keeps_call {op : σ → Except ε (α × σ)}
    (hop : ∀ s a s', op s = .ok (a, s') → π s' = π s) : Keeps π (call op) := by
  intro fates n s
  unfold call
  split
  · split
    · next a s' h => exact hop s a s' h
    · rfl
  · rfl
  · rfl

theorem keeps_attempt {m : Request ε σ α} (hm : Keeps π m) : Keeps π (attempt m) := by
  intro fates n s
  have hkeep := hm fates n s
  unfold attempt
  split
  · next h => rwa [h] at hkeep
  · next h => rwa [h] at hkeep
  · next h => rwa [h] at hkeep
  · next h => rwa [h] at hkeep

/-! ## What a request returns -/

/-- Every value that `m` returns satisfies `P`. -/
def Returns (P : α → Prop) (m : Request ε σ α) : Prop :=
  ∀ fates n s a n' s', m fates n s = (.ok a, n', s') → P a

theorem returns_pure {P : α → Prop} {a : α} (ha : P a) : Returns P (pure a : Request ε σ α) := by
  intro fates n s b n' s' h
  obtain rfl : a = b := Outcome.ok.inj (congrArg Prod.fst h)
  exact ha

theorem returns_throw {P : α → Prop} (e : ε) : Returns P (throw e : Request ε σ α) := by
  intro fates n s b n' s' h
  cases congrArg Prod.fst h

theorem returns_panic {P : α → Prop} : Returns P (panic : Request ε σ α) := by
  intro fates n s b n' s' h
  cases congrArg Prod.fst h

theorem returns_bind {P : α → Prop} {Q : β → Prop} {m : Request ε σ α} {f : α → Request ε σ β}
    (hm : Returns P m) (hf : ∀ a, P a → Returns Q (f a)) : Returns Q (m >>= f) := by
  intro fates n s b n' s' h
  change andThen m f fates n s = (.ok b, n', s') at h
  unfold andThen at h
  split at h
  · next a n₁ s₁ hma => exact hf a (hm fates n s a n₁ s₁ hma) fates n₁ s₁ b n' s' h
  · cases congrArg Prod.fst h
  · cases congrArg Prod.fst h
  · cases congrArg Prod.fst h

/-- Only what follows counts. -/
theorem returns_bind_of_forall {P : β → Prop} {m : Request ε σ α} {f : α → Request ε σ β}
    (hf : ∀ a, Returns P (f a)) : Returns P (m >>= f) := by
  refine returns_bind (P := fun _ => True) (fun _ _ _ _ _ _ _ => trivial) fun a _ => hf a

/-! ## What a request does -/

section Steps

variable {m : Request ε σ α} {f : α → Request ε σ β} {fates : Nat → Fate ε} {n n' : Nat}
  {s s' : σ}

theorem bind_of_ok {a : α} (h : m fates n s = (.ok a, n', s')) :
    (m >>= f) fates n s = f a fates n' s' := by
  show andThen m f fates n s = _
  rw [andThen, h]

theorem bind_of_err {e : ε} (h : m fates n s = (.err e, n', s')) :
    (m >>= f) fates n s = (.err e, n', s') := by
  show andThen m f fates n s = _
  rw [andThen, h]

theorem bind_of_panicked (h : m fates n s = (.panicked, n', s')) :
    (m >>= f) fates n s = (.panicked, n', s') := by
  show andThen m f fates n s = _
  rw [andThen, h]

theorem bind_of_stopped (h : m fates n s = (.stopped, n', s')) :
    (m >>= f) fates n s = (.stopped, n', s') := by
  show andThen m f fates n s = _
  rw [andThen, h]

theorem attempt_of_ok {a : α} (h : m fates n s = (.ok a, n', s')) :
    m.attempt fates n s = (.ok (.ok a), n', s') := by
  rw [attempt, h]

theorem attempt_of_err {e : ε} (h : m fates n s = (.err e, n', s')) :
    m.attempt fates n s = (.ok (.error e), n', s') := by
  rw [attempt, h]

theorem attempt_of_stopped (h : m fates n s = (.stopped, n', s')) :
    m.attempt fates n s = (.stopped, n', s') := by
  rw [attempt, h]

end Steps


/-- Only the first part counts where the rest keeps `π`. -/
theorem bind_keeps {m : Request ε σ α} {f : α → Request ε σ β} (hf : ∀ a, Keeps π (f a))
    (fates : Nat → Fate ε) (n : Nat) (s : σ) :
    π ((m >>= f) fates n s).2.2 = π (m fates n s).2.2 := by
  show π (andThen m f fates n s).2.2 = _
  unfold andThen
  split
  · next a n' s' h =>
      rw [h]
      exact hf a fates n' s'
  · next h => rw [h]
  · next h => rw [h]
  · next h => rw [h]

theorem performed_eq_some {fate : Fate ε} {x : Except ε (α × σ)} {r : α × σ} :
    performed fate x = some r ↔ fate = .proceed ∧ x = .ok r := by
  cases fate <;> cases x <;> simp [performed]

/-- The store after a call. -/
theorem call_store (op : σ → Except ε (α × σ)) (fates : Nat → Fate ε) (n : Nat) (s : σ) :
    (call op fates n s).2.2 = (performed (fates n) (op s)).elim s Prod.snd := by
  unfold call
  cases fates n with
  | proceed => cases op s <;> rfl
  | fail e => rfl
  | stop => rfl

/-- A pure prefix. -/
theorem ofExcept_bind (x : Except ε α) (f : α → Request ε σ β) (fates : Nat → Fate ε) (n : Nat)
    (s : σ) :
    (ofExcept x >>= f : Request ε σ β) fates n s =
      match x with
      | .ok a => f a fates n s
      | .error e => (.err e, n, s) := by
  cases x <;> rfl

/-- A call and what follows it. -/
theorem call_bind (op : σ → Except ε (α × σ)) (f : α → Request ε σ β) (fates : Nat → Fate ε)
    (n : Nat) (s : σ) :
    (call op >>= f : Request ε σ β) fates n s =
      match fates n with
      | .proceed =>
          match op s with
          | .ok (a, s') => f a fates (n + 1) s'
          | .error e => (.err e, n + 1, s)
      | .fail e => (.err e, n + 1, s)
      | .stop => (.stopped, n + 1, s) := by
  show andThen (call op) f fates n s = _
  unfold andThen call
  cases fates n with
  | proceed =>
      cases h : op s with
      | ok r => rfl
      | error e => rfl
  | fail e => rfl
  | stop => rfl

/-- A call that does nothing ends the request. -/
theorem call_bind_of_not_performed {op : σ → Except ε (α × σ)} {f : α → Request ε σ β}
    {fates : Nat → Fate ε} {n : Nat} {s : σ} (h : performed (fates n) (op s) = none) :
    ((call op >>= f : Request ε σ β) fates n s).2.2 = s ∧
      ((call op >>= f : Request ε σ β) fates n s).1.isOk = false := by
  rw [call_bind]
  cases hfate : fates n with
  | proceed =>
      cases hop : op s with
      | ok r => simp [performed, hfate, hop] at h
      | error e => exact ⟨rfl, rfl⟩
  | fail e => exact ⟨rfl, rfl⟩
  | stop => exact ⟨rfl, rfl⟩

/-- A call that does something hands over to what follows it. -/
theorem call_bind_of_performed {op : σ → Except ε (α × σ)} {f : α → Request ε σ β}
    {fates : Nat → Fate ε} {n : Nat} {s s' : σ} {a : α}
    (h : performed (fates n) (op s) = some (a, s')) :
    (call op >>= f : Request ε σ β) fates n s = f a fates (n + 1) s' := by
  rw [call_bind]
  cases hfate : fates n with
  | proceed =>
      cases hop : op s with
      | ok r =>
          obtain rfl : r = (a, s') := by simpa [performed, hfate, hop] using h
          rfl
      | error e => simp [performed, hfate, hop] at h
  | fail e => simp [performed, hfate] at h
  | stop => simp [performed, hfate] at h

end Request

end Faulty
