import Mathlib.Data.List.Perm.Basic
import Mathlib.Tactic.Common

set_option autoImplicit false

/-! # Computations that may fail with a message

The rules by which a chain of `?` in `Except ε` is taken apart: a sequence succeeds exactly when
its first part does and the rest succeeds on its result.
-/

namespace Fallible

universe u

variable {ε α β : Type u}

/-- `Option::ok_or`: the error `err` where there is no value. -/
def okOr (o : Option α) (err : ε) : Except ε α :=
  match o with
  | some a => .ok a
  | none => .error err

theorem okOr_eq_ok {o : Option α} {err : ε} {a : α} : okOr o err = .ok a ↔ o = some a := by
  cases o <;> simp [okOr]

@[simp] theorem okOr_some (a : α) (err : ε) : okOr (some a) err = .ok a := rfl

@[simp] theorem okOr_none (err : ε) : (okOr none err : Except ε α) = .error err := rfl

@[simp] theorem ok_bind (a : α) (f : α → Except ε β) : (Except.ok a >>= f) = f a := rfl

theorem bind_eq_ok {x : Except ε α} {f : α → Except ε β} {b : β} :
    (x >>= f) = .ok b ↔ ∃ a, x = .ok a ∧ f a = .ok b := by
  cases x with
  | error e => simp [bind, Except.bind]
  | ok a => simp [bind, Except.bind]

theorem pure_eq_ok {a b : α} : (pure a : Except ε α) = .ok b ↔ a = b := by
  simp [pure, Except.pure]

@[simp] theorem mapError_ok {δ : Type u} (a : α) (f : ε → δ) :
    (Except.ok a).mapError f = .ok a := rfl

theorem mapError_eq_ok {δ : Type u} {x : Except ε α} {f : ε → δ} {a : α} :
    x.mapError f = .ok a ↔ x = .ok a := by
  cases x <;> simp [Except.mapError]

theorem toOption_eq_some {x : Except ε α} {a : α} : x.toOption = some a ↔ x = .ok a := by
  cases x <;> simp [Except.toOption]

/-! ## Over a list -/

section Lists

variable {f : α → Except ε β}

/-- Where every element has a result, so has the list. -/
theorem exists_mapM_ok {xs : List α} (h : ∀ x ∈ xs, ∃ y, f x = .ok y) :
    ∃ ys, xs.mapM f = .ok ys ∧ ys.length = xs.length := by
  induction xs with
  | nil => exact ⟨[], rfl, rfl⟩
  | cons x xs ih =>
      obtain ⟨y, hy⟩ := h x List.mem_cons_self
      obtain ⟨ys, hys, hlen⟩ := ih fun a ha => h a (List.mem_cons_of_mem _ ha)
      refine ⟨y :: ys, ?_, by simp [hlen]⟩
      rw [List.mapM_cons, hy, hys]
      rfl

/-- An element without a result leaves the list without one. -/
theorem of_mapM_eq_ok {xs : List α} {ys : List β} (h : xs.mapM f = .ok ys) :
    ∀ x ∈ xs, ∃ y, f x = .ok y := by
  induction xs generalizing ys with
  | nil =>
      intro x hx
      cases hx
  | cons x xs ih =>
      rw [List.mapM_cons] at h
      obtain ⟨y, hy, h⟩ := bind_eq_ok.mp h
      obtain ⟨zs, hzs, -⟩ := bind_eq_ok.mp h
      intro a ha
      rcases List.mem_cons.mp ha with rfl | ha
      · exact ⟨y, hy⟩
      · exact ih hzs a ha

theorem map_of_mapM {xs : List α} {ys : List β} (h : xs.mapM f = .ok ys) :
    xs.map f = ys.map .ok := by
  induction xs generalizing ys with
  | nil =>
      obtain rfl : [] = ys := Except.ok.inj h
      rfl
  | cons x xs ih =>
      rw [List.mapM_cons] at h
      obtain ⟨y, hy, h⟩ := bind_eq_ok.mp h
      obtain ⟨zs, hzs, h⟩ := bind_eq_ok.mp h
      obtain rfl : y :: zs = ys := pure_eq_ok.mp h
      rw [List.map_cons, List.map_cons, hy, ih hzs]

/-- What the results show is what the elements show. -/
theorem map_eq_of_mapM {γ : Type u} {g : β → γ} {g' : α → γ} {xs : List α} {ys : List β}
    (h : xs.mapM f = .ok ys) (hg : ∀ x ∈ xs, ∀ y, f x = .ok y → g y = g' x) :
    ys.map g = xs.map g' := by
  induction xs generalizing ys with
  | nil =>
      obtain rfl : [] = ys := Except.ok.inj h
      rfl
  | cons x xs ih =>
      rw [List.mapM_cons] at h
      obtain ⟨y, hy, h⟩ := bind_eq_ok.mp h
      obtain ⟨zs, hzs, h⟩ := bind_eq_ok.mp h
      obtain rfl : y :: zs = ys := pure_eq_ok.mp h
      rw [List.map_cons, List.map_cons, hg x List.mem_cons_self y hy,
        ih hzs fun a ha => hg a (List.mem_cons_of_mem _ ha)]

/-- The results are those of another list, up to order. -/
theorem mapM_perm {xs : List α} {ys : List β} (h : (xs.map f).Perm (ys.map .ok)) :
    ∃ zs, xs.mapM f = .ok zs ∧ zs.Perm ys := by
  have hall : ∀ x ∈ xs, ∃ y, f x = .ok y := by
    intro x hx
    obtain ⟨y, -, hy⟩ := List.mem_map.mp (h.mem_iff.mp (List.mem_map_of_mem hx))
    exact ⟨y, hy.symm⟩
  obtain ⟨zs, hzs, -⟩ := exists_mapM_ok hall
  rw [map_of_mapM hzs] at h
  exact ⟨zs, hzs, (List.map_perm_map_iff fun _ _ heq => Except.ok.inj heq).mp h⟩

end Lists

end Fallible
