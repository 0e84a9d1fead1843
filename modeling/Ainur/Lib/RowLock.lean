import Mathlib.Data.List.Nodup
import Mathlib.Tactic.Common

set_option autoImplicit false

/-! # Rows under row locks

A table as `READ COMMITTED` transactions see it: every row has its committed version, which is
what all other transactions read, and while a transaction has written or locked the row, the
version that transaction will leave. Rows are never deleted, so a table is a list of slots and
an operation on it is a `map`.

A property of single rows that survives `write`, `commit` and `rollback` of one slot survives the
same operation on a table; `mem_modify`, `mem_commit` and `mem_rollback` are the three ways in.
-/

namespace RowLock

universe u v w

variable {κ : Type u} {ρ : Type v} {τ : Type w}

/-- A row: its key, its committed version, and the transaction that holds it, with the version
that transaction has made of it. -/
structure Slot (κ : Type u) (ρ : Type v) (τ : Type w) where
  key : κ
  row : ρ
  lock : Option (τ × ρ)

abbrev Table (κ : Type u) (ρ : Type v) (τ : Type w) := List (Slot κ ρ τ)

namespace Slot

variable [DecidableEq τ]

/-- The version that the transaction `t` sees: its own where it has written one. -/
def view (t : τ) (s : Slot κ ρ τ) : ρ :=
  match s.lock with
  | some (u, v) => if u = t then v else s.row
  | none => s.row

/-- Take the lock for `t` and write `f` of the version it sees. Locking alone is `write t id`. -/
def write (t : τ) (f : ρ → ρ) (s : Slot κ ρ τ) : Slot κ ρ τ :=
  { s with lock := some (t, f (s.view t)) }

/-- The version of `t` becomes the committed one. -/
def commit (t : τ) (s : Slot κ ρ τ) : Slot κ ρ τ :=
  match s.lock with
  | some (u, v) => if u = t then { s with row := v, lock := none } else s
  | none => s

/-- The version of `t` is forgotten. -/
def rollback (t : τ) (s : Slot κ ρ τ) : Slot κ ρ τ :=
  match s.lock with
  | some (u, _) => if u = t then { s with lock := none } else s
  | none => s

@[simp] theorem write_key (t : τ) (f : ρ → ρ) (s : Slot κ ρ τ) : (s.write t f).key = s.key := rfl

@[simp] theorem write_row (t : τ) (f : ρ → ρ) (s : Slot κ ρ τ) : (s.write t f).row = s.row := rfl

@[simp] theorem write_lock (t : τ) (f : ρ → ρ) (s : Slot κ ρ τ) :
    (s.write t f).lock = some (t, f (s.view t)) := rfl

@[simp] theorem commit_key (t : τ) (s : Slot κ ρ τ) : (s.commit t).key = s.key := by
  unfold commit
  split
  · split <;> rfl
  · rfl

@[simp] theorem rollback_key (t : τ) (s : Slot κ ρ τ) : (s.rollback t).key = s.key := by
  unfold rollback
  split
  · split <;> rfl
  · rfl

@[simp] theorem rollback_row (t : τ) (s : Slot κ ρ τ) : (s.rollback t).row = s.row := by
  unfold rollback
  split
  · split <;> rfl
  · rfl

theorem view_of_free {t : τ} {s : Slot κ ρ τ} (h : s.lock = none) : s.view t = s.row := by
  simp [view, h]

theorem view_of_held {t : τ} {s : Slot κ ρ τ} {v : ρ} (h : s.lock = some (t, v)) :
    s.view t = v := by
  simp [view, h]

theorem commit_of_held {t : τ} {s : Slot κ ρ τ} {v : ρ} (h : s.lock = some (t, v)) :
    s.commit t = { s with row := v, lock := none } := by
  simp [commit, h]

theorem rollback_of_held {t : τ} {s : Slot κ ρ τ} {v : ρ} (h : s.lock = some (t, v)) :
    s.rollback t = { s with lock := none } := by
  simp [rollback, h]

/-- Commit does nothing to a row that the transaction does not hold. -/
theorem commit_of_not_held {t : τ} {s : Slot κ ρ τ} (h : ∀ v, s.lock ≠ some (t, v)) :
    s.commit t = s := by
  unfold commit
  split
  · next u v hlock =>
      rw [if_neg]
      rintro rfl
      exact h v hlock
  · rfl

theorem rollback_of_not_held {t : τ} {s : Slot κ ρ τ} (h : ∀ v, s.lock ≠ some (t, v)) :
    s.rollback t = s := by
  unfold rollback
  split
  · next u v hlock =>
      rw [if_neg]
      rintro rfl
      exact h v hlock
  · rfl

end Slot

/-! ## Tables -/

namespace Table

/-- The keys of the rows. -/
def keys (T : Table κ ρ τ) : List κ := T.map Slot.key

/-- Apply `f` to the row of key `k`. -/
def modify [DecidableEq κ] (T : Table κ ρ τ) (k : κ) (f : Slot κ ρ τ → Slot κ ρ τ) :
    Table κ ρ τ :=
  T.map fun s => if s.key = k then f s else s

/-- The transaction `t` commits. -/
def commit [DecidableEq τ] (T : Table κ ρ τ) (t : τ) : Table κ ρ τ := T.map (Slot.commit t)

/-- The transaction `t` is rolled back. -/
def rollback [DecidableEq τ] (T : Table κ ρ τ) (t : τ) : Table κ ρ τ := T.map (Slot.rollback t)

/-- The row of key `k`. -/
def find [DecidableEq κ] (T : Table κ ρ τ) (k : κ) : Option (Slot κ ρ τ) :=
  T.find? fun s => s.key = k

theorem mem_commit [DecidableEq τ] {T : Table κ ρ τ} {t : τ} {s : Slot κ ρ τ} :
    s ∈ T.commit t ↔ ∃ s₀ ∈ T, s₀.commit t = s := by
  simp [commit]

theorem mem_rollback [DecidableEq τ] {T : Table κ ρ τ} {t : τ} {s : Slot κ ρ τ} :
    s ∈ T.rollback t ↔ ∃ s₀ ∈ T, s₀.rollback t = s := by
  simp [rollback]

theorem mem_modify [DecidableEq κ] {T : Table κ ρ τ} {k : κ} {f : Slot κ ρ τ → Slot κ ρ τ}
    {s : Slot κ ρ τ} :
    s ∈ T.modify k f ↔ ∃ s₀ ∈ T, (if s₀.key = k then f s₀ else s₀) = s := by
  simp [modify]

theorem find_eq_some [DecidableEq κ] {T : Table κ ρ τ} {k : κ} {s : Slot κ ρ τ}
    (h : T.find k = some s) : s ∈ T ∧ s.key = k := by
  have hkey := List.find?_some h
  exact ⟨List.mem_of_find?_eq_some h, by simpa using hkey⟩

@[simp] theorem keys_commit [DecidableEq τ] (T : Table κ ρ τ) (t : τ) :
    (T.commit t).keys = T.keys := by
  simp [keys, commit, Function.comp_def]

@[simp] theorem keys_rollback [DecidableEq τ] (T : Table κ ρ τ) (t : τ) :
    (T.rollback t).keys = T.keys := by
  simp [keys, rollback, Function.comp_def]

theorem keys_modify [DecidableEq κ] {T : Table κ ρ τ} {k : κ} {f : Slot κ ρ τ → Slot κ ρ τ}
    (hf : ∀ s, (f s).key = s.key) : (T.modify k f).keys = T.keys := by
  simp only [keys, modify, List.map_map]
  refine List.map_congr_left fun s _ => ?_
  by_cases h : s.key = k <;> simp [h, hf]

/-- Where keys are unique, a key names one row. -/
theorem eq_of_key {T : Table κ ρ τ} (h : T.keys.Nodup) {a b : Slot κ ρ τ} (ha : a ∈ T)
    (hb : b ∈ T) (hab : a.key = b.key) : a = b :=
  List.inj_on_of_nodup_map h ha hb hab

/-- Where keys are unique, a row is found under its key. -/
theorem find_of_mem [DecidableEq κ] {T : Table κ ρ τ} (h : T.keys.Nodup) {s : Slot κ ρ τ}
    (hs : s ∈ T) : T.find s.key = some s := by
  cases hfind : T.find s.key with
  | none =>
      have hne := List.find?_eq_none.mp hfind s hs
      simp at hne
  | some s' =>
      obtain ⟨hs', hkey⟩ := find_eq_some hfind
      rw [eq_of_key h hs' hs hkey]

end Table

end RowLock
