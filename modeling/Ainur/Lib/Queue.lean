import Mathlib.Data.List.Dedup
import Mathlib.Tactic.Common

set_option autoImplicit false

/-! # A table that is served as a queue

Entries are appended and stay where they are; an entry waits as long as `waits` holds of it, and
the server asks the table for the first one that does. Where the entries carry strictly increasing
times, that is the one with the least time. An entry may be served more than once. As long as every
entry that was never served waits, entries are served for the first time in the order of the table.
-/

namespace Queue

variable {α κ : Type} {waits : α → Bool} {l : List α} {a : α}

/-! ## The next entry -/

/-- The waiting entry with the least time is the first one that waits. -/
theorem find_of_oldest {time : α → Nat} (hsorted : l.Pairwise fun a b => time a < time b)
    (ha : a ∈ l) (hwaits : waits a = true)
    (holdest : ∀ b ∈ l, waits b = true → time a ≤ time b) : l.find? waits = some a := by
  obtain ⟨before, after, rfl⟩ := List.append_of_mem ha
  rw [List.find?_eq_some_iff_append]
  refine ⟨hwaits, before, after, rfl, fun b hb => ?_⟩
  -- what stands before it has a smaller time
  have hlt : time b < time a :=
    (List.pairwise_append.mp hsorted).2.2 b hb a List.mem_cons_self
  have hnot : waits b ≠ true := by
    intro hwaits'
    have hle := holdest b (List.mem_append_left _ hb) hwaits'
    omega
  simpa using hnot

/-- An entry that is appended does not come before one that waits. -/
theorem find_append (hfind : l.find? waits = some a) (b : α) :
    (l ++ [b]).find? waits = some a := by
  rw [List.find?_append, hfind, Option.some_or]

/-! ## The order of service -/

section Served

variable [DecidableEq κ] {key : α → κ} {served : List κ}

/-- **First come, first served.** `served` are the keys that were served, latest first. If their
first occurrences are the first keys of the table and every other entry waits, then they still are
once the next entry is served. -/
theorem served_prefix (hkeys : (l.map key).Nodup) (hserved : served.dedup.reverse <+: l.map key)
    (hwaiting : ∀ b ∈ l, key b ∉ served → waits b = true) (hfind : l.find? waits = some a) :
    (key a :: served).dedup.reverse <+: l.map key := by
  by_cases hagain : key a ∈ served
  · rw [List.dedup_cons_of_mem hagain]
    exact hserved
  · -- the entries after those served wait, so the next one is the first of them
    obtain ⟨rest, hrest⟩ := hserved
    obtain ⟨before, after, rfl, hbefore, rfl⟩ := List.map_eq_append_iff.mp hrest.symm
    have hmem : ∀ b, b ∈ before → key b ∈ served := by
      intro b hb
      have hkey : key b ∈ served.dedup.reverse := hbefore ▸ List.mem_map_of_mem hb
      simpa using hkey
    have hnone : before.find? waits = none := by
      cases hfirst : before.find? waits with
      | none => rfl
      | some b =>
          rw [List.find?_append, hfirst, Option.some_or] at hfind
          obtain rfl : b = a := Option.some.inj hfind
          exact absurd (hmem b (List.mem_of_find?_eq_some hfirst)) hagain
    rw [List.find?_append, hnone, Option.none_or] at hfind
    cases after with
    | nil => cases hfind
    | cons b after =>
        have hnew : key b ∉ served := by
          intro hb
          rw [List.map_append, hbefore] at hkeys
          exact (List.nodup_append.mp hkeys).2.2 (key b) (by simpa using hb) (key b)
            List.mem_cons_self rfl
        have hb : waits b = true := hwaiting b (by simp) hnew
        rw [List.find?_cons_of_pos hb] at hfind
        obtain rfl : b = a := Option.some.inj hfind
        refine ⟨after.map key, ?_⟩
        rw [List.dedup_cons_of_notMem hagain, List.reverse_cons, ← hbefore]
        simp

end Served

end Queue
