import Mathlib.Data.List.Forall2
import Mathlib.Tactic.Common

set_option autoImplicit false

/-! # Lists that only grow

Rows that are never removed: a list grows into another one where the second begins with the elements
of the first in their order, each of them changed as `R` allows. A search by a key that `R` keeps
then finds what the found element has become.
-/

universe u v

variable {α : Type u} {κ : Type v} {R : α → α → Prop} {xs ys zs : List α}

/-- Every element of a list that is related to another one has its counterpart there. -/
theorem exists_of_forall₂ {β : Type v} {S : α → β → Prop} {bs : List β}
    (h : List.Forall₂ S xs bs) {x : α} (hx : x ∈ xs) : ∃ b ∈ bs, S x b := by
  induction h with
  | nil => cases hx
  | @cons a b xs bs hab _ ih =>
      rcases List.mem_cons.mp hx with rfl | hx
      · exact ⟨b, List.mem_cons_self, hab⟩
      · obtain ⟨b', hb', hxb⟩ := ih hx
        exact ⟨b', List.mem_cons_of_mem _ hb', hxb⟩

/-- `ys` has the elements of `xs`, each changed as `R` allows, and others after them. -/
def Grows (R : α → α → Prop) (xs ys : List α) : Prop :=
  ∃ changed new, ys = changed ++ new ∧ List.Forall₂ R xs changed

namespace Grows

theorem refl (hR : ∀ x, R x x) (xs : List α) : Grows R xs xs := by
  refine ⟨xs, [], (List.append_nil xs).symm, ?_⟩
  induction xs with
  | nil => exact .nil
  | cons x xs ih => exact .cons (hR x) ih

/-- New elements at the end. -/
theorem append (hR : ∀ x, R x x) (xs new : List α) : Grows R xs (xs ++ new) := by
  obtain ⟨changed, more, hxs, hall⟩ := refl hR xs
  refine ⟨changed, more ++ new, ?_, hall⟩
  rw [← List.append_assoc, ← hxs]

/-- Elements that are rewritten. -/
theorem map {f : α → α} (hf : ∀ x ∈ xs, R x (f x)) : Grows R xs (xs.map f) := by
  refine ⟨xs.map f, [], (List.append_nil _).symm, ?_⟩
  induction xs with
  | nil => exact .nil
  | cons x xs ih =>
      exact .cons (hf x List.mem_cons_self) (ih fun y hy => hf y (List.mem_cons_of_mem _ hy))

theorem trans (hR : ∀ x y z, R x y → R y z → R x z) (hxy : Grows R xs ys) (hyz : Grows R ys zs) :
    Grows R xs zs := by
  obtain ⟨changed, new, rfl, hall⟩ := hxy
  obtain ⟨changed', new', rfl, hall'⟩ := hyz
  -- the first elements of the last list are those of the first one, changed twice
  induction hall generalizing changed' with
  | nil => exact ⟨[], changed' ++ new', rfl, .nil⟩
  | @cons x y xs ys hxy _ ih =>
      cases hall' with
      | @cons _ z _ zs hyz hrest =>
          obtain ⟨twice, more, heq, htwice⟩ := ih zs hrest
          refine ⟨z :: twice, more, ?_, .cons (hR x y z hxy hyz) htwice⟩
          rw [List.cons_append, heq, List.cons_append]

/-- What an element has become. -/
theorem mem (h : Grows R xs ys) {x : α} (hx : x ∈ xs) : ∃ y ∈ ys, R x y := by
  obtain ⟨changed, new, rfl, hall⟩ := h
  obtain ⟨y, hy, hxy⟩ := exists_of_forall₂ hall hx
  exact ⟨y, List.mem_append_left _ hy, hxy⟩

/-- **A search goes on finding the same element**, as it has become. -/
theorem find [DecidableEq κ] {key : α → κ} (hkey : ∀ x y, R x y → key y = key x)
    (h : Grows R xs ys) {k : κ} {x : α} (hx : (xs.find? fun a => key a = k) = some x) :
    ∃ y, (ys.find? fun a => key a = k) = some y ∧ R x y := by
  obtain ⟨changed, new, rfl, hall⟩ := h
  induction hall with
  | nil => cases hx
  | @cons a b xs ys hab _ ih =>
      by_cases ha : key a = k
      · have hb : key b = k := (hkey a b hab).trans ha
        obtain rfl : a = x := by simpa [ha] using hx
        exact ⟨b, by simp [hb], hab⟩
      · have hb : key b ≠ k := fun hb => ha ((hkey a b hab).symm.trans hb)
        have hrest : (xs.find? fun a => key a = k) = some x := by simpa [ha] using hx
        obtain ⟨y, hy, hxy⟩ := ih hrest
        exact ⟨y, by simpa [hb] using hy, hxy⟩

theorem length_le (h : Grows R xs ys) : xs.length ≤ ys.length := by
  obtain ⟨changed, new, rfl, hall⟩ := h
  have hlen := hall.length_eq
  rw [List.length_append]
  omega

end Grows

/-- What stands in the order of a list and leaves nothing out is a prefix of it. -/
theorem isPrefix_of_closed (hasymm : ∀ x y, R x y → ¬ R y x) (hxs : xs.Pairwise R)
    (hys : ys.Pairwise R) (hmem : ∀ x ∈ xs, x ∈ ys)
    (hclosed : ∀ y ∈ ys, ∀ x ∈ xs, R y x → y ∈ xs) : xs <+: ys := by
  induction xs generalizing ys with
  | nil => exact List.nil_prefix
  | cons x xs ih =>
      obtain ⟨hx, hxs⟩ := List.pairwise_cons.mp hxs
      cases ys with
      | nil => cases hmem x List.mem_cons_self
      | cons y ys =>
          obtain ⟨hy, htail⟩ := List.pairwise_cons.mp hys
          have hirrefl : ¬ R x x := fun h => hasymm x x h h
          -- the heads agree: each would have to come after the other
          have hhead : x = y := by
            rcases List.mem_cons.mp (hmem x List.mem_cons_self) with rfl | hlater
            · rfl
            · have hyx := hy x hlater
              rcases List.mem_cons.mp (hclosed y List.mem_cons_self x List.mem_cons_self hyx) with
                rfl | hin
              · rfl
              · exact absurd (hx y hin) (hasymm y x hyx)
          subst hhead
          refine List.cons_prefix_cons.mpr ⟨rfl, ih hxs htail (fun z hz => ?_) fun z hz w hw hzw => ?_⟩
          · rcases List.mem_cons.mp (hmem z (List.mem_cons_of_mem _ hz)) with rfl | hlater
            · exact absurd (hx z hz) hirrefl
            · exact hlater
          · rcases List.mem_cons.mp (hclosed z (List.mem_cons_of_mem _ hz) w
              (List.mem_cons_of_mem _ hw) hzw) with rfl | hin
            · exact absurd (hy z hz) hirrefl
            · exact hin
