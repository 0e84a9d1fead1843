import Mathlib.Data.List.Basic
import Mathlib.Tactic.Common

set_option autoImplicit false

/-! # Reading a list page by page

A reader asks for a page, moves on by as many elements as it has got, and stops at the first empty
page. The list may be another one for every page. Where it stays the same, the pages are the list
(`flatMap_pages`); where only its order changes, they have as many elements (`length_flatMap_pages`).
Where it only grows at its front, the pages still show every element that was
there at the first page (`seen_of_suffix`): the growth moves it towards the pages to come.
-/

namespace Paging

universe u

variable {α : Type u}

/-- The page of at most `limit` elements from `offset` on. -/
def page (l : List α) (limit offset : Nat) : List α := (l.drop offset).take limit

/-- The pages of a reader: `source i` is the list when page `i` is asked for, and `limit i` its
size. -/
structure Reading (α : Type u) where
  source : Nat → List α
  limit : Nat → Nat

namespace Reading

variable (r : Reading α)

/-- The offset of page `i`: all that the reader has got before. -/
def offset : Nat → Nat
  | 0 => 0
  | i + 1 => offset i + (page (r.source i) (r.limit i) (offset i)).length

/-- Page `i`. -/
def pageAt (i : Nat) : List α := page (r.source i) (r.limit i) (r.offset i)

theorem offset_succ (i : Nat) : r.offset (i + 1) = r.offset i + (r.pageAt i).length := rfl

/-- What a page leaves of its list is what follows the next offset. -/
theorem drop_offset (i : Nat) :
    (r.source i).drop (r.offset i) = r.pageAt i ++ (r.source i).drop (r.offset (i + 1)) := by
  rw [offset_succ, pageAt, page]
  by_cases h : r.limit i ≤ ((r.source i).drop (r.offset i)).length
  · -- a full page
    rw [List.length_take_of_le h, ← List.drop_drop, List.take_append_drop]
  · -- the last elements
    have hlength := Nat.le_of_lt (Nat.lt_of_not_le h)
    have hnone : (r.source i).drop (r.offset i + ((r.source i).drop (r.offset i)).length) = [] := by
      rw [← List.drop_drop]
      exact List.drop_length
    rw [List.take_of_length_le hlength, hnone, List.append_nil]

/-- An empty page of a positive size has nothing behind it. -/
theorem drop_of_pageAt_nil {i : Nat} (hlimit : 0 < r.limit i) (h : r.pageAt i = []) :
    (r.source i).drop (r.offset i) = [] := by
  rw [pageAt, page] at h
  rcases List.take_eq_nil_iff.mp h with hzero | hnil
  · omega
  · exact hnil

/-- The pages of a list that does not change are the list. -/
theorem flatMap_pages {l : List α} (hsource : ∀ i, r.source i = l) (hlimit : ∀ i, 0 < r.limit i)
    {n : Nat} (hend : r.pageAt n = []) : (List.range n).flatMap r.pageAt = l := by
  have hread : ∀ k, (List.range k).flatMap r.pageAt ++ l.drop (r.offset k) = l := by
    intro k
    induction k with
    | zero => rfl
    | succ k ih =>
        have hdrop := r.drop_offset k
        rw [hsource k] at hdrop
        calc (List.range (k + 1)).flatMap r.pageAt ++ l.drop (r.offset (k + 1))
            = (List.range k).flatMap r.pageAt ++ (r.pageAt k ++ l.drop (r.offset (k + 1))) := by
              rw [List.range_succ, List.flatMap_append, List.flatMap_singleton, List.append_assoc]
          _ = (List.range k).flatMap r.pageAt ++ l.drop (r.offset k) := by rw [hdrop]
          _ = l := ih
  have hrest : l.drop (r.offset n) = [] := by
    rw [← hsource n]
    exact r.drop_of_pageAt_nil (hlimit n) hend
  have hall := hread n
  rwa [hrest, List.append_nil] at hall

/-- An offset is what the pages before it have shown. -/
theorem length_flatMap_range (k : Nat) :
    ((List.range k).flatMap r.pageAt).length = r.offset k := by
  induction k with
  | zero => rfl
  | succ k ih =>
      rw [List.range_succ, List.flatMap_append, List.flatMap_singleton, List.length_append, ih]
      rfl

/-- The pages of lists of one length have as many elements. -/
theorem length_flatMap_pages {m : Nat} (hsource : ∀ i, (r.source i).length = m)
    (hlimit : ∀ i, 0 < r.limit i) {n : Nat} (hend : r.pageAt n = []) :
    ((List.range n).flatMap r.pageAt).length = m := by
  have hle : ∀ k, r.offset k ≤ m := by
    intro k
    induction k with
    | zero => exact Nat.zero_le _
    | succ k ih =>
        have hpage : (r.pageAt k).length ≤ m - r.offset k := by
          rw [pageAt, page, List.length_take, List.length_drop, hsource]
          exact Nat.min_le_right _ _
        rw [offset_succ]
        omega
  have hrest := congrArg List.length (r.drop_of_pageAt_nil (hlimit n) hend)
  rw [List.length_drop, hsource] at hrest
  have hlast := hle n
  rw [r.length_flatMap_range]
  simp only [List.length_nil] at hrest
  omega

/-- What lies behind an offset still lies behind it when the list has grown at its front. -/
theorem mem_drop_of_suffix {l l' : List α} (h : l <:+ l') {m : Nat} {a : α} (ha : a ∈ l.drop m) :
    a ∈ l'.drop m := by
  have hlength : (l.drop m).length ≤ (l'.drop m).length := by
    have := h.length_le
    rw [List.length_drop, List.length_drop]
    omega
  have hsuffix : l.drop m <:+ l'.drop m :=
    List.suffix_of_suffix_length_le ((List.drop_suffix m l).trans h) (List.drop_suffix m l')
      hlength
  exact hsuffix.subset ha

/-- **No element is missed.** Where the list only grows at its front, the pages up to the first
empty one show everything that the list had when the first page was read. -/
theorem seen_of_suffix (hgrow : ∀ i, r.source i <:+ r.source (i + 1))
    (hlimit : ∀ i, 0 < r.limit i) {n : Nat} (hend : r.pageAt n = []) {a : α}
    (ha : a ∈ r.source 0) : ∃ i < n, a ∈ r.pageAt i := by
  by_contra hunseen
  -- as long as the element has not been seen, it lies behind the offset
  have hbehind : ∀ k ≤ n, a ∈ (r.source k).drop (r.offset k) := by
    intro k
    induction k with
    | zero => exact fun _ => ha
    | succ k ih =>
        intro hk
        have hprev := ih (by omega)
        rw [r.drop_offset k] at hprev
        rcases List.mem_append.mp hprev with hseen | hrest
        · exact absurd ⟨k, by omega, hseen⟩ hunseen
        · exact mem_drop_of_suffix (hgrow k) hrest
  have hlast := hbehind n (Nat.le_refl n)
  rw [r.drop_of_pageAt_nil (hlimit n) hend] at hlast
  cases hlast

end Reading

end Paging
