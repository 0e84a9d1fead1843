import Mathlib.Data.List.Nodup
import Mathlib.Data.List.Perm.Basic

set_option autoImplicit false

/-! # Tables with a key and maps

The same collection kept twice: as a table, whose rows have a key and stay where they were
inserted, and as a map, one pair for each key and in no order. `Represents` relates the two. A row
that is inserted, or updated in place, is a pair that is put into the map, and looking up a key
finds a row exactly where it finds a pair.
-/

namespace Keyed

variable {α β γ κ : Type} [DecidableEq κ]

/-- The rows and the pairs are the same up to order: `val` is the content of a row, `emb` that of
a value of the map. -/
structure Represents (key : α → κ) (val : α → γ) (emb : β → γ) (rows : List α)
    (map : List (κ × β)) : Prop where
  perm : (rows.map fun a => (key a, val a)).Perm (map.map fun e => (e.1, emb e.2))
  nodup : (map.map Prod.fst).Nodup

/-- Put a pair into the map. -/
def put (map : List (κ × β)) (k : κ) (b : β) : List (κ × β) :=
  (k, b) :: map.filter fun e => e.1 ≠ k

/-! ## Rows -/

section Rows

variable (key : α → κ) {rows : List α} {k : κ}

/-- There is a row under the key exactly where one is found. -/
theorem exists_find (h : (rows.any fun a => key a = k) = true) :
    ∃ a, (rows.find? fun a => key a = k) = some a ∧ key a = k := by
  cases hfind : rows.find? fun a => key a = k with
  | none =>
      obtain ⟨a, ha, hk⟩ := List.any_eq_true.mp h
      exact absurd hk (List.find?_eq_none.mp hfind a ha)
  | some a => exact ⟨a, rfl, by simpa using List.find?_some hfind⟩

theorem not_find (h : ¬ (rows.any fun a => key a = k) = true) :
    (rows.find? fun a => key a = k) = none := by
  rw [List.find?_eq_none]
  intro a ha hk
  exact h (List.any_eq_true.mpr ⟨a, ha, hk⟩)

/-- An update in place that keeps the keys does not change which row is found. -/
theorem find_map {g : α → α} (hg : ∀ a, key (g a) = key a) (rows : List α) (k : κ) :
    ((rows.map g).find? fun a => key a = k) = (rows.find? fun a => key a = k).map g := by
  have hsame : (fun a => decide (key a = k)) ∘ g = fun a => decide (key a = k) := by
    funext a
    simp only [Function.comp_apply, hg]
  rw [List.find?_map, hsame]

/-- A row at the end is found under its key where no other has it. -/
theorem find_append {a : α} (h : (rows.find? fun a' => key a' = key a) = none) :
    ((rows ++ [a]).find? fun a' => key a' = key a) = some a := by
  rw [List.find?_append, h]
  simp

theorem find_append_ne {a : α} (h : key a ≠ k) :
    ((rows ++ [a]).find? fun a' => key a' = k) = rows.find? fun a' => key a' = k := by
  rw [List.find?_append]
  simp [h]

/-- Where keys are unique, an update of one row changes a count by what it does to that row. -/
theorem countP_update (hnodup : (rows.map key).Nodup) {a : α} (ha : a ∈ rows) (hk : key a = k)
    (f : α → α) (p : α → Bool) :
    (rows.map fun b => if key b = k then f b else b).countP p + (if p a then 1 else 0) =
      rows.countP p + if p (f a) then 1 else 0 := by
  induction rows with
  | nil => cases ha
  | cons b rows ih =>
      obtain ⟨hfresh, hrest⟩ := List.nodup_cons.mp hnodup
      rw [List.map_cons, List.countP_cons, List.countP_cons]
      rcases List.mem_cons.mp ha with rfl | hmem
      · -- none of the other rows has the key
        have hsame : (rows.map fun b => if key b = k then f b else b) = rows := by
          have hother : ∀ b ∈ rows, key b ≠ k := by
            intro b hb heq
            exact hfresh (hk ▸ heq ▸ List.mem_map_of_mem hb)
          rw [List.map_congr_left fun b hb => if_neg (hother b hb)]
          exact List.map_id' rows
        rw [hsame, if_pos hk]
        omega
      · have hne : key b ≠ k := by
          intro heq
          exact hfresh (heq.trans hk.symm ▸ List.mem_map_of_mem hmem)
        have hrows := ih hrest hmem
        rw [if_neg hne]
        omega

end Rows

/-! ## Searching in any order -/

/-- **When the order does not matter.** A search finds the same in every order of a list exactly
when at most one element is looked for. -/
theorem find_any_order_iff {l : List α} {p : α → Bool} :
    (∀ l' : List α, l'.Perm l → l'.find? p = l.find? p) ↔
      ∀ a ∈ l, ∀ b ∈ l, p a = true → p b = true → a = b := by
  constructor
  · -- each of two elements is found in an order that begins with it
    intro h
    have first : ∀ a ∈ l, p a = true → l.find? p = some a := by
      intro a ha hpa
      obtain ⟨l₁, l₂, rfl⟩ := List.append_of_mem ha
      rw [← h (a :: (l₁ ++ l₂)) List.perm_middle.symm, List.find?_cons_of_pos hpa]
    intro a ha b hb hpa hpb
    exact Option.some.inj ((first a ha hpa).symm.trans (first b hb hpb))
  · intro huniq l' hperm
    cases hfind : l.find? p with
    | none =>
        rw [List.find?_eq_none] at hfind ⊢
        exact fun a ha => hfind a (hperm.mem_iff.mp ha)
    | some a =>
        have ha : a ∈ l := List.mem_of_find?_eq_some hfind
        have hpa : p a = true := List.find?_some hfind
        cases hfind' : l'.find? p with
        | none =>
            exact absurd hpa (List.find?_eq_none.mp hfind' a (hperm.mem_iff.mpr ha))
        | some b =>
            have hb : b ∈ l := hperm.mem_iff.mp (List.mem_of_find?_eq_some hfind')
            rw [huniq b hb a ha (List.find?_some hfind') hpa]

/-! ## Maps -/

section Maps

variable {map : List (κ × β)} {k : κ} {b : β}

theorem mem_of_lookup (h : map.lookup k = some b) : (k, b) ∈ map := by
  induction map with
  | nil => cases h
  | cons e map ih =>
      rw [List.lookup_cons] at h
      by_cases hk : k = e.1
      · subst hk
        have hb : e.2 = b := by simpa using h
        exact List.mem_cons.mpr (Or.inl (by rw [← hb]))
      · have hne : (k == e.1) = false := by simpa using hk
        rw [hne] at h
        exact List.mem_cons_of_mem _ (ih h)

theorem lookup_of_mem (hnodup : (map.map Prod.fst).Nodup) (h : (k, b) ∈ map) :
    map.lookup k = some b := by
  induction map with
  | nil => cases h
  | cons e map ih =>
      obtain ⟨hfresh, hrest⟩ := List.nodup_cons.mp hnodup
      rw [List.lookup_cons]
      rcases List.mem_cons.mp h with rfl | hmem
      · simp
      · have hne : (k == e.1) = false := by
          have hk : k ≠ e.1 := by
            intro heq
            exact hfresh (heq ▸ List.mem_map.mpr ⟨(k, b), hmem, rfl⟩)
          simpa using hk
        rw [hne]
        exact ih hrest hmem

theorem mem_keys_iff : k ∈ map.map Prod.fst ↔ (map.lookup k).isSome = true := by
  constructor
  · intro h
    by_contra hnone
    have hlookup : map.lookup k = none := Option.not_isSome_iff_eq_none.mp hnone
    rw [List.lookup_eq_none_iff] at hlookup
    obtain ⟨e, he, hek⟩ := List.mem_map.mp h
    have hne := hlookup e he
    rw [hek] at hne
    simp at hne
  · intro h
    obtain ⟨b, hb⟩ := Option.isSome_iff_exists.mp h
    exact List.mem_map.mpr ⟨(k, b), mem_of_lookup hb, rfl⟩

theorem nodup_put (hnodup : (map.map Prod.fst).Nodup) : ((put map k b).map Prod.fst).Nodup := by
  refine List.nodup_cons.mpr ⟨fun h => ?_, ?_⟩
  · obtain ⟨e, he, hek⟩ := List.mem_map.mp h
    have hne : e.1 ≠ k := by simpa using (List.mem_filter.mp he).2
    exact hne hek
  · exact hnodup.sublist (List.filter_sublist.map _)

/-- A pair in place is the same as a pair in front, up to order. -/
theorem perm_put (hnodup : (map.map Prod.fst).Nodup) (hmem : k ∈ map.map Prod.fst) :
    (map.map fun e => if e.1 = k then (k, b) else e).Perm (put map k b) := by
  induction map with
  | nil => cases hmem
  | cons e map ih =>
      obtain ⟨hfresh, hrest⟩ := List.nodup_cons.mp hnodup
      rw [List.map_cons, put]
      by_cases he : e.1 = k
      · -- no other pair has the key
        have hother : ∀ e' ∈ map, e'.1 ≠ k := by
          intro e' he' heq
          exact hfresh (he ▸ heq ▸ List.mem_map_of_mem he')
        have hmap : (map.map fun e => if e.1 = k then (k, b) else e) = map := by
          rw [List.map_congr_left fun e' he' => if_neg (hother e' he')]
          exact List.map_id' map
        have hfilter : ((e :: map).filter fun e => e.1 ≠ k) = map := by
          rw [List.filter_cons_of_neg (by simp [he]), List.filter_eq_self]
          intro e' he'
          simpa using hother e' he'
        rw [if_pos he, hmap, hfilter]
      · have hmem' : k ∈ map.map Prod.fst := by
          rcases List.mem_cons.mp hmem with heq | hmem'
          · exact absurd heq.symm he
          · exact hmem'
        rw [if_neg he, List.filter_cons_of_pos (by simpa using he)]
        exact ((ih hrest hmem').cons e).trans (List.Perm.swap _ _ _)

end Maps

/-! ## The two together -/

section Represents

variable {key : α → κ} {val : α → γ} {emb : β → γ} {rows : List α} {map : List (κ × β)} {k : κ}

omit [DecidableEq κ] in
theorem Represents.mem_row (h : Represents key val emb rows map) {a : α} (ha : a ∈ rows) :
    ∃ b, (key a, b) ∈ map ∧ val a = emb b := by
  have hmem : (key a, val a) ∈ map.map fun e => (e.1, emb e.2) :=
    h.perm.mem_iff.mp (List.mem_map.mpr ⟨a, ha, rfl⟩)
  obtain ⟨e, he, heq⟩ := List.mem_map.mp hmem
  obtain ⟨hk, hv⟩ := Prod.mk.inj heq
  exact ⟨e.2, hk ▸ he, hv.symm⟩

omit [DecidableEq κ] in
theorem Represents.mem_pair (h : Represents key val emb rows map) {b : β} (hb : (k, b) ∈ map) :
    ∃ a ∈ rows, key a = k ∧ val a = emb b := by
  have hmem : (k, emb b) ∈ rows.map fun a => (key a, val a) :=
    h.perm.mem_iff.mpr (List.mem_map.mpr ⟨(k, b), hb, rfl⟩)
  obtain ⟨a, ha, heq⟩ := List.mem_map.mp hmem
  obtain ⟨hk, hv⟩ := Prod.mk.inj heq
  exact ⟨a, ha, hk, hv⟩

/-- A row that is found holds the value under its key. -/
theorem Represents.find (h : Represents key val emb rows map) :
    (rows.find? (fun a => key a = k) = none ∧ map.lookup k = none) ∨
      ∃ a b, rows.find? (fun a => key a = k) = some a ∧ map.lookup k = some b ∧
        key a = k ∧ val a = emb b := by
  cases hfind : rows.find? fun a => key a = k with
  | none =>
      refine Or.inl ⟨rfl, ?_⟩
      cases hlookup : map.lookup k with
      | none => rfl
      | some b =>
          obtain ⟨a, ha, hk, -⟩ := h.mem_pair (mem_of_lookup hlookup)
          have hne := List.find?_eq_none.mp hfind a ha
          simp [hk] at hne
  | some a =>
      have hk : key a = k := by simpa using List.find?_some hfind
      obtain ⟨b, hb, hv⟩ := h.mem_row (List.mem_of_find?_eq_some hfind)
      exact Or.inr ⟨a, b, rfl, lookup_of_mem h.nodup (hk ▸ hb), hk, hv⟩

theorem Represents.any_key (h : Represents key val emb rows map) :
    (rows.any fun a => key a = k) = (map.lookup k).isSome := by
  rw [Bool.eq_iff_iff, ← mem_keys_iff, List.any_eq_true]
  constructor
  · rintro ⟨a, ha, hk⟩
    obtain ⟨b, hb, -⟩ := h.mem_row ha
    exact List.mem_map.mpr ⟨_, hb, by simpa using hk⟩
  · intro hmem
    obtain ⟨e, he, hek⟩ := List.mem_map.mp hmem
    have hpair : (e.1, e.2) ∈ map := he
    obtain ⟨a, ha, hk, -⟩ := h.mem_pair hpair
    exact ⟨a, ha, by simpa using hk.trans hek⟩

omit [DecidableEq κ] in
theorem Represents.length_eq (h : Represents key val emb rows map) : rows.length = map.length := by
  simpa using h.perm.length_eq

omit [DecidableEq κ] in
/-- The contents of the rows are the values. -/
theorem Represents.values (h : Represents key val emb rows map) :
    (rows.map val).Perm (map.map fun e => emb e.2) := by
  have hperm := h.perm.map Prod.snd
  rwa [List.map_map, List.map_map] at hperm

/-- A row with a new key. -/
theorem Represents.insert (h : Represents key val emb rows map) {a : α} {b : β}
    (hnew : map.lookup k = none) (hk : key a = k) (hv : val a = emb b) :
    Represents key val emb (rows ++ [a]) (put map k b) := by
  have hfilter : (map.filter fun e => e.1 ≠ k) = map := by
    rw [List.filter_eq_self]
    intro e he
    have hne : e.1 ≠ k := by
      intro heq
      have hsome := mem_keys_iff.mp (List.mem_map.mpr ⟨e, he, heq⟩)
      rw [hnew] at hsome
      cases hsome
    simpa using hne
  refine ⟨?_, nodup_put h.nodup⟩
  rw [put, hfilter, List.map_append, List.map_cons, List.map_nil, List.map_cons, hk, hv]
  exact (List.perm_append_singleton _ _).trans (h.perm.cons _)

/-- The row of a key, updated in place. -/
theorem Represents.update (h : Represents key val emb rows map) {b : β} {f : α → α}
    (hold : (map.lookup k).isSome = true)
    (hf : ∀ a, key a = k → key (f a) = k ∧ val (f a) = emb b) :
    Represents key val emb (rows.map fun a => if key a = k then f a else a) (put map k b) := by
  refine ⟨?_, nodup_put h.nodup⟩
  have hrows : ((rows.map fun a => if key a = k then f a else a).map fun a => (key a, val a)) =
      (rows.map fun a => (key a, val a)).map fun e => if e.1 = k then (k, emb b) else e := by
    rw [List.map_map, List.map_map]
    refine List.map_congr_left fun a _ => ?_
    by_cases hk : key a = k
    · obtain ⟨hkey, hval⟩ := hf a hk
      simp [hk, hkey, hval]
    · simp [hk]
  have hpairs : (map.map fun e => (e.1, emb e.2)).map (fun e => if e.1 = k then (k, emb b) else e) =
      (map.map fun e => if e.1 = k then (k, b) else e).map fun e => (e.1, emb e.2) := by
    rw [List.map_map, List.map_map]
    refine List.map_congr_left fun e _ => ?_
    by_cases hk : e.1 = k
    · simp [hk]
    · simp [hk]
  rw [hrows]
  refine (h.perm.map _).trans ?_
  rw [hpairs]
  exact (perm_put h.nodup (mem_keys_iff.mpr hold)).map _

end Represents

end Keyed
