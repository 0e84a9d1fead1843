import Mathlib.Tactic.Common

set_option autoImplicit false

/-! # Runs of a labelled transition system

A system is given by `step : σ → ι → Option σ`: what the label `i` does in a state, or
`none` where it is not enabled. The environment's choices (which party moves, what an outside
call returns, where a process stops) are part of the label, so a run is a list of labels and
every interleaving is one such list.

`Run step s₀ tr s` records the history `tr` of a run, the latest step first, each step as the
state it left and its label. A property of every state of a run is then a property of `s` and of
the states in `tr`, and a condition on every step is a condition on the pairs in `tr`
(`Run.always_iff`).
-/

namespace Transition

universe u v

variable {σ : Type u} {ι : Type v} {step : σ → ι → Option σ} {s₀ : σ}

/-- The runs from `s₀`: the steps taken, latest first, and the state reached. -/
inductive Run (step : σ → ι → Option σ) (s₀ : σ) : List (σ × ι) → σ → Prop
  | nil : Run step s₀ [] s₀
  | snoc {tr : List (σ × ι)} {s : σ} {i : ι} {t : σ} :
      Run step s₀ tr s → step s i = some t → Run step s₀ ((s, i) :: tr) t

/-- `P` holds of every state of the run: of the one it ends in and of every one it left. -/
def Always (P : σ → Prop) (tr : List (σ × ι)) (s : σ) : Prop :=
  P s ∧ ∀ p ∈ tr, P p.1

/-- Every step of the run meets `C`, a condition on the state before it and on its label. -/
def EachStep (C : σ → ι → Prop) (tr : List (σ × ι)) : Prop :=
  ∀ p ∈ tr, C p.1 p.2

theorem eachStep_nil (C : σ → ι → Prop) : EachStep C ([] : List (σ × ι)) := by
  intro p hp
  cases hp

theorem eachStep_cons {C : σ → ι → Prop} {s : σ} {i : ι} {tr : List (σ × ι)} :
    EachStep C ((s, i) :: tr) ↔ C s i ∧ EachStep C tr := by
  simp [EachStep]

/-! ## Invariants -/

/-- **The invariant rule.** What holds at the start and survives every step holds at the end of
every run. -/
theorem Run.invariant {P : σ → Prop} (h0 : P s₀)
    (hstep : ∀ s i t, P s → step s i = some t → P t) {tr : List (σ × ι)} {s : σ}
    (hrun : Run step s₀ tr s) : P s := by
  induction hrun with
  | nil => exact h0
  | snoc _ hs ih => exact hstep _ _ _ ih hs

theorem always_nil {P : σ → Prop} {s : σ} (h : P s) : Always P ([] : List (σ × ι)) s :=
  ⟨h, fun p hp => by cases hp⟩

theorem Always.snoc {P : σ → Prop} {tr : List (σ × ι)} {s t : σ} (h : Always P tr s) (i : ι)
    (ht : P t) : Always P ((s, i) :: tr) t := by
  refine ⟨ht, fun p hp => ?_⟩
  rcases List.mem_cons.mp hp with rfl | hp
  · exact h.1
  · exact h.2 p hp

theorem Always.mono {P Q : σ → Prop} {tr : List (σ × ι)} {s : σ} (h : Always P tr s)
    (hPQ : ∀ s, P s → Q s) : Always Q tr s :=
  ⟨hPQ s h.1, fun p hp => hPQ p.1 (h.2 p hp)⟩

/-- The invariant rule along runs whose steps all meet `C`: what survives every such step holds
in every state of the run, not only in the last. -/
theorem Run.always_of {P : σ → Prop} {C : σ → ι → Prop} (h0 : P s₀)
    (hstep : ∀ s i t, P s → C s i → step s i = some t → P t) {tr : List (σ × ι)} {s : σ}
    (hrun : Run step s₀ tr s) (hC : EachStep C tr) : Always P tr s := by
  induction hrun with
  | nil => exact always_nil h0
  | snoc _ hs ih =>
      obtain ⟨hc, hrest⟩ := eachStep_cons.mp hC
      have hprev := ih hrest
      exact hprev.snoc _ (hstep _ _ _ hprev.1 hc hs)

/-- The invariant rule for steps. What every step with `C` from a state with `Inv` has, every step
of a run has whose steps all have `C`. -/
theorem Run.eachStep_of {Inv : σ → Prop} {A C : σ → ι → Prop} (hI0 : Inv s₀)
    (hkeep : ∀ s i t, Inv s → C s i → step s i = some t → Inv t)
    (hstep : ∀ s i t, Inv s → C s i → step s i = some t → A s i)
    {tr : List (σ × ι)} {s : σ} (hrun : Run step s₀ tr s) (hC : EachStep C tr) : EachStep A tr := by
  induction hrun with
  | nil => exact eachStep_nil A
  | snoc hrun hs ih =>
      obtain ⟨hc, hrest⟩ := eachStep_cons.mp hC
      have hprev := (hrun.always_of hI0 hkeep hrest).1
      exact eachStep_cons.mpr ⟨hstep _ _ _ hprev hc hs, ih hrest⟩

/-- **The exactness rule.** Where `Inv` is an invariant and a step from a state with `Inv` and
`P` keeps `P` exactly when it meets `C`, a run has `P` in every state exactly when its steps
all meet `C`. -/
theorem Run.always_iff {Inv P : σ → Prop} {C : σ → ι → Prop} (hI0 : Inv s₀) (hP0 : P s₀)
    (hInv : ∀ s i t, Inv s → step s i = some t → Inv t)
    (hexact : ∀ s i t, Inv s → P s → step s i = some t → (P t ↔ C s i))
    {tr : List (σ × ι)} {s : σ} (hrun : Run step s₀ tr s) :
    Always P tr s ↔ EachStep C tr := by
  induction hrun with
  | nil =>
      exact ⟨fun _ => eachStep_nil C, fun _ => always_nil hP0⟩
  | @snoc tr m i t hrun hs ih =>
      have hIm : Inv m := hrun.invariant hI0 hInv
      rw [eachStep_cons]
      constructor
      · rintro ⟨hPt, hall⟩
        have hPm : P m := hall (m, i) List.mem_cons_self
        have hprev : Always P tr m := ⟨hPm, fun p hp => hall p (List.mem_cons_of_mem _ hp)⟩
        exact ⟨(hexact m i t hIm hPm hs).mp hPt, ih.mp hprev⟩
      · rintro ⟨hC, hrest⟩
        have hprev : Always P tr m := ih.mpr hrest
        exact hprev.snoc i ((hexact m i t hIm hprev.1 hs).mpr hC)

/-- The exactness rule for steps. Where steps with `C` keep `Inv`, and a step from a state with
`Inv` has `A` exactly when it has `C`, all steps of a run have `A` exactly when they all have `C`:
the first step without one is without the other. -/
theorem Run.eachStep_iff {Inv : σ → Prop} {A C : σ → ι → Prop} (hI0 : Inv s₀)
    (hkeep : ∀ s i t, Inv s → C s i → step s i = some t → Inv t)
    (hexact : ∀ s i t, Inv s → step s i = some t → (A s i ↔ C s i))
    {tr : List (σ × ι)} {s : σ} (hrun : Run step s₀ tr s) : EachStep A tr ↔ EachStep C tr := by
  induction hrun with
  | nil => exact ⟨fun _ => eachStep_nil C, fun _ => eachStep_nil A⟩
  | @snoc tr m i t hrun hs ih =>
      rw [eachStep_cons, eachStep_cons]
      constructor
      · rintro ⟨hA, hrest⟩
        have hC := ih.mp hrest
        exact ⟨(hexact m i t (hrun.always_of hI0 hkeep hC).1 hs).mp hA, hC⟩
      · rintro ⟨hC, hrest⟩
        exact ⟨(hexact m i t (hrun.always_of hI0 hkeep hrest).1 hs).mpr hC, ih.mpr hrest⟩

/-- The exactness rule where `Inv` survives only the steps with `C`: a run has `P` in every state
exactly when its steps all meet `C`, if `Inv` gives `P` and a step without `C` breaks it. -/
theorem Run.always_iff_of_breaks {Inv P : σ → Prop} {C : σ → ι → Prop} (hI0 : Inv s₀)
    (hP : ∀ s, Inv s → P s) (hkeep : ∀ s i t, Inv s → C s i → step s i = some t → Inv t)
    (hbreak : ∀ s i t, Inv s → ¬ C s i → step s i = some t → ¬ P t)
    {tr : List (σ × ι)} {s : σ} (hrun : Run step s₀ tr s) : Always P tr s ↔ EachStep C tr := by
  constructor
  · induction hrun with
    | nil => exact fun _ => eachStep_nil C
    | @snoc tr m i t hrun hs ih =>
        rintro ⟨hPt, hall⟩
        have hprev : Always P tr m :=
          ⟨hall (m, i) List.mem_cons_self, fun p hp => hall p (List.mem_cons_of_mem _ hp)⟩
        have hrest := ih hprev
        have hIm : Inv m := (hrun.always_of hI0 hkeep hrest).1
        exact eachStep_cons.mpr ⟨by_contra fun hC => hbreak m i t hIm hC hs hPt, hrest⟩
  · intro hC
    exact (hrun.always_of hI0 hkeep hC).mono hP

/-! ## Prolonging a run -/

/-- What relates a state to the next relates every state of a run to the last one. -/
theorem Run.related {I : σ → Prop} {R : σ → σ → Prop} (hI0 : I s₀)
    (hInv : ∀ s i t, I s → step s i = some t → I t)
    (htrans : ∀ r s t, R r s → R s t → R r t)
    (hstep : ∀ s i t, I s → step s i = some t → R s t)
    {tr : List (σ × ι)} {s : σ} (hrun : Run step s₀ tr s) : ∀ p ∈ tr, R p.1 s := by
  induction hrun with
  | nil =>
      intro p hp
      cases hp
  | @snoc tr m i t hrun hs ih =>
      have hlast : R m t := hstep m i t (hrun.invariant hI0 hInv) hs
      intro p hp
      rcases List.mem_cons.mp hp with rfl | hp
      · exact hlast
      · exact htrans _ _ _ (ih p hp) hlast

/-- Two runs, one after the other. -/
theorem Run.trans {tr₁ tr₂ : List (σ × ι)} {s t : σ} (h₁ : Run step s₀ tr₁ s)
    (h₂ : Run step s tr₂ t) : Run step s₀ (tr₂ ++ tr₁) t := by
  induction h₂ with
  | nil => exact h₁
  | snoc _ hs ih => exact ih.snoc hs

/-! ## Executing a list of labels -/

/-- Take the labels in order. -/
def exec (step : σ → ι → Option σ) : σ → List ι → Option σ
  | s, [] => some s
  | s, i :: is => (step s i).bind fun t => exec step t is

/-- An execution is a run. -/
theorem Run.of_exec {is : List ι} {s t : σ} (h : exec step s is = some t) :
    ∃ tr, Run step s tr t := by
  induction is generalizing s with
  | nil =>
      obtain rfl : s = t := by simpa [exec] using h
      exact ⟨[], .nil⟩
  | cons i is ih =>
      obtain ⟨m, hm, hrest⟩ := Option.bind_eq_some_iff.mp h
      obtain ⟨tr, htr⟩ := ih hrest
      exact ⟨tr ++ [(s, i)], (Run.nil.snoc hm).trans htr⟩

/-- A decidable fact about the end of an execution is a fact about a reachable state. -/
theorem Run.reach_of_exec {is : List ι} {s : σ} {p : σ → Bool}
    (h : (exec step s is).any p = true) : ∃ tr t, Run step s tr t ∧ p t = true := by
  obtain ⟨t, ht, hp⟩ := Option.any_eq_true _ _ |>.mp h
  obtain ⟨tr, htr⟩ := Run.of_exec ht
  exact ⟨tr, t, htr, hp⟩

/-- The steps of `step` that meet `C`. -/
def guarded (step : σ → ι → Option σ) (C : σ → ι → Prop) [∀ s i, Decidable (C s i)] (s : σ)
    (i : ι) : Option σ :=
  if C s i then step s i else none

/-- A run of guarded steps is a run whose steps all meet the guard. -/
theorem Run.of_guarded {C : σ → ι → Prop} [∀ s i, Decidable (C s i)] {tr : List (σ × ι)} {s : σ}
    (hrun : Run (guarded step C) s₀ tr s) : Run step s₀ tr s ∧ EachStep C tr := by
  induction hrun with
  | nil => exact ⟨.nil, eachStep_nil C⟩
  | snoc _ hs ih =>
      obtain ⟨hc, hs⟩ := Option.ite_none_right_eq_some.mp hs
      exact ⟨ih.1.snoc hs, eachStep_cons.mpr ⟨hc, ih.2⟩⟩

end Transition
