import Ainur.Lib.Run

set_option autoImplicit false

/-! # Refinement of transition systems

A concrete system refines an abstract one when every step of the concrete one is matched by the
abstract steps that it stands for: by none where it only prepares something, by one where it takes
effect. `visible s i` names them. A run of the concrete system then has an abstract execution of the
labels that its steps stand for, one after the other (`Refines.run`), and what the abstract system
keeps is a fact about the states that the concrete one reaches (`Refines.invariant`).
-/

namespace Transition

universe u v w x

variable {σ : Type u} {ι : Type v} {σ' : Type w} {ι' : Type x}

/-- Two executions, one after the other. -/
theorem exec_append {step : σ → ι → Option σ} (s : σ) (is js : List ι) :
    exec step s (is ++ js) = (exec step s is).bind fun t => exec step t js := by
  induction is generalizing s with
  | nil => rfl
  | cons i is ih =>
      show (step s i).bind (fun t => exec step t (is ++ js)) = _
      rw [exec, Option.bind_assoc]
      exact congrArg _ (funext fun t => ih t)

theorem exec_one {step : σ → ι → Option σ} {s t : σ} {i : ι} (h : step s i = some t) :
    exec step s [i] = some t := by
  rw [exec, h]
  rfl

/-- An invariant along an execution. -/
theorem exec_invariant {step : σ → ι → Option σ} {P : σ → Prop}
    (hstep : ∀ s i t, P s → step s i = some t → P t) {is : List ι} {s t : σ} (hs : P s)
    (h : exec step s is = some t) : P t := by
  induction is generalizing s with
  | nil =>
      obtain rfl : s = t := Option.some.inj h
      exact hs
  | cons i is ih =>
      obtain ⟨m, hm, hrest⟩ := Option.bind_eq_some_iff.mp h
      exact ih (hstep s i m hs hm) hrest

/-- The steps of an execution, latest first. -/
def history (step : σ → ι → Option σ) : σ → List ι → List (σ × ι)
  | _, [] => []
  | s, i :: is =>
      match step s i with
      | some t => history step t is ++ [(s, i)]
      | none => []

/-- An execution is a run with these steps. -/
theorem Run.of_history {step : σ → ι → Option σ} {is : List ι} {s t : σ}
    (h : exec step s is = some t) : Run step s (history step s is) t := by
  induction is generalizing s with
  | nil =>
      obtain rfl : s = t := Option.some.inj h
      exact .nil
  | cons i is ih =>
      obtain ⟨m, hm, hrest⟩ := Option.bind_eq_some_iff.mp h
      rw [history, hm]
      exact (Run.nil.snoc hm).trans (ih hrest)

/-- The labels that the steps of a run stand for, the first step first. -/
def trace (visible : σ → ι → List ι') (tr : List (σ × ι)) : List ι' :=
  tr.reverse.flatMap fun p => visible p.1 p.2

theorem trace_cons (visible : σ → ι → List ι') (s : σ) (i : ι) (tr : List (σ × ι)) :
    trace visible ((s, i) :: tr) = trace visible tr ++ visible s i := by
  simp [trace]

/-- Along `R`, every step with `C` is matched by the steps that it stands for. -/
structure Refines (step : σ → ι → Option σ) (s₀ : σ) (step' : σ' → ι' → Option σ') (s₀' : σ')
    (C : σ → ι → Prop) (visible : σ → ι → List ι') (R : σ → σ' → Prop) : Prop where
  init : R s₀ s₀'
  matched : ∀ s i t a, R s a → C s i → step s i = some t →
    ∃ b, exec step' a (visible s i) = some b ∧ R t b

section Refines

variable {step : σ → ι → Option σ} {s₀ : σ} {step' : σ' → ι' → Option σ'} {s₀' : σ'}
variable {C : σ → ι → Prop} {visible : σ → ι → List ι'} {R : σ → σ' → Prop}

/-- **The simulation rule.** The abstract system executes what the steps of a run stand for, and
ends in a state that is related to the last one of the run. -/
theorem Refines.run (h : Refines step s₀ step' s₀' C visible R) {tr : List (σ × ι)} {s : σ}
    (hrun : Run step s₀ tr s) (hC : EachStep C tr) :
    ∃ a, exec step' s₀' (trace visible tr) = some a ∧ R s a := by
  induction hrun with
  | nil => exact ⟨s₀', rfl, h.init⟩
  | @snoc tr m i t _ hs ih =>
      obtain ⟨hc, hrest⟩ := eachStep_cons.mp hC
      obtain ⟨a, ha, hRa⟩ := ih hrest
      obtain ⟨b, hb, hRb⟩ := h.matched m i t a hRa hc hs
      refine ⟨b, ?_, hRb⟩
      calc exec step' s₀' (trace visible ((m, i) :: tr))
          = exec step' s₀' (trace visible tr ++ visible m i) := by rw [trace_cons]
        _ = (exec step' s₀' (trace visible tr)).bind fun c => exec step' c (visible m i) :=
            exec_append _ _ _
        _ = exec step' a (visible m i) := by rw [ha]; rfl
        _ = some b := hb

/-- What the abstract system keeps holds of the state behind every state of the concrete one. -/
theorem Refines.invariant (h : Refines step s₀ step' s₀' C visible R) {P : σ' → Prop}
    (h0 : P s₀') (hstep : ∀ a i b, P a → step' a i = some b → P b) {tr : List (σ × ι)} {s : σ}
    (hrun : Run step s₀ tr s) (hC : EachStep C tr) : ∃ a, R s a ∧ P a := by
  obtain ⟨a, ha, hR⟩ := h.run hrun hC
  exact ⟨a, hR, exec_invariant hstep h0 ha⟩

end Refines

end Transition
