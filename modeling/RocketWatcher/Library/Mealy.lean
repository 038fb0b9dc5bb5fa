import Mathlib.Data.List.Forall2
import Mathlib.Data.List.Induction

/-!
# Runs of a Mealy machine

A Mealy machine answers an input with an output and a new state, or fails. `Run s₀ tr s`
says that the transitions `tr` lead from `s₀` to `s`, none of them failing. Invariants of
a run may read its whole past (`Run.invariant`), and a relation kept by every step of two
machines is kept along their runs on the same inputs (`Run.simulate`).
-/

structure Mealy (σ ι ο ε : Type*) where
  step : σ → ι → Except ε (ο × σ)

namespace Mealy

/-- One step of a run, with the states around it. -/
structure Transition (σ ι ο : Type*) where
  before : σ
  input : ι
  output : ο
  after : σ

variable {σ ι ο ε : Type*}

/-- The transitions lead from the first state to the last. -/
inductive Run (M : Mealy σ ι ο ε) (s₀ : σ) : List (Transition σ ι ο) → σ → Prop
  | nil : Run M s₀ [] s₀
  | snoc {tr s i o s'} : Run M s₀ tr s → M.step s i = .ok (o, s') →
      Run M s₀ (tr ++ [⟨s, i, o, s'⟩]) s'

/-- Run the inputs in order, from state `s`. -/
def exec (M : Mealy σ ι ο ε) (s : σ) : List ι → Except ε (List (Transition σ ι ο) × σ)
  | [] => .ok ([], s)
  | i :: is =>
    match M.step s i with
    | .error e => .error e
    | .ok (o, s') =>
      match M.exec s' is with
      | .error e => .error e
      | .ok (tr, t) => .ok (⟨s, i, o, s'⟩ :: tr, t)

namespace Run

variable {M : Mealy σ ι ο ε} {s₀ s : σ} {tr : List (Transition σ ι ο)}

/-- A property of the past and the state that every step keeps holds at the end. -/
theorem invariant {P : List (Transition σ ι ο) → σ → Prop} (h : M.Run s₀ tr s)
    (start : P [] s₀)
    (step : ∀ tr s i o s', M.Run s₀ tr s → P tr s → M.step s i = .ok (o, s') →
      P (tr ++ [⟨s, i, o, s'⟩]) s') : P tr s := by
  induction h with
  | nil => exact start
  | snoc hrun hstep ih => exact step _ _ _ _ _ hrun ih hstep

/-- Every transition of a run is a step of the machine. -/
theorem step_of_mem (h : M.Run s₀ tr s) {t : Transition σ ι ο} (ht : t ∈ tr) :
    M.step t.before t.input = .ok (t.output, t.after) := by
  induction h with
  | nil => cases ht
  | snoc _ hstep ih =>
    rcases List.mem_append.mp ht with ht | ht
    · exact ih ht
    · rw [List.mem_singleton.mp ht]
      exact hstep

/-- The last transition of a run, and the run before it. -/
theorem of_snoc {t : Transition σ ι ο} (h : M.Run s₀ (tr ++ [t]) s) :
    M.Run s₀ tr t.before ∧ M.step t.before t.input = .ok (t.output, t.after) ∧ s = t.after := by
  generalize htr : tr ++ [t] = tr' at h
  cases h with
  | nil => simp at htr
  | snoc hrun hstep =>
    obtain ⟨rfl, ht⟩ := List.append_inj' htr rfl
    rw [List.singleton_inj.mp ht]
    exact ⟨hrun, hstep, rfl⟩

theorem eq_of_nil (h : M.Run s₀ [] s) : s = s₀ := by
  generalize htr : ([] : List (Transition σ ι ο)) = tr at h
  cases h with
  | nil => rfl
  | snoc => simp at htr

/-- A run in two parts. -/
theorem of_append {tr' : List (Transition σ ι ο)} (h : M.Run s₀ (tr ++ tr') s) :
    ∃ m, M.Run s₀ tr m ∧ M.Run m tr' s := by
  induction tr' using List.reverseRecOn generalizing s with
  | nil => exact ⟨s, by simpa using h, .nil⟩
  | append_singleton tr' t ih =>
    rw [← List.append_assoc] at h
    obtain ⟨hrun, hstep, rfl⟩ := h.of_snoc
    obtain ⟨m, hfirst, hrest⟩ := ih hrun
    exact ⟨m, hfirst, hrest.snoc hstep⟩

/-- A run, and a run from where it ends. -/
theorem append {tr' : List (Transition σ ι ο)} {t : σ} (h : M.Run s₀ tr s) (h' : M.Run s tr' t) :
    M.Run s₀ (tr ++ tr') t := by
  induction h' with
  | nil => simpa using h
  | snoc _ hstep ih =>
    rw [← List.append_assoc]
    exact ih.snoc hstep

/-- The first transition of a run, and the run after it. -/
theorem of_cons {t : Transition σ ι ο} (h : M.Run s₀ (t :: tr) s) :
    s₀ = t.before ∧ M.step t.before t.input = .ok (t.output, t.after) ∧ M.Run t.after tr s := by
  have hsplit : M.Run s₀ ([t] ++ tr) s := h
  obtain ⟨m, hfirst, hrest⟩ := hsplit.of_append
  have hsingle : M.Run s₀ ([] ++ [t]) m := hfirst
  obtain ⟨hnil, hstep, rfl⟩ := hsingle.of_snoc
  exact ⟨hnil.eq_of_nil.symm, hstep, hrest⟩

/-- What no step changes. -/
theorem kept {α : Type*} {f : σ → α} (h : M.Run s₀ tr s)
    (keeps : ∀ t ∈ tr, f t.after = f t.before) : f s = f s₀ := by
  induction h with
  | nil => rfl
  | snoc _ _ ih =>
    have hlast := keeps _ (List.mem_append_right _ List.mem_cons_self)
    exact hlast.trans (ih fun t ht => keeps t (List.mem_append_left _ ht))

theorem append_exec {is : List ι} {tr' : List (Transition σ ι ο)} {t : σ} (h : M.Run s₀ tr s)
    (hexec : M.exec s is = .ok (tr', t)) : M.Run s₀ (tr ++ tr') t := by
  induction is generalizing tr s tr' with
  | nil =>
    obtain ⟨rfl, rfl⟩ : [] = tr' ∧ s = t := by simpa [exec] using hexec
    simpa using h
  | cons i is ih =>
    simp only [exec] at hexec
    split at hexec
    · cases hexec
    · next o s' hstep =>
      split at hexec
      · cases hexec
      · next tr'' t' hrest =>
        obtain ⟨rfl, rfl⟩ : _ = tr' ∧ t' = t := by simpa using hexec
        simpa using ih (h.snoc hstep) hrest

/-- What `exec` computes is a run. -/
theorem of_exec {is : List ι} (hexec : M.exec s₀ is = .ok (tr, s)) : M.Run s₀ tr s := by
  simpa using append_exec .nil hexec

/-- The images of a run, when the images of a step are a step. -/
theorem map {σ' ι' ο' ε' : Type*} {N : Mealy σ' ι' ο' ε'} {f : σ → σ'} {g : ι → ι'} {h : ο → ο'}
    (hrun : M.Run s₀ tr s)
    (step : ∀ s i o s', M.step s i = .ok (o, s') → N.step (f s) (g i) = .ok (h o, f s')) :
    N.Run (f s₀) (tr.map fun t => ⟨f t.before, g t.input, h t.output, f t.after⟩) (f s) := by
  induction hrun with
  | nil => exact .nil
  | snoc _ hstep ih =>
    rw [List.map_append]
    exact ih.snoc (step _ _ _ _ hstep)

/-- Two machines on the same inputs, each step of the first answered by a step of the
second that keeps `R` : the states after every input are related. The inputs may be
restricted to those that satisfy `P`. -/
theorem simulate {σ' ο' ε' : Type*} {N : Mealy σ' ι ο' ε'} {R : σ → σ' → Prop} {P : ι → Prop}
    {t₀ : σ'} (h : M.Run s₀ tr s) (inputs : ∀ t ∈ tr, P t.input) (start : R s₀ t₀)
    (step : ∀ s t i o s', P i → R s t → M.step s i = .ok (o, s') →
      ∃ o' t', N.step t i = .ok (o', t') ∧ R s' t') :
    ∃ tr' t, N.Run t₀ tr' t ∧ R s t ∧
      List.Forall₂ (fun a b => a.input = b.input ∧ R a.after b.after) tr tr' := by
  induction h with
  | nil => exact ⟨[], t₀, .nil, start, .nil⟩
  | snoc _ hstep ih =>
    obtain ⟨tr', t, hrun, hR, hall⟩ := ih fun t ht => inputs t (List.mem_append_left _ ht)
    have hinput := inputs _ (List.mem_append_right _ List.mem_cons_self)
    obtain ⟨o', t', hstep', hR'⟩ := step _ _ _ _ _ hinput hR hstep
    exact ⟨_, t', hrun.snoc hstep', hR', List.rel_append hall (.cons ⟨rfl, hR'⟩ .nil)⟩

/-- The same for machines with inputs of their own : each step of the first is answered by a step
of the second on some input, and `S` says what the two steps have in common. -/
theorem refine {σ' ι' ο' ε' : Type*} {N : Mealy σ' ι' ο' ε'} {R : σ → σ' → Prop}
    {S : Transition σ ι ο → Transition σ' ι' ο' → Prop} {t₀ : σ'} (h : M.Run s₀ tr s)
    (start : R s₀ t₀)
    (step : ∀ s t i o s', R s t → M.step s i = .ok (o, s') →
      ∃ i' o' t', N.step t i' = .ok (o', t') ∧ R s' t' ∧ S ⟨s, i, o, s'⟩ ⟨t, i', o', t'⟩) :
    ∃ tr' t, N.Run t₀ tr' t ∧ R s t ∧ List.Forall₂ S tr tr' := by
  induction h with
  | nil => exact ⟨[], t₀, .nil, start, .nil⟩
  | snoc _ hstep ih =>
    obtain ⟨tr', t, hrun, hR, hall⟩ := ih
    obtain ⟨i', o', t', hstep', hR', hS⟩ := step _ _ _ _ _ hR hstep
    exact ⟨_, t', hrun.snoc hstep', hR', List.rel_append hall (.cons hS .nil)⟩

end Run

end Mealy
