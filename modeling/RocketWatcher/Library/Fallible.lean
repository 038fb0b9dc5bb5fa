import Mathlib.Data.List.Forall2

/-!
# Fallible computations

What a computation in `Except` has done once it has a result. A sequence has a result when
both its parts have one (`Except.bind_eq_ok`), a traversal when every element has one
(`Except.mapM_eq_ok`).
-/

namespace Except

variable {ε α β : Type}

@[simp] theorem ok_bind (a : α) (f : α → Except ε β) : (.ok a >>= f) = f a :=
  rfl

@[simp] theorem error_bind (e : ε) (f : α → Except ε β) : (.error e >>= f) = .error e :=
  rfl

@[simp] theorem pure_eq_ok (a : α) : (pure a : Except ε α) = .ok a :=
  rfl

@[simp] theorem throw_eq_error (e : ε) : (throw e : Except ε α) = .error e :=
  rfl

theorem bind_eq_ok {x : Except ε α} {f : α → Except ε β} {b : β} :
    (x >>= f) = .ok b ↔ ∃ a, x = .ok a ∧ f a = .ok b := by
  cases x with
  | error e => simp
  | ok a => simp

/-- A traversal has a result when every element has one, and the result lists them. -/
theorem mapM_eq_ok {f : α → Except ε β} {l : List α} {out : List β} :
    l.mapM f = .ok out ↔ List.Forall₂ (fun a b => f a = .ok b) l out := by
  induction l generalizing out with
  | nil => simp [eq_comm]
  | cons a l ih =>
    rw [List.mapM_cons, bind_eq_ok, List.forall₂_cons_left_iff]
    constructor
    · rintro ⟨b, hb, h⟩
      obtain ⟨rest, hrest, h⟩ := bind_eq_ok.mp h
      obtain rfl : b :: rest = out := by simpa using h
      exact ⟨b, rest, hb, ih.mp hrest, rfl⟩
    · rintro ⟨b, rest, hb, hrest, rfl⟩
      exact ⟨b, hb, bind_eq_ok.mpr ⟨rest, ih.mpr hrest, rfl⟩⟩

theorem ok_of_mem_mapM {f : α → Except ε β} {l : List α} {out : List β} (h : l.mapM f = .ok out)
    {a : α} (ha : a ∈ l) : ∃ b, f a = .ok b := by
  have hall := mapM_eq_ok.mp h
  obtain ⟨i, hi, rfl⟩ := List.getElem_of_mem ha
  exact ⟨_, (List.forall₂_iff_get.mp hall).2 i hi (hall.length_eq ▸ hi)⟩

/-- A traversal has a result if every element has one. -/
theorem mapM_isOk {f : α → Except ε β} {l : List α} (h : ∀ a ∈ l, ∃ b, f a = .ok b) :
    ∃ out, l.mapM f = .ok out := by
  induction l with
  | nil => exact ⟨[], rfl⟩
  | cons a l ih =>
    obtain ⟨b, hb⟩ := h a List.mem_cons_self
    obtain ⟨rest, hrest⟩ := ih fun a ha => h a (List.mem_cons_of_mem _ ha)
    exact ⟨b :: rest, mapM_eq_ok.mpr (.cons hb (mapM_eq_ok.mp hrest))⟩

/-- A traversal that reads back what `g` has written. -/
theorem mapM_map_eq_ok {f : β → Except ε α} {g : α → β} {l : List α}
    (h : ∀ a ∈ l, f (g a) = .ok a) : (l.map g).mapM f = .ok l := by
  rw [mapM_eq_ok, List.forall₂_map_left_iff]
  exact List.forall₂_same.mpr h

/-! ## Two computations -/

/-- Both fail alike, or both have a result and the results are related. -/
inductive Rel (R : α → β → Prop) : Except ε α → Except ε β → Prop
  | ok {a b} (h : R a b) : Rel R (.ok a) (.ok b)
  | error (e : ε) : Rel R (.error e) (.error e)

/-- A fold and one over the images of the elements, whose steps are related. -/
theorem Rel.foldlM {γ δ : Type} {R : α → β → Prop} {f : α → γ → Except ε α}
    {f' : β → δ → Except ε β} {g : γ → δ}
    (step : ∀ a b c, R a b → Rel R (f a c) (f' b (g c))) (l : List γ) {a : α} {b : β}
    (h : R a b) : Rel R (l.foldlM f a) ((l.map g).foldlM f' b) := by
  induction l generalizing a b with
  | nil => exact .ok h
  | cons c l ih =>
    rw [List.map_cons, List.foldlM_cons, List.foldlM_cons]
    have hstep := step a b c h
    revert hstep
    generalize f a c = x, f' b (g c) = y
    rintro (⟨h⟩ | ⟨e⟩)
    · exact ih h
    · exact .error e

end Except
