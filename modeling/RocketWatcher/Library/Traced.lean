import Mathlib.Data.List.Infix

/-!
# Scripts with a trace

A traced script performs effects one after the other and ends with a result or an
exception; the effects before an exception stay performed. `Emits p x es` says what an
observer who sees the effects that satisfy `p` sees of `x` : the effects `es`, or an initial
part of them if an exception ends the script. The rules follow the way scripts are built.
-/

structure Traced (η ε α : Type*) where
  trace : List η
  result : Except ε α

namespace Traced

section Script

variable {η ε α β : Type*}

/-- One effect. -/
def perform (e : η) : Traced η ε Unit :=
  ⟨[e], .ok ()⟩

/-- No effect, a result or an exception. -/
def ofExcept (x : Except ε α) : Traced η ε α :=
  ⟨[], x⟩

/-- The second script starts from the result of the first, if it has one. -/
def andThen (x : Traced η ε α) (f : α → Traced η ε β) : Traced η ε β :=
  match x.result with
  | .error e => ⟨x.trace, .error e⟩
  | .ok a => ⟨x.trace ++ (f a).trace, (f a).result⟩

instance : Monad (Traced η ε) where
  pure a := ⟨[], .ok a⟩
  bind := andThen

end Script

variable {η ε α β : Type} {p : η → Bool} {x : Traced η ε α} {f : α → Traced η ε β}
  {es es' : List η}

theorem bind_of_ok {a : α} (h : x.result = .ok a) :
    x >>= f = ⟨x.trace ++ (f a).trace, (f a).result⟩ := by
  show andThen x f = _
  rw [andThen, h]

theorem bind_of_error {e : ε} (h : x.result = .error e) : x >>= f = ⟨x.trace, .error e⟩ := by
  show andThen x f = _
  rw [andThen, h]

@[simp] theorem result_pure (a : α) : (Pure.pure a : Traced η ε α).result = .ok a :=
  rfl

@[simp] theorem mk_ok_bind (es : List η) (a : α) (f : α → Traced η ε β) :
    (⟨es, .ok a⟩ : Traced η ε α) >>= f = ⟨es ++ (f a).trace, (f a).result⟩ :=
  rfl

theorem trace_bind_pure (x : Traced η ε α) (g : α → β) :
    (x >>= fun a => Pure.pure (g a)).trace = x.trace := by
  cases h : x.result with
  | error e => rw [bind_of_error h]
  | ok a =>
    rw [bind_of_ok h]
    exact List.append_nil _

theorem result_bind_eq_ok {b : β} :
    (x >>= f).result = .ok b ↔ ∃ a, x.result = .ok a ∧ (f a).result = .ok b := by
  cases h : x.result with
  | error e => simp [bind_of_error h]
  | ok a => simp [bind_of_ok h]

theorem pure_eq_mk (a : α) : (Pure.pure a : Traced η ε α) = ⟨[], .ok a⟩ :=
  rfl

@[simp] theorem ofExcept_ok_bind (a : α) (f : α → Traced η ε β) :
    Traced.ofExcept (.ok a) >>= f = f a :=
  rfl

/-- The effects of `x` that satisfy `p` are `es`, or an initial part of `es` if `x` fails. -/
structure Emits (p : η → Bool) (x : Traced η ε α) (es : List η) : Prop where
  isPrefix : x.trace.filter p <+: es
  eq_of_ok : ∀ a, x.result = .ok a → x.trace.filter p = es

namespace Emits

theorem pure (a : α) : Emits p (Pure.pure a : Traced η ε α) [] where
  isPrefix := List.prefix_rfl
  eq_of_ok _ _ := rfl

theorem ofExcept (y : Except ε α) : Emits p (Traced.ofExcept y : Traced η ε α) [] where
  isPrefix := List.prefix_rfl
  eq_of_ok _ _ := rfl

theorem perform (e : η) : Emits p (Traced.perform e : Traced η ε Unit) ([e].filter p) where
  isPrefix := List.prefix_rfl
  eq_of_ok _ _ := rfl

theorem bind (hx : Emits p x es) (hf : ∀ a, x.result = .ok a → Emits p (f a) es') :
    Emits p (x >>= f) (es ++ es') := by
  cases h : x.result with
  | error e =>
    rw [bind_of_error h]
    exact ⟨hx.isPrefix.trans (List.prefix_append _ _), by simp⟩
  | ok a =>
    rw [bind_of_ok h]
    refine ⟨?_, fun b hb => ?_⟩
    · rw [List.filter_append, hx.eq_of_ok a h]
      exact (List.prefix_append_right_inj _).mpr (hf a h).isPrefix
    · rw [List.filter_append, hx.eq_of_ok a h, (hf a h).eq_of_ok b hb]

/-- After a script nothing is seen of, only the rest counts. -/
theorem bind_silent (hx : Emits p x []) (hf : ∀ a, x.result = .ok a → Emits p (f a) es) :
    Emits p (x >>= f) es :=
  hx.bind hf

/-- Before a script nothing is seen of. -/
theorem then_silent (hx : Emits p x es) (hf : ∀ a, x.result = .ok a → Emits p (f a) []) :
    Emits p (x >>= f) es := by
  simpa using hx.bind hf

/-- What is seen of a script. -/
theorem self (x : Traced η ε α) : Emits p x (x.trace.filter p) where
  isPrefix := List.prefix_rfl
  eq_of_ok _ _ := rfl

/-- Who sees less sees nothing either. -/
theorem silent_mono {q : η → Bool} (hx : Emits p x []) (h : ∀ e, q e = true → p e = true) :
    Emits q x [] := by
  have hnone : x.trace.filter p = [] := List.prefix_nil.mp hx.isPrefix
  have hless : x.trace.filter q = [] :=
    List.filter_eq_nil_iff.mpr fun e he hq => List.filter_eq_nil_iff.mp hnone e he (h e hq)
  exact ⟨by rw [hless], fun _ _ => hless⟩

theorem forM {l : List α} {body : α → Traced η ε Unit} {g : α → List η}
    (hbody : ∀ a ∈ l, Emits p (body a) (g a)) : Emits p (l.forM body) (l.flatMap g) := by
  induction l with
  | nil => exact .pure _
  | cons a l ih =>
    exact (hbody a List.mem_cons_self).bind fun _ _ =>
      ih fun a' ha' => hbody a' (List.mem_cons_of_mem _ ha')

/-- A loop that nothing is seen of. -/
theorem forM_silent {l : List α} {body : α → Traced η ε Unit}
    (hbody : ∀ a, Emits p (body a) []) : Emits p (l.forM body) [] := by
  induction l with
  | nil => exact .pure _
  | cons a l ih => exact (hbody a).bind_silent fun _ _ => ih

theorem foldlM {l : List α} {body : β → α → Traced η ε β} {g : α → List η}
    (hbody : ∀ b, ∀ a ∈ l, Emits p (body b a) (g a)) (b : β) :
    Emits p (l.foldlM body b) (l.flatMap g) := by
  induction l generalizing b with
  | nil => exact .pure _
  | cons a l ih =>
    rw [List.foldlM_cons]
    exact (hbody b a List.mem_cons_self).bind fun b' _ =>
      ih (fun b'' a' ha' => hbody b'' a' (List.mem_cons_of_mem _ ha')) b'

end Emits

/-- The observer cannot tell the scripts apart. -/
structure SameView (p : η → Bool) (x y : Traced η ε α) : Prop where
  trace : x.trace.filter p = y.trace.filter p
  result : x.result = y.result

namespace SameView

variable {y z : Traced η ε α}

theorem refl (x : Traced η ε α) : SameView p x x :=
  ⟨rfl, rfl⟩

theorem trans (h : SameView p x y) (h' : SameView p y z) : SameView p x z :=
  ⟨h.trace.trans h'.trace, h.result.trans h'.result⟩

/-- A first part that ends well and is not seen. -/
theorem of_silent {a : α} (hx : Emits p x []) (ha : x.result = .ok a) :
    SameView p (x >>= f) (f a) := by
  rw [bind_of_ok ha]
  exact ⟨by simp [hx.eq_of_ok a ha], rfl⟩

end SameView

/-- Read through `r`, the script does what the other does, and ends with its result under `f`. -/
structure Shows {θ α' : Type} (r : η → Option θ) (f : α' → α) (x : Traced η ε α)
    (y : Traced θ ε α') : Prop where
  trace : x.trace.filterMap r = y.trace
  result : x.result = y.result.map f

namespace Shows

variable {θ α' β' : Type} {r : η → Option θ} {y : Traced θ ε α'}

theorem pure {g : α' → α} (a : α') :
    Shows r g (Pure.pure (g a) : Traced η ε α) (Pure.pure a) :=
  ⟨rfl, rfl⟩

theorem ofExcept (z : Except ε α) :
    Shows r id (Traced.ofExcept z : Traced η ε α) (Traced.ofExcept z) :=
  ⟨rfl, by cases z <;> rfl⟩

theorem bind {g : α' → α} {g' : β' → β} {f' : α' → Traced θ ε β'} (h : Shows r g x y)
    (hf : ∀ a, y.result = .ok a → Shows r g' (f (g a)) (f' a)) :
    Shows r g' (x >>= f) (y >>= f') := by
  cases hy : y.result with
  | error e =>
    have hx : x.result = .error e := by rw [h.result, hy]; rfl
    rw [bind_of_error hx, bind_of_error hy]
    exact ⟨h.trace, rfl⟩
  | ok a =>
    have hx : x.result = .ok (g a) := by rw [h.result, hy]; rfl
    rw [bind_of_ok hx, bind_of_ok hy]
    exact ⟨by rw [List.filterMap_append, h.trace, (hf a hy).trace], (hf a hy).result⟩

/-- After effects that are not read. -/
theorem silent_bind {g : α' → β} {a : α} (hes : es.filterMap r = []) (h : Shows r g (f a) y) :
    Shows r g ((⟨es, .ok a⟩ : Traced η ε α) >>= f) y := by
  rw [mk_ok_bind]
  exact ⟨by rw [List.filterMap_append, hes, List.nil_append, h.trace], h.result⟩

end Shows

/-- A loop whose body always ends well ends well. -/
theorem forM_result {l : List α} {body : α → Traced η ε Unit}
    (hbody : ∀ a, (body a).result = .ok ⟨⟩) : (l.forM body).result = .ok ⟨⟩ := by
  induction l with
  | nil => rfl
  | cons a l ih =>
    show (body a >>= fun _ => l.forM body).result = _
    rw [bind_of_ok (hbody a)]
    exact ih

/-- The same when it ends well on the items there are. -/
theorem forM_result_of_mem {l : List α} {body : α → Traced η ε Unit}
    (hbody : ∀ a ∈ l, (body a).result = .ok ⟨⟩) : (l.forM body).result = .ok ⟨⟩ := by
  induction l with
  | nil => rfl
  | cons a l ih =>
    show (body a >>= fun _ => l.forM body).result = _
    rw [bind_of_ok (hbody a List.mem_cons_self)]
    exact ih fun a' ha' => hbody a' (List.mem_cons_of_mem _ ha')

/-- A relation between the effects a loop stands for and its value that every pass keeps, each
pass ending well. -/
theorem foldlM_result {R : List η → β → Prop} {l : List α} {body : β → α → Traced η ε β}
    {g : α → List η}
    (hbody : ∀ es b, ∀ a ∈ l, R es b → ∃ b', (body b a).result = .ok b' ∧ R (es ++ g a) b')
    {b : β} (hb : R es b) : ∃ b', (l.foldlM body b).result = .ok b' ∧ R (es ++ l.flatMap g) b' := by
  induction l generalizing es b with
  | nil => exact ⟨b, rfl, by simpa using hb⟩
  | cons a l ih =>
    obtain ⟨b₁, hresult, hb₁⟩ := hbody es b a List.mem_cons_self hb
    obtain ⟨b₂, hrest, hb₂⟩ :=
      ih (fun es b a' ha' => hbody es b a' (List.mem_cons_of_mem _ ha')) hb₁
    refine ⟨b₂, ?_, by simpa using hb₂⟩
    rw [List.foldlM_cons, bind_of_ok hresult]
    exact hrest

/-- A loop that performs one effect for each item. -/
theorem forM_perform (g : α → η) (l : List α) :
    (l.forM fun a => .perform (g a) : Traced η ε Unit) = ⟨l.map g, .ok ()⟩ := by
  induction l with
  | nil => rfl
  | cons a l ih =>
    show (Traced.perform (g a) >>= fun _ => l.forM fun a => .perform (g a)) = _
    rw [ih]
    rfl

theorem forM_map (h : α → β) (l : List α) (body : β → Traced η ε Unit) :
    (l.map h).forM body = l.forM fun a => body (h a) := by
  induction l with
  | nil => rfl
  | cons a l ih =>
    show (body (h a) >>= fun _ => (l.map h).forM body) = _
    rw [ih]
    rfl

/-! ## Finer effects -/

/-- A crash in the middle of a script whose effects are done in steps. It leaves whole effects
done, and then some first steps of the next one. -/
theorem exists_take_flatMap {g : α → List β} (l : List α) (n : ℕ) :
    ∃ m part, (l.flatMap g).take n = (l.take m).flatMap g ++ part ∧
      (part = [] ∨ ∃ a k, l[m]? = some a ∧ part = (g a).take k) := by
  induction l generalizing n with
  | nil => exact ⟨0, [], by simp⟩
  | cons a l ih =>
    rw [List.flatMap_cons]
    by_cases hn : n ≤ (g a).length
    · refine ⟨0, (g a).take n, ?_, .inr ⟨a, n, rfl, rfl⟩⟩
      rw [List.take_append_of_le_length hn]
      rfl
    · obtain ⟨rest, rfl⟩ := Nat.exists_eq_add_of_le (Nat.le_of_not_le hn)
      obtain ⟨m, part, htake, hpart⟩ := ih rest
      refine ⟨m + 1, part, ?_, by simpa using hpart⟩
      rw [List.take_length_add_append, htake, List.take_succ_cons, List.flatMap_cons,
        List.append_assoc]

/-! ## Renamed effects -/

/-- The script with its effects renamed. -/
def mapTrace {θ : Type} (g : η → θ) (x : Traced η ε α) : Traced θ ε α :=
  ⟨x.trace.map g, x.result⟩

section MapTrace

variable {θ : Type} (g : η → θ)

@[simp] theorem mapTrace_pure (a : α) :
    mapTrace g (Pure.pure a : Traced η ε α) = Pure.pure a :=
  rfl

@[simp] theorem mapTrace_ofExcept (y : Except ε α) :
    mapTrace g (Traced.ofExcept y : Traced η ε α) = Traced.ofExcept y :=
  rfl

@[simp] theorem mapTrace_perform (e : η) :
    mapTrace g (Traced.perform e : Traced η ε Unit) = Traced.perform (g e) :=
  rfl

@[simp] theorem mapTrace_bind (x : Traced η ε α) (f : α → Traced η ε β) :
    mapTrace g (x >>= f) = mapTrace g x >>= fun a => mapTrace g (f a) := by
  cases h : x.result with
  | error e =>
    have hx : (mapTrace g x).result = .error e := h
    rw [bind_of_error h, bind_of_error hx]
    rfl
  | ok a =>
    have hx : (mapTrace g x).result = .ok a := h
    rw [bind_of_ok h, bind_of_ok hx]
    simp only [mapTrace, List.map_append]

theorem mapTrace_forM (l : List α) (body : α → Traced η ε Unit) :
    mapTrace g (l.forM body) = l.forM fun a => mapTrace g (body a) := by
  induction l with
  | nil => rfl
  | cons a l ih =>
    show mapTrace g (body a >>= fun _ => l.forM body) = _
    rw [mapTrace_bind, ih]
    rfl

theorem mapTrace_foldlM (l : List α) (body : β → α → Traced η ε β) (b : β) :
    mapTrace g (l.foldlM body b) = l.foldlM (fun b a => mapTrace g (body b a)) b := by
  induction l generalizing b with
  | nil => rfl
  | cons a l ih =>
    rw [List.foldlM_cons, List.foldlM_cons, mapTrace_bind]
    exact congrArg _ (funext ih)

end MapTrace

/-- A result that is renamed before it is used. -/
theorem ofExcept_map_bind (h : α → β) (y : Except ε α) {γ : Type} (f : β → Traced η ε γ) :
    Traced.ofExcept (y.map h) >>= f = Traced.ofExcept y >>= fun a => f (h a) := by
  cases y <;> rfl

end Traced
