import Mathlib.Logic.Function.Basic

/-!
# Maps that are extended and never overridden

A map from keys to optional values, extended along a list : an element may offer a value for one
key, and the key takes it if it has none yet. A key of the map keeps its value, any other key gets
the first value offered for it (`extend_eq_some_iff`). Extending twice is extending once
(`extend_extend`).
-/

namespace FirstWins

variable {α κ ν : Type*} [DecidableEq κ]

def setIfUnset (m : κ → Option ν) (k : κ) (v : ν) : κ → Option ν :=
  if (m k).isSome then m else Function.update m k (some v)

/-- The map after one element. -/
def step (offer : α → Option (κ × ν)) (m : κ → Option ν) (x : α) : κ → Option ν :=
  match offer x with
  | none => m
  | some (k, v) => setIfUnset m k v

/-- The map after a list. -/
def extend (offer : α → Option (κ × ν)) (m : κ → Option ν) (xs : List α) : κ → Option ν :=
  xs.foldl (step offer) m

/-- What an element offers for one key. -/
def offerFor (offer : α → Option (κ × ν)) (k : κ) (x : α) : Option ν :=
  (offer x).bind fun entry => if entry.1 = k then some entry.2 else none

variable {offer : α → Option (κ × ν)} {m : κ → Option ν} {k : κ} {v : ν}

theorem setIfUnset_apply (m : κ → Option ν) (k : κ) (v : ν) (k' : κ) :
    setIfUnset m k v k' = (m k').or (if k = k' then some v else none) := by
  unfold setIfUnset
  by_cases hkey : k = k'
  · subst hkey
    cases hm : m k with
    | none => simp
    | some w => simp [hm]
  · rw [if_neg hkey, Option.or_none]
    split
    · rfl
    · rw [Function.update_of_ne (Ne.symm hkey)]

theorem step_apply (m : κ → Option ν) (x : α) (k : κ) :
    step offer m x k = (m k).or (offerFor offer k x) := by
  unfold step offerFor
  cases offer x with
  | none => simp
  | some entry => exact setIfUnset_apply m entry.1 entry.2 k

theorem extend_apply (m : κ → Option ν) (xs : List α) (k : κ) :
    extend offer m xs k = (m k).or (xs.findSome? (offerFor offer k)) := by
  induction xs generalizing m with
  | nil => simp [extend]
  | cons x xs ih =>
    have hrest : extend offer m (x :: xs) = extend offer (step offer m x) xs := rfl
    rw [hrest, ih, step_apply, Option.or_assoc, List.findSome?_cons]
    cases offerFor offer k x with
    | none => simp
    | some v => simp

theorem offerFor_eq_some_iff {x : α} : offerFor offer k x = some v ↔ offer x = some (k, v) := by
  unfold offerFor
  cases offer x with
  | none => simp
  | some entry =>
    obtain ⟨k', v'⟩ := entry
    by_cases hkey : k' = k
    · simp [hkey]
    · simp [hkey]

/-- A value that is set stays. -/
theorem extend_of_some (h : m k = some v) (xs : List α) : extend offer m xs k = some v := by
  rw [extend_apply, h, Option.some_or]

/-- A key that is unset gets the first value offered. -/
theorem extend_eq_some_iff (h : m k = none) {xs : List α} :
    extend offer m xs k = some v ↔ ∃ before x after, xs = before ++ x :: after ∧
      offer x = some (k, v) ∧ ∀ y ∈ before, ∀ w, offer y ≠ some (k, w) := by
  rw [extend_apply, h, Option.none_or, List.findSome?_eq_some_iff]
  simp only [offerFor_eq_some_iff, Option.eq_none_iff_forall_ne_some, ne_eq]

/-- What is set before the rest of a list stays. -/
theorem extend_of_prefix {xs ys : List α} (hstart : xs <+: ys) (h : extend offer m xs k = some v) :
    extend offer m ys k = some v := by
  obtain ⟨rest, rfl⟩ := hstart
  have hrest : extend offer m (xs ++ rest) = extend offer (extend offer m xs) rest :=
    List.foldl_append
  rw [hrest, extend_of_some h]

theorem extend_extend (m : κ → Option ν) (xs : List α) :
    extend offer (extend offer m xs) xs = extend offer m xs := by
  funext k
  rw [extend_apply, extend_apply m, Option.or_assoc, Option.or_self]

end FirstWins
