import Mathlib.Data.List.DropRight
import Mathlib.Data.List.Forall2

/-!
# Lists up to a key

Lists whose elements agree one by one, where two elements agree when they have the same key.
Searching among the keys is searching up to agreement (`map_infix_map_iff`). `strip` takes the
elements with a property off both ends : padding does not change what is left (`strip_append`),
nor does agreement (`forall₂_strip`).
-/

namespace Folded

variable {α β : Type*} {r : α → α → Prop} {key : α → β}

theorem forall₂_iff_map_eq (hkey : ∀ a b, r a b ↔ key a = key b) {xs ys : List α} :
    List.Forall₂ r xs ys ↔ xs.map key = ys.map key := by
  rw [← List.forall₂_eq_eq_eq, List.forall₂_map_left_iff, List.forall₂_map_right_iff]
  have hr : r = fun a b => key a = key b := by
    ext a b
    exact hkey a b
  rw [hr]

/-- A list occurs among the keys when a part that agrees with it occurs. -/
theorem map_infix_map_iff (hkey : ∀ a b, r a b ↔ key a = key b) {xs ys : List α} :
    ys.map key <:+: xs.map key ↔ ∃ part, part <:+: xs ∧ List.Forall₂ r part ys := by
  rw [List.infix_map_iff]
  refine exists_congr fun part => and_congr_right fun _ => ?_
  rw [forall₂_iff_map_eq hkey]
  exact eq_comm

/-! ## Both ends -/

variable (p : α → Bool)

/-- The list without the elements at its ends that have `p`. -/
def strip (xs : List α) : List α :=
  (xs.dropWhile p).rdropWhile p

variable {p}

theorem rdropWhile_append {xs trail : List α} (h : ∀ x ∈ trail, p x = true) :
    (xs ++ trail).rdropWhile p = xs.rdropWhile p := by
  rw [List.rdropWhile, List.reverse_append,
    List.dropWhile_append_of_pos fun x hx => h x (List.mem_reverse.mp hx), List.rdropWhile]

theorem strip_append {lead xs trail : List α} (hlead : ∀ x ∈ lead, p x = true)
    (htrail : ∀ x ∈ trail, p x = true) : strip p (lead ++ xs ++ trail) = strip p xs := by
  rw [strip, List.append_assoc, List.dropWhile_append_of_pos hlead, List.dropWhile_append]
  split_ifs with hempty
  · rw [strip, List.isEmpty_iff.mp hempty, List.dropWhile_eq_nil_iff.mpr htrail]
  · exact rdropWhile_append htrail

/-- Nothing is left when every element has `p`. -/
theorem strip_eq_nil_iff {xs : List α} : strip p xs = [] ↔ ∀ x ∈ xs, p x = true := by
  rw [strip, List.rdropWhile_eq_nil_iff]
  constructor
  · intro h
    refine List.dropWhile_eq_nil_iff.mp ?_
    cases hrest : xs.dropWhile p with
    | nil => rfl
    | cons x rest =>
      have hx := List.head?_dropWhile_not p xs
      simp [hrest, h x (by simp [hrest])] at hx
  · intro h x hx
    exact h x ((List.dropWhile_suffix p).subset hx)

/-- `ys` is `xs` without the elements at its ends that have `p`. -/
def Stripped (p : α → Bool) (xs ys : List α) : Prop :=
  ∃ lead trail, xs = lead ++ ys ++ trail ∧ (∀ x ∈ lead, p x = true) ∧ (∀ x ∈ trail, p x = true) ∧
    (∀ x ∈ ys.head?, p x = false) ∧ ∀ x ∈ ys.getLast?, p x = false

theorem strip_eq_self {ys : List α} (hhead : ∀ x ∈ ys.head?, p x = false)
    (hlast : ∀ x ∈ ys.getLast?, p x = false) : strip p ys = ys := by
  have hdrop : ys.dropWhile p = ys := by
    cases ys with
    | nil => rfl
    | cons y ys => rw [List.dropWhile_cons_of_neg (by simp [hhead y rfl])]
  rw [strip, hdrop, List.rdropWhile_eq_self_iff]
  intro hne
  simp [hlast (ys.getLast hne) (List.getLast?_eq_getLast_of_ne_nil hne)]

/-- `strip` is the only way to strip a list. -/
theorem stripped_iff {xs ys : List α} : Stripped p xs ys ↔ strip p xs = ys := by
  constructor
  · rintro ⟨lead, trail, rfl, hlead, htrail, hhead, hlast⟩
    rw [strip_append hlead htrail, strip_eq_self hhead hlast]
  · rintro rfl
    refine ⟨xs.takeWhile p, (xs.dropWhile p).rtakeWhile p, ?_, ?_, ?_, ?_, ?_⟩
    · rw [strip, List.append_assoc, List.rdropWhile_append_rtakeWhile,
        List.takeWhile_append_dropWhile]
    · exact fun x hx => List.mem_takeWhile_imp hx
    · exact fun x hx => List.mem_rtakeWhile_imp hx
    · intro x hx
      obtain ⟨rest, hrest⟩ := List.rdropWhile_prefix p (xs.dropWhile p)
      have hhead : (xs.dropWhile p).head? = some x := by
        rw [← hrest, List.head?_append, ← strip, Option.mem_def.mp hx, Option.some_or]
      simpa [hhead] using List.head?_dropWhile_not p xs
    · intro x hx
      obtain ⟨hne, rfl⟩ := List.mem_getLast?_eq_getLast hx
      have hlast := List.rdropWhile_last_not p (xs.dropWhile p) hne
      exact Bool.eq_false_iff.mpr hlast

theorem mem_of_mem_strip {xs : List α} {x : α} (h : x ∈ strip p xs) : x ∈ xs :=
  (List.dropWhile_suffix p).subset ((List.rdropWhile_prefix p _).subset h)

theorem forall₂_dropWhile (hp : ∀ a b, r a b → p a = p b) {xs ys : List α}
    (h : List.Forall₂ r xs ys) : List.Forall₂ r (xs.dropWhile p) (ys.dropWhile p) := by
  induction h with
  | nil => exact .nil
  | @cons a b xs ys hab h ih =>
    rw [List.dropWhile_cons, List.dropWhile_cons, ← hp a b hab]
    split_ifs
    · exact ih
    · exact .cons hab h

theorem forall₂_strip (hp : ∀ a b, r a b → p a = p b) {xs ys : List α}
    (h : List.Forall₂ r xs ys) : List.Forall₂ r (strip p xs) (strip p ys) := by
  have hrev := List.rel_reverse (forall₂_dropWhile hp h)
  exact List.rel_reverse (forall₂_dropWhile hp hrev)

end Folded
