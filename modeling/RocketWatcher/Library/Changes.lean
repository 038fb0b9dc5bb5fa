import Mathlib.Data.List.Destutter
import Mathlib.Data.List.Induction

/-!
# How often the elements of a list change

`changes l` counts the elements of a list that differ from the one before. A sublist changes no
more often (`changes_le_of_sublist`), and whatever is marked only where a value differs from the
one before is marked no more often than the values change (`countP_le_changes`).
-/

variable {α β : Type*} [DecidableEq β]

/-- How often an element differs from the one before. -/
def changes (l : List β) : ℕ :=
  (l.destutter (· ≠ ·)).length - 1

theorem getLast?_destutter' (b : β) (l : List β) :
    (l.destutter' (· ≠ ·) b).getLast? = (b :: l).getLast? := by
  induction l generalizing b with
  | nil => rfl
  | cons c l ih =>
    rw [List.destutter'_cons, List.getLast?_cons_cons]
    split
    · rw [List.getLast?_cons, ih]
      simp [List.getLast?_cons]
    · next h =>
      obtain rfl : b = c := not_not.mp h
      exact ih b

/-- The last element stays. -/
theorem getLast?_destutter (l : List β) : (l.destutter (· ≠ ·)).getLast? = l.getLast? := by
  cases l with
  | nil => rfl
  | cons b l => exact getLast?_destutter' b l

theorem changes_le_of_sublist {l l' : List β} (h : l.Sublist l') : changes l ≤ changes l' := by
  have hchain : (l.destutter (· ≠ ·)).IsChain (· ≠ ·) := List.isChain_destutter _ l
  have hlength := hchain.length_le_length_destutter_ne ((List.destutter_sublist _ l).trans h)
  unfold changes
  omega

/-- One more change. -/
theorem changes_lt_concat {l : List β} {b c : β} (hlast : l.getLast? = some b) (hne : b ≠ c) :
    changes l < changes (l ++ [c]) := by
  have hkept : b ∈ l.destutter (· ≠ ·) :=
    List.mem_of_getLast? ((getLast?_destutter l).trans hlast)
  have hchain : (l.destutter (· ≠ ·) ++ [c]).IsChain (· ≠ ·) := by
    refine List.isChain_append.mpr ⟨List.isChain_destutter _ l, List.isChain_singleton c, ?_⟩
    rw [getLast?_destutter, hlast]
    simpa using hne
  have hlength := hchain.length_le_length_destutter_ne
    ((List.destutter_sublist _ l).append_right [c])
  have hpos := List.length_pos_of_mem hkept
  rw [List.length_append, List.length_singleton] at hlength
  unfold changes
  omega

/-- The marked elements are no more than the changes, if only changes are marked. -/
theorem countP_le_changes {f : α → β} {p : α → Bool} {l : List α}
    (h : ∀ before a after, l = before ++ a :: after → p a →
      ∃ last, before.getLast? = some last ∧ f last ≠ f a) : l.countP p ≤ changes (l.map f) := by
  induction l using List.reverseRecOn with
  | nil => exact Nat.zero_le _
  | append_singleton l a ih =>
    have hrest := ih fun before a' after heq => h before a' (after ++ [a]) (by simp [heq])
    rw [List.countP_append, List.countP_singleton, List.map_append, List.map_singleton]
    split
    · next hp =>
      obtain ⟨last, hlast, hne⟩ := h l a [] rfl hp
      have hmore : changes (l.map f) < changes (l.map f ++ [f a]) :=
        changes_lt_concat (by rw [List.getLast?_map, hlast, Option.map_some]) hne
      omega
    · exact hrest.trans (changes_le_of_sublist (List.sublist_append_left _ _))
