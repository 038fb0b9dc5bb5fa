import Mathlib.Data.List.Basic

/-!
# Checks in a row

A reader that makes its checks one after the other and raises an exception at the first that
fails : `orFirst raise problems a` is `a` if there is no problem, and the first of them raised
otherwise. Such readers compose by appending their problems, over sequences (`orFirst_bind`),
over the elements of a list (`mapM_orFirst`), and over the elements of a list each checked
against those before it (`foldlM_orFirst`).
-/

namespace Checked

variable {π ε α β : Type} {raise : π → ε} {problems problems' : List π}

def orFirst (raise : π → ε) (problems : List π) (a : α) : Except ε α :=
  match problems with
  | [] => .ok a
  | problem :: _ => .error (raise problem)

theorem orFirst_eq_ok {a b : α} : orFirst raise problems a = .ok b ↔ problems = [] ∧ a = b := by
  cases problems with
  | nil => simp [orFirst]
  | cons problem problems => simp [orFirst]

theorem orFirst_bind {a : α} {b : β} {f : α → Except ε β}
    (h : problems = [] → f a = orFirst raise problems' b) :
    (orFirst raise problems a >>= f) = orFirst raise (problems ++ problems') b := by
  cases problems with
  | nil => exact h rfl
  | cons problem problems => rfl

theorem orFirst_map {a : α} (f : α → β) :
    (do return f (← orFirst raise problems a)) = orFirst raise problems (f a) := by
  cases problems <;> rfl

theorem mapM_orFirst {l : List α} {read : α → Except ε β} {value : α → β}
    {wrong : α → List π} (h : ∀ a ∈ l, read a = orFirst raise (wrong a) (value a)) :
    l.mapM read = orFirst raise (l.flatMap wrong) (l.map value) := by
  induction l with
  | nil => rfl
  | cons a l ih =>
    rw [List.mapM_cons, h a List.mem_cons_self, ih fun b hb => h b (List.mem_cons_of_mem _ hb)]
    exact orFirst_bind fun _ => orFirst_map (value a :: ·)

/-- What is wrong with the elements, each after those before it. -/
def wrongAfter (wrong : List α → α → List π) (before : List α) : List α → List π
  | [] => []
  | a :: l => wrong before a ++ wrongAfter wrong (before ++ [a]) l

theorem foldlM_orFirst {l : List α} {read : List β → α → Except ε (List β)} {value : α → β}
    {wrong : List α → α → List π}
    (h : ∀ before a, read (before.map value) a =
      orFirst raise (wrong before a) (before.map value ++ [value a])) (before : List α) :
    l.foldlM read (before.map value) =
      orFirst raise (wrongAfter wrong before l) ((before ++ l).map value) := by
  induction l generalizing before with
  | nil => simp [wrongAfter, orFirst, pure, Except.pure]
  | cons a l ih =>
    rw [List.foldlM_cons, h]
    refine orFirst_bind fun _ => ?_
    have hnext : before.map value ++ [value a] = (before ++ [a]).map value := by simp
    rw [hnext, ih, List.append_assoc]
    rfl

end Checked
