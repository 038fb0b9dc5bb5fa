import Mathlib.Data.List.Infix
import Mathlib.Logic.Function.Basic

/-!
# Files, and replacing one through another

A disk maps paths to the contents of files. A script of steps empties, appends to, renames and
removes files; a crash leaves its first steps done. The steps of a script leave a path alone that
none of them touches (`run_of_untouched`).

To replace a file a script stages the new contents in a second one and renames that onto it. At
every crash point the file has its old contents or all of the new ones, and the rename is where
it changes (`run_take_staged`, `run_take_rename`).
-/

set_option linter.unusedSectionVars false

/-- A step on the files of a disk. -/
inductive DiskStep (π α : Type*) where
  | truncate (path : π)
  | append (path : π) (chunk : List α)
  | rename (source destination : π)
  | remove (path : π)
  deriving DecidableEq, Repr

/-- The contents of the files there are. -/
abbrev Disk (π α : Type*) := π → Option (List α)

namespace Disk

variable {π α : Type*} [DecidableEq π]

/-- The disk after a step. A file that is not there cannot be renamed. -/
def apply (disk : Disk π α) : DiskStep π α → Disk π α
  | .truncate path => Function.update disk path (some [])
  | .append path chunk => Function.update disk path (some ((disk path).getD [] ++ chunk))
  | .rename source destination =>
    match disk source with
    | none => disk
    | some content =>
      Function.update (Function.update disk source none) destination (some content)
  | .remove path => Function.update disk path none

/-- The disk after a script. -/
def run (disk : Disk π α) (steps : List (DiskStep π α)) : Disk π α :=
  steps.foldl apply disk

/-- Another path than those of the step. -/
def Untouched (path : π) : DiskStep π α → Prop
  | .truncate p | .append p _ | .remove p => path ≠ p
  | .rename source destination => path ≠ source ∧ path ≠ destination

variable {disk : Disk π α} {path temporary destination : π}
  {steps staged after : List (DiskStep π α)}

@[simp] theorem run_nil (disk : Disk π α) : run disk [] = disk :=
  rfl

@[simp] theorem run_cons (disk : Disk π α) (step : DiskStep π α) (steps : List (DiskStep π α)) :
    run disk (step :: steps) = run (disk.apply step) steps :=
  rfl

theorem run_append (disk : Disk π α) (steps steps' : List (DiskStep π α)) :
    run disk (steps ++ steps') = run (run disk steps) steps' :=
  List.foldl_append

theorem apply_rename {source : π} {content : List α} (h : disk source = some content) :
    disk.apply (.rename source destination) =
      Function.update (Function.update disk source none) destination (some content) := by
  rw [apply, h]

theorem apply_of_untouched {step : DiskStep π α} (h : Untouched path step) :
    disk.apply step path = disk path := by
  cases step with
  | truncate p => exact Function.update_of_ne h _ _
  | append p chunk => exact Function.update_of_ne h _ _
  | remove p => exact Function.update_of_ne h _ _
  | rename source destination =>
    cases hsource : disk source with
    | none => simp [apply, hsource]
    | some content =>
      rw [apply_rename hsource, Function.update_of_ne h.2, Function.update_of_ne h.1]

/-- A path no step touches keeps what it has. -/
theorem run_of_untouched (h : ∀ step ∈ steps, Untouched path step) :
    run disk steps path = disk path := by
  induction steps generalizing disk with
  | nil => rfl
  | cons step steps ih =>
    rw [run_cons, ih fun s hs => h s (List.mem_cons_of_mem _ hs),
      apply_of_untouched (h step List.mem_cons_self)]

/-! ## Staging -/

/-- The contents, chunk by chunk, into an emptied file. -/
def stage (temporary : π) (chunks : List (List α)) : List (DiskStep π α) :=
  .truncate temporary :: chunks.map (.append temporary)

theorem untouched_of_mem_stage {chunks : List (List α)} (hne : path ≠ temporary) :
    ∀ step ∈ stage temporary chunks, Untouched path step := by
  simp only [stage, List.forall_mem_cons, List.forall_mem_map]
  exact ⟨hne, fun _ _ => hne⟩

theorem run_appends (disk : Disk π α) (temporary : π) {content : List α}
    (h : disk temporary = some content) (chunks : List (List α)) :
    run disk (chunks.map (.append temporary)) temporary = some (content ++ chunks.flatten) := by
  induction chunks generalizing disk content with
  | nil => simpa using h
  | cons chunk chunks ih =>
    have hchunk : disk.apply (.append temporary chunk) temporary = some (content ++ chunk) := by
      simp [apply, h]
    rw [List.map_cons, run_cons, ih _ hchunk]
    simp

/-- What is staged is all of the chunks, whatever was in the file before. -/
theorem run_stage (disk : Disk π α) (temporary : π) (chunks : List (List α)) :
    run disk (stage temporary chunks) temporary = some chunks.flatten := by
  have hempty : disk.apply (.truncate temporary) temporary = some [] := Function.update_self ..
  rw [stage, run_cons, run_appends _ _ hempty]
  rfl

/-! ## Replacing -/

theorem untouched_take {n : ℕ} (h : ∀ step ∈ steps, Untouched path step) :
    ∀ step ∈ steps.take n, Untouched path step :=
  fun step hstep => h step (List.mem_of_mem_take hstep)

/-- A crash before the rename, or with no rename at all. -/
theorem run_take_staged (h : ∀ step ∈ staged, Untouched destination step) {n : ℕ}
    (hn : n ≤ staged.length) :
    run disk ((staged ++ after).take n) destination = disk destination := by
  rw [List.take_append_of_le_length hn]
  exact run_of_untouched (untouched_take h)

/-- A crash after the rename. -/
theorem run_take_rename {content : List α} (hcontent : run disk staged temporary = some content)
    (hafter : ∀ step ∈ after, Untouched destination step) {n : ℕ} (hn : staged.length < n) :
    run disk ((staged ++ .rename temporary destination :: after).take n) destination =
      some content := by
  obtain ⟨m, rfl⟩ := Nat.exists_eq_add_of_lt hn
  have htake : (staged ++ .rename temporary destination :: after).take (staged.length + m + 1) =
      staged ++ .rename temporary destination :: after.take m := by
    rw [Nat.add_assoc, List.take_length_add_append]
    rfl
  rw [htake, run_append, run_cons, run_of_untouched (untouched_take hafter),
    apply_rename hcontent]
  exact Function.update_self ..

end Disk
