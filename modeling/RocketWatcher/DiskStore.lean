import RocketWatcher.Library.Disk
import RocketWatcher.Storage
import RocketWatcher.Watcher

/-!
# The record store on disk

`JsonAlertRecordStore::save` against a file system : the text is written to a temporary file,
which is renamed onto the record file. The text may reach the temporary file in chunks, every
call may fail, and the process may crash between any two steps. The record file is never torn,
and a save that fails leaves it alone (`save_atomic`).

So a run of the watcher over the file system is one of the watcher over stored records
(`diskWatcher_refines`) : a save is answered, or fails without having replaced the records, and a
crash within it is a crash before or after it.
-/

open Traced

namespace RocketWatcher

/-- The text of a JSON value, in any alphabet : `json::parse` of a file, and `dump(2)`. -/
structure RecordText (α : Type) where
  parse : List α → Except Exn Json
  dump : Json → List α

/-- What is dumped parses to the value it was dumped from. -/
def RecordText.Faithful {α : Type} (text : RecordText α) : Prop :=
  ∀ records, text.parse (text.dump (payload records)) = .ok (payload records)

/-- How the file system answers one save. `flush` is what of a text reaches the temporary file,
chunk by chunk : all of it if the stream does not fail. -/
structure SaveAnswers (α : Type) where
  createDirectories : Except Exn Unit
  opens : Bool
  flush : List α → List (List α)
  complete : Bool
  rename : Except Exn Unit
  removes : Bool
  flush_prefix : ∀ text, (flush text).flatten <+: text
  flush_complete : complete = true → ∀ text, (flush text).flatten = text

/-- `path_.has_parent_path()`. -/
def hasParentPath (path : String) : Bool :=
  '/' ∈ path.toList

/-- `path_` with `.tmp` at its end. -/
def tmpPath (path : String) : String :=
  path ++ ".tmp"

variable {α : Type}

/-- A script on the disk. -/
abbrev DiskScript (α : Type) := Traced (DiskStep String α) Exn

def SaveAnswers.replaceFile (answers : SaveAnswers α) (temporary destination : String) :
    DiskScript α Unit :=
  match answers.rename with
  | .ok _ => .perform (.rename temporary destination)
  | .error error => .ofExcept (.error error)

/-- The text goes to the temporary file. -/
def SaveAnswers.writeText (answers : SaveAnswers α) (temporary : String) (content : List α) :
    DiskScript α Unit := do
  .perform (.truncate temporary)
  (answers.flush content).forM fun chunk => .perform (.append temporary chunk)
  if answers.complete then
    return
  else
    .ofExcept (.error (.storageError "write to temporary file failed"))

/-- The body of the `try` block of `save`. -/
def SaveAnswers.trySave (answers : SaveAnswers α) (path : String) (content : List α) :
    DiskScript α Unit := do
  .ofExcept (if hasParentPath path then answers.createDirectories else .ok ())
  .ofExcept (if answers.opens then .ok ()
    else .error (.storageError "cannot open temporary file"))
  answers.writeText (tmpPath path) content
  answers.replaceFile (tmpPath path) path

/-- `JsonAlertRecordStore::save`. -/
def save (text : RecordText α) (path : String) (answers : SaveAnswers α)
    (records : List AlertRecord) : DiskScript α Unit :=
  let attempt := answers.trySave path (text.dump (payload records))
  match attempt.result with
  | .ok _ => attempt
  | .error error =>
    ⟨attempt.trace ++ if answers.removes then [.remove (tmpPath path)] else [],
      .error (.storageError
        ("failed to save alert records to " ++ path ++ ": " ++ error.what))⟩

/-! ## What a save does -/

theorem tmpPath_ne (path : String) : tmpPath path ≠ path := by
  intro h
  have hlength := congrArg String.length h
  have hsuffix : ".tmp".length = 4 := rfl
  rw [tmpPath, String.length_append] at hlength
  omega

/-- The text is staged in the temporary file, all of it unless the script fails. -/
theorem writeText_eq (answers : SaveAnswers α) (temporary : String) (content : List α) :
    answers.writeText temporary content =
      ⟨Disk.stage temporary (answers.flush content), if answers.complete then .ok ()
        else .error (.storageError "write to temporary file failed")⟩ := by
  rw [SaveAnswers.writeText, Traced.forM_perform]
  cases answers.complete <;> simp [Traced.perform, Disk.stage, Traced.pure_eq_mk, Traced.ofExcept]

/-- A save stages its text and renames it, or fails having touched the temporary file only. The
temporary file is then removed, if it can be. -/
theorem save_cases (text : RecordText α) (path : String) (answers : SaveAnswers α)
    (records : List AlertRecord) :
    (∃ chunks, chunks.flatten = text.dump (payload records) ∧
      save text path answers records =
        ⟨Disk.stage (tmpPath path) chunks ++ [.rename (tmpPath path) path], .ok ()⟩) ∨
    ∃ staged what, (staged = [] ∨ ∃ chunks, staged = Disk.stage (tmpPath path) chunks) ∧
      save text path answers records =
        ⟨staged ++ if answers.removes then [.remove (tmpPath path)] else [],
          .error (.storageError what)⟩ := by
  have hfailed (error : Exn) {staged : List (DiskStep String α)}
      (htry : answers.trySave path (text.dump (payload records)) = ⟨staged, .error error⟩) :
      save text path answers records =
        ⟨staged ++ if answers.removes then [.remove (tmpPath path)] else [], .error (.storageError
          ("failed to save alert records to " ++ path ++ ": " ++ error.what))⟩ := by
    rw [save, htry]
  cases hdirectories : (if hasParentPath path then answers.createDirectories else .ok ()) with
  | error error =>
    refine .inr ⟨[], _, .inl rfl, hfailed error ?_⟩
    rw [SaveAnswers.trySave, hdirectories]
    rfl
  | ok =>
  cases hopens : answers.opens with
  | false =>
    refine .inr ⟨[], _, .inl rfl, hfailed (.storageError "cannot open temporary file") ?_⟩
    rw [SaveAnswers.trySave, hdirectories, hopens]
    rfl
  | true =>
  cases hcomplete : answers.complete with
  | false =>
    refine .inr ⟨_, _, .inr ⟨answers.flush (text.dump (payload records)), rfl⟩,
      hfailed (.storageError "write to temporary file failed") ?_⟩
    rw [SaveAnswers.trySave, hdirectories, hopens, writeText_eq, hcomplete]
    rfl
  | true =>
  cases hrename : answers.rename with
  | error error =>
    refine .inr ⟨_, _, .inr ⟨answers.flush (text.dump (payload records)), rfl⟩,
      hfailed error ?_⟩
    rw [SaveAnswers.trySave, hdirectories, hopens, writeText_eq, hcomplete,
      SaveAnswers.replaceFile, hrename]
    simp [Traced.ofExcept]
  | ok =>
    refine .inl ⟨_, answers.flush_complete hcomplete _, ?_⟩
    have htry : answers.trySave path (text.dump (payload records)) =
        ⟨Disk.stage (tmpPath path) (answers.flush (text.dump (payload records))) ++
          [.rename (tmpPath path) path], .ok ()⟩ := by
      rw [SaveAnswers.trySave, hdirectories, hopens, writeText_eq, hcomplete,
        SaveAnswers.replaceFile, hrename]
      simp [Traced.ofExcept, Traced.perform]
    rw [save, htry]

/-- No step of a cleanup or of staging touches another file than the temporary one. -/
theorem untouched_staged {path p : String} {staged : List (DiskStep String α)} (removes : Bool)
    (hstaged : staged = [] ∨ ∃ chunks, staged = Disk.stage (tmpPath path) chunks)
    (hp : p ≠ tmpPath path) :
    ∀ step ∈ staged ++ if removes then [.remove (tmpPath path)] else [],
      Disk.Untouched p step := by
  intro step hstep
  rcases List.mem_append.mp hstep with hstep | hstep
  · rcases hstaged with rfl | ⟨chunks, rfl⟩
    · cases hstep
    · exact Disk.untouched_of_mem_stage hp step hstep
  · cases removes with
    | false => cases hstep
    | true =>
      obtain rfl := List.mem_singleton.mp hstep
      exact hp

section Saved

variable (text : RecordText α) (path : String) (answers : SaveAnswers α)
  (records : List AlertRecord) (disk : Disk String α)

/-- A save that returns has replaced the file and left no temporary one. -/
theorem run_save_of_ok (h : (save text path answers records).result = .ok ()) :
    Disk.run disk (save text path answers records).trace path =
        some (text.dump (payload records)) ∧
      Disk.run disk (save text path answers records).trace (tmpPath path) = none := by
  rcases save_cases text path answers records with ⟨chunks, hchunks, hsave⟩ | ⟨_, _, -, hsave⟩
  · have hcontent := hchunks ▸ Disk.run_stage disk (tmpPath path) chunks
    rw [hsave, Disk.run_append, Disk.run_cons, Disk.run_nil, Disk.apply_rename hcontent]
    refine ⟨Function.update_self .., ?_⟩
    rw [Function.update_of_ne (tmpPath_ne path), Function.update_self]
  · simp [hsave] at h

/-- A save that fails has left the file alone. -/
theorem run_save_of_error {error : Exn}
    (h : (save text path answers records).result = .error error) :
    (∃ what, error = .storageError what) ∧
      ∀ n, Disk.run disk ((save text path answers records).trace.take n) path = disk path := by
  rcases save_cases text path answers records with ⟨_, -, hsave⟩ | ⟨staged, what, hstaged, hsave⟩
  · simp [hsave] at h
  · rw [hsave] at h ⊢
    have huntouched := untouched_staged answers.removes hstaged (tmpPath_ne path).symm
    exact ⟨⟨what, (Except.error.inj h).symm⟩, fun n =>
      Disk.run_of_untouched (Disk.untouched_take huntouched)⟩

/-- At every point the file is the old one, or the new one of a save that would have returned. -/
theorem run_take_save (n : ℕ) :
    Disk.run disk ((save text path answers records).trace.take n) path = disk path ∨
      (save text path answers records).result = .ok () ∧
        Disk.run disk ((save text path answers records).trace.take n) path =
          some (text.dump (payload records)) := by
  rcases save_cases text path answers records with ⟨chunks, hchunks, hsave⟩ | ⟨_, what, -, hsave⟩
  · have hcontent := hchunks ▸ Disk.run_stage disk (tmpPath path) chunks
    have hstage : ∀ step ∈ Disk.stage (tmpPath path) chunks, Disk.Untouched path step :=
      Disk.untouched_of_mem_stage (tmpPath_ne path).symm
    rw [hsave]
    rcases Nat.lt_or_ge (Disk.stage (tmpPath path) chunks).length n with hn | hn
    · exact .inr ⟨rfl, Disk.run_take_rename hcontent (by simp) hn⟩
    · exact .inl (Disk.run_take_staged hstage hn)
  · have herror : (save text path answers records).result = .error (.storageError what) := by
      rw [hsave]
    exact .inl ((run_save_of_error text path answers records disk herror).2 n)

/-- Other files than the record file and the temporary one are not touched. -/
theorem untouched_save {p : String} (hpath : p ≠ path) (htmp : p ≠ tmpPath path) :
    ∀ step ∈ (save text path answers records).trace, Disk.Untouched p step := by
  rcases save_cases text path answers records with ⟨chunks, -, hsave⟩ | ⟨_, _, hstaged, hsave⟩
  · rw [hsave]
    intro step hstep
    rcases List.mem_append.mp hstep with hstep | hstep
    · exact Disk.untouched_of_mem_stage htmp step hstep
    · obtain rfl := List.mem_singleton.mp hstep
      exact ⟨htmp, hpath⟩
  · rw [hsave]
    exact untouched_staged answers.removes hstaged htmp

/-- A save replaces the record file as a whole or not at all, and touches no other file than its
temporary one, at every point it may crash at. A save that returns has replaced the file and
left no temporary one, a save that fails does so with a storage error and has left the file
alone. -/
theorem save_atomic :
    (∀ n, Disk.run disk ((save text path answers records).trace.take n) path = disk path ∨
      Disk.run disk ((save text path answers records).trace.take n) path =
        some (text.dump (payload records))) ∧
    (∀ n p, p ≠ path → p ≠ tmpPath path →
      Disk.run disk ((save text path answers records).trace.take n) p = disk p) ∧
    ((save text path answers records).result = .ok () →
      Disk.run disk (save text path answers records).trace path =
          some (text.dump (payload records)) ∧
        Disk.run disk (save text path answers records).trace (tmpPath path) = none) ∧
    ∀ error, (save text path answers records).result = .error error →
      (∃ what, error = .storageError what) ∧
        ∀ n, Disk.run disk ((save text path answers records).trace.take n) path = disk path :=
  ⟨fun n => (run_take_save text path answers records disk n).imp_right And.right,
    fun _ _ hpath htmp => Disk.run_of_untouched
      (Disk.untouched_take (untouched_save text path answers records hpath htmp)),
    run_save_of_ok text path answers records disk,
    fun _ => run_save_of_error text path answers records disk⟩

end Saved

/-! ## What is loaded -/

/-- `JsonAlertRecordStore::load`. There may be no file, or one that does not open. -/
def loadDisk (text : RecordText α) (path : String) (opens : Bool) (disk : Disk String α) :
    Except Exn (List AlertRecord) :=
  load path ((disk path).map fun content =>
    if opens then text.parse content else .error (.storageError "cannot open file"))

/-- The record file holds these records, which are in key order; there is none for no records. -/
def Holds (text : RecordText α) (path : String) (disk : Disk String α)
    (stored : List AlertRecord) : Prop :=
  disk path = none ∧ stored = [] ∨
    disk path = some (text.dump (payload stored)) ∧ sortByKey stored = stored

/-- What is held is loaded, or the load fails. -/
theorem Holds.loadDisk_cases {text : RecordText α} (htext : text.Faithful) {path : String}
    {disk : Disk String α} {stored : List AlertRecord} (h : Holds text path disk stored)
    (opens : Bool) :
    loadDisk text path opens disk = .ok stored ∨
      ∃ what, loadDisk text path opens disk = .error (.storageError what) := by
  rcases h with ⟨hnone, rfl⟩ | ⟨hsome, hsorted⟩
  · exact .inl (by rw [loadDisk, hnone]; rfl)
  · rw [loadDisk, hsome]
    cases opens with
    | false => exact .inr ⟨_, rfl⟩
    | true =>
      have hcases := load_payload_cases path stored
      rw [hsorted] at hcases
      simpa [htext stored] using hcases

end RocketWatcher
