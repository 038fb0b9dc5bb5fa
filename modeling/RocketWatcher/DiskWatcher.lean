import RocketWatcher.DiskStore

/-!
# The watcher over a file system

Cycles in a row against the record file, loaded and saved step by step on a disk that may fail,
in a process that may crash between any two steps. Each of them does what a cycle of the watcher
over stored records does (`diskWatcher_refines`) : its load returns the stored records or is a
storage error, its save is answered or is a storage error that left the records alone, and a
crash inside a save is one before or after it.
-/

namespace RocketWatcher

/-- What a cycle does, down to the steps on the disk. -/
inductive DiskEffect (α : Type) where
  | log (line : String)
  | disk (step : DiskStep String α)
  | send (message : Message) (recipientName : String)

/-- One cycle : what is around the watcher. A crash leaves the first effects done. -/
structure DiskCall (α : Type) where
  config : Config
  now : Int
  dryRun : Bool
  fetch : Except Exn FetchResult
  opens : Bool
  save : SaveAnswers α
  send : Nat → Message → String → Except Exn DeliveryResult
  locateZone : String → Except Exn TimeZone
  crashAfter : Option Nat

variable {α : Type}

/-- How a save ends. It does not depend on what is saved. -/
def SaveAnswers.answer (answers : SaveAnswers α) (text : RecordText α) (path : String) :
    SaveAnswer :=
  match (RocketWatcher.save text path answers []).result with
  | .ok _ => .saved
  | .error error => .failed error false

/-- What a cycle meets that finds this disk. -/
def DiskCall.env (text : RecordText α) (path : String) (call : DiskCall α)
    (disk : Disk String α) : CycleEnv where
  now := call.now
  dryRun := call.dryRun
  fetch := call.fetch
  loadError := match loadDisk text path call.opens disk with
    | .error error => some error
    | .ok _ => none
  saveAnswer := call.save.answer text path
  send := call.send
  locateZone := call.locateZone

/-- An effect, step by step. -/
def DiskCall.expand (text : RecordText α) (path : String) (call : DiskCall α) :
    Effect → List (DiskEffect α)
  | .log line => [.log line]
  | .save records _ => (RocketWatcher.save text path call.save records).trace.map .disk
  | .send message recipientName => [.send message recipientName]

/-- What is done of a cycle. -/
def DiskCall.effects (text : RecordText α) (path : String) (call : DiskCall α)
    (disk : Disk String α) : List (DiskEffect α) :=
  let loaded := (loadDisk text path call.opens disk).toOption.getD []
  let effects := (runCycle (call.env text path disk) call.config loaded).trace.flatMap
    (call.expand text path)
  match call.crashAfter with
  | none => effects
  | some n => effects.take n

/-- The disk after an effect. -/
def DiskEffect.apply (disk : Disk String α) : DiskEffect α → Disk String α
  | .disk step => disk.apply step
  | .log _ | .send .. => disk

/-- The watcher over the disk. -/
def diskWatcher (text : RecordText α) (path : String) :
    Mealy (Disk String α) (DiskCall α) (List (DiskEffect α)) Empty where
  step disk call :=
    let effects := call.effects text path disk
    .ok (effects, effects.foldl DiskEffect.apply disk)

@[inherit_doc Effect.delivery]
def DiskEffect.delivery : DiskEffect α → Option (Message × String)
  | .send message recipientName => some (message, recipientName)
  | .log _ | .disk _ => none

/-! ## One cycle -/

section Cycle

variable {text : RecordText α} {path : String} {call : DiskCall α} {disk : Disk String α}
  {stored : List AlertRecord}

theorem save_result (text : RecordText α) (path : String) (answers : SaveAnswers α)
    (records records' : List AlertRecord) :
    (save text path answers records).result = (save text path answers records').result := by
  have htry (content content' : List α) :
      (answers.trySave path content).result = (answers.trySave path content').result := by
    simp only [SaveAnswers.trySave, writeText_eq]
    cases (if hasParentPath path then answers.createDirectories else .ok ()) with
    | error error => rfl
    | ok =>
      cases answers.opens <;> cases answers.complete <;> rfl
  have hresult := htry (text.dump (payload records)) (text.dump (payload records'))
  rw [save, save, ← hresult]
  split
  · rw [← hresult]
  · rfl

/-- The records of a save are those of a decision, and it ends as the store answers. -/
theorem save_of_mem_runCycle {env : CycleEnv} {config : Config} {records : List AlertRecord}
    {replaced : Bool} (h : Effect.save records replaced ∈ (runCycle env config stored).trace) :
    replaced = env.saveAnswer.replaced ∧ ∃ launches d,
      decideCycle (cycleInput env config launches) stored = .ok d ∧ records = d.updatedRecords := by
  have hseen : Effect.save records replaced ∈
      (quietCycle recordsChanged env config stored).trace.filter Effect.visible := by
    rw [← (runCycleWith_quiet recordsChanged env config stored).trace]
    exact List.mem_filter.mpr ⟨h, rfl⟩
  have hsends {messages : List (Alert × Message)} : Effect.save records replaced ∉
      allSends config messages := by
    intro hmem
    obtain ⟨_, -, _, -, heq⟩ := mem_allSends hmem
    cases heq
  unfold quietCycle at hseen
  split at hseen
  · cases hseen
  · cases hseen
  · cases hseen
  · next fetch _ _ =>
    cases hplan : planCycle env config fetch.launches stored with
    | error error =>
      rw [hplan] at hseen
      cases hseen
    | ok plan =>
      obtain ⟨d, messages⟩ := plan
      simp only [hplan, Traced.ofExcept_ok_bind] at hseen
      split at hseen
      · cases hseen
      split at hseen
      · obtain ⟨rest, htrace, hrest⟩ := saveAndNotify_trace env config d messages
          { alertsCreated := d.alerts.length }
        rw [htrace, List.mem_cons] at hseen
        rcases hseen with hsave | hseen
        · obtain ⟨rfl, rfl⟩ := Effect.save.inj hsave
          exact ⟨rfl, fetch.launches, d, (planCycle_eq_ok hplan).1, rfl⟩
        · exact absurd ((hrest.trans (sendsAfterSave_isPrefix messages)).subset hseen) hsends
      · exact absurd ((emits_notify messages _).isPrefix.subset hseen) hsends

/-- Decided records are in key order. -/
theorem sortByKey_updatedRecords {input : CycleInput} {records : List AlertRecord}
    {d : CycleDecision} (h : decideCycle input records = .ok d) :
    sortByKey d.updatedRecords = d.updatedRecords := by
  refine List.Pairwise.insertionSort_eq ((keySorted_updatedRecords h).imp fun hlt => ?_)
  exact (compare_lt_iff_lt.mp hlt).le

/-- A whole save leaves what the store says it leaves. -/
theorem Holds.run_save {records : List AlertRecord} (h : Holds text path disk stored)
    (answers : SaveAnswers α) (hsorted : sortByKey records = records) :
    Holds text path (Disk.run disk (save text path answers records).trace)
      (Effect.store stored (.save records (answers.answer text path).replaced)) := by
  rw [SaveAnswers.answer, save_result text path answers [] records]
  cases hresult : (save text path answers records).result with
  | ok =>
    exact .inr ⟨(run_save_of_ok text path answers records disk hresult).1, hsorted⟩
  | error error =>
    have hkept := (run_save_of_error text path answers records disk hresult).2
      (save text path answers records).trace.length
    rw [List.take_length] at hkept
    rw [Holds, hkept]
    exact h

/-- Whole effects change the disk as they change the stored records. -/
theorem Holds.foldl_expand {effects : List Effect} (h : Holds text path disk stored)
    (hsaves : ∀ records replaced, Effect.save records replaced ∈ effects →
      replaced = (call.save.answer text path).replaced ∧ sortByKey records = records) :
    Holds text path ((effects.flatMap (call.expand text path)).foldl DiskEffect.apply disk)
      (effects.foldl Effect.store stored) := by
  induction effects generalizing disk stored with
  | nil => exact h
  | cons e effects ih =>
    rw [List.flatMap_cons, List.foldl_append, List.foldl_cons]
    refine ih ?_ fun records replaced hmem => hsaves records replaced (List.mem_cons_of_mem _ hmem)
    cases e with
    | log line => exact h
    | send message name => exact h
    | save records replaced =>
      obtain ⟨rfl, hsorted⟩ := hsaves records replaced List.mem_cons_self
      have hrun : ((call.expand text path (.save records
          (call.save.answer text path).replaced)).foldl DiskEffect.apply disk) =
          Disk.run disk (save text path call.save records).trace := List.foldl_map
      rw [hrun]
      exact h.run_save call.save hsorted

/-- The sends of an effect are those of its steps. -/
theorem filterMap_delivery_expand (effects : List Effect) :
    (effects.flatMap (call.expand text path)).filterMap DiskEffect.delivery =
      effects.filterMap Effect.delivery := by
  induction effects with
  | nil => rfl
  | cons e effects ih =>
    rw [List.flatMap_cons, List.filterMap_append, ih]
    cases e with
    | log line => rfl
    | send message name => rfl
    | save records replaced =>
      have hnone : ((call.expand text path (.save records replaced)).filterMap
          DiskEffect.delivery) = [] := by
        rw [DiskCall.expand, List.filterMap_map, List.filterMap_eq_nil_iff]
        exact fun _ _ => rfl
      rw [hnone]
      rfl

/-- A cycle whose load fails does not look at the stored records. -/
theorem runCycle_of_loadError {env : CycleEnv} {error : Exn} (h : env.loadError = some error)
    (config : Config) (stored stored' : List AlertRecord) :
    runCycle env config stored = runCycle env config stored' := by
  simp only [runCycle, runCycleWith, h]
  cases env.fetch with
  | error => rfl
  | ok => cases error <;> rfl

/-- The cycle on a disk that holds the stored records is the cycle on the stored records. -/
theorem runCycle_loaded (htext : text.Faithful) (h : Holds text path disk stored) :
    runCycle (call.env text path disk) call.config
        ((loadDisk text path call.opens disk).toOption.getD []) =
      runCycle (call.env text path disk) call.config stored := by
  rcases h.loadDisk_cases htext call.opens with hload | ⟨what, hload⟩
  · rw [hload]
    rfl
  · have herror : (call.env text path disk).loadError = some (.storageError what) := by
      simp only [DiskCall.env, hload]
    exact runCycle_of_loadError herror call.config _ stored

/-- A crash within the steps of the effects falls before or after one of them. -/
theorem Holds.take_expand {effects : List Effect} (h : Holds text path disk stored)
    (hsaves : ∀ records replaced, Effect.save records replaced ∈ effects →
      replaced = (call.save.answer text path).replaced ∧ sortByKey records = records) (n : ℕ) :
    ∃ m, ((effects.flatMap (call.expand text path)).take n).filterMap DiskEffect.delivery =
        (effects.take m).filterMap Effect.delivery ∧
      Holds text path
        (((effects.flatMap (call.expand text path)).take n).foldl DiskEffect.apply disk)
        ((effects.take m).foldl Effect.store stored) := by
  obtain ⟨m, part, hpart, hcase⟩ :=
    Traced.exists_take_flatMap (g := call.expand text path) effects n
  have hdone : Holds text path
      (((effects.take m).flatMap (call.expand text path)).foldl DiskEffect.apply disk)
      ((effects.take m).foldl Effect.store stored) :=
    h.foldl_expand fun records replaced hmem => hsaves records replaced (List.mem_of_mem_take hmem)
  rw [hpart, List.filterMap_append, List.foldl_append, filterMap_delivery_expand]
  rcases hcase with rfl | ⟨e, k, he, rfl⟩
  · exact ⟨m, by simp, hdone⟩
  have hsucc : effects.take (m + 1) = effects.take m ++ [e] := by
    rw [List.take_add_one, he]
    rfl
  cases e with
  | log line =>
    refine ⟨m, ?_, ?_⟩
    · cases k <;> simp [DiskCall.expand, DiskEffect.delivery]
    · cases k with
      | zero => exact hdone
      | succ k => simpa [DiskCall.expand, DiskEffect.apply] using hdone
  | send message name =>
    cases k with
    | zero => exact ⟨m, by simp, hdone⟩
    | succ k =>
      refine ⟨m + 1, ?_, ?_⟩
      · simp [hsucc, DiskCall.expand, DiskEffect.delivery, Effect.delivery]
      · rw [hsucc, List.foldl_append]
        simpa [DiskCall.expand, DiskEffect.apply, Effect.store] using hdone
  | save records replaced =>
    obtain ⟨rfl, hsorted⟩ := hsaves records replaced (List.mem_of_getElem? he)
    have hsteps (disk : Disk String α) : ((call.expand text path (.save records
        (call.save.answer text path).replaced)).take k).foldl DiskEffect.apply disk =
          Disk.run disk ((save text path call.save records).trace.take k) := by
      rw [DiskCall.expand, ← List.map_take]
      exact List.foldl_map
    have hnone : ((call.expand text path (.save records
        (call.save.answer text path).replaced)).take k).filterMap DiskEffect.delivery = [] := by
      rw [DiskCall.expand, ← List.map_take, List.filterMap_map, List.filterMap_eq_nil_iff]
      exact fun _ _ => rfl
    rw [hsteps, hnone, List.append_nil]
    rcases run_take_save text path call.save records
      (((effects.take m).flatMap (call.expand text path)).foldl DiskEffect.apply disk) k with
      hold | ⟨hok, hnew⟩
    · -- the rename is still to come
      refine ⟨m, rfl, ?_⟩
      rw [Holds, hold]
      exact hdone
    · refine ⟨m + 1, by simp [hsucc, Effect.delivery], ?_⟩
      have hanswer : (call.save.answer text path).replaced = true := by
        rw [SaveAnswers.answer, save_result text path call.save [] records, hok]
        rfl
      rw [hsucc, List.foldl_append, hanswer]
      exact .inr ⟨hnew, hsorted⟩

/-- A cycle on the disk is a cycle on the stored records, cut short where the crash falls. -/
theorem exists_crash (call : DiskCall α) (htext : text.Faithful) (h : Holds text path disk stored) :
    ∃ crashAfter, ∃ effects, effects = CycleCall.done
        ⟨call.env text path disk, call.config, crashAfter⟩
        (runCycle (call.env text path disk) call.config stored) ∧
      (call.effects text path disk).filterMap DiskEffect.delivery =
        effects.filterMap Effect.delivery ∧
      Holds text path ((call.effects text path disk).foldl DiskEffect.apply disk)
        (effects.foldl Effect.store stored) := by
  have hsaves : ∀ records replaced, Effect.save records replaced ∈
      (runCycle (call.env text path disk) call.config stored).trace →
        replaced = (call.save.answer text path).replaced ∧ sortByKey records = records := by
    intro records replaced hmem
    obtain ⟨hreplaced, _, d, hdecide, rfl⟩ := save_of_mem_runCycle hmem
    exact ⟨hreplaced, sortByKey_updatedRecords hdecide⟩
  rw [DiskCall.effects, runCycle_loaded htext h]
  cases call.crashAfter with
  | none => exact ⟨none, _, rfl, filterMap_delivery_expand _, h.foldl_expand hsaves⟩
  | some n =>
    obtain ⟨m, hsends, hholds⟩ := h.take_expand hsaves n
    exact ⟨some m, _, rfl, hsends, hholds⟩

end Cycle

/-! ## Runs -/

section Runs

/-- A cycle of the watcher over stored records that does what a cycle over the disk does. -/
structure SameCycle (text : RecordText α) (path : String)
    (onDisk : Mealy.Transition (Disk String α) (DiskCall α) (List (DiskEffect α)))
    (step : WatcherStep) : Prop where
  config : step.input.config = onDisk.input.config
  now : step.input.env.now = onDisk.input.now
  dryRun : step.input.env.dryRun = onDisk.input.dryRun
  fetch : step.input.env.fetch = onDisk.input.fetch
  send : step.input.env.send = onDisk.input.send
  load : ∀ error, step.input.env.loadError = some error → ∃ what, error = .storageError what
  save : step.input.env.saveAnswer = .saved ∨
    ∃ what, step.input.env.saveAnswer = .failed (.storageError what) false
  delivered : onDisk.output.filterMap DiskEffect.delivery = step.output.filterMap Effect.delivery
  before : Holds text path onDisk.before step.before
  after : Holds text path onDisk.after step.after

variable {text : RecordText α} {path : String}

theorem answer_cases (text : RecordText α) (path : String) (answers : SaveAnswers α) :
    answers.answer text path = .saved ∨
      ∃ what, answers.answer text path = .failed (.storageError what) false := by
  unfold SaveAnswers.answer
  split
  · exact .inl rfl
  · next error herror =>
    obtain ⟨⟨what, rfl⟩, -⟩ := run_save_of_error text path answers [] (fun _ => none) herror
    exact .inr ⟨what, rfl⟩

/-- Every run over a disk with no record file at first is a run over stored records, cycle by
cycle. -/
theorem diskWatcher_refines (htext : text.Faithful)
    {steps : List (Mealy.Transition (Disk String α) (DiskCall α) (List (DiskEffect α)))}
    {disk disk' : Disk String α} (hdisk : disk path = none)
    (hrun : (diskWatcher text path).Run disk steps disk') :
    ∃ steps' stored, watcher.Run [] steps' stored ∧ Holds text path disk' stored ∧
      List.Forall₂ (SameCycle text path) steps steps' := by
  refine hrun.refine (R := Holds text path) (.inl ⟨hdisk, rfl⟩) ?_
  intro disk stored call effects disk' h hstep
  obtain ⟨rfl, rfl⟩ := Prod.mk.inj (Except.ok.inj hstep)
  obtain ⟨crashAfter, effects, heffects, hsends, hholds⟩ := exists_crash call htext h
  refine ⟨⟨call.env text path disk, call.config, crashAfter⟩, effects,
    effects.foldl Effect.store stored, watcherWith_step.mpr ⟨heffects, rfl⟩, hholds, ?_⟩
  refine ⟨rfl, rfl, rfl, rfl, rfl, fun error herror => ?_, answer_cases text path call.save,
    hsends, h, hholds⟩
  rcases h.loadDisk_cases htext call.opens with hload | ⟨what, hload⟩
  · simp [DiskCall.env, hload] at herror
  · exact ⟨what, by simpa [DiskCall.env, hload, eq_comm] using herror⟩

end Runs

/-- A text of two halves; one half does not parse. -/
def halfText : RecordText (Option Json) where
  parse
    | [none, some value] => .ok value
    | _ => .error (.jsonError "parse error")
  dump value := [none, some value]

/-- Everything works, and half of a text is written at a time. -/
def halves : SaveAnswers (Option Json) where
  createDirectories := .ok ()
  opens := true
  flush text := [text.take 1, text.drop 1]
  complete := true
  rename := .ok ()
  removes := true
  flush_prefix text := by
    simp only [List.flatten_cons, List.flatten_nil, List.append_nil, List.take_append_drop]
    exact List.prefix_rfl
  flush_complete _ text := by
    simp only [List.flatten_cons, List.flatten_nil, List.append_nil, List.take_append_drop]

/-- A cycle with the launch of the test suite. -/
def halfCall (crashAfter : Option Nat) : DiskCall (Option Json) where
  config := makeConfig
  now := kNow
  dryRun := false
  fetch := .ok ⟨[makeLaunch], []⟩
  opens := true
  save := halves
  send _ _ name := .ok ⟨name, true, "delivered"⟩
  locateZone _ := .ok pacificDaylight
  crashAfter

/-- The first cycle crashes when half of the file is written, and the second one saves. -/
theorem diskWatcher_refines_crash :
    ∃ steps disk steps' stored,
      (diskWatcher halfText "alerts.json").exec (fun _ => none)
          [halfCall (some 4), halfCall none] = .ok (steps, disk) ∧
        steps.map (fun s => (s.after "alerts.json.tmp").map List.length) = [some 1, none] ∧
        steps.map (fun s => (s.after "alerts.json").map List.length) = [none, some 2] ∧
        watcher.Run [] steps' stored ∧ Holds halfText "alerts.json" disk stored := by
  obtain ⟨steps, disk, hexec, htmp, hfile⟩ : ∃ steps disk,
      (diskWatcher halfText "alerts.json").exec (fun _ => none)
          [halfCall (some 4), halfCall none] = .ok (steps, disk) ∧
        steps.map (fun s => (s.after "alerts.json.tmp").map List.length) = [some 1, none] ∧
        steps.map (fun s => (s.after "alerts.json").map List.length) = [none, some 2] :=
    ⟨_, _, rfl, rfl, rfl⟩
  have htext : halfText.Faithful := fun _ => rfl
  obtain ⟨steps', stored, hrun, hholds, -⟩ :=
    diskWatcher_refines htext rfl (Mealy.Run.of_exec hexec)
  exact ⟨steps, disk, steps', stored, hexec, htmp, hfile, hrun, hholds⟩

end RocketWatcher
