import RocketWatcher.Cli

/-!
# Command lines

The grammar of the arguments, and that `parseArgs` reads by it (`parseArgs_eq_iff`). A command
line is a list of words : options with their value, at most one command, and the flag of dry runs
after the command `once`. The last value of an option counts. The arguments are read as far as
they make up a command line, and what comes next, if anything, decides the error.
-/

namespace RocketWatcher

/-! ## The grammar -/

inductive Word where
  | config (path : String)
  | envFile (path : String)
  | dryRun
  | positional (text : String)
  deriving DecidableEq, Repr

def Word.spelling : Word → List String
  | config path => ["--config", path]
  | envFile path => ["--env-file", path]
  | dryRun => ["--dry-run"]
  | positional text => [text]

def Word.config? : Word → Option String
  | config path => some path
  | envFile _ | dryRun | positional _ => none

def Word.envFile? : Word → Option String
  | envFile path => some path
  | config _ | dryRun | positional _ => none

/-- The word is an option with its value. -/
def Word.IsOption (word : Word) : Prop :=
  word.config?.isSome ∨ word.envFile?.isSome

theorem isOption_config (path : String) : (Word.config path).IsOption := .inl rfl

theorem isOption_envFile (path : String) : (Word.envFile path).IsOption := .inr rfl

/-- The argument is no option and does not ask for help. -/
def Positional (text : String) : Prop :=
  text ∉ ["--help", "-h", "--config", "--env-file", "--dry-run"]

def spelling (words : List Word) : List String := words.flatMap Word.spelling

/-- The words of a command line with this command, or without one yet. An empty argument before the
command is passed over. -/
inductive Sensible : List Word → String → Prop
  | pending {words} (idle : ∀ w ∈ words, w.IsOption ∨ w = .positional "") : Sensible words ""
  | command {before command after} (idle : ∀ w ∈ before, w.IsOption ∨ w = .positional "")
      (nonempty : command ≠ "") (positional : Positional command)
      (flags : ∀ w ∈ after, w.IsOption ∨ w = .dryRun ∧ command = "once") :
      Sensible (before ++ .positional command :: after) command

/-- What the words say. -/
def reading (words : List Word) (command : String) : ParsedArgs where
  configPath := (words.filterMap Word.config?).getLast?.getD "config.toml"
  envFilePath := (words.filterMap Word.envFile?).getLast?.getD ".env"
  command := command
  dryRun := words.contains .dryRun

/-- The end of a command line, after the words read so far. -/
inductive Ending (read : ParsedArgs) : List String → ParsedArgs → Prop
  | accepted (known : read.command ∈ ["once", "watch", "test-notification"]) : Ending read [] read
  | commandMissing (missing : read.command = "") :
      Ending read [] { read with error := "a command is required" }
  | commandUnknown (given : read.command ≠ "")
      (unknown : read.command ∉ ["once", "watch", "test-notification"]) :
      Ending read [] { read with error := "unknown command: " ++ read.command }
  | help {arg rest} (help : arg ∈ ["--help", "-h"]) :
      Ending read (arg :: rest) { read with showHelp := true }
  | valueMissing {arg} (option : arg ∈ ["--config", "--env-file"]) :
      Ending read [arg] { read with error := arg ++ " requires a value" }
  | flagMisplaced {rest} (other : read.command ≠ "once") :
      Ending read ("--dry-run" :: rest)
        { read with error := "--dry-run is only valid after the once command" }
  | unexpected {arg rest} (positional : Positional arg) (given : read.command ≠ "") :
      Ending read (arg :: rest) { read with error := "unexpected argument: " ++ arg }

/-! ## One more word -/

section Snoc

variable {words : List Word} {word : Word} {command text : String}

theorem Sensible.snoc_option (h : Sensible words command) (hword : word.IsOption) :
    Sensible (words ++ [word]) command := by
  cases h with
  | pending idle =>
    refine .pending fun w hw => ?_
    rcases List.mem_append.mp hw with hw | hw
    · exact idle w hw
    · exact .inl (List.mem_singleton.mp hw ▸ hword)
  | command idle nonempty positional flags =>
    rw [List.append_assoc, List.cons_append]
    refine .command idle nonempty positional fun w hw => ?_
    rcases List.mem_append.mp hw with hw | hw
    · exact flags w hw
    · exact .inl (List.mem_singleton.mp hw ▸ hword)

theorem Sensible.snoc_dryRun (h : Sensible words command) (honce : command = "once") :
    Sensible (words ++ [.dryRun]) command := by
  cases h with
  | pending => exact absurd honce (by decide)
  | command idle nonempty positional flags =>
    rw [List.append_assoc, List.cons_append]
    refine .command idle nonempty positional fun w hw => ?_
    rcases List.mem_append.mp hw with hw | hw
    · exact flags w hw
    · exact .inr ⟨List.mem_singleton.mp hw, honce⟩

theorem Sensible.snoc_positional (h : Sensible words "") (htext : Positional text) :
    Sensible (words ++ [.positional text]) text := by
  cases h with
  | command _ nonempty => exact absurd rfl nonempty
  | pending idle =>
    by_cases hempty : text = ""
    · subst hempty
      refine .pending fun w hw => ?_
      rcases List.mem_append.mp hw with hw | hw
      · exact idle w hw
      · exact .inr (List.mem_singleton.mp hw)
    · exact .command idle hempty htext (by simp)

theorem Sensible.eq_of_nil (h : Sensible [] command) : command = "" := by
  generalize hwords : ([] : List Word) = words at h
  cases h with
  | pending => rfl
  | command => simp at hwords

/-- The last word of a command line, and the command line before it. -/
theorem Sensible.of_snoc (h : Sensible (words ++ [word]) command) :
    (word.IsOption ∧ Sensible words command) ∨
      (word = .dryRun ∧ command = "once" ∧ Sensible words command) ∨
      (word = .positional command ∧ Positional command ∧ Sensible words "") := by
  generalize hall : words ++ [word] = all at h
  cases h with
  | pending idle =>
    subst hall
    have hbefore : Sensible words "" := .pending fun w hw => idle w (List.mem_append_left _ hw)
    rcases idle word (by simp) with hoption | hempty
    · exact .inl ⟨hoption, hbefore⟩
    · exact .inr (.inr ⟨hempty, by simp [Positional], hbefore⟩)
  | @command before _ after idle nonempty positional flags =>
    rcases List.eq_nil_or_concat after with rfl | ⟨after', last, rfl⟩
    · obtain ⟨rfl, hword⟩ := List.append_inj' hall rfl
      exact .inr (.inr ⟨List.singleton_inj.mp hword, positional, .pending idle⟩)
    · rw [List.concat_eq_append, ← List.cons_append, ← List.append_assoc] at hall
      obtain ⟨rfl, hword⟩ := List.append_inj' hall rfl
      obtain rfl := List.singleton_inj.mp hword
      have hbefore : Sensible (before ++ .positional command :: after') command :=
        .command idle nonempty positional fun w hw => flags w (by simp [hw])
      rcases flags word (by simp) with hoption | ⟨hflag, rfl⟩
      · exact .inl ⟨hoption, hbefore⟩
      · exact .inr (.inl ⟨hflag, rfl, hbefore⟩)

end Snoc

/-! ## Reading -/

section Reading

variable {words : List Word} {command : String} {rest : List String} {parsed : ParsedArgs}

theorem parseFrom_config (parsed : ParsedArgs) (path : String) (rest : List String) :
    parseFrom parsed ("--config" :: path :: rest) =
      parseFrom { parsed with configPath := path } rest := by
  rw [parseFrom.eq_def]
  simp

theorem parseFrom_envFile (parsed : ParsedArgs) (path : String) (rest : List String) :
    parseFrom parsed ("--env-file" :: path :: rest) =
      parseFrom { parsed with envFilePath := path } rest := by
  rw [parseFrom.eq_def]
  simp

theorem parseFrom_dryRun_once (h : parsed.command = "once") (rest : List String) :
    parseFrom parsed ("--dry-run" :: rest) = parseFrom { parsed with dryRun := true } rest := by
  rw [parseFrom.eq_def]
  simp [h]

theorem parseFrom_positional {text : String} (h : Positional text) (hnone : parsed.command = "")
    (rest : List String) :
    parseFrom parsed (text :: rest) = parseFrom { parsed with command := text } rest := by
  simp only [Positional, List.mem_cons, List.not_mem_nil, or_false, not_or] at h
  rw [parseFrom.eq_def]
  simp [h, hnone]

theorem reading_snoc_positional (words : List Word) (command text : String) :
    reading (words ++ [.positional text]) command = reading words command := by
  simp [reading, Word.config?, Word.envFile?]

theorem reading_snoc_dryRun (words : List Word) (command : String) :
    reading (words ++ [.dryRun]) command = { reading words command with dryRun := true } := by
  simp [reading, Word.config?, Word.envFile?]

theorem reading_snoc_config (words : List Word) (command path : String) :
    reading (words ++ [.config path]) command =
      { reading words command with configPath := path } := by
  simp [reading, Word.config?, Word.envFile?]

theorem reading_snoc_envFile (words : List Word) (command path : String) :
    reading (words ++ [.envFile path]) command =
      { reading words command with envFilePath := path } := by
  simp [reading, Word.config?, Word.envFile?]

theorem spelling_snoc (words : List Word) (word : Word) (rest : List String) :
    spelling (words ++ [word]) ++ rest = spelling words ++ (word.spelling ++ rest) := by
  simp [spelling]

/-- The loop reads the words of a command line one by one. -/
theorem parseFrom_spelling (h : Sensible words command) (rest : List String) :
    parseFrom {} (spelling words ++ rest) = parseFrom (reading words command) rest := by
  induction words using List.reverseRecOn generalizing command rest with
  | nil =>
    rw [h.eq_of_nil]
    rfl
  | append_singleton words word ih =>
    rw [spelling_snoc]
    rcases h.of_snoc with ⟨hoption, hbefore⟩ | ⟨rfl, rfl, hbefore⟩ | ⟨rfl, hpositional, hbefore⟩
    · rw [ih hbefore]
      cases word with
      | config path => rw [reading_snoc_config]; exact parseFrom_config _ path rest
      | envFile path => rw [reading_snoc_envFile]; exact parseFrom_envFile _ path rest
      | dryRun | positional => simp [Word.IsOption, Word.config?, Word.envFile?] at hoption
    · rw [ih hbefore, reading_snoc_dryRun]
      exact parseFrom_dryRun_once rfl rest
    · rw [ih hbefore, reading_snoc_positional]
      exact parseFrom_positional hpositional rfl rest

/-- Where a command line ends, the loop ends. -/
theorem Ending.parseFrom_eq {read : ParsedArgs} (h : Ending read rest parsed) :
    parseFrom read rest = parsed := by
  cases h with
  | accepted known =>
    have hgiven : parsed.command ≠ "" := fun hempty => by simp [hempty] at known
    simp only [List.mem_cons, List.not_mem_nil, or_false] at known
    rw [parseFrom, ParsedArgs.checkCommand, if_neg (by simpa using hgiven), if_neg]
    rintro ⟨honce, hwatch, htest⟩
    simp [honce, hwatch, htest] at known
  | commandMissing missing => simp [parseFrom, ParsedArgs.checkCommand, missing]
  | commandUnknown given unknown =>
    simp only [List.mem_cons, List.not_mem_nil, or_false, not_or] at unknown
    simp [parseFrom, ParsedArgs.checkCommand, given, unknown]
  | help help =>
    simp only [List.mem_cons, List.not_mem_nil, or_false] at help
    rw [parseFrom.eq_def]
    simp [help]
  | valueMissing option =>
    simp only [List.mem_cons, List.not_mem_nil, or_false] at option
    rcases option with rfl | rfl
    · rfl
    · rfl
  | flagMisplaced other =>
    rw [parseFrom.eq_def]
    simp [other]
  | unexpected positional given =>
    simp only [Positional, List.mem_cons, List.not_mem_nil, or_false, not_or] at positional
    rw [parseFrom.eq_def]
    simp [positional, given]

/-- Behind a command line the loop reads on until one ends. -/
theorem exists_reading (args : List String) (hread : parsed = reading words command)
    (h : Sensible words command) : ∃ words' command' rest,
      spelling words ++ args = spelling words' ++ rest ∧ Sensible words' command' ∧
        Ending (reading words' command') rest (parseFrom parsed args) := by
  fun_induction parseFrom parsed args generalizing words command with
  | case1 parsed =>
    refine ⟨words, command, [], rfl, h, ?_⟩
    subst hread
    unfold ParsedArgs.checkCommand
    split_ifs with hmissing hunknown
    · exact .commandMissing (by simpa using hmissing)
    · exact .commandUnknown (by simpa using hmissing) (by simpa using hunknown)
    · exact .accepted (by simpa [not_and_or, or_iff_not_imp_left] using hunknown)
  | case2 parsed arg rest hhelp =>
    exact ⟨words, command, arg :: rest, rfl, h, hread ▸ .help (by simpa using hhelp)⟩
  | case3 parsed arg hhelp hoption =>
    exact ⟨words, command, [arg], rfl, h, hread ▸ .valueMissing (by simpa using hoption)⟩
  | case4 parsed value rest _ _ ih =>
    obtain ⟨words', command', rest', hargs, hending⟩ :=
      ih (by rw [hread, reading_snoc_config]) (h.snoc_option (isOption_config value))
    exact ⟨words', command', rest', (spelling_snoc words _ rest).symm.trans hargs, hending⟩
  | case5 parsed arg _ hvalue value rest hconfig ih =>
    obtain rfl : arg = "--env-file" := hvalue.resolve_left hconfig
    obtain ⟨words', command', rest', hargs, hending⟩ :=
      ih (by rw [hread, reading_snoc_envFile]) (h.snoc_option (isOption_envFile value))
    exact ⟨words', command', rest', (spelling_snoc words _ rest).symm.trans hargs, hending⟩
  | case6 parsed rest hcommand =>
    subst hread
    exact ⟨words, command, _, rfl, h, .flagMisplaced hcommand⟩
  | case7 parsed rest hcommand _ _ ih =>
    have honce : command = "once" := by simpa [hread, reading] using hcommand
    obtain ⟨words', command', rest', hargs, hending⟩ :=
      ih (by rw [hread, reading_snoc_dryRun]) (h.snoc_dryRun honce)
    exact ⟨words', command', rest', (spelling_snoc words _ rest).symm.trans hargs, hending⟩
  | case8 parsed arg rest hhelp hvalue hflag hempty ih =>
    have hpositional : Positional arg := by
      simp only [not_or] at hhelp hvalue
      simp [Positional, hhelp, hvalue, hflag]
    obtain rfl : command = "" := by simpa [hread, reading] using hempty
    obtain ⟨words', command', rest', hargs, hending⟩ :=
      ih (by rw [hread, reading_snoc_positional]; rfl) (h.snoc_positional hpositional)
    exact ⟨words', command', rest', (spelling_snoc words _ rest).symm.trans hargs, hending⟩
  | case9 parsed arg rest hhelp hvalue hflag hgiven =>
    have hpositional : Positional arg := by
      simp only [not_or] at hhelp hvalue
      simp [Positional, hhelp, hvalue, hflag]
    subst hread
    exact ⟨words, command, arg :: rest, rfl, h, .unexpected hpositional (by simpa using hgiven)⟩

end Reading

/-- The parser follows the grammar, error by error : its answer is that of the command line the
arguments start with, and of what comes next. -/
theorem parseArgs_eq_iff {args : List String} {parsed : ParsedArgs} :
    parseArgs args = parsed ↔ ∃ words command rest, args = spelling words ++ rest ∧
      Sensible words command ∧ Ending (reading words command) rest parsed := by
  constructor
  · rintro rfl
    have hnone : ({} : ParsedArgs) = reading [] "" := rfl
    obtain ⟨words, command, rest, hargs, hsensible, hending⟩ :=
      exists_reading args hnone (.pending (by simp))
    exact ⟨words, command, rest, hargs, hsensible, hending⟩
  · rintro ⟨words, command, rest, rfl, hsensible, hending⟩
    rw [parseArgs, parseFrom_spelling hsensible]
    exact hending.parseFrom_eq

end RocketWatcher
