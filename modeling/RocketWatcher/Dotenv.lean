import RocketWatcher.Library.FirstWins
import RocketWatcher.Library.Folded
import RocketWatcher.Strings

/-!
# The .env file

`loadDotenv` of `config.cpp`. A line assigns a value to a key when it is no comment and has a `=`
after a key (`Assigns`). The variables that are set stay as they are, and an unset one gets what
the first line for it assigns (`loadDotenv_spec`).
-/

open Folded

namespace RocketWatcher

/-- The environment of the process. -/
abbrev Environment := String → Option String

/-- `std::getline`, until the file is read. -/
def getLines : List Char → List (List Char)
  | [] => []
  | c :: rest =>
    if c = '\n' then [] :: getLines rest
    else
      match getLines rest with
      | [] => [[c]]
      | line :: lines => (c :: line) :: lines

def fileLines (text : String) : List String :=
  (getLines text.toList).map String.ofList

/-- `setenv(key, value, 0)`. A name that is empty or has a `=` is refused. -/
def setEnvIfUnset (env : Environment) (key value : String) : Environment :=
  let name := String.ofList (cString key)
  if name = "" ∨ '=' ∈ name.toList then env
  else FirstWins.setIfUnset env name (String.ofList (cString value))

/-- A single or a double quote. -/
def isQuote (c : Char) : Bool :=
  c.toNat == 39 || c.toNat == 34

def stripQuotes (text : String) : String :=
  String.ofList ((text.toList.dropWhile isQuote).rdropWhile isQuote)

/-- The body of the loop over the lines. -/
def loadDotenvLine (env : Environment) (rawLine : String) : Environment :=
  let line := trim rawLine
  if line.isEmpty ∨ line.toList.head? = some '#' then env
  else
    match line.toList.dropWhile (· != '=') with
    | [] => env
    | _ :: after =>
      let key := trim (String.ofList (line.toList.takeWhile (· != '=')))
      let value := stripQuotes (trim (String.ofList after))
      if key.isEmpty then env else setEnvIfUnset env key value

/-- A file that cannot be opened is no file. -/
def loadDotenv (file : Option String) (env : Environment) : Environment :=
  match file with
  | none => env
  | some text => (fileLines text).foldl loadDotenvLine env

example : loadDotenv (some "#\nK ='a='\r\nK=b") (fun _ => none) "K" = some "a=" := by
  decide +kernel

/-! ## Lines -/

/-- What the lines are : none has a line end, and each but perhaps the last is ended by one. -/
theorem getLines_spec (text : List Char) :
    (∀ line ∈ getLines text, '\n' ∉ line) ∧
      ((getLines text).flatMap (· ++ ['\n']) = text ∨
        (getLines text).flatMap (· ++ ['\n']) = text ++ ['\n']) := by
  induction text with
  | nil => simp [getLines]
  | cons c rest ih =>
    obtain ⟨hline, htext⟩ := ih
    rw [getLines]
    split_ifs with hend
    · subst hend
      refine ⟨List.forall_mem_cons.mpr ⟨by simp, hline⟩, ?_⟩
      simpa using htext
    · have hne : '\n' ≠ c := Ne.symm hend
      cases hlines : getLines rest with
      | nil =>
        obtain rfl : rest = [] := by
          rw [hlines] at htext
          rcases htext with htext | htext
          · exact htext.symm
          · simp at htext
        exact ⟨by simpa using hne, .inr (by simp)⟩
      | cons line lines =>
        rw [hlines, List.forall_mem_cons] at hline
        refine ⟨List.forall_mem_cons.mpr ⟨by simp [hne, hline.1], hline.2⟩, ?_⟩
        simpa [hlines] using htext

/-! ## Assignments -/

/-- The trimmed line is no comment, has a `=`, and has `key` before the first one. The text after
it, trimmed, is `value` in quotes. -/
def Assigns (rawLine key value : String) : Prop :=
  ∃ line before after quoted, Stripped isSpace rawLine.toList line ∧ line.head? ≠ some '#' ∧
    line = before ++ '=' :: after ∧ '=' ∉ before ∧ Stripped isSpace before key.toList ∧ key ≠ "" ∧
    Stripped isSpace after quoted ∧ Stripped isQuote quoted value.toList

/-- The key and the value of a line that assigns one. -/
def assignment (rawLine : String) : Option (String × String) :=
  let line := trim rawLine
  if line.toList.head? = some '#' then none
  else
    match line.toList.dropWhile (· != '=') with
    | [] => none
    | _ :: after =>
      let key := trim (String.ofList (line.toList.takeWhile (· != '=')))
      if key.isEmpty then none else some (key, stripQuotes (trim (String.ofList after)))

theorem toList_trim (text : String) : (trim text).toList = strip isSpace text.toList := by
  rw [trim, String.toList_ofList, strip]

theorem toList_stripQuotes (text : String) :
    (stripQuotes text).toList = strip isQuote text.toList := by
  rw [stripQuotes, String.toList_ofList, strip]

/-- A text is cut at its first `=`. -/
theorem cut_iff {line before after : List Char} :
    line.takeWhile (· != '=') = before ∧ line.dropWhile (· != '=') = '=' :: after ↔
      line = before ++ '=' :: after ∧ '=' ∉ before := by
  constructor
  · rintro ⟨rfl, hdrop⟩
    refine ⟨?_, fun hmem => ?_⟩
    · rw [← hdrop, List.takeWhile_append_dropWhile]
    · simpa using List.mem_takeWhile_imp hmem
  · rintro ⟨rfl, hbefore⟩
    have hall : ∀ c ∈ before, (c != '=') = true := by
      intro c hc
      simpa using fun heq : c = '=' => hbefore (heq ▸ hc)
    rw [List.takeWhile_append_of_pos hall, List.dropWhile_append_of_pos hall]
    simp

theorem eq_of_dropWhile {line after : List Char} {c : Char}
    (h : line.dropWhile (· != '=') = c :: after) : c = '=' := by
  simpa [h] using List.head?_dropWhile_not (· != '=') line

theorem assignment_eq_some_iff {rawLine key value : String} :
    assignment rawLine = some (key, value) ↔ Assigns rawLine key value := by
  simp only [assignment, Assigns, stripped_iff, toList_trim]
  constructor
  · intro h
    split at h
    · cases h
    next hcomment =>
    split at h
    · cases h
    next c after hdrop =>
    split at h
    · cases h
    next hkey =>
    obtain ⟨rfl, rfl⟩ := Prod.mk.inj (Option.some.inj h)
    obtain rfl := eq_of_dropWhile hdrop
    obtain ⟨hline, hbefore⟩ := cut_iff.mp ⟨rfl, hdrop⟩
    refine ⟨_, _, after, _, rfl, hcomment, hline, hbefore, ?_, by simpa using hkey, rfl, ?_⟩
    · rw [toList_trim, String.toList_ofList]
    · rw [toList_stripQuotes, toList_trim, String.toList_ofList]
  · rintro ⟨line, before, after, quoted, hline, hcomment, hcut, hbefore, hkey, hne, hquoted, hvalue⟩
    obtain ⟨htake, hdrop⟩ := cut_iff.mpr ⟨hcut, hbefore⟩
    have hkey' : trim (String.ofList before) = key := by
      rw [← String.toList_inj, toList_trim, String.toList_ofList, hkey]
    have hvalue' : stripQuotes (trim (String.ofList after)) = value := by
      rw [← String.toList_inj, toList_stripQuotes, toList_trim, String.toList_ofList, hquoted,
        hvalue]
    rw [hline, if_neg hcomment, hdrop, htake]
    simp [hkey', hvalue', hne]

/-- A key and its value are parts of the line, and a key has no `=`. -/
theorem Assigns.mem {rawLine key value : String} (h : Assigns rawLine key value) :
    (∀ c ∈ key.toList, c ∈ rawLine.toList ∧ c ≠ '=') ∧ ∀ c ∈ value.toList, c ∈ rawLine.toList := by
  simp only [Assigns, stripped_iff] at h
  obtain ⟨line, before, after, quoted, rfl, -, hcut, hbefore, hkey, -, rfl, hvalue⟩ := h
  refine ⟨fun c hc => ?_, fun c hc => ?_⟩
  · have hmem : c ∈ before := mem_of_mem_strip (hkey ▸ hc)
    refine ⟨mem_of_mem_strip (hcut ▸ List.mem_append_left _ hmem), ?_⟩
    rintro rfl
    exact hbefore hmem
  · have hmem : c ∈ after := mem_of_mem_strip (mem_of_mem_strip (hvalue ▸ hc))
    exact mem_of_mem_strip (hcut ▸ List.mem_append_right _ (List.mem_cons_of_mem _ hmem))

theorem Assigns.key_ne_empty {rawLine key value : String} (h : Assigns rawLine key value) :
    key ≠ "" := by
  obtain ⟨-, -, -, -, -, -, -, -, -, hne, -⟩ := h
  exact hne

/-! ## The file -/

theorem loadDotenvLine_eq_match (env : Environment) (rawLine : String) :
    loadDotenvLine env rawLine = match assignment rawLine with
      | none => env
      | some (key, value) => setEnvIfUnset env key value := by
  simp only [loadDotenvLine, assignment]
  by_cases hcomment : (trim rawLine).toList.head? = some '#'
  · simp [hcomment]
  · by_cases hempty : trim rawLine = ""
    · simp [hempty]
    · simp only [hcomment, hempty, String.isEmpty_iff, or_self, if_false]
      split
      · rfl
      · split_ifs <;> rfl

theorem loadDotenvLine_eq (env : Environment) {rawLine : String}
    (hnul : ∀ c ∈ rawLine.toList, c.toNat ≠ 0) :
    loadDotenvLine env rawLine = FirstWins.step assignment env rawLine := by
  rw [loadDotenvLine_eq_match, FirstWins.step]
  cases h : assignment rawLine with
  | none => rfl
  | some entry =>
    obtain ⟨key, value⟩ := entry
    have hassigns := assignment_eq_some_iff.mp h
    obtain ⟨hkey, hvalue⟩ := hassigns.mem
    have hequals : '=' ∉ key.toList := fun hmem => (hkey '=' hmem).2 rfl
    simp only [setEnvIfUnset, cString_of_nul_free fun c hc => hnul c (hkey c hc).1,
      cString_of_nul_free fun c hc => hnul c (hvalue c hc), String.ofList_toList,
      hassigns.key_ne_empty, hequals, or_self, if_false]

/-- The characters of the lines are those of the file. -/
theorem mem_of_mem_fileLines {text line : String} (h : line ∈ fileLines text) :
    ∀ c ∈ line.toList, c ∈ text.toList := by
  intro c hc
  obtain ⟨chars, hchars, rfl⟩ := List.mem_map.mp h
  rw [String.toList_ofList] at hc
  obtain ⟨hends, htext⟩ := getLines_spec text.toList
  have hmem : c ∈ (getLines text.toList).flatMap (· ++ ['\n']) :=
    List.mem_flatMap.mpr ⟨chars, hchars, List.mem_append_left _ hc⟩
  rcases htext with htext | htext
  · exact htext ▸ hmem
  · rw [htext, List.mem_append, List.mem_singleton] at hmem
    refine hmem.resolve_right ?_
    rintro rfl
    exact hends chars hchars hc

/-- The file extends the environment line by line. -/
theorem loadDotenv_eq {text : String} (hnul : ∀ c ∈ text.toList, c.toNat ≠ 0) (env : Environment) :
    loadDotenv (some text) env = FirstWins.extend assignment env (fileLines text) :=
  List.foldl_ext _ _ _ fun env _ hline =>
    loadDotenvLine_eq env fun c hc => hnul c (mem_of_mem_fileLines hline c hc)

/-- A variable that is set keeps its value, an unset one gets the value of the first line that
assigns it one, more lines change nothing of that, and neither does loading the file again. -/
theorem loadDotenv_spec {text : String} (hnul : ∀ c ∈ text.toList, c.toNat ≠ 0)
    (env : Environment) :
    (∀ k v, env k = some v → loadDotenv (some text) env k = some v) ∧
    (∀ k v, env k = none → (loadDotenv (some text) env k = some v ↔
      ∃ before line after, fileLines text = before ++ line :: after ∧ Assigns line k v ∧
        ∀ earlier ∈ before, ∀ w, ¬Assigns earlier k w)) ∧
    (∀ k, env k = none → (∀ line ∈ fileLines text, ∀ w, ¬Assigns line k w) →
      loadDotenv (some text) env k = none) ∧
    (∀ longer : String, (∀ c ∈ longer.toList, c.toNat ≠ 0) → fileLines text <+: fileLines longer →
      ∀ k v, loadDotenv (some text) env k = some v → loadDotenv (some longer) env k = some v) ∧
    loadDotenv (some text) (loadDotenv (some text) env) = loadDotenv (some text) env := by
  simp only [loadDotenv_eq hnul, ← assignment_eq_some_iff]
  refine ⟨fun k v h => FirstWins.extend_of_some h _, fun k v h => FirstWins.extend_eq_some_iff h,
    fun k h hnone => ?_, fun longer hlonger hstart k v h => ?_, FirstWins.extend_extend env _⟩
  · rw [Option.eq_none_iff_forall_ne_some]
    intro v hv
    obtain ⟨before, line, after, hlines, hline, -⟩ := (FirstWins.extend_eq_some_iff h).mp hv
    exact hnone line (by simp [hlines]) v hline
  · rw [loadDotenv_eq hlonger]
    exact FirstWins.extend_of_prefix hstart h

/-- The first of two lines for a key counts, if the key is unset. -/
theorem loadDotenv_spec_twice :
    loadDotenv (some "K='a'\nK=b") (fun _ => none) "K" = some "a" ∧
      loadDotenv (some "K='a'\nK=b") (fun _ => some "") "K" = some "" := by
  have hnul : ∀ c ∈ "K='a'\nK=b".toList, c.toNat ≠ 0 := by decide
  obtain ⟨-, hfirst, -⟩ := loadDotenv_spec hnul fun _ => none
  obtain ⟨hkept, -⟩ := loadDotenv_spec hnul fun _ => some ""
  refine ⟨(hfirst "K" "a" rfl).mpr ⟨[], "K='a'", ["K=b"], ?_, ?_, by simp⟩, hkept "K" "" rfl⟩
  · decide +kernel
  · exact assignment_eq_some_iff.mp (by decide +kernel)

end RocketWatcher
