import RocketWatcher.CountdownText
import RocketWatcher.Delivery
import RocketWatcher.TimestampRoundTrip
import RocketWatcher.ToldTime

/-!
# Shown times

`formatDisplay` shows the minute of the local time and the abbreviation in force, and nothing
else (`formatDisplay_eq_iff`). So where an abbreviation stands for one offset, a correction that
announces a new launch time never shows the old one again (`time_change_is_shown`).
-/

open Scan

namespace RocketWatcher

/-! ## Padded numbers -/

theorem paddedField_digits_ne_nil (width : Nat) (n : Int) : (paddedField width n).digits ≠ [] := by
  simp [paddedField, Nat.toDigits_ne_nil]

/-- A number is determined by its text. -/
theorem paddedField_text_injective {width : Nat} {n m : Int}
    (h : (paddedField width n).text = (paddedField width m).text) : n = m := by
  have hread (k : Int) : readSign (paddedField width k).text =
      ((paddedField width k).sign, (paddedField width k).digits) := by
    have happend : readSign ((paddedField width k).sign.text ++ (paddedField width k).digits ++
        []) = _ :=
      readSign_append _ (paddedField_digits_ne_nil width k) (paddedField_digits width k)
    simpa [Field.text, paddedField] using happend
  obtain ⟨hsign, hdigits⟩ := Prod.mk.inj ((hread n).symm.trans (h ▸ hread m))
  calc
    n = (paddedField width n).value := (paddedField_value width n).symm
    _ = (paddedField width m).value := by rw [Field.value, Field.value, hsign, hdigits]
    _ = m := paddedField_value width m

/-- Two digits are two characters. -/
theorem length_paddedField_two {n : Int} (h₀ : 0 ≤ n) (h₁ : n ≤ 99) :
    (paddedField 2 n).text.length = 2 := by
  have hwidth : (paddedField 2 n).width = 2 :=
    paddedField_width (by decide) (by omega) (by omega)
  simpa [Field.text, Field.width, paddedField] using hwidth

theorem paddedField_ne_blank (width : Nat) (n : Int) :
    ∀ c ∈ (paddedField width n).text, c ≠ ' ' := by
  intro c hc
  rw [Field.text, List.mem_append] at hc
  rcases hc with hc | hc
  · have hsign : c = '-' := by
      by_cases h : n < 0
      · simpa [paddedField, h, Sign.text] using hc
      · simp [paddedField, h, Sign.text] at hc
    rw [hsign]
    decide
  · rintro rfl
    exact absurd (paddedField_digits width n ' ' hc) (by decide)

/-! ## Dates and times of day -/

/-- The characters of a date. -/
def dateText (c : CivilTime) : List Char :=
  (paddedField 4 c.year).text ++ '-' :: ((paddedField 2 c.month).text ++
    '-' :: (paddedField 2 c.day).text)

/-- The characters of a time of day, with what follows it. -/
def clockText (c : CivilTime) (rest : List Char) : List Char :=
  (paddedField 2 c.hour).text ++ ':' :: ((paddedField 2 c.minute).text ++ ' ' :: rest)

theorem toList_formatDisplay (time : Int) (zone : TimeZone) :
    (formatDisplay (some time) zone).toList = dateText (splitInZone time zone) ++
      ' ' :: clockText (splitInZone time zone) (zone.localAbbrev time).toList := by
  simp [formatDisplay, CivilTime.date, toList_zeroPadded, dateText, clockText]

theorem dateText_ne_blank (c : CivilTime) : ∀ c' ∈ dateText c, c' ≠ ' ' := by
  simp only [dateText, List.forall_mem_append, List.forall_mem_cons]
  exact ⟨paddedField_ne_blank _ _, by decide, paddedField_ne_blank _ _, by decide,
    paddedField_ne_blank _ _⟩

section Civil

variable {time time' : Int}

theorem splitLocal_valid (time : Int) :
    ValidDate (splitLocal time).year (splitLocal time).month (splitLocal time).day :=
  civilFromDays_valid (time / 86400)

theorem length_month_day (time : Int) :
    (paddedField 2 (splitLocal time).month).text.length = 2 ∧
      (paddedField 2 (splitLocal time).day).text.length = 2 := by
  obtain ⟨hmonth₀, hmonth₁, hday₀, hday₁⟩ := splitLocal_valid time
  have hday₂ := Int.le_trans hday₁ (daysInMonth_le _ _)
  exact ⟨length_paddedField_two (by omega) (by omega), length_paddedField_two (by omega) (by omega)⟩

theorem length_hour_minute (time : Int) :
    (paddedField 2 (splitLocal time).hour).text.length = 2 ∧
      (paddedField 2 (splitLocal time).minute).text.length = 2 := by
  obtain ⟨hhour₀, hhour₁, hminute₀, hminute₁, -, -⟩ := splitLocal_bounds time
  exact ⟨length_paddedField_two (by omega) (by omega), length_paddedField_two (by omega) (by omega)⟩

/-- A day is determined by the text of its date, whatever the length of its year. -/
theorem dateText_injective (h : dateText (splitLocal time) = dateText (splitLocal time')) :
    time / 86400 = time' / 86400 := by
  obtain ⟨hmonth, hday⟩ := length_month_day time
  obtain ⟨hmonth', hday'⟩ := length_month_day time'
  obtain ⟨hyear, hrest⟩ := List.append_inj' h (by simp [hmonth, hday, hmonth', hday'])
  obtain ⟨hmonths, hdays⟩ := List.append_inj (List.cons.inj hrest).2 (hmonth.trans hmonth'.symm)
  have hyear := paddedField_text_injective hyear
  have hmonth := paddedField_text_injective hmonths
  have hday := paddedField_text_injective (List.cons.inj hdays).2
  rw [← daysFromCivil_civilFromDays (time / 86400), ← daysFromCivil_civilFromDays (time' / 86400)]
  change daysFromCivil (splitLocal time).year (splitLocal time).month (splitLocal time).day =
    daysFromCivil (splitLocal time').year (splitLocal time').month (splitLocal time').day
  rw [hyear, hmonth, hday]

/-- Hour, minute and what follows are determined by the text of a time of day. -/
theorem clockText_injective {rest rest' : List Char}
    (h : clockText (splitLocal time) rest = clockText (splitLocal time') rest') :
    (splitLocal time).hour = (splitLocal time').hour ∧
      (splitLocal time).minute = (splitLocal time').minute ∧ rest = rest' := by
  obtain ⟨hhour, hminute⟩ := length_hour_minute time
  obtain ⟨hhour', hminute'⟩ := length_hour_minute time'
  obtain ⟨hhours, hrest⟩ := List.append_inj h (hhour.trans hhour'.symm)
  obtain ⟨hminutes, hrest⟩ :=
    List.append_inj (List.cons.inj hrest).2 (hminute.trans hminute'.symm)
  exact ⟨paddedField_text_injective hhours, paddedField_text_injective hminutes,
    (List.cons.inj hrest).2⟩

end Civil

/-- Two times are shown alike just when they have the local minute and the abbreviation in
common. -/
theorem formatDisplay_eq_iff {time time' : Int} {zone : TimeZone} :
    formatDisplay (some time) zone = formatDisplay (some time') zone ↔
      zone.toLocal time / 60 = zone.toLocal time' / 60 ∧
        zone.localAbbrev time = zone.localAbbrev time' := by
  constructor
  · intro h
    have htext := congrArg String.toList h
    rw [toList_formatDisplay, toList_formatDisplay] at htext
    -- the first blank ends the date
    have hdate := congrArg (List.takeWhile (· ≠ ' ')) htext
    rw [takeWhile_append_of_stops (by simpa using dateText_ne_blank _) (stops_cons.mpr (by simp)),
      takeWhile_append_of_stops (by simpa using dateText_ne_blank _) (stops_cons.mpr (by simp))]
      at hdate
    rw [hdate, List.append_cancel_left_eq] at htext
    obtain ⟨hhour, hminute, habbrev⟩ := clockText_injective (List.cons.inj htext).2
    have hday := dateText_injective hdate
    refine ⟨?_, String.toList_inj.mp habbrev⟩
    simp only [splitLocal] at hhour hminute
    omega
  · rintro ⟨hminute, habbrev⟩
    have hday : zone.toLocal time / 86400 = zone.toLocal time' / 86400 := by omega
    have hhour : zone.toLocal time % 86400 / 3600 = zone.toLocal time' % 86400 / 3600 := by omega
    have hminute : zone.toLocal time % 86400 % 3600 / 60 =
      zone.toLocal time' % 86400 % 3600 / 60 := by omega
    simp only [formatDisplay, splitInZone, CivilTime.date, splitLocal, hday, hhour, hminute,
      habbrev]

/-! ## Changed launch times -/

/-- An abbreviation of the zone stands for one offset, as PST and PDT do. -/
def TimeZone.Unambiguous (zone : TimeZone) : Prop :=
  ∀ time time', zone.localAbbrev time = zone.localAbbrev time' →
    zone.toLocal time - time = zone.toLocal time' - time'

/-- Times that are a minute apart are not shown alike. -/
theorem formatDisplay_ne {zone : TimeZone} (h : zone.Unambiguous) {time time' : Int}
    (hfar : 60 ≤ |time - time'|) :
    formatDisplay (some time) zone ≠ formatDisplay (some time') zone := by
  rw [ne_eq, formatDisplay_eq_iff]
  rintro ⟨hminute, habbrev⟩
  have hoffset := h time time' habbrev
  rcases le_abs.mp hfar with hfar | hfar
  · omega
  · omega

/-- The time-changed corrections are those for a shifted launch time. -/
theorem Decides.of_timeChanged {policy : AlertPolicy} {now : Int} {terms : List String}
    {launch : Launch} {record : Option AlertRecord} {alert : Alert}
    (h : Decides policy now terms launch record (some alert))
    (hreason : alert.reason = some .timeChanged) :
    alert.kind = .correction ∧ ∃ r old new, record = some r ∧ alert.previous = some r.lastFacts ∧
      r.lastFacts.launchTime = some old ∧ launch.launchTime = some new ∧
      policy.correctionTimeShift ≤ |new - old| := by
  cases h with
  | noGo | timingNowImprecise => simp [makeCorrection] at hreason
  | timeChanged _ _ shifted =>
    obtain ⟨old, new, hold, hnew, hshift⟩ := shifted
    exact ⟨rfl, _, old, new, rfl, rfl, hold, hnew, hshift⟩
  | countdown => simp [makeCountdown] at hreason

/-- The message of a correction tells its reason. -/
theorem reason_of_message {alert : Alert} {zone : TimeZone} {message : Message}
    (h : formatAlert alert zone = .ok message) {reason : CorrectionReason}
    (hkind : message.alertKind = "correction:" ++ reason.toString) :
    alert.reason = some reason := by
  rcases (formatAlert_eq_ok h).2 with ⟨hsame, -⟩ | ⟨-, reason', hreason, hsame⟩
  · exact absurd (hsame.symm.trans hkind) (alert.kind.toString_ne_correction reason)
  · rw [hreason]
    have htext := hsame.symm.trans hkind
    cases reason <;> cases reason' <;> first | rfl | exact absurd htext (by decide)

/-- The cycle has fetched the launch, and the record is in force for it when the loop reaches it. -/
def CycleCall.DecidesOn (call : CycleCall) (stored : List AlertRecord) (launch : Launch)
    (record : AlertRecord) : Prop :=
  ∃ fetch before after state, call.env.fetch = .ok fetch ∧
    fetch.launches = before ++ launch :: after ∧
    decideLaunches (cycleInput call.env call.config fetch.launches) stored before = .ok state ∧
    state.recordMap[launch.key]? = some record

/-- A recipient who is sent a time-changed correction is shown two times that differ, the fetched
launch time and the recorded one, in every cycle over whatever records. The correction shift is at
least a minute, as the loader requires. -/
theorem time_change_is_shown {call : CycleCall} {stored stored' : List AlertRecord}
    {effects : List Effect} (hstep : watcher.step stored call = .ok (effects, stored'))
    {zone : TimeZone} (hzone : call.config.displayZone call.env.locateZone = .ok zone)
    (hunambiguous : zone.Unambiguous) (hshift : 0 < call.config.correctionTimeShiftMinutes)
    {message : Message} {name : String} (hsend : .send message name ∈ effects)
    (hkind : message.alertKind = "correction:" ++ CorrectionReason.timeChanged.toString) :
    ∃ launch record old new, call.DecidesOn stored launch record ∧
      message.launchKey = launch.key ∧ record.lastFacts.launchTime = some old ∧
      launch.launchTime = some new ∧
      message.body = "New estimated liftoff: " ++ formatDisplay (some new) zone ++
        ". Was " ++ formatDisplay (some old) zone ++ "." ∧
      formatDisplay (some new) zone ≠ formatDisplay (some old) zone ∧
      call.config.policy.correctionTimeShift ≤ |new - old| := by
  obtain ⟨-, fetch, d, alert, zone', hfetch, hdecide, halert, hzone', hmessage⟩ :=
    alert_of_mem_effects hstep hsend
  obtain rfl : zone = zone' := Except.ok.inj (hzone.symm.trans hzone')
  have hreason := reason_of_message hmessage hkind
  obtain ⟨final, hfinal, halerts, -⟩ := decideCycle_eq_ok hdecide
  obtain ⟨before, after, state, hsplit, hstate, -, terms, hd⟩ :=
    decideLaunches_mem_alerts hfinal (halerts ▸ halert)
  obtain ⟨hcorrection, record, old, new, hrecord, hprevious, hold, hnew, hfar⟩ :=
    hd.of_timeChanged hreason
  have hbody : message.body = "New estimated liftoff: " ++ formatDisplay (some new) zone ++
      ". Was " ++ formatDisplay (some old) zone ++ "." := by
    simp only [formatAlert, formatCorrection, hcorrection, hreason, hprevious, Option.bind_some,
      hold, hnew, Except.pure_eq_ok, Except.ok.injEq] at hmessage
    rw [← hmessage]
  have hpolicy : call.config.policy.correctionTimeShift =
    call.config.correctionTimeShiftMinutes * 60 := rfl
  have hshift' : call.config.policy.correctionTimeShift ≤ |new - old| := hfar
  exact ⟨alert.launch, record, old, new,
    ⟨fetch, before, after, state, hfetch, hsplit, hstate, hrecord⟩,
    (formatAlert_eq_ok hmessage).1, hold, hnew, hbody,
    formatDisplay_ne hunambiguous (by omega), hshift'⟩

theorem pacificDaylight_unambiguous : pacificDaylight.Unambiguous := by
  intro time time' _
  simp only [pacificDaylight]
  omega

/-- The slip of five hours, as Alice reads it. -/
theorem time_change_is_shown_slippedLaunch : ∃ effects stored' message,
    watcher.step [soonRecord] (testCall [slippedLaunch] (kNow + 300)) = .ok (effects, stored') ∧
      .send message "alice" ∈ effects ∧
      message.body = "New estimated liftoff: 2026-06-09 16:45 PDT. Was 2026-06-09 11:45 PDT." ∧
      ∃ launch record old new,
        (testCall [slippedLaunch] (kNow + 300)).DecidesOn [soonRecord] launch record ∧
        record.lastFacts.launchTime = some old ∧ launch.launchTime = some new ∧
        formatDisplay (some new) pacificDaylight ≠ formatDisplay (some old) pacificDaylight ∧
        1800 ≤ |new - old| := by
  obtain ⟨effects, stored', message, hstep, hsend, hkind, hbody⟩ : ∃ effects stored' message,
      watcher.step [soonRecord] (testCall [slippedLaunch] (kNow + 300)) = .ok (effects, stored') ∧
        effects[5]? = some (.send message "alice") ∧
        message.alertKind = "correction:" ++ CorrectionReason.timeChanged.toString ∧
        message.body = "New estimated liftoff: 2026-06-09 16:45 PDT. Was 2026-06-09 11:45 PDT." :=
    ⟨_, _, _, rfl, rfl, by decide, by decide⟩
  have hin := List.mem_of_getElem? hsend
  have hzone : makeConfig.displayZone (testCall [slippedLaunch] (kNow + 300)).env.locateZone =
    .ok pacificDaylight := rfl
  obtain ⟨launch, record, old, new, hon, -, hold, hnew, -, hdiffer, hfar⟩ :=
    time_change_is_shown hstep hzone pacificDaylight_unambiguous (by decide) hin hkind
  exact ⟨effects, stored', message, hstep, hin, hbody, launch, record, old, new, hon, hold, hnew,
    hdiffer, hfar⟩

end RocketWatcher
