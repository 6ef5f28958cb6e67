import Cadeloop.Reasoning.Calendar
import Cadeloop.Reasoning.Numerals

/-!
# The Date header (`crates/pyshim/src/http.rs`)

The date line of a response, built from a count of seconds by the civil-from-days arithmetic and
kept for the second it was built in.  The arithmetic is the source's, on `i64`s: a result that
would not fit is no result here, and neither is an index out of its table.
-/

namespace Cadeloop.Pyshim.HttpDate

open Cadeloop.Reasoning Calendar

/-! ## 1. The source -/

def i64 (x : Int) : Option Int := if -2 ^ 63 ≤ x ∧ x < 2 ^ 63 then some x else none

-- `x as usize`
def asUsize (x : Int) : Nat := (x % 2 ^ 64).toNat

-- `{}`
def shown (x : Int) : Bytes := (if x < 0 then ascii "-" else []) ++ numeral 10 x.natAbs

-- `{:02}`
def shown2 (x : Int) : Bytes :=
  let sign := if x < 0 then ascii "-" else []
  let digits := numeral 10 x.natAbs
  sign ++ List.replicate (2 - sign.length - digits.length) 48 ++ digits

def days : List Bytes :=
  [ascii "Sun", ascii "Mon", ascii "Tue", ascii "Wed", ascii "Thu", ascii "Fri", ascii "Sat"]

def months : List Bytes :=
  [ascii "Jan", ascii "Feb", ascii "Mar", ascii "Apr", ascii "May", ascii "Jun", ascii "Jul",
    ascii "Aug", ascii "Sep", ascii "Oct", ascii "Nov", ascii "Dec"]

/-- Year, month and day of the month, `days` after 1 January 1970. -/
def civilFromDays (days : Int) : Option (Int × Int × Int) := do
  let z ← i64 (days + 719468)
  -- `div_euclid` and `rem_euclid`; the other divisions truncate
  let era := z / 146097
  let doe := z % 146097
  let doe₁ ← i64 (doe - doe.tdiv 1460)
  let doe₂ ← i64 (doe₁ + doe.tdiv 36524)
  let doe₃ ← i64 (doe₂ - doe.tdiv 146096)
  let yoe := doe₃.tdiv 365
  let eraYears ← i64 (era * 400)
  let y ← i64 (yoe + eraYears)
  let yearDays ← i64 (365 * yoe)
  let leapDays ← i64 (yearDays + yoe.tdiv 4)
  let before ← i64 (leapDays - yoe.tdiv 100)
  let doy ← i64 (doe - before)
  let doy₁ ← i64 (5 * doy)
  let doy₂ ← i64 (doy₁ + 2)
  let mp := doy₂.tdiv 153
  let mp₁ ← i64 (153 * mp)
  let mp₂ ← i64 (mp₁ + 2)
  let d₁ ← i64 (doy - mp₂.tdiv 5)
  let d ← i64 (d₁ + 1)
  let month ← (if mp < 10 then i64 (mp + 3) else i64 (mp - 9))
  let year ← (if month ≤ 2 then i64 (y + 1) else some y)
  some (year, month, d)

/-- `none` where the arithmetic would wrap or an index panic. -/
def buildDateLine (unixSecs : UInt64) : Option Bytes := do
  let days ← i64 (unixSecs / 86400).toNat
  let secs := (unixSecs % 86400).toNat
  let (year, month, d) ← civilFromDays days
  let weekday ← i64 (days + 4)
  let dayName ← HttpDate.days[asUsize (weekday % 7)]?
  let month ← i64 (month - 1)
  let monthName ← months[asUsize month]?
  some (ascii "date: " ++ dayName ++ ascii ", " ++ shown2 d ++ ascii " " ++ monthName ++ ascii " " ++
    shown year ++ ascii " " ++ shown2 (secs / 3600 : Nat) ++ ascii ":" ++
    shown2 (secs / 60 % 60 : Nat) ++ ascii ":" ++ shown2 (secs % 60 : Nat) ++ ascii " GMT\r\n")

-- the fields of `NetState` that cache the line
structure NetState where
  httpDateSecs : UInt64
  httpDateLine : Bytes

def NetState.new : NetState := { httpDateSecs := 0, httpDateLine := [] }

/-- The line of a second, built only where the one kept is of another. -/
def dateLine (net : NetState) (unixSecs : UInt64) : Option (Bytes × NetState) :=
  if net.httpDateSecs ≠ unixSecs ∨ net.httpDateLine = [] then
    (buildDateLine unixSecs).map fun line =>
      (line, { httpDateSecs := unixSecs, httpDateLine := line })
  else some (net.httpDateLine, net)

/-! ## 2. Civil from days -/

/-- A result that is a count goes on as that count. -/
theorem i64_bind {α : Type} {x : Int} (n : Nat) (hx : x = n) (hn : n < 2 ^ 63) (next : Int → Option α) :
    (i64 x >>= next) = next n := by
  have hfits : i64 x = some x := if_pos (by omega)
  rw [hfits, hx]
  rfl

theorem tdiv_nat (a : Nat) (b : Int) : (a : Int).tdiv b = a / b :=
  Int.tdiv_eq_ediv_of_nonneg (Int.natCast_nonneg a)

-- the day of the era less the leap days before it
def evened (doe : Nat) : Nat := doe - doe / 1460 + doe / 36524 - doe / 146096

theorem civilFromDays_nat {z era doe yoe doy mp : Nat} (hlow : 719468 ≤ z) (hhigh : z < 2 ^ 60)
    (hera : era = z / 146097) (hdoe : doe = z % 146097) (hyoe : yoe = evened doe / 365)
    (hdoy : doy + (365 * yoe + yoe / 4 - yoe / 100) = doe) (hmp : mp = (5 * doy + 2) / 153)
    (hlast : mp < 12) (hd : (153 * mp + 2) / 5 ≤ doy) :
    civilFromDays ((z : Int) - 719468) = some
      (((yoe + era * 400 + if mp < 10 then 0 else 1 : Nat) : Int),
        ((if mp < 10 then mp + 3 else mp - 9 : Nat) : Int), ((doy - (153 * mp + 2) / 5 + 1 : Nat) : Int)) := by
  have hlt : doe < 146097 := hdoe ▸ Nat.mod_lt z (by decide)
  have hyoelt : yoe ≤ 401 := by
    unfold evened at hyoe
    omega
  unfold civilFromDays
  refine (i64_bind z (by omega) (by omega) _).trans ?_
  rw [show (z : Int) / 146097 = era by omega, show (z : Int) % 146097 = doe by omega]
  refine (i64_bind (doe - doe / 1460) (by rw [tdiv_nat]; omega) (by omega) _).trans ?_
  refine (i64_bind (doe - doe / 1460 + doe / 36524) (by rw [tdiv_nat]; omega)
    (by omega) _).trans ?_
  refine (i64_bind (evened doe) (by rw [tdiv_nat]; unfold evened; omega)
    (by unfold evened; omega) _).trans ?_
  rw [show (evened doe : Int).tdiv 365 = yoe by rw [tdiv_nat]; omega]
  refine (i64_bind (era * 400) (by omega) (by omega) _).trans ?_
  refine (i64_bind (yoe + era * 400) (by omega) (by omega) _).trans ?_
  refine (i64_bind (365 * yoe) (by omega) (by omega) _).trans ?_
  refine (i64_bind (365 * yoe + yoe / 4) (by rw [tdiv_nat]; omega) (by omega) _).trans ?_
  refine (i64_bind (365 * yoe + yoe / 4 - yoe / 100) (by rw [tdiv_nat]; omega)
    (by omega) _).trans ?_
  refine (i64_bind doy (by omega) (by omega) _).trans ?_
  refine (i64_bind (5 * doy) (by omega) (by omega) _).trans ?_
  refine (i64_bind (5 * doy + 2) (by omega) (by omega) _).trans ?_
  rw [show ((5 * doy + 2 : Nat) : Int).tdiv 153 = mp by rw [tdiv_nat]; omega]
  refine (i64_bind (153 * mp) (by omega) (by omega) _).trans ?_
  refine (i64_bind (153 * mp + 2) (by omega) (by omega) _).trans ?_
  refine (i64_bind (doy - (153 * mp + 2) / 5) (by rw [tdiv_nat]; omega) (by omega) _).trans ?_
  refine (i64_bind (doy - (153 * mp + 2) / 5 + 1) (by omega) (by omega) _).trans ?_
  -- January and February belong to the next year
  by_cases hten : mp < 10
  · rw [if_pos (by omega), if_pos hten, if_pos hten]
    refine (i64_bind (mp + 3) (by omega) (by omega) _).trans ?_
    rw [if_neg (by omega)]
    rfl
  · rw [if_neg (by omega), if_neg hten, if_neg hten]
    refine (i64_bind (mp - 9) (by omega) (by omega) _).trans ?_
    rw [if_pos (by omega)]
    exact i64_bind (yoe + era * 400 + 1) (by omega) (by omega) _

/-! ## 3. The date a day falls on -/

theorem evened_succ {doe : Nat} (h : doe + 1 < 146097) : evened doe ≤ evened (doe + 1) := by
  -- a fourth century ends with an era, so the last two terms do not both go against it
  have hcentury : (doe + 1) / 146096 + doe / 36524 ≤ (doe + 1) / 36524 + doe / 146096 := by omega
  have hfour : (doe + 1) / 1460 ≤ doe / 1460 + 1 := by omega
  have hle : doe / 1460 ≤ doe := Nat.div_le_self _ _
  have hless : doe / 146096 ≤ doe / 36524 := by omega
  unfold evened
  omega

theorem evened_mono {a b : Nat} (hab : a ≤ b) (hb : b < 146097) : evened a ≤ evened b := by
  induction b, hab using Nat.le_induction with
  | base => exact Nat.le_refl _
  | succ b hab ih => exact (ih (by omega)).trans (evened_succ hb)

-- the first and the last day of each year of an era
theorem evened_years : ∀ yoe < 400,
    365 * yoe ≤ evened (365 * yoe + yoe / 4 - yoe / 100) ∧
      evened (365 * yoe + yoe / 4 - yoe / 100 + if Leap (yoe + 1) then 365 else 364) <
        365 * (yoe + 1) := by
  decide +kernel

-- the leap year of the last year of an era is the era's last day
theorem leap_last {yoe : Nat} (h : yoe < 400) :
    365 * yoe + yoe / 4 - yoe / 100 + (if Leap (yoe + 1) then 365 else 364) < 146097 := by
  by_cases hleap : Leap (yoe + 1)
  · rw [if_pos hleap]
    omega
  · rw [if_neg hleap]
    omega

theorem year_of_era {doe yoe : Nat} (h : yoe < 400) (hfirst : 365 * yoe + yoe / 4 - yoe / 100 ≤ doe)
    (hlast : doe ≤ 365 * yoe + yoe / 4 - yoe / 100 + if Leap (yoe + 1) then 365 else 364) :
    yoe = evened doe / 365 := by
  obtain ⟨hlow, hhigh⟩ := evened_years yoe h
  have hera := leap_last h
  have hfrom := evened_mono hfirst (by omega)
  have hto := evened_mono hlast hera
  omega

/-- Leap years recur with the era. -/
theorem leap_era (era yoe : Nat) : Leap (400 * era + yoe) ↔ Leap yoe := by
  unfold Leap
  omega

/-- The month of a day, and the day of the month. -/
theorem month_of_year {mp doy day : Nat} (hday : 0 < day) (hdoy : doy + 1 = monthStart mp + day)
    (hlen : monthStart mp + day ≤ monthStart (mp + 1)) :
    mp = (5 * doy + 2) / 153 ∧ (153 * mp + 2) / 5 ≤ doy ∧ doy - (153 * mp + 2) / 5 + 1 = day := by
  unfold monthStart at hdoy hlen
  omega

def monthNumber (m : Month) : Nat :=
  match m with
  | .jan => 1
  | .feb => 2
  | .mar => 3
  | .apr => 4
  | .may => 5
  | .jun => 6
  | .jul => 7
  | .aug => 8
  | .sep => 9
  | .oct => 10
  | .nov => 11
  | .dec => 12

theorem monthNumber_march {mp : Nat} (h : mp < 12) :
    monthNumber (marchMonth mp) = if mp < 10 then mp + 3 else mp - 9 := by
  interval_cases mp <;> rfl

/-- The arithmetic finds the date of the day. -/
theorem civilFromDays_falls {z year mp : Nat} {t : Date} (h : Falls z t year mp)
    (hlow : 719468 ≤ z) (hhigh : z < 2 ^ 60) :
    civilFromDays ((z : Int) - 719468) =
      some ((t.year : Int), (monthNumber t.month : Int), (t.day : Int)) := by
  have hmp := h.month_lt
  have hcount := h.count
  obtain ⟨hfrom, hto⟩ := h.in_year
  -- the year in its era, and the day in its year
  have hyear : year = 400 * (year / 400) + year % 400 := (Nat.div_add_mod _ _).symm
  have hyoe : year % 400 < 400 := Nat.mod_lt _ (by decide)
  generalize year / 400 = era at hyear
  generalize year % 400 = yoe at hyear hyoe
  subst hyear
  rw [marchStart_succ, Nat.add_assoc (400 * era), if_congr (leap_era era (yoe + 1)) rfl rfl,
    marchStart_era era yoe hyoe] at hto
  rw [marchStart_era era yoe hyoe] at hfrom hcount
  obtain ⟨doy, hz⟩ : ∃ doy, z = 146097 * era + (365 * yoe + yoe / 4 - yoe / 100) + doy :=
    Nat.exists_eq_add_of_le hfrom
  have hlast : doy ≤ if Leap (yoe + 1) then 365 else 364 := by
    split at hto <;> rename_i hleap
    · rw [if_pos hleap]
      omega
    · rw [if_neg hleap]
      omega
  have hmonth : monthStart mp + t.day ≤ monthStart (mp + 1) := by
    have hle := h.day_le
    rw [h.month_eq] at hle
    exact (Nat.add_le_add_left hle _).trans (length_le hmp t.year)
  obtain ⟨hmonth, hbefore, hday⟩ := month_of_year h.day_pos (by omega : doy + 1 = _) hmonth
  have hdoe : 365 * yoe + yoe / 4 - yoe / 100 + doy < 146097 := by
    have hleap := leap_last hyoe
    omega
  have hera : era = z / 146097 := by omega
  have hmod : 365 * yoe + yoe / 4 - yoe / 100 + doy = z % 146097 := by omega
  rw [civilFromDays_nat hlow hhigh hera hmod (year_of_era hyoe (Nat.le_add_right _ _) (by omega))
    (Nat.add_comm _ _) hmonth hmp hbefore]
  have hyears : yoe + era * 400 + (if mp < 10 then 0 else 1) = t.year := by
    rw [h.year_eq]
    split <;> omega
  rw [hyears, ← monthNumber_march hmp, ← h.month_eq, hday]

/-- The day of the epoch. -/
def epoch : Date := { weekday := .thu, year := 1970, month := .jan, day := 1 }

theorem epoch_falls : Falls 719468 epoch 1969 10 where
  month_lt := by decide
  year_eq := rfl
  month_eq := rfl
  day_pos := by decide
  day_le := by decide
  count := rfl

theorem civilFromDays_days {n : Nat} (h : n < 2 ^ 59) :
    civilFromDays n = some (((daysAfter epoch n).year : Int),
      (monthNumber (daysAfter epoch n).month : Int), ((daysAfter epoch n).day : Int)) := by
  obtain ⟨year, mp, hfalls⟩ := daysAfter_falls epoch_falls n
  have hciv := civilFromDays_falls hfalls (Nat.le_add_right _ _) (by omega)
  rwa [show ((719468 + n : Nat) : Int) - 719468 = n by omega] at hciv

/-! ## 4. The IMF-fixdate -/

def weekdayName : Weekday → Bytes
  | .sun => ascii "Sun"
  | .mon => ascii "Mon"
  | .tue => ascii "Tue"
  | .wed => ascii "Wed"
  | .thu => ascii "Thu"
  | .fri => ascii "Fri"
  | .sat => ascii "Sat"

def monthName : Month → Bytes
  | .jan => ascii "Jan"
  | .feb => ascii "Feb"
  | .mar => ascii "Mar"
  | .apr => ascii "Apr"
  | .may => ascii "May"
  | .jun => ascii "Jun"
  | .jul => ascii "Jul"
  | .aug => ascii "Aug"
  | .sep => ascii "Sep"
  | .oct => ascii "Oct"
  | .nov => ascii "Nov"
  | .dec => ascii "Dec"

def twoDigits (n : Nat) : Bytes := [digitByte (n / 10), digitByte (n % 10)]

/-- Day name, day, month and year of the date, hour, minute and second of `secs` seconds into it. -/
def imfFixdate (t : Date) (secs : Nat) : Bytes :=
  weekdayName t.weekday ++ ascii ", " ++ twoDigits t.day ++ ascii " " ++ monthName t.month ++
    ascii " " ++ numeral 10 t.year ++ ascii " " ++ twoDigits (secs / 3600) ++ ascii ":" ++
    twoDigits (secs % 3600 / 60) ++ ascii ":" ++ twoDigits (secs % 60) ++ ascii " GMT"

theorem shown2_twoDigits : ∀ n : Nat, n < 100 → shown2 n = twoDigits n := by
  decide +kernel

theorem shown_nat (n : Nat) : shown n = numeral 10 n := by
  unfold shown
  rw [if_neg (by omega)]
  rfl

theorem asUsize_nat {n : Nat} (h : n < 2 ^ 64) : asUsize n = n := by
  unfold asUsize
  omega

theorem days_index (w : Weekday) : days[w.index]? = some (weekdayName w) := by
  cases w <;> rfl

theorem months_number (m : Month) : months[monthNumber m - 1]? = some (monthName m) := by
  cases m <;> rfl

theorem monthNumber_le (m : Month) : 0 < monthNumber m ∧ monthNumber m ≤ 12 := by
  cases m <;> decide

theorem length_le_31 (m : Month) (year : Nat) : m.length year ≤ 31 := by
  cases m <;> simp only [Month.length] <;> try decide
  split <;> decide

/-- **The Date header is the proleptic Gregorian date**: for every count of seconds, nothing wraps
and every index is in its table, and the line is the date found by stepping day by day from
Thursday, 1 January 1970. -/
theorem buildDateLine_fixdate (unixSecs : UInt64) :
    buildDateLine unixSecs = some (ascii "date: " ++
      imfFixdate (daysAfter epoch (unixSecs.toNat / 86400)) (unixSecs.toNat % 86400) ++
      ascii "\r\n") := by
  have hbound := unixSecs.toNat_lt
  have hdays : (unixSecs / 86400).toNat = unixSecs.toNat / 86400 := UInt64.toNat_div _ _
  have hsecs : (unixSecs % 86400).toNat = unixSecs.toNat % 86400 := UInt64.toNat_mod _ _
  have hday : unixSecs.toNat / 86400 < 2 ^ 59 := by omega
  have hsec : unixSecs.toNat % 86400 < 86400 := Nat.mod_lt _ (by decide)
  unfold buildDateLine
  rw [hdays, hsecs]
  generalize unixSecs.toNat / 86400 = n at hday ⊢
  generalize unixSecs.toNat % 86400 = secs at hsec ⊢
  have hdate : (daysAfter epoch n).day < 100 := by
    obtain ⟨year, mp, hfalls⟩ := daysAfter_falls epoch_falls n
    have hle := hfalls.day_le.trans (length_le_31 _ _)
    omega
  have hweekday : (daysAfter epoch n).weekday.index = (n + 4) % 7 := by
    rw [daysAfter_weekday, Nat.add_comm]
    rfl
  obtain ⟨hmonth, hmonthle⟩ := monthNumber_le (daysAfter epoch n).month
  refine (i64_bind n rfl (by omega) _).trans ?_
  rw [civilFromDays_days hday, Option.bind_eq_bind, Option.bind_some]
  refine (i64_bind (n + 4) (by omega) (by omega) _).trans ?_
  rw [show ((n + 4 : Nat) : Int) % 7 = ((n + 4) % 7 : Nat) by omega, asUsize_nat (by omega), ← hweekday,
    days_index, Option.bind_eq_bind, Option.bind_some]
  refine (i64_bind (monthNumber (daysAfter epoch n).month - 1) (by omega) (by omega) _).trans ?_
  rw [asUsize_nat (by omega), months_number]
  have hminute : secs / 60 % 60 = secs % 3600 / 60 := by omega
  have htail : ascii " GMT\r\n" = ascii " GMT" ++ ascii "\r\n" := by decide
  simp only [Option.bind_some]
  rw [shown2_twoDigits _ hdate, shown_nat, shown2_twoDigits _ (by omega), shown2_twoDigits _ (by omega),
    shown2_twoDigits _ (by omega), hminute, htail]
  simp only [imfFixdate, List.append_assoc]

example : buildDateLine 951868799 = some (ascii "date: Tue, 29 Feb 2000 23:59:59 GMT\r\n") := by
  decide +kernel

/-! ## 5. The line kept for a second -/

/-- What is kept is the line of the second it is kept for. -/
def Fresh (net : NetState) : Prop :=
  net.httpDateLine = [] ∨ buildDateLine net.httpDateSecs = some net.httpDateLine

theorem Fresh.dateLine {net : NetState} (h : Fresh net) (unixSecs : UInt64) :
    ∃ line net', dateLine net unixSecs = some (line, net') ∧ buildDateLine unixSecs = some line ∧
      Fresh net' := by
  have hbuilt := buildDateLine_fixdate unixSecs
  unfold HttpDate.dateLine
  by_cases hstale : net.httpDateSecs ≠ unixSecs ∨ net.httpDateLine = []
  · rw [if_pos hstale, hbuilt]
    exact ⟨_, _, rfl, rfl, .inr hbuilt⟩
  · rw [if_neg hstale]
    rw [not_or, not_not] at hstale
    obtain ⟨hsecs, hkept⟩ := hstale
    have hline := h.resolve_left hkept
    rw [hsecs] at hline
    exact ⟨_, _, rfl, hline, h⟩

-- the lines of the responses of a run, sent at these seconds
def dateLines (net : NetState) : List UInt64 → Option (List Bytes)
  | [] => some []
  | unixSecs :: later => do
    let (line, net) ← dateLine net unixSecs
    let lines ← dateLines net later
    some (line :: lines)

/-- Whatever the seconds are and however they repeat, each response has the line of its own. -/
theorem dateLines_built {net : NetState} (h : Fresh net) (seconds : List UInt64) :
    dateLines net seconds = seconds.mapM buildDateLine := by
  induction seconds generalizing net with
  | nil => rfl
  | cons unixSecs later ih =>
    obtain ⟨line, net', hline, hbuilt, hfresh⟩ := h.dateLine unixSecs
    rw [dateLines, hline, List.mapM_cons, hbuilt]
    simp only [Option.bind_eq_bind, Option.bind_some, Option.pure_def]
    rw [ih hfresh]

theorem dateLines_new (seconds : List UInt64) :
    dateLines .new seconds = seconds.mapM buildDateLine := dateLines_built (.inl rfl) seconds

end Cadeloop.Pyshim.HttpDate
