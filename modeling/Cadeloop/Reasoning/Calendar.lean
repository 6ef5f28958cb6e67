import Mathlib

/-!
# The Gregorian calendar

The calendar day by day: from any date to the next, with the leap rule in force in every year.
Dates are also counted in days from 1 March of year 0, in years that begin in March: the leap day
is then the last of its year, and the months before it fall into a fixed pattern.
-/

namespace Cadeloop.Reasoning.Calendar

/-! ## 1. Day by day -/

inductive Weekday where
  | sun | mon | tue | wed | thu | fri | sat
  deriving DecidableEq

inductive Month where
  | jan | feb | mar | apr | may | jun | jul | aug | sep | oct | nov | dec
  deriving DecidableEq

def Weekday.next : Weekday → Weekday
  | .sun => .mon
  | .mon => .tue
  | .tue => .wed
  | .wed => .thu
  | .thu => .fri
  | .fri => .sat
  | .sat => .sun

def Month.next : Month → Month
  | .jan => .feb
  | .feb => .mar
  | .mar => .apr
  | .apr => .may
  | .may => .jun
  | .jun => .jul
  | .jul => .aug
  | .aug => .sep
  | .sep => .oct
  | .oct => .nov
  | .nov => .dec
  | .dec => .jan

def Leap (year : Nat) : Prop := year % 4 = 0 ∧ (year % 100 ≠ 0 ∨ year % 400 = 0)

instance (year : Nat) : Decidable (Leap year) := inferInstanceAs (Decidable (_ ∧ _))

def Month.length (year : Nat) : Month → Nat
  | .feb => if Leap year then 29 else 28
  | .apr | .jun | .sep | .nov => 30
  | _ => 31

structure Date where
  weekday : Weekday
  year : Nat
  month : Month
  day : Nat
  deriving DecidableEq

def Date.next (t : Date) : Date :=
  if t.day < t.month.length t.year then { t with weekday := t.weekday.next, day := t.day + 1 }
  else
    { weekday := t.weekday.next
      year := if t.month = .dec then t.year + 1 else t.year
      month := t.month.next
      day := 1 }

/-- Sunday is 0. -/
def Weekday.index : Weekday → Nat
  | .sun => 0
  | .mon => 1
  | .tue => 2
  | .wed => 3
  | .thu => 4
  | .fri => 5
  | .sat => 6

theorem Weekday.next_index (w : Weekday) : w.next.index = (w.index + 1) % 7 := by
  cases w <;> rfl

theorem Weekday.index_lt (w : Weekday) : w.index < 7 := by
  cases w <;> decide

theorem Date.next_weekday (t : Date) : t.next.weekday = t.weekday.next := by
  unfold Date.next
  split <;> rfl

/-! ## 2. Years from March -/

/-- The days from 1 March of year 0 to 1 March of `year`. -/
def marchStart (year : Nat) : Nat := 365 * year + year / 4 - year / 100 + year / 400

theorem marchStart_succ (year : Nat) :
    marchStart (year + 1) = marchStart year + if Leap (year + 1) then 366 else 365 := by
  -- a quotient goes up by one where the divisor divides
  have hquot : ∀ n, 0 < n → (year + 1) / n = year / n + if (year + 1) % n = 0 then 1 else 0 := by
    intro n hn
    rw [Nat.succ_div]
    simp only [Nat.dvd_iff_mod_eq_zero]
  have hle : year / 100 ≤ 365 * year := by omega
  have h100 : (year + 1) % 100 = 0 → (year + 1) % 4 = 0 := by omega
  have h400 : (year + 1) % 400 = 0 → (year + 1) % 100 = 0 := by omega
  unfold marchStart
  rw [hquot 4 (by decide), hquot 100 (by decide), hquot 400 (by decide)]
  generalize year / 4 = q4, year / 100 = q100, year / 400 = q400 at hle ⊢
  by_cases h4 : (year + 1) % 4 = 0
  · by_cases hc : (year + 1) % 100 = 0
    · by_cases he : (year + 1) % 400 = 0
      · rw [if_pos h4, if_pos hc, if_pos he, if_pos ⟨h4, .inr he⟩]
        omega
      · rw [if_pos h4, if_pos hc, if_neg he, if_neg (fun hleap => hleap.2.elim (· hc) he)]
        omega
    · rw [if_pos h4, if_neg hc, if_neg (fun he => hc (h400 he)), if_pos ⟨h4, .inl hc⟩]
      omega
  · rw [if_neg h4, if_neg (fun hc => h4 (h100 hc)), if_neg (fun he => h4 (h100 (h400 he))),
      if_neg (fun hleap => h4 hleap.1)]
    omega

/-- Eras of 400 years are alike. -/
theorem marchStart_era (era yoe : Nat) (h : yoe < 400) :
    marchStart (400 * era + yoe) = 146097 * era + (365 * yoe + yoe / 4 - yoe / 100) := by
  unfold marchStart
  omega

/-- The months from March. -/
def marchMonth : Nat → Month
  | 0 => .mar
  | 1 => .apr
  | 2 => .may
  | 3 => .jun
  | 4 => .jul
  | 5 => .aug
  | 6 => .sep
  | 7 => .oct
  | 8 => .nov
  | 9 => .dec
  | 10 => .jan
  | _ => .feb

/-- The days of a year from March that precede its month `mp`. -/
def monthStart (mp : Nat) : Nat := (153 * mp + 2) / 5

theorem marchMonth_next {mp : Nat} (h : mp < 12) :
    (marchMonth mp).next = marchMonth (if mp = 11 then 0 else mp + 1) := by
  interval_cases mp <;> rfl

theorem marchMonth_dec {mp : Nat} (h : mp < 12) : marchMonth mp = .dec ↔ mp = 9 := by
  interval_cases mp <;> decide

/-- February is what is left of the year. -/
theorem monthStart_succ {mp : Nat} (h : mp < 11) (year : Nat) :
    monthStart (mp + 1) = monthStart mp + (marchMonth mp).length year := by
  interval_cases mp <;> rfl

theorem length_le {mp : Nat} (h : mp < 12) (year : Nat) :
    monthStart mp + (marchMonth mp).length year ≤ monthStart (mp + 1) := by
  by_cases hfeb : mp = 11
  · subst hfeb
    show 337 + (if Leap year then 29 else 28) ≤ 367
    split <;> decide
  · exact (monthStart_succ (by omega) year).ge

theorem february_end (year : Nat) : monthStart 11 + (marchMonth 11).length year =
    if Leap year then 366 else 365 := by
  show 337 + (if Leap year then 29 else 28) = _
  split <;> rfl

/-- `t` is the date `z` days after 1 March of year 0: day `t.day` of month `mp` of the year from
March `year`. -/
structure Falls (z : Nat) (t : Date) (year mp : Nat) : Prop where
  month_lt : mp < 12
  year_eq : t.year = if mp < 10 then year else year + 1
  month_eq : t.month = marchMonth mp
  day_pos : 0 < t.day
  day_le : t.day ≤ t.month.length t.year
  count : z + 1 = marchStart year + monthStart mp + t.day

/-- The next date falls on the next day. -/
theorem Falls.next {z year mp : Nat} {t : Date} (h : Falls z t year mp) :
    ∃ year' mp', Falls (z + 1) t.next year' mp' := by
  have hmp := h.month_lt
  have hcount := h.count
  have hle := h.day_le
  unfold Date.next
  by_cases hday : t.day < t.month.length t.year
  · rw [if_pos hday]
    exact ⟨year, mp, hmp, h.year_eq, h.month_eq, Nat.succ_pos _, hday, by dsimp only; omega⟩
  rw [if_neg hday]
  have hlast : t.day = (marchMonth mp).length t.year := by
    rw [← h.month_eq]
    omega
  have hfirst : ∀ (m : Month) (y : Nat), 0 < m.length y := by
    intro m y
    cases m <;> simp only [Month.length] <;> try decide
    split <;> decide
  by_cases hfeb : mp = 11
  · -- the last day of February: the year from March ends with it
    refine ⟨year + 1, 0, by decide, ?_, ?_, Nat.one_pos, hfirst _ _, ?_⟩
    · have hdec : ¬ t.month = .dec := by
        rw [h.month_eq, marchMonth_dec hmp]
        omega
      dsimp only
      rw [if_neg hdec, h.year_eq, if_neg (by omega), if_pos (by decide)]
    · dsimp only
      rw [h.month_eq, marchMonth_next hmp, if_pos hfeb]
    · have hyear : t.year = year + 1 := by
        rw [h.year_eq, if_neg (by omega)]
      have hend := february_end (year + 1)
      have hnext := marchStart_succ year
      have hzero : monthStart 0 = 0 := rfl
      rw [hfeb] at hcount
      rw [hfeb, hyear] at hlast
      dsimp only
      omega
  · refine ⟨year, mp + 1, by omega, ?_, ?_, Nat.one_pos, hfirst _ _, ?_⟩
    · dsimp only
      rw [h.month_eq, h.year_eq]
      by_cases hdec : mp = 9
      · rw [if_pos ((marchMonth_dec hmp).mpr hdec), if_pos (by omega), if_neg (by omega)]
      · rw [if_neg (fun hm => hdec ((marchMonth_dec hmp).mp hm))]
        by_cases hlt : mp < 10
        · rw [if_pos hlt, if_pos (by omega)]
        · rw [if_neg hlt, if_neg (by omega)]
    · dsimp only
      rw [h.month_eq, marchMonth_next hmp, if_neg hfeb]
    · have hnext := monthStart_succ (by omega : mp < 11) t.year
      dsimp only
      omega

/-- A day lies in its year. -/
theorem Falls.in_year {z year mp : Nat} {t : Date} (h : Falls z t year mp) :
    marchStart year ≤ z ∧ z < marchStart (year + 1) := by
  have hmp := h.month_lt
  have hpos := h.day_pos
  have hcount := h.count
  have hle := h.day_le
  rw [h.month_eq] at hle
  have hyear : monthStart mp + t.day ≤ if Leap (year + 1) then 366 else 365 := by
    by_cases hfeb : mp = 11
    · have hnext : t.year = year + 1 := by
        rw [h.year_eq, if_neg (by omega)]
      rw [hfeb, hnext] at hle
      rw [hfeb, ← february_end]
      exact Nat.add_le_add_left hle _
    · -- the other months end before February
      have hend := (Nat.add_le_add_left hle (monthStart mp)).trans (length_le hmp t.year)
      have hjan : monthStart (mp + 1) ≤ 337 := by
        unfold monthStart
        omega
      split <;> omega
  have hsucc := marchStart_succ year
  omega

/-! ## 3. Days on -/

/-- The date `n` days after `first`. -/
def daysAfter (first : Date) : Nat → Date
  | 0 => first
  | n + 1 => (daysAfter first n).next

theorem daysAfter_weekday (first : Date) (n : Nat) :
    (daysAfter first n).weekday.index = (first.weekday.index + n) % 7 := by
  induction n with
  | zero => exact (Nat.mod_eq_of_lt first.weekday.index_lt).symm
  | succ n ih =>
    rw [daysAfter, Date.next_weekday, Weekday.next_index, ih]
    omega

theorem daysAfter_falls {z year mp : Nat} {first : Date} (h : Falls z first year mp) (n : Nat) :
    ∃ year' mp', Falls (z + n) (daysAfter first n) year' mp' := by
  induction n with
  | zero => exact ⟨year, mp, h⟩
  | succ n ih =>
    obtain ⟨year', mp', hfalls⟩ := ih
    exact hfalls.next

end Cadeloop.Reasoning.Calendar
