/-
Written instants, read back.

The date of a day lies in the calendar and denotes that day again: a day is
placed by century, cycle of four years, year and day of the year, years beginning
in March, and the rules for dates say where (`Placed`).  So the text of every
instant that the calendar holds, leap seconds included, denotes that instant:
`parse?_text`.

## What is asked, and what is not

`InCalendar` is decidable and says that the second lies between the first and the last
one of the calendar, and that the nanoseconds go beyond a second only in the last second
of a minute.  Years of more than four digits and those before the year nought have a
sign in their texts, and are covered.  An instant outside is written too, but its text
may denote another one or none.

The calendar is the one without a gap, carried on to years before it was introduced.  Of
texts that are read, only those are covered that are written: other offsets, fractions
of other lengths and lower-case letters are read by rules which only the definition of
the reader states.
-/
import Mathlib
import ScanGraph.Instant
import ScanGraph.Proofs.Text.Reading

namespace ScanGraph

namespace Instant

/-! ## Days -/

/-- A day of an era of 400 years, by century, cycle of four years, year and day of the year. -/
structure Placed (day c q y d : Int) : Prop where
  sum : day = 36524 * c + 1461 * q + 365 * y + d
  century : 0 ≤ c ∧ c ≤ 3
  cycle : 0 ≤ q ∧ q ≤ 24
  year : 0 ≤ y ∧ y ≤ 3
  rest : 0 ≤ d ∧ d ≤ 365
  /-- The last day of a leap year. -/
  leap : d = 365 → y = 3 ∧ (q ≤ 23 ∨ c = 3)

section Days

variable {day c q y d : Int}

theorem exists_placed (h : 0 ≤ day) (h' : day < 146097) : ∃ c q y d, Placed day c q y d := by
  obtain ⟨c, r, hday, hc, hr, hlast⟩ : ∃ c r : Int, day = 36524 * c + r ∧ (0 ≤ c ∧ c ≤ 3) ∧
      (0 ≤ r ∧ r ≤ 36524) ∧ (r = 36524 → c = 3) := by
    by_cases hend : day = 146096
    · exact ⟨3, 36524, by omega, by omega, by omega, by omega⟩
    · exact ⟨day / 36524, day % 36524, by omega, by omega, by omega, by omega⟩
  obtain ⟨y, d, hrest, hy, hd, hleap⟩ : ∃ y d : Int, r % 1461 = 365 * y + d ∧ (0 ≤ y ∧ y ≤ 3) ∧
      (0 ≤ d ∧ d ≤ 365) ∧ (d = 365 → y = 3) := by
    by_cases hend : r % 1461 = 1460
    · exact ⟨3, 365, by omega, by omega, by omega, by omega⟩
    · exact ⟨r % 1461 / 365, r % 1461 % 365, by omega, by omega, by omega, by omega⟩
  exact ⟨c, r / 1461, y, d, by omega, hc, by omega, hy, hd, by omega⟩

theorem Placed.yearOfEra (h : Placed day c q y d) :
    (day - day / 1460 + day / 36524 - day / 146096) / 365 = 100 * c + 4 * q + y := by
  obtain ⟨hsum, hc, hq, hy, hd, hleap⟩ := h
  have hfourth : day / 1460 = 25 * c + q + (24 * c + q + 365 * y + d) / 1460 := by omega
  have hcarry : (24 * c + q + 365 * y + d) / 1460
      = if 1460 ≤ 24 * c + q + 365 * y + d then 1 else 0 := by
    split <;> omega
  have hcentury : day / 36524 - day / 146096 = c := by
    by_cases hend : day = 146096
    · omega
    · have hinside : 1461 * q + 365 * y + d < 36524 := by omega
      have hc' : day / 36524 = c := by omega
      omega
  have hsplit : day - day / 1460 + day / 36524 - day / 146096 = day - day / 1460 + c := by omega
  rw [hsplit, hfourth, hcarry]
  split <;> omega

theorem Placed.dayOfYear (h : Placed day c q y d) :
    day - (365 * (100 * c + 4 * q + y) + (100 * c + 4 * q + y) / 4 - (100 * c + 4 * q + y) / 100)
      = d := by
  obtain ⟨hsum, hc, hq, hy, -, -⟩ := h
  have hfourth : (100 * c + 4 * q + y) / 4 = 25 * c + q := by omega
  have hcentury : (100 * c + 4 * q + y) / 100 = c := by omega
  omega

/-- The month of a day of the year, the first month being March. -/
def monthOf (d : Int) : Int :=
  (5 * d + 2) / 153

/-- The place of a day of the year in its month. -/
def placeOf (d : Int) : Int :=
  d - (153 * monthOf d + 2) / 5 + 1

theorem monthOf_bounds (hd : 0 ≤ d ∧ d ≤ 365) : 0 ≤ monthOf d ∧ monthOf d ≤ 11 := by
  unfold monthOf
  omega

/-- The year of a day of an era; it begins in January. -/
def calendarYear (c q y d era : Int) : Int :=
  100 * c + 4 * q + y + 400 * era + if monthOf d < 10 then 0 else 1

/-- The month of a day of the year; the first one is January. -/
def calendarMonth (d : Int) : Nat :=
  (if monthOf d < 10 then monthOf d + 3 else monthOf d - 9).toNat

theorem Placed.dateOfDays_eq (h : Placed day c q y d) (era : Int) :
    dateOfDays (146097 * era + day - 719468)
      = (calendarYear c q y d era, calendarMonth d, (placeOf d).toNat) := by
  have hday : 0 ≤ day ∧ day < 146097 := by
    obtain ⟨hsum, hc, hq, hy, hd, hleap⟩ := h
    omega
  have hera : (146097 * era + day - 719468 + 719468) / 146097 = era := by omega
  have hrest : 146097 * era + day - 719468 + 719468 - era * 146097 = day := by omega
  have hmonth := monthOf_bounds h.rest
  unfold dateOfDays calendarYear calendarMonth
  simp only [hera, hrest, h.yearOfEra, h.dayOfYear]
  simp only [← monthOf.eq_1, ← placeOf.eq_1]
  split <;> simp only [Prod.mk.injEq, and_true] <;> split <;> omega

theorem placeOf_pos (d : Int) : 1 ≤ placeOf d := by
  unfold placeOf monthOf
  omega

theorem calendarMonth_bounds (hd : 0 ≤ d ∧ d ≤ 365) :
    1 ≤ calendarMonth d ∧ calendarMonth d ≤ 12 := by
  have hmonth := monthOf_bounds hd
  unfold calendarMonth
  split <;> omega

theorem Placed.daysOfDate_eq (h : Placed day c q y d) (era : Int) :
    daysOfDate (calendarYear c q y d era) (calendarMonth d) (placeOf d).toNat
      = 146097 * era + day - 719468 := by
  have hmonth := monthOf_bounds h.rest
  have hplace := placeOf_pos d
  have hcast : ((placeOf d).toNat : Int) = placeOf d := Int.toNat_of_nonneg (by omega)
  have hback : d = (153 * monthOf d + 2) / 5 + placeOf d - 1 := by
    unfold placeOf
    omega
  have hdate := h.dayOfYear
  have hyear : 0 ≤ 100 * c + 4 * q + y ∧ 100 * c + 4 * q + y < 400 := by
    obtain ⟨-, hc, hq, hy, -, -⟩ := h
    omega
  unfold daysOfDate calendarYear calendarMonth
  simp only [hcast]
  by_cases hlate : monthOf d < 10
  · have hnat : ((monthOf d + 3).toNat : Int) = monthOf d + 3 := Int.toNat_of_nonneg (by omega)
    have hshift : (monthOf d + 3 + 9) % 12 = monthOf d := by omega
    have hafter : ¬ (monthOf d + 3).toNat ≤ 2 := by omega
    have hera : (100 * c + 4 * q + y + 400 * era + 0) / 400 = era := by omega
    simp only [hlate, if_true, hafter, if_false, hnat, hshift, hera]
    omega
  · have hnat : ((monthOf d - 9).toNat : Int) = monthOf d - 9 := Int.toNat_of_nonneg (by omega)
    have hshift : (monthOf d - 9 + 9) % 12 = monthOf d := by omega
    have hafter : (monthOf d - 9).toNat ≤ 2 := by omega
    have hera : (100 * c + 4 * q + y + 400 * era + 1 - 1) / 400 = era := by omega
    simp only [hlate, if_true, if_false, hafter, hnat, hshift, hera]
    omega

theorem Placed.isLeap (h : Placed day c q y d) (hleap : d = 365) (era : Int) :
    isLeap (100 * c + 4 * q + y + 400 * era + 1) = true := by
  obtain ⟨-, hc, hq, -, -, hlast⟩ := h
  obtain ⟨hy, hcentury⟩ := hlast hleap
  simp only [Instant.isLeap, Bool.and_eq_true, Bool.or_eq_true, beq_iff_eq, bne_iff_ne]
  omega

theorem Placed.le_daysInMonth (h : Placed day c q y d) (era : Int) :
    (placeOf d).toNat ≤ daysInMonth (calendarYear c q y d era) (calendarMonth d) := by
  have hd := h.rest
  have hmonth := monthOf_bounds hd
  have hlong : (placeOf d).toNat ≤ 31 := by
    unfold placeOf monthOf
    omega
  have hshort : monthOf d = 1 ∨ monthOf d = 3 ∨ monthOf d = 6 ∨ monthOf d = 8 →
      (placeOf d).toNat ≤ 30 := by
    unfold placeOf monthOf
    omega
  have hfebruary : monthOf d = 11 → (placeOf d).toNat ≤ 28 ∨ d = 365 ∧ (placeOf d).toNat ≤ 29 := by
    unfold placeOf monthOf
    omega
  have hthirty : calendarMonth d = 4 ∨ calendarMonth d = 6 ∨ calendarMonth d = 9 ∨
      calendarMonth d = 11 → monthOf d = 1 ∨ monthOf d = 3 ∨ monthOf d = 6 ∨ monthOf d = 8 := by
    unfold calendarMonth
    split <;> omega
  have hsecond : calendarMonth d = 2 → monthOf d = 11 := by
    unfold calendarMonth
    split <;> omega
  unfold daysInMonth
  split
  · rename_i htwo
    have hlast := hsecond (beq_iff_eq.1 htwo)
    rcases hfebruary hlast with hplace | ⟨hleap, hplace⟩
    · split <;> omega
    · have hyear : calendarYear c q y d era = 100 * c + 4 * q + y + 400 * era + 1 := by
        unfold calendarYear
        rw [if_neg (by omega)]
      rw [hyear, if_pos (h.isLeap hleap era)]
      exact hplace
  · split
    · rename_i hmonths
      simp only [Bool.or_eq_true, beq_iff_eq, or_assoc] at hmonths
      exact hshort (hthirty hmonths)
    · exact hlong

/-- A day between the first and the last second of the calendar lies in a year of the calendar. -/
theorem Placed.calendarYear_bounds (h : Placed day c q y d) {era : Int}
    (hfirst : firstSecond ≤ 86400 * (146097 * era + day - 719468) + 86399)
    (hlast : 86400 * (146097 * era + day - 719468) ≤ lastSecond) :
    firstYear ≤ calendarYear c q y d era ∧ calendarYear c q y d era ≤ lastYear := by
  obtain ⟨hsum, hc, hq, hy, hd, -⟩ := h
  unfold firstSecond at hfirst
  unfold lastSecond at hlast
  have hera : -656 ≤ era ∧ era ≤ 655 := by omega
  have hcentury : c = 0 ∨ c = 1 ∨ c = 2 ∨ c = 3 := by omega
  have hyear : y = 0 ∨ y = 1 ∨ y = 2 ∨ y = 3 := by omega
  have hstart : ¬ monthOf d < 10 ↔ 306 ≤ d := by
    unfold monthOf
    omega
  unfold calendarYear firstYear lastYear
  rcases hcentury with rfl | rfl | rfl | rfl <;> rcases hyear with rfl | rfl | rfl | rfl <;>
    split <;> omega

end Days

theorem daysInMonth_le (year : Int) (month : Nat) : daysInMonth year month ≤ 31 := by
  unfold daysInMonth
  split_ifs <;> decide

theorem dayOf?_dateOfDays {days : Int} (h : firstSecond ≤ 86400 * days + 86399)
    (h' : 86400 * days ≤ lastSecond) :
    dayOf? (dateOfDays days).1 (dateOfDays days).2.1 (dateOfDays days).2.2 = some days := by
  obtain ⟨c, q, y, d, hplaced⟩ := exists_placed
    (Int.emod_nonneg (days + 719468) (by decide)) (Int.emod_lt_of_pos _ (by decide))
  have hdays : days = 146097 * ((days + 719468) / 146097) + (days + 719468) % 146097 - 719468 := by
    omega
  have hdate := hplaced.dateOfDays_eq ((days + 719468) / 146097)
  have hback := hplaced.daysOfDate_eq ((days + 719468) / 146097)
  have hlast := hplaced.le_daysInMonth ((days + 719468) / 146097)
  have hmonth := calendarMonth_bounds hplaced.rest
  have hplace := placeOf_pos d
  rw [← hdays] at hdate hback
  have hyear := hplaced.calendarYear_bounds (hdays ▸ h) (hdays ▸ h')
  rw [hdate]
  show dayOf? (calendarYear c q y d _) (calendarMonth d) (placeOf d).toNat = some days
  unfold dayOf?
  rw [if_pos ⟨hyear.1, hyear.2, hmonth.1, hmonth.2, by omega, hlast⟩, hback]

end Instant

namespace Text

/-! ## Digits with zeros in front -/

section Padded

variable {width n : Nat}

theorem isDigit_of_mem_padded {c : Char} (h : c ∈ padded width n) : c.isDigit = true := by
  rcases List.mem_append.1 h with h | h
  · rw [List.eq_of_mem_replicate h]
    decide
  · exact isDigit_of_mem_decimal h

theorem valueOf_replicate_append (k : Nat) (ds : List Char) :
    valueOf (List.replicate k '0' ++ ds) = valueOf ds := by
  induction k with
  | zero => rfl
  | succ k ih => exact ih

theorem valueOf_padded (width n : Nat) : valueOf (padded width n) = n :=
  (valueOf_replicate_append _ _).trans (valueOf_decimal n)

theorem padded_ne_nil (width n : Nat) : padded width n ≠ [] :=
  List.append_ne_nil_of_right_ne_nil _ (decimal_ne_nil n)

theorem length_padded (hwidth : 0 < width) (h : n < 10 ^ width) :
    (padded width n).length = width := by
  have hdigits := length_decimal_le hwidth h
  unfold padded
  rw [List.length_append, List.length_replicate]
  omega

end Padded

end Text

namespace Instant

open Text

/-! ## Reading -/

section Reading

variable {width n : Nat} {rest : List Char}

/-- Digits are read as far as they go, or as far as the width allows. -/
theorem digits?_append {ds : List Char} (hne : ds ≠ []) (hdigits : ∀ c ∈ ds, c.isDigit = true)
    (hwidth : ds.length ≤ width) (hrest : ds.length < width → Stops Char.isDigit rest) :
    digits? width (ds ++ rest) = some (valueOf ds, rest) := by
  have hstops : Stops Char.isDigit (rest.take (width - ds.length)) := by
    intro c hc
    rcases Nat.lt_or_ge ds.length width with hlt | hge
    · refine hrest hlt c ?_
      rwa [List.head?_take, if_neg (by omega)] at hc
    · rw [Nat.sub_eq_zero_of_le hge, List.take_zero] at hc
      cases hc
  have hrun : ((ds ++ rest).take width).takeWhile Char.isDigit = ds := by
    rw [List.take_append, List.take_of_length_le hwidth,
      takeWhile_append_of_stops hdigits hstops]
  unfold digits?
  simp only [hrun, List.isEmpty_iff, hne, if_false, List.drop_left]

theorem skipBlanks_cons {c : Char} (h : isBlank c = false) :
    skipBlanks (c :: rest) = c :: rest :=
  List.dropWhile_cons_of_neg (by simp [h])

theorem skipBlanks_append {ds : List Char} (hne : ds ≠ [])
    (hdigits : ∀ c ∈ ds, c.isDigit = true) : skipBlanks (ds ++ rest) = ds ++ rest := by
  obtain ⟨c, cs, rfl⟩ := List.exists_cons_of_ne_nil hne
  refine skipBlanks_cons (Bool.eq_false_iff.2 (fun hblank => ?_))
  exact absurd ((hdigits c List.mem_cons_self).symm.trans (isDigit_of_isBlank hblank)) (by decide)

theorem pair?_padded (h : n < 100) (rest : List Char) :
    pair? (padded 2 n ++ rest) = some (n, rest) := by
  have hlength : (padded 2 n).length = 2 := length_padded (by decide) h
  unfold pair?
  rw [skipBlanks_append (padded_ne_nil 2 n) (fun _ hc => isDigit_of_mem_padded hc),
    digits?_append (padded_ne_nil 2 n) (fun _ hc => isDigit_of_mem_padded hc) hlength.le
      (fun hlt => absurd hlength hlt.ne), valueOf_padded]

theorem mark?_cons {c : Char} (h : isBlank c = false) (rest : List Char) :
    mark? c (c :: rest) = some rest := by
  unfold mark? after?
  rw [skipBlanks_cons h]
  exact if_pos rfl

theorem digits?_year (n : Nat) (rest : List Char) :
    digits? (padded 4 n ++ '-' :: rest).length (padded 4 n ++ '-' :: rest)
      = some (n, '-' :: rest) := by
  rw [digits?_append (padded_ne_nil 4 n) (fun _ hc => isDigit_of_mem_padded hc)
      (by rw [List.length_append]; omega) (fun _ => stops_cons (by decide)), valueOf_padded]

theorem year?_yearChars (year : Int) (rest : List Char) :
    year? (yearChars year ++ '-' :: rest) = some (year, '-' :: rest) := by
  have hdigits : ∀ c ∈ padded 4 year.toNat, c.isDigit = true :=
    fun _ hc => isDigit_of_mem_padded hc
  unfold yearChars
  by_cases hfour : 0 ≤ year ∧ year ≤ 9999
  · have hlength : (padded 4 year.toNat).length = 4 := length_padded (by decide) (by omega)
    have hvalue : (year.toNat : Int) = year := Int.toNat_of_nonneg hfour.1
    rw [if_pos hfour]
    unfold year?
    rw [skipBlanks_append (padded_ne_nil 4 _) hdigits]
    obtain ⟨c, cs, hcons⟩ := List.exists_cons_of_ne_nil (padded_ne_nil 4 year.toNat)
    have hc : c.isDigit = true := hdigits c (hcons ▸ List.mem_cons_self)
    split
    · rename_i heq
      rw [hcons] at heq
      obtain rfl : c = '-' := (List.cons.inj heq).1
      cases hc
    · rename_i heq
      rw [hcons] at heq
      obtain rfl : c = '+' := (List.cons.inj heq).1
      cases hc
    · rw [digits?_append (padded_ne_nil 4 _) hdigits hlength.le
        (fun hlt => absurd hlength hlt.ne), valueOf_padded]
      exact congrArg (fun y => some (y, '-' :: rest)) hvalue
  · rw [if_neg hfour]
    unfold year?
    by_cases hnegative : year < 0
    · have hvalue : -(year.natAbs : Int) = year := by omega
      rw [if_pos hnegative, List.cons_append, skipBlanks_cons (by decide)]
      show (digits? _ _).map _ = _
      rw [digits?_year]
      exact congrArg (fun y => some (y, '-' :: rest)) hvalue
    · have hvalue : (year.natAbs : Int) = year := by omega
      rw [if_neg hnegative, List.cons_append, skipBlanks_cons (by decide)]
      show (digits? _ _).map _ = _
      rw [digits?_year]
      exact congrArg (fun y => some (y, '-' :: rest)) hvalue

theorem fraction?_padded {k m : Nat} (hk : 0 < k ∧ k ≤ 9) (h : m < 10 ^ k) :
    fraction? ('.' :: (padded k m ++ ['Z'])) = some (m * Nat.pow 10 (9 - k), ['Z']) := by
  have hdigits : ∀ c ∈ padded k m, c.isDigit = true := fun _ hc => isDigit_of_mem_padded hc
  have hstops : Stops Char.isDigit ['Z'] := stops_cons (by decide)
  have hrun := takeWhile_append_of_stops hdigits hstops
  have hrest := dropWhile_append_of_stops hdigits hstops
  have hlength := length_padded hk.1 h
  have hkept : (padded k m).take 9 = padded k m := List.take_of_length_le (by omega)
  unfold fraction?
  simp only [hrun, hrest, hkept, hlength, valueOf_padded, List.isEmpty_iff, padded_ne_nil, if_false]

theorem fraction?_fractionChars {nano : Nat} (h : nano < perSecond) :
    fraction? (fractionChars nano ++ ['Z']) = some (nano, ['Z']) := by
  unfold perSecond at h
  unfold fractionChars
  split
  · rename_i hzero
    rw [hzero]
    rfl
  · split
    · have hmillis : nano / 1000000 * Nat.pow 10 (9 - 3) = nano := by
        show nano / 1000000 * 1000000 = nano
        omega
      rw [List.cons_append, fraction?_padded (by decide) (by omega), hmillis]
    · split
      · have hmicros : nano / 1000 * Nat.pow 10 (9 - 6) = nano := by
          show nano / 1000 * 1000 = nano
          omega
        rw [List.cons_append, fraction?_padded (by decide) (by omega), hmicros]
      · rw [List.cons_append, fraction?_padded (by decide) h]
        simp

theorem bind_of_some {α β : Type} {x : Option α} {f : α → Option β} {a : α} (h : x = some a) :
    (x >>= f) = f a := by
  rw [h]
  rfl

theorem zone?_utc : zone? (skipBlanks ['Z']) = some (0, []) := by
  cbv

/-- An instant that the calendar holds: its nanoseconds go beyond a second only where a leap
second may stand, at the end of a minute. -/
structure InCalendar (t : Instant) : Prop where
  second : isSecond t.second = true
  nano : t.nano < perSecond ∨ t.second % 60 = 59 ∧ t.nano < 2 * perSecond

instance (t : Instant) : Decidable t.InCalendar :=
  decidable_of_iff
    (isSecond t.second = true ∧ (t.nano < perSecond ∨ t.second % 60 = 59 ∧ t.nano < 2 * perSecond))
    ⟨fun ⟨h, h'⟩ => ⟨h, h'⟩, fun h => ⟨h.second, h.nano⟩⟩

/-- The second that is shown and the fraction after it denote a time of day again, and so do those
of a leap second. -/
theorem timeOf?_shown {sec nano : Nat} (hsec : sec < 86400)
    (hnano : nano < perSecond ∨ sec % 60 = 59 ∧ nano < 2 * perSecond) :
    timeOf? (sec / 3600) (sec / 60 % 60) (sec % 60 + if perSecond ≤ nano then 1 else 0)
      (if perSecond ≤ nano then nano - perSecond else nano) = some (sec, nano) := by
  have hsum : sec / 3600 * 3600 + sec / 60 % 60 * 60 + sec % 60 = sec := by omega
  unfold timeOf?
  by_cases hleap : perSecond ≤ nano
  · have hlast : sec % 60 = 59 := by omega
    have hback : nano - perSecond + perSecond = nano := by omega
    rw [hlast] at hsum
    rw [if_pos hleap, if_pos hleap, hlast, if_pos (by omega), if_pos rfl, hsum, hback]
  · rw [if_neg hleap, if_neg hleap, if_pos (by omega), if_neg (by omega), Nat.add_zero, hsum]

theorem parse?_text {t : Instant} (h : t.InCalendar) : parse? t.text = some t := by
  have hsecond := h.second
  simp only [isSecond, Bool.and_eq_true, decide_eq_true_eq] at hsecond
  have hday : dayOf? (dateOfDays (t.second / 86400)).1 (dateOfDays (t.second / 86400)).2.1
      (dateOfDays (t.second / 86400)).2.2 = some (t.second / 86400) :=
    dayOf?_dateOfDays (by omega) (by omega)
  generalize hdays : t.second / 86400 = days at hday
  generalize hsec : (t.second - days * 86400).toNat = sec
  have hrange : t.second = days * 86400 + sec ∧ sec < 86400 := by omega
  rcases hdate : dateOfDays days with ⟨year, month, day⟩
  rw [hdate] at hday
  obtain ⟨⟨-, -, -, hmonth, -, hlast⟩, -⟩ := Option.ite_none_right_eq_some.1 hday
  have htwelve : month ≤ 12 := hmonth
  have hplace : day ≤ 31 := hlast.trans (daysInMonth_le year month)
  have hnano : t.nano < perSecond ∨ sec % 60 = 59 ∧ t.nano < 2 * perSecond :=
    h.nano.imp_right (fun ⟨hminute, hless⟩ => ⟨by omega, hless⟩)
  generalize hshown : (sec % 60 + if perSecond ≤ t.nano then 1 else 0) = shown
  generalize hfraction : (if perSecond ≤ t.nano then t.nano - perSecond else t.nano) = fraction
  have htext : t.text.toList = yearChars year ++ '-' :: (padded 2 month ++ '-' :: (padded 2 day
      ++ 'T' :: (padded 2 (sec / 3600) ++ ':' :: (padded 2 (sec / 60 % 60) ++ ':' ::
        (padded 2 shown ++ (fractionChars fraction ++ ['Z'])))))) := by
    unfold text chars
    rw [String.toList_ofList]
    simp only [hdays, hsec, hdate, hshown, hfraction, List.append_assoc, List.cons_append]
  have htime : timeOf? (sec / 3600) (sec / 60 % 60) shown fraction = some (sec, t.nano) := by
    rw [← hshown, ← hfraction]
    exact timeOf?_shown hrange.2 hnano
  have hless : shown < 100 ∧ fraction < perSecond := by
    rw [← hshown, ← hfraction]
    constructor
    · split <;> omega
    · split <;> omega
  have hwhole : ofDay? days (sec, t.nano) 0 = some t := by
    unfold ofDay?
    simp only [Int.sub_zero, ← hrange.1]
    exact if_pos h.second
  have hdash : isBlank '-' = false := by decide
  have hcolon : isBlank ':' = false := by decide
  unfold parse?
  rw [htext]
  refine (bind_of_some (year?_yearChars year _)).trans ?_
  refine (bind_of_some (mark?_cons hdash _)).trans ?_
  refine (bind_of_some (pair?_padded (by omega) _)).trans ?_
  refine (bind_of_some (mark?_cons hdash _)).trans ?_
  refine (bind_of_some (pair?_padded (by omega) _)).trans ?_
  refine (bind_of_some (rfl : afterDate? ('T' :: _) = some _)).trans ?_
  refine (bind_of_some (pair?_padded (by omega) _)).trans ?_
  refine (bind_of_some (mark?_cons hcolon _)).trans ?_
  refine (bind_of_some (pair?_padded (by omega) _)).trans ?_
  refine (bind_of_some (mark?_cons hcolon _)).trans ?_
  refine (bind_of_some (pair?_padded hless.1 _)).trans ?_
  refine (bind_of_some (fraction?_fractionChars hless.2)).trans ?_
  refine (bind_of_some zone?_utc).trans ?_
  refine (bind_of_some hday).trans ?_
  exact (bind_of_some htime).trans hwhole

end Reading

end Instant

end ScanGraph
