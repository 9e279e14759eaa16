import Mathlib.Tactic.IntervalCases
import Statechart.Proofs.Digits

/-!
# The calendar

Every day has a number and every number is that of one day: the day is found by counting
the leap days of an era of four hundred years.  So a point in time that is written as a date
and a time of day is read again as it was, a leap second included.
-/

namespace Statechart

/-- Where in an era of four hundred years a day lies: whole centuries, groups of four years,
years and days that have gone by.  Years begin in March, so a leap day ends its year; every
fourth year has one, but of the last years of centuries only that of the era. -/
structure EraDay where
  centuries : Nat
  fours : Nat
  ones : Nat
  days : Nat
  centuries_lt : centuries < 4
  fours_lt : fours < 25
  ones_lt : ones < 4
  days_le : days ≤ 365
  leap : days = 365 → ones = 3 ∧ (fours < 24 ∨ centuries = 3)

namespace EraDay

def year (day : EraDay) : Nat := 100 * day.centuries + 4 * day.fours + day.ones

def number (day : EraDay) : Nat :=
  36524 * day.centuries + 1461 * day.fours + 365 * day.ones + day.days

theorem year_lt (day : EraDay) : day.year < 400 := by
  obtain ⟨centuries, fours, ones, days, _, _, _, _, _⟩ := day
  unfold year
  dsimp only
  omega

theorem exists_number
    {number : Nat} (within : number < 146097) :
    ∃ day : EraDay, day.number = number := by
  obtain ⟨centuries, rest, fewCenturies, split, short, full⟩ :
      ∃ centuries rest, centuries < 4 ∧ number = 36524 * centuries + rest ∧ rest ≤ 36524 ∧
        (rest = 36524 → centuries = 3) :=
    ⟨min 3 (number / 36524), number - 36524 * min 3 (number / 36524), by omega, by omega,
      by omega, by omega⟩
  obtain ⟨ones, days, fewOnes, splitFour, shortYear, leap⟩ :
      ∃ ones days, ones < 4 ∧ rest % 1461 = 365 * ones + days ∧ days ≤ 365 ∧
        (days = 365 → ones = 3) :=
    ⟨min 3 (rest % 1461 / 365), rest % 1461 - 365 * min 3 (rest % 1461 / 365), by omega,
      by omega, by omega, by omega⟩
  refine ⟨⟨centuries, rest / 1461, ones, days, fewCenturies, by omega, fewOnes, shortYear,
    fun last => ⟨leap last, by omega⟩⟩, ?_⟩
  unfold EraDay.number
  dsimp only
  omega

theorem yearOfEra_number (day : EraDay) :
    (day.number - day.number / 1460 + day.number / 36524 - day.number / 146096) / 365 =
      day.year := by
  obtain ⟨centuries, fours, ones, days, _, _, _, _, leap⟩ := day
  unfold year
  generalize numbered : EraDay.number _ = number
  replace numbered : 36524 * centuries + 1461 * fours + 365 * ones + days = number := numbered
  dsimp only
  -- Dividing by 36524 and 146096 counts the centuries, the last day of the era apart.
  have century : number / 36524 = centuries + number / 146096 := by
    by_cases last : number = 146096
    · omega
    · have inCentury : 1461 * fours + 365 * ones + days < 36524 := by omega
      omega
  -- Dividing by 1460 counts the leap days, perhaps with the one that lies ahead.
  obtain ⟨ahead, counted, isAhead⟩ : ∃ ahead,
      number / 1460 = 25 * centuries + fours + ahead ∧
        (ahead = 0 ∧ days ≤ 364 ∨ ahead = 1 ∧ 1 ≤ days) := by
    by_cases passed : 24 * centuries + fours + 365 * ones + days < 1460
    · exact ⟨0, by omega, by omega⟩
    · exact ⟨1, by omega, by omega⟩
  omega

theorem dayOfYear_number (day : EraDay) :
    365 * day.year + day.year / 4 - day.year / 100 + day.days = day.number := by
  obtain ⟨centuries, fours, ones, days, _, _, _, _, _⟩ := day
  unfold year number
  dsimp only
  omega

end EraDay

namespace Date

/-- The day of a March year that has gone by in an era. -/
def ofEraDay (era : Int) (day : EraDay) : Date :=
  let month := (5 * day.days + 2) / 153
  { year := era * 400 + day.year + (if month < 10 then 0 else 1)
    month := if month < 10 then month + 3 else month - 9
    day := day.days - (153 * month + 2) / 5 + 1 }

theorem ofDayNumber_eq
    {number : Int} {day : EraDay}
    (numbered : (number % 146097).toNat = day.number) :
    ofDayNumber number = ofEraDay (number / 146097) day := by
  have ofYear : day.number - (365 * day.year + day.year / 4 - day.year / 100) = day.days := by
    have := day.dayOfYear_number
    omega
  unfold ofDayNumber ofEraDay
  simp only [numbered, day.yearOfEra_number, ofYear]

theorem dayNumber_ofEraDay
    (era : Int) (day : EraDay) :
    (ofEraDay era day).dayNumber = 146097 * era + day.number := by
  have late : (5 * day.days + 2) / 153 < 12 := by
    have := day.days_le
    omega
  have within : (153 * ((5 * day.days + 2) / 153) + 2) / 5 ≤ day.days := by
    omega
  have ofYear := day.dayOfYear_number
  have ofEra := day.year_lt
  have marchYear : (ofEraDay era day).marchYear = era * 400 + day.year := by
    unfold marchYear ofEraDay
    dsimp only
    split <;> split <;> omega
  have marchMonth : (ofEraDay era day).marchMonth = (5 * day.days + 2) / 153 := by
    unfold marchMonth ofEraDay
    dsimp only
    split <;> omega
  unfold dayNumber
  rw [marchYear, marchMonth]
  unfold ofEraDay
  dsimp only
  omega

theorem isValid_ofEraDay
    {era : Int} {day : EraDay}
    (known : hasYear (ofEraDay era day).year = true) :
    (ofEraDay era day).isValid = true := by
  have late : (5 * day.days + 2) / 153 < 12 := by
    have := day.days_le
    omega
  have length : (ofEraDay era day).day ≤
      monthLength (ofEraDay era day).year (ofEraDay era day).month := by
    obtain ⟨centuries, fours, ones, days, _, _, _, _, leap⟩ := day
    unfold ofEraDay EraDay.year at *
    dsimp only at *
    generalize counted : (5 * days + 2) / 153 = month at *
    interval_cases month
    all_goals simp [monthLength, isLeap]
    all_goals try omega
    split <;> omega
  unfold isValid
  rw [known]
  simp only [Bool.true_and, Bool.and_eq_true, decide_eq_true_eq]
  refine ⟨⟨⟨?_, ?_⟩, ?_⟩, length⟩
  · unfold ofEraDay
    dsimp only
    split <;> omega
  · unfold ofEraDay
    dsimp only
    split <;> omega
  · exact Nat.le_add_left 1 _

theorem exists_ofDayNumber
    (number : Int) :
    ∃ day : EraDay, ofDayNumber number = ofEraDay (number / 146097) day ∧
      146097 * (number / 146097) + day.number = number := by
  obtain ⟨day, numbered⟩ := EraDay.exists_number (show (number % 146097).toNat < 146097 by omega)
  exact ⟨day, ofDayNumber_eq numbered.symm, by omega⟩

theorem dayNumber_ofDayNumber (number : Int) : (ofDayNumber number).dayNumber = number := by
  obtain ⟨day, same, numbered⟩ := exists_ofDayNumber number
  rw [same, dayNumber_ofEraDay, numbered]

theorem isValid_ofDayNumber
    {number : Int}
    (known : hasYear (ofDayNumber number).year = true) :
    (ofDayNumber number).isValid = true := by
  obtain ⟨day, same, _⟩ := exists_ofDayNumber number
  rw [same] at known ⊢
  exact isValid_ofEraDay known

end Date

namespace Timestamp

section Parts

theorem not_isWhite_of_isDigit
    {letter : Char}
    (isDigit : letter.isDigit = true) :
    isWhite letter = false := by
  have bounds : 48 ≤ letter.toNat ∧ letter.toNat ≤ 57 := by
    simpa [Char.isDigit, UInt32.le_iff_toNat_le] using isDigit
  simp only [isWhite, Bool.or_eq_false_iff, Bool.and_eq_false_iff, decide_eq_false_iff_not]
  omega

theorem trim_of_not_isWhite
    {first : Char} (rest : List Char)
    (notWhite : isWhite first = false) :
    trim (first :: rest) = first :: rest :=
  List.dropWhile_cons_of_neg (by simp [notWhite])

theorem splitDigits_of_ended
    {digits rest : List Char} {width : Nat}
    (areDigits : ∀ digit ∈ digits, digit.isDigit = true)
    (wide : digits.length ≤ width)
    (ended : NoDigitFirst rest) :
    splitDigits width (digits ++ rest) = (digits, rest) := by
  have stillEnded : NoDigitFirst (rest.take (width - digits.length)) := by
    intro first isFirst
    rw [List.head?_take] at isFirst
    split at isFirst
    · cases isFirst
    · exact ended first isFirst
  have taken : ((digits ++ rest).take width).takeWhile Char.isDigit = digits := by
    rw [List.take_append, List.take_of_length_le wide, takeWhile_digits areDigits stillEnded]
  simp [splitDigits, taken]

theorem number_padded
    {width value : Nat} {rest : List Char}
    (positive : 0 < width)
    (small : value < 10 ^ width)
    (ended : NoDigitFirst rest) :
    number width ((padded width value).toList ++ rest) = some (value, rest) := by
  obtain ⟨areDigits, read, _, exact⟩ := padded_digits width value
  have length := exact positive small
  generalize (padded width value).toList = digits at *
  have split := splitDigits_of_ended areDigits (Nat.le_of_eq length) ended
  cases digits with
  | nil => exact absurd length (Nat.ne_of_lt positive)
  | cons first digits =>
      have notWhite := not_isWhite_of_isDigit (areDigits first List.mem_cons_self)
      rw [number, List.cons_append, trim_of_not_isWhite _ notWhite, ← List.cons_append, split]
      simp only [read]

theorem mark_self
    {letter : Char} (rest : List Char)
    (notWhite : isWhite letter = false) :
    mark letter (letter :: rest) = some rest := by
  unfold mark
  rw [trim_of_not_isWhite rest notWhite]
  exact if_pos rfl

theorem year_signed
    (value : Nat) {rest : List Char}
    (ended : NoDigitFirst rest) :
    year ('-' :: (padded 4 value).toList ++ rest) = some (-(value : Int), rest) ∧
      year ('+' :: (padded 4 value).toList ++ rest) = some ((value : Int), rest) := by
  obtain ⟨areDigits, read, long, _⟩ := padded_digits 4 value
  generalize (padded 4 value).toList = digits at *
  have split : splitDigits (digits ++ rest).length (digits ++ rest) = (digits, rest) :=
    splitDigits_of_ended areDigits (by simp) ended
  cases digits with
  | nil => simp at long
  | cons first digits =>
      constructor
      · rw [year, List.cons_append, trim_of_not_isWhite _ (by decide)]
        simp only [split, read]
      · rw [year, List.cons_append, trim_of_not_isWhite _ (by decide)]
        simp only [split, read]

theorem year_unsigned
    {value : Nat} {rest : List Char}
    (small : value < 10 ^ 4)
    (ended : NoDigitFirst rest) :
    year ((padded 4 value).toList ++ rest) = some ((value : Int), rest) := by
  obtain ⟨areDigits, _, long, _⟩ := padded_digits 4 value
  have read := number_padded (by decide) small ended
  generalize (padded 4 value).toList = digits at *
  cases digits with
  | nil => simp at long
  | cons first digits =>
      have isDigit := areDigits first List.mem_cons_self
      have notMinus : first ≠ '-' := ne_of_isDigit isDigit (by decide)
      have notPlus : first ≠ '+' := ne_of_isDigit isDigit (by decide)
      rw [year, List.cons_append, trim_of_not_isWhite _ (not_isWhite_of_isDigit isDigit)]
      split
      next same => exact absurd (List.cons.inj same).1 notMinus
      next same => exact absurd (List.cons.inj same).1 notPlus
      next =>
        rw [← List.cons_append, read]
        rfl

theorem year_yearText
    (held : Int) {rest : List Char}
    (ended : NoDigitFirst rest) :
    year ((yearText held).toList ++ rest) = some (held, rest) := by
  unfold yearText
  simp only [Bool.and_eq_true, decide_eq_true_eq]
  split_ifs with small negative
  · obtain ⟨value, rfl⟩ := Int.eq_ofNat_of_zero_le small.1
    exact year_unsigned (by omega) ended
  · obtain ⟨value, rfl⟩ : ∃ value : Nat, held = -value := ⟨held.natAbs, by omega⟩
    simpa using (year_signed value ended).1
  · obtain ⟨value, rfl⟩ := Int.eq_ofNat_of_zero_le (Int.not_lt.mp negative)
    simpa using (year_signed value ended).2

theorem value_append_zeros (digits : List Char) (zeros : Nat) :
    value (digits ++ List.replicate zeros '0') = value digits * 10 ^ zeros := by
  rw [value_eq, value_eq, Nat.ofDigitChars_append, Nat.ofDigitChars_replicate_zero, Nat.mul_comm]

theorem fraction_padded
    {width value nanos : Nat} {rest : List Char}
    (positive : 0 < width)
    (narrow : width ≤ 9)
    (small : value < 10 ^ width)
    (worth : value * 10 ^ (9 - width) = nanos)
    (ended : NoDigitFirst rest) :
    fraction (("." ++ padded width value).toList ++ rest) = some (nanos, rest) := by
  obtain ⟨areDigits, read, _, exact⟩ := padded_digits width value
  have length := exact positive small
  rw [String.toList_append, List.append_assoc]
  generalize (padded width value).toList = digits at *
  have split := splitDigits_of_ended areDigits (length ▸ narrow) ended
  have dropped : rest.dropWhile Char.isDigit = rest := by
    cases rest with
    | nil => rfl
    | cons first rest => exact List.dropWhile_cons_of_neg (by simp [ended first rfl])
  have pointed : ".".toList ++ (digits ++ rest) = '.' :: (digits ++ rest) := rfl
  rw [pointed]
  cases digits with
  | nil => exact absurd length (Nat.ne_of_lt positive)
  | cons first digits => simp only [fraction, split, value_append_zeros, read, length, dropped, worth]

theorem fraction_fractionText
    {nanos : Nat} {rest : List Char}
    (small : nanos < 1000000000)
    (ended : NoDigitFirst rest)
    (noPoint : rest.head? ≠ some '.') :
    fraction ((fractionText nanos).toList ++ rest) = some (nanos, rest) := by
  unfold fractionText
  split_ifs with none thousands millions
  · subst none
    cases rest with
    | nil => rfl
    | cons first rest =>
        have notPoint : first ≠ '.' := by simpa using noPoint
        simp [fraction, notPoint]
  · exact fraction_padded (by decide) (by decide) (by omega) (by omega) ended
  · exact fraction_padded (by decide) (by decide) (by omega) (by omega) ended
  · exact fraction_padded (by decide) (by decide) small (by omega) ended

end Parts

section Whole

/-- A point in time that there is: its year is in range, and it is within a leap second only
at the end of a minute. -/
structure Proper (time : Timestamp) : Prop where
  hasYear : Date.hasYear time.dateOf.year = true
  nanos : time.nanos < 1000000000 ∨ time.nanos < 2000000000 ∧ time.seconds % 60 = 59

theorem noDigitFirst_cons
    {first : Char} (rest : List Char)
    (notDigit : first.isDigit = false) :
    NoDigitFirst (first :: rest) := by
  intro other isFirst
  cases isFirst
  exact notDigit

theorem date_text
    {day : Date} {rest : List Char}
    (valid : day.isValid = true)
    (ended : NoDigitFirst rest) :
    date ((yearText day.year).toList ++ '-' :: (padded 2 day.month).toList ++
      '-' :: (padded 2 day.day).toList ++ rest) = some (day, rest) := by
  have bounds : day.month < 10 ^ 2 ∧ day.day < 10 ^ 2 := by
    have length : Date.monthLength day.year day.month ≤ 31 := by
      unfold Date.monthLength
      repeat' split
      all_goals decide
    simp only [Date.isValid, Bool.and_eq_true, decide_eq_true_eq] at valid
    omega
  have hyphen (text : List Char) : NoDigitFirst ('-' :: text) := noDigitFirst_cons text rfl
  have pastHyphen (text : List Char) : mark '-' ('-' :: text) = some text := mark_self text rfl
  have readMonth (text : List Char) := number_padded (by decide) bounds.1 (hyphen text)
  have readDay := number_padded (by decide) bounds.2 ended
  unfold date
  simp only [List.append_assoc, List.cons_append, bind]
  simp only [year_yearText _ (hyphen _), Option.bind_some, pastHyphen, readMonth, readDay, valid,
    if_true]

theorem noDigitFirst_fractionText
    (nanos : Nat) {rest : List Char}
    (ended : NoDigitFirst rest) :
    NoDigitFirst ((fractionText nanos).toList ++ rest) := by
  have pointed (width value : Nat) :
      NoDigitFirst (("." ++ padded width value).toList ++ rest) := by
    rw [String.toList_append, List.append_assoc]
    exact noDigitFirst_cons _ (by decide)
  unfold fractionText
  split_ifs
  · exact ended
  · exact pointed _ _
  · exact pointed _ _
  · exact pointed _ _

theorem timeOfDay_text
    {hour minute second nanos : Nat} {rest : List Char}
    (inDay : hour < 24)
    (inHour : minute < 60)
    (inMinute : second ≤ 60)
    (small : nanos < 1000000000)
    (ended : NoDigitFirst rest)
    (noPoint : rest.head? ≠ some '.') :
    timeOfDay ((padded 2 hour).toList ++ ':' :: (padded 2 minute).toList ++
      ':' :: (padded 2 second).toList ++ (fractionText nanos).toList ++ rest) =
      some ((hour * 3600 + minute * 60 + min second 59,
        if second = 60 then 1000000000 + nanos else nanos), rest) := by
  have colon (text : List Char) : NoDigitFirst (':' :: text) := noDigitFirst_cons text rfl
  have pastColon (text : List Char) : mark ':' (':' :: text) = some text := mark_self text rfl
  have readHour (text : List Char) :=
    number_padded (show 0 < 2 by decide) (show hour < 10 ^ 2 by omega) (colon text)
  have readMinute (text : List Char) :=
    number_padded (show 0 < 2 by decide) (show minute < 10 ^ 2 by omega) (colon text)
  have readSecond := number_padded (show 0 < 2 by decide) (show second < 10 ^ 2 by omega)
    (noDigitFirst_fractionText nanos ended)
  unfold timeOfDay
  simp only [List.append_assoc, List.cons_append, bind]
  simp only [readHour, Option.bind_some, pastColon, readMinute, readSecond,
    fraction_fractionText small ended noPoint, inDay, inHour, inMinute, decide_true,
    Bool.and_true, if_true]

variable {time : Timestamp}

def secondOfDay (time : Timestamp) : Nat := (time.seconds % 86400).toNat

/-- The second of the minute as it is written: the sixtieth within a leap second. -/
def writtenSecond (time : Timestamp) : Nat :=
  if 1000000000 ≤ time.nanos then time.secondOfDay % 60 + 1 else time.secondOfDay % 60

def writtenNanos (time : Timestamp) : Nat :=
  if 1000000000 ≤ time.nanos then time.nanos - 1000000000 else time.nanos

/-- The time of day as it is written. -/
def clock (time : Timestamp) : List Char :=
  (padded 2 (time.secondOfDay / 3600)).toList ++
    ':' :: (padded 2 (time.secondOfDay / 60 % 60)).toList ++
    ':' :: (padded 2 time.writtenSecond).toList ++ (fractionText time.writtenNanos).toList

theorem toList_text :
    time.text.toList =
      (yearText time.dateOf.year).toList ++ '-' :: (padded 2 time.dateOf.month).toList ++
        '-' :: (padded 2 time.dateOf.day).toList ++ 'T' :: (time.clock ++ ['Z']) := by
  simp only [text, clock, secondOfDay, writtenSecond, writtenNanos]
  simp

theorem timeOfDay_clock
    (proper : time.Proper) :
    timeOfDay (time.clock ++ ['Z']) = some ((time.secondOfDay, time.nanos), ['Z']) := by
  have nanos := proper.nanos
  have inDay : time.secondOfDay < 86400 ∧ (time.secondOfDay : Int) = time.seconds % 86400 := by
    unfold secondOfDay
    omega
  have inMinute : time.writtenSecond ≤ 60 := by
    unfold writtenSecond
    split <;> omega
  have small : time.writtenNanos < 1000000000 := by
    unfold writtenNanos
    split <;> omega
  have sameSecond : time.secondOfDay / 3600 * 3600 + time.secondOfDay / 60 % 60 * 60 +
      min time.writtenSecond 59 = time.secondOfDay := by
    unfold writtenSecond
    split <;> omega
  have sameNanos : (if time.writtenSecond = 60 then 1000000000 + time.writtenNanos
      else time.writtenNanos) = time.nanos := by
    unfold writtenSecond writtenNanos
    split_ifs <;> omega
  have ended : NoDigitFirst ['Z'] := noDigitFirst_cons [] (by decide)
  have read := timeOfDay_text (show time.secondOfDay / 3600 < 24 by omega)
    (show time.secondOfDay / 60 % 60 < 60 by omega) inMinute small ended (by decide)
  rw [sameSecond, sameNanos] at read
  exact read

/-- A written point in time is read again as it was. -/
theorem parse?_text
    (proper : time.Proper) :
    parse? time.text = some time := by
  have validDate : time.dateOf.isValid = true := Date.isValid_ofDayNumber proper.hasYear
  have readDate := date_text validDate
    (noDigitFirst_cons (time.clock ++ ['Z']) (show 'T'.isDigit = false by decide))
  have readZone : zone (trim ['Z']) = some (0, []) := by decide
  have sameSeconds : (time.dateOf.dayNumber - Date.epoch) * 86400 + (time.secondOfDay : Int) - 0 =
      time.seconds := by
    have sameDay : time.dateOf.dayNumber = Date.epoch + time.seconds / 86400 :=
      Date.dayNumber_ofDayNumber _
    unfold secondOfDay
    omega
  unfold parse?
  rw [toList_text, readDate]
  simp only [bind, Option.bind_some, separator, decide_true, Bool.true_or, if_true,
    timeOfDay_clock proper, readZone, sameSeconds]
  simp [trim, proper.hasYear]

end Whole

end Timestamp

end Statechart
