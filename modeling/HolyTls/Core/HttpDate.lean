import HolyTls.Core.Cookie
import HolyTls.Lib.Calendar

/-!
# `Core.HttpDate` — HTTP dates (`src/core/cookie.c`)

`http_date_parse` takes a date apart into tokens and guesses what each one is: a time, else a day, else a
month, else a year, as far as those are still missing. Here the three forms of RFC 9110 are written for a
second of the calendar, and read back. The argument has three parts: a text is read as its tokens
(`dateLoop_parts`), the tokens of each form are taken for what they are (`dateToken_day` and its siblings),
and the formula for the day number counts the days of the calendar (`cookieDaysFromCivil_eq`).
-/

namespace HolyTls

open Calendar

variable {parts : List (Str8 × Str8)}

/-! ## The day number -/

/-- The eras of the source add up to the usual leap-year terms. Its years begin in March: `y'` is the year in
    which the March before the date lies. -/
theorem cookieDaysFromCivil_shifted {y m d : Int} {x : Nat} (hy : (if m ≤ 2 then y - 1 else y) = x) :
    cookieDaysFromCivil y m d =
      365 * x + (x / 4 : Nat) - (x / 100 : Nat) + (x / 400 : Nat) +
        (153 * (m + (if m > 2 then -3 else 9)) + 2).tdiv 5 + d - 719469 := by
  have hera : (x : Int).tdiv 400 = (x / 400 : Nat) := by
    rw [Int.tdiv_eq_ediv_of_nonneg (by omega)]
    omega
  have hnonneg : 0 ≤ (x : Int) - (x / 400 : Nat) * 400 := by omega
  unfold cookieDaysFromCivil
  dsimp only
  rw [hy, if_pos (by omega), hera, Int.tdiv_eq_ediv_of_nonneg hnonneg, Int.tdiv_eq_ediv_of_nonneg hnonneg]
  omega

/-- The month term of the source, against the days before the month in a common year. -/
theorem civil_month_term {m : Nat} (hm : 1 ≤ m) (hm' : m ≤ 12) :
    (153 * ((m : Int) + (if (m : Int) > 2 then -3 else 9)) + 2).tdiv 5 =
      ([0, 31, 59, 90, 120, 151, 181, 212, 243, 273, 304, 334][m - 1]?.getD 0 : Nat) +
        (if m ≤ 2 then 306 else -59) := by
  interval_cases m <;> rfl

theorem cookieDaysFromCivil_eq {y m d : Nat} (h : Valid y m d) : cookieDaysFromCivil y m d = dayCount y m d := by
  obtain ⟨hy, ⟨hm, hm'⟩, hd, -⟩ := h
  have hyear := daysBeforeYear_eq hy
  have hmonth := civil_month_term hm hm'
  rw [dayCount, daysBeforeMonth_eq y hm hm']
  revert hmonth
  generalize [0, 31, 59, 90, 120, 151, 181, 212, 243, 273, 304, 334][m - 1]?.getD 0 = before
  intro hmonth
  by_cases hjan : m ≤ 2
  · rw [cookieDaysFromCivil_shifted (x := y - 1) (by rw [if_pos (by omega)]; omega), hmonth, if_pos hjan,
      if_neg (by omega)]
    omega
  · -- from March on the leap day of the year itself counts
    rw [cookieDaysFromCivil_shifted (x := y) (by rw [if_neg (by omega)]), hmonth, if_neg hjan]
    by_cases hleap : isLeap y = true
    · have hl := isLeap_iff.mp hleap
      rw [if_pos ⟨by omega, hleap⟩]
      omega
    · have hl : ¬ (y % 4 = 0 ∧ (y % 100 ≠ 0 ∨ y % 400 = 0)) := fun hy => hleap (isLeap_iff.mpr hy)
      rw [if_neg (fun h => hleap h.2)]
      omega

/-! ## A text is read as its tokens -/

/-- Separators and tokens in turn, as they stand in a text. -/
def dateText (parts : List (Str8 × Str8)) : Str8 := parts.flatMap (fun p => p.1 ++ p.2)

/-- What tells the tokens apart: a token holds only date bytes, the text before it none, and there is some
    between two tokens. -/
structure DateParts (parts : List (Str8 × Str8)) : Prop where
  sep : ∀ p ∈ parts, ∀ b ∈ p.1, isDateChar b = false
  token : ∀ p ∈ parts, p.2 ≠ [] ∧ ∀ b ∈ p.2, isDateChar b = true
  apart : ∀ p ∈ parts.tail, p.1 ≠ []

theorem DateParts.of_cons {p : Str8 × Str8} (h : DateParts (p :: parts)) :
    DateParts parts where
  sep q hq := h.sep q (List.mem_cons_of_mem p hq)
  token q hq := h.token q (List.mem_cons_of_mem p hq)
  apart q hq := h.apart q (List.mem_of_mem_tail hq)

/-- What follows a token does not go on with a date byte. -/
theorem takeWhile_dateText (h : DateParts parts) (hne : ∀ p ∈ parts, p.1 ≠ []) :
    (dateText parts).takeWhile isDateChar = [] ∧ (dateText parts).dropWhile isDateChar = dateText parts := by
  cases parts with
  | nil => exact ⟨rfl, rfl⟩
  | cons p parts =>
    obtain ⟨b, sep, hsep⟩ := List.exists_cons_of_ne_nil (hne p List.mem_cons_self)
    have hb : isDateChar b = false := h.sep p List.mem_cons_self b (hsep ▸ List.mem_cons_self)
    rw [dateText, List.flatMap_cons, hsep, List.cons_append, List.cons_append, List.takeWhile_cons,
      List.dropWhile_cons, hb]
    exact ⟨rfl, rfl⟩

theorem dateLoop_parts (h : DateParts parts) {fuel : Nat} (hfuel : parts.length ≤ fuel) (f : DateFields) :
    dateLoop fuel (dateText parts) f = (parts.map Prod.snd).foldl dateToken f := by
  induction parts generalizing fuel f with
  | nil => cases fuel <;> rfl
  | cons p parts ih =>
    obtain ⟨fuel, rfl⟩ := Nat.exists_eq_succ_of_ne_zero (Nat.ne_of_gt (Nat.zero_lt_of_lt hfuel))
    obtain ⟨hne, htok⟩ := h.token p List.mem_cons_self
    obtain ⟨htake, hdrop⟩ := takeWhile_dateText h.of_cons h.apart
    have hsep : ∀ b ∈ p.1, (!isDateChar b) = true := fun b hb => by rw [h.sep p List.mem_cons_self b hb]; rfl
    have htext : (dateText (p :: parts)).dropWhile (fun c => !isDateChar c) = p.2 ++ dateText parts := by
      obtain ⟨b, tok, hb⟩ := List.exists_cons_of_ne_nil hne
      have hdate : isDateChar b = true := htok b (hb ▸ List.mem_cons_self)
      rw [dateText, List.flatMap_cons, List.append_assoc, List.dropWhile_append_of_pos hsep, hb, List.cons_append,
        List.dropWhile_cons, hdate]
      rfl
    have hword : (p.2 ++ dateText parts).takeWhile isDateChar = p.2 := by
      rw [List.takeWhile_append_of_pos htok, htake, List.append_nil]
    have hrest : (p.2 ++ dateText parts).dropWhile isDateChar = dateText parts := by
      rw [List.dropWhile_append_of_pos htok, hdrop]
    rw [dateLoop, htext, hword, hrest, if_neg (by simpa using hne), ih h.of_cons (Nat.le_of_succ_le_succ hfuel)]
    rfl

theorem length_le_dateText (h : DateParts parts) : parts.length ≤ (dateText parts).length := by
  induction parts with
  | nil => exact Nat.le_refl 0
  | cons p parts ih =>
    have hpos := List.length_pos_iff.mpr (h.token p List.mem_cons_self).1
    have hrest := ih h.of_cons
    rw [dateText] at hrest ⊢
    rw [List.flatMap_cons, List.length_append, List.length_append, List.length_cons]
    omega

/-! ## A token is taken for what it is -/

section

variable {f : DateFields} {tok : Str8}

theorem dateToken_time {t : Nat × Nat × Nat} (hf : f.time = none) (ht : dateTime? tok = some t) :
    dateToken f tok = { f with time := some t } := by
  simp [dateToken, hf, ht]

theorem dateToken_day (ht : dateTime? tok = none) (hf : f.day = none) (hlen : tok.length ≤ 2)
    (hdig : cookieAllDigits tok = true) : dateToken f tok = { f with day := some (str8ToU64 tok) } := by
  simp [dateToken, ht, hf, hlen, hdig]

theorem dateToken_month (ht : dateTime? tok = none) (hdig : cookieAllDigits tok = false) (hf : f.month = none)
    (hm : cookieMonthOf tok ≠ 0) : dateToken f tok = { f with month := some (cookieMonthOf tok) } := by
  simp [dateToken, ht, hdig, hf, hm]

theorem dateToken_year (ht : dateTime? tok = none) (hday : f.day.isSome = true) (hmonth : f.month.isSome = true)
    (hf : f.year = none) (hlen : 2 ≤ tok.length) (hlen' : tok.length ≤ 4) (hdig : cookieAllDigits tok = true) :
    dateToken f tok = { f with year := some (str8ToU64 tok) } := by
  have hd : f.day ≠ none := Option.isSome_iff_ne_none.mp hday
  have hm : f.month ≠ none := Option.isSome_iff_ne_none.mp hmonth
  simp [dateToken, ht, hd, hm, hf, hlen, hlen', hdig]

theorem dateToken_word (ht : dateTime? tok = none) (hdig : cookieAllDigits tok = false)
    (hm : f.month.isSome = true ∨ cookieMonthOf tok = 0) : dateToken f tok = f := by
  rcases hm with hm | hm
  · have hm' : f.month ≠ none := Option.isSome_iff_ne_none.mp hm
    simp [dateToken, ht, hdig, hm']
  · simp [dateToken, ht, hdig, hm]

end

/-! ## Numbers of fixed width -/

/-- The last decimal digit of `n`. -/
def digitByte (n : Nat) : UInt8 := UInt8.ofNat (48 + n % 10)

def pad2 (n : Nat) : Str8 := [digitByte (n / 10), digitByte n]

def pad4 (n : Nat) : Str8 := [digitByte (n / 1000), digitByte (n / 100), digitByte (n / 10), digitByte n]

theorem digitByte_spec (n : Nat) :
    charIsDigit (digitByte n) = true ∧ (digitByte n).toNat - 48 = n % 10 ∧ digitByte n ≠ 58 ∧
      isDateChar (digitByte n) = true := by
  have hlt : n % 10 < 10 := Nat.mod_lt _ (by omega)
  unfold digitByte
  generalize n % 10 = k at hlt
  interval_cases k <;> decide

/-- A text of digits is read as the number it denotes. -/
theorem str8ToU64_digits {ds : List Nat} (h : digitsValue (ds.map digitByte) 0 ≤ u64Max) :
    str8ToU64 (ds.map digitByte) = digitsValue (ds.map digitByte) 0 := by
  have hall : ∀ b ∈ ds.map digitByte, charIsDigit b = true := by
    intro b hb
    obtain ⟨n, -, rfl⟩ := List.mem_map.mp hb
    exact (digitByte_spec n).1
  rw [str8ToU64_eq, List.takeWhile_eq_self_iff.mpr hall, Nat.min_eq_left h]

theorem cookieAllDigits_digits (ds : List Nat) (hne : ds ≠ []) : cookieAllDigits (ds.map digitByte) = true := by
  simp [cookieAllDigits, hne, fun n => (digitByte_spec n).1]

theorem count_colon_digits (ds : List Nat) : (ds.map digitByte).count 58 = 0 := by
  rw [List.count_eq_zero]
  intro h
  obtain ⟨n, -, hn⟩ := List.mem_map.mp h
  exact (digitByte_spec n).2.2.1 hn

theorem dateTime?_none {tok : Str8} (h : tok.count 58 = 0) : dateTime? tok = none := by
  simp [dateTime?, h]

theorem str8ToU64_pad2 {n : Nat} (hn : n < 100) : str8ToU64 (pad2 n) = n := by
  have hvalue : digitsValue ([n / 10, n].map digitByte) 0 = n := by
    simp only [digitsValue, List.map_cons, List.map_nil, List.foldl_cons, List.foldl_nil, (digitByte_spec _).2.1]
    omega
  have hpad : pad2 n = [n / 10, n].map digitByte := rfl
  rw [hpad, str8ToU64_digits (by rw [hvalue, u64Max]; omega), hvalue]

theorem str8ToU64_pad4 {n : Nat} (hn : n < 10000) : str8ToU64 (pad4 n) = n := by
  have hvalue : digitsValue ([n / 1000, n / 100, n / 10, n].map digitByte) 0 = n := by
    simp only [digitsValue, List.map_cons, List.map_nil, List.foldl_cons, List.foldl_nil, (digitByte_spec _).2.1]
    omega
  have hpad : pad4 n = [n / 1000, n / 100, n / 10, n].map digitByte := rfl
  rw [hpad, str8ToU64_digits (by rw [hvalue, u64Max]; omega), hvalue]

/-! ## The three forms -/

/-- A second of the calendar, in UTC. -/
structure CivilTime where
  year : Nat
  month : Nat
  day : Nat
  weekday : Nat
  hour : Nat
  minute : Nat
  second : Nat
deriving DecidableEq

/-- The civil time of `t` seconds after 1970-01-01, which was a Thursday. -/
def civilTime (t : Nat) : CivilTime :=
  let date := dateOf (t / 86400)
  { year := date.1, month := date.2.1, day := date.2.2, weekday := (t / 86400 + 4) % 7
    hour := t % 86400 / 3600, minute := t % 3600 / 60, second := t % 60 }

def weekdayName (n : Nat) : Str8 :=
  (["Sunday", "Monday", "Tuesday", "Wednesday", "Thursday", "Friday", "Saturday"].map lit)[n]?.getD []

def monthName (m : Nat) : Str8 :=
  (["Jan", "Feb", "Mar", "Apr", "May", "Jun", "Jul", "Aug", "Sep", "Oct", "Nov", "Dec"].map lit)[m - 1]?.getD []

/-- `hh:mm:ss`. -/
def clockText (c : CivilTime) : Str8 := pad2 c.hour ++ lit ":" ++ pad2 c.minute ++ lit ":" ++ pad2 c.second

/-- `Sun, 06 Nov 1994 08:49:37 GMT`. -/
def imfFixdate (c : CivilTime) : Str8 :=
  (weekdayName c.weekday).take 3 ++ lit ", " ++ pad2 c.day ++ lit " " ++ monthName c.month ++ lit " " ++ pad4 c.year ++
    lit " " ++ clockText c ++ lit " GMT"

/-- `Sunday, 06-Nov-94 08:49:37 GMT`. -/
def rfc850Date (c : CivilTime) : Str8 :=
  weekdayName c.weekday ++ lit ", " ++ pad2 c.day ++ lit "-" ++ monthName c.month ++ lit "-" ++ pad2 (c.year % 100) ++
    lit " " ++ clockText c ++ lit " GMT"

/-- The day of the month in the form of `asctime`: a blank stands for a leading zero. -/
def blankDay (d : Nat) : Str8 := if d < 10 then [32, digitByte d] else pad2 d

/-- `Sun Nov  6 08:49:37 1994`. -/
def asctimeDate (c : CivilTime) : Str8 :=
  (weekdayName c.weekday).take 3 ++ lit " " ++ monthName c.month ++ lit " " ++ blankDay c.day ++ lit " " ++
    clockText c ++ lit " " ++ pad4 c.year

/-! ## Reading them back -/

/-- The bounds of the fields of a date that can be written in four digits for the year. -/
structure CivilTime.InRange (c : CivilTime) : Prop where
  date : Valid c.year c.month c.day
  year : c.year < 10000
  weekday : c.weekday < 7
  hour : c.hour < 24
  minute : c.minute < 60
  second : c.second < 60

theorem monthDays_le (y m : Nat) : monthDays y m ≤ 31 := by
  unfold monthDays
  split
  · split <;> omega
  · split <;> omega

theorem CivilTime.InRange.day_le {c : CivilTime} (h : c.InRange) : 1 ≤ c.day ∧ c.day ≤ 31 :=
  ⟨h.date.day.1, Nat.le_trans h.date.day.2 (monthDays_le _ _)⟩

/-- A token of a date. -/
def IsToken (tok : Str8) : Prop := tok ≠ [] ∧ ∀ b ∈ tok, isDateChar b = true

instance (tok : Str8) : Decidable (IsToken tok) := inferInstanceAs (Decidable (_ ∧ _))

theorem isToken_digits (ds : List Nat) (hne : ds ≠ []) : IsToken (ds.map digitByte) := by
  refine ⟨by simpa using hne, ?_⟩
  intro b hb
  obtain ⟨n, -, rfl⟩ := List.mem_map.mp hb
  exact (digitByte_spec n).2.2.2

/-- A weekday, in full or by three letters, is a token that says nothing about the date. -/
theorem weekday_word {n : Nat} (hn : n < 7) :
    (IsToken (weekdayName n) ∧ dateTime? (weekdayName n) = none ∧ cookieAllDigits (weekdayName n) = false ∧
      cookieMonthOf (weekdayName n) = 0) ∧
    (IsToken ((weekdayName n).take 3) ∧ dateTime? ((weekdayName n).take 3) = none ∧
      cookieAllDigits ((weekdayName n).take 3) = false ∧ cookieMonthOf ((weekdayName n).take 3) = 0) := by
  interval_cases n <;> decide +kernel

theorem month_word {m : Nat} (hm : 1 ≤ m ∧ m ≤ 12) :
    IsToken (monthName m) ∧ dateTime? (monthName m) = none ∧ cookieAllDigits (monthName m) = false ∧
      cookieMonthOf (monthName m) = m := by
  obtain ⟨h1, h2⟩ := hm
  interval_cases m <;> decide +kernel

theorem clock_token (c : CivilTime) : IsToken (clockText c) := by
  have hpad : ∀ n, ∀ b ∈ pad2 n, isDateChar b = true := fun n => (isToken_digits [n / 10, n] (by simp)).2
  have hcolon : ∀ b ∈ lit ":", isDateChar b = true := by decide +kernel
  refine ⟨by simp [clockText, pad2], ?_⟩
  intro b hb
  simp only [clockText, List.mem_append] at hb
  rcases hb with (((hb | hb) | hb) | hb) | hb
  · exact hpad _ b hb
  · exact hcolon b hb
  · exact hpad _ b hb
  · exact hcolon b hb
  · exact hpad _ b hb

theorem dateTime?_clock {c : CivilTime} (h : c.InRange) :
    dateTime? (clockText c) = some (c.hour, c.minute, c.second) := by
  have hh := h.hour
  have hm := h.minute
  have hs := h.second
  have hno : ∀ n, (58 : UInt8) ∉ pad2 n := fun n => List.count_eq_zero.mp (count_colon_digits [n / 10, n])
  have hdig : ∀ n, cookieAllDigits (pad2 n) = true := fun n => cookieAllDigits_digits [n / 10, n] (by simp)
  have htext : clockText c = pad2 c.hour ++ 58 :: (pad2 c.minute ++ 58 :: pad2 c.second) := by
    simp only [clockText, List.append_assoc]
    rfl
  have hcount : (clockText c).count 58 = 2 := by
    rw [htext, List.count_append, List.count_cons_self, List.count_append, List.count_cons_self,
      List.count_eq_zero.mpr (hno _), List.count_eq_zero.mpr (hno _), List.count_eq_zero.mpr (hno _)]
  unfold dateTime?
  rw [hcount, htext, str8ChopByDelim_append (hno _)]
  dsimp only
  rw [str8ChopByDelim_append (hno _)]
  dsimp only
  rw [hdig, hdig, hdig, str8ToU64_pad2 (by omega), str8ToU64_pad2 (by omega), str8ToU64_pad2 (by omega)]
  rfl

/-- What the token loop has found at the end of a date. -/
def dateFound (c : CivilTime) (year : Nat) : DateFields :=
  { time := some (c.hour, c.minute, c.second), day := some c.day, month := some c.month, year := some year }

theorem dateParts_of {tok : Str8} (htok : IsToken tok)
    (hsep : ∀ p ∈ parts, p.1 ≠ [] ∧ ∀ b ∈ p.1, isDateChar b = false) (htoks : ∀ p ∈ parts, IsToken p.2) :
    DateParts (([], tok) :: parts) where
  sep := by
    rintro p hp b hb
    rcases List.mem_cons.mp hp with rfl | hp
    · cases hb
    · exact (hsep p hp).2 b hb
  token := by
    rintro p hp
    rcases List.mem_cons.mp hp with rfl | hp
    · exact htok
    · exact htoks p hp
  apart := fun p hp => (hsep p hp).1

section

variable {c : CivilTime}

theorem pad2_token (n : Nat) : IsToken (pad2 n) ∧ dateTime? (pad2 n) = none ∧ cookieAllDigits (pad2 n) = true :=
  ⟨isToken_digits [n / 10, n] (by simp), dateTime?_none (count_colon_digits [n / 10, n]),
    cookieAllDigits_digits [n / 10, n] (by simp)⟩

theorem pad4_token (n : Nat) : IsToken (pad4 n) ∧ dateTime? (pad4 n) = none ∧ cookieAllDigits (pad4 n) = true :=
  ⟨isToken_digits [n / 1000, n / 100, n / 10, n] (by simp),
    dateTime?_none (count_colon_digits [n / 1000, n / 100, n / 10, n]),
    cookieAllDigits_digits [n / 1000, n / 100, n / 10, n] (by simp)⟩

/-- The two forms that begin with weekday, day, month and year, whatever stands between them. -/
theorem dateLoop_dayFirst (h : c.InRange) {wday yearText sep1 sep2 sep3 : Str8} {year : Nat}
    (hw : IsToken wday ∧ dateTime? wday = none ∧ cookieAllDigits wday = false ∧ cookieMonthOf wday = 0)
    (hy : IsToken yearText ∧ dateTime? yearText = none ∧ cookieAllDigits yearText = true)
    (hylen : 2 ≤ yearText.length ∧ yearText.length ≤ 4) (hyear : str8ToU64 yearText = year)
    (h1 : sep1 ≠ [] ∧ ∀ b ∈ sep1, isDateChar b = false) (h2 : sep2 ≠ [] ∧ ∀ b ∈ sep2, isDateChar b = false)
    (h3 : sep3 ≠ [] ∧ ∀ b ∈ sep3, isDateChar b = false) :
    let text := dateText [([], wday), (sep1, pad2 c.day), (sep2, monthName c.month), (sep3, yearText),
      (lit " ", clockText c), (lit " ", lit "GMT")]
    dateLoop text.length text {} = dateFound c year := by
  intro text
  obtain ⟨-, hday⟩ := h.day_le
  obtain ⟨hmtok, hmt, hmd, hmm⟩ := month_word h.date.month
  obtain ⟨hdtok, hdt, hdd⟩ := pad2_token c.day
  have hblank : lit " " ≠ [] ∧ ∀ b ∈ lit " ", isDateChar b = false := by decide +kernel
  have hgmt : IsToken (lit "GMT") ∧ dateTime? (lit "GMT") = none ∧ cookieAllDigits (lit "GMT") = false := by
    decide +kernel
  have hparts : DateParts [([], wday), (sep1, pad2 c.day), (sep2, monthName c.month), (sep3, yearText),
      (lit " ", clockText c), (lit " ", lit "GMT")] := by
    apply dateParts_of hw.1
    · simp only [List.forall_mem_cons]
      exact ⟨h1, h2, h3, hblank, hblank, fun _ hp => by cases hp⟩
    · simp only [List.forall_mem_cons]
      exact ⟨hdtok, hmtok, hy.1, clock_token c, hgmt.1, fun _ hp => by cases hp⟩
  rw [dateLoop_parts hparts (length_le_dateText hparts)]
  simp only [List.map_cons, List.map_nil, List.foldl_cons, List.foldl_nil]
  rw [dateToken_word hw.2.1 hw.2.2.1 (.inr hw.2.2.2), dateToken_day hdt rfl (Nat.le_refl 2) hdd,
    dateToken_month hmt hmd rfl (by rw [hmm]; have := h.date.month.1; omega),
    dateToken_year hy.2.1 rfl rfl rfl hylen.1 hylen.2 hy.2.2, dateToken_time rfl (dateTime?_clock h),
    dateToken_word hgmt.2.1 hgmt.2.2 (.inl rfl), str8ToU64_pad2 (by omega), hmm, hyear]
  rfl

theorem dateLoop_imfFixdate (h : c.InRange) :
    dateLoop (imfFixdate c).length (imfFixdate c) {} = dateFound c c.year := by
  have htext : imfFixdate c = dateText [([], (weekdayName c.weekday).take 3), (lit ", ", pad2 c.day),
      (lit " ", monthName c.month), (lit " ", pad4 c.year), (lit " ", clockText c), (lit " ", lit "GMT")] := by
    have hend : lit " GMT" = lit " " ++ lit "GMT" := rfl
    simp only [imfFixdate, dateText, List.flatMap_cons, List.flatMap_nil, hend, List.append_assoc, List.nil_append,
      List.append_nil]
  rw [htext]
  exact dateLoop_dayFirst h (weekday_word h.weekday).2 (pad4_token c.year) ⟨Nat.le_add_left 2 2, Nat.le_refl 4⟩
    (str8ToU64_pad4 h.year) (by decide +kernel) (by decide +kernel) (by decide +kernel)

theorem dateLoop_rfc850Date (h : c.InRange) :
    dateLoop (rfc850Date c).length (rfc850Date c) {} = dateFound c (c.year % 100) := by
  have htext : rfc850Date c = dateText [([], weekdayName c.weekday), (lit ", ", pad2 c.day),
      (lit "-", monthName c.month), (lit "-", pad2 (c.year % 100)), (lit " ", clockText c), (lit " ", lit "GMT")] := by
    have hend : lit " GMT" = lit " " ++ lit "GMT" := rfl
    simp only [rfc850Date, dateText, List.flatMap_cons, List.flatMap_nil, hend, List.append_assoc, List.nil_append,
      List.append_nil]
  rw [htext]
  exact dateLoop_dayFirst h (weekday_word h.weekday).1 (pad2_token _) ⟨Nat.le_refl 2, Nat.le_add_left 2 2⟩
    (str8ToU64_pad2 (Nat.mod_lt _ (by omega))) (by decide +kernel) (by decide +kernel) (by decide +kernel)

/-- The day of `asctime` with what stands before it: the blank is part of the separator. -/
theorem blankDay_split (h : c.InRange) : ∃ sep tok, lit " " ++ blankDay c.day = sep ++ tok ∧
    (sep ≠ [] ∧ ∀ b ∈ sep, isDateChar b = false) ∧ IsToken tok ∧ dateTime? tok = none ∧ tok.length ≤ 2 ∧
    cookieAllDigits tok = true ∧ str8ToU64 tok = c.day := by
  obtain ⟨-, hday⟩ := h.day_le
  unfold blankDay
  by_cases hlt : c.day < 10
  · have hvalue : digitsValue ([c.day].map digitByte) 0 = c.day := by
      simp only [digitsValue, List.map_cons, List.map_nil, List.foldl_cons, List.foldl_nil, (digitByte_spec _).2.1]
      omega
    refine ⟨lit "  ", [c.day].map digitByte, by rw [if_pos hlt]; rfl, by decide +kernel, isToken_digits _ (by simp),
      dateTime?_none (count_colon_digits _), Nat.le_succ 1, cookieAllDigits_digits _ (by simp), ?_⟩
    rw [str8ToU64_digits (by rw [hvalue, u64Max]; omega), hvalue]
  · obtain ⟨htok, ht, hd⟩ := pad2_token c.day
    exact ⟨lit " ", pad2 c.day, by rw [if_neg hlt], by decide +kernel, htok, ht, Nat.le_refl 2, hd,
      str8ToU64_pad2 (by omega)⟩

theorem dateLoop_asctimeDate (h : c.InRange) :
    dateLoop (asctimeDate c).length (asctimeDate c) {} = dateFound c c.year := by
  obtain ⟨hwtok, hwt, hwd, hwm⟩ := (weekday_word h.weekday).2
  obtain ⟨hmtok, hmt, hmd, hmm⟩ := month_word h.date.month
  obtain ⟨hytok, hyt, hyd⟩ := pad4_token c.year
  obtain ⟨sep, tok, hsplit, hsep, htok, ht, hlen, hd, hday⟩ := blankDay_split h
  have htext : asctimeDate c = dateText [([], (weekdayName c.weekday).take 3), (lit " ", monthName c.month),
      (sep, tok), (lit " ", clockText c), (lit " ", pad4 c.year)] := by
    have hassoc : asctimeDate c = (weekdayName c.weekday).take 3 ++ (lit " " ++ monthName c.month ++
        ((lit " " ++ blankDay c.day) ++ (lit " " ++ clockText c ++ (lit " " ++ pad4 c.year)))) := by
      simp only [asctimeDate, List.append_assoc]
    rw [hassoc, hsplit]
    simp only [dateText, List.flatMap_cons, List.flatMap_nil, List.append_assoc, List.nil_append, List.append_nil]
  have hblank : lit " " ≠ [] ∧ ∀ b ∈ lit " ", isDateChar b = false := by decide +kernel
  have hparts : DateParts [([], (weekdayName c.weekday).take 3), (lit " ", monthName c.month), (sep, tok),
      (lit " ", clockText c), (lit " ", pad4 c.year)] := by
    apply dateParts_of hwtok
    · simp only [List.forall_mem_cons]
      exact ⟨hblank, hsep, hblank, hblank, fun _ hp => by cases hp⟩
    · simp only [List.forall_mem_cons]
      exact ⟨hmtok, htok, clock_token c, hytok, fun _ hp => by cases hp⟩
  rw [htext, dateLoop_parts hparts (length_le_dateText hparts)]
  simp only [List.map_cons, List.map_nil, List.foldl_cons, List.foldl_nil]
  rw [dateToken_word hwt hwd (.inr hwm), dateToken_month hmt hmd rfl (by rw [hmm]; have := h.date.month.1; omega),
    dateToken_day ht rfl hlen hd, dateToken_time rfl (dateTime?_clock h),
    dateToken_year hyt rfl rfl rfl (Nat.le_add_left 2 2) (Nat.le_refl 4) hyd, str8ToU64_pad4 h.year, hmm, hday]
  rfl

/-- The number of the second, once all fields are found and the year is the right one of its century. -/
theorem httpDateParse_found (h : c.InRange) {s : Str8} {year : Nat} (hloop : dateLoop s.length s {} = dateFound c year)
    (hyear : (if 70 ≤ year && year ≤ 99 then year + 1900 else if year ≤ 69 then year + 2000 else year) = c.year) :
    httpDateParse s = dayCount c.year c.month c.day * 86400 + c.hour * 3600 + c.minute * 60 + c.second := by
  have hrange : (decide (c.day < 1) || decide (c.day > 31) || decide (c.month < 1) || decide (c.month > 12) ||
      decide (c.hour > 23) || decide (c.minute > 59) || decide (c.second > 59) || decide (c.year < 1601)) = false := by
    obtain ⟨hd1, hd2⟩ := h.day_le
    obtain ⟨hm1, hm2⟩ := h.date.month
    have hy := h.date.year
    have hh := h.hour
    have hm := h.minute
    have hs := h.second
    simp only [Bool.or_eq_false_iff, decide_eq_false_iff_not]
    omega
  unfold httpDateParse
  rw [hloop]
  dsimp only [dateFound]
  rw [hyear, hrange, cookieDaysFromCivil_eq h.date]
  simp only [Bool.false_eq_true, if_false]
  omega

end

theorem civilTime_inRange {t : Nat} (ht : t < daysBeforeYear 10000 * 86400) : (civilTime t).InRange where
  date := (dateOf_spec (t / 86400)).1
  year := dateOf_year_lt (by omega)
  weekday := Nat.mod_lt _ (by omega)
  hour := by show t % 86400 / 3600 < 24; omega
  minute := by show t % 3600 / 60 < 60; omega
  second := by show t % 60 < 60; omega

theorem civilTime_seconds (t : Nat) :
    dayCount (civilTime t).year (civilTime t).month (civilTime t).day * 86400 + (civilTime t).hour * 3600 +
      (civilTime t).minute * 60 + (civilTime t).second = t := by
  have hday : dayCount (civilTime t).year (civilTime t).month (civilTime t).day = t / 86400 :=
    (dateOf_spec (t / 86400)).2
  rw [hday]
  show t / 86400 * 86400 + t % 86400 / 3600 * 3600 + t % 3600 / 60 * 60 + t % 60 = t
  omega

/-- **HTTP dates round-trip.** A second up to the end of the year 9999 is read back from its IMF-fixdate and
    its `asctime` form, and up to the end of 2069 from its RFC 850 form; and the day number that the code
    computes is the calendar's. -/
theorem httpDate_roundtrip (t : Nat) (h : t < daysBeforeYear 10000 * 86400) :
    httpDateParse (imfFixdate (civilTime t)) = t ∧ httpDateParse (asctimeDate (civilTime t)) = t ∧
      (t < daysBeforeYear 2070 * 86400 → httpDateParse (rfc850Date (civilTime t)) = t) ∧
      (∀ y m d, Valid y m d → y < 10000 → cookieDaysFromCivil y m d = dayCount y m d) := by
  have hrange := civilTime_inRange h
  have hyear := hrange.date.year
  -- a year of four digits is left as it is
  have hfour : (if 70 ≤ (civilTime t).year && (civilTime t).year ≤ 99 then (civilTime t).year + 1900
      else if (civilTime t).year ≤ 69 then (civilTime t).year + 2000 else (civilTime t).year) = (civilTime t).year := by
    rw [if_neg (by simp; omega), if_neg (by omega)]
  refine ⟨?_, ?_, ?_, ?_⟩
  · rw [httpDateParse_found hrange (dateLoop_imfFixdate hrange) hfour, civilTime_seconds]
  · rw [httpDateParse_found hrange (dateLoop_asctimeDate hrange) hfour, civilTime_seconds]
  · intro hearly
    have hlt : (civilTime t).year < 2070 := dateOf_year_lt (by omega)
    have htwo : (if 70 ≤ (civilTime t).year % 100 && (civilTime t).year % 100 ≤ 99 then (civilTime t).year % 100 + 1900
        else if (civilTime t).year % 100 ≤ 69 then (civilTime t).year % 100 + 2000 else (civilTime t).year % 100) =
        (civilTime t).year := by
      by_cases hcentury : (civilTime t).year < 2000
      · rw [if_pos (by simp; omega)]
        omega
      · rw [if_neg (by simp; omega), if_pos (by omega)]
        omega
    rw [httpDateParse_found hrange (dateLoop_rfc850Date hrange) htwo, civilTime_seconds]
  · intro y m d hvalid _
    exact cookieDaysFromCivil_eq hvalid

theorem httpDate_roundtrip_leapDay :
    civilTime 1582934400 = ⟨2020, 2, 29, 6, 0, 0, 0⟩ ∧
      httpDateParse (imfFixdate (civilTime 1582934400)) = 1582934400 := by
  have hlimit : daysBeforeYear 10000 = 2932897 :=
    Nat.add_right_cancel ((daysBeforeYear_eq (y := 10000) (by decide)).trans (by norm_num))
  exact ⟨by decide +kernel, (httpDate_roundtrip 1582934400 (by rw [hlimit]; norm_num)).1⟩

end HolyTls
