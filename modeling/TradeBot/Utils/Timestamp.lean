import Mathlib.Tactic.Linarith
import Mathlib.Tactic.Positivity
import TradeBot.Domain.Types
import TradeBot.Lib.Calendar

set_option autoImplicit false

/-! # Timestamps on the wire

`MetaScalpCodec::parse_timestamp`: an ISO 8601 date and time to a point of time. It reads fixed
positions of the string and checks only its length, so other characters than digits give other
numbers.

A point of time is a number of nanoseconds since 1970. `system_clock` holds it in 64 bits, which reach
from 1677-09-21 to 2262-04-11, and nothing checks that a date lies between them: the calendar has four
digits for a year, so most of the dates that it can write are no points of time (`systemClock`).

The law is about texts that ISO 8601 allows (`IsoTime`): with or without a fraction of a second, with
or without a zone. Their instants come from a calendar that adds up the lengths of the years and months
(`Calendar`), and each part of the text is shown to be read as its number before they are put together.
-/

namespace TradeBot

/-- The `char`s of a string. They are signed. -/
def signedChars (s : String) : List ℤ := s.toUTF8.toList.map (fun b => (b.toNat : ℤ).bmod 256)

/-- Days from 1970-01-01 to a day of a month, both counted from 1, which may lie outside the month. -/
def daysFromCivil (year month day : ℤ) : ℤ :=
  -- years that begin in March, so that a leap day is the last of its year
  let y := if month ≤ 2 then year - 1 else year
  let era := y / 400
  let yearOfEra := y - era * 400
  let dayOfYear := (153 * ((month + 9) % 12) + 2) / 5 + day - 1
  era * 146097 + yearOfEra * 365 + yearOfEra / 4 - yearOfEra / 100 + dayOfYear - 719468

/-- `timegm`, with the month counted from 0. Every field may be out of its range. -/
def timegm (year mon mday hour min sec : ℤ) : ℤ :=
  daysFromCivil (year + mon / 12) (mon % 12 + 1) mday * 86400 + hour * 3600 + min * 60 + sec

/-- `tm_year + 1900` to `tm_sec`, from their positions. -/
def civilSeconds (cs : List ℤ) : ℤ :=
  let d (i : ℕ) : ℤ := cs.getD i 0 - 48
  let p2 (i : ℕ) : ℤ := d i * 10 + d (i + 1)
  timegm (d 0 * 1000 + d 1 * 100 + d 2 * 10 + d 3) (p2 5 - 1) (p2 8) (p2 11) (p2 14) (p2 17)

/-- `std::isdigit`. -/
def isDigitChar (c : ℤ) : Bool := decide (48 ≤ c ∧ c ≤ 57)

/-- The digits after the point as microseconds: six of them count. -/
def subMicros (digits : List ℤ) : ℤ :=
  let used := digits.take 6
  used.foldl (fun us c => us * 10 + (c - 48)) 0 * 10 ^ (6 - used.length)

/-- The offset of the time zone in minutes, from the first `Z`, `+` or `-` in what follows. -/
def zoneMinutes : List ℤ → ℤ
  | [] => 0
  | c :: cs =>
      let p2 (i : ℕ) : ℤ := (cs.getD i 0 - 48) * 10 + (cs.getD (i + 1) 0 - 48)
      if c = 90 then 0
      else if (c = 43 ∨ c = 45) ∧ 4 ≤ cs.length then
        (if c = 43 then 1 else -1) * (p2 0 * 60 + p2 3)
      else zoneMinutes cs

/-- A number of nanoseconds as `system_clock` holds it: in 64 bits, with what exceeds them cut off. -/
def systemClock (ns : ℤ) : TimePoint := ns.bmod (2 ^ 64)

/-- `parse_timestamp`. -/
def parseTimestamp (s : String) : TimePoint :=
  let cs := signedChars s
  if cs.length < 19 then 0
  else
    let hasFraction := 20 < cs.length ∧ cs.getD 19 0 = 46
    let digits := if hasFraction then (cs.drop 20).takeWhile isDigitChar else []
    let rest := if hasFraction then (cs.drop 20).dropWhile isDigitChar else cs.drop 19
    let tp := systemClock (civilSeconds cs * nsPerSec)
    let tp := systemClock (tp + subMicros digits * 1000)
    systemClock (tp - zoneMinutes rest * 60 * nsPerSec)

example : parseTimestamp "2026-05-02T00:00:00.005+01:00" = 1777676400005000000 := by decide +kernel

/-! ## The instants that timestamps denote

An `IsoTime` is a date and a time as ISO 8601 writes them, with an optional fraction of the second and
an optional zone. `parse_timestamp` reads its text as the instant that it denotes, in UTC, with the
fraction truncated to microseconds, if that instant fits into 64 bits (`parseTimestamp_text`). -/

open Calendar

/-- Nothing and `Z` are UTC; an offset is east (`+`) or west (`-`) of it. -/
inductive TimeZone
  | unmarked
  | utc
  | offset (east : Bool) (hours : Fin 24) (minutes : Fin 60)

/-- A date and time of day that exists, with a fraction of any length and an optional zone. -/
structure IsoTime where
  date : Date
  year_lt : date.year < 10000
  hour : Fin 24
  minute : Fin 60
  second : Fin 60
  /-- The digits of the fraction. Without any there is no point either. -/
  fraction : List (Fin 10)
  zone : TimeZone

/-! ### The text -/

/-- A number below a hundred. -/
def twoDigits (n : ℕ) : List Char := [Nat.digitChar (n / 10), Nat.digitChar (n % 10)]

/-- A zone as it is written. -/
def TimeZone.chars : TimeZone → List Char
  | unmarked => []
  | utc => ['Z']
  | offset east hours minutes =>
      (if east then '+' else '-') :: twoDigits hours ++ ':' :: twoDigits minutes

/-- The fraction with its point; nothing where there are no digits. -/
def fractionChars : List (Fin 10) → List Char
  | [] => []
  | d :: ds => '.' :: (d :: ds).map (fun d : Fin 10 => Nat.digitChar d)

namespace IsoTime

variable (t : IsoTime)

/-- `YYYY-MM-DDTHH:MM:SS`. -/
def baseChars : List Char :=
  twoDigits (t.date.year / 100) ++ twoDigits (t.date.year % 100) ++ '-' :: twoDigits t.date.month ++
    '-' :: twoDigits t.date.day ++ 'T' :: twoDigits t.hour ++ ':' :: twoDigits t.minute ++
    ':' :: twoDigits t.second

/-- The whole text. -/
def text : String := .ofList (t.baseChars ++ fractionChars t.fraction ++ t.zone.chars)

end IsoTime

/-! ### The instant -/

/-- The part of a second. -/
def fractionValue : List (Fin 10) → ℚ
  | [] => 0
  | d :: ds => ((d : ℕ) + fractionValue ds) / 10

/-- Minutes ahead of UTC. -/
def TimeZone.minutesAhead : TimeZone → ℤ
  | offset east hours minutes => (if east then 1 else -1) * ((hours : ℕ) * 60 + (minutes : ℕ))
  | _ => 0

namespace IsoTime

variable (t : IsoTime)

/-- Seconds from 1970-01-01 to the time on the clock. -/
def clockSeconds : ℤ :=
  ((t.date.dayNumber : ℤ) - daysBeforeYear 1970) * 86400 + (t.hour : ℕ) * 3600 +
    (t.minute : ℕ) * 60 + (t.second : ℕ)

/-- Nanoseconds from 1970-01-01 UTC, with the fraction truncated to microseconds. -/
def instant : TimePoint :=
  t.clockSeconds * nsPerSec + ⌊fractionValue t.fraction * 10 ^ 6⌋ * 1000 -
    t.zone.minutesAhead * 60 * nsPerSec

end IsoTime

/-! ### The day of a date -/

theorem marchYears_eq (y : ℤ) :
    y / 400 * 146097 + (y - y / 400 * 400) * 365 + (y - y / 400 * 400) / 4
      - (y - y / 400 * 400) / 100 = 365 * y + y / 4 - y / 100 + y / 400 := by
  omega

/-- The days before the years that begin in March. -/
theorem marchYears_cast (year : ℕ) :
    365 * ((year : ℤ) - 1) + ((year : ℤ) - 1) / 4 - ((year : ℤ) - 1) / 100 + ((year : ℤ) - 1) / 400
      = daysBeforeYear year - 366 := by
  have hcount := daysBeforeYear_eq year
  omega

theorem daysFromCivil_eq (date : Date) :
    daysFromCivil date.year date.month date.day = (date.dayNumber : ℤ) - daysBeforeYear 1970 := by
  obtain ⟨year, month, day, hmonth, hmonth', hday, hday'⟩ := date
  have hepoch : daysBeforeYear 1970 = 719528 := by
    have hcount := daysBeforeYear_eq 1970
    omega
  have hmonths := daysBeforeMonth_eq year hmonth hmonth'
  rw [Date.dayNumber, daysFromCivil, hepoch]
  dsimp only
  by_cases hearly : month ≤ 2
  · have hyears := marchYears_cast year
    rw [if_pos hearly] at hmonths
    rw [if_pos (by exact_mod_cast hearly)]
    have hmarch := marchYears_eq ((year : ℤ) - 1)
    have hdays : (153 * (((month : ℤ) + 9) % 12) + 2) / 5 = 306 + 31 * ((month : ℤ) - 1) := by
      interval_cases month <;> rfl
    rw [hmonths]
    push_cast
    omega
  · have hyears := marchYears_cast (year + 1)
    rw [if_neg hearly] at hmonths
    rw [if_neg (by exact_mod_cast hearly)]
    have hmarch := marchYears_eq (year : ℤ)
    have hdays : (153 * (((month : ℤ) + 9) % 12) + 2) / 5 = ((153 * (month - 3) + 2) / 5 : ℕ) := by
      interval_cases month <;> rfl
    rw [daysBeforeYear_succ] at hyears
    rw [hmonths]
    push_cast at hyears ⊢
    rw [add_sub_cancel_right] at hyears
    split_ifs at hyears ⊢ <;> omega

/-! ### The bytes of the text -/

/-- The bytes of an array are read one after the other. -/
theorem toList_loop_eq (bytes : ByteArray) (i : ℕ) (r : List UInt8) :
    ByteArray.toList.loop bytes i r = r.reverse ++ bytes.data.toList.drop i := by
  fun_induction ByteArray.toList.loop bytes i r with
  | case1 i r h ih =>
      have hi : i < bytes.data.toList.length := by simpa using h
      rw [ih, List.drop_eq_getElem_cons hi]
      simp [ByteArray.get!, h]
  | case2 i r h =>
      rw [List.drop_eq_nil_of_le (by simpa using Nat.le_of_not_lt h)]
      simp

theorem toUTF8_toList_ofList {cs : List Char} (h : ∀ c ∈ cs, c.toNat < 128) :
    (String.ofList cs).toUTF8.toList = cs.map (fun c => c.val.toUInt8) := by
  have hbytes : cs.flatMap String.utf8EncodeChar = cs.map (fun c => c.val.toUInt8) := by
    rw [List.map_eq_flatMap]
    refine List.flatMap_congr (fun c hc => ?_)
    have hsize : c.utf8Size = 1 := by
      have hle : c.toNat ≤ 127 := Nat.le_of_lt_succ (h c hc)
      exact Char.utf8Size_eq_one_iff.2 (UInt32.le_iff_toNat_le.2 hle)
    exact String.utf8EncodeChar_eq_singleton hsize
  rw [String.toUTF8_eq_toByteArray, String.toByteArray_ofList, List.utf8Encode, hbytes,
    ByteArray.toList, toList_loop_eq, List.toList_data_toByteArray]
  rfl

/-- The code of an ASCII character. -/
def charCode (c : Char) : ℤ := c.toNat

theorem signedChars_ofList {cs : List Char} (h : ∀ n ∈ cs.map charCode, n < 128) :
    signedChars (.ofList cs) = cs.map charCode := by
  have hascii (c : Char) (hc : c ∈ cs) : c.toNat < 128 := by
    have hcode : ((c.toNat : ℕ) : ℤ) < 128 := h _ (List.mem_map_of_mem hc)
    exact_mod_cast hcode
  rw [signedChars, toUTF8_toList_ofList hascii, List.map_map]
  refine List.map_congr_left (fun c hc => ?_)
  have hlt := hascii c hc
  have hval : c.val.toUInt8.toNat = c.toNat := by
    rw [UInt32.toNat_toUInt8]
    exact Nat.mod_eq_of_lt (hlt.trans (by norm_num))
  rw [Function.comp_apply, hval]
  exact Int.bmod_eq_of_le (by omega) (by omega)

/-! ### The codes of the parts -/

/-- The code of a digit. -/
def digitCode (d : Fin 10) : ℤ := (d : ℕ) + 48

/-- The codes of two digits. -/
def digitCodes (n : ℕ) : List ℤ := [(n : ℤ) / 10 + 48, (n : ℤ) % 10 + 48]

/-- The codes of a fraction; 46 is the point. -/
def fractionCodes : List (Fin 10) → List ℤ
  | [] => []
  | d :: ds => 46 :: (d :: ds).map digitCode

/-- The codes of a zone. -/
def zoneCodes : TimeZone → List ℤ
  | .unmarked => []
  | .utc => [90]
  | .offset east hours minutes =>
      (if east then 43 else 45) :: digitCodes hours ++ 58 :: digitCodes minutes

theorem digitChar_code {n : ℕ} (h : n < 10) : charCode (Nat.digitChar n) = n + 48 := by
  rw [charCode, Nat.toNat_digitChar_of_lt_ten h]
  push_cast
  ring

theorem twoDigits_codes {n : ℕ} (h : n < 100) : (twoDigits n).map charCode = digitCodes n := by
  rw [twoDigits, List.map_cons, List.map_singleton, digitChar_code (by omega),
    digitChar_code (by omega)]
  push_cast
  rfl

theorem fractionChars_codes (ds : List (Fin 10)) :
    (fractionChars ds).map charCode = fractionCodes ds := by
  cases ds with
  | nil => rfl
  | cons d ds =>
      rw [fractionChars, fractionCodes, List.map_cons, List.map_map]
      exact congrArg (List.cons 46) (List.map_congr_left (fun d _ => digitChar_code (Fin.isLt d)))

theorem zoneChars_codes (zone : TimeZone) : zone.chars.map charCode = zoneCodes zone := by
  cases zone with
  | unmarked => rfl
  | utc => rfl
  | offset east hours minutes =>
      have hhours := hours.isLt
      have hminutes := minutes.isLt
      rw [TimeZone.chars, List.map_append, List.map_cons, List.map_cons, twoDigits_codes (by omega),
        twoDigits_codes (by omega)]
      cases east <;> rfl

theorem baseChars_codes (t : IsoTime) :
    t.baseChars.map charCode =
      digitCodes (t.date.year / 100) ++ digitCodes (t.date.year % 100) ++
        45 :: digitCodes t.date.month ++ 45 :: digitCodes t.date.day ++
        84 :: digitCodes t.hour ++ 58 :: digitCodes t.minute ++ 58 :: digitCodes t.second := by
  have hyear := t.year_lt
  have hmonth := t.date.month_le
  have hday := t.date.day_le.trans (monthLength_le _ _)
  have hhour := t.hour.isLt
  have hminute := t.minute.isLt
  have hsecond := t.second.isLt
  rw [IsoTime.baseChars]
  simp only [List.map_append, List.map_cons]
  rw [twoDigits_codes (by omega), twoDigits_codes (by omega), twoDigits_codes (by omega),
    twoDigits_codes (by omega), twoDigits_codes (by omega), twoDigits_codes (by omega),
    twoDigits_codes (by omega)]
  rfl

theorem baseChars_length (t : IsoTime) : (t.baseChars.map charCode).length = 19 := by
  rw [List.length_map]
  rfl

theorem digitCodes_lt {n : ℕ} (h : n < 100) : ∀ c ∈ digitCodes n, c < 128 := by
  simp only [digitCodes, List.mem_cons, List.not_mem_nil, or_false, forall_eq_or_imp, forall_eq]
  omega

theorem fractionCodes_lt (ds : List (Fin 10)) : ∀ c ∈ fractionCodes ds, c < 128 := by
  cases ds with
  | nil => exact fun c hc => absurd hc List.not_mem_nil
  | cons d ds =>
      intro c hc
      obtain rfl | hc := List.mem_cons.1 hc
      · norm_num
      · obtain ⟨d, -, rfl⟩ := List.mem_map.1 hc
        have hlt := d.isLt
        rw [digitCode]
        omega

theorem zoneCodes_lt (zone : TimeZone) : ∀ c ∈ zoneCodes zone, c < 128 := by
  cases zone with
  | unmarked => exact fun c hc => absurd hc List.not_mem_nil
  | utc => decide
  | offset east hours minutes =>
      intro c hc
      rw [zoneCodes, List.mem_append, List.mem_cons, List.mem_cons] at hc
      obtain (rfl | hc) | rfl | hc := hc
      · cases east <;> norm_num
      · exact digitCodes_lt (hours.isLt.trans (by norm_num)) c hc
      · norm_num
      · exact digitCodes_lt (minutes.isLt.trans (by norm_num)) c hc

theorem baseCodes_lt (t : IsoTime) : ∀ c ∈ t.baseChars.map charCode, c < 128 := by
  have hyear := t.year_lt
  have hmonth := t.date.month_le
  have hday := t.date.day_le.trans (monthLength_le _ _)
  have hhour := t.hour.isLt
  have hminute := t.minute.isLt
  have hsecond := t.second.isLt
  rw [baseChars_codes]
  simp only [digitCodes, List.cons_append, List.nil_append, List.mem_cons, List.not_mem_nil,
    or_false, forall_eq_or_imp, forall_eq]
  omega

/-- What `parse_timestamp` reads. -/
theorem signedChars_text (t : IsoTime) :
    signedChars t.text = t.baseChars.map charCode ++ (fractionCodes t.fraction ++ zoneCodes t.zone) := by
  have hcodes : (t.baseChars ++ fractionChars t.fraction ++ t.zone.chars).map charCode
      = t.baseChars.map charCode ++ (fractionCodes t.fraction ++ zoneCodes t.zone) := by
    rw [List.map_append, List.map_append, fractionChars_codes, zoneChars_codes, List.append_assoc]
  rw [IsoTime.text, signedChars_ofList, hcodes]
  intro c hc
  rw [hcodes, List.mem_append, List.mem_append] at hc
  obtain hc | hc | hc := hc
  · exact baseCodes_lt t c hc
  · exact fractionCodes_lt _ c hc
  · exact zoneCodes_lt _ c hc

/-! ### What is read from the codes -/

theorem tens_and_ones (n : ℕ) : ((n : ℤ) / 10 + 48 - 48) * 10 + ((n : ℤ) % 10 + 48 - 48) = n := by
  omega

theorem civilSeconds_codes (t : IsoTime) (rest : List ℤ) :
    civilSeconds (t.baseChars.map charCode ++ rest) = t.clockSeconds := by
  have hmonth := t.date.month_le
  have hmonth' := t.date.one_le_month
  rw [baseChars_codes, civilSeconds, IsoTime.clockSeconds, ← daysFromCivil_eq t.date]
  simp only [digitCodes, List.cons_append, List.nil_append, List.getD_cons_zero,
    List.getD_cons_succ, tens_and_ones]
  have hyear : ((t.date.year / 100 : ℕ) / 10 + 48 - 48) * 1000
      + (((t.date.year / 100 : ℕ) : ℤ) % 10 + 48 - 48) * 100
      + (((t.date.year % 100 : ℕ) : ℤ) / 10 + 48 - 48) * 10
      + (((t.date.year % 100 : ℕ) : ℤ) % 10 + 48 - 48) = (t.date.year : ℤ) := by
    push_cast
    omega
  have hcarry : ((t.date.month : ℤ) - 1) / 12 = 0 := by omega
  have hmon : ((t.date.month : ℤ) - 1) % 12 + 1 = t.date.month := by omega
  rw [hyear, timegm, hcarry, hmon, add_zero]

theorem fractionValue_mem (ds : List (Fin 10)) : 0 ≤ fractionValue ds ∧ fractionValue ds < 1 := by
  induction ds with
  | nil => exact ⟨le_rfl, one_pos⟩
  | cons d ds ih =>
      have hd : ((d : ℕ) : ℚ) ≤ 9 := by exact_mod_cast Nat.le_of_lt_succ d.isLt
      have hnonneg := ih.1
      rw [fractionValue]
      constructor
      · positivity
      · linarith [ih.2]

/-- What has been read moves up by the digits that follow. -/
theorem foldl_digits (us : ℤ) (cs : List ℤ) :
    cs.foldl (fun us c => us * 10 + (c - 48)) us
      = us * 10 ^ cs.length + cs.foldl (fun us c => us * 10 + (c - 48)) 0 := by
  induction cs generalizing us with
  | nil => simp
  | cons c cs ih =>
      rw [List.foldl_cons, List.foldl_cons, ih, ih (0 * 10 + (c - 48)), List.length_cons, pow_succ]
      ring

theorem floor_fraction (ds : List (Fin 10)) (n : ℕ) :
    ((ds.map digitCode).take n).foldl (fun us c => us * 10 + (c - 48)) 0
        * 10 ^ (n - ((ds.map digitCode).take n).length)
      = ⌊fractionValue ds * 10 ^ n⌋ := by
  induction n generalizing ds with
  | zero =>
      have hvalue := fractionValue_mem ds
      rw [List.take_zero, pow_zero, mul_one, Int.floor_eq_zero_iff.2 ⟨hvalue.1, hvalue.2⟩]
      rfl
  | succ n ih =>
      cases ds with
      | nil => simp [fractionValue]
      | cons d ds =>
          have hsplit : fractionValue (d :: ds) * 10 ^ (n + 1)
              = (((d : ℕ) * 10 ^ n : ℕ) : ℚ) + fractionValue ds * 10 ^ n := by
            rw [fractionValue, pow_succ]
            push_cast
            ring
          have hlength : ((ds.map digitCode).take n).length ≤ n := List.length_take_le _ _
          rw [hsplit, Int.floor_natCast_add, ← ih, List.map_cons, List.take_succ_cons,
            List.foldl_cons, foldl_digits, List.length_cons, Nat.add_sub_add_right, add_mul, mul_assoc,
            ← pow_add, Nat.add_sub_cancel' hlength, digitCode]
          push_cast
          ring

theorem subMicros_digits (ds : List (Fin 10)) :
    subMicros (ds.map digitCode) = ⌊fractionValue ds * 10 ^ 6⌋ :=
  floor_fraction ds 6

theorem zoneMinutes_codes (zone : TimeZone) : zoneMinutes (zoneCodes zone) = zone.minutesAhead := by
  cases zone with
  | unmarked => rfl
  | utc => rfl
  | offset east hours minutes =>
      have hhours := tens_and_ones hours
      have hminutes := tens_and_ones minutes
      cases east <;>
        simp only [zoneCodes, zoneMinutes, TimeZone.minutesAhead, digitCodes, List.cons_append,
          List.nil_append, List.getD_cons_zero, List.getD_cons_succ, hhours, hminutes] <;>
        norm_num

theorem isDigitChar_digitCode (d : Fin 10) : isDigitChar (digitCode d) = true := by
  have hlt := d.isLt
  rw [isDigitChar, digitCode]
  exact decide_eq_true (by omega)

/-- A zone ends the digits. -/
theorem digits_zoneCodes (ds : List (Fin 10)) (zone : TimeZone) :
    (ds.map digitCode ++ zoneCodes zone).takeWhile isDigitChar = ds.map digitCode ∧
      (ds.map digitCode ++ zoneCodes zone).dropWhile isDigitChar = zoneCodes zone := by
  have hdigits : ∀ c ∈ ds.map digitCode, isDigitChar c = true := by
    intro c hc
    obtain ⟨d, -, rfl⟩ := List.mem_map.1 hc
    exact isDigitChar_digitCode d
  have hzone : (zoneCodes zone).takeWhile isDigitChar = [] ∧
      (zoneCodes zone).dropWhile isDigitChar = zoneCodes zone := by
    cases zone with
    | unmarked => exact ⟨rfl, rfl⟩
    | utc => exact ⟨rfl, rfl⟩
    | offset east hours minutes => cases east <;> exact ⟨rfl, rfl⟩
  rw [List.takeWhile_append_of_pos hdigits, List.dropWhile_append_of_pos hdigits, hzone.1, hzone.2,
    List.append_nil]
  exact ⟨rfl, rfl⟩

theorem zoneCodes_getD (zone : TimeZone) : (zoneCodes zone).getD 0 0 ≠ 46 := by
  cases zone with
  | unmarked => decide
  | utc => decide
  | offset east hours minutes => cases east <;> norm_num [zoneCodes]

/-! ### The range of the clock -/

/-- The points of time that `system_clock` can hold: from 1677-09-21T00:12:43.145224192 to
2262-04-11T23:47:16.854775807. -/
def Representable (ns : ℤ) : Prop := -2 ^ 63 ≤ ns ∧ ns < 2 ^ 63

instance : DecidablePred Representable := fun _ => inferInstanceAs (Decidable (_ ∧ _))

@[simp]
theorem systemClock_add (a b : ℤ) : systemClock (systemClock a + b) = systemClock (a + b) :=
  Int.bmod_add_bmod

@[simp]
theorem systemClock_sub (a b : ℤ) : systemClock (systemClock a - b) = systemClock (a - b) :=
  Int.bmod_sub_bmod

theorem representable_systemClock (ns : ℤ) : Representable (systemClock ns) :=
  ⟨Int.le_bmod (by norm_num), Int.bmod_lt (by norm_num)⟩

theorem systemClock_eq_iff (ns : ℤ) : systemClock ns = ns ↔ Representable ns := by
  constructor
  · intro h
    have hclock := representable_systemClock ns
    rwa [h] at hclock
  · rintro ⟨hlow, hhigh⟩
    exact Int.bmod_eq_of_le (by omega) (by omega)

/-! ### The law -/

/-- Every form of fraction and zone is read as the instant that it denotes, up to the range. -/
theorem parseTimestamp_eq (t : IsoTime) : parseTimestamp t.text = systemClock t.instant := by
  have hlength := baseChars_length t
  have hdrop (rest : List ℤ) : (t.baseChars.map charCode ++ rest).drop 19 = rest :=
    List.drop_left' hlength
  have hpoint (rest : List ℤ) : (t.baseChars.map charCode ++ rest).getD 19 0 = rest.getD 0 0 := by
    rw [List.getD_eq_getElem?_getD, List.getElem?_append_right hlength.le, hlength,
      List.getD_eq_getElem?_getD]
  rw [parseTimestamp, IsoTime.instant, signedChars_text]
  dsimp only
  rw [if_neg (by rw [List.length_append, hlength]; omega), civilSeconds_codes, hpoint, hdrop,
    systemClock_add, systemClock_sub]
  cases hfraction : t.fraction with
  | nil =>
      have hnone : ¬ ((fractionCodes [] ++ zoneCodes t.zone).getD 0 0 = 46) := zoneCodes_getD t.zone
      rw [if_neg (fun h => hnone h.2), if_neg (fun h => hnone h.2)]
      have hmicros : subMicros [] = ⌊fractionValue [] * 10 ^ 6⌋ := subMicros_digits []
      rw [hmicros, fractionCodes, List.nil_append, zoneMinutes_codes]
  | cons d ds =>
      have hcond :
          20 < (t.baseChars.map charCode ++ (fractionCodes (d :: ds) ++ zoneCodes t.zone)).length ∧
          (fractionCodes (d :: ds) ++ zoneCodes t.zone).getD 0 0 = 46 := by
        refine ⟨?_, rfl⟩
        rw [List.length_append, hlength, fractionCodes]
        simp only [List.length_append, List.length_cons, List.length_map]
        omega
      have hdigits : (t.baseChars.map charCode ++ (fractionCodes (d :: ds) ++ zoneCodes t.zone)).drop 20
          = (d :: ds).map digitCode ++ zoneCodes t.zone := by
        rw [← List.drop_drop (i := 1) (j := 19), hdrop]
        rfl
      rw [if_pos hcond, if_pos hcond, hdigits, (digits_zoneCodes (d :: ds) t.zone).1,
        (digits_zoneCodes (d :: ds) t.zone).2, subMicros_digits, zoneMinutes_codes]

/-- A text is read as the instant that it denotes exactly when the clock can hold that instant. -/
theorem parseTimestamp_text (t : IsoTime) :
    parseTimestamp t.text = t.instant ↔ Representable t.instant := by
  rw [parseTimestamp_eq]
  exact systemClock_eq_iff t.instant

/-- `9999-12-31T23:59:59Z`. -/
def lastSecond : IsoTime where
  date := ⟨9999, 12, 31, by decide, by decide, by decide, by decide⟩
  year_lt := by decide
  hour := 23
  minute := 59
  second := 59
  fraction := []
  zone := .utc

/-- The last second that the format can write is read as one of 1816. -/
theorem parseTimestamp_lastSecond :
    lastSecond.text = "9999-12-31T23:59:59Z" ∧
      parseTimestamp lastSecond.text = parseTimestamp "1816-03-30T05:56:07.066277Z" + 376 ∧
      parseTimestamp lastSecond.text ≠ lastSecond.instant := by
  have htext : lastSecond.text = "9999-12-31T23:59:59Z" := by decide
  have hinstant : lastSecond.instant = 253402300799 * nsPerSec := by
    rw [IsoTime.instant, IsoTime.clockSeconds, ← daysFromCivil_eq]
    decide +kernel
  rw [hinstant, htext]
  decide +kernel

end TradeBot
