import HaoShortLink.Cpp

/-! UTC timestamps of the API, YYYY-MM-DDTHH:MM:SSZ (ShortLinkService.cpp). -/
namespace UtcTimestamps

open Cpp

def isLeapYear (year : ℤ) : Bool := year % 4 == 0 && (year % 100 != 0 || year % 400 == 0)

def daysInMonth (year month : ℤ) : ℤ :=
  if month = 2 ∧ isLeapYear year then 29
  else [31, 28, 31, 30, 31, 30, 31, 31, 30, 31, 30, 31].getD (month - 1).toNat 0

def daysFromCivil (year month day : ℤ) : ℤ :=
  let year := if month ≤ 2 then year - 1 else year
  let era := year / 400
  let yearOfEra := year - era * 400
  let adjustedMonth := month + if month > 2 then -3 else 9
  let dayOfYear := (153 * adjustedMonth + 2) / 5 + day - 1
  let dayOfEra := yearOfEra * 365 + yearOfEra / 4 - yearOfEra / 100 + dayOfYear
  era * 146097 + dayOfEra - 719468

def parseDigits (value : Bytes) (start count : ℕ) : Option ℤ :=
  let digits := (value.drop start).take count
  if digits.all isDigit then some (digits.foldl (fun n d => n * 10 + (d.toNat - 48)) 0) else none

def parseUtcTimestamp (value : Bytes) : Option ℤ := do
  guard (value.length = 20 ∧ value[4]? = some 45 ∧ value[7]? = some 45 ∧ value[10]? = some 84 ∧
    value[13]? = some 58 ∧ value[16]? = some 58 ∧ value[19]? = some 90)
  let year ← parseDigits value 0 4
  let month ← parseDigits value 5 2
  let day ← parseDigits value 8 2
  let hour ← parseDigits value 11 2
  let minute ← parseDigits value 14 2
  let second ← parseDigits value 17 2
  guard (1970 ≤ year ∧ 1 ≤ month ∧ month ≤ 12 ∧ 1 ≤ day ∧ day ≤ daysInMonth year month ∧
    hour ≤ 23 ∧ minute ≤ 59 ∧ second ≤ 59)
  pure (daysFromCivil year month day * 86400 + hour * 3600 + minute * 60 + second)

structure Tm where
  year : ℤ
  month : ℤ
  day : ℤ
  hour : ℤ
  minute : ℤ
  second : ℤ
  deriving DecidableEq, Repr

/-- gmtime_r as glibc has it: a year that does not fit tm_year is cut to an int, and then month and
day are left as they were, zeroed. -/
def gmtime (epochSeconds : ℤ) : Tm :=
  let days := epochSeconds / 86400
  let secondOfDay := epochSeconds % 86400
  let z := days + 719468
  let dayOfEra := z % 146097
  let yearOfEra :=
    (dayOfEra - dayOfEra / 1460 + dayOfEra / 36524 - dayOfEra / 146096) / 365
  let dayOfYear := dayOfEra - (365 * yearOfEra + yearOfEra / 4 - yearOfEra / 100)
  let adjustedMonth := (5 * dayOfYear + 2) / 153
  let month := if adjustedMonth < 10 then adjustedMonth + 3 else adjustedMonth - 9
  let year := yearOfEra + z / 146097 * 400 + if month ≤ 2 then 1 else 0
  if -2 ^ 31 ≤ year - 1900 ∧ year - 1900 < 2 ^ 31 then
    ⟨year, month, dayOfYear - (153 * adjustedMonth + 2) / 5 + 1, secondOfDay / 3600,
      secondOfDay / 60 % 60, secondOfDay % 60⟩
  else ⟨(year - 1900).bmod (2 ^ 32) + 1900, 1, 0, secondOfDay / 3600, secondOfDay / 60 % 60,
    secondOfDay % 60⟩

def twoDigits (n : ℤ) : Bytes := toDecimal (n / 10).toNat ++ toDecimal (n % 10).toNat

def formatUtcTimestamp (epochSeconds : ℤ) : Bytes :=
  let utc := gmtime epochSeconds
  signedToDecimal utc.year ++ ascii "-" ++ twoDigits utc.month ++ ascii "-" ++ twoDigits utc.day ++
    ascii "T" ++ twoDigits utc.hour ++ ascii ":" ++ twoDigits utc.minute ++ ascii ":" ++
    twoDigits utc.second ++ ascii "Z"

/-- With milliseconds; C++ division and remainder truncate towards zero. -/
def formatUtcTimestampMs (epochMilliseconds : ℤ) : Bytes :=
  let fraction := signedToDecimal (epochMilliseconds.tmod 1000)
  (formatUtcTimestamp (epochMilliseconds.tdiv 1000)).dropLast ++ ascii "." ++
    List.replicate (3 - fraction.length) 48 ++ fraction ++ ascii "Z"

end UtcTimestamps
