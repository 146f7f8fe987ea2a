import VoltageStats.Decimal.Literal

/-!
# Dates and times

A date is a year, a month and a day that the month has. A time is an hour, a minute and a second,
with or without a fraction. A moment is one of them, or both, and then possibly with the distance
from universal time. All are recognised, but not turned into values.
-/

namespace VoltageStats.Toml

open Literal (natural?)

/-- The number of days in a month. -/
def monthLength (year month : Nat) : Nat :=
  let isLeap := year % 4 = 0 && (year % 100 ≠ 0 || year % 400 = 0)
  if month = 2 then (if isLeap then 29 else 28)
  else if month = 4 || month = 6 || month = 9 || month = 11 then 30 else 31

/-- Whether characters are a date. -/
def isDate (chars : List Char) : Bool :=
  match natural? (chars.take 4), natural? ((chars.drop 5).take 2), natural? (chars.drop 8) with
  | some year, some month, some day =>
    chars.length = 10 && chars[4]? = some '-' && chars[7]? = some '-' &&
      1 ≤ month && month ≤ 12 && 1 ≤ day && day ≤ monthLength year month
  | _, _, _ => false

/-- Whether characters are two parts below some bounds with a colon between them. -/
def isHourMinute (chars : List Char) : Bool :=
  match natural? (chars.take 2), natural? (chars.drop 3) with
  | some hour, some minute => chars.length = 5 && chars[2]? = some ':' && hour < 24 && minute < 60
  | _, _ => false

/-- Whether characters are a distance from universal time. -/
def isOffset : List Char → Bool
  | [c] => c = 'Z' || c = 'z'
  | c :: rest => (c = '+' || c = '-') && isHourMinute rest
  | [] => false

/-- The characters after a time at their front. A leap second is allowed. -/
def afterTime? (chars : List Char) : Option (List Char) := do
  if !isHourMinute (chars.take 5) || chars[5]? ≠ some ':' then none
  let second ← natural? ((chars.drop 6).take 2)
  if chars.length < 8 || 60 < second then none
  match chars.drop 8 with
  | '.' :: rest =>
    let digits := rest.takeWhile Char.isDigit
    if digits = [] then none else return rest.drop digits.length
  | rest => return rest

/-- Whether characters start as a time does. -/
def startsTime : List Char → Bool
  | a :: b :: ':' :: _ => a.isDigit && b.isDigit
  | _ => false

/-- Whether characters are a moment. -/
def isMoment (chars : List Char) : Bool :=
  isDate chars || afterTime? chars = some [] ||
    (isDate (chars.take 10) &&
      match chars.drop 10 with
      | c :: time =>
        (c = 'T' || c = 't' || c = ' ') &&
          match afterTime? time with
          | some rest => rest = [] || isOffset rest
          | none => false
      | [] => false)

end VoltageStats.Toml
