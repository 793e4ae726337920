import Mathlib.Data.Rat.Floor
import ShipmentManager.Platform

/-!
# Tracking numbers and dates

`generateTrackingNumber` from the local date and eight random draws, and the ISO form of a time in UTC.
-/

namespace ShipmentManager

/-- A local calendar date as `Date` gives it: the month counts from 0. -/
structure LocalDate where
  year : Nat
  month : Nat
  day : Nat

/-- `padStart(width, '0')` -/
def padStart (width : Nat) (t : Text) : Text := List.replicate (width - t.length) 48 ++ t

/-- `characters.charAt(i)`: empty outside the string. -/
def charAt (t : Text) (i : Int) : Text := if i < 0 then [] else (t[i.toNat]?).toList

def characters : Text := js "ABCDEFGHIJKLMNOPQRSTUVWXYZ0123456789"

def randomText (random : Nat → Rat) : Text :=
  (List.range 8).foldl (fun s i => s ++ charAt characters ⌊random i * characters.length⌋) []

def dateText (now : LocalDate) : Text :=
  decimal now.year ++ padStart 2 (decimal (now.month + 1)) ++ padStart 2 (decimal now.day)

def generateTrackingNumber (now : LocalDate) (random : Nat → Rat) : Text :=
  js "SHP" ++ js "-" ++ dateText now ++ js "-" ++ randomText random

/-- The year, the month from 1 and the day of a number of days since 1970-01-01. -/
def civilOfDays (days : Int) : Int × Int × Int :=
  let z := days + 719468
  let era := z / 146097
  let doe := z % 146097
  let yoe := (doe - doe / 1460 + doe / 36524 - doe / 146096) / 365
  let doy := doe - (365 * yoe + yoe / 4 - yoe / 100)
  let mp := (5 * doy + 2) / 153
  let month := if mp < 10 then mp + 3 else mp - 9
  (yoe + era * 400 + (if month ≤ 2 then 1 else 0), month, doy - (153 * mp + 2) / 5 + 1)

def yearText (year : Int) : Text :=
  if 0 ≤ year ∧ year ≤ 9999 then padStart 4 (decimal year.natAbs)
  else (if year < 0 then 45 else 43) :: padStart 6 (decimal year.natAbs)

/-- `new Date(ms).toISOString()` for the time of a valid date.  Outside the range of dates, which no stored time leaves,
the method throws and this function goes on counting. -/
def toISOString (ms : Int) : Text :=
  let (year, month, day) := civilOfDays (ms / 86400000)
  let t := ms % 86400000
  let field (width : Nat) (n : Int) : Text := padStart width (decimal n.natAbs)
  yearText year ++ js "-" ++ field 2 month ++ js "-" ++ field 2 day ++ js "T" ++ field 2 (t / 3600000) ++ js ":" ++
    field 2 (t / 60000 % 60) ++ js ":" ++ field 2 (t / 1000 % 60) ++ js "." ++ field 3 (t % 1000) ++ js "Z"

end ShipmentManager
