import Reflash.Toml.Quotation
/-!
# Dates and times

A moment is a date, a time of day, or a date and a time with or without an offset from universal
time. Only its form is checked; nothing is done with a moment. All marks of a part have to be in
their places before its numbers are looked at.
-/

namespace Reflash.Toml.Moment

abbrev Reader (α : Type) : Type := List Char → Except MomentError (α × List Char)

def digits (part : MomentPart) (expected : String) : Reader (List Char) := fun s =>
  let (run, r) := s.span Char.isDigit
  if run.isEmpty then .error (.lacking part expected) else .ok (run, r)

def mark (part : MomentPart) (c : Char) (expected : String) : Reader Unit
  | d :: r => if c = d then .ok ((), r) else .error (.lacking part expected)
  | [] => .error (.lacking part expected)

def fixed (part : MomentPart) (count : Nat) (expected : String) (run : List Char) :
    Except MomentError Nat :=
  if run.length = count then .ok (ofDigits 10 (run.filterMap (digit? 10)))
  else .error (.lacking part expected)

def within (part : MomentPart) (low high : Nat) (expected : String) (n : Nat) :
    Except MomentError Unit :=
  if low ≤ n ∧ n ≤ high then .ok () else .error (.lacking part expected)

def daysOfMonth (year month : Nat) : Nat :=
  let leap := year % 4 = 0 ∧ (year % 100 ≠ 0 ∨ year % 400 = 0)
  if month = 2 then if leap then 29 else 28
  else if month ∈ [4, 6, 9, 11] then 30
  else 31

def date (year : List Char) : Reader Unit := fun s => do
  let (month, r) ← digits .date "month" s
  let (_, r) ← mark .date '-' (ticked "-" ++ " (MM-DD)") r
  let (day, r) ← digits .date "day" r
  let year ← fixed .date 4 "a four-digit year (YYYY)" year
  let month ← fixed .date 2 "a two-digit month (MM)" month
  let day ← fixed .date 2 "a two-digit day (DD)" day
  within .date 1 12 "month between 01 and 12" month
  let days := daysOfMonth year month
  within .date 1 days s!"day between 01 and {days}" day
  return ((), r)

def optionalDigits (c : Char) (expected : String) : Reader (Option (List Char))
  | d :: r =>
    if c = d then do
      let (run, r) ← digits .time expected r
      return (some run, r)
    else .ok (none, d :: r)
  | [] => .ok (none, [])

/-- A time of day. The seconds can be missing, and so can their fraction. -/
def time : Reader Unit := fun s => do
  let (hour, r) ← digits .time "hour" s
  let (_, r) ← mark .time ':' (ticked ":" ++ " (HH:MM)") r
  let (minute, r) ← digits .time "minute" r
  let (second, r) ← optionalDigits ':' "second" r
  let (_, r) ← if second.isSome then optionalDigits '.' "nanosecond" r else pure (none, r)
  let hour ← fixed .time 2 "a two-digit hour (HH)" hour
  let minute ← fixed .time 2 "a two-digit minute (MM)" minute
  let second ← fixed .time 2 "a two-digit second (SS)" (second.getD ['0', '0'])
  within .time 0 23 "hour between 00 and 23" hour
  within .time 0 59 "minute between 00 and 59" minute
  within .time 0 60 "second between 00 and 60" second
  return ((), r)

def offset : Reader Unit
  | [] => .ok ((), [])
  | 'Z' :: r | 'z' :: r => .ok ((), r)
  | '+' :: r | '-' :: r => do
    let (hours, r) ← digits .offset "hour" r
    let (_, r) ← mark .offset ':' (ticked ":" ++ " (HH:MM)") r
    let (minutes, r) ← digits .offset "minute" r
    let hours ← fixed .offset 2 "a two-digit hour (HH)" hours
    let minutes ← fixed .offset 2 "a two-digit minute (MM)" minutes
    within .offset 0 23 "hours between 00 and 23" hours
    within .offset 0 59 "minutes between 00 and 59" minutes
    return ((), r)
  | _ => .error (.lacking .offset (ticked "Z" ++ ", +OFFSET, -OFFSET"))

/-- What follows a date: nothing, or a time and perhaps an offset. -/
def behindDate : Reader Unit
  | [] => .ok ((), [])
  | 'T' :: r | 't' :: r | ' ' :: r => do
    let (_, r) ← time r
    offset r
  | _ => .error (.lacking .link (ticked "T" ++ " between date and time"))

def check (s : List Char) : Except MomentError Unit := do
  let (year, r) ← digits .whole "year or hour" s
  let (_, r) ← match r with
    | '-' :: r => do
      let (_, r) ← date year r
      behindDate r
    | ':' :: _ => time s
    | _ => throw (.lacking .whole
        (ticked "-" ++ " (YYYY-MM) or " ++ ticked ":" ++ " (HH:MM)"))
  if !r.isEmpty then throw .goesOn

end Reflash.Toml.Moment
