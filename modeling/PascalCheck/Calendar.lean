
namespace PascalCheck.Calendar

def isLeapYear (year : Nat) : Bool := year % 4 == 0 && (year % 100 != 0 || year % 400 == 0)

def daysIn (year month : Nat) : Nat :=
  if month = 2 then if isLeapYear year then 29 else 28
  else if month = 4 || month = 6 || month = 9 || month = 11 then 30
  else 31

def digit? (c : Char) : Option Nat := if c.isDigit then some (c.toNat - '0'.toNat) else none

/-- A number of two digits; if short numbers are allowed, one digit will do. -/
def twoDigits? (short : Bool) : List Char → Option (Nat × List Char)
  | [] => none
  | c :: cs => do
    let d ← digit? c
    match cs with
    | c' :: rest =>
      match digit? c' with
      | some d' => some (10 * d + d', rest)
      | none => if short then some (d, cs) else none
    | [] => if short then some (d, cs) else none

def after? (c : Char) : List Char → Option (List Char)
  | c' :: cs => if c' = c then some cs else none
  | [] => none

def date? (short : Bool) (cs : List Char) : Option (List Char) := do
  let (century, cs) ← twoDigits? false cs
  let (year, cs) ← twoDigits? false cs
  let (month, cs) ← twoDigits? short (← after? '-' cs)
  let (day, cs) ← twoDigits? short (← after? '-' cs)
  let exists? := 1 ≤ month && month ≤ 12 && 1 ≤ day && day ≤ daysIn (century * 100 + year) month
  if exists? then some cs else none

def afterFraction : List Char → List Char
  | p :: d :: cs =>
    if (p = '.' || p = ',') && d.isDigit then cs.dropWhile Char.isDigit else p :: d :: cs
  | cs => cs

def time? (short : Bool) (cs : List Char) : Option (List Char) := do
  let (hour, cs) ← twoDigits? short cs
  let (minute, cs) ← twoDigits? short (← after? ':' cs)
  let (second, cs) ← twoDigits? short (← after? ':' cs)
  if hour < 24 && minute < 60 && second < 60 then some (afterFraction cs) else none

/-- What follows an offset from universal time; a whole day and a whole hour are allowed. -/
def offset? : List Char → Option (List Char)
  | 'Z' :: cs => some cs
  | sign :: cs => do
    if sign != '+' && sign != '-' then none
    let (hours, cs) ← twoDigits? false cs
    let (minutes, cs) ← twoDigits? false (← after? ':' cs)
    if hours ≤ 24 && minutes ≤ 60 then some cs else none
  | [] => none

end PascalCheck.Calendar
