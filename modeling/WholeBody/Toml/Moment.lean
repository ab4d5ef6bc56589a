import WholeBody.Toml.Scan

/-!
# Dates and times

The dates, times and offsets that a document may contain. Each function answers with the characters
after what it has read.
-/

namespace WholeBody.Toml

/-- A number of two digits in a range. -/
def twoDigits (low high : Nat) : Parser Nat
  | a :: b :: cs => do
    let x ← digit? 10 a
    let y ← digit? 10 b
    if low ≤ 10 * x + y ∧ 10 * x + y ≤ high then some (10 * x + y, cs) else none
  | _ => none

def skipChar (c : Char) : List Char → Option (List Char)
  | d :: cs => if d = c then some cs else none
  | [] => none

def isLeapYear (year : Nat) : Bool := year % 4 = 0 && (year % 100 ≠ 0 || year % 400 = 0)

def daysIn (year month : Nat) : Nat :=
  if month = 2 then if isLeapYear year then 29 else 28
  else if month ∈ [4, 6, 9, 11] then 30
  else 31

/-- Year, month and day. -/
def skipDate (cs : List Char) : Option (List Char) := do
  let (century, cs) ← twoDigits 0 99 cs
  let (year, cs) ← twoDigits 0 99 cs
  let cs ← skipChar '-' cs
  let (month, cs) ← twoDigits 1 12 cs
  let cs ← skipChar '-' cs
  let (_, cs) ← twoDigits 1 (daysIn (100 * century + year) month) cs
  return cs

/-- A fraction of a second, if there is one. -/
def skipFraction : List Char → List Char
  | '.' :: c :: cs => if c.isDigit then cs.dropWhile Char.isDigit else '.' :: c :: cs
  | cs => cs

/-- Hours, minutes and seconds. The last minute of a day may have a leap second. -/
def skipTime (cs : List Char) : Option (List Char) := do
  let (_, cs) ← twoDigits 0 23 cs
  let cs ← skipChar ':' cs
  let (_, cs) ← twoDigits 0 59 cs
  let cs ← skipChar ':' cs
  let (_, cs) ← twoDigits 0 60 cs
  return skipFraction cs

/-- The offset from universal time, if there is one. -/
def skipOffset : List Char → Option (List Char)
  | [] => some []
  | c :: cs =>
    if c = 'Z' ∨ c = 'z' then some cs
    else if c = '+' ∨ c = '-' then do
      let (_, cs) ← twoDigits 0 23 cs
      let cs ← skipChar ':' cs
      let (_, cs) ← twoDigits 0 59 cs
      return cs
    else some (c :: cs)

/-- What follows a date: a time with an optional offset, or nothing that belongs to it. -/
def skipTimeOfDay : List Char → Option (List Char)
  | [] => some []
  | c :: cs =>
    if c = 'T' ∨ c = 't' ∨ c = ' ' then
      match skipTime cs with
      | some rest => skipOffset rest
      | none => some (c :: cs)
    else some (c :: cs)

/-- A date, a time or both. -/
def skipMoment (cs : List Char) : Option (List Char) :=
  match skipDate cs with
  | some rest => skipTimeOfDay rest
  | none => skipTime cs

end WholeBody.Toml
