import OtaUpgrade.Toml.Number

/-!
Dates and times in TOML. They are only checked: a date exists in the calendar, an hour is below 24, a
minute below 60, and a second below 61.
-/
namespace OtaUpgrade.Toml

/-- Reads exactly `count` digits. -/
def takeCount? (count : Nat) (cs : List Char) : Option (Nat × List Char) :=
  let digits := cs.take count
  if digits.length = count && digits.all isDigit then
    some (ofDigits 10 digits, cs.drop count)
  else none

/-- Reads `count` digits whose number lies between two bounds. -/
def takeWithin? (count low high : Nat) (cs : List Char) : Option (Nat × List Char) :=
  match takeCount? count cs with
  | some (n, rest) => if low ≤ n ∧ n ≤ high then some (n, rest) else none
  | none => none

/-- Reads one given character. -/
def takeMark? (mark : Char) : List Char → Option (List Char)
  | c :: rest => if c = mark then some rest else none
  | [] => none

/-- A year with a twenty-ninth of February. -/
def isLeap (year : Nat) : Bool :=
  year % 4 == 0 && (year % 100 != 0 || year % 400 == 0)

/-- How many days a month has. -/
def daysIn (year month : Nat) : Nat :=
  if month = 2 then (if isLeap year then 29 else 28)
  else if month = 4 ∨ month = 6 ∨ month = 9 ∨ month = 11 then 30
  else 31

/-- Reads a date. -/
def takeDate? (cs : List Char) : Option (List Char) := do
  let (year, cs) ← takeCount? 4 cs
  let cs ← takeMark? '-' cs
  let (month, cs) ← takeWithin? 2 1 12 cs
  let cs ← takeMark? '-' cs
  let (_, cs) ← takeWithin? 2 1 (daysIn year month) cs
  return cs

/-- Reads the digits behind a point, if there is one. -/
def takeSecondFraction? : List Char → Option (List Char)
  | '.' :: rest =>
    let digits := rest.takeWhile isDigit
    if digits.isEmpty then none else some (rest.drop digits.length)
  | cs => some cs

/-- Reads a time of day. -/
def takeTime? (cs : List Char) : Option (List Char) := do
  let (_, cs) ← takeWithin? 2 0 23 cs
  let cs ← takeMark? ':' cs
  let (_, cs) ← takeWithin? 2 0 59 cs
  let cs ← takeMark? ':' cs
  let (_, cs) ← takeWithin? 2 0 60 cs
  takeSecondFraction? cs

/-- Reads the difference to universal time. -/
def takeOffset? : List Char → Option (List Char)
  | 'Z' :: rest | 'z' :: rest => some rest
  | c :: rest =>
    if c = '+' ∨ c = '-' then do
      let (_, cs) ← takeWithin? 2 0 23 rest
      let cs ← takeMark? ':' cs
      let (_, cs) ← takeWithin? 2 0 59 cs
      return cs
    else none
  | [] => none

/-- Reads a date, a time, or both, and tells what follows. Between a date and its time stands a `T`
or a space. -/
def readMoment? (cs : List Char) : Option (List Char) :=
  match takeDate? cs with
  | none => takeTime? cs
  | some rest =>
    match rest with
    | c :: more =>
      if c = 'T' ∨ c = 't' ∨ c = ' ' then
        match takeTime? more with
        | none => some rest
        | some timed => some ((takeOffset? timed).getD timed)
      else some rest
    | [] => some rest

end OtaUpgrade.Toml
