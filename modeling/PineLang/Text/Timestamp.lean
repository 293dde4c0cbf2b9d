/-!
# Dates and times

The forms in which a date, or a date with a time of day, is written: the year has four digits and
the other parts one or two.
-/
namespace PineLang.Text.Timestamp

/-- The number of days of a month. -/
def daysIn (month year : Nat) : Nat :=
  if month == 2 then
    if year % 4 == 0 && (year % 100 != 0 || year % 400 == 0) then 29 else 28
  else if [4, 6, 9, 11].contains month then 30
  else 31

/-- The value of one digit or two, and what follows. -/
def shortNumber? : List Char → Option (Nat × List Char)
  | a :: b :: rest =>
    if a.isDigit then
      if b.isDigit then some ((a.toNat - 48) * 10 + (b.toNat - 48), rest)
      else some (a.toNat - 48, b :: rest)
    else none
  | [a] => if a.isDigit then some (a.toNat - 48, []) else none
  | [] => none

/-- What follows a given character. -/
def after? (c : Char) : List Char → Option (List Char)
  | d :: rest => if c == d then some rest else none
  | [] => none

/-- What follows a number below `bound`. -/
def afterBelow? (bound : Nat) (cs : List Char) : Option (List Char) :=
  match shortNumber? cs with
  | some (n, rest) => if n < bound then some rest else none
  | none => none

/-- What follows a date, `2006-1-2`. -/
def afterDate? (cs : List Char) : Option (List Char) := do
  let year := cs.take 4
  if year.length == 4 && year.all Char.isDigit then
    let (month, rest) ← shortNumber? (← after? '-' (cs.drop 4))
    let (day, rest) ← shortNumber? (← after? '-' rest)
    let y := year.foldl (fun n c => n * 10 + (c.toNat - 48)) 0
    if 1 ≤ month && month ≤ 12 && 1 ≤ day && day ≤ daysIn month y then some rest else none
  else none

/-- What follows the fraction of a second, if there is one. -/
def afterFraction : List Char → List Char
  | p :: d :: rest =>
    if (p == '.' || p == ',') && d.isDigit then rest.dropWhile Char.isDigit else p :: d :: rest
  | cs => cs

/-- What follows a time of day, `15:4:5.999`. -/
def afterTime? (cs : List Char) : Option (List Char) := do
  let rest ← after? ':' (← afterBelow? 24 cs)
  let rest ← after? ':' (← afterBelow? 60 rest)
  return afterFraction (← afterBelow? 60 rest)

/-- The zone is `Z`, or a sign with hours and minutes, two digits each. -/
def isZone : List Char → Bool
  | ['Z'] => true
  | [s, a, b, ':', c, d] =>
    (s == '+' || s == '-') && [a, b, c, d].all Char.isDigit &&
      (a.toNat - 48) * 10 + (b.toNat - 48) ≤ 24 && (c.toNat - 48) * 10 + (d.toNat - 48) ≤ 60
  | _ => false

/-- The text is a date, a date with a time after blanks, or a date with a time and a zone after a
    letter T. -/
def isTimestamp (cs : List Char) : Bool :=
  match afterDate? cs with
  | none => false
  | some [] => true
  | some (c :: rest) =>
    if c == 'T' || c == 't' then ((afterTime? rest).map isZone).getD false
    else if c == ' ' then afterTime? (rest.dropWhile (· == ' ')) == some []
    else false

end PineLang.Text.Timestamp
