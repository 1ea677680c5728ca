import QueryScript.Number.Numeral

/-!
# Texts of dates and times

Which texts are read as a date or as a date with a time of day.  There is one strict form,
with fields of fixed width and an offset from universal time, and three lenient ones without
an offset, whose fields may be shorter and may follow white space.
-/

namespace QueryScript.Text.Timestamp

/-- A number of at least `least` and at most `most` digits, and what follows it. -/
def number? (least most : Nat) (cs : List Char) : Option (Nat × List Char) :=
  let taken := (cs.take most).takeWhile Char.isDigit
  if taken.length < least then none
  else some (Numeral.ofDigits taken, cs.drop taken.length)

/-- A field of a date or time: exactly `width` digits if strict, else white space and up to
`width` digits. -/
def field? (strict : Bool) (width : Nat) (cs : List Char) : Option (Nat × List Char) :=
  if strict then number? width width cs else number? 1 width (cs.dropWhile isBlank)

/-- What follows a character, if the text starts with it. -/
def after? (c : Char) : List Char → Option (List Char)
  | [] => none
  | d :: cs => if d = c then some cs else none

/-- Whether a year has a 29th of February. -/
def isLeap (year : Nat) : Bool :=
  year % 4 == 0 && (year % 100 != 0 || year % 400 == 0)

/-- The number of days of a month; none for what is no month. -/
def daysIn (year month : Nat) : Nat :=
  match month with
  | 1 | 3 | 5 | 7 | 8 | 10 | 12 => 31
  | 4 | 6 | 9 | 11 => 30
  | 2 => if isLeap year then 29 else 28
  | _ => 0

/-- What follows a date of the calendar. -/
def afterDate? (strict : Bool) (cs : List Char) : Option (List Char) := do
  let (year, cs) ← field? strict 4 cs
  let cs ← after? '-' cs
  let (month, cs) ← field? strict 2 cs
  let cs ← after? '-' cs
  let (day, cs) ← field? strict 2 cs
  if 1 ≤ day ∧ day ≤ daysIn year month then some cs else none

/-- What follows a time of day; a leap second is allowed. -/
def afterTime? (strict : Bool) (cs : List Char) : Option (List Char) := do
  let (hour, cs) ← field? strict 2 cs
  let cs ← after? ':' cs
  let (minute, cs) ← field? strict 2 cs
  let cs ← after? ':' cs
  let (second, cs) ← field? strict 2 cs
  if hour ≤ 23 ∧ minute ≤ 59 ∧ second ≤ 60 then some cs else none

/-- What follows a fraction of a second, which may be absent. -/
def afterFraction? : List Char → Option (List Char)
  | '.' :: cs => (number? 1 cs.length cs).map (·.2)
  | cs => some cs

/-- What follows the sign of an offset. -/
def afterSign? : List Char → Option (List Char)
  | c :: cs => if c = '+' ∨ c = '-' ∨ c = '\u2212' then some cs else none
  | [] => none

/-- Whether a text is an offset from universal time of less than a day. -/
def isOffset (cs : List Char) : Bool :=
  cs == ['Z'] || cs == ['z'] ||
    (do
      let cs ← afterSign? cs
      let (hours, cs) ← number? 2 2 cs
      let cs ← after? ':' cs
      let (minutes, cs) ← number? 2 2 cs
      if hours ≤ 23 ∧ minutes ≤ 59 then some cs else none) == some []

/-- Whether a text is a date, `T` or a blank, a time of day and an offset. -/
def isInstant (cs : List Char) : Bool :=
  match afterDate? true cs with
  | some (c :: rest) =>
    (c == 'T' || c == 't' || c == ' ') &&
      (((afterTime? true rest).bind afterFraction?).map isOffset).getD false
  | _ => false

/-- Whether a text is a date and a time of day without an offset. -/
def isLocal (separator : List Char → Option (List Char)) (cs : List Char) : Bool :=
  (((afterDate? false cs).bind separator).bind (afterTime? false)).bind afterFraction? == some []

/-- Whether a text is a date. -/
def isDate (cs : List Char) : Bool :=
  afterDate? false cs == some []

/-- Whether a text is read as a date or as a date with a time of day. -/
def isTimestamp (s : String) : Bool :=
  10 ≤ s.utf8ByteSize && (s.toList.head?.map Char.isDigit).getD false &&
    (isInstant s.toList || isLocal (fun cs => some (cs.dropWhile isBlank)) s.toList ||
      isLocal (after? 'T') s.toList || isDate s.toList)

end QueryScript.Text.Timestamp
