/-! Dates and times as TOML writes them. Reading takes a word apart and checks
the range of each part; writing gives every date and time one form only. -/
namespace ImageCartridge.Toml

structure Date where
  year : Nat
  month : Nat
  day : Nat

/-- A time of day. Parts of a second are whole nanoseconds. -/
structure Time where
  hour : Nat
  minute : Nat
  second : Nat
  nanosecond : Nat

/-- The zone of a time: universal time by name, or minutes ahead of it. -/
inductive Offset where
  | universal
  | minutes (ahead : Int)

/-- A date, a time of day, or both. Only both together may have a zone. -/
inductive Datetime where
  | date (date : Date)
  | time (time : Time)
  | moment (date : Date) (time : Time) (offset : Option Offset)

/-- A number of exactly `width` digits, at most `limit`, and what follows it. -/
def fixedNumber? (width limit : Nat) (chars : List Char) : Option (Nat × List Char) :=
  let digits := chars.take width
  let n := digits.foldl (fun n c => n * 10 + (c.toNat - '0'.toNat)) 0
  if digits.length = width && digits.all Char.isDigit && n ≤ limit then
    some (n, chars.drop width)
  else none

def after? (mark : Char) : List Char → Option (List Char)
  | c :: rest => if c = mark then some rest else none
  | [] => none

def padded (width n : Nat) : String :=
  let shortest := Nat.toDigits 10 n
  String.ofList (List.replicate (width - shortest.length) '0' ++ shortest)

namespace Date

def daysOf (year month : Nat) : Nat :=
  if month = 2 then
    if year % 4 = 0 && (year % 100 ≠ 0 || year % 400 = 0) then 29 else 28
  else if month = 4 || month = 6 || month = 9 || month = 11 then 30
  else 31

def read? (chars : List Char) : Option (Date × List Char) := do
  let (year, rest) ← fixedNumber? 4 9999 chars
  let (month, rest) ← fixedNumber? 2 12 (← after? '-' rest)
  let (day, rest) ← fixedNumber? 2 31 (← after? '-' rest)
  guard (1 ≤ month ∧ 1 ≤ day ∧ day ≤ daysOf year month)
  return ({ year, month, day }, rest)

def text (date : Date) : String :=
  padded 4 date.year ++ "-" ++ padded 2 date.month ++ "-" ++ padded 2 date.day

end Date

namespace Time

/-- A time of day and what follows it. Digits behind the ninth of a fraction are
cut off and never rounded. -/
def read? (chars : List Char) : Option (Time × List Char) := do
  let (hour, rest) ← fixedNumber? 2 23 chars
  let (minute, rest) ← fixedNumber? 2 59 (← after? ':' rest)
  let (second, rest) ← fixedNumber? 2 60 (← after? ':' rest)
  match rest with
  | '.' :: rest =>
      let digits := rest.takeWhile Char.isDigit
      guard !digits.isEmpty
      let zeros := List.replicate (9 - digits.length) '0'
      let (nanosecond, _) ← fixedNumber? 9 999999999 (digits ++ zeros)
      return ({ hour, minute, second, nanosecond }, rest.dropWhile Char.isDigit)
  | _ => return ({ hour, minute, second, nanosecond := 0 }, rest)

/-- The parts of a second behind their point. They have no zero at their end,
and whole seconds have no point. -/
def fraction (time : Time) : String :=
  if time.nanosecond = 0 then ""
  else
    let digits := (padded 9 time.nanosecond).toList
    String.ofList ('.' :: (digits.reverse.dropWhile (· = '0')).reverse)

def text (time : Time) : String :=
  padded 2 time.hour ++ ":" ++ padded 2 time.minute ++ ":" ++ padded 2 time.second
    ++ time.fraction

end Time

namespace Offset

def parse? : List Char → Option Offset
  | [c] => if c = 'Z' || c = 'z' then some universal else none
  | sign :: rest => do
      guard (sign = '+' || sign = '-')
      let (hours, rest) ← fixedNumber? 2 23 rest
      let (beyond, rest) ← fixedNumber? 2 59 (← after? ':' rest)
      guard rest.isEmpty
      let distance : Int := hours * 60 + beyond
      return minutes (if sign = '-' then -distance else distance)
  | [] => none

/-- The written form of an offset. No distance is written as ahead. -/
def text : Offset → String
  | universal => "Z"
  | minutes ahead =>
      (if ahead < 0 then "-" else "+")
        ++ padded 2 (ahead.natAbs / 60) ++ ":" ++ padded 2 (ahead.natAbs % 60)

end Offset

namespace Datetime

/-- The date, time of day, or both that a whole word is. A letter or a blank
stands between a date and its time. -/
def parse? (word : List Char) : Option Datetime :=
  match Date.read? word with
  | some (day, []) => some (date day)
  | some (day, mark :: rest) => do
      guard (mark = 'T' || mark = 't' || mark = ' ')
      let (clock, rest) ← Time.read? rest
      let offset ← if rest.isEmpty then some none else (Offset.parse? rest).map some
      return moment day clock offset
  | none =>
      match Time.read? word with
      | some (clock, []) => some (time clock)
      | _ => none

def text : Datetime → String
  | date day => day.text
  | time clock => clock.text
  | moment day clock offset => day.text ++ "T" ++ clock.text ++ (offset.map Offset.text).getD ""

end Datetime

end ImageCartridge.Toml
