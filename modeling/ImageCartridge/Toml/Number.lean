/-! Numbers as TOML writes them. A reader takes a whole word and accepts or
refuses it. -/
namespace ImageCartridge.Toml

/-- The digits of a run, without the underscores that may stand between two of
them. -/
def digitRun? (isDigit : Char → Bool) : List Char → Option (List Char)
  | [] => none
  | [c] => if isDigit c then some [c] else none
  | c :: '_' :: rest => if isDigit c then (digitRun? isDigit rest).map (c :: ·) else none
  | c :: rest => if isDigit c then (digitRun? isDigit rest).map (c :: ·) else none

def digitValue (c : Char) : Nat :=
  if c.isDigit then c.toNat - '0'.toNat
  else if 'a' ≤ c && c ≤ 'f' then c.toNat - 'a'.toNat + 10
  else c.toNat - 'A'.toNat + 10

def spelled (base : Nat) (digits : List Char) : Nat :=
  digits.foldl (fun n c => n * base + digitValue c) 0

def isDigitOf (base : Nat) (c : Char) : Bool :=
  (c.isDigit || ('a' ≤ c && c ≤ 'f') || ('A' ≤ c && c ≤ 'F')) && digitValue c < base

/-- A decimal number without sign. It has no leading zero unless it is zero. -/
def decimal? (chars : List Char) : Option (List Char) := do
  let digits ← digitRun? Char.isDigit chars
  if digits.length ≠ 1 && digits.head? = some '0' then none else some digits

def signed : List Char → Bool × List Char
  | '-' :: rest => (true, rest)
  | '+' :: rest => (false, rest)
  | chars => (false, chars)

/-- The integer of a word: decimal with an optional sign, or in base sixteen,
eight or two. It must fit sixty-four bits with sign. -/
def integer? (word : List Char) : Option Int := do
  let n : Int ← match word with
    | '0' :: 'x' :: rest => (digitRun? (isDigitOf 16) rest).map fun ds => (spelled 16 ds : Int)
    | '0' :: 'o' :: rest => (digitRun? (isDigitOf 8) rest).map fun ds => (spelled 8 ds : Int)
    | '0' :: 'b' :: rest => (digitRun? (isDigitOf 2) rest).map fun ds => (spelled 2 ds : Int)
    | _ =>
        let (negative, rest) := signed word
        (decimal? rest).map fun ds =>
          if negative then -(spelled 10 ds : Int) else (spelled 10 ds : Int)
  if Int64.minValue.toInt ≤ n ∧ n ≤ Int64.maxValue.toInt then some n else none

/-- The number `digits * 10 ^ exponent`, rounded once. Exponents far outside the
range of floating point are settled by the number of digits alone. -/
def decimalFloat (digits : List Char) (exponent : Int) : Float :=
  let significant := digits.dropWhile (· = '0')
  let top := exponent + significant.length
  if significant.isEmpty || top < -400 then 0
  else if 400 < top then 1 / 0
  else Float.ofScientific (spelled 10 significant) (exponent < 0) exponent.natAbs

/-- The exponent behind the letter of a float, zero if there is none. -/
def exponent? : List Char → Option Int
  | [] => some 0
  | _ :: rest => do
      let (negative, digits) := signed rest
      let n := spelled 10 (← digitRun? Char.isDigit digits)
      return if negative then -(n : Int) else n

/-- The float of a word: a fraction, an exponent or both behind a decimal
number, or one of the words for infinity and for no number. A number past the
largest is refused unless it is negative. -/
def float? (word : List Char) : Option Float := do
  let (negative, rest) := signed word
  let magnitude ←
    if rest = "inf".toList then some (1 / 0)
    else if rest = "nan".toList then some (0 / 0)
    else do
      let isMark := fun c : Char => c = 'e' || c = 'E'
      let mantissa := rest.takeWhile fun c => !isMark c
      let exponent ← exponent? (rest.dropWhile fun c => !isMark c)
      let whole ← decimal? (mantissa.takeWhile (· ≠ '.'))
      let fraction ← match mantissa.dropWhile (· ≠ '.') with
        | [] => if mantissa.length = rest.length then none else some []
        | _ :: digits => digitRun? Char.isDigit digits
      let x := decimalFloat (whole ++ fraction) (exponent - fraction.length)
      if x.isInf && !negative then none else some x
  return if negative then -magnitude else magnitude

end ImageCartridge.Toml
