import Amalgam.Toml.Node
import Amalgam.Toml.Quoted

namespace Amalgam
namespace Toml
namespace Scalar

/-!
# Numbers, booleans and dates in TOML

An unquoted value is read as the longest run of characters that such values are
made of, and the whole run has to be a number, a boolean or a date.  Integers
have to fit sixty-four bits with a sign.  Values are checked and classified
here, not computed: no configuration option takes one.
-/

/-- Digits with single underscores between them. -/
def isDigits (isDigit : Char → Bool) : List Char → Bool
  | [] => false
  | [c] => isDigit c
  | c :: '_' :: rest => isDigit c && isDigits isDigit rest
  | c :: rest => isDigit c && isDigits isDigit rest

/-- The number that digits spell; underscores are skipped. -/
def numberOf (base : Nat) (cs : List Char) : Nat :=
  (cs.filterMap Quoted.hexDigit?).foldl (fun acc d => base * acc + d) 0

/-- Whether digits spell a number up to a limit.  They are read no further than
to the one that exceeds it. -/
def isUpTo (limit base : Nat) (cs : List Char) : Bool :=
  ((cs.filterMap Quoted.hexDigit?).foldlM
    (fun acc d => if base * acc + d ≤ limit then some (base * acc + d) else none) 0).isSome

def isDecimal (cs : List Char) : Bool :=
  cs == ['0'] || (isDigits Char.isDigit cs && cs.head? != some '0')

/-- Whether a text starts with a minus, and what follows its sign. -/
def signed : List Char → Bool × List Char
  | '-' :: rest => (true, rest)
  | '+' :: rest => (false, rest)
  | cs => (false, cs)

/-- The largest integer of sixty-four bits with a sign. -/
def largestInteger : Nat := 9223372036854775807

def isOctal (c : Char) : Bool := '0' ≤ c && c ≤ '7'

def isBinary (c : Char) : Bool := c == '0' || c == '1'

def isHexadecimal (c : Char) : Bool := (Quoted.hexDigit? c).isSome

def isInteger : List Char → Bool
  | '0' :: 'x' :: rest => isDigits isHexadecimal rest && isUpTo largestInteger 16 rest
  | '0' :: 'o' :: rest => isDigits isOctal rest && isUpTo largestInteger 8 rest
  | '0' :: 'b' :: rest => isDigits isBinary rest && isUpTo largestInteger 2 rest
  | cs =>
      let (negative, digits) := signed cs
      isDecimal digits &&
        isUpTo (if negative then largestInteger + 1 else largestInteger) 10 digits

/-- An exponent that has come this far takes no more digits. -/
def exponentBound : Nat := 65536

/-- The exponent that digits spell.  It grows by one digit after another until
it reaches its bound; the digits after that are left out. -/
def exponentOf (cs : List Char) : Nat :=
  (cs.filterMap Quoted.hexDigit?).foldl
    (fun acc d => if acc < exponentBound then 10 * acc + d else acc) 0

/-- The exponent of a float, after its letter. -/
def exponent? (cs : List Char) : Option Int :=
  let (negative, digits) := signed cs
  if isDigits Char.isDigit digits then
    some (if negative then -(exponentOf digits : Int) else exponentOf digits)
  else none

/-- The least number that rounds past the largest double. -/
def overflow : Nat := Nat.pow 2 1024 - Nat.pow 2 970

/-- How many decimal digits that number has. -/
def overflowWidth : Nat := 309

/-- Whether digits, as a whole number times a power of ten, round to an infinite
double.  What stands behind the decimal point of the product does not matter. -/
def overflows (digits : List Char) (exponent : Int) : Bool :=
  let digits := digits.dropWhile (· == '0')
  let width := digits.length + exponent
  if digits.isEmpty || width < overflowWidth then false
  else if overflowWidth < width then true
  else
    let padding := List.replicate (overflowWidth - digits.length) '0'
    overflow ≤ numberOf 10 (digits.take overflowWidth ++ padding)

/-- The fraction and the exponent of a float, after its whole part. -/
def floatTail? (cs : List Char) : Option (List Char × Int) :=
  match cs with
  | '.' :: rest =>
      let fraction := rest.takeWhile fun c => c.isDigit || c == '_'
      let rest := rest.drop fraction.length
      if !isDigits Char.isDigit fraction then none
      else match rest with
        | [] => some (fraction, 0)
        | e :: rest => if e == 'e' || e == 'E' then (exponent? rest).map (fraction, ·) else none
  | e :: rest => if e == 'e' || e == 'E' then (exponent? rest).map ([], ·) else none
  | [] => none

/-- A float. -/
def isFloat (cs : List Char) : Bool :=
  let (negative, body) := signed cs
  if body == ['i', 'n', 'f'] || body == ['n', 'a', 'n'] then true
  else
    let whole := body.takeWhile fun c => c.isDigit || c == '_'
    match floatTail? (body.drop whole.length) with
    | none => false
    | some (fraction, exponent) =>
        let digits := fraction.filter (· != '_')
        -- One that rounds to minus infinity is fine, unlike one that rounds to plus infinity.
        isDecimal whole &&
          (negative ||
            !overflows (whole.filter (· != '_') ++ digits) (exponent - digits.length))

/-- A number of exactly `n` digits in front. -/
def fixed? (n : Nat) (cs : List Char) : Option (Nat × List Char) :=
  let digits := cs.take n
  if digits.length = n ∧ digits.all Char.isDigit then some (numberOf 10 digits, cs.drop n)
  else none

def after? (expected : Char) : List Char → Option (List Char)
  | c :: rest => if c = expected then some rest else none
  | [] => none

def daysInMonth (year month : Nat) : Nat :=
  if month = 2 then
    if year % 4 = 0 ∧ (year % 100 ≠ 0 ∨ year % 400 = 0) then 29 else 28
  else if month = 4 ∨ month = 6 ∨ month = 9 ∨ month = 11 then 30
  else 31

def afterDate? (cs : List Char) : Option (List Char) := do
  let (year, cs) ← fixed? 4 cs
  let (month, cs) ← fixed? 2 (← after? '-' cs)
  let (day, cs) ← fixed? 2 (← after? '-' cs)
  if 1 ≤ month ∧ month ≤ 12 ∧ 1 ≤ day ∧ day ≤ daysInMonth year month then some cs else none

def afterMinutes? (cs : List Char) : Option (List Char) := do
  let (hour, cs) ← fixed? 2 cs
  let (minute, cs) ← fixed? 2 (← after? ':' cs)
  if hour ≤ 23 ∧ minute ≤ 59 then some cs else none

/-- What follows a time of day. -/
def afterTime? (cs : List Char) : Option (List Char) := do
  let cs ← afterMinutes? cs
  let (second, cs) ← fixed? 2 (← after? ':' cs)
  -- A leap second is allowed.
  if 60 < second then none
  else match cs with
    | '.' :: rest =>
        let digits := rest.takeWhile Char.isDigit
        if digits.isEmpty then none else some (rest.drop digits.length)
    | _ => some cs

def isOffset : List Char → Bool
  | [] => true
  | ['Z'] => true
  | ['z'] => true
  | '+' :: rest => afterMinutes? rest == some []
  | '-' :: rest => afterMinutes? rest == some []
  | _ => false

/-- A time of day, with or without an offset. -/
def isTimeWithOffset (cs : List Char) : Bool :=
  match afterTime? cs with
  | some rest => isOffset rest
  | none => false

def isDate (cs : List Char) : Bool :=
  afterDate? cs == some []

/-- A date, a time of day, or a date and a time with a letter between. -/
def isMoment (cs : List Char) : Bool :=
  match afterDate? cs with
  | some [] => true
  | some (c :: rest) => (c == 'T' || c == 't') && isTimeWithOffset rest
  | none => afterTime? cs == some []

def isAtomChar (c : Char) : Bool :=
  c.isAlphanum || c == '+' || c == '-' || c == '_' || c == '.' || c == ':'

/-- An unquoted value, and what follows it. -/
def scan? (cs : List Char) : Option (Node × List Char) :=
  let atom := cs.takeWhile isAtomChar
  let rest := cs.drop atom.length
  if isDate atom then
    -- A date may be followed by a space and a time of day.
    match rest with
    | ' ' :: c :: more =>
        if c.isDigit then
          let time := (c :: more).takeWhile isAtomChar
          if isTimeWithOffset time then some (.moment, (c :: more).drop time.length) else none
        else some (.moment, rest)
    | _ => some (.moment, rest)
  else if isMoment atom then some (.moment, rest)
  else if atom == "true".toList || atom == "false".toList || isInteger atom || isFloat atom then
    some (.scalar, rest)
  else none

end Scalar
end Toml
end Amalgam
