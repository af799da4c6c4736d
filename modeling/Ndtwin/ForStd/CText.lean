import Mathlib.Algebra.Order.Ring.Int
import Mathlib.Data.Option.Basic

/-!
# Text functions of the C and C++ libraries

The conversions that a program written against the C library uses, on lists of
characters: `strtoul` and the `std::sto*` family built on it, `inet_aton` and
`inet_pton`. A C string ends at its first NUL. An address is returned as its four bytes
in network order.
-/

namespace CText

/-- The characters of a C string: up to the first NUL. -/
def cStr (s : String) : List Char := s.toList.takeWhile (· ≠ '\x00')

/-- `isspace` in the C locale. -/
def isSpace (c : Char) : Bool := c = ' ' ∨ ('\t' ≤ c ∧ c ≤ '\r')

def isDigit (c : Char) : Bool := '0' ≤ c ∧ c ≤ '9'

/-- The value of an alphanumeric character as a digit, in a base up to 36. -/
def digitVal (c : Char) : Option Nat :=
  if isDigit c then some (c.toNat - '0'.toNat)
  else if 'a' ≤ c ∧ c ≤ 'z' then some (c.toNat - 'a'.toNat + 10)
  else if 'A' ≤ c ∧ c ≤ 'Z' then some (c.toNat - 'A'.toNat + 10)
  else none

def digitIn (base : Nat) (c : Char) : Option Nat := (digitVal c).filter (· < base)

/-- `isxdigit` -/
def isXDigit (c : Char) : Bool := (digitIn 16 c).isSome

def toUpper (c : Char) : Char :=
  if 'a' ≤ c ∧ c ≤ 'z' then Char.ofNat (c.toNat - 'a'.toNat + 'A'.toNat) else c

/-- Digits as long as there are any: the number they make and what follows. -/
def readDigits (base : Nat) (acc : Nat) : List Char → Nat × List Char
  | [] => (acc, [])
  | c :: cs =>
    match digitIn base c with
    | some d => readDigits base (acc * base + d) cs
    | none => (acc, c :: cs)

/-- What `strtoul` and `strtol` read before they check the range. -/
structure Scanned where
  negative : Bool
  magnitude : Nat
  rest : List Char
  deriving DecidableEq, Repr

/-- The prefix `0x`, when a hexadecimal digit follows it. -/
def stripHexPrefix : List Char → Option (List Char)
  | '0' :: x :: d :: cs => if (x = 'x' ∨ x = 'X') ∧ isXDigit d then some (d :: cs) else none
  | _ => none

/-- The digits of `strtoul`, after spaces and sign; base 0 reads the base off the prefix. -/
def scanUnsigned (base : Nat) (cs : List Char) : Option (Nat × List Char) :=
  let (base, cs) :=
    match stripHexPrefix cs with
    | some ds => if base = 0 ∨ base = 16 then (16, ds) else (base, cs)
    | none => (if base = 0 then (if cs.head? = some '0' then 8 else 10) else base, cs)
  match cs with
  | [] => none
  | c :: _ => if (digitIn base c).isSome then some (readDigits base 0 cs) else none

/-- `strtoul` and `strtol` up to the range check; `none` when nothing was converted. -/
def scan (base : Nat) (cs : List Char) : Option Scanned :=
  let cs := cs.dropWhile isSpace
  let (negative, cs) :=
    match cs with
    | '-' :: ds => (true, ds)
    | '+' :: ds => (false, ds)
    | _ => (false, cs)
  (scanUnsigned base cs).map fun r => { negative := negative, magnitude := r.1, rest := r.2 }

/-- Why a `std::sto*` call throws. -/
inductive ConvError where
  | invalidArgument
  | outOfRange
  deriving DecidableEq, Repr

/-- `std::stoull` (and `std::stoul`, where `unsigned long` has 64 bits): the value and the
    unread rest. A minus sign negates modulo 2^64. -/
def stoull (base : Nat) (cs : List Char) : Except ConvError (UInt64 × List Char) :=
  match scan base cs with
  | none => .error .invalidArgument
  | some r =>
    if 2 ^ 64 ≤ r.magnitude then .error .outOfRange
    else
      let v := UInt64.ofNat r.magnitude
      .ok (if r.negative then 0 - v else v, r.rest)

/-- `std::stoi` -/
def stoi (cs : List Char) : Except ConvError Int :=
  match scan 10 cs with
  | none => .error .invalidArgument
  | some r =>
    let v : Int := if r.negative then - (r.magnitude : Int) else r.magnitude
    if v < - 2 ^ 31 ∨ 2 ^ 31 ≤ v then .error .outOfRange else .ok v

/-! ## Addresses -/

/-- The four bytes of a number, most significant first. -/
def bytesBE (n : Nat) : List UInt8 :=
  [UInt8.ofNat (n / 2 ^ 24), UInt8.ofNat (n / 2 ^ 16), UInt8.ofNat (n / 2 ^ 8), UInt8.ofNat n]

/-- The loop of `inet_aton`: `fuel` bounds the parts still allowed, `parts` are the bytes
    read so far. The last part fills the remaining bytes. -/
def inetAtonParts : Nat → List UInt8 → List Char → Option (List UInt8)
  | 0, _, _ => none
  | fuel + 1, parts, cs =>
    match cs with
    | [] => none
    | c :: _ =>
      if ¬ isDigit c then none
      else
        match scan 0 cs with
        | none => none
        | some r =>
          if 2 ^ 32 ≤ r.magnitude then none
          else
            match r.rest with
            | '.' :: rest =>
              if 255 < r.magnitude then none
              else inetAtonParts fuel (parts ++ [UInt8.ofNat r.magnitude]) rest
            | rest =>
              -- text after white space is accepted and ignored
              if rest.head?.all isSpace ∧ r.magnitude < 2 ^ (8 * (4 - parts.length)) then
                some (parts ++ (bytesBE r.magnitude).drop parts.length)
              else none

/-- `inet_aton` of the GNU C library: up to four parts, each decimal, octal or
    hexadecimal. -/
def inetAton (cs : List Char) : Option (List UInt8) := inetAtonParts 4 [] cs

/-- One decimal byte of `inet_pton`: at most three digits, no leading zero. -/
def decimalByte (cs : List Char) : Option UInt8 :=
  if cs.isEmpty ∨ ¬ cs.all isDigit ∨ 3 < cs.length ∨ (1 < cs.length ∧ cs.head? = some '0') then
    none
  else
    let n := (readDigits 10 0 cs).1
    if n ≤ 255 then some (UInt8.ofNat n) else none

/-- `inet_pton(AF_INET, …)`: exactly four decimal bytes. -/
def inetPton4 (cs : List Char) : Option (List UInt8) :=
  match cs.splitOn '.' with
  | [a, b, c, d] =>
    match decimalByte a, decimalByte b, decimalByte c, decimalByte d with
    | some a, some b, some c, some d => some [a, b, c, d]
    | _, _, _, _ => none
  | _ => none

/-! ## Every address has four bytes -/

theorem inetAtonParts_length (fuel : Nat) (parts : List UInt8) (cs : List Char)
    (hparts : parts.length + fuel = 4) (bs : List UInt8)
    (h : inetAtonParts fuel parts cs = some bs) : bs.length = 4 := by
  induction fuel generalizing parts cs with
  | zero => exact nomatch h
  | succ fuel ih =>
    cases cs with
    | nil => exact nomatch h
    | cons c cs =>
      simp only [inetAtonParts] at h
      split at h
      · exact nomatch h
      · split at h
        · exact nomatch h
        · split at h
          · exact nomatch h
          · split at h
            · split at h
              · exact nomatch h
              · exact ih _ _ (by simp; omega) h
            · split at h
              · rw [← Option.some.inj h, List.length_append, List.length_drop]
                have : ∀ n, (bytesBE n).length = 4 := fun _ => rfl
                rw [this]
                omega
              · exact nomatch h

theorem inetAton_length {cs : List Char} {bs : List UInt8} (h : inetAton cs = some bs) :
    bs.length = 4 :=
  inetAtonParts_length 4 [] cs rfl bs h

example : inetAton "10.0.0.1".toList = some [10, 0, 0, 1] := by decide

example : inetAton "010.1.0x20 x".toList = some [8, 1, 0, 32] := by decide

example : inetPton4 "10.0.00.1".toList = none := by decide

end CText
