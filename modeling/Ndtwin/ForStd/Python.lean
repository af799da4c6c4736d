import Mathlib.Algebra.Order.Ring.Int
import Mathlib.Data.List.Sort
import Mathlib.Tactic.Ring
import Ndtwin.ForStd.Json

/-!
# JSON values in a Python program

What a Python program does with the values of a parsed request body: truth, equality and type
names, the conversion `int(..)`, the fixed-width encodings, and the exceptions they raise.
-/

namespace Python

/-- A built-in exception. -/
inductive Error where
  | typeError
  | valueError
  | attributeError
  | overflowError
  | osError
  | keyError
  | indexError
  deriving DecidableEq, Repr

/-! ## Values -/

/-- `bool(v)` -/
def truthy : Json → Bool
  | .null => false
  | .bool b => b
  | .int i => i ≠ 0
  | .uint n => n ≠ 0
  | .float mantissa _ => mantissa ≠ 0
  | .str s => s ≠ ""
  | .arr elems => !elems.isEmpty
  | .obj fields => !fields.isEmpty

/-- `type(v).__name__` -/
def typeName : Json → String
  | .null => "NoneType"
  | .bool _ => "bool"
  | .int _ | .uint _ => "int"
  | .float _ _ => "float"
  | .str _ => "str"
  | .arr _ => "list"
  | .obj _ => "dict"

/-- The value of an `int`, of which `bool` is a subclass. -/
def asInt? : Json → Option Int
  | .bool b => some (if b then 1 else 0)
  | .int i => some i
  | .uint n => some n
  | _ => none

/-- A number as mantissa and decimal exponent. -/
def number? : Json → Option (Int × Int)
  | .float mantissa exponent => some (mantissa, exponent)
  | v => (asInt? v).map fun i => (i, 0)

/-- Two decimals of the same value. -/
def sameNumber (x y : Int × Int) : Bool :=
  x.1 * 10 ^ (x.2 - min x.2 y.2).toNat = y.1 * 10 ^ (y.2 - min x.2 y.2).toNat

mutual

/-- `v == w`: numbers by value whatever their type, objects without regard to order. -/
def eq : Json → Json → Bool
  | .null, .null => true
  | .str s, .str t => s = t
  | .arr vs, .arr ws => eqElems vs ws
  | .obj fs, .obj gs => fs.length = gs.length && eqFields fs gs
  | v, w =>
    match number? v, number? w with
    | some x, some y => sameNumber x y
    | _, _ => false

/-- Lists, element by element. -/
def eqElems : List Json → List Json → Bool
  | [], [] => true
  | v :: vs, w :: ws => eq v w && eqElems vs ws
  | _, _ => false

/-- Every field of the first object is in the second. -/
def eqFields : List (String × Json) → List (String × Json) → Bool
  | [], _ => true
  | f :: fs, gs => eqField f gs && eqFields fs gs

/-- One field is in the second object. -/
def eqField : String × Json → List (String × Json) → Bool
  | (key, v), gs =>
    match gs.find? fun g => g.1 = key with
    | some g => eq v g.2
    | none => false

end

/-! ## Text -/

/-- A character that `str.strip` removes. -/
def isSpace (c : Char) : Bool :=
  let n := c.toNat
  (9 ≤ n && n ≤ 13) || (28 ≤ n && n ≤ 32) || n = 0x85 || n = 0xA0 || n = 0x1680 ||
    (0x2000 ≤ n && n ≤ 0x200A) || n = 0x2028 || n = 0x2029 || n = 0x202F || n = 0x205F ||
    n = 0x3000

/-- White space of ASCII, which `int(..)` and `bytes.fromhex` skip. -/
def isAsciiSpace (c : Char) : Bool := c.toNat = 32 || (9 ≤ c.toNat && c.toNat ≤ 13)

/-- A text without the characters at its ends that satisfy `p`. -/
def trim (p : Char → Bool) (cs : List Char) : List Char :=
  ((cs.dropWhile p).reverse.dropWhile p).reverse

/-- `s.strip()` -/
def strip (cs : List Char) : List Char := trim isSpace cs

/-- The digits 0 of Unicode 15; the digits 1 to 9 of a script follow its 0. -/
def decimalZeros : List Nat :=
  [0x30, 0x660, 0x6F0, 0x7C0, 0x966, 0x9E6, 0xA66, 0xAE6, 0xB66, 0xBE6, 0xC66, 0xCE6, 0xD66,
    0xDE6, 0xE50, 0xED0, 0xF20, 0x1040, 0x1090, 0x17E0, 0x1810, 0x1946, 0x19D0, 0x1A80, 0x1A90,
    0x1B50, 0x1BB0, 0x1C40, 0x1C50, 0xA620, 0xA8D0, 0xA900, 0xA9D0, 0xA9F0, 0xAA50, 0xABF0,
    0xFF10, 0x104A0, 0x10D30, 0x11066, 0x110F0, 0x11136, 0x111D0, 0x112F0, 0x11450, 0x114D0,
    0x11650, 0x116C0, 0x11730, 0x118E0, 0x11950, 0x11C50, 0x11D50, 0x11DA0, 0x11F50, 0x16A60,
    0x16AC0, 0x16B50, 0x1D7CE, 0x1D7D8, 0x1D7E2, 0x1D7EC, 0x1D7F6, 0x1E140, 0x1E2F0, 0x1E4F0,
    0x1E950, 0x1FBF0]

/-- A character as `int(..)` reads it: the spaces and the decimal digits of all scripts are those
    of ASCII. -/
def asciiChar (c : Char) : Char :=
  if c.toNat < 128 then c
  else if isSpace c then ' '
  else
    match decimalZeros.find? fun first => first ≤ c.toNat && c.toNat < first + 10 with
    | some first => Char.ofNat (48 + (c.toNat - first))
    | none => c

/-- The value of an ASCII digit. -/
def digit (base : Nat) (c : Char) : Option Nat :=
  let n := c.toNat
  let v :=
    if 48 ≤ n ∧ n ≤ 57 then some (n - 48)
    else if 97 ≤ n ∧ n ≤ 122 then some (n - 87)
    else if 65 ≤ n ∧ n ≤ 90 then some (n - 55)
    else none
  v.filter (· < base)

/-- Digits, with single underscores between them; `afterDigit` tells whether the last character
    was a digit. -/
def parseDigits (base : Nat) : (acc : Nat) → (afterDigit : Bool) → List Char → Option Nat
  | acc, afterDigit, [] => if afterDigit then some acc else none
  | acc, afterDigit, c :: cs =>
    if c = '_' then if afterDigit then parseDigits base acc false cs else none
    else (digit base c).bind fun d => parseDigits base (acc * base + d) true cs

/-- The digits of `int(text, base)`: base 16 allows a prefix, and base 10 limits the number of
    digits. -/
def parseUnsigned (base : Nat) (cs : List Char) : Option Nat :=
  match base, cs with
  | 16, '0' :: 'x' :: '_' :: rest => parseDigits 16 0 false rest
  | 16, '0' :: 'X' :: '_' :: rest => parseDigits 16 0 false rest
  | 16, '0' :: 'x' :: rest => parseDigits 16 0 false rest
  | 16, '0' :: 'X' :: rest => parseDigits 16 0 false rest
  | 10, cs => if (cs.filter (· ≠ '_')).length > 4300 then none else parseDigits 10 0 false cs
  | base, cs => parseDigits base 0 false cs

/-- `int(text, base)` -/
def parseInt (base : Nat) (text : String) : Option Int :=
  match trim isAsciiSpace (text.toList.map asciiChar) with
  | '-' :: cs => (parseUnsigned base cs).map fun n => -(n : Int)
  | '+' :: cs => (parseUnsigned base cs).map fun n => (n : Int)
  | cs => (parseUnsigned base cs).map fun n => (n : Int)

/-- `int(v)` -/
def toInt : Json → Except Error Int
  | .float mantissa exponent =>
    .ok (if 0 ≤ exponent then mantissa * 10 ^ exponent.toNat
      else mantissa.tdiv (10 ^ (-exponent).toNat))
  | .str s =>
    match parseInt 10 s with
    | some i => .ok i
    | none => .error .valueError
  | v =>
    match asInt? v with
    | some i => .ok i
    | none => .error .typeError

/-! ## Bytes -/

/-- The last `width` bytes of a number, most significant first. -/
def bytesOf (width n : Nat) : List UInt8 :=
  (List.range width).reverse.map fun i => UInt8.ofNat (n / 256 ^ i)

/-- `n.to_bytes(width, "big")` -/
def toBytes (width : Nat) (n : Int) : Except Error (List UInt8) :=
  if 0 ≤ n ∧ n < 256 ^ width then .ok (bytesOf width n.toNat) else .error .overflowError

/-- `int.from_bytes(bs, "big")` -/
def fromBytes (bs : List UInt8) : Nat := bs.foldl (fun n b => n * 256 + b.toNat) 0

@[simp] theorem length_bytesOf (width n : Nat) : (bytesOf width n).length = width := by
  simp [bytesOf]

theorem bytesOf_succ (width n : Nat) :
    bytesOf (width + 1) n = UInt8.ofNat (n / 256 ^ width) :: bytesOf width n := by
  simp [bytesOf, List.range_succ]

theorem fromBytes_foldl (bs : List UInt8) (acc : Nat) :
    bs.foldl (fun n b => n * 256 + b.toNat) acc = acc * 256 ^ bs.length + fromBytes bs := by
  unfold fromBytes
  induction bs generalizing acc with
  | nil => simp
  | cons b bs ih =>
    rw [List.foldl_cons, List.foldl_cons, ih, ih (0 * 256 + b.toNat), List.length_cons, pow_succ]
    ring

theorem fromBytes_cons (b : UInt8) (bs : List UInt8) :
    fromBytes (b :: bs) = b.toNat * 256 ^ bs.length + fromBytes bs := by
  have h := fromBytes_foldl bs (0 * 256 + b.toNat)
  rw [Nat.zero_mul, Nat.zero_add] at h
  rw [← h, fromBytes, List.foldl_cons, Nat.zero_mul, Nat.zero_add]

theorem fromBytes_lt (bs : List UInt8) : fromBytes bs < 256 ^ bs.length := by
  induction bs with
  | nil => exact Nat.one_pos
  | cons b bs ih =>
    rw [fromBytes_cons, List.length_cons, pow_succ]
    have hb := b.toNat_lt
    have hmul : b.toNat * 256 ^ bs.length ≤ 255 * 256 ^ bs.length :=
      Nat.mul_le_mul_right _ (by omega)
    omega

/-- Leading zero bytes do not count. -/
theorem fromBytes_replicate_append (k : Nat) (bs : List UInt8) :
    fromBytes (List.replicate k 0 ++ bs) = fromBytes bs := by
  induction k with
  | zero => rfl
  | succ k ih =>
    rw [List.replicate_succ, List.cons_append, fromBytes_cons, ih]
    simp

/-- A number is the bytes it is written as. -/
theorem fromBytes_bytesOf {width n : Nat} (h : n < 256 ^ width) :
    fromBytes (bytesOf width n) = n := by
  have hmod : ∀ w, fromBytes (bytesOf w n) = n % 256 ^ w := by
    intro w
    induction w with
    | zero => rw [Nat.pow_zero, Nat.mod_one]; rfl
    | succ w ih =>
      have hsplit : n % (256 ^ w * 256) = n % 256 ^ w + 256 ^ w * (n / 256 ^ w % 256) :=
        Nat.mod_mul
      have hbyte : (UInt8.ofNat (n / 256 ^ w)).toNat = n / 256 ^ w % 256 := UInt8.toNat_ofNat'
      rw [bytesOf_succ, fromBytes_cons, length_bytesOf, ih, hbyte, pow_succ, hsplit, Nat.mul_comm,
        Nat.add_comm]
  rw [hmod, Nat.mod_eq_of_lt h]

theorem fromBytes_append (bs bs' : List UInt8) :
    fromBytes (bs ++ bs') = fromBytes bs * 256 ^ bs'.length + fromBytes bs' := by
  rw [← fromBytes_foldl, fromBytes, fromBytes, List.foldl_append]

/-- Bytes of one number and one width are the same. -/
theorem eq_of_fromBytes_eq {bs bs' : List UInt8} (hlen : bs.length = bs'.length)
    (h : fromBytes bs = fromBytes bs') : bs = bs' := by
  induction bs generalizing bs' with
  | nil => exact (List.length_eq_zero_iff.mp hlen.symm).symm
  | cons b bs ih =>
    cases bs' with
    | nil => cases hlen
    | cons b' bs' =>
      have hlen' : bs.length = bs'.length := Nat.succ.inj hlen
      rw [fromBytes_cons, fromBytes_cons, hlen'] at h
      have hlt := fromBytes_lt bs
      have hlt' := fromBytes_lt bs'
      rw [hlen'] at hlt
      have hpos : 0 < 256 ^ bs'.length := Nat.pow_pos (by decide)
      have hdiv := congrArg (· / 256 ^ bs'.length) h
      simp only [Nat.mul_comm _ (256 ^ bs'.length), Nat.mul_add_div hpos, Nat.div_eq_of_lt hlt,
        Nat.div_eq_of_lt hlt', Nat.add_zero] at hdiv
      rw [UInt8.toNat_inj.mp hdiv, Nat.add_left_cancel_iff] at h
      rw [UInt8.toNat_inj.mp hdiv, ih hlen' h]

/-- The bytes of the number that bytes stand for. -/
theorem bytesOf_fromBytes {width : Nat} {bs : List UInt8} (h : bs.length = width) :
    bytesOf width (fromBytes bs) = bs := by
  subst h
  exact eq_of_fromBytes_eq (length_bytesOf _ _) (fromBytes_bytesOf (fromBytes_lt bs))

/-- The loop of `bytes.fromhex`. -/
def fromHexChars : List Char → Option (List UInt8)
  | [] => some []
  | [c] => if isAsciiSpace c then some [] else none
  | c :: d :: cs =>
    if isAsciiSpace c then fromHexChars (d :: cs)
    else do
      let high ← digit 16 c
      let low ← digit 16 d
      let rest ← fromHexChars cs
      return UInt8.ofNat (high * 16 + low) :: rest

/-- `bytes.fromhex(s)` -/
def fromHex (cs : List Char) : Except Error (List UInt8) :=
  match fromHexChars cs with
  | some bs => .ok bs
  | none => .error .valueError

/-- `bs.rjust(width, b"\x00")` -/
def rjust (width : Nat) (bs : List UInt8) : List UInt8 :=
  List.replicate (width - bs.length) 0 ++ bs

/-! ## Order -/

/-- `sorted(..)` of strings, by code points. -/
def sortedStrings (l : List String) : List String := l.insertionSort (· ≤ ·)

/-- `sorted(d.items())`, by the keys, which are distinct. -/
def sortedItems (fields : List (String × Json)) : List (String × Json) :=
  fields.insertionSort fun f g => f.1 ≤ g.1

/-! ## Command lines -/

/-- Where `shlex` is in a text: between words, in one, in quotes, or behind a backslash, in
    double quotes or not. -/
inductive ShlexState where
  | blank
  | word
  | quoted (quote : Char)
  | escaped (inQuotes : Bool)
  deriving DecidableEq, Repr

def shlexFrom : List Char → ShlexState → (token : List Char) → Except Error (List String)
  | [], .blank, _ => .ok []
  | [], .word, token => .ok [String.ofList token]
  | [], .quoted _, _ => .error .valueError
  | [], .escaped _, _ => .error .valueError
  | c :: cs, .quoted quote, token =>
    if c = quote then shlexFrom cs .word token
    else if c = '\\' ∧ quote = '"' then shlexFrom cs (.escaped true) token
    else shlexFrom cs (.quoted quote) (token ++ [c])
  | c :: cs, .escaped inQuotes, token =>
    -- in double quotes a backslash stays before any other character
    let kept := if inQuotes ∧ c ≠ '\\' ∧ c ≠ '"' then ['\\', c] else [c]
    shlexFrom cs (if inQuotes then .quoted '"' else .word) (token ++ kept)
  | c :: cs, .blank, token =>
    if c ∈ [' ', '\t', '\r', '\n'] then shlexFrom cs .blank token
    else if c = '\\' then shlexFrom cs (.escaped false) []
    else if c = '"' ∨ c = '\'' then shlexFrom cs (.quoted c) []
    else shlexFrom cs .word [c]
  | c :: cs, .word, token =>
    if c ∈ [' ', '\t', '\r', '\n'] then
      (shlexFrom cs .blank []).map (String.ofList token :: ·)
    else if c = '\\' then shlexFrom cs (.escaped false) token
    else if c = '"' ∨ c = '\'' then shlexFrom cs (.quoted c) token
    else shlexFrom cs .word (token ++ [c])

/-- `shlex.split(text)` -/
def shlexSplit (text : String) : Except Error (List String) := shlexFrom text.toList .blank []

/-- `os.path.basename(path)` -/
def basename (path : String) : String :=
  String.ofList (path.toList.reverse.takeWhile (· ≠ '/')).reverse

end Python
