import Ndtwin.ForStd.Decimal
import Ndtwin.ForStd.Hex

/-!
# Parsing helpers of the kernel

`include/utils/Utils.hpp`: the non-throwing parsers for identifiers and addresses that come
from other processes.
IPv4 addresses are `in_addr::s_addr` on a little-endian machine: the first byte of the
dotted form is the least significant one.
-/

namespace Ndtwin.Kernel

/-- `utils::DeploymentMode` -/
inductive DeploymentMode where
  | mininet
  | testbed
  deriving DecidableEq, Repr

namespace Utils

/-- `tryParseHexUint64`: hexadecimal digits only, and the value must fit. -/
def tryParseHexUint64 (text : String) : Option UInt64 :=
  if text.isEmpty ∨ ¬ text.toList.all CText.isXDigit then none
  else
    match CText.stoull 16 text.toList with
    | .ok (value, []) => some value
    | _ => none

/-- Four bytes in network order as `s_addr`. -/
def sAddr : List UInt8 → UInt32
  | [a, b, c, d] => a.toUInt32 + b.toUInt32 * 0x100 + c.toUInt32 * 0x10000 + d.toUInt32 * 0x1000000
  | _ => 0

/-- `tryIpStringToUint32` -/
def tryIpStringToUint32 (ipStr : String) : Option UInt32 :=
  if ipStr.isEmpty then none else (CText.inetAton (CText.cStr ipStr)).map sAddr

/-- `ipToString` of one address. -/
def ipToString (ip : UInt32) : String :=
  String.ofList (Decimal.dottedQuad
    [ip.toUInt8, (ip >>> 8).toUInt8, (ip >>> 16).toUInt8, (ip >>> 24).toUInt8])

/-- `portStringToUint`: base 16, truncated to 32 bits, and 0 when it cannot be read. -/
def portStringToUint (portStr : String) : UInt32 :=
  match CText.stoull 16 (CText.cStr portStr) with
  | .ok (value, _) => value.toUInt32
  | .error _ => 0

/-- `std::from_chars` on two characters in base 16, both of which it must consume. -/
def hexPair (a b : Char) : Option UInt64 :=
  match CText.digitIn 16 a, CText.digitIn 16 b with
  | some hi, some lo => some (UInt64.ofNat (hi * 16 + lo))
  | _, _ => none

/-- The loop of `tryMacToUint64` over the pairs, each but the first after a separator. -/
def macPairs (result : UInt64) : List Char → Option UInt64
  | [a, b] => (hexPair a b).map fun byte => (result <<< 8) ||| byte
  | a :: b :: sep :: rest =>
    match hexPair a b with
    | some byte =>
      if sep = ':' ∨ sep = '-' then macPairs ((result <<< 8) ||| byte) rest else none
    | none => none
  | _ => none

/-- `tryMacToUint64`: six pairs of hexadecimal digits, separated by `:` or `-`. -/
def tryMacToUint64 (mac : String) : Option UInt64 :=
  if mac.utf8ByteSize ≠ 17 then none else macPairs 0 mac.toList

example : tryMacToUint64 "00:11:22-33:44:5f" = some 0x00112233445f := by decide

/-- `std::hex << std::setw(2) << std::setfill('0')` of the byte `i` of a number. -/
def hexByte (mac : UInt64) (i : Nat) : List Char :=
  Hex.padded 2 ((mac >>> UInt64.ofNat (i * 8)) &&& 0xFF).toNat

/-- The loop of `macToString`, from the byte `i` down. -/
def macBytes (mac : UInt64) : Nat → List Char
  | 0 => hexByte mac 0
  | i + 1 => hexByte mac (i + 1) ++ ':' :: macBytes mac i

/-- `macToString` -/
def macToString (mac : UInt64) : String := String.ofList (macBytes mac 5)

example : macToString 0x00112233445f = "00:11:22:33:44:5f" := by decide

example : tryParseHexUint64 "000000000000001a" = some 26 := by decide

end Utils

end Ndtwin.Kernel
