/-
The values an SNMP agent answers with, and what the daemon reads from them.

`as i32` and `as i64` keep the low bits, `try_from` refuses what does not fit.
-/
import Mathlib.Algebra.Group.Int.Defs
import Netvisor.Entities
import Netvisor.Lib.Utf8

namespace Netvisor.Snmp

/-- An object identifier, as its arcs. -/
abbrev Oid := List Nat

/-- The arcs, if each fits in 64 bits. -/
def Oid.iter (oid : Oid) : Option (List Nat) := if oid.all (· < 2 ^ 64) then some oid else none

def oidToVec (oid : Oid) : List Nat := oid.iter.getD []

inductive Value
  | integer (n : BitVec 64)
  | octetString (bytes : List UInt8)
  | objectIdentifier (oid : Oid)
  | unsigned32 (n : BitVec 32)
  | counter32 (n : BitVec 32)
  | timeticks (n : BitVec 32)
  | counter64 (n : BitVec 64)
  /-- Null, an address, an exception: nothing is read from it. -/
  | other
deriving DecidableEq, Repr

def valueToString : Value → Option String
  | .octetString bytes => Utf8.fromUtf8 bytes
  | .objectIdentifier oid => oid.iter.map fun arcs => ".".intercalate (arcs.map toString)
  | _ => none

def i32TryFrom (n : Int) : Option (BitVec 32) :=
  if -2 ^ 31 ≤ n ∧ n < 2 ^ 31 then some (BitVec.ofInt 32 n) else none

def u64TryFrom (n : Int) : Option (BitVec 64) :=
  if 0 ≤ n then some (BitVec.ofInt 64 n) else none

def valueToI32 : Value → Option (BitVec 32)
  | .integer n => i32TryFrom n.toInt
  | .unsigned32 n => i32TryFrom n.toNat
  | .counter32 n => i32TryFrom n.toNat
  | .counter64 n => i32TryFrom n.toNat
  | .timeticks n => i32TryFrom n.toNat
  | _ => none

def valueToU64 : Value → Option (BitVec 64)
  | .integer n => u64TryFrom n.toInt
  | .unsigned32 n => some (n.setWidth 64)
  | .counter32 n => some (n.setWidth 64)
  | .counter64 n => some n
  | .timeticks n => some (n.setWidth 64)
  | _ => none

/-- The number in network byte order. -/
def ofBytes (w : Nat) (bytes : List UInt8) : BitVec w :=
  BitVec.ofNat w (bytes.foldl (fun n b => n * 256 + b.toNat) 0)

def valueToMac : Value → Option MacAddress
  | .octetString bytes => if bytes.length = 6 then some (ofBytes 48 bytes) else none
  | _ => none

def parseLldpMgmtAddr (bytes : List UInt8) : Option IpAddr :=
  if bytes.length = 4 then some (.v4 (ofBytes 32 bytes))
  else if bytes.length = 16 then some (.v6 (ofBytes 128 bytes))
  else if bytes.length = 5 ∧ bytes.head? = some 1 then some (.v4 (ofBytes 32 bytes.tail))
  else if bytes.length = 17 ∧ bytes.head? = some 2 then some (.v6 (ofBytes 128 bytes.tail))
  else none

def hexByte (b : UInt8) : String := String.ofList [Nat.digitChar (b.toNat / 16), Nat.digitChar (b.toNat % 16)]

/-- `xx:xx:…`, in lower case. -/
def formatHex (bytes : List UInt8) : String := ":".intercalate (bytes.map hexByte)

end Netvisor.Snmp
