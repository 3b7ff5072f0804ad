import Mathlib.Data.BitVec

namespace NukeLab.Addresses

inductive Address
  | v4 (bits : BitVec 32)
  | v6 (bits : BitVec 128)
  deriving DecidableEq

def digitsValue (base : Nat) (digit : Char → Nat) (cs : List Char) : Nat := cs.foldl (fun n c => n * base + digit c) 0

def decimal (c : Char) : Nat := c.toNat - '0'.toNat

def isHex (c : Char) : Bool := c.isDigit || 'a' ≤ c && c ≤ 'f' || 'A' ≤ c && c ≤ 'F'

def hexadecimal (c : Char) : Nat := if c.isDigit then decimal c else c.toLower.toNat - 'a'.toNat + 10

/-- A number up to 255 without leading zeros. -/
def octet (cs : List Char) : Option (BitVec 8) :=
  if cs = [] ∨ 3 < cs.length ∨ ¬ cs.all Char.isDigit ∨ 1 < cs.length ∧ cs.head? = some '0' ∨
      255 < digitsValue 10 decimal cs then none
  else some (BitVec.ofNat 8 (digitsValue 10 decimal cs))

def parseV4 (cs : List Char) : Option (BitVec 32) :=
  match cs.splitOn '.' with
  | [a, b, c, d] => do
    let a ← octet a
    let b ← octet b
    let c ← octet c
    let d ← octet d
    return a ++ b ++ c ++ d
  | _ => none

def group (cs : List Char) : Option (BitVec 16) :=
  if cs = [] ∨ 4 < cs.length ∨ ¬ cs.all isHex then none else some (BitVec.ofNat 16 (digitsValue 16 hexadecimal cs))

/-- The groups on one side of an ellipsis, or of the whole. The last two may
stand as an embedded address. -/
def groups : List (List Char) → Option (List (BitVec 16))
  | [] => some []
  | [last] =>
    if '.' ∈ last then (parseV4 last).map fun bits => [bits.extractLsb' 16 16, bits.extractLsb' 0 16]
    else (group last).map fun g => [g]
  | first :: rest => do
    let g ← group first
    let gs ← groups rest
    return g :: gs

def side (cs : List Char) : Option (List (BitVec 16)) := if cs = [] then some [] else groups (cs.splitOn ':')

def splitEllipsis : List Char → Option (List Char × List Char)
  | ':' :: ':' :: cs => some ([], cs)
  | c :: cs => (splitEllipsis cs).map fun (before, after) => (c :: before, after)
  | [] => none

def joinGroups (gs : List (BitVec 16)) : BitVec 128 := gs.foldl (fun bits g => bits <<< 16 ||| g.setWidth 128) 0

/-- An ellipsis stands for one group at least. -/
def parseV6 (cs : List Char) : Option (BitVec 128) :=
  match splitEllipsis cs with
  | none => do
    let gs ← side cs
    if gs.length = 8 then some (joinGroups gs) else none
  | some (before, after) => do
    let left ← side before
    let right ← side after
    if '.' ∉ before ∧ left.length + right.length < 8 then
      some (joinGroups (left ++ List.replicate (8 - left.length - right.length) 0 ++ right))
    else none

def parseIP (text : String) : Option Address :=
  if ':' ∈ text.toList then (parseV6 text.toList).map Address.v6 else (parseV4 text.toList).map Address.v4

/-- The addresses whose first `length` bits are those of `network`. -/
def inNetwork (network : BitVec 32) (length : Nat) (bits : BitVec 32) : Bool := bits >>> (32 - length) = network >>> (32 - length)

/-- The address that stands for an address of the older kind. -/
def mapped (bits : BitVec 128) : Option (BitVec 32) := if bits >>> 32 = 0xffff then some (bits.setWidth 32) else none

def Address.isLoopback : Address → Bool
  | .v4 bits => inNetwork 0x7f000000 8 bits
  | .v6 bits => bits = 1 || (mapped bits).any (inNetwork 0x7f000000 8)

example : (["127.0.0.1", "::1", "::ffff:127.8.0.1", "10.0.0.1", "127.0.0.01", "1::2::3", "localhost"].map fun text =>
    (parseIP text).map Address.isLoopback) =
    [some true, some true, some true, some false, none, none, none] := by decide +kernel

end NukeLab.Addresses
