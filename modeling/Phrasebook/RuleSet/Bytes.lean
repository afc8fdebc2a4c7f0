namespace Phrasebook

/-- Words have 32 bits. -/
def wordBound : Nat := 0x100000000

/-- The `width` bytes of a number, lowest first. Higher digits are dropped. -/
def littleEndian : (width : Nat) → Nat → List UInt8
  | 0, _ => []
  | width + 1, n => UInt8.ofNat n :: littleEndian width (n / 256)

/-- Thirty-two bits in two's complement. -/
def signedWord (n : Int) : List UInt8 := littleEndian 4 (n % wordBound).toNat

/-- A word read as a signed number. -/
def toSigned (n : Nat) : Int := if 2 * n < wordBound then n else n - wordBound

namespace Buffer

/-- The four bytes at `offset`, lowest first. -/
def wordAt? (buffer : Array UInt8) (offset : Nat) : Option Nat :=
  if h : offset + 4 ≤ buffer.size then
    some (buffer[offset].toNat + 256 * (buffer[offset + 1].toNat +
      256 * (buffer[offset + 2].toNat + 256 * buffer[offset + 3].toNat)))
  else none

/-- The eight bytes at `offset`, lowest first. -/
def longAt? (buffer : Array UInt8) (offset : Nat) : Option Nat :=
  match wordAt? buffer offset, wordAt? buffer (offset + 4) with
  | some low, some high => some (low + wordBound * high)
  | _, _ => none

/-- The position of the first zero byte in `[i, stop)`. -/
def zeroFrom? (buffer : Array UInt8) (i stop : Nat) : Option Nat :=
  if i < stop then
    match buffer[i]? with
    | none => none
    | some byte => if byte == 0 then some i else zeroFrom? buffer (i + 1) stop
  else none
termination_by stop - i

def textBetween? (buffer : Array UInt8) (start stop : Nat) : Option String :=
  String.fromUTF8? ⟨buffer.extract start stop⟩

end Buffer

end Phrasebook
