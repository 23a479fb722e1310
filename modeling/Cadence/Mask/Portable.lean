import Cadence.Mask

/-!
Counting and scanning a mask with word arithmetic alone. The count adds neighbouring bits, pairs and
nibbles in parallel and gathers the bytes by one multiplication; the scan isolates the least member
and looks up which window of a de Bruijn word it selects.
-/

namespace Cadence.Mask.Portable

/-- The lower bit of every pair. -/
def lowBits : UInt64 := 0x5555555555555555

/-- The lower pair of every nibble. -/
def lowPairs : UInt64 := 0x3333333333333333

/-- The lower nibble of every byte. -/
def lowNibbles : UInt64 := 0x0f0f0f0f0f0f0f0f

/-- The lowest bit of every byte. -/
def bytes : UInt64 := 0x0101010101010101

/-- The number of members, by parallel sums of neighbouring fields. -/
def count (mask : Mask) : Nat :=
  let pairs := mask - ((mask >>> 1) &&& lowBits)
  let nibbles := (pairs &&& lowPairs) + ((pairs >>> 2) &&& lowPairs)
  let sums := (nibbles + (nibbles >>> 4)) &&& lowNibbles
  ((sums * bytes) >>> 56).toNat

/-- A word whose 64 six-bit windows, read with zeros shifted in, are all different. -/
def deBruijn : UInt64 := 0x022fdd63cc95386d

/-- The window that a shift by `i` brings to the top of the word. -/
def window (i : Nat) : Nat :=
  ((deBruijn <<< i.toUInt64) >>> 58).toNat

/-- The shift that brings each window to the top. -/
def shiftOfWindow : Array Nat :=
  (List.range 64).foldl (fun table i => table.setIfInBounds (window i) i) (Array.replicate 64 0)

/-- The least member, or 64 for the empty set. -/
def lowest (mask : Mask) : Nat :=
  if mask = 0 then 64
  else
    let isolated := mask &&& (0 - mask)
    shiftOfWindow.getD ((isolated * deBruijn) >>> 58).toNat 0

end Cadence.Mask.Portable
