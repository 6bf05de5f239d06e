/-! # XXH64

A digest of 64 bits for a string of bytes. Four lanes take in 32 bytes at a time; what is left
over is mixed in word by word, half-word and byte by byte.

## Main definitions

* **`Xxh64.digest`** the digest of bytes for a seed.
* **`Xxh64.hexText`** a digest as sixteen hexadecimal digits.
-/

namespace SankeyDiagram

namespace Xxh64

/-! ## Mixing -/

/-- The first multiplier. -/
def prime1 : UInt64 := 0x9E3779B185EBCA87

/-- The second multiplier. -/
def prime2 : UInt64 := 0xC2B2AE3D27D4EB4F

/-- The third multiplier. -/
def prime3 : UInt64 := 0x165667B19E3779F9

/-- The fourth multiplier. -/
def prime4 : UInt64 := 0x85EBCA77C2B2AE63

/-- The fifth multiplier. -/
def prime5 : UInt64 := 0x27D4EB2F165667C5

/-- A word turned to the left by less than 64 places. -/
def rotateLeft (x places : UInt64) : UInt64 :=
  (x <<< places) ||| (x >>> (64 - places))

/-- The word of some bytes, the lowest first. -/
def littleEndian (bytes : List UInt8) : UInt64 :=
  bytes.foldr (fun byte high => (high <<< 8) ||| byte.toUInt64) 0

/-- A lane that takes in a word. -/
def round (lane word : UInt64) : UInt64 :=
  rotateLeft (lane + word * prime2) 31 * prime1

/-- Whether there are at most some number of bytes, told without counting all of them. -/
def atMost (count : Nat) (bytes : List UInt8) : Bool :=
  (bytes.drop count).isEmpty

/-- `atMost count bytes` holds iff there are at most `count` bytes. -/
@[simp] theorem atMost_iff {count : Nat} {bytes : List UInt8} :
    atMost count bytes = true ↔ bytes.length ≤ count := by
  simp [atMost]

/-- The spreading of all bits of a state over the word. -/
def avalanche (state : UInt64) : UInt64 :=
  let state := (state ^^^ (state >>> 33)) * prime2
  let state := (state ^^^ (state >>> 29)) * prime3
  state ^^^ (state >>> 32)

/-! ## Lanes -/

/-- Four lanes. -/
structure Lanes where
  /-- Takes in the first word of every 32 bytes. -/
  first : UInt64
  /-- Takes in the second word. -/
  second : UInt64
  /-- Takes in the third word. -/
  third : UInt64
  /-- Takes in the fourth word. -/
  fourth : UInt64
deriving DecidableEq, Repr

namespace Lanes

/-- The lanes for a seed. -/
def start (seed : UInt64) : Lanes :=
  ⟨seed + prime1 + prime2, seed + prime2, seed, seed - prime1⟩

/-- Takes in the first 32 of some bytes. -/
def take (lanes : Lanes) (bytes : List UInt8) : Lanes where
  first := round lanes.first (littleEndian (bytes.take 8))
  second := round lanes.second (littleEndian ((bytes.drop 8).take 8))
  third := round lanes.third (littleEndian ((bytes.drop 16).take 8))
  fourth := round lanes.fourth (littleEndian ((bytes.drop 24).take 8))

/-- Takes in bytes as long as there are 32 of them; the others come back. -/
def takeAll (lanes : Lanes) (bytes : List UInt8) : Lanes × List UInt8 :=
  if atMost 31 bytes then (lanes, bytes)
  else takeAll (lanes.take bytes) (bytes.drop 32)
termination_by bytes.length
decreasing_by
  rename_i h
  rw [atMost_iff] at h
  simp only [List.length_drop]
  omega

/-- The state that the lanes make together. -/
def merged (lanes : Lanes) : UInt64 :=
  let joined := rotateLeft lanes.first 1 + rotateLeft lanes.second 7
    + rotateLeft lanes.third 12 + rotateLeft lanes.fourth 18
  [lanes.first, lanes.second, lanes.third, lanes.fourth].foldl
    (fun state lane => (state ^^^ round 0 lane) * prime1 + prime4) joined

end Lanes

/-! ## What is left over -/

/-- A state that takes in a byte. -/
def mixByte (state : UInt64) (byte : UInt8) : UInt64 :=
  rotateLeft (state ^^^ (byte.toUInt64 * prime5)) 11 * prime1

/-- A state that takes in four bytes, if there are as many; the others come back. -/
def mixHalf (state : UInt64) (bytes : List UInt8) : UInt64 × List UInt8 :=
  if atMost 3 bytes then (state, bytes)
  else
    (rotateLeft (state ^^^ (littleEndian (bytes.take 4) * prime1)) 23 * prime2 + prime3,
      bytes.drop 4)

/-- A state that takes in bytes as long as there are eight of them; the others come back. -/
def mixWords (state : UInt64) (bytes : List UInt8) : UInt64 × List UInt8 :=
  if atMost 7 bytes then (state, bytes)
  else
    mixWords (rotateLeft (state ^^^ round 0 (littleEndian (bytes.take 8))) 27 * prime1 + prime4)
      (bytes.drop 8)
termination_by bytes.length
decreasing_by
  rename_i h
  rw [atMost_iff] at h
  simp only [List.length_drop]
  omega

/-- The digest of bytes for a seed. -/
def digest (seed : UInt64) (bytes : List UInt8) : UInt64 :=
  let (lanes, rest) := (Lanes.start seed).takeAll bytes
  let state := if atMost 31 bytes then seed + prime5 else lanes.merged
  let (state, rest) := mixWords (state + UInt64.ofNat bytes.length) rest
  let (state, rest) := mixHalf state rest
  avalanche (rest.foldl mixByte state)

/-! ## Text -/

/-- A digest as sixteen hexadecimal digits in lower case. -/
def hexText (digest : UInt64) : String :=
  let digits := Nat.toDigits 16 digest.toNat
  String.ofList (List.replicate (16 - digits.length) '0' ++ digits)

end Xxh64

end SankeyDiagram
