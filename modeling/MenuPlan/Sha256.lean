/-
# SHA-256

The digest that identifies the text a plan was compiled from. A message is padded to whole blocks of
sixty-four bytes; each block is extended to a schedule of sixty-four words, which are mixed one
after another into a state of eight words.

All arithmetic is on 32-bit words. The tables are the first 32 bits of the fractional parts of the
square roots of the first eight primes (`initial`) and of the cube roots of the first sixty-four
(`roundConstants`).
-/

namespace MenuPlan.Sha256

/-- The word with its bits rotated to the right. -/
def rotate (x : UInt32) (bits : UInt32) : UInt32 :=
  (x >>> bits) ||| (x <<< (32 - bits))

/-- The state between two rounds. -/
structure State where
  a : UInt32
  b : UInt32
  c : UInt32
  d : UInt32
  e : UInt32
  f : UInt32
  g : UInt32
  h : UInt32
deriving DecidableEq, Repr

/-- The state before the first block. -/
def initial : State where
  a := 0x6a09e667
  b := 0xbb67ae85
  c := 0x3c6ef372
  d := 0xa54ff53a
  e := 0x510e527f
  f := 0x9b05688c
  g := 0x1f83d9ab
  h := 0x5be0cd19

/-- The constant of each round. -/
def roundConstants : List UInt32 := [
  0x428a2f98, 0x71374491, 0xb5c0fbcf, 0xe9b5dba5, 0x3956c25b, 0x59f111f1, 0x923f82a4, 0xab1c5ed5,
  0xd807aa98, 0x12835b01, 0x243185be, 0x550c7dc3, 0x72be5d74, 0x80deb1fe, 0x9bdc06a7, 0xc19bf174,
  0xe49b69c1, 0xefbe4786, 0x0fc19dc6, 0x240ca1cc, 0x2de92c6f, 0x4a7484aa, 0x5cb0a9dc, 0x76f988da,
  0x983e5152, 0xa831c66d, 0xb00327c8, 0xbf597fc7, 0xc6e00bf3, 0xd5a79147, 0x06ca6351, 0x14292967,
  0x27b70a85, 0x2e1b2138, 0x4d2c6dfc, 0x53380d13, 0x650a7354, 0x766a0abb, 0x81c2c92e, 0x92722c85,
  0xa2bfe8a1, 0xa81a664b, 0xc24b8b70, 0xc76c51a3, 0xd192e819, 0xd6990624, 0xf40e3585, 0x106aa070,
  0x19a4c116, 0x1e376c08, 0x2748774c, 0x34b0bcb5, 0x391c0cb3, 0x4ed8aa4a, 0x5b9cca4f, 0x682e6ff3,
  0x748f82ee, 0x78a5636f, 0x84c87814, 0x8cc70208, 0x90befffa, 0xa4506ceb, 0xbef9a3f7, 0xc67178f2]

namespace State

/-- One round, with the word of the schedule and the constant of the round. -/
def round (s : State) (word constant : UInt32) : State :=
  let mixE := rotate s.e 6 ^^^ rotate s.e 11 ^^^ rotate s.e 25
  let choice := (s.e &&& s.f) ^^^ (~~~s.e &&& s.g)
  let mixA := rotate s.a 2 ^^^ rotate s.a 13 ^^^ rotate s.a 22
  let majority := (s.a &&& s.b) ^^^ (s.a &&& s.c) ^^^ (s.b &&& s.c)
  let first := s.h + mixE + choice + constant + word
  { a := first + (mixA + majority)
    b := s.a
    c := s.b
    d := s.c
    e := s.d + first
    f := s.e
    g := s.f
    h := s.g }

/-- Word by word sum of two states. -/
def add (s t : State) : State :=
  ⟨s.a + t.a, s.b + t.b, s.c + t.c, s.d + t.d, s.e + t.e, s.f + t.f, s.g + t.g, s.h + t.h⟩

/-- The words of a state. -/
def words (s : State) : List UInt32 :=
  [s.a, s.b, s.c, s.d, s.e, s.f, s.g, s.h]

end State

/-- The word that follows the last sixteen words of a schedule, given last first. -/
def nextWord (latest : List UInt32) : UInt32 :=
  let back (n : Nat) := latest.getD (n - 1) 0
  let low := rotate (back 15) 7 ^^^ rotate (back 15) 18 ^^^ (back 15 >>> 3)
  let high := rotate (back 2) 17 ^^^ rotate (back 2) 19 ^^^ (back 2 >>> 10)
  back 16 + low + back 7 + high

/-- A schedule with further words, last first. -/
def extend : Nat → List UInt32 → List UInt32
  | 0, latest => latest
  | more + 1, latest => extend more (nextWord latest :: latest)

/-- The schedule of a block. -/
def schedule (block : List UInt32) : List UInt32 :=
  (extend 48 block.reverse).reverse

/-- The state after a block. -/
def compress (state : State) (block : List UInt32) : State :=
  let mixed := (List.zip (schedule block) roundConstants).foldl
    (fun s (word, constant) => s.round word constant) state
  state.add mixed

/-- The bytes of a number, most significant first. -/
def bytesOf : (count value : Nat) → List UInt8
  | 0, _ => []
  | count + 1, value => bytesOf count (value / 256) ++ [value.toUInt8]

/-- How many zero bytes fill the last block behind a message of this length. -/
def fillLength (length : Nat) : Nat :=
  (119 - length % 64) % 64

/-- What follows a message: a one bit, zeros and the length in bits, up to the end of a block. -/
def padding (length : Nat) : List UInt8 :=
  0x80 :: (List.replicate (fillLength length) 0 ++ bytesOf 8 (length * 8))

/-- The message with its padding. -/
def padded (message : List UInt8) : List UInt8 :=
  message ++ padding message.length

@[simp] theorem length_bytesOf (count value : Nat) : (bytesOf count value).length = count := by
  induction count generalizing value with
  | zero => rfl
  | succ count ih => simp [bytesOf, ih]

/-- A padded message consists of whole blocks. -/
theorem length_padded_mod (message : List UInt8) : (padded message).length % 64 = 0 := by
  simp only [padded, padding, List.length_append, List.length_cons, List.length_replicate,
    length_bytesOf, fillLength]
  omega

/-- The words that bytes write, most significant byte first. -/
def wordsOf : List UInt8 → List UInt32
  | a :: b :: c :: d :: rest =>
      ((a.toUInt32 <<< 24) ||| (b.toUInt32 <<< 16) ||| (c.toUInt32 <<< 8) ||| d.toUInt32)
        :: wordsOf rest
  | _ => []

/-- The state after the blocks that words form, in at most the given number of blocks. -/
def compressAll : Nat → State → List UInt32 → State
  | 0, state, _ => state
  | blocks + 1, state, words =>
      if words.isEmpty then state
      else compressAll blocks (compress state (words.take 16)) (words.drop 16)

/-- The digest of a message. -/
def digest (message : List UInt8) : List UInt8 :=
  let words := wordsOf (padded message)
  (compressAll words.length initial words).words.flatMap fun word => bytesOf 4 word.toNat

/-- A byte as two hexadecimal digits. -/
def hexByte (byte : UInt8) : List Char :=
  [Nat.digitChar (byte.toNat / 16), Nat.digitChar (byte.toNat % 16)]

/-- The digest of a text, written in hexadecimal digits. -/
def ofText (text : String) : String :=
  String.ofList ((digest text.toUTF8.data.toList).flatMap hexByte)

/-- A digest has thirty-two bytes. -/
theorem length_digest (message : List UInt8) : (digest message).length = 32 := by
  simp [digest, State.words]

end MenuPlan.Sha256
