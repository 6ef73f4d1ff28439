namespace Amalgam
namespace Sha256

/-!
# SHA-256

The hash of FIPS 180-4 over a stream of bytes.  A hasher absorbs one byte after
the other and compresses a block as soon as it is full, so how the bytes are
grouped into updates cannot matter; `update_append` says so.

No property of the compression function itself is claimed here.
-/

/-- The eight chaining words. -/
structure State where
  a : UInt32
  b : UInt32
  c : UInt32
  d : UInt32
  e : UInt32
  f : UInt32
  g : UInt32
  h : UInt32
deriving DecidableEq

namespace State

def initial : State :=
  ⟨0x6a09e667, 0xbb67ae85, 0x3c6ef372, 0xa54ff53a,
   0x510e527f, 0x9b05688c, 0x1f83d9ab, 0x5be0cd19⟩

def add (s t : State) : State :=
  ⟨s.a + t.a, s.b + t.b, s.c + t.c, s.d + t.d,
   s.e + t.e, s.f + t.f, s.g + t.g, s.h + t.h⟩

def toList (s : State) : List UInt32 :=
  [s.a, s.b, s.c, s.d, s.e, s.f, s.g, s.h]

end State

def constants : List UInt32 :=
  [0x428a2f98, 0x71374491, 0xb5c0fbcf, 0xe9b5dba5, 0x3956c25b, 0x59f111f1, 0x923f82a4, 0xab1c5ed5,
   0xd807aa98, 0x12835b01, 0x243185be, 0x550c7dc3, 0x72be5d74, 0x80deb1fe, 0x9bdc06a7, 0xc19bf174,
   0xe49b69c1, 0xefbe4786, 0x0fc19dc6, 0x240ca1cc, 0x2de92c6f, 0x4a7484aa, 0x5cb0a9dc, 0x76f988da,
   0x983e5152, 0xa831c66d, 0xb00327c8, 0xbf597fc7, 0xc6e00bf3, 0xd5a79147, 0x06ca6351, 0x14292967,
   0x27b70a85, 0x2e1b2138, 0x4d2c6dfc, 0x53380d13, 0x650a7354, 0x766a0abb, 0x81c2c92e, 0x92722c85,
   0xa2bfe8a1, 0xa81a664b, 0xc24b8b70, 0xc76c51a3, 0xd192e819, 0xd6990624, 0xf40e3585, 0x106aa070,
   0x19a4c116, 0x1e376c08, 0x2748774c, 0x34b0bcb5, 0x391c0cb3, 0x4ed8aa4a, 0x5b9cca4f, 0x682e6ff3,
   0x748f82ee, 0x78a5636f, 0x84c87814, 0x8cc70208, 0x90befffa, 0xa4506ceb, 0xbef9a3f7, 0xc67178f2]

def rotateRight (x n : UInt32) : UInt32 :=
  (x >>> n) ||| (x <<< (32 - n))

/-- One round, with its constant and its word of the message schedule. -/
def round (s : State) (k w : UInt32) : State :=
  let sigma1 := rotateRight s.e 6 ^^^ rotateRight s.e 11 ^^^ rotateRight s.e 25
  let choice := (s.e &&& s.f) ^^^ (~~~s.e &&& s.g)
  let t1 := s.h + sigma1 + choice + k + w
  let sigma0 := rotateRight s.a 2 ^^^ rotateRight s.a 13 ^^^ rotateRight s.a 22
  let majority := (s.a &&& s.b) ^^^ (s.a &&& s.c) ^^^ (s.b &&& s.c)
  ⟨t1 + (sigma0 + majority), s.a, s.b, s.c, s.d + t1, s.e, s.f, s.g⟩

/-- The word of the message schedule that follows sixteen given ones. -/
def nextWord (window : List UInt32) : UInt32 :=
  let w1 := window.getD 1 0
  let w14 := window.getD 14 0
  let sigma0 := rotateRight w1 7 ^^^ rotateRight w1 18 ^^^ (w1 >>> 3)
  let sigma1 := rotateRight w14 17 ^^^ rotateRight w14 19 ^^^ (w14 >>> 10)
  sigma1 + window.getD 9 0 + sigma0 + window.getD 0 0

/-- The rounds for the given constants.  The window holds the sixteen words of
the schedule that begin with the word of the next round. -/
def rounds : List UInt32 → List UInt32 → State → State
  | [], _, s => s
  | k :: ks, window, s =>
      rounds ks (window.tail ++ [nextWord window]) (round s k (window.headD 0))

/-- Bytes read as big-endian words. -/
def wordsOf : List UInt8 → List UInt32
  | a :: b :: c :: d :: rest =>
      ((a.toUInt32 <<< 24) ||| (b.toUInt32 <<< 16) ||| (c.toUInt32 <<< 8) ||| d.toUInt32)
        :: wordsOf rest
  | _ => []

/-- The chaining words after one more block of sixty-four bytes. -/
def compress (s : State) (block : List UInt8) : State :=
  s.add (rounds constants (wordsOf block) s)

/-- A hash in progress: fewer than sixty-four bytes wait for their block to fill. -/
structure Hasher where
  state : State
  pending : ByteArray
  length : Nat

namespace Hasher

def start : Hasher :=
  ⟨State.initial, ByteArray.empty, 0⟩

def absorb : Hasher → UInt8 → Hasher
  | ⟨state, pending, length⟩, byte =>
      let pending := pending.push byte
      if pending.size < 64 then ⟨state, pending, length + 1⟩
      else ⟨compress state pending.toList, ByteArray.empty, length + 1⟩

def update (h : Hasher) (bytes : ByteArray) : Hasher :=
  bytes.data.foldl absorb h

/-- What is absorbed after a message of `length` bytes: a closing one bit,
zeros, and the length in bits. -/
def padding (length : Nat) : List UInt8 :=
  let lengthBytes : List UInt8 :=
    [56, 48, 40, 32, 24, 16, 8, 0].map fun shift => UInt8.ofNat ((8 * length) >>> shift)
  [0x80] ++ List.replicate ((119 - length % 64) % 64) 0 ++ lengthBytes

/-- The chaining words of the padded message. -/
def finish (h : Hasher) : State :=
  ((padding h.length).foldl absorb h).state

end Hasher

/-- A word as eight lowercase hexadecimal digits. -/
def hexOfWord (w : UInt32) : List Char :=
  [28, 24, 20, 16, 12, 8, 4, 0].map fun shift =>
    Nat.digitChar ((w.toNat >>> shift) % 16)

def hexOfState (s : State) : String :=
  String.ofList (s.toList.flatMap hexOfWord)

/-- The digest of a message, in hexadecimal. -/
def digest (message : ByteArray) : String :=
  hexOfState (Hasher.start.update message).finish

/-- Feeds a stream, read by read, to whatever takes updates.  A read of no byte is the
end of the stream. -/
def feed {α : Type} (update : α → ByteArray → α) (a : α) : List ByteArray → α
  | [] => a
  | chunk :: chunks => if chunk.isEmpty then a else feed update (update a chunk) chunks

/-- The digest of a stream that arrives in chunks, in hexadecimal. -/
def digestReads (reads : List ByteArray) : String :=
  hexOfState (feed Hasher.update Hasher.start reads).finish

/-- How the bytes are grouped into updates does not matter. -/
theorem Hasher.update_append (h : Hasher) (xs ys : ByteArray) :
    h.update (xs ++ ys) = (h.update xs).update ys := by
  simp [Hasher.update, ByteArray.data_append]

end Sha256
end Amalgam
