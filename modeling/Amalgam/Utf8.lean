namespace Amalgam
namespace Utf8

/-!
# Reading UTF-8

Bytes become text only when they are well-formed UTF-8.  For all other bytes
this file finds the first fault: the index after the longest valid part and,
unless the bytes simply end too early, the number of bytes there that began a
well-formed character.
-/

/-- Why bytes are not text. -/
inductive Fault where
  /-- `length` bytes at `index` begin no character. -/
  | invalid (length index : Nat)
  /-- The bytes end inside a character that begins at `index`. -/
  | incomplete (index : Nat)
deriving DecidableEq

/-- What a user reads. -/
def Fault.message : Fault → String
  | .invalid length index =>
      s!"invalid utf-8 sequence of {length} bytes from index {index}"
  | .incomplete index =>
      s!"incomplete utf-8 byte sequence from index {index}"

/-- An inclusive range of byte values. -/
structure ByteRange where
  first : UInt8
  last : UInt8

/-- Whether a byte lies in a range. -/
def ByteRange.contains (r : ByteRange) (b : UInt8) : Bool :=
  r.first ≤ b && b ≤ r.last

/-- The values of a byte that continues a character. -/
def continuation : ByteRange := ⟨0x80, 0xBF⟩

/-- The bytes that must follow a first byte, or `none` if no character begins
with it.  The narrow ranges leave out overlong forms, surrogates and values
past the last code point. -/
def followers (lead : UInt8) : Option (List ByteRange) :=
  if lead ≤ 0x7F then some []
  else if lead < 0xC2 then none
  else if lead ≤ 0xDF then some [continuation]
  else if lead == 0xE0 then some [⟨0xA0, 0xBF⟩, continuation]
  else if lead == 0xED then some [⟨0x80, 0x9F⟩, continuation]
  else if lead ≤ 0xEF then some [continuation, continuation]
  else if lead == 0xF0 then some [⟨0x90, 0xBF⟩, continuation, continuation]
  else if lead ≤ 0xF3 then some [continuation, continuation, continuation]
  else if lead == 0xF4 then some [⟨0x80, 0x8F⟩, continuation, continuation]
  else none

/-- The number of bytes in front that fit the ranges one by one. -/
def fitting : List ByteRange → List UInt8 → Nat
  | r :: ranges, b :: bytes => if r.contains b then fitting ranges bytes + 1 else 0
  | _, _ => 0

/-- The first fault at or after `index`, where `bytes` begin.  Valid bytes
count as ending too early, right after their end. -/
def firstFault (index : Nat) : List UInt8 → Fault
  | [] => .incomplete index
  | lead :: bytes =>
      match followers lead with
      | none => .invalid 1 index
      | some ranges =>
          let n := fitting ranges bytes
          if n == ranges.length then firstFault (index + n + 1) (bytes.drop n)
          else if n == bytes.length then .incomplete index
          else .invalid (n + 1) index
termination_by bytes => bytes.length
decreasing_by rw [List.length_drop, List.length_cons]; omega

/-- The text that bytes encode. -/
def decode (bytes : ByteArray) : Except Fault String :=
  match String.fromUTF8? bytes with
  | some text => .ok text
  | none => .error (firstFault 0 bytes.toList)

end Utf8
end Amalgam
