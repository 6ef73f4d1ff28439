import Amalgam.Text.Line
import Amalgam.Utf8

namespace Amalgam

/-!
# Texts and their bytes

Encoding a text and decoding the bytes gives the text back, and bytes that encode no text
cannot be decoded.

In UTF-8 a line feed is a byte of its own, and no other character has this byte in it.
So the line feeds of a text can be counted in its bytes, also where the bytes have been
cut in the middle of a character and are no text any more.
-/

/-! ## Decoding -/

theorem fromUTF8?_toUTF8 (text : String) : String.fromUTF8? text.toUTF8 = some text :=
  dif_pos text.isValidUTF8

/-- The bytes of a text decode to the text. -/
theorem decode_toUTF8 (text : String) : Utf8.decode text.toUTF8 = .ok text := by
  rw [Utf8.decode, fromUTF8?_toUTF8]

theorem exists_eq_toUTF8 {bytes : ByteArray} (h : bytes.IsValidUTF8) :
    ∃ text : String, bytes = text.toUTF8 :=
  ⟨String.fromUTF8 bytes h, rfl⟩

/-- Bytes that encode no text have a fault. -/
theorem decode_of_not_isValidUTF8 {bytes : ByteArray} (h : ¬ bytes.IsValidUTF8) :
    Utf8.decode bytes = .error (Utf8.firstFault 0 bytes.toList) := by
  have hnone : String.fromUTF8? bytes = none := dif_neg h
  rw [Utf8.decode, hnone]

namespace Text

/-! ## The bytes of a text -/

theorem size_toUTF8 (s : String) : s.toUTF8.size = s.utf8ByteSize :=
  String.size_toByteArray

theorem toUTF8_append (s t : String) : (s ++ t).toUTF8 = s.toUTF8 ++ t.toUTF8 :=
  String.toByteArray_append

theorem extract_toUTF8_of_le {s : String} {limit : Nat} (h : s.utf8ByteSize ≤ limit) :
    s.toUTF8.extract 0 limit = s.toUTF8 := by
  rw [← size_toUTF8] at h
  rw [← Nat.max_eq_left h, ByteArray.extract_zero_max_size]

/-- The bytes of a text are those of its characters. -/
theorem toList_toUTF8 (s : String) :
    s.toUTF8.data.toList = s.toList.flatMap String.utf8EncodeChar := by
  rw [String.toUTF8, ← String.utf8Encode_toList, List.utf8Encode, List.data_toByteArray]

/-! ## Line feeds among bytes -/

/-- The number of line feeds among bytes. -/
def countBreakBytes (bytes : ByteArray) : Nat :=
  bytes.data.toList.count 0x0A

@[simp]
theorem countBreakBytes_append (bytes more : ByteArray) :
    countBreakBytes (bytes ++ more) = countBreakBytes bytes + countBreakBytes more := by
  simp [countBreakBytes, ByteArray.data_append]

/-- Bytes of the upper half are no line feeds. -/
theorem count_map_ofNat (values : List Nat) (h : ∀ n ∈ values, 0x80 ≤ n ∧ n < 0x100) :
    (values.map UInt8.ofNat).count 0x0A = 0 := by
  rw [List.count_eq_zero, List.mem_map]
  rintro ⟨n, hn, hbyte⟩
  have hmod : n % 0x100 = 0x0A := congrArg UInt8.toNat hbyte
  have hrange := h n hn
  omega

/-- Only the line feed is encoded with the byte of a line feed. -/
theorem count_utf8EncodeChar (c : Char) :
    (String.utf8EncodeChar c).count 0x0A = if c = '\n' then 1 else 0 := by
  have hbreak : c = '\n' ↔ c.val.toNat = 0x0A := by
    rw [← Char.toNat_inj]
    rfl
  simp only [hbreak, String.utf8EncodeChar]
  split
  · rename_i hascii
    have hbyte : UInt8.ofNat c.val.toNat = 0x0A ↔ c.val.toNat = 0x0A := by
      constructor
      · intro h
        have hmod : c.val.toNat % 0x100 = 0x0A := congrArg UInt8.toNat h
        omega
      · intro h
        rw [h]
        rfl
    simp only [List.count_singleton, beq_iff_eq, hbyte]
  · rename_i hascii
    have hne : ¬ c.val.toNat = 0x0A := by omega
    rw [if_neg hne]
    -- The bytes of a longer encoding all have a fixed leading bit.
    split
    · exact count_map_ofNat [_, _] (by simp; omega)
    · split
      · exact count_map_ofNat [_, _, _] (by simp; omega)
      · exact count_map_ofNat [_, _, _, _] (by simp; omega)

/-- The bytes of a text hold as many line feeds as the text. -/
theorem countBreakBytes_toUTF8 (s : String) : countBreakBytes s.toUTF8 = countBreaks s := by
  rw [countBreakBytes, countBreaks, toList_toUTF8]
  induction s.toList with
  | nil => rfl
  | cons c cs ih =>
      rw [List.flatMap_cons, List.count_append, ih, count_utf8EncodeChar, List.count_cons,
        Nat.add_comm]
      simp [beq_iff_eq]

theorem getLast?_utf8EncodeChar_eq_break_iff {c : Char} :
    (String.utf8EncodeChar c).getLast? = some 0x0A ↔ c = '\n' := by
  by_cases hbreak : c = '\n'
  · subst hbreak
    exact iff_of_true rfl rfl
  · refine iff_of_false (fun hlast => ?_) hbreak
    have hcount : 0 < (String.utf8EncodeChar c).count 0x0A :=
      List.count_pos_iff.2 (List.mem_of_getLast? hlast)
    rw [count_utf8EncodeChar, if_neg hbreak] at hcount
    exact Nat.lt_irrefl 0 hcount

theorem getLast?_toUTF8_eq_break_iff {text : String} :
    text.toUTF8.data.toList.getLast? = some 0x0A ↔ isTerminated text = true := by
  rw [toList_toUTF8, isTerminated, beq_iff_eq]
  cases hlast : text.toList.getLast? with
  | none =>
      rw [List.getLast?_eq_none_iff.1 hlast]
      exact iff_of_false nofun nofun
  | some c =>
      obtain ⟨front, hsplit⟩ := List.getLast?_eq_some_iff.1 hlast
      have hne : String.utf8EncodeChar c ≠ [] := by simp
      have hbyte : (front.flatMap String.utf8EncodeChar ++ String.utf8EncodeChar c).getLast? =
          (String.utf8EncodeChar c).getLast? := by
        rw [List.getLast?_append, List.getLast?_eq_some_getLast hne, Option.some_or]
      rw [hsplit, List.flatMap_append, List.flatMap_singleton, hbyte,
        getLast?_utf8EncodeChar_eq_break_iff, Option.some.injEq]

end Text
end Amalgam
