import Mathlib
import RuntimeTargets.Text.Utf8

/-!
# Texts survive their bytes

The bytes of a text are no broken characters, so they are read back as the text
and shown as it.
-/

namespace RuntimeTargets.Utf8

theorem fromUTF8?_toUTF8 (text : String) : String.fromUTF8? text.toUTF8 = some text := by
  rw [String.fromUTF8?, String.toUTF8_eq_toByteArray, dif_pos text.isValidUTF8]
  rfl

theorem size_utf8Encode_singleton (c : Char) : [c].utf8Encode.size = c.utf8Size := by
  rw [List.utf8Encode_singleton, List.size_toByteArray, String.length_utf8EncodeChar]

/-- A decoder that has come as far as a character's bytes finds it there. -/
theorem utf8DecodeChar?_utf8Encode (front : List Char) (c : Char) (back : List Char) :
    (front ++ c :: back).utf8Encode.utf8DecodeChar? front.utf8Encode.size = some c := by
  have hsize : front.utf8Encode.size ≤ (front ++ c :: back).utf8Encode.size := by
    rw [List.utf8Encode_append, ByteArray.size_append]
    exact Nat.le_add_right _ _
  rw [ByteArray.utf8DecodeChar?_eq_utf8DecodeChar?_extract, List.utf8Encode_append,
    ByteArray.extract_append_eq_right rfl (ByteArray.size_append ..)]
  exact List.utf8DecodeChar?_utf8Encode_cons

theorem charsFrom_utf8Encode (front back : List Char) :
    charsFrom (front ++ back).utf8Encode front.utf8Encode.size = back := by
  induction back generalizing front with
  | nil =>
      rw [charsFrom, if_neg]
      rw [List.append_nil]
      exact lt_irrefl _
  | cons c back ih =>
      have hnext := ih (front ++ [c])
      rw [List.append_assoc, List.singleton_append] at hnext
      have hsize : (front ++ [c]).utf8Encode.size = front.utf8Encode.size + c.utf8Size := by
        rw [List.utf8Encode_append, ByteArray.size_append, size_utf8Encode_singleton]
      have hinside : front.utf8Encode.size < (front ++ c :: back).utf8Encode.size := by
        have hpos := c.utf8Size_pos
        rw [List.utf8Encode_append, List.utf8Encode_cons, ByteArray.size_append,
          ByteArray.size_append, size_utf8Encode_singleton]
        omega
      rw [hsize] at hnext
      rw [charsFrom, if_pos hinside, utf8DecodeChar?_utf8Encode]
      simp only [hnext]

/-- Only bytes that are no text are shown as another. -/
theorem lossy_toUTF8 (text : String) : lossy text.toUTF8 = text := by
  have hchars := charsFrom_utf8Encode [] text.toList
  rw [List.nil_append, String.utf8Encode_toList] at hchars
  rw [lossy, String.toUTF8_eq_toByteArray, ← String.toList_inj, String.toList_ofList]
  exact hchars

end RuntimeTargets.Utf8
