import Furnace.Lib.PyText

namespace Furnace.Lib.Utf8

open PyText

/-!
# UTF-8

`str.encode()` and `bytes.decode()`: a text and its bytes.  A text is recovered from its
bytes (`decode_encode`), and has at most as many characters as bytes (`length_le_encode`);
it has as many exactly when all of its characters are ASCII (`length_encode_eq_iff`).
-/

/-- `s.encode()`. -/
def encode (s : Str) : List UInt8 := s.flatMap String.utf8EncodeChar

/-- `b.decode()`; `none` when the bytes are not UTF-8. -/
def decode (b : List UInt8) : Option Str := b.toByteArray.utf8Decode?.map Array.toList

/-- A text is recovered from its bytes. -/
@[simp] theorem decode_encode (s : Str) : decode (encode s) = some s := by
  have h : (encode s).toByteArray = s.utf8Encode := rfl
  rw [decode, h, List.utf8Decode?_utf8Encode]
  rfl

theorem encode_cons (c : Char) (s : Str) :
    encode (c :: s) = String.utf8EncodeChar c ++ encode s := rfl

theorem length_encode_cons (c : Char) (s : Str) :
    (encode (c :: s)).length = c.utf8Size + (encode s).length := by
  rw [encode_cons, List.length_append, String.length_utf8EncodeChar]

/-- A text has at most as many characters as bytes. -/
theorem length_le_encode (s : Str) : s.length ≤ (encode s).length := by
  induction s with
  | nil => exact Nat.zero_le _
  | cons c s ih =>
    have hc := c.utf8Size_pos
    rw [length_encode_cons, List.length_cons]
    omega

/-- The texts with as many characters as bytes are those of one-byte characters. -/
theorem length_encode_eq_iff (s : Str) :
    s.length = (encode s).length ↔ ∀ c ∈ s, c.utf8Size = 1 := by
  induction s with
  | nil => simp [encode]
  | cons c s ih =>
    have hc := c.utf8Size_pos
    have hle := length_le_encode s
    rw [length_encode_cons, List.length_cons, List.forall_mem_cons, ← ih]
    omega

end Furnace.Lib.Utf8
