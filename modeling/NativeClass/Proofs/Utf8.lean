/-!
# The bytes of a text

* **`Utf8.toList_toUTF8`**: the bytes of a text are those of its characters, one character after the other.
* `Utf8.toList_toUTF8_append`, `Utf8.toList_toUTF8_inj`: the bytes of texts that are joined, and of different texts.
* `Utf8.toNat_eq_of_mem_utf8EncodeChar`: a byte below 128 is a character of its own.
-/

namespace NativeClass.Utf8

theorem toList_loop_eq (bs : ByteArray) (i : Nat) (done : List UInt8) :
    ByteArray.toList.loop bs i done = done.reverse ++ bs.data.toList.drop i := by
  fun_induction ByteArray.toList.loop bs i done with
  | case1 i done h ih =>
    have hi : i < bs.data.toList.length := h
    rw [ih, List.drop_eq_getElem_cons hi]
    simp [ByteArray.get!, h]
  | case2 i done h =>
    rw [List.drop_eq_nil_of_le (Nat.le_of_not_lt h), List.append_nil]

theorem toList_eq_data_toList (bs : ByteArray) : bs.toList = bs.data.toList := by
  rw [ByteArray.toList, toList_loop_eq]
  rfl

theorem toList_toByteArray (bytes : List UInt8) : bytes.toByteArray.toList = bytes := by
  rw [toList_eq_data_toList, List.toList_data_toByteArray]

/-- **The bytes of a text are those of its characters, one after the other.** -/
theorem toList_toUTF8 (s : String) : s.toUTF8.toList = s.toList.flatMap String.utf8EncodeChar := by
  have h := String.toByteArray_ofList (l := s.toList)
  rw [String.ofList_toList] at h
  rw [String.toUTF8_eq_toByteArray, h, List.utf8Encode, toList_toByteArray]

theorem toList_toUTF8_append (s t : String) : (s ++ t).toUTF8.toList = s.toUTF8.toList ++ t.toUTF8.toList := by
  rw [toList_toUTF8, toList_toUTF8, toList_toUTF8, String.toList_append, List.flatMap_append]

theorem toList_toUTF8_inj {s t : String} : s.toUTF8.toList = t.toUTF8.toList ↔ s = t := by
  rw [toList_eq_data_toList, toList_eq_data_toList, Array.toList_inj, ← String.toByteArray_inj]
  exact ⟨ByteArray.ext, congrArg ByteArray.data⟩

/-- A byte below 128 is no part of the bytes of a greater character. -/
theorem toNat_eq_of_mem_utf8EncodeChar {b : UInt8} {c : Char} (hb : b.toNat < 128)
    (h : b ∈ String.utf8EncodeChar c) : c.toNat = b.toNat := by
  have hofNat : ∀ n, b = UInt8.ofNat n → b.toNat = n % 256 := fun n hn => by rw [hn, UInt8.toNat_ofNat']
  rw [String.utf8EncodeChar] at h
  split at h
  next hsmall =>
    have := hofNat _ (List.mem_singleton.mp h)
    have : c.toNat = c.val.toNat := rfl
    omega
  · split at h
    · simp only [List.mem_cons, List.not_mem_nil, or_false] at h
      rcases h with h | h <;> have := hofNat _ h <;> omega
    · split at h
      · simp only [List.mem_cons, List.not_mem_nil, or_false] at h
        rcases h with h | h | h <;> have := hofNat _ h <;> omega
      · simp only [List.mem_cons, List.not_mem_nil, or_false] at h
        rcases h with h | h | h | h <;> have := hofNat _ h <;> omega

end NativeClass.Utf8
