import Mathlib

/-!
# UTF-8 encodings

The encoding of a list of characters, as a list of bytes.  It determines the characters
(`encode_injective`), and a test that passes on every byte from 128 on is a test of the
one-byte characters (`forall_mem_encode`).
-/

namespace Utf8

/-- The bytes of characters, one after another. -/
def encode (cs : List Char) : List UInt8 := cs.flatMap String.utf8EncodeChar

@[simp] theorem encode_nil : encode [] = [] := rfl

theorem encode_cons (c : Char) (cs : List Char) :
    encode (c :: cs) = String.utf8EncodeChar c ++ encode cs := List.flatMap_cons

theorem encode_append (cs ds : List Char) : encode (cs ++ ds) = encode cs ++ encode ds :=
  List.flatMap_append

theorem length_encode (cs : List Char) :
    (encode cs).length = (String.ofList cs).utf8ByteSize := by
  induction cs with
  | nil => rfl
  | cons c cs ih =>
      rw [encode_cons, List.length_append, ih, String.length_utf8EncodeChar,
        String.ofList_cons, String.utf8ByteSize_append, String.utf8ByteSize_singleton]

/-- **An encoding determines its characters.** -/
theorem encode_injective : Function.Injective encode := by
  intro cs ds h
  have hbytes : (String.ofList cs).toByteArray = (String.ofList ds).toByteArray := by
    rw [String.toByteArray_ofList, String.toByteArray_ofList]
    exact congrArg List.toByteArray h
  exact String.ofList_injective (String.toByteArray_inj.mp hbytes)

/-! ## Bytes of characters -/

section Bytes

variable {c : Char} {b : UInt8}

/-- A character below 128 is its own byte. -/
theorem encodeChar_of_lt (h : c.toNat < 128) :
    String.utf8EncodeChar c = [UInt8.ofNat c.toNat] := by
  have hsize : c.utf8Size = 1 := by
    rw [Char.utf8Size_eq_one_iff, UInt32.le_iff_toNat_le]
    exact Nat.le_of_lt_succ h
  rw [String.utf8EncodeChar_eq_singleton hsize]
  rfl

/-- The bytes of any other character are from 128 on. -/
theorem le_of_mem_encodeChar (h : 128 ≤ c.toNat) (hb : b ∈ String.utf8EncodeChar c) :
    128 ≤ b.toNat := by
  have hhigh : ∀ n < 256, 128 ≤ n → 128 ≤ (UInt8.ofNat n).toNat := by
    intro n hn hle
    rw [UInt8.toNat_ofNat_of_lt' hn]
    exact hle
  have hlarge : ¬ c.val.toNat ≤ 0x7f := Nat.not_le.mpr (Nat.lt_of_lt_of_le (by decide) h)
  simp only [String.utf8EncodeChar, if_neg hlarge] at hb
  split at hb
  · rcases List.mem_pair.mp hb with rfl | rfl <;> exact hhigh _ (by omega) (by omega)
  · split at hb
    · simp only [List.mem_cons, List.not_mem_nil, or_false] at hb
      rcases hb with rfl | rfl | rfl <;> exact hhigh _ (by omega) (by omega)
    · simp only [List.mem_cons, List.not_mem_nil, or_false] at hb
      rcases hb with rfl | rfl | rfl | rfl <;> exact hhigh _ (by omega) (by omega)

/-- **A test that large bytes pass is one of the small characters.** -/
theorem forall_mem_encode {p : ℕ → Prop} (hlarge : ∀ n, 128 ≤ n → n < 256 → p n)
    {cs : List Char} :
    (∀ b ∈ encode cs, p b.toNat) ↔ ∀ c ∈ cs, c.toNat < 128 → p c.toNat := by
  constructor
  · intro h c hc hsmall
    have hmem : UInt8.ofNat c.toNat ∈ encode cs := by
      refine List.mem_flatMap.mpr ⟨c, hc, ?_⟩
      rw [encodeChar_of_lt hsmall]
      exact List.mem_singleton_self _
    have hbyte := h _ hmem
    rwa [UInt8.toNat_ofNat_of_lt' (hsmall.trans (by decide))] at hbyte
  · intro h b hb
    obtain ⟨c, hc, hbyte⟩ := List.mem_flatMap.mp hb
    rcases Nat.lt_or_ge c.toNat 128 with hsmall | hc128
    · rw [encodeChar_of_lt hsmall, List.mem_singleton] at hbyte
      rw [hbyte, UInt8.toNat_ofNat_of_lt' (hsmall.trans (by decide))]
      exact h c hc hsmall
    · exact hlarge _ (le_of_mem_encodeChar hc128 hbyte) b.toNat_lt

/-- Characters below 128 are encoded one by one. -/
theorem encode_of_lt {cs : List Char} (h : ∀ c ∈ cs, c.toNat < 128) :
    encode cs = cs.map fun c => UInt8.ofNat c.toNat := by
  induction cs with
  | nil => rfl
  | cons c cs ih =>
      rw [List.forall_mem_cons] at h
      rw [encode_cons, encodeChar_of_lt h.1, ih h.2]
      rfl

end Bytes

end Utf8
