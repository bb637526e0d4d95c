import TenantGate.Text.Encoding

/-!
Texts as bytes and their percent escapes. Different texts have different bytes, an escaped text is
ASCII, and decoding gives back the bytes that were escaped as long as percent signs are escaped too.
-/
namespace TenantGate

namespace Utf8

theorem byteArray_toList (bytes : ByteArray) : bytes.toList = bytes.data.toList := by
  have loop (i : Nat) (r : List UInt8) :
      ByteArray.toList.loop bytes i r = r.reverse ++ bytes.data.toList.drop i := by
    induction h : bytes.size - i generalizing i r with
    | zero =>
      unfold ByteArray.toList.loop
      have past : ¬ i < bytes.size := by omega
      have nothing : bytes.data.toList.drop i = [] := by
        rw [List.drop_eq_nil_iff, Array.length_toList]
        exact Nat.le_of_not_lt past
      rw [if_neg past, nothing, List.append_nil]
    | succ n ih =>
      unfold ByteArray.toList.loop
      have inside : i < bytes.size := by omega
      have here : i < bytes.data.toList.length := inside
      rw [if_pos inside, ih _ _ (by omega), List.drop_eq_getElem_cons here]
      simp only [List.reverse_cons, List.append_assoc, List.cons_append, List.nil_append]
      congr 2
      simp [ByteArray.get!, inside]
  exact loop 0 []

theorem encode_ofList (cs : List Char) :
    encode (String.ofList cs) = cs.flatMap String.utf8EncodeChar := by
  simp only [encode, String.toUTF8_eq_toByteArray, String.toByteArray_ofList, byteArray_toList]
  simp [List.utf8Encode]

theorem encode_injective {s t : String} (same : encode s = encode t) : s = t := by
  simp only [encode, String.toUTF8_eq_toByteArray, byteArray_toList, Array.toList_inj] at same
  exact String.toByteArray_inj.mp (ByteArray.ext same)

def asciiBytes (cs : List Char) : List UInt8 := cs.map fun c => UInt8.ofNat c.toNat

theorem encodeChar_ascii {c : Char} (small : c.toNat < 0x80) :
    String.utf8EncodeChar c = [UInt8.ofNat c.toNat] := by
  have size : c.utf8Size = 1 := by
    rw [Char.utf8Size_eq_one_iff, UInt32.le_iff_toNat_le]
    exact Nat.le_of_lt_succ small
  exact String.utf8EncodeChar_eq_singleton size

theorem encode_ascii (cs : List Char) (small : ∀ c ∈ cs, c.toNat < 0x80) :
    encode (String.ofList cs) = asciiBytes cs := by
  rw [encode_ofList, asciiBytes]
  induction cs with
  | nil => rfl
  | cons c cs ih =>
    rw [List.flatMap_cons, encodeChar_ascii (small c List.mem_cons_self),
      ih fun d among => small d (List.mem_cons_of_mem c among)]
    rfl

end Utf8

namespace Text

open Utf8

theorem forall_byte_below (p : UInt8 → Prop) (limit : Nat) (each : ∀ k < limit, p (UInt8.ofNat k))
    (b : UInt8) (below : b.toNat < limit) : p b := by
  have shown := each b.toNat below
  rwa [UInt8.ofNat_toNat] at shown

theorem hexValue?_upperHexDigit (n : UInt8) (digit : n.toNat < 16) :
    hexValue? (UInt8.ofNat (upperHexDigit n).toNat) = some n :=
  forall_byte_below (fun n => hexValue? (UInt8.ofNat (upperHexDigit n).toNat) = some n) 16
    (by decide) n digit

theorem high_lt (b : UInt8) : (b / 16).toNat < 16 := by
  have := b.toNat_lt
  simp only [UInt8.toNat_div, UInt8.reduceToNat]
  omega

theorem low_lt (b : UInt8) : (b % 16).toNat < 16 := by
  simp only [UInt8.toNat_mod, UInt8.reduceToNat]
  omega

theorem high_low (b : UInt8) : b / 16 * 16 + b % 16 = b := by
  have := b.toNat_lt
  rw [← UInt8.toNat_inj]
  simp only [UInt8.toNat_add, UInt8.toNat_mul, UInt8.toNat_div, UInt8.toNat_mod,
    UInt8.reduceToNat]
  omega

theorem toNat_ofByte (b : UInt8) : (Char.ofNat b.toNat).toNat = b.toNat := by
  have valid : b.toNat.isValidChar := .inl (Nat.lt_trans b.toNat_lt (by decide))
  rw [Char.ofNat, dif_pos valid]
  rfl

theorem percentDecode_cons {b : UInt8} (plain : b ≠ 0x25) (rest : List UInt8) :
    percentDecode (b :: rest) = b :: percentDecode rest := by
  rw [percentDecode]
  rintro h l more rfl
  exact absurd rfl plain

theorem percentDecode_escapeByte (b : UInt8) (rest : List UInt8) :
    percentDecode (asciiBytes (escapeByte b) ++ rest) = b :: percentDecode rest := by
  have written : asciiBytes (escapeByte b) ++ rest =
      0x25 :: UInt8.ofNat (upperHexDigit (b / 16)).toNat ::
        UInt8.ofNat (upperHexDigit (b % 16)).toNat :: rest := rfl
  rw [written, percentDecode]
  simp only [hexValue?_upperHexDigit _ (high_lt b), hexValue?_upperHexDigit _ (low_lt b),
    high_low]

/-- What holds of the characters that escapes are written with, and of those that are not escaped,
holds of all characters of an escaped text. -/
theorem forall_mem_percentEncode {escaped : UInt8 → Bool} {p : Char → Prop} (sign : p '%')
    (digit : ∀ k < 16, p (upperHexDigit (UInt8.ofNat k)))
    (passed : ∀ k < 0x80, escaped (UInt8.ofNat k) = false → p (Char.ofNat k))
    (bytes : List UInt8) : ∀ c ∈ percentEncode escaped bytes, p c := by
  intro c among
  obtain ⟨b, _, written⟩ := List.mem_flatMap.mp among
  split at written
  · simp only [escapeByte, List.mem_cons, List.not_mem_nil, or_false] at written
    rcases written with rfl | rfl | rfl
    · exact sign
    · exact forall_byte_below (fun b => p (upperHexDigit b)) 16 digit _ (high_lt b)
    · exact forall_byte_below (fun b => p (upperHexDigit b)) 16 digit _ (low_lt b)
  · rename_i plain
    simp only [Bool.or_eq_true, decide_eq_true_eq, not_or, UInt8.not_le, Bool.not_eq_true] at plain
    rw [List.mem_singleton.mp written]
    refine passed b.toNat (UInt8.lt_iff_toNat_lt.mp plain.2) ?_
    rw [UInt8.ofNat_toNat]
    exact plain.1

theorem toNat_ofSmall {k : Nat} (small : k < 0x80) : (Char.ofNat k).toNat = k := by
  have number := toNat_ofByte (UInt8.ofNat k)
  rwa [UInt8.toNat_ofNat_of_lt' (Nat.lt_trans small (by decide))] at number

theorem percentEncode_ascii (escaped : UInt8 → Bool) (bytes : List UInt8) :
    ∀ c ∈ percentEncode escaped bytes, c.toNat < 0x80 := by
  refine forall_mem_percentEncode (by decide) (by decide) (fun k small _ => ?_) bytes
  rw [toNat_ofSmall small]
  exact small

theorem percentDecode_percentEncode (escaped : UInt8 → Bool) (percent : escaped 0x25 = true)
    (bytes rest : List UInt8) :
    percentDecode (asciiBytes (percentEncode escaped bytes) ++ rest) =
      bytes ++ percentDecode rest := by
  induction bytes with
  | nil => rfl
  | cons b bytes ih =>
    simp only [percentEncode, asciiBytes, List.flatMap_cons, List.map_append,
      List.append_assoc] at ih ⊢
    split
    · have first := percentDecode_escapeByte b
      simp only [asciiBytes] at first
      rw [first, ih]
      rfl
    · rename_i plain
      have other : b ≠ 0x25 := by
        rintro rfl
        simp [percent] at plain
      simp only [List.map_cons, List.map_nil, toNat_ofByte, UInt8.ofNat_toNat, List.cons_append,
        List.nil_append]
      rw [percentDecode_cons other, ih]

/-- A character that is escaped, and that no escape is written with, is not in an escaped text. -/
theorem not_mem_percentEncode {escaped : UInt8 → Bool} {c : Char}
    (sign : c ≠ '%') (digit : ∀ k < 16, upperHexDigit (UInt8.ofNat k) ≠ c)
    (set : escaped (UInt8.ofNat c.toNat) = true) (bytes : List UInt8) :
    c ∉ percentEncode escaped bytes := by
  have others : ∀ d ∈ percentEncode escaped bytes, d ≠ c := by
    refine forall_mem_percentEncode sign.symm digit ?_ bytes
    intro k small plain same
    rw [← same, toNat_ofSmall small, plain] at set
    exact Bool.false_ne_true set
  exact fun among => others c among rfl

theorem percentEncode_asciiBytes {escaped : UInt8 → Bool} (cs : List Char)
    (plain : ∀ c ∈ cs, c.toNat < 0x80 ∧ escaped (UInt8.ofNat c.toNat) = false) :
    percentEncode escaped (asciiBytes cs) = cs := by
  induction cs with
  | nil => rfl
  | cons c cs ih =>
    obtain ⟨small, passed⟩ := plain c List.mem_cons_self
    have rest := ih fun d among => plain d (List.mem_cons_of_mem c among)
    have number : (UInt8.ofNat c.toNat).toNat = c.toNat :=
      UInt8.toNat_ofNat_of_lt' (Nat.lt_trans small (by decide))
    have low : ¬ 0x80 ≤ UInt8.ofNat c.toNat := by
      rw [UInt8.le_iff_toNat_le, number]
      exact Nat.not_le_of_lt small
    simp only [percentEncode, asciiBytes, List.map_cons, List.flatMap_cons] at rest ⊢
    rw [rest, if_neg (by simp [passed, low]), number, Char.ofNat_toNat]
    rfl

end Text

end TenantGate
