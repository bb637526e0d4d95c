import TenantGate.Proofs.Percent

/-!
Reading UTF-8. The bytes of a character are taken off the front as that character, whatever follows,
and so the bytes of a text are read as that text. Nothing else is taken for a character.
-/
namespace TenantGate.Utf8

theorem lead?_numbers : ∀ k < 256,
    (0xC2 ≤ k → k ≤ 0xDF → (lead? (UInt8.ofNat k) == some (k - 0xC0, 1, 0x80, 0xBF)) = true) ∧
    (0xE0 ≤ k → k ≤ 0xEF → (lead? (UInt8.ofNat k) == some (k - 0xE0, 2,
      if k = 0xE0 then 0xA0 else 0x80, if k = 0xED then 0x9F else 0xBF)) = true) ∧
    (0xF0 ≤ k → k ≤ 0xF4 → (lead? (UInt8.ofNat k) == some (k - 0xF0, 3,
      if k = 0xF0 then 0x90 else 0x80, if k = 0xF4 then 0x8F else 0xBF)) = true) := by
  decide +kernel

theorem lead?_two {k : Nat} (least : 0xC2 ≤ k) (most : k ≤ 0xDF) :
    lead? (UInt8.ofNat k) = some (k - 0xC0, 1, 0x80, 0xBF) :=
  beq_iff_eq.mp ((lead?_numbers k (by omega)).1 least most)

theorem lead?_three {k : Nat} (least : 0xE0 ≤ k) (most : k ≤ 0xEF) :
    lead? (UInt8.ofNat k) =
      some (k - 0xE0, 2, if k = 0xE0 then 0xA0 else 0x80, if k = 0xED then 0x9F else 0xBF) :=
  beq_iff_eq.mp ((lead?_numbers k (by omega)).2.1 least most)

theorem lead?_four {k : Nat} (least : 0xF0 ≤ k) (most : k ≤ 0xF4) :
    lead? (UInt8.ofNat k) =
      some (k - 0xF0, 3, if k = 0xF0 then 0x90 else 0x80, if k = 0xF4 then 0x8F else 0xBF) :=
  beq_iff_eq.mp ((lead?_numbers k (by omega)).2.2 least most)

theorem ofNat_toNat_of_lt {k : Nat} (below : k < 256) : (UInt8.ofNat k).toNat = k :=
  UInt8.toNat_ofNat_of_lt' below

theorem isTail_tail {k : Nat} (below : k < 64) : isTail (UInt8.ofNat (k + 0x80)) = true := by
  have number := ofNat_toNat_of_lt (show k + 0x80 < 256 by omega)
  simp only [isTail, Bool.and_eq_true, decide_eq_true_eq, UInt8.le_iff_toNat_le, number]
  exact ⟨by simp, by simp; omega⟩

theorem takeTails_tail (bits n : Nat) {k : Nat} (below : k < 64) (rest : List UInt8) :
    takeTails bits (n + 1) (UInt8.ofNat (k + 0x80) :: rest) = takeTails (bits * 64 + k) n rest := by
  have number := ofNat_toNat_of_lt (show k + 0x80 < 256 by omega)
  rw [takeTails, if_pos (isTail_tail below), number, Nat.add_sub_cancel]

theorem next_small {k : Nat} (below : k < 0x80) (rest : List UInt8) :
    next (UInt8.ofNat k) rest = (some (Char.ofNat k), rest) := by
  have number := ofNat_toNat_of_lt (show k < 256 by omega)
  have small : UInt8.ofNat k < 0x80 := by
    rw [UInt8.lt_iff_toNat_lt, number]
    exact below
  unfold next
  rw [if_pos small, number]

theorem next_lead {k t bits n : Nat} {low high : UInt8} (large : 0x80 ≤ k) (below : k < 256)
    (lead : lead? (UInt8.ofNat k) = some (bits, n, low, high)) (tail : t < 64)
    (above : low.toNat ≤ t + 0x80) (under : t + 0x80 ≤ high.toNat) (rest : List UInt8) :
    next (UInt8.ofNat k) (UInt8.ofNat (t + 0x80) :: rest) =
      takeTails (bits * 64 + t) (n - 1) rest := by
  have number := ofNat_toNat_of_lt (show t + 0x80 < 256 by omega)
  have big : ¬ UInt8.ofNat k < 0x80 := by
    rw [UInt8.lt_iff_toNat_lt, ofNat_toNat_of_lt below]
    exact Nat.not_lt_of_le large
  have inside : (decide (low ≤ UInt8.ofNat (t + 0x80)) &&
      decide (UInt8.ofNat (t + 0x80) ≤ high)) = true := by
    simp only [Bool.and_eq_true, decide_eq_true_eq, UInt8.le_iff_toNat_le, number]
    exact ⟨above, under⟩
  simp only [next, if_neg big, lead, inside, ↓reduceIte, number, Nat.add_sub_cancel]

theorem takeTails_done (bits : Nat) (rest : List UInt8) :
    takeTails bits 0 rest = (some (Char.ofNat bits), rest) := rfl

theorem next_encodeChar (c : Char) (rest : List UInt8) :
    ∃ b more, String.utf8EncodeChar c = b :: more ∧ next b (more ++ rest) = (some c, rest) := by
  have valid : c.toNat < 0xD800 ∨ (0xDFFF < c.toNat ∧ c.toNat < 0x110000) := c.valid
  have number : c.val.toNat = c.toNat := rfl
  have back : Char.ofNat c.toNat = c := Char.ofNat_toNat c
  unfold String.utf8EncodeChar
  simp only [number]
  generalize c.toNat = v at valid back ⊢
  split
  · rename_i one
    refine ⟨_, _, rfl, ?_⟩
    rw [List.nil_append, next_small (by omega), back]
  · rename_i one
    split
    · rename_i two
      have k : v / 64 % 32 + 0xC0 < 256 := by omega
      have lead := lead?_two (k := v / 64 % 32 + 0xC0) (by omega) (by omega)
      refine ⟨_, _, rfl, ?_⟩
      simp only [List.cons_append, List.nil_append]
      rw [next_lead (by omega) k lead (by omega) (by simp) (by simp; omega), takeTails_done]
      have whole : (v / 64 % 32 + 0xC0 - 0xC0) * 64 + v % 64 = v := by omega
      rw [whole, back]
    · rename_i two
      split
      · rename_i three
        have k : v / 4096 % 16 + 0xE0 < 256 := by omega
        have lead := lead?_three (k := v / 4096 % 16 + 0xE0) (by omega) (by omega)
        refine ⟨_, _, rfl, ?_⟩
        simp only [List.cons_append, List.nil_append]
        rw [next_lead (by omega) k lead (by omega) (by split <;> simp; omega)
          (by split <;> simp <;> omega), takeTails_tail _ _ (by omega), takeTails_done]
        have whole : ((v / 4096 % 16 + 0xE0 - 0xE0) * 64 + v / 64 % 64) * 64 + v % 64 = v := by
          omega
        rw [whole, back]
      · rename_i three
        have k : v / 262144 % 8 + 0xF0 < 256 := by omega
        have lead := lead?_four (k := v / 262144 % 8 + 0xF0) (by omega) (by omega)
        refine ⟨_, _, rfl, ?_⟩
        simp only [List.cons_append, List.nil_append]
        rw [next_lead (by omega) k lead (by omega) (by split <;> simp; omega)
          (by split <;> simp <;> omega), takeTails_tail _ _ (by omega),
          takeTails_tail _ _ (by omega), takeTails_done]
        have whole : (((v / 262144 % 8 + 0xF0 - 0xF0) * 64 + v / 4096 % 64) * 64 +
            v / 64 % 64) * 64 + v % 64 = v := by omega
        rw [whole, back]

theorem encode_toList (s : String) : encode s = s.toList.flatMap String.utf8EncodeChar := by
  rw [← encode_ofList, String.ofList_toList]

theorem encode_append (s t : String) : encode (s ++ t) = encode s ++ encode t := by
  rw [encode_toList, encode_toList, encode_toList, String.toList_append, List.flatMap_append]

theorem decodeAfter?_encodeChars (cs : List Char) (read : String) :
    decodeAfter? read (cs.flatMap String.utf8EncodeChar) = some (read ++ String.ofList cs) := by
  induction cs generalizing read with
  | nil => rw [List.flatMap_nil, decodeAfter?, String.ofList_nil, String.append_empty]
  | cons c cs ih =>
    obtain ⟨b, more, bytes, taken⟩ := next_encodeChar c (cs.flatMap String.utf8EncodeChar)
    rw [List.flatMap_cons, bytes, List.cons_append, decodeAfter?]
    split
    · rename_i d rest found
      rw [taken, Prod.mk.injEq, Option.some.injEq] at found
      obtain ⟨rfl, rfl⟩ := found
      rw [ih, String.push_eq_append, String.append_assoc, ← String.ofList_cons]
    · rename_i rest found
      rw [taken] at found
      exact absurd (congrArg Prod.fst found) (by simp)

theorem decode?_encode (s : String) : decode? (encode s) = some s := by
  rw [decode?, encode_toList, decodeAfter?_encodeChars, String.ofList_toList, String.empty_append]

theorem decodeLossyAfter_encodeChars (cs : List Char) (read : String) :
    decodeLossyAfter read (cs.flatMap String.utf8EncodeChar) = read ++ String.ofList cs := by
  induction cs generalizing read with
  | nil => rw [List.flatMap_nil, decodeLossyAfter, String.ofList_nil, String.append_empty]
  | cons c cs ih =>
    obtain ⟨b, more, bytes, taken⟩ := next_encodeChar c (cs.flatMap String.utf8EncodeChar)
    rw [List.flatMap_cons, bytes, List.cons_append, decodeLossyAfter]
    simp only [taken, Option.getD_some]
    rw [ih, String.push_eq_append, String.append_assoc, ← String.ofList_cons]

theorem decodeLossy_encode (s : String) : decodeLossy (encode s) = s := by
  rw [decodeLossy, encode_toList, decodeLossyAfter_encodeChars, String.ofList_toList,
    String.empty_append]

section Backwards

theorem takeTails_some {bits n : Nat} {bytes rest : List UInt8} {c : Char}
    (taken : takeTails bits (n + 1) bytes = (some c, rest)) :
    ∃ k tail, k < 64 ∧ bytes = UInt8.ofNat (k + 0x80) :: tail ∧
      takeTails (bits * 64 + k) n tail = (some c, rest) := by
  cases bytes with
  | nil => exact absurd taken (by simp [takeTails])
  | cons b tail =>
    rw [takeTails] at taken
    split at taken
    · rename_i within
      simp only [isTail, Bool.and_eq_true, decide_eq_true_eq, UInt8.le_iff_toNat_le] at within
      obtain ⟨least, most⟩ := within
      have least : 0x80 ≤ b.toNat := least
      have most : b.toNat ≤ 0xBF := most
      refine ⟨b.toNat - 0x80, tail, by omega, ?_, taken⟩
      rw [Nat.sub_add_cancel least, UInt8.ofNat_toNat]
    · exact absurd taken (by simp)

theorem lead?_range {k : Nat} (below : k < 256) (leads : (lead? (UInt8.ofNat k)).isSome = true) :
    0xC2 ≤ k ∧ k ≤ 0xF4 := by
  have number := ofNat_toNat_of_lt below
  refine Decidable.byContradiction fun outside => ?_
  have silent : lead? (UInt8.ofNat k) = none := by
    by_cases small : k < 0xC2
    · have less : UInt8.ofNat k < 0xC2 := by
        rw [UInt8.lt_iff_toNat_lt, number]
        exact small
      rw [lead?, if_pos less]
    · have beyond : 0xF4 < k := by omega
      have exceeds (n : UInt8) (low : n.toNat ≤ 0xF4) : ¬ UInt8.ofNat k ≤ n := by
        rw [UInt8.le_iff_toNat_le, number]
        omega
      have differs (n : UInt8) (low : n.toNat ≤ 0xF4) : ¬ (UInt8.ofNat k == n) = true := by
        rw [beq_iff_eq]
        exact fun same => exceeds n low (same ▸ UInt8.le_refl _)
      have large : ¬ UInt8.ofNat k < 0xC2 := by
        rw [UInt8.lt_iff_toNat_lt, number]
        exact small
      rw [lead?, if_neg large, if_neg (exceeds 0xDF (by decide)), if_neg (differs 0xE0 (by decide)),
        if_neg (differs 0xED (by decide)), if_neg (exceeds 0xEF (by decide)),
        if_neg (differs 0xF0 (by decide)), if_neg (exceeds 0xF3 (by decide)),
        if_neg (differs 0xF4 (by decide))]
  rw [silent] at leads
  exact absurd leads (by decide)

theorem toNat_ofNat {v : Nat} (valid : v < 0xD800 ∨ 0xDFFF < v ∧ v < 0x110000) :
    (Char.ofNat v).val.toNat = v := by
  rw [Char.ofNat, dif_pos valid]
  rfl

/-- The first byte of a longer character and the first one behind it, when there is a character. -/
theorem lead_some {k : Nat} {rest more : List UInt8} {c : Char} (large : 0x80 ≤ k)
    (below : k < 256) (taken : next (UInt8.ofNat k) rest = (some c, more)) :
    ∃ bits n low high t tail, lead? (UInt8.ofNat k) = some (bits, n, low, high) ∧
      rest = UInt8.ofNat t :: tail ∧ t < 256 ∧ low.toNat ≤ t ∧ t ≤ high.toNat ∧
      takeTails (bits * 64 + (t - 0x80)) (n - 1) tail = (some c, more) := by
  have big : ¬ UInt8.ofNat k < 0x80 := by
    rw [UInt8.lt_iff_toNat_lt, ofNat_toNat_of_lt below]
    exact Nat.not_lt_of_le large
  simp only [next, if_neg big] at taken
  cases lead : lead? (UInt8.ofNat k) with
  | none => exact absurd taken (by simp [lead])
  | some shape =>
    obtain ⟨bits, n, low, high⟩ := shape
    cases rest with
    | nil => exact absurd taken (by simp [lead])
    | cons t tail =>
      simp only [lead] at taken
      split at taken
      · rename_i within
        simp only [Bool.and_eq_true, decide_eq_true_eq, UInt8.le_iff_toNat_le] at within
        exact ⟨bits, n, low, high, t.toNat, tail, rfl, by rw [UInt8.ofNat_toNat], t.toNat_lt,
          within.1, within.2, taken⟩
      · exact absurd taken (by simp)

theorem done_of_takeTails {v : Nat} {rest more : List UInt8} {c : Char}
    (valid : v < 0xD800 ∨ 0xDFFF < v ∧ v < 0x110000)
    (taken : takeTails v 0 rest = (some c, more)) : c.val.toNat = v ∧ rest = more := by
  rw [takeTails_done, Prod.mk.injEq, Option.some.injEq] at taken
  obtain ⟨rfl, rfl⟩ := taken
  exact ⟨toNat_ofNat valid, rfl⟩

theorem next_some {b : UInt8} {rest more : List UInt8} {c : Char}
    (found : next b rest = (some c, more)) : b :: rest = String.utf8EncodeChar c ++ more := by
  have own : UInt8.ofNat b.toNat = b := UInt8.ofNat_toNat
  have below := b.toNat_lt
  generalize b.toNat = k at own below
  subst own
  by_cases small : k < 0x80
  · rw [next_small small, Prod.mk.injEq, Option.some.injEq] at found
    obtain ⟨rfl, rfl⟩ := found
    have number : (Char.ofNat k).toNat = k := toNat_ofNat (by omega)
    rw [encodeChar_ascii (by rw [number]; exact small), number]
    rfl
  · obtain ⟨bits, n, low, high, t, _, lead, rfl, within, least, most, taken⟩ :=
      lead_some (by omega) below found
    have range := lead?_range below (by rw [lead]; rfl)
    unfold String.utf8EncodeChar
    by_cases two : k ≤ 0xDF
    · rw [lead?_two range.1 two, Option.some.injEq] at lead
      simp only [Prod.mk.injEq] at lead
      obtain ⟨rfl, rfl, rfl, rfl⟩ := lead
      simp only [UInt8.reduceToNat] at least most
      obtain ⟨number, rfl⟩ := done_of_takeTails (by omega) taken
      have first : ((k - 0xC0) * 64 + (t - 0x80)) / 64 % 32 + 0xC0 = k := by omega
      have second : ((k - 0xC0) * 64 + (t - 0x80)) % 64 + 0x80 = t := by omega
      simp only [number]
      rw [if_neg (by omega), if_pos (by omega), first, second]
      rfl
    · by_cases three : k ≤ 0xEF
      · rw [lead?_three (by omega) three, Option.some.injEq] at lead
        simp only [Prod.mk.injEq] at lead
        obtain ⟨rfl, rfl, rfl, rfl⟩ := lead
        obtain ⟨u, _, below', rfl, last⟩ := takeTails_some taken
        have least : 0x80 ≤ t ∧ (k = 0xE0 → 0xA0 ≤ t) := by
          split at least
          · simp only [UInt8.reduceToNat] at least
            omega
          · simp only [UInt8.reduceToNat] at least
            omega
        have most : t ≤ 0xBF ∧ (k = 0xED → t ≤ 0x9F) := by
          split at most
          · simp only [UInt8.reduceToNat] at most
            omega
          · simp only [UInt8.reduceToNat] at most
            omega
        obtain ⟨number, rfl⟩ := done_of_takeTails (by omega) last
        generalize whole : ((k - 0xE0) * 64 + (t - 0x80)) * 64 + u = v at number
        have first : v / 4096 % 16 + 0xE0 = k := by omega
        have second : v / 64 % 64 + 0x80 = t := by omega
        have third : v % 64 + 0x80 = u + 0x80 := by omega
        simp only [number]
        rw [if_neg (by omega), if_neg (by omega), if_pos (by omega), first, second, third]
        rfl
      · rw [lead?_four (by omega) range.2, Option.some.injEq] at lead
        simp only [Prod.mk.injEq] at lead
        obtain ⟨rfl, rfl, rfl, rfl⟩ := lead
        obtain ⟨u, _, below', rfl, then'⟩ := takeTails_some taken
        obtain ⟨w, _, below'', rfl, last⟩ := takeTails_some then'
        have least : 0x80 ≤ t ∧ (k = 0xF0 → 0x90 ≤ t) := by
          split at least
          · simp only [UInt8.reduceToNat] at least
            omega
          · simp only [UInt8.reduceToNat] at least
            omega
        have most : t ≤ 0xBF ∧ (k = 0xF4 → t ≤ 0x8F) := by
          split at most
          · simp only [UInt8.reduceToNat] at most
            omega
          · simp only [UInt8.reduceToNat] at most
            omega
        obtain ⟨number, rfl⟩ := done_of_takeTails (by omega) last
        generalize whole : (((k - 0xF0) * 64 + (t - 0x80)) * 64 + u) * 64 + w = v at number
        have first : v / 262144 % 8 + 0xF0 = k := by omega
        have second : v / 4096 % 64 + 0x80 = t := by omega
        have third : v / 64 % 64 + 0x80 = u + 0x80 := by omega
        have fourth : v % 64 + 0x80 = w + 0x80 := by omega
        simp only [number]
        rw [if_neg (by omega), if_neg (by omega), if_neg (by omega), first, second, third, fourth]
        rfl

end Backwards

end TenantGate.Utf8
