import Mathlib.Tactic.SplitIfs
import TenantGate.Proofs.Utf8Reading

/-!
The order of texts is the order of their UTF-8 bytes. Of two characters the greater one has the
greater byte where their bytes first differ, and both still have a byte there.
-/
namespace TenantGate.Utf8

/-- The lists have a first place where they differ, and the number of the first list is less. -/
def Precedes : List Nat → List Nat → Prop
  | m :: ms, n :: ns => m < n ∨ m = n ∧ Precedes ms ns
  | _, _ => False

def numbers (v : Nat) : List Nat :=
  if v ≤ 0x7F then [v]
  else if v ≤ 0x7FF then [v / 64 % 32 + 0xC0, v % 64 + 0x80]
  else if v ≤ 0xFFFF then [v / 4096 % 16 + 0xE0, v / 64 % 64 + 0x80, v % 64 + 0x80]
  else [v / 262144 % 8 + 0xF0, v / 4096 % 64 + 0x80, v / 64 % 64 + 0x80, v % 64 + 0x80]

theorem encodeChar_numbers (c : Char) :
    String.utf8EncodeChar c = (numbers c.toNat).map UInt8.ofNat := by
  have number : c.val.toNat = c.toNat := rfl
  simp only [String.utf8EncodeChar, numbers, number]
  split
  · rfl
  split
  · rfl
  split <;> rfl

theorem numbers_small (v : Nat) : ∀ n ∈ numbers v, n < 256 := by
  unfold numbers
  split
  · simp only [List.mem_singleton]
    omega
  split
  · simp only [List.mem_cons, List.not_mem_nil, or_false]
    omega
  split <;>
  · simp only [List.mem_cons, List.not_mem_nil, or_false]
    omega

theorem numbers_precede {v w : Nat} (below : v < w) (valid : w < 0x110000) :
    Precedes (numbers v) (numbers w) := by
  -- all digits as quotients by 64 of one another, so that their order is linear
  have quarter (n : Nat) : n / 4096 = n / 64 / 64 := (Nat.div_div_eq_div_mul n 64 64).symm
  have eighth (n : Nat) : n / 262144 = n / 64 / 64 / 64 := by
    rw [Nat.div_div_eq_div_mul, Nat.div_div_eq_div_mul]
  simp only [numbers, quarter, eighth]
  split_ifs <;> simp only [Precedes] <;> omega

theorem lt_of_precedes {ms ns : List Nat} (precedes : Precedes ms ns)
    (small : ∀ n ∈ ms, n < 256) (small' : ∀ n ∈ ns, n < 256) (rest rest' : List UInt8) :
    ms.map UInt8.ofNat ++ rest < ns.map UInt8.ofNat ++ rest' := by
  induction ms generalizing ns with
  | nil => exact precedes.elim
  | cons m ms ih =>
    cases ns with
    | nil => exact precedes.elim
    | cons n ns =>
      rw [List.forall_mem_cons] at small small'
      rw [List.map_cons, List.map_cons, List.cons_append, List.cons_append, List.cons_lt_cons_iff]
      rcases precedes with below | ⟨rfl, later⟩
      · left
        rw [UInt8.lt_iff_toNat_lt, ofNat_toNat_of_lt small.1, ofNat_toNat_of_lt small'.1]
        exact below
      · exact .inr ⟨rfl, ih later small.2 small'.2⟩

theorem encodeChar_lt {c d : Char} (below : c < d) (rest rest' : List UInt8) :
    String.utf8EncodeChar c ++ rest < String.utf8EncodeChar d ++ rest' := by
  have valid : d.toNat < 0xD800 ∨ (0xDFFF < d.toNat ∧ d.toNat < 0x110000) := d.valid
  have small : d.toNat < 0x110000 := by omega
  rw [encodeChar_numbers, encodeChar_numbers]
  exact lt_of_precedes (numbers_precede below small) (numbers_small _) (numbers_small _) rest rest'

theorem flatMap_lt {cs ds : List Char} (below : cs < ds) :
    cs.flatMap String.utf8EncodeChar < ds.flatMap String.utf8EncodeChar := by
  induction cs generalizing ds with
  | nil =>
    cases ds with
    | nil => exact absurd below (List.lt_irrefl _)
    | cons d ds =>
      obtain ⟨b, more, bytes, _⟩ := next_encodeChar d []
      rw [List.flatMap_cons, bytes]
      exact List.nil_lt_cons _ _
  | cons c cs ih =>
    cases ds with
    | nil => exact absurd below (List.not_lt_nil _)
    | cons d ds =>
      rw [List.flatMap_cons, List.flatMap_cons]
      rcases List.cons_lt_cons_iff.mp below with less | ⟨rfl, later⟩
      · exact encodeChar_lt less _ _
      · exact List.append_left_lt (ih later)

theorem encode_lt {s t : String} (below : s < t) : encode s < encode t := by
  rw [encode_toList, encode_toList]
  exact flatMap_lt (String.lt_iff.mp below)

end TenantGate.Utf8
