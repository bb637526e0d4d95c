import TenantGate.Http.Uri
import TenantGate.Proofs.Percent
import TenantGate.Proofs.Utf8Reading
import TenantGate.Text.Encoding

/-!
Spellings of a text in a path or in a form. Each byte is written as itself, where it may be, or as
an escape in small or capital digits, and in a form a space may be a plus sign. Which bytes are
escaped is free for each of them, and whatever the choice the text is read back.
-/
namespace TenantGate.Text

open Utf8

def hexDigits : List UInt8 := encode "0123456789abcdef"

def capitalHexDigits : List UInt8 := encode "0123456789ABCDEF"

def IsHexDigit (d n : UInt8) : Prop :=
  hexDigits[n.toNat]? = some d ∨ capitalHexDigits[n.toNat]? = some d

/-- The ways to write bytes: each one as a byte that may stand for it, or as an escape. -/
inductive Spelled (stands : UInt8 → UInt8 → Prop) : List UInt8 → List UInt8 → Prop where
  | nil : Spelled stands [] []
  | plain {b c : UInt8} {bytes written : List UInt8} (here : stands b c)
      (rest : Spelled stands bytes written) : Spelled stands (b :: bytes) (c :: written)
  | escaped {b h l : UInt8} {bytes written : List UInt8} (high : IsHexDigit h (b / 16))
      (low : IsHexDigit l (b % 16)) (rest : Spelled stands bytes written) :
      Spelled stands (b :: bytes) (0x25 :: h :: l :: written)

/-- A byte may stand for itself, unless it is a percent sign. -/
def Literal (b c : UInt8) : Prop := c = b ∧ b ≠ 0x25

/-- What may stand in a segment of a path: bytes of a path, but no slash and no percent sign. -/
def InPathSegment (b c : UInt8) : Prop :=
  c = b ∧ Http.Uri.isPathByte b = true ∧ b ≠ 0x25 ∧ b ≠ 0x2F

/-- What may stand in the value of a form: a plus sign for a space, and for themselves the bytes of
a query that are no percent sign, no plus sign and no separator of pairs. -/
def InFormValue (b c : UInt8) : Prop :=
  (b = 0x20 ∧ c = 0x2B) ∨
    (c = b ∧ Http.Uri.isQueryByte b = true ∧ b ≠ 0x25 ∧ b ≠ 0x26 ∧ b ≠ 0x2B)

def InFormName (b c : UInt8) : Prop := InFormValue b c ∧ c ≠ 0x3D

instance (d n : UInt8) : Decidable (IsHexDigit d n) := inferInstanceAs (Decidable (_ ∨ _))

instance (b c : UInt8) : Decidable (InPathSegment b c) := inferInstanceAs (Decidable (_ ∧ _))

instance (b c : UInt8) : Decidable (InFormValue b c) := inferInstanceAs (Decidable (_ ∨ _))

instance (b c : UInt8) : Decidable (InFormName b c) := inferInstanceAs (Decidable (_ ∧ _))

theorem hexDigits_values : ∀ k < 16, hexDigits[k]?.bind hexValue? = some (UInt8.ofNat k) ∧
    capitalHexDigits[k]?.bind hexValue? = some (UInt8.ofNat k) := by
  decide +kernel

theorem hexValue?_of_isHexDigit {d n : UInt8} (digit : IsHexDigit d n) : hexValue? d = some n := by
  have few : hexDigits.length = 16 ∧ capitalHexDigits.length = 16 := by decide +kernel
  have small : n.toNat < 16 := by
    rcases digit with found | found
    · exact few.1 ▸ (List.getElem?_eq_some_iff.mp found).1
    · exact few.2 ▸ (List.getElem?_eq_some_iff.mp found).1
  have values := hexDigits_values n.toNat small
  rw [UInt8.ofNat_toNat] at values
  rcases digit with found | found
  · rw [found] at values
    exact values.1
  · rw [found] at values
    exact values.2

theorem mem_hexDigits {d n : UInt8} (digit : IsHexDigit d n) :
    d ∈ hexDigits ++ capitalHexDigits :=
  List.mem_append.mpr (digit.imp List.mem_of_getElem? List.mem_of_getElem?)

theorem hexDigits_ordinary : ∀ d ∈ hexDigits ++ capitalHexDigits,
    d ≠ 0x26 ∧ d ≠ 0x2B ∧ d ≠ 0x2F ∧ d ≠ 0x3D := by
  decide +kernel

namespace Spelled

variable {stands : UInt8 → UInt8 → Prop} {bytes written : List UInt8}

theorem itself (passed : ∀ b ∈ bytes, stands b b) : Spelled stands bytes bytes := by
  induction bytes with
  | nil => exact .nil
  | cons b bytes ih =>
    exact .plain (passed b List.mem_cons_self) (ih fun c among =>
      passed c (List.mem_cons_of_mem b among))

theorem forall_mem {p : UInt8 → Prop} (spelled : Spelled stands bytes written) (sign : p 0x25)
    (digits : ∀ d ∈ hexDigits ++ capitalHexDigits, p d) (passed : ∀ b c, stands b c → p c) :
    ∀ c ∈ written, p c := by
  induction spelled with
  | nil => simp
  | plain here _ ih =>
    intro c among
    rcases List.mem_cons.mp among with rfl | later
    · exact passed _ _ here
    · exact ih c later
  | escaped high low _ ih =>
    intro c among
    simp only [List.mem_cons] at among
    rcases among with rfl | rfl | rfl | later
    · exact sign
    · exact digits _ (mem_hexDigits high)
    · exact digits _ (mem_hexDigits low)
    · exact ih c later

/-- What escapes are written with may be put in place of what is written, where it stays the same. -/
theorem map {stands' : UInt8 → UInt8 → Prop} {f : UInt8 → UInt8}
    (spelled : Spelled stands bytes written) (sign : f 0x25 = 0x25)
    (digits : ∀ d ∈ hexDigits ++ capitalHexDigits, f d = d)
    (passed : ∀ b c, stands b c → stands' b (f c)) : Spelled stands' bytes (written.map f) := by
  induction spelled with
  | nil => exact .nil
  | plain here _ ih => exact .plain (passed _ _ here) ih
  | escaped high low _ ih =>
    simp only [List.map_cons, sign, digits _ (mem_hexDigits high), digits _ (mem_hexDigits low)]
    exact .escaped high low ih

theorem mono {stands' : UInt8 → UInt8 → Prop} (spelled : Spelled stands bytes written)
    (weaker : ∀ b c, stands b c → stands' b c) : Spelled stands' bytes written := by
  have same : Spelled stands' bytes (written.map id) := spelled.map rfl (fun _ _ => rfl) weaker
  rwa [List.map_id] at same

theorem percentDecode (spelled : Spelled Literal bytes written) :
    Text.percentDecode written = bytes := by
  induction spelled with
  | nil => rfl
  | plain here _ ih =>
    obtain ⟨rfl, other⟩ := here
    rw [percentDecode_cons other, ih]
  | escaped high low _ ih =>
    rw [Text.percentDecode, hexValue?_of_isHexDigit high, hexValue?_of_isHexDigit low]
    simp only [high_low, ih]

theorem formBytes (spelled : Spelled InFormValue bytes written) :
    Text.formBytes written = bytes := by
  refine (spelled.map ?_ ?_ ?_).percentDecode
  · decide
  · intro d digit
    rw [if_neg (by simpa only [beq_iff_eq] using (hexDigits_ordinary d digit).2.1)]
  · rintro b c (⟨rfl, rfl⟩ | ⟨rfl, _, percent, _, plus⟩)
    · exact ⟨rfl, by decide⟩
    · exact ⟨by simp [plus], percent⟩

theorem formText {s : String} (spelled : Spelled InFormValue (encode s) written) :
    Text.formText written = s := by
  rw [Text.formText, spelled.formBytes, decodeLossy_encode]

theorem single (spelled : Spelled InPathSegment bytes written) : 0x2F ∉ written := by
  have others : ∀ c ∈ written, c ≠ 0x2F :=
    spelled.forall_mem (by decide) (fun d digit => (hexDigits_ordinary d digit).2.2.1)
      fun _ _ ⟨same, _, _, other⟩ => same ▸ other
  exact fun among => others _ among rfl

end Spelled

theorem decode?_segment {s : String} {segment : List UInt8}
    (spelled : Spelled InPathSegment (encode s) segment) :
    decode? (percentDecode segment) = some s := by
  have literal : Spelled Literal (encode s) segment :=
    spelled.mono fun b c ⟨same, _, other, _⟩ => ⟨same, other⟩
  rw [literal.percentDecode, decode?_encode]

section Pieces

variable {separator : UInt8}

theorem splitOnByte_ne_nil (bytes : List UInt8) : splitOnByte separator bytes ≠ [] := by
  cases bytes with
  | nil => simp [splitOnByte]
  | cons b rest =>
    rw [splitOnByte]
    split
    · simp
    · split <;> simp

theorem splitOnByte_plain {piece : List UInt8} (plain : separator ∉ piece) :
    splitOnByte separator piece = [piece] := by
  induction piece with
  | nil => rfl
  | cons b rest ih =>
    have other : ¬ (b == separator) = true := by
      intro same
      exact plain (beq_iff_eq.mp same ▸ List.mem_cons_self)
    rw [splitOnByte, if_neg other, ih fun later => plain (List.mem_cons_of_mem b later)]

theorem splitOnByte_append (bytes more : List UInt8) :
    splitOnByte separator (bytes ++ separator :: more) =
      splitOnByte separator bytes ++ splitOnByte separator more := by
  induction bytes with
  | nil => simp [splitOnByte]
  | cons b rest ih =>
    rw [List.cons_append, splitOnByte, splitOnByte, ih]
    by_cases here : (b == separator) = true
    · rw [if_pos here, if_pos here]
      rfl
    · rw [if_neg here, if_neg here]
      cases split : splitOnByte separator rest with
      | nil => exact absurd split (splitOnByte_ne_nil rest)
      | cons piece pieces => rfl

theorem cutAtByte_append {before : List UInt8} (plain : separator ∉ before)
    (behind : List UInt8) : cutAtByte separator (before ++ separator :: behind) = (before, behind) := by
  induction before with
  | nil => simp [cutAtByte]
  | cons b rest ih =>
    have other : ¬ (b == separator) = true := by
      intro same
      exact plain (beq_iff_eq.mp same ▸ List.mem_cons_self)
    rw [List.cons_append, cutAtByte, if_neg other,
      ih fun later => plain (List.mem_cons_of_mem b later)]

end Pieces

theorem formPairs_append (query more : List UInt8) :
    formPairs (query ++ 0x26 :: more) = formPairs query ++ formPairs more := by
  rw [formPairs, splitOnByte_append, List.filter_append, List.map_append]
  rfl

theorem formPairs_joined (parts : List (List UInt8)) :
    formPairs (List.intercalate [0x26] parts) = parts.flatMap formPairs := by
  induction parts with
  | nil => rfl
  | cons part more ih =>
    cases more with
    | nil => simp [List.intercalate]
    | cons next later =>
      rw [List.intercalate_cons_cons, List.flatMap_cons, ← ih, ← formPairs_append]
      simp

theorem formPairs_spelled {name value : String} {writtenName writtenValue : List UInt8}
    (named : Spelled InFormName (encode name) writtenName)
    (valued : Spelled InFormValue (encode value) writtenValue) :
    formPairs (writtenName ++ 0x3D :: writtenValue) = [(name, value)] := by
  have named' : Spelled InFormValue (encode name) writtenName := named.mono fun _ _ here => here.1
  have noEquals : ∀ c ∈ writtenName, c ≠ 0x3D :=
    named.forall_mem (by decide) (fun d digit => (hexDigits_ordinary d digit).2.2.2)
      fun _ _ here => here.2
  have inValue : ∀ b c, InFormValue b c → c ≠ 0x26 := by
    rintro b c (⟨rfl, rfl⟩ | ⟨rfl, _, _, other, _⟩)
    · decide
    · exact other
  have inDigits : ∀ d ∈ hexDigits ++ capitalHexDigits, d ≠ 0x26 := fun d digit =>
    (hexDigits_ordinary d digit).1
  have noSeparator : 0x26 ∉ writtenName ++ 0x3D :: writtenValue := by
    intro among
    simp only [List.mem_append, List.mem_cons] at among
    rcases among with inName | same | inRest
    · exact named'.forall_mem (by decide) inDigits inValue _ inName rfl
    · exact absurd same (by decide)
    · exact valued.forall_mem (by decide) inDigits inValue _ inRest rfl
  have something : (writtenName ++ 0x3D :: writtenValue).isEmpty = false := by simp
  rw [formPairs, splitOnByte_plain noSeparator]
  simp only [List.filter_cons, something, Bool.not_false, ↓reduceIte, List.filter_nil,
    List.map_cons, List.map_nil, formPair, cutAtByte_append (fun among => noEquals _ among rfl),
    named'.formText, valued.formText]

end TenantGate.Text
