import TenantGate.Proofs.JsonOutcomes
import TenantGate.Proofs.JsonSkipped

/-!
Which faults there are. A text is either broken or a misfit: JSON of another shape than its reader
wants. Strings, numbers and whatever stands between values are never a misfit in themselves; a value
of another kind is one as soon as its kind is certain, so that nothing behind it counts.
-/
namespace TenantGate.Json

open Utf8

variable {α β γ : Type}

/-- The result is a fault of the shape, not of the text. -/
def Misfit (r : Except Fault γ) : Prop := ∃ fault, r = .error fault ∧ fault.cause.kind = .misfit

section Results

@[simp] theorem not_misfit_ok (a : γ) : ¬ Misfit (.ok a : Except Fault γ) := by
  rintro ⟨fault, same, _⟩
  exact absurd same (by simp)

@[simp] theorem misfit_error_iff (fault : Fault) :
    Misfit (.error fault : Except Fault γ) ↔ fault.cause.kind = .misfit := by
  constructor
  · rintro ⟨_, same, kind⟩
    rwa [← Except.error.inj same] at kind
  · exact fun kind => ⟨fault, rfl, kind⟩

@[simp] theorem misfit_blame_iff (c : Cursor) (cause : Cause) :
    Misfit (c.blame cause : Except Fault γ) ↔ cause.kind = .misfit := misfit_error_iff _

@[simp] theorem misfit_fail_iff (c : Cursor) (cause : Cause) :
    Misfit (c.fail cause : Except Fault γ) ↔ cause.kind = .misfit := misfit_error_iff _

theorem misfit_bind_iff (r : Except Fault β) (next : β → Except Fault γ) :
    Misfit (r >>= next) ↔ Misfit r ∨ ∃ b, r = .ok b ∧ Misfit (next b) := by
  cases r with
  | error fault => simp [bind, Except.bind]
  | ok b => simp [bind, Except.bind]

theorem misfit_within_iff (step : Step) (r : Except Fault γ) :
    Misfit (within step r) ↔ Misfit r := by
  cases r with
  | error fault => simp [within, Fault.under]
  | ok a => simp [within]

theorem leads_bind_iff (r : Except Fault β) (next : β → Except Fault (α × Cursor))
    (rest : List UInt8) (a : α) :
    Leads (r >>= next) rest (some a) ↔ ∃ b, r = .ok b ∧ Leads (next b) rest (some a) := by
  cases r with
  | error fault => simp [bind, Except.bind, Leads]
  | ok b => simp [bind, Except.bind]

theorem within_ok_iff (step : Step) (r : Except Fault γ) (a : γ) :
    within step r = .ok a ↔ r = .ok a := by
  cases r <;> simp [within]

end Results

section Strings

theorem readTrailing_sound (leading : Nat) (place : Place) (input : List UInt8) :
    ¬ Misfit (readTrailing leading place input) := by
  unfold readTrailing
  repeat' split
  all_goals simp [Cause.kind]

theorem readEscape_sound (place : Place) (input : List UInt8) :
    ¬ Misfit (readEscape place input) := by
  cases input with
  | nil => simp [readEscape, Cause.kind]
  | cons b rest =>
    cases short : isShortEscape b with
    | true =>
      obtain ⟨letter, c, listed, own⟩ := letter_of_short short
      have certain := readEscape_letter listed place rest
      rw [own, List.singleton_append] at certain
      obtain ⟨e, read, _, _⟩ := certain
      simp [read]
    | false =>
      simp only [isShortEscape, Bool.or_eq_false_iff] at short
      obtain ⟨⟨⟨⟨⟨⟨⟨quote, backslash⟩, slash⟩, back⟩, feed⟩, line⟩, carriage⟩, tab⟩ := short
      simp only [readEscape, quote, backslash, slash, back, feed, line, carriage, tab,
        Bool.false_eq_true, ↓reduceIte]
      split
      · split
        · split
          · simp [Cause.kind]
          · split
            · simp [Cause.kind]
            · split
              · split
                · rename_i fault failed
                  rintro ⟨_, same, kind⟩
                  obtain rfl := Except.error.inj same
                  exact readTrailing_sound _ _ _ ⟨fault, failed, kind⟩
                · simp
              · simp
        · simp [Cause.kind]
      · simp [Cause.kind]

theorem readText_sound (read : String) (place : Place) (bytes : List UInt8) :
    ¬ Misfit (readText read place bytes) := by
  fun_induction readText read place bytes with
  | case1 => simp [Cause.kind]
  | case2 => simp
  | case3 read place b more quote backslash fault escape =>
    rintro ⟨_, same, kind⟩
    obtain rfl := Except.error.inj same
    exact readEscape_sound _ _ ⟨fault, escape, kind⟩
  | case4 read place b more quote backslash e escape ih => exact ih
  | case5 => simp [Cause.kind]
  | case6 read place b more quote backslash large c rest taken ih => exact ih
  | case7 => simp [Cause.kind]

end Strings

section Numbers

theorem floatOfParts_sound (c : Cursor) (positive : Bool) (significand : Nat) (exponent : Int) :
    ¬ Misfit (floatOfParts c positive significand exponent) := by
  unfold floatOfParts
  split <;> simp [Cause.kind]

theorem readExponentDigits_sound (positive : Bool) (significand : Nat) (start : Int)
    (upward : Bool) (c : Cursor) :
    ¬ Misfit (readExponentDigits positive significand start upward c) := by
  unfold readExponentDigits
  split
  · simp [Cause.kind]
  · split
    · simp only
      split
      · exact floatOfParts_sound _ _ _ _
      · split <;> simp [Cause.kind]
    · simp [Cause.kind]

theorem readExponent_sound (positive : Bool) (significand : Nat) (start : Int) (letter : UInt8)
    (bytes : List UInt8) (place : Place) :
    ¬ Misfit (readExponent positive significand start ⟨letter :: bytes, place⟩) := by
  obtain ⟨sign, more, upward, place', _, _, same⟩ :=
    readExponent_cases positive significand start letter bytes place
  rw [same]
  exact readExponentDigits_sound _ _ _ _ _

theorem readBehindDigits_sound (positive : Bool) (significand : Nat) (start : Int) (c : Cursor) :
    ¬ Misfit (readBehindDigits positive significand start c) := by
  obtain ⟨bytes, place⟩ := c
  cases bytes with
  | nil => exact floatOfParts_sound _ _ _ _
  | cons b more =>
    simp only [readBehindDigits]
    split
    · exact readExponent_sound _ _ _ _ _ _
    · exact floatOfParts_sound _ _ _ _

theorem readFraction_sound (positive : Bool) (significand : Nat) (start : Int) (c : Cursor) :
    ¬ Misfit (readFraction positive significand start c) := by
  simp only [readFraction]
  split
  · split <;> simp [Cause.kind]
  · exact readBehindDigits_sound _ _ _ _

theorem readTail_sound (positive : Bool) (significand dropped : Nat) (c : Cursor) :
    ¬ Misfit (readTail positive significand dropped c) := by
  have whole : ¬ Misfit (readTail.whole positive significand dropped c) := by
    unfold readTail.whole
    split
    · exact floatOfParts_sound _ _ _ _
    · repeat' split
      all_goals simp
  obtain ⟨bytes, place⟩ := c
  cases bytes with
  | nil => exact whole
  | cons b more =>
    simp only [readTail]
    split
    · exact readFraction_sound _ _ _ _
    · split
      · exact readExponent_sound _ _ _ _ _ _
      · exact whole

theorem readUnsigned_sound (positive : Bool) (c : Cursor) : ¬ Misfit (readUnsigned positive c) := by
  unfold readUnsigned
  split
  · simp [Cause.kind]
  · split
    · simp only
      split
      · split
        · simp [Cause.kind]
        · exact readTail_sound _ _ _ _
      · exact readTail_sound _ _ _ _
    · split
      · exact readTail_sound _ _ _ _
      · simp [Cause.kind]

theorem readNumber_sound (c : Cursor) : ¬ Misfit (readNumber c) := by
  unfold readNumber
  split <;> exact readUnsigned_sound _ _

end Numbers

section Marks

theorem expectBytes_sound (place : Place) (expected bytes : List UInt8) :
    ¬ Misfit (expectBytes place expected bytes) := by
  induction expected generalizing place bytes with
  | nil => simp [expectBytes]
  | cons e expected ih =>
    cases bytes with
    | nil => simp [expectBytes, Cause.kind]
    | cons b rest =>
      rw [expectBytes]
      split
      · exact ih _ _
      · simp [Cause.kind]

theorem nextKey_sound (first : Bool) (c : Cursor) : ¬ Misfit (nextKey first c) := by
  simp only [nextKey]
  split
  · simp [Cause.kind]
  · split
    · simp
    · split
      · split
        · simp [Cause.kind]
        · split
          · simp
          · split <;> simp [Cause.kind]
      · split
        · split <;> simp [Cause.kind]
        · simp [Cause.kind]

theorem readColon_sound (c : Cursor) : ¬ Misfit (readColon c) := by
  simp only [readColon]
  split
  · simp [Cause.kind]
  · split <;> simp [Cause.kind]

theorem endObject_sound (c : Cursor) : ¬ Misfit (endObject c) := by
  simp only [endObject]
  split
  · simp [Cause.kind]
  · split
    · simp
    · split <;> simp [Cause.kind]

theorem nextItem_sound (first : Bool) (c : Cursor) : ¬ Misfit (nextItem first c) := by
  simp only [nextItem]
  split
  · simp [Cause.kind]
  · split
    · simp
    · split
      · simp
      · split
        · split
          · simp [Cause.kind]
          · split <;> simp [Cause.kind]
        · simp [Cause.kind]

theorem endList_sound (c : Cursor) : ¬ Misfit (endList c) := by
  simp only [endList]
  split
  · simp [Cause.kind]
  · split
    · simp
    · split
      · split <;> simp [Cause.kind]
      · simp [Cause.kind]

theorem skipValue_sound (c : Cursor) : ¬ Misfit (skipValue c) := by
  rintro ⟨fault, failed, kind⟩
  exact skipFrom_kind failed kind

end Marks

end TenantGate.Json
