import Mathlib.Data.List.Basic
import TenantGate.Proofs.JsonSkipping

/-!
What was passed by is a value. In each of its modes the machine still needs bytes of a certain form
to get out of all frames; each step towards the end adds a byte in front of them. So whatever it
stops behind is a value with white space before it. It never blames the shape of a value.
-/
namespace TenantGate.Json

variable {mode mode' : Mode} {frames frames' : List Frame} {b : UInt8} {bytes more : List UInt8}

def LooseEntry.Fits (e : LooseEntry) : Prop := LooseText e.key ∧ Loose e.value.value

def Closes : List Frame → List UInt8 → Prop
  | [], bytes => bytes = []
  | .list :: frames, bytes => ∃ (gap : Gap) (items : List Padded) (more : List UInt8),
      bytes = gap.bytes ++ (joined false (items.map Padded.bytes) ++ 0x5D :: more) ∧
        (∀ i ∈ items, Loose i.value) ∧ Closes frames more
  | .object :: frames, bytes => ∃ (gap : Gap) (entries : List LooseEntry) (more : List UInt8),
      bytes = gap.bytes ++ (joined false (entries.map LooseEntry.bytes) ++ 0x7D :: more) ∧
        (∀ e ∈ entries, e.Fits) ∧ Closes frames more

def AtItem (frames : List Frame) (bytes : List UInt8) : Prop :=
  ∃ (gap : Gap) (value more : List UInt8),
    bytes = gap.bytes ++ (value ++ more) ∧ Loose value ∧ Closes frames more

def AtColon (frames : List Frame) (bytes : List UInt8) : Prop :=
  ∃ (gap : Gap) (more : List UInt8), bytes = gap.bytes ++ 0x3A :: more ∧ AtItem frames more

def InText (isKey : Bool) (frames : List Frame) (bytes : List UInt8) : Prop :=
  ∃ inside more, bytes = inside ++ 0x22 :: more ∧ LooseText inside ∧
    if isKey then AtColon frames more else Closes frames more

def AtKey (frames : List Frame) (bytes : List UInt8) : Prop :=
  ∃ (gap : Gap) (more : List UInt8), bytes = gap.bytes ++ 0x22 :: more ∧ InText true frames more

def InEscape (isKey : Bool) (frames : List Frame) (left : Nat) (bytes : List UInt8) : Prop :=
  ∃ digits more, bytes = digits ++ more ∧ digits.length = left ∧
    (∀ d ∈ digits, isHexDigit d = true) ∧ InText isKey frames more

inductive NumberRest : Mode → List UInt8 → Prop where
  | sign {whole fraction exponent : List UInt8} (hasWhole : Whole whole)
      (hasFraction : Fraction fraction) (hasExponent : Exponent exponent) :
      NumberRest .sign (whole ++ (fraction ++ exponent))
  | zero {fraction exponent : List UInt8} (hasFraction : Fraction fraction)
      (hasExponent : Exponent exponent) : NumberRest .zero (fraction ++ exponent)
  | whole {digits fraction exponent : List UInt8} (each : ∀ d ∈ digits, isDigit d = true)
      (hasFraction : Fraction fraction) (hasExponent : Exponent exponent) :
      NumberRest .whole (digits ++ (fraction ++ exponent))
  | point {digits exponent : List UInt8} (hasDigits : Digits digits)
      (hasExponent : Exponent exponent) : NumberRest .point (digits ++ exponent)
  | fraction {digits exponent : List UInt8} (each : ∀ d ∈ digits, isDigit d = true)
      (hasExponent : Exponent exponent) : NumberRest .fraction (digits ++ exponent)
  | exponent {sign digits : List UInt8} (signs : sign = [] ∨ sign = [0x2B] ∨ sign = [0x2D])
      (hasDigits : Digits digits) : NumberRest .exponent (sign ++ digits)
  | exponentSign {digits : List UInt8} (hasDigits : Digits digits) :
      NumberRest .exponentSign digits
  | exponentDigits {digits : List UInt8} (each : ∀ d ∈ digits, isDigit d = true) :
      NumberRest .exponentDigits digits

/-- The bytes get the machine out of all frames. -/
def Completes : Mode → List Frame → List UInt8 → Prop
  | .item, frames, bytes => AtItem frames bytes
  | .opened .list, frames, bytes =>
    (∃ (gap : Gap) (more : List UInt8),
      bytes = gap.bytes ++ 0x5D :: more ∧ Closes (frames.drop 1) more) ∨ AtItem frames bytes
  | .opened .object, frames, bytes =>
    (∃ (gap : Gap) (more : List UInt8),
      bytes = gap.bytes ++ 0x7D :: more ∧ Closes (frames.drop 1) more) ∨ AtKey frames bytes
  | .key, frames, bytes => AtKey frames bytes
  | .colon, frames, bytes => AtColon frames bytes
  | .text isKey, frames, bytes => InText isKey frames bytes
  | .escape isKey, frames, bytes => ∃ b more, bytes = b :: more ∧
      (isShortEscape b = true ∧ InText isKey frames more ∨ b = 0x75 ∧ InEscape isKey frames 4 more)
  | .hex isKey valid left, frames, bytes => valid = true ∧ InEscape isKey frames (left + 1) bytes
  | .literal first more, frames, bytes =>
    ∃ behind, bytes = first :: more ++ behind ∧ Closes frames behind
  | .done, frames, bytes => Closes frames bytes
  | mode, frames, bytes =>
    ∃ tail more, bytes = tail ++ more ∧ NumberRest mode tail ∧ Closes frames more

section Numbers

theorem digits_cons {digits : List UInt8} (digit : isDigit b = true)
    (each : ∀ d ∈ digits, isDigit d = true) : ∀ d ∈ b :: digits, isDigit d = true :=
  List.forall_mem_cons.mpr ⟨digit, each⟩

theorem Digits.cons {digits : List UInt8} (digit : isDigit b = true)
    (each : ∀ d ∈ digits, isDigit d = true) : Digits (b :: digits) :=
  ⟨List.cons_ne_nil b digits, digits_cons digit each⟩

theorem NumberRest.nil (mode : Mode)
    (inside : mode = .zero ∨ mode = .whole ∨ mode = .fraction ∨ mode = .exponentDigits) :
    NumberRest mode [] := by
  have none : ∀ d ∈ ([] : List UInt8), isDigit d = true := by simp
  rcases inside with rfl | rfl | rfl | rfl
  · exact .zero .none .none
  · exact .whole none .none .none
  · exact .fraction none .none
  · exact .exponentDigits none

end Numbers

section Steps

theorem closes_space {frame : Frame} (space : isSpace b = true)
    (closes : Closes (frame :: frames) bytes) : Closes (frame :: frames) (b :: bytes) := by
  cases frame with
  | list =>
    obtain ⟨gap, items, more, rfl, each, closes⟩ := closes
    exact ⟨gap.cons b space, items, more, rfl, each, closes⟩
  | object =>
    obtain ⟨gap, entries, more, rfl, each, closes⟩ := closes
    exact ⟨gap.cons b space, entries, more, rfl, each, closes⟩

theorem closes_item (item : AtItem (.list :: frames) bytes) :
    Closes (.list :: frames) (0x2C :: bytes) := by
  obtain ⟨gap, value, _, rfl, loose, after, items, more, rfl, each, closes⟩ := item
  refine ⟨.none, ⟨gap, value, after⟩ :: items, more, ?_, List.forall_mem_cons.mpr ⟨loose, each⟩,
    closes⟩
  simp [joined, Padded.bytes, Gap.none]

theorem closes_key (key : AtKey (.object :: frames) bytes) :
    Closes (.object :: frames) (0x2C :: bytes) := by
  obtain ⟨lead, _, rfl, inside, _, rfl, text, gap, _, rfl, before, value, _, rfl, loose, after,
    entries, more, rfl, each, closes⟩ := key
  refine ⟨.none, ⟨lead, inside, gap, ⟨before, value, after⟩⟩ :: entries, more, ?_,
    List.forall_mem_cons.mpr ⟨⟨text, loose⟩, each⟩, closes⟩
  simp [joined, LooseEntry.bytes, looseQuoted, Padded.bytes, Gap.none]

theorem ofDone_completes (step : Verdict.ofDone b frames = .advance mode' frames')
    (later : Completes mode' frames' bytes) : Closes frames (b :: bytes) := by
  cases frames with
  | nil => exact absurd step (by simp [Verdict.ofDone])
  | cons frame frames =>
    cases frame with
    | list =>
      simp only [Verdict.ofDone] at step
      split at step
      · rename_i space
        obtain ⟨rfl, rfl⟩ := Verdict.advance.inj step
        exact closes_space space later
      · split at step
        · rename_i comma
          obtain rfl : b = 0x2C := by simpa using comma
          obtain ⟨rfl, rfl⟩ := Verdict.advance.inj step
          exact closes_item later
        · split at step
          · rename_i bracket
            obtain rfl : b = 0x5D := by simpa using bracket
            obtain ⟨rfl, rfl⟩ := Verdict.advance.inj step
            exact ⟨.none, [], bytes, rfl, by simp, later⟩
          · exact absurd step (by simp)
    | object =>
      simp only [Verdict.ofDone] at step
      split at step
      · rename_i space
        obtain ⟨rfl, rfl⟩ := Verdict.advance.inj step
        exact closes_space space later
      · split at step
        · rename_i comma
          obtain rfl : b = 0x2C := by simpa using comma
          obtain ⟨rfl, rfl⟩ := Verdict.advance.inj step
          exact closes_key later
        · split at step
          · rename_i brace
            obtain rfl : b = 0x7D := by simpa using brace
            obtain ⟨rfl, rfl⟩ := Verdict.advance.inj step
            exact ⟨.none, [], bytes, rfl, by simp, later⟩
          · exact absurd step (by simp)

theorem ofKey_completes (step : Verdict.ofKey b frames = .advance mode' frames')
    (later : Completes mode' frames' bytes) : AtKey frames (b :: bytes) := by
  simp only [Verdict.ofKey] at step
  split at step
  · rename_i space
    obtain ⟨rfl, rfl⟩ := Verdict.advance.inj step
    obtain ⟨gap, more, rfl, text⟩ := later
    exact ⟨gap.cons b space, more, rfl, text⟩
  · split at step
    · rename_i quote
      obtain rfl : b = 0x22 := by simpa using quote
      obtain ⟨rfl, rfl⟩ := Verdict.advance.inj step
      exact ⟨.none, bytes, rfl, later⟩
    · exact absurd step (by simp)

theorem atItem_value {value : List UInt8} (loose : Loose value) (closes : Closes frames more) :
    AtItem frames (value ++ more) :=
  ⟨.none, value, more, rfl, loose, closes⟩

theorem atItem_list (opened : Completes (.opened .list) (.list :: frames) bytes) :
    AtItem frames (0x5B :: bytes) := by
  rcases opened with ⟨gap, more, rfl, closes⟩ | item
  · have whole := atItem_value (@Loose.list gap [] (by simp)) closes
    simpa [listBytes, joined] using whole
  · obtain ⟨gap, value, _, rfl, loose, after, items, more, rfl, each, closes⟩ := item
    have whole := atItem_value (@Loose.list .none (⟨gap, value, after⟩ :: items)
      (List.forall_mem_cons.mpr ⟨loose, each⟩)) closes
    simpa [listBytes, joined, Padded.bytes, Gap.none] using whole

theorem atItem_object (opened : Completes (.opened .object) (.object :: frames) bytes) :
    AtItem frames (0x7B :: bytes) := by
  rcases opened with ⟨gap, more, rfl, closes⟩ | key
  · have whole := atItem_value (@Loose.object gap [] (by simp) (by simp)) closes
    simpa [looseObjectBytes, joined] using whole
  · obtain ⟨lead, _, rfl, inside, _, rfl, text, gap, _, rfl, before, value, _, rfl, loose, after,
      entries, more, rfl, each, closes⟩ := key
    have own : LooseEntry.Fits ⟨lead, inside, gap, ⟨before, value, after⟩⟩ := ⟨text, loose⟩
    have fits := List.forall_mem_cons.mpr ⟨own, each⟩
    have whole := atItem_value (.object .none (fun e among => (fits e among).1)
      (fun e among => (fits e among).2)) closes
    simpa [looseObjectBytes, joined, LooseEntry.bytes, looseQuoted, Padded.bytes, Gap.none]
      using whole

theorem ofItem_completes (step : Verdict.ofItem b frames = .advance mode' frames')
    (later : Completes mode' frames' bytes) : AtItem frames (b :: bytes) := by
  simp only [Verdict.ofItem] at step
  split at step
  case isTrue space =>
    obtain ⟨rfl, rfl⟩ := Verdict.advance.inj step
    obtain ⟨gap, value, more, rfl, loose, closes⟩ := later
    exact ⟨gap.cons b space, value, more, rfl, loose, closes⟩
  split at step
  case isTrue letter =>
    obtain rfl : b = 0x6E := by simpa using letter
    obtain ⟨rfl, rfl⟩ := Verdict.advance.inj step
    obtain ⟨more, rfl, closes⟩ := later
    exact atItem_value .null closes
  split at step
  case isTrue letter =>
    obtain rfl : b = 0x74 := by simpa using letter
    obtain ⟨rfl, rfl⟩ := Verdict.advance.inj step
    obtain ⟨more, rfl, closes⟩ := later
    exact atItem_value (.boolean true) closes
  split at step
  case isTrue letter =>
    obtain rfl : b = 0x66 := by simpa using letter
    obtain ⟨rfl, rfl⟩ := Verdict.advance.inj step
    obtain ⟨more, rfl, closes⟩ := later
    exact atItem_value (.boolean false) closes
  split at step
  case isTrue minus =>
    obtain rfl : b = 0x2D := by simpa using minus
    obtain ⟨rfl, rfl⟩ := Verdict.advance.inj step
    obtain ⟨tail, more, rfl, rest, closes⟩ := later
    cases rest with
    | sign hasWhole hasFraction hasExponent =>
      exact atItem_value (.number (.parts (.inr rfl) hasWhole hasFraction hasExponent)) closes
  split at step
  case isTrue zero =>
    obtain rfl : b = 0x30 := by simpa using zero
    obtain ⟨rfl, rfl⟩ := Verdict.advance.inj step
    obtain ⟨tail, more, rfl, rest, closes⟩ := later
    cases rest with
    | zero hasFraction hasExponent =>
      exact atItem_value (.number (.parts (.inl rfl) .zero hasFraction hasExponent)) closes
  split at step
  case isTrue digit =>
    rename_i nonzero
    obtain ⟨rfl, rfl⟩ := Verdict.advance.inj step
    obtain ⟨tail, more, rfl, rest, closes⟩ := later
    cases rest with
    | @whole digits fraction exponent each hasFraction hasExponent =>
      have hasWhole : Whole (b :: digits) := .digits digit (by simpa using nonzero) each
      have whole := atItem_value
        (.number (.parts (.inl rfl) hasWhole hasFraction hasExponent)) closes
      simpa using whole
  split at step
  case isTrue quote =>
    obtain rfl : b = 0x22 := by simpa using quote
    obtain ⟨rfl, rfl⟩ := Verdict.advance.inj step
    obtain ⟨inside, more, rfl, text, closes⟩ := later
    have whole := atItem_value (.text text) closes
    simpa [looseQuoted] using whole
  split at step
  case isTrue bracket =>
    obtain rfl : b = 0x5B := by simpa using bracket
    obtain ⟨rfl, rfl⟩ := Verdict.advance.inj step
    exact atItem_list later
  split at step
  case isTrue brace =>
    obtain rfl : b = 0x7B := by simpa using brace
    obtain ⟨rfl, rfl⟩ := Verdict.advance.inj step
    exact atItem_object later
  exact absurd step (by simp)

theorem atItem_space (space : isSpace b = true) (item : AtItem frames bytes) :
    AtItem frames (b :: bytes) := by
  obtain ⟨gap, value, more, rfl, loose, closes⟩ := item
  exact ⟨gap.cons b space, value, more, rfl, loose, closes⟩

theorem atKey_space (space : isSpace b = true) (key : AtKey frames bytes) :
    AtKey frames (b :: bytes) := by
  obtain ⟨gap, more, rfl, text⟩ := key
  exact ⟨gap.cons b space, more, rfl, text⟩

section Numbers

theorem step_sign (step : Mode.sign.step b frames = .advance mode' frames')
    (later : Completes mode' frames' bytes) : Completes .sign frames (b :: bytes) := by
  simp only [Mode.step] at step
  split at step
  · rename_i zero
    obtain rfl : b = 0x30 := by simpa using zero
    obtain ⟨rfl, rfl⟩ := Verdict.advance.inj step
    obtain ⟨tail, more, rfl, rest, closes⟩ := later
    cases rest with
    | zero hasFraction hasExponent =>
      exact ⟨_, more, rfl, .sign .zero hasFraction hasExponent, closes⟩
  · rename_i nonzero
    split at step
    · rename_i digit
      obtain ⟨rfl, rfl⟩ := Verdict.advance.inj step
      obtain ⟨tail, more, rfl, rest, closes⟩ := later
      cases rest with
      | whole each hasFraction hasExponent =>
        have hasWhole := Whole.digits digit (by simpa using nonzero) each
        exact ⟨_, more, rfl, .sign hasWhole hasFraction hasExponent, closes⟩
    · exact absurd step (by simp)

theorem fraction_of_point {tail : List UInt8} (rest : NumberRest .point tail) :
    ∃ fraction exponent, 0x2E :: tail = fraction ++ exponent ∧ Fraction fraction ∧
      Exponent exponent := by
  cases rest with
  | point hasDigits hasExponent => exact ⟨_, _, rfl, .digits hasDigits, hasExponent⟩

theorem exponent_of_letter {tail : List UInt8} (letter : isExponent b = true)
    (rest : NumberRest .exponent tail) : Exponent (b :: tail) := by
  cases rest with
  | exponent signs hasDigits => exact .digits letter signs hasDigits

theorem step_zero (step : Mode.zero.step b frames = .advance mode' frames')
    (later : Completes mode' frames' bytes) : Completes .zero frames (b :: bytes) := by
  simp only [Mode.step] at step
  split at step
  · exact absurd step (by simp)
  split at step
  case isTrue point =>
    obtain rfl : b = 0x2E := by simpa using point
    obtain ⟨rfl, rfl⟩ := Verdict.advance.inj step
    obtain ⟨tail, more, rfl, rest, closes⟩ := later
    obtain ⟨fraction, exponent, same, hasFraction, hasExponent⟩ := fraction_of_point rest
    exact ⟨_, more, congrArg (· ++ more) same, .zero hasFraction hasExponent, closes⟩
  split at step
  case isTrue letter =>
    obtain ⟨rfl, rfl⟩ := Verdict.advance.inj step
    obtain ⟨tail, more, rfl, rest, closes⟩ := later
    exact ⟨_, more, rfl, .zero .none (exponent_of_letter letter rest), closes⟩
  exact ⟨[], _, rfl, .nil _ (by simp), ofDone_completes step later⟩

theorem step_whole (step : Mode.whole.step b frames = .advance mode' frames')
    (later : Completes mode' frames' bytes) : Completes .whole frames (b :: bytes) := by
  have none : ∀ d ∈ ([] : List UInt8), isDigit d = true := by simp
  simp only [Mode.step] at step
  split at step
  case isTrue digit =>
    obtain ⟨rfl, rfl⟩ := Verdict.advance.inj step
    obtain ⟨tail, more, rfl, rest, closes⟩ := later
    cases rest with
    | whole each hasFraction hasExponent =>
      exact ⟨_, more, rfl, .whole (digits_cons digit each) hasFraction hasExponent, closes⟩
  split at step
  case isTrue point =>
    obtain rfl : b = 0x2E := by simpa using point
    obtain ⟨rfl, rfl⟩ := Verdict.advance.inj step
    obtain ⟨tail, more, rfl, rest, closes⟩ := later
    obtain ⟨fraction, exponent, same, hasFraction, hasExponent⟩ := fraction_of_point rest
    exact ⟨_, more, congrArg (· ++ more) same, .whole none hasFraction hasExponent, closes⟩
  split at step
  case isTrue letter =>
    obtain ⟨rfl, rfl⟩ := Verdict.advance.inj step
    obtain ⟨tail, more, rfl, rest, closes⟩ := later
    exact ⟨_, more, rfl, .whole none .none (exponent_of_letter letter rest), closes⟩
  exact ⟨[], _, rfl, .nil _ (by simp), ofDone_completes step later⟩

theorem step_fraction (step : Mode.fraction.step b frames = .advance mode' frames')
    (later : Completes mode' frames' bytes) : Completes .fraction frames (b :: bytes) := by
  have none : ∀ d ∈ ([] : List UInt8), isDigit d = true := by simp
  simp only [Mode.step] at step
  split at step
  case isTrue digit =>
    obtain ⟨rfl, rfl⟩ := Verdict.advance.inj step
    obtain ⟨tail, more, rfl, rest, closes⟩ := later
    cases rest with
    | fraction each hasExponent =>
      exact ⟨_, more, rfl, .fraction (digits_cons digit each) hasExponent, closes⟩
  split at step
  case isTrue letter =>
    obtain ⟨rfl, rfl⟩ := Verdict.advance.inj step
    obtain ⟨tail, more, rfl, rest, closes⟩ := later
    exact ⟨_, more, rfl, .fraction none (exponent_of_letter letter rest), closes⟩
  exact ⟨[], _, rfl, .nil _ (by simp), ofDone_completes step later⟩

end Numbers

theorem step_text {isKey : Bool} (step : (Mode.text isKey).step b frames = .advance mode' frames')
    (later : Completes mode' frames' bytes) : Completes (.text isKey) frames (b :: bytes) := by
  simp only [Mode.step] at step
  split at step
  · rename_i quote
    obtain rfl : b = 0x22 := by simpa using quote
    obtain ⟨rfl, rfl⟩ := Verdict.advance.inj step
    refine ⟨[], bytes, rfl, .nil, ?_⟩
    cases isKey <;> exact later
  · rename_i quote
    split at step
    · rename_i backslash
      obtain rfl : b = 0x5C := by simpa using backslash
      obtain ⟨rfl, rfl⟩ := Verdict.advance.inj step
      obtain ⟨letter, _, rfl, ⟨short, inside, more, rfl, text, closes⟩ |
        ⟨rfl, digits, _, rfl, four, each, inside, more, rfl, text, closes⟩⟩ := later
      · exact ⟨0x5C :: letter :: inside, more, rfl, .short short text, closes⟩
      · obtain ⟨w, x, y, z, rfl⟩ := List.length_eq_four.mp four
        exact ⟨0x5C :: 0x75 :: w :: x :: y :: z :: inside, more, rfl, .number each text, closes⟩
    · rename_i backslash
      split at step
      · exact absurd step (by simp)
      · rename_i large
        obtain ⟨rfl, rfl⟩ := Verdict.advance.inj step
        obtain ⟨inside, more, rfl, text, closes⟩ := later
        exact ⟨b :: inside, more, rfl,
          .plain (by simpa using quote) (by simpa using backslash) large text, closes⟩

theorem step_completes (step : mode.step b frames = .advance mode' frames')
    (later : Completes mode' frames' bytes) : Completes mode frames (b :: bytes) := by
  cases mode with
  | item => exact ofItem_completes step later
  | opened frame =>
    cases frame with
    | list =>
      simp only [Mode.step] at step
      split at step
      · rename_i space
        obtain ⟨rfl, rfl⟩ := Verdict.advance.inj step
        rcases later with ⟨gap, more, rfl, closes⟩ | item
        · exact .inl ⟨gap.cons b space, more, rfl, closes⟩
        · exact .inr (atItem_space space item)
      · split at step
        · rename_i bracket
          obtain rfl : b = 0x5D := by simpa using bracket
          obtain ⟨rfl, rfl⟩ := Verdict.advance.inj step
          exact .inl ⟨.none, bytes, rfl, later⟩
        · exact .inr (ofItem_completes step later)
    | object =>
      simp only [Mode.step] at step
      split at step
      · rename_i space
        obtain ⟨rfl, rfl⟩ := Verdict.advance.inj step
        rcases later with ⟨gap, more, rfl, closes⟩ | key
        · exact .inl ⟨gap.cons b space, more, rfl, closes⟩
        · exact .inr (atKey_space space key)
      · split at step
        · rename_i brace
          obtain rfl : b = 0x7D := by simpa using brace
          obtain ⟨rfl, rfl⟩ := Verdict.advance.inj step
          exact .inl ⟨.none, bytes, rfl, later⟩
        · exact .inr (ofKey_completes step later)
  | key => exact ofKey_completes step later
  | colon =>
    simp only [Mode.step] at step
    split at step
    · rename_i space
      obtain ⟨rfl, rfl⟩ := Verdict.advance.inj step
      obtain ⟨gap, more, rfl, item⟩ := later
      exact ⟨gap.cons b space, more, rfl, item⟩
    · split at step
      · rename_i colon
        obtain rfl : b = 0x3A := by simpa using colon
        obtain ⟨rfl, rfl⟩ := Verdict.advance.inj step
        exact ⟨.none, bytes, rfl, later⟩
      · exact absurd step (by simp)
  | text isKey => exact step_text step later
  | escape isKey =>
    simp only [Mode.step] at step
    split at step
    · rename_i letter
      obtain rfl : b = 0x75 := by simpa using letter
      obtain ⟨rfl, rfl⟩ := Verdict.advance.inj step
      exact ⟨0x75, bytes, rfl, .inr ⟨rfl, later.2⟩⟩
    · split at step
      · rename_i short
        obtain ⟨rfl, rfl⟩ := Verdict.advance.inj step
        exact ⟨b, bytes, rfl, .inl ⟨short, later⟩⟩
      · exact absurd step (by simp)
  | hex isKey valid left =>
    cases left with
    | zero =>
      simp only [Mode.step] at step
      split at step
      · rename_i digit
        rw [Bool.and_eq_true] at digit
        obtain ⟨rfl, rfl⟩ := Verdict.advance.inj step
        exact ⟨digit.1, [b], bytes, rfl, rfl, by simpa using digit.2, later⟩
      · exact absurd step (by simp)
    | succ left =>
      simp only [Mode.step] at step
      obtain ⟨rfl, rfl⟩ := Verdict.advance.inj step
      obtain ⟨valid, digits, more, rfl, length, each, text⟩ := later
      rw [Bool.and_eq_true] at valid
      exact ⟨valid.1, b :: digits, more, rfl, by simp [length],
        List.forall_mem_cons.mpr ⟨valid.2, each⟩, text⟩
  | literal first rest =>
    simp only [Mode.step] at step
    split at step
    · rename_i letter
      obtain rfl : b = first := by simpa using letter
      split at step
      · obtain ⟨rfl, rfl⟩ := Verdict.advance.inj step
        exact ⟨bytes, rfl, later⟩
      · obtain ⟨rfl, rfl⟩ := Verdict.advance.inj step
        obtain ⟨behind, rfl, closes⟩ := later
        exact ⟨behind, rfl, closes⟩
    · exact absurd step (by simp)
  | sign => exact step_sign step later
  | zero => exact step_zero step later
  | whole => exact step_whole step later
  | point =>
    simp only [Mode.step] at step
    split at step
    · rename_i digit
      obtain ⟨rfl, rfl⟩ := Verdict.advance.inj step
      obtain ⟨tail, more, rfl, rest, closes⟩ := later
      cases rest with
      | fraction each hasExponent =>
        exact ⟨_, more, rfl, .point (.cons digit each) hasExponent, closes⟩
    · exact absurd step (by simp)
  | fraction => exact step_fraction step later
  | exponent =>
    simp only [Mode.step] at step
    split at step
    · rename_i sign
      obtain ⟨rfl, rfl⟩ := Verdict.advance.inj step
      obtain ⟨tail, more, rfl, rest, closes⟩ := later
      cases rest with
      | exponentSign hasDigits =>
        refine ⟨_, more, rfl, @NumberRest.exponent [b] _ ?_ hasDigits, closes⟩
        simpa using sign
    · split at step
      · rename_i digit
        obtain ⟨rfl, rfl⟩ := Verdict.advance.inj step
        obtain ⟨tail, more, rfl, rest, closes⟩ := later
        cases rest with
        | exponentDigits each =>
          exact ⟨_, more, rfl, .exponent (.inl rfl) (.cons digit each), closes⟩
      · exact absurd step (by simp)
  | exponentSign =>
    simp only [Mode.step] at step
    split at step
    · rename_i digit
      obtain ⟨rfl, rfl⟩ := Verdict.advance.inj step
      obtain ⟨tail, more, rfl, rest, closes⟩ := later
      cases rest with
      | exponentDigits each => exact ⟨_, more, rfl, .exponentSign (.cons digit each), closes⟩
    · exact absurd step (by simp)
  | exponentDigits =>
    simp only [Mode.step] at step
    split at step
    · rename_i digit
      obtain ⟨rfl, rfl⟩ := Verdict.advance.inj step
      obtain ⟨tail, more, rfl, rest, closes⟩ := later
      cases rest with
      | exponentDigits each =>
        exact ⟨_, more, rfl, .exponentDigits (digits_cons digit each), closes⟩
    · exact ⟨[], _, rfl, .nil _ (by simp), ofDone_completes step later⟩
  | done => exact ofDone_completes step later

end Steps

section Runs

variable {ended : Prop} {rest : List UInt8} {place place' : Place}

/-- The machine stops only where the text may end, and never blames the shape of a value. -/
def Verdict.Sound (ended : Prop) : Verdict → Prop
  | .advance _ _ => True
  | .stop => ended
  | .refuse cause => cause.kind ≠ .misfit

@[simp] theorem sound_advance (mode : Mode) (frames : List Frame) :
    (Verdict.advance mode frames).Sound ended := trivial

@[simp] theorem sound_refuse (cause : Cause) :
    (Verdict.refuse cause).Sound ended ↔ cause.kind ≠ .misfit := Iff.rfl

@[simp] theorem sound_ite {p : Prop} [Decidable p] (v w : Verdict) :
    (if p then v else w).Sound ended ↔ (p → v.Sound ended) ∧ (¬ p → w.Sound ended) := by
  split
  · rename_i holds
    simp [holds]
  · rename_i fails
    simp [fails]

@[simp] theorem sound_ofItem (b : UInt8) (frames : List Frame) :
    (Verdict.ofItem b frames).Sound ended := by
  simp [Verdict.ofItem, Cause.kind]

@[simp] theorem sound_ofKey (b : UInt8) (frames : List Frame) :
    (Verdict.ofKey b frames).Sound ended := by
  simp [Verdict.ofKey, Cause.kind]

theorem sound_ofDone (mode : Mode) (final : mode.atEnd [] = none) (b : UInt8)
    (frames : List Frame) : (Verdict.ofDone b frames).Sound (mode.atEnd frames = none) := by
  cases frames with
  | nil => exact final
  | cons frame frames => cases frame <;> simp [Verdict.ofDone, Cause.kind]

theorem step_sound (mode : Mode) (b : UInt8) (frames : List Frame) :
    (mode.step b frames).Sound (mode.atEnd frames = none) := by
  cases mode with
  | opened frame => cases frame <;> simp [Mode.step]
  | literal first more => cases more <;> simp [Mode.step, Cause.kind]
  | hex isKey valid left => cases left <;> simp [Mode.step, Cause.kind]
  | zero => simp [Mode.step, Cause.kind, sound_ofDone .zero rfl]
  | whole => simp [Mode.step, sound_ofDone .whole rfl]
  | fraction => simp [Mode.step, sound_ofDone .fraction rfl]
  | exponentDigits => simp [Mode.step, sound_ofDone .exponentDigits rfl]
  | done => simp [Mode.step, sound_ofDone .done rfl]
  | _ => simp [Mode.step, Cause.kind]

theorem atEnd_kind {cause : Cause} (ended : mode.atEnd frames = some cause) :
    cause.kind ≠ .misfit := by
  unfold Mode.atEnd at ended
  split at ended
  all_goals first | (obtain rfl := Option.some.inj ended; decide) | exact absurd ended (by simp)

theorem ended_completes (ended : mode.atEnd frames = none) : Completes mode frames [] := by
  cases frames with
  | cons frame frames =>
    cases frame <;> exact absurd ended (by unfold Mode.atEnd; split <;> simp_all)
  | nil =>
    cases mode with
    | zero => exact ⟨[], [], rfl, .nil _ (by simp), rfl⟩
    | whole => exact ⟨[], [], rfl, .nil _ (by simp), rfl⟩
    | fraction => exact ⟨[], [], rfl, .nil _ (by simp), rfl⟩
    | exponentDigits => exact ⟨[], [], rfl, .nil _ (by simp), rfl⟩
    | done => rfl
    | opened frame => cases frame <;> exact absurd ended (by simp [Mode.atEnd])
    | _ => exact absurd ended (by simp [Mode.atEnd])

theorem skipFrom_completes (result : skipFrom mode frames place bytes = .ok ⟨rest, place'⟩) :
    ∃ taken, bytes = taken ++ rest ∧ Completes mode frames taken := by
  induction bytes generalizing mode frames place with
  | nil =>
    simp only [skipFrom] at result
    split at result
    · exact absurd result (by simp)
    · rename_i ended
      obtain ⟨rfl, _⟩ := Cursor.mk.inj (Except.ok.inj result)
      exact ⟨[], rfl, ended_completes ended⟩
  | cons b bytes ih =>
    have sound := step_sound mode b frames
    simp only [skipFrom] at result
    split at result
    · rename_i step
      obtain ⟨taken, rfl, completes⟩ := ih result
      exact ⟨b :: taken, rfl, step_completes step completes⟩
    · rename_i stop
      rw [stop] at sound
      obtain ⟨rfl, _⟩ := Cursor.mk.inj (Except.ok.inj result)
      exact ⟨[], rfl, ended_completes sound⟩
    · exact absurd result (by simp)

theorem skipFrom_kind {fault : Fault} (result : skipFrom mode frames place bytes = .error fault) :
    fault.cause.kind ≠ .misfit := by
  induction bytes generalizing mode frames place with
  | nil =>
    simp only [skipFrom] at result
    split at result
    · rename_i ended
      obtain rfl := Except.error.inj result
      exact atEnd_kind ended
    · exact absurd result (by simp)
  | cons b bytes ih =>
    have sound := step_sound mode b frames
    simp only [skipFrom] at result
    split at result
    · exact ih result
    · exact absurd result (by simp)
    · rename_i refused
      rw [refused] at sound
      obtain rfl := Except.error.inj result
      exact sound

theorem skipValue_ok {c : Cursor} (result : skipValue c = .ok ⟨rest, place'⟩) :
    ∃ (gap : Gap) (value : List UInt8), c.rest = gap.bytes ++ (value ++ rest) ∧ Loose value := by
  obtain ⟨_, bytes, gap, value, _, rfl, loose, rfl⟩ := skipFrom_completes result
  exact ⟨gap, value, by simpa using bytes, loose⟩

end Runs

end TenantGate.Json
