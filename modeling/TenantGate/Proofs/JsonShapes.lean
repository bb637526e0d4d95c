import TenantGate.Proofs.JsonFaults
import TenantGate.Proofs.JsonMarks

/-!
What a value is, as far as its front tells. A value where another one belongs is a fault of the
shape exactly when its front makes its own shape certain: a list and an object by their first byte,
words, numbers and strings only as a whole. A reader of strings takes the strings that mean
something, and a value that shows another shape is a misfit to it.
-/
namespace TenantGate.Json

variable {α : Type}

inductive ValueShape where
  | null
  | boolean
  | number
  | text
  | list
  | object
deriving Repr, DecidableEq

/-- The bytes start with a value of the shape, or with enough of one to be certain of it. -/
inductive Shows : ValueShape → List UInt8 → Prop where
  | null (rest : List UInt8) : Shows .null (nullBytes ++ rest)
  | boolean (b : Bool) (rest : List UInt8) : Shows .boolean (booleanBytes b ++ rest)
  | number {numeral rest : List UInt8} (cut : CutNumeral numeral rest)
      (inRange : InRange numeral) : Shows .number (numeral ++ rest)
  | text {tokens : List Token} {s : String} (means : textOf tokens = some s)
      (rest : List UInt8) : Shows .text (quoted tokens ++ rest)
  | list (rest : List UInt8) : Shows .list (0x5B :: rest)
  | object (rest : List UInt8) : Shows .object (0x7B :: rest)

section Fronts

theorem CutNumeral.numeral {numeral rest : List UInt8} (cut : CutNumeral numeral rest) :
    Numeral numeral := by
  cases cut with
  | parts signs hasWhole hasFraction hasExponent _ =>
    exact .parts signs hasWhole hasFraction hasExponent

def shapeOf? (b : UInt8) : Option ValueShape :=
  if b == 0x6E then some .null
  else if b == 0x74 || b == 0x66 then some .boolean
  else if startsNumber b then some .number
  else if b == 0x22 then some .text
  else if b == 0x5B then some .list
  else if b == 0x7B then some .object
  else none

theorem shapeOf?_number {b : UInt8} (starts : startsNumber b = true) :
    shapeOf? b = some .number :=
  Text.forall_byte_below (fun b => startsNumber b = true → shapeOf? b = some .number)
    256 (by decide +kernel) b b.toNat_lt starts

theorem shapeOf?_solid {b : UInt8} {shape : ValueShape} (own : shapeOf? b = some shape) :
    isSpace b = false :=
  Text.forall_byte_below (fun b => (shapeOf? b).isSome = true → isSpace b = false)
    256 (by decide +kernel) b b.toNat_lt (Option.isSome_of_eq_some own)

theorem Shows.front {shape : ValueShape} {bytes : List UInt8} (shown : Shows shape bytes) :
    ∃ b more, bytes = b :: more ∧ shapeOf? b = some shape := by
  cases shown with
  | null rest => exact ⟨_, _, rfl, rfl⟩
  | boolean b rest => cases b <;> exact ⟨_, _, rfl, rfl⟩
  | number cut _ =>
    obtain ⟨b, more, rfl, starts⟩ := cut.numeral.front
    exact ⟨b, _, rfl, shapeOf?_number starts⟩
  | text _ rest => exact ⟨_, _, rfl, rfl⟩
  | list rest => exact ⟨_, _, rfl, rfl⟩
  | object rest => exact ⟨_, _, rfl, rfl⟩

theorem Shows.quote {bytes : List UInt8} (shown : Shows .text bytes) :
    ∃ more, bytes = 0x22 :: more := by
  cases shown with
  | text _ rest => exact ⟨_, rfl⟩

end Fronts

section Refusals

theorem expectBytes_taken {place : Place} {expected bytes : List UInt8} {c : Cursor}
    (found : expectBytes place expected bytes = .ok c) : bytes = expected ++ c.rest := by
  induction expected generalizing place bytes with
  | nil =>
    obtain rfl := Except.ok.inj found
    rfl
  | cons e expected ih =>
    cases bytes with
    | nil => exact absurd found (by simp [expectBytes])
    | cons b bytes =>
      rw [expectBytes] at found
      split at found
      · rename_i same
        obtain rfl : b = e := by simpa using same
        rw [ih found]
        rfl
      · exact absurd found (by simp)

theorem shows_of_word {place : Place} {letters rest : List UInt8} {cause : Cause}
    (misfit : Misfit
      (expectBytes place letters rest >>= fun c => (c.fail cause : Except Fault α))) :
    ∃ more, rest = letters ++ more := by
  rcases (misfit_bind_iff _ _).mp misfit with unread | ⟨c, found, _⟩
  · exact absurd unread (expectBytes_sound _ _ _)
  · exact ⟨c.rest, expectBytes_taken found⟩

theorem refuseKind_shown (expected : String) {shape : ValueShape} {bytes : List UInt8}
    (shown : Shows shape bytes) (place : Place) :
    Misfit (refuseKind expected ⟨bytes, place⟩ : Except Fault α) := by
  cases shown with
  | null rest => exact ⟨_, rfl, rfl⟩
  | boolean b rest => cases b <;> exact ⟨_, rfl, rfl⟩
  | @number numeral rest cut inRange =>
    obtain ⟨n, place', read⟩ :=
      (readNumber_iff (numeral ++ rest) place rest).mpr ⟨numeral, rfl, cut, inRange⟩
    obtain ⟨b, more, rfl, starts⟩ := cut.numeral.front
    have other := (number_solid starts).2.2
    simp only [List.mem_cons, List.not_mem_nil, or_false, not_or] at other
    obtain ⟨quote, bracket, false', null, true', brace⟩ := other
    rw [startsNumber] at starts
    rw [List.cons_append] at read ⊢
    simp only [refuseKind, beq_eq_false_iff_ne.mpr null, beq_eq_false_iff_ne.mpr true',
      beq_eq_false_iff_ne.mpr false', starts, read, Bool.false_eq_true, ↓reduceIte]
    exact ⟨_, rfl, rfl⟩
  | @text tokens s means rest =>
    have read := readText_spelled tokens (place.after 0x22) rest
    rw [means] at read
    obtain ⟨place', read⟩ := read
    rw [quoted, List.cons_append, List.cons_append, List.append_assoc, List.singleton_append]
    refine (misfit_bind_iff _ _).mpr (.inr ⟨_, read, ?_⟩)
    exact ⟨_, rfl, rfl⟩
  | list rest => exact ⟨_, rfl, rfl⟩
  | object rest => exact ⟨_, rfl, rfl⟩

theorem refuseKind_misfit_iff (expected : String) (bytes : List UInt8) (place : Place) :
    Misfit (refuseKind expected ⟨bytes, place⟩ : Except Fault α) ↔
      ∃ shape, Shows shape bytes := by
  refine ⟨fun misfit => ?_, fun ⟨_, shown⟩ => refuseKind_shown expected shown place⟩
  unfold refuseKind at misfit
  split at misfit
  · exact absurd misfit (by simp [Cause.kind])
  rename_i b rest front
  obtain rfl : bytes = b :: rest := front
  split at misfit
  case isTrue letter =>
    obtain rfl : b = 0x6E := by simpa using letter
    obtain ⟨more, rfl⟩ := shows_of_word misfit
    exact ⟨_, .null more⟩
  split at misfit
  case isTrue letter =>
    obtain rfl : b = 0x74 := by simpa using letter
    obtain ⟨more, rfl⟩ := shows_of_word misfit
    exact ⟨_, .boolean true more⟩
  split at misfit
  case isTrue letter =>
    obtain rfl : b = 0x66 := by simpa using letter
    obtain ⟨more, rfl⟩ := shows_of_word misfit
    exact ⟨_, .boolean false more⟩
  split at misfit
  case isTrue =>
    rcases (misfit_bind_iff _ _).mp misfit with unread | ⟨⟨n, c⟩, read, _⟩
    · exact absurd unread (readNumber_sound _)
    · obtain ⟨numeral, same, cut, inRange⟩ :=
        (readNumber_iff (b :: rest) place c.rest).mp ⟨n, c.place, read⟩
      rw [same]
      exact ⟨_, .number cut inRange⟩
  split at misfit
  case isTrue quote =>
    obtain rfl : b = 0x22 := by simpa using quote
    rcases (misfit_bind_iff _ _).mp misfit with unread | ⟨⟨s, c⟩, read, _⟩
    · exact absurd unread (readText_sound _ _ _)
    · obtain ⟨tokens, rfl, means⟩ := (readText_iff _ rest s c.rest).mp ⟨c.place, read⟩
      have whole := Shows.text means c.rest
      exact ⟨_, by simpa [quoted] using whole⟩
  split at misfit
  case isTrue bracket =>
    obtain rfl : b = 0x5B := by simpa using bracket
    exact ⟨_, .list rest⟩
  split at misfit
  case isTrue brace =>
    obtain rfl : b = 0x7B := by simpa using brace
    exact ⟨_, .object rest⟩
  exact absurd misfit (by simp [Cause.kind])

end Refusals

section Strings

variable (expected : String) (bytes : List UInt8) (place : Place)

theorem readString_iff (s : String) (rest : List UInt8) :
    Leads (readString expected ⟨bytes, place⟩) rest (some s) ↔
      ∃ (gap : Gap) (tokens : List Token), bytes = gap.bytes ++ (quoted tokens ++ rest) ∧
        textOf tokens = some s := by
  constructor
  · rintro ⟨place', read⟩
    obtain ⟨gap, taken⟩ := trim_taken ⟨bytes, place⟩
    simp only [readString] at read
    split at read
    · rename_i inside front
      obtain ⟨tokens, rfl, means⟩ := (readText_iff _ inside s rest).mp ⟨place', read⟩
      refine ⟨gap, tokens, taken.trans ?_, means⟩
      rw [front, quoted, List.cons_append, List.cons_append, List.append_assoc,
        List.singleton_append]
    · obtain ⟨fault, failed⟩ := refuseKind_fails (α := String × Cursor) expected
        (Cursor.trim ⟨bytes, place⟩)
      exact absurd (read.symm.trans failed) (by simp)
  · rintro ⟨gap, tokens, rfl, means⟩
    obtain ⟨place', same⟩ := trims_gap (trims_readString expected) gap (quoted tokens ++ rest) place
    rw [same, ← means]
    exact readString_quoted expected tokens rest place'

theorem readString_misfit_iff :
    Misfit (readString expected ⟨bytes, place⟩) ↔
      ∃ (gap : Gap) (value : List UInt8) (shape : ValueShape), bytes = gap.bytes ++ value ∧
        Shows shape value ∧ shape ≠ .text := by
  constructor
  · intro misfit
    obtain ⟨gap, taken⟩ := trim_taken ⟨bytes, place⟩
    simp only [readString] at misfit
    split at misfit
    · exact absurd misfit (readText_sound _ _ _)
    · rename_i other
      obtain ⟨shape, shown⟩ := (refuseKind_misfit_iff expected _ _).mp misfit
      refine ⟨gap, _, shape, taken, shown, ?_⟩
      rintro rfl
      obtain ⟨rest, front⟩ := shown.quote
      exact other rest front
  · rintro ⟨gap, value, shape, rfl, shown, other⟩
    obtain ⟨place', same⟩ := trims_gap (trims_readString expected) gap value place
    obtain ⟨b, more, rfl, own⟩ := shown.front
    rw [same]
    simp only [readString, trim_cons (shapeOf?_solid own)]
    split
    · rename_i front
      rw [(List.cons.inj front).1] at own
      exact absurd (Option.some.inj own).symm other
    · exact (refuseKind_misfit_iff expected _ _).mpr ⟨shape, shown⟩

end Strings

end TenantGate.Json
