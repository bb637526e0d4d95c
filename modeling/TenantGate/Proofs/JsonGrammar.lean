import TenantGate.Proofs.JsonSpelling

/-!
JSON values as they may be written: with any white space between their parts, strings in any
spelling, numbers of any form and values in one another to any depth. Values that nobody reads may
be written more loosely: their strings need not mean anything.
-/
namespace TenantGate.Json

open Utf8

structure Gap where
  bytes : List UInt8
  blank : ∀ b ∈ bytes, isSpace b = true

structure Padded where
  before : Gap
  value : List UInt8
  after : Gap

structure Entry where
  lead : Gap
  key : List Token
  gap : Gap
  value : Padded

def Gap.none : Gap := ⟨[], fun _ among => absurd among List.not_mem_nil⟩

def Gap.cons (b : UInt8) (space : isSpace b = true) (gap : Gap) : Gap :=
  ⟨b :: gap.bytes, List.forall_mem_cons.mpr ⟨space, gap.blank⟩⟩

def Gap.append (gap more : Gap) : Gap :=
  ⟨gap.bytes ++ more.bytes, List.forall_mem_append.mpr ⟨gap.blank, more.blank⟩⟩

def Padded.bytes (p : Padded) : List UInt8 := p.before.bytes ++ (p.value ++ p.after.bytes)

def Entry.bytes (e : Entry) : List UInt8 :=
  e.lead.bytes ++ (quoted e.key ++ (e.gap.bytes ++ 0x3A :: e.value.bytes))

def listBytes (gap : Gap) (items : List Padded) : List UInt8 :=
  0x5B :: (gap.bytes ++ joined true (items.map Padded.bytes)) ++ [0x5D]

def objectBytes (gap : Gap) (entries : List Entry) : List UInt8 :=
  0x7B :: (gap.bytes ++ joined true (entries.map Entry.bytes)) ++ [0x7D]

def nullBytes : List UInt8 := [0x6E, 0x75, 0x6C, 0x6C]

def booleanBytes : Bool → List UInt8
  | true => [0x74, 0x72, 0x75, 0x65]
  | false => [0x66, 0x61, 0x6C, 0x73, 0x65]

def Digits (bytes : List UInt8) : Prop := bytes ≠ [] ∧ ∀ b ∈ bytes, isDigit b = true

inductive Whole : List UInt8 → Prop where
  | zero : Whole [0x30]
  | digits {b : UInt8} {more : List UInt8} (first : isDigit b = true) (nonzero : b ≠ 0x30)
      (rest : ∀ d ∈ more, isDigit d = true) : Whole (b :: more)

inductive Fraction : List UInt8 → Prop where
  | none : Fraction []
  | digits {more : List UInt8} (digits : Digits more) : Fraction (0x2E :: more)

inductive Exponent : List UInt8 → Prop where
  | none : Exponent []
  | digits {letter : UInt8} {sign more : List UInt8} (letters : isExponent letter = true)
      (signs : sign = [] ∨ sign = [0x2B] ∨ sign = [0x2D]) (digits : Digits more) :
      Exponent (letter :: (sign ++ more))

inductive Numeral : List UInt8 → Prop where
  | parts {sign whole fraction exponent : List UInt8} (signs : sign = [] ∨ sign = [0x2D])
      (hasWhole : Whole whole) (hasFraction : Fraction fraction) (hasExponent : Exponent exponent) :
      Numeral (sign ++ (whole ++ (fraction ++ exponent)))

inductive WellFormed : List UInt8 → Prop where
  | null : WellFormed nullBytes
  | boolean (b : Bool) : WellFormed (booleanBytes b)
  | number {bytes : List UInt8} (numeral : Numeral bytes) : WellFormed bytes
  | text (tokens : List Token) : WellFormed (quoted tokens)
  | list (gap : Gap) {items : List Padded} (each : ∀ i ∈ items, WellFormed i.value) :
      WellFormed (listBytes gap items)
  | object (gap : Gap) {entries : List Entry} (each : ∀ e ∈ entries, WellFormed e.value.value) :
      WellFormed (objectBytes gap entries)

section Fronts

theorem digit_beq {b k : UInt8} (digit : isDigit b = true) (other : isDigit k = false) :
    (b == k) = false := by
  rw [beq_eq_false_iff_ne]
  rintro rfl
  exact absurd (digit.symm.trans other) (by decide)

theorem digit_solid {b : UInt8} (digit : isDigit b = true) :
    isSpace b = false ∧ endsValue b = false ∧ isExponent b = false :=
  Text.forall_byte_below
    (fun b => isDigit b = true → isSpace b = false ∧ endsValue b = false ∧ isExponent b = false)
    256 (by decide +kernel) b b.toNat_lt digit

theorem Whole.front {bytes : List UInt8} (whole : Whole bytes) :
    ∃ b more, bytes = b :: more ∧ isDigit b = true := by
  cases whole with
  | zero => exact ⟨_, _, rfl, rfl⟩
  | digits first _ _ => exact ⟨_, _, rfl, first⟩

def startsNumber (b : UInt8) : Bool := b == 0x2D || isDigit b

theorem Numeral.front {bytes : List UInt8} (numeral : Numeral bytes) :
    ∃ b more, bytes = b :: more ∧ startsNumber b = true := by
  cases numeral with
  | @parts sign whole fraction exponent signs hasWhole _ _ =>
    obtain ⟨b, more, rfl, digit⟩ := hasWhole.front
    rcases signs with rfl | rfl
    · refine ⟨b, more ++ (fraction ++ exponent), rfl, ?_⟩
      rw [startsNumber, digit, Bool.or_true]
    · exact ⟨0x2D, _, rfl, rfl⟩

theorem number_solid {b : UInt8} (number : startsNumber b = true) :
    isSpace b = false ∧ endsValue b = false ∧ b ∉ [0x22, 0x5B, 0x66, 0x6E, 0x74, 0x7B] :=
  Text.forall_byte_below
    (fun b => startsNumber b = true → isSpace b = false ∧ endsValue b = false ∧
      b ∉ [0x22, 0x5B, 0x66, 0x6E, 0x74, 0x7B])
    256 (by decide +kernel) b b.toNat_lt number

theorem closed_gap (gap : Gap) {rest : List UInt8} (closed : Closed rest) :
    Closed (gap.bytes ++ rest) := by
  intro b front
  cases bytes : gap.bytes with
  | nil =>
    rw [bytes] at front
    exact closed b front
  | cons d more =>
    rw [bytes] at front
    obtain rfl : d = b := by simpa using front
    rw [endsValue, gap.blank d (bytes ▸ List.mem_cons_self)]
    rfl

end Fronts

section Loose

/-- The inside of a string that nobody reads: no control characters, and escapes that have the form
of one. -/
inductive LooseText : List UInt8 → Prop where
  | nil : LooseText []
  | plain {b : UInt8} {more : List UInt8} (quote : b ≠ 0x22) (backslash : b ≠ 0x5C)
      (large : ¬ b < 0x20) (rest : LooseText more) : LooseText (b :: more)
  | short {b : UInt8} {more : List UInt8} (letter : isShortEscape b = true)
      (rest : LooseText more) : LooseText (0x5C :: b :: more)
  | number {w x y z : UInt8} {more : List UInt8} (digits : ∀ b ∈ [w, x, y, z], isHexDigit b = true)
      (rest : LooseText more) : LooseText (0x5C :: 0x75 :: w :: x :: y :: z :: more)

def looseQuoted (inside : List UInt8) : List UInt8 := 0x22 :: inside ++ [0x22]

structure LooseEntry where
  lead : Gap
  key : List UInt8
  gap : Gap
  value : Padded

def LooseEntry.bytes (e : LooseEntry) : List UInt8 :=
  e.lead.bytes ++ (looseQuoted e.key ++ (e.gap.bytes ++ 0x3A :: e.value.bytes))

def looseObjectBytes (gap : Gap) (entries : List LooseEntry) : List UInt8 :=
  0x7B :: (gap.bytes ++ joined true (entries.map LooseEntry.bytes)) ++ [0x7D]

inductive Loose : List UInt8 → Prop where
  | null : Loose nullBytes
  | boolean (b : Bool) : Loose (booleanBytes b)
  | number {bytes : List UInt8} (numeral : Numeral bytes) : Loose bytes
  | text {inside : List UInt8} (loose : LooseText inside) : Loose (looseQuoted inside)
  | list (gap : Gap) {items : List Padded} (each : ∀ i ∈ items, Loose i.value) :
      Loose (listBytes gap items)
  | object (gap : Gap) {entries : List LooseEntry} (keys : ∀ e ∈ entries, LooseText e.key)
      (each : ∀ e ∈ entries, Loose e.value.value) : Loose (looseObjectBytes gap entries)

def Entry.loose (e : Entry) : LooseEntry := ⟨e.lead, spelled e.key, e.gap, e.value⟩

theorem isHexDigit_of_some {b : UInt8} {n : Nat} (digit : hexDigit? b = some n) :
    isHexDigit b = true := by
  have shown := Text.forall_byte_below
    (fun b => (hexDigit? b).isSome = true → isHexDigit b = true)
    256 (by decide +kernel) b b.toNat_lt
  exact shown (Option.isSome_of_eq_some digit)

theorem isHexDigit_of_hex4? {w x y z : UInt8} {n : Nat} (digits : hex4? w x y z = some n) :
    ∀ b ∈ [w, x, y, z], isHexDigit b = true := by
  obtain ⟨a, first, rest⟩ := Option.bind_eq_some_iff.mp digits
  obtain ⟨b, second, rest⟩ := Option.bind_eq_some_iff.mp rest
  obtain ⟨c, third, rest⟩ := Option.bind_eq_some_iff.mp rest
  obtain ⟨d, fourth, _⟩ := Option.bind_eq_some_iff.mp rest
  simp only [List.forall_mem_cons, isHexDigit_of_some first, isHexDigit_of_some second,
    isHexDigit_of_some third, isHexDigit_of_some fourth, List.not_mem_nil, false_implies,
    implies_true, and_self]

theorem LooseText.front {bytes more : List UInt8}
    (plain : ∀ b ∈ bytes, b ≠ 0x22 ∧ b ≠ 0x5C ∧ 0x20 ≤ b.toNat) (rest : LooseText more) :
    LooseText (bytes ++ more) := by
  induction bytes with
  | nil => exact rest
  | cons b bytes ih =>
    obtain ⟨quote, backslash, large⟩ := plain b List.mem_cons_self
    refine .plain quote backslash ?_ (ih fun d among => plain d (List.mem_cons_of_mem b among))
    rw [UInt8.lt_iff_toNat_lt]
    exact Nat.not_lt_of_le large

theorem looseText_spelled (tokens : List Token) : LooseText (spelled tokens) := by
  induction tokens with
  | nil => exact .nil
  | cons token tokens ih =>
    rw [spelled_cons]
    cases token with
    | plain c unescaped => exact ih.front fun b among => byte_of_unescaped unescaped among
    | short letter c listed =>
      obtain ⟨b, bytes, _, short⟩ := byte_of_letter listed
      rw [Token.bytes, bytes]
      exact .short short ih
    | number w x y z n digits => exact .number (isHexDigit_of_hex4? digits) ih

theorem WellFormed.loose {bytes : List UInt8} (wellFormed : WellFormed bytes) : Loose bytes := by
  induction wellFormed with
  | null => exact .null
  | boolean b => exact .boolean b
  | number numeral => exact .number numeral
  | text tokens => exact .text (looseText_spelled tokens)
  | list gap each loose => exact .list gap loose
  | @object gap entries each loose =>
    have same : objectBytes gap entries = looseObjectBytes gap (entries.map Entry.loose) := by
      rw [objectBytes, looseObjectBytes, List.map_map]
      rfl
    rw [same]
    refine .object gap ?_ ?_
    · intro e among
      obtain ⟨own, _, rfl⟩ := List.mem_map.mp among
      exact looseText_spelled own.key
    · intro e among
      obtain ⟨own, member, rfl⟩ := List.mem_map.mp among
      exact loose own member

theorem Loose.front {bytes : List UInt8} (loose : Loose bytes) :
    ∃ b more, bytes = b :: more ∧ isSpace b = false ∧ endsValue b = false := by
  cases loose with
  | null => exact ⟨_, _, rfl, rfl, rfl⟩
  | boolean b => cases b <;> exact ⟨_, _, rfl, rfl, rfl⟩
  | number numeral =>
    obtain ⟨b, more, rfl, number⟩ := numeral.front
    obtain ⟨space, ends, _⟩ := number_solid number
    exact ⟨b, more, rfl, space, ends⟩
  | text _ => exact ⟨_, _, rfl, rfl, rfl⟩
  | list _ _ => exact ⟨_, _, rfl, rfl, rfl⟩
  | object _ _ _ => exact ⟨_, _, rfl, rfl, rfl⟩

theorem WellFormed.front {bytes : List UInt8} (wellFormed : WellFormed bytes) :
    ∃ b more, bytes = b :: more ∧ isSpace b = false ∧ endsValue b = false :=
  wellFormed.loose.front

end Loose

end TenantGate.Json
