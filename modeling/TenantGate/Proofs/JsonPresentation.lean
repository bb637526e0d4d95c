import Mathlib.Data.List.Nodup
import TenantGate.Proofs.JsonRecords

/-!
The texts that present a document. A document is what a text says; the order of the members of an
object, white space, the spelling of strings and members under names that nobody knows are up to the
text. Beside them stand the texts that give a field of a record twice.
-/
namespace TenantGate.Json

open Utf8

inductive Document where
  | null
  | boolean (b : Bool)
  | number (n : Nat)
  | text (s : String)
  | list (items : List Document)
  | object (members : List (String × Document))

/-- What is expected of a text: a map may have a value under any name, a record has fields. -/
inductive Shape where
  | scalar
  | list (item : Shape)
  | map (value : Shape)
  | record (fields : List (String × Shape))

structure Member where
  name : String
  shape : Shape
  document : Document
  entry : Entry

def Member.said (m : Member) : String × Document := (m.name, m.document)

/-- The entry is a value under a name that is no field's. -/
def Unknown (fields : List (String × Shape)) (e : Entry) : Prop :=
  ∃ name, textOf e.key = some name ∧ name ∉ fields.map Prod.fst ∧ WellFormed e.value.value

inductive Presents : Shape → Document → List UInt8 → Prop where
  | null (shape : Shape) : Presents shape .null nullBytes
  | boolean (b : Bool) : Presents .scalar (.boolean b) (booleanBytes b)
  | number (n : Nat) : Presents .scalar (.number n) (digitBytes n)
  | text {tokens : List Token} {s : String} (spells : textOf tokens = some s) :
      Presents .scalar (.text s) (quoted tokens)
  | list {shape : Shape} (gap : Gap) {items : List (Document × Padded)}
      (each : ∀ i ∈ items, Presents shape i.1 i.2.value) :
      Presents (.list shape) (.list (items.map Prod.fst)) (listBytes gap (items.map Prod.snd))
  | map {shape : Shape} (gap : Gap) {members : List Member} {entries : List Entry}
      (order : entries.Perm (members.map Member.entry))
      (keyed : ∀ m ∈ members, textOf m.entry.key = some m.name ∧ m.shape = shape)
      (each : ∀ m ∈ members, Presents m.shape m.document m.entry.value.value) :
      Presents (.map shape) (.object (members.map Member.said)) (objectBytes gap entries)
  | record {fields : List (String × Shape)} (gap : Gap) {members : List Member}
      {others entries : List Entry} (order : entries.Perm (members.map Member.entry ++ others))
      (keyed : ∀ m ∈ members, textOf m.entry.key = some m.name ∧ (m.name, m.shape) ∈ fields)
      (each : ∀ m ∈ members, Presents m.shape m.document m.entry.value.value)
      (unknown : ∀ e ∈ others, Unknown fields e) :
      Presents (.record fields) (.object (members.map Member.said)) (objectBytes gap entries)

inductive Repeats : Shape → List UInt8 → Prop where
  | item {shape : Shape} (gap : Gap) {items : List Padded}
      (each : ∀ i ∈ items, WellFormed i.value) {i : Padded} (among : i ∈ items)
      (inside : Repeats shape i.value) : Repeats (.list shape) (listBytes gap items)
  | value {shape : Shape} (gap : Gap) {entries : List Entry}
      (each : ∀ e ∈ entries, WellFormed e.value.value) {e : Entry} (among : e ∈ entries)
      (inside : Repeats shape e.value.value) : Repeats (.map shape) (objectBytes gap entries)
  | twice {fields : List (String × Shape)} (gap : Gap) {entries : List Entry}
      (each : ∀ e ∈ entries, WellFormed e.value.value) {name : String}
      (known : name ∈ fields.map Prod.fst) (given : 2 ≤ timesGiven name entries) :
      Repeats (.record fields) (objectBytes gap entries)
  | member {fields : List (String × Shape)} (gap : Gap) {entries : List Entry}
      (each : ∀ e ∈ entries, WellFormed e.value.value) {e : Entry} (among : e ∈ entries)
      {name : String} {shape : Shape} (key : textOf e.key = some name)
      (known : (name, shape) ∈ fields) (inside : Repeats shape e.value.value) :
      Repeats (.record fields) (objectBytes gap entries)
  | position {fields : List (String × Shape)} (gap : Gap) {items : List Padded}
      (each : ∀ i ∈ items, WellFormed i.value) {index : Nat} {i : Padded} {name : String}
      {shape : Shape} (item : items[index]? = some i) (known : fields[index]? = some (name, shape))
      (inside : Repeats shape i.value) : Repeats (.record fields) (listBytes gap items)

section Presented

theorem digitBytes_digits (n : Nat) : ∀ b ∈ digitBytes n, isDigit b = true := by
  induction n using Nat.strongRecOn with
  | ind n ih =>
    by_cases small : n < 10
    · rw [digitBytes_small small]
      exact List.forall_mem_singleton.mpr (isDigit_digit small).1
    · have last : n % 10 < 10 := Nat.mod_lt _ (by decide)
      have bytes : digitBytes n = digitBytes (n / 10) ++ [UInt8.ofNat (0x30 + n % 10)] := by
        rw [← digitBytes_grown (by omega) last]
        congr 1
        omega
      rw [bytes]
      intro b among
      rcases List.mem_append.mp among with front | back
      · exact ih (n / 10) (by omega) b front
      · rw [List.mem_singleton.mp back]
        exact (isDigit_digit last).1

theorem numeral_digitBytes (n : Nat) : Numeral (digitBytes n) := by
  have whole : Whole (digitBytes n) := by
    by_cases positive : 0 < n
    · obtain ⟨d, more, least, most, front⟩ := digitBytes_front positive
      have digits := digitBytes_digits n
      rw [front] at digits ⊢
      refine .digits (isDigit_digit most).1 ?_ fun b among =>
        digits b (List.mem_cons_of_mem _ among)
      rw [ne_eq, ← UInt8.toNat_inj, ofNat_toNat_of_lt (by omega)]
      simp
      omega
    · obtain rfl : n = 0 := by omega
      have zero : digitBytes 0 = [0x30] := digitBytes_small (by decide)
      rw [zero]
      exact .zero
  have numeral := Numeral.parts (.inl rfl) whole .none .none
  rwa [List.nil_append, List.append_nil, List.append_nil] at numeral

theorem Presents.wellFormed {shape : Shape} {document : Document} {bytes : List UInt8}
    (presents : Presents shape document bytes) : WellFormed bytes := by
  induction presents with
  | null shape => exact .null
  | boolean b => exact .boolean b
  | number n => exact .number (numeral_digitBytes n)
  | text spells => exact .text _
  | list gap each wellFormed =>
    exact .list gap (List.forall_mem_map.mpr wellFormed)
  | map gap order keyed each wellFormed =>
    refine .object gap fun e among => ?_
    obtain ⟨m, listed, rfl⟩ := List.mem_map.mp (order.mem_iff.mp among)
    exact wellFormed m listed
  | record gap order keyed each unknown wellFormed =>
    refine .object gap fun e among => ?_
    rcases List.mem_append.mp (order.mem_iff.mp among) with known | other
    · obtain ⟨m, listed, rfl⟩ := List.mem_map.mp known
      exact wellFormed m listed
    · obtain ⟨_, _, _, value⟩ := unknown e other
      exact value

theorem Repeats.wellFormed {shape : Shape} {bytes : List UInt8} (repeats : Repeats shape bytes) :
    WellFormed bytes := by
  cases repeats with
  | item gap each _ _ => exact .list gap each
  | value gap each _ _ => exact .object gap each
  | twice gap each _ _ => exact .object gap each
  | member gap each _ _ _ _ => exact .object gap each
  | position gap each _ _ _ => exact .list gap each

theorem presents_boolean {shape : Shape} {b : Bool} {bytes : List UInt8}
    (presents : Presents shape (.boolean b) bytes) : bytes = booleanBytes b := by
  cases presents
  rfl

theorem presents_number {shape : Shape} {n : Nat} {bytes : List UInt8}
    (presents : Presents shape (.number n) bytes) : bytes = digitBytes n := by
  cases presents
  rfl

theorem presents_text {shape : Shape} {s : String} {bytes : List UInt8}
    (presents : Presents shape (.text s) bytes) :
    ∃ tokens, bytes = quoted tokens ∧ textOf tokens = some s := by
  cases presents with
  | text spells => exact ⟨_, rfl, spells⟩

theorem presents_list {shape : Shape} {documents : List Document} {bytes : List UInt8}
    (presents : Presents (.list shape) (.list documents) bytes) :
    ∃ (gap : Gap) (items : List (Document × Padded)), documents = items.map Prod.fst ∧
      bytes = listBytes gap (items.map Prod.snd) ∧ ∀ i ∈ items, Presents shape i.1 i.2.value := by
  cases presents with
  | list gap each => exact ⟨gap, _, rfl, rfl, each⟩

theorem presents_map {shape : Shape} {said : List (String × Document)} {bytes : List UInt8}
    (presents : Presents (.map shape) (.object said) bytes) :
    ∃ (gap : Gap) (members : List Member) (entries : List Entry),
      said = members.map Member.said ∧ bytes = objectBytes gap entries ∧
      entries.Perm (members.map Member.entry) ∧
      ∀ m ∈ members, textOf m.entry.key = some m.name ∧
        Presents shape m.document m.entry.value.value := by
  cases presents with
  | map gap order keyed each =>
    refine ⟨gap, _, _, rfl, rfl, order, fun m among => ⟨(keyed m among).1, ?_⟩⟩
    rw [← (keyed m among).2]
    exact each m among

theorem presents_record {fields : List (String × Shape)} {said : List (String × Document)}
    {bytes : List UInt8} (presents : Presents (.record fields) (.object said) bytes) :
    ∃ (gap : Gap) (members : List Member) (others entries : List Entry),
      said = members.map Member.said ∧ bytes = objectBytes gap entries ∧
      entries.Perm (members.map Member.entry ++ others) ∧
      (∀ m ∈ members, textOf m.entry.key = some m.name ∧ (m.name, m.shape) ∈ fields ∧
        Presents m.shape m.document m.entry.value.value) ∧
      ∀ e ∈ others, Unknown fields e := by
  cases presents with
  | record gap order keyed each unknown =>
    exact ⟨gap, _, _, _, rfl, rfl, order,
      fun m among => ⟨(keyed m among).1, (keyed m among).2, each m among⟩, unknown⟩

theorem presents_something {shape : Shape} {document : Document} {bytes : List UInt8}
    (presents : Presents shape document bytes) (something : document ≠ .null) :
    bytes.head? ≠ some 0x6E := by
  cases presents with
  | null shape => exact absurd rfl something
  | boolean b => cases b <;> decide
  | number n =>
    obtain ⟨d, more, small, front⟩ := digitBytes_start n
    rw [front, List.head?_cons, ne_eq, Option.some.injEq]
    exact digit_ne small (by decide)
  | text spells => simp [quoted]
  | list gap each => simp [listBytes]
  | map gap order keyed each => simp [objectBytes]
  | record gap order keyed each unknown => simp [objectBytes]

end Presented

end TenantGate.Json
