import TenantGate.Json.Format
import TenantGate.Proofs.JsonText
import TenantGate.Proofs.Utf8Reading

/-!
Reading JSON. A reader takes a value off the front of what may follow a value, and what is written
for a value is taken off as that value: strings with their escapes, numbers, lists and objects.
-/
namespace TenantGate.Json

open Utf8

def bytesOf (cs : List Char) : List UInt8 := cs.flatMap String.utf8EncodeChar

theorem bytesOf_cons (c : Char) (cs : List Char) :
    bytesOf (c :: cs) = String.utf8EncodeChar c ++ bytesOf cs := List.flatMap_cons

theorem bytesOf_append (cs ds : List Char) : bytesOf (cs ++ ds) = bytesOf cs ++ bytesOf ds :=
  List.flatMap_append

section Strings

def shortEscapes : List (Char × Char) :=
  [('"', '"'), ('\\', '\\'), ('b', '\x08'), ('f', '\x0c'), ('n', '\n'), ('r', '\r'), ('t', '\t')]

theorem escapeChars_numbers : ∀ k < 0x60, isEscaped (Char.ofNat k) = true →
    (shortEscapes.any fun (letter, c) =>
      c == Char.ofNat k && escapeChars (Char.ofNat k) == ['\\', letter]) = true ∨
    (k < 0x20 ∧ escapeChars (Char.ofNat k) =
      ['\\', 'u', '0', '0', hexDigit (k / 16), hexDigit (k % 16)]) := by
  decide

theorem escapeChars_cases {c : Char} (escaped : isEscaped c = true) :
    (∃ letter, (letter, c) ∈ shortEscapes ∧ escapeChars c = ['\\', letter]) ∨
      (c.toNat < 0x20 ∧ escapeChars c =
        ['\\', 'u', '0', '0', hexDigit (c.toNat / 16), hexDigit (c.toNat % 16)]) := by
  have number := escapeChars_numbers c.toNat (toNat_lt_of_isEscaped escaped)
  rw [Char.ofNat_toNat] at number
  rcases number escaped with short | long
  · rw [List.any_eq_true] at short
    obtain ⟨⟨letter, d⟩, listed, same⟩ := short
    simp only [Bool.and_eq_true, beq_iff_eq] at same
    obtain ⟨rfl, written⟩ := same
    exact .inl ⟨letter, listed, written⟩
  · exact .inr long

theorem readEscape_short {letter c : Char} (listed : (letter, c) ∈ shortEscapes) (place : Place)
    (more : List UInt8) :
    ∃ e : Escape (String.utf8EncodeChar letter ++ more),
      readEscape place (String.utf8EncodeChar letter ++ more) = .ok e ∧ e.char = c ∧
        e.rest = more := by
  simp only [shortEscapes, List.mem_cons, Prod.mk.injEq, List.not_mem_nil, or_false] at listed
  rcases listed with ⟨rfl, rfl⟩ | ⟨rfl, rfl⟩ | ⟨rfl, rfl⟩ | ⟨rfl, rfl⟩ | ⟨rfl, rfl⟩ | ⟨rfl, rfl⟩ |
    ⟨rfl, rfl⟩
  all_goals exact ⟨_, rfl, rfl, rfl⟩

theorem hex4?_hexDigit : ∀ n < 0x20,
    hex4? 0x30 0x30 (UInt8.ofNat (hexDigit (n / 16)).toNat)
      (UInt8.ofNat (hexDigit (n % 16)).toNat) = some n := by
  decide

theorem hexDigit_ascii : ∀ n < 16, (hexDigit n).toNat < 0x80 := by decide

theorem readText_quote (read : String) (place : Place) (rest : List UInt8) :
    readText read place (0x22 :: rest) = .ok (read, ⟨rest, place.after 0x22⟩) := by
  have same : ((0x22 : UInt8) == 0x22) = true := by decide
  rw [readText, if_pos same]

theorem readText_escape {read : String} {place : Place} {input : List UInt8} {e : Escape input}
    (escape : readEscape (place.after 0x5C) input = .ok e) :
    readText read place (0x5C :: input) = readText (read.push e.char) e.place e.rest := by
  have other : ¬ ((0x5C : UInt8) == 0x22) = true := by decide
  have same : ((0x5C : UInt8) == 0x5C) = true := by decide
  rw [readText, if_neg other, if_pos same, escape]

theorem readText_next {read : String} {place : Place} {b : UInt8} {c : Char}
    {rest more : List UInt8} (quote : b ≠ 0x22) (backslash : b ≠ 0x5C) (large : 0x20 ≤ b.toNat)
    (taken : Utf8.next b rest = (some c, more)) :
    readText read place (b :: rest) =
      readText (read.push c) ⟨place.line, place.column + c.utf8Size⟩ more := by
  have quote : ¬ (b == 0x22) = true := by simpa using quote
  have backslash : ¬ (b == 0x5C) = true := by simpa using backslash
  have control : ¬ b < 0x20 := by
    rw [UInt8.lt_iff_toNat_lt]
    exact Nat.not_lt_of_le large
  rw [readText, if_neg quote, if_neg backslash, if_neg control]
  split
  · rename_i d rest' found
    rw [taken, Prod.mk.injEq, Option.some.injEq] at found
    rw [found.1, found.2]
  · rename_i rest' found
    rw [taken] at found
    exact absurd (congrArg Prod.fst found) (by simp)

theorem mem_encodeChar {c : Char} {b : UInt8} (among : b ∈ String.utf8EncodeChar c) :
    b.toNat = c.toNat ∨ 0x80 ≤ b.toNat := by
  by_cases small : c.toNat < 0x80
  · rw [encodeChar_ascii small] at among
    rw [List.mem_singleton.mp among]
    exact .inl (ofNat_toNat_of_lt (by omega))
  · right
    have number : c.val.toNat = c.toNat := rfl
    unfold String.utf8EncodeChar at among
    simp only [number] at among
    rw [if_neg (by omega)] at among
    split at among
    all_goals try split at among
    all_goals
      simp only [List.mem_cons, List.not_mem_nil, or_false] at among
      rcases among with rfl | rfl | rfl | rfl
    all_goals
      rw [ofNat_toNat_of_lt (by omega)]
      omega

/-- The bytes of a character that stands for itself are no quote, no backslash and no control. -/
theorem byte_of_unescaped {c : Char} (unescaped : isEscaped c = false) {b : UInt8}
    (among : b ∈ String.utf8EncodeChar c) : b ≠ 0x22 ∧ b ≠ 0x5C ∧ 0x20 ≤ b.toNat := by
  simp only [isEscaped, Bool.or_eq_false_iff, beq_eq_false_iff_ne, decide_eq_false_iff_not]
    at unescaped
  obtain ⟨⟨quote, backslash⟩, large⟩ := unescaped
  have other (d : Char) (ascii : d.toNat < 0x80) (different : c ≠ d) : b.toNat ≠ d.toNat := by
    intro same
    rcases mem_encodeChar among with own | beyond
    · exact different (Char.toNat_inj.mp (own.symm.trans same))
    · omega
  refine ⟨?_, ?_, ?_⟩
  · rintro rfl
    exact other '"' (by decide) quote rfl
  · rintro rfl
    exact other '\\' (by decide) backslash rfl
  · rcases mem_encodeChar among with own | beyond <;> omega

theorem readText_unescaped {c : Char} (unescaped : isEscaped c = false) (read : String)
    (place : Place) (more : List UInt8) :
    ∃ place', readText read place (String.utf8EncodeChar c ++ more) =
      readText (read.push c) place' more := by
  obtain ⟨b, rest, bytes, taken⟩ := next_encodeChar c more
  -- the reader looks at the first byte before it takes the character
  have among : b ∈ String.utf8EncodeChar c := bytes ▸ List.mem_cons_self
  obtain ⟨quote, backslash, large⟩ := byte_of_unescaped unescaped among
  refine ⟨⟨place.line, place.column + c.utf8Size⟩, ?_⟩
  rw [bytes, List.cons_append]
  exact readText_next quote backslash large taken

theorem encode_stringText (s : String) :
    encode (stringText s) = 0x22 :: bytesOf (s.toList.flatMap escapeChars) ++ [0x22] := by
  have quote : String.utf8EncodeChar '"' = [0x22] := rfl
  rw [encode_toList, stringText_toList, List.cons_append, List.flatMap_cons, List.flatMap_append,
    List.flatMap_cons, List.flatMap_nil, quote]
  rfl

end Strings

def endsValue (b : UInt8) : Bool := isSpace b || b == 0x2C || b == 0x5D || b == 0x7D

/-- Nothing follows that could belong to a value before it. -/
def Closed (rest : List UInt8) : Prop := ∀ b ∈ rest.head?, endsValue b = true

theorem closed_cons {b : UInt8} (ends : endsValue b = true) (rest : List UInt8) :
    Closed (b :: rest) := by
  intro d first
  rw [← Option.some.inj first]
  exact ends

theorem closed_nil : Closed [] := by
  intro d first
  exact absurd first (by simp)

variable {α β : Type}

/-- The reader takes the bytes off the front as the value, whatever follows. -/
def Takes (read : Reader α) (bytes : List UInt8) (a : α) : Prop :=
  ∀ rest place, Closed rest →
    ∃ place', read ⟨bytes ++ rest, place⟩ = .ok (a, ⟨rest, place'⟩)

def Starts (bytes : List UInt8) : Prop :=
  ∃ b more, bytes = b :: more ∧ isSpace b = false ∧ b ≠ 0x5D

theorem trim_cons {b : UInt8} (solid : isSpace b = false) (rest : List UInt8) (place : Place) :
    Cursor.trim ⟨b :: rest, place⟩ = ⟨b :: rest, place⟩ := by
  have solid : ¬ isSpace b = true := by simp [solid]
  rw [Cursor.trim, skipSpace, if_neg solid]

section Numbers

def digitBytes (n : Nat) : List UInt8 := bytesOf (Nat.toDigits 10 n)

theorem encode_toString (n : Nat) : encode (toString n) = digitBytes n := by
  have written : toString n = String.ofList (Nat.toDigits 10 n) := rfl
  rw [written, encode_ofList]
  rfl

theorem digitBytes_small {d : Nat} (small : d < 10) : digitBytes d = [UInt8.ofNat (0x30 + d)] := by
  have number := Nat.toNat_digitChar_of_lt_ten small
  have ascii : d.digitChar.toNat < 0x80 := by omega
  rw [digitBytes, Nat.toDigits_of_lt_base small, bytesOf, List.flatMap_cons, List.flatMap_nil,
    List.append_nil, encodeChar_ascii ascii, number]

theorem digitBytes_grown {n d : Nat} (positive : 0 < n) (small : d < 10) :
    digitBytes (10 * n + d) = digitBytes n ++ [UInt8.ofNat (0x30 + d)] := by
  have last := digitBytes_small small
  rw [digitBytes] at last
  rw [digitBytes, ← Nat.toDigits_append_toDigits (by decide) positive small, bytesOf_append, last]
  rfl

theorem isDigit_digit {d : Nat} (small : d < 10) :
    isDigit (UInt8.ofNat (0x30 + d)) = true ∧ digitOf (UInt8.ofNat (0x30 + d)) = d := by
  have number := ofNat_toNat_of_lt (show 0x30 + d < 256 by omega)
  constructor
  · simp only [isDigit, Bool.and_eq_true, decide_eq_true_eq, UInt8.le_iff_toNat_le, number]
    exact ⟨by simp, by simp; omega⟩
  · rw [digitOf, number]
    omega

theorem takeDigits_digit {limit value taken d : Nat} (small : d < 10)
    (within : value * 10 + d ≤ limit) (place : Place) (rest : List UInt8) :
    takeDigits limit value taken 0 place (UInt8.ofNat (0x30 + d) :: rest) =
      takeDigits limit (value * 10 + d) (taken + 1) 0
        (place.after (UInt8.ofNat (0x30 + d))) rest := by
  obtain ⟨digit, shown⟩ := isDigit_digit small
  rw [takeDigits, if_pos digit, shown]
  simp only [within, decide_true, beq_self_eq_true, Bool.and_self, ↓reduceIte]

theorem takeDigits_digitBytes {limit : Nat} (n : Nat) (within : n ≤ limit) (place : Place)
    (rest : List UInt8) :
    ∃ taken place', takeDigits limit 0 0 0 place (digitBytes n ++ rest) =
      takeDigits limit n taken 0 place' rest := by
  -- the digits before the last one are those of a smaller number, with one more digit behind them
  induction n using Nat.strongRecOn generalizing rest with
  | ind n ih =>
    by_cases small : n < 10
    · refine ⟨1, place.after (UInt8.ofNat (0x30 + n)), ?_⟩
      rw [digitBytes_small small, List.singleton_append,
        takeDigits_digit small (by omega), Nat.zero_mul, Nat.zero_add]
    · have parts : n = 10 * (n / 10) + n % 10 := by omega
      have last : n % 10 < 10 := Nat.mod_lt _ (by decide)
      obtain ⟨taken, place', front⟩ :=
        ih (n / 10) (by omega) (by omega) (UInt8.ofNat (0x30 + n % 10) :: rest)
      have bytes : digitBytes n = digitBytes (n / 10) ++ [UInt8.ofNat (0x30 + n % 10)] := by
        rw [← digitBytes_grown (by omega) last, ← parts]
      refine ⟨taken + 1, place'.after (UInt8.ofNat (0x30 + n % 10)), ?_⟩
      rw [bytes, List.append_assoc, List.singleton_append, front,
        takeDigits_digit last (by omega)]
      have whole : n / 10 * 10 + n % 10 = n := by omega
      rw [whole]

theorem not_number_of_endsValue {b : UInt8} (ends : endsValue b = true) :
    isDigit b = false ∧ b ≠ 0x2E ∧ b ≠ 0x65 ∧ b ≠ 0x45 := by
  simp only [endsValue, isSpace, Bool.or_eq_true, beq_iff_eq, or_assoc] at ends
  rcases ends with rfl | rfl | rfl | rfl | rfl | rfl | rfl <;> decide

theorem takeDigits_closed {rest : List UInt8} (closed : Closed rest) (limit value taken : Nat)
    (place : Place) :
    takeDigits limit value taken 0 place rest = (value, taken, 0, ⟨rest, place⟩) := by
  cases rest with
  | nil => rfl
  | cons b more =>
    have other := (not_number_of_endsValue (closed b rfl)).1
    rw [takeDigits, if_neg (by simp [other])]

theorem readTail_closed {rest : List UInt8} (closed : Closed rest) (n : Nat) (place : Place) :
    readTail true n 0 ⟨rest, place⟩ = .ok (.natural n, ⟨rest, place⟩) := by
  have whole : readTail.whole true n 0 ⟨rest, place⟩ = .ok (.natural n, ⟨rest, place⟩) := rfl
  cases rest with
  | nil => exact whole
  | cons b more =>
    obtain ⟨_, point, small, large⟩ := not_number_of_endsValue (closed b rfl)
    have point : ¬ (b == 0x2E) = true := by simpa using point
    have exponent : ¬ (b == 0x65 || b == 0x45) = true := by simp [small, large]
    simp only [readTail, if_neg point, if_neg exponent]
    exact whole

theorem digitBytes_front {n : Nat} (positive : 0 < n) :
    ∃ d more, 0 < d ∧ d < 10 ∧ digitBytes n = UInt8.ofNat (0x30 + d) :: more := by
  induction n using Nat.strongRecOn with
  | ind n ih =>
    by_cases small : n < 10
    · exact ⟨n, [], positive, small, digitBytes_small small⟩
    · have last : n % 10 < 10 := Nat.mod_lt _ (by decide)
      obtain ⟨d, more, least, most, front⟩ := ih (n / 10) (by omega) (by omega)
      have bytes : digitBytes n = digitBytes (n / 10) ++ [UInt8.ofNat (0x30 + n % 10)] := by
        rw [← digitBytes_grown (by omega) last]
        congr 1
        omega
      rw [front] at bytes
      exact ⟨d, _, least, most, bytes⟩

theorem readUnsigned_digitBytes {n : Nat} (within : n ≤ significandLimit) {rest : List UInt8}
    (closed : Closed rest) (place : Place) :
    ∃ place', readUnsigned true ⟨digitBytes n ++ rest, place⟩ =
      .ok (.natural n, ⟨rest, place'⟩) := by
  by_cases positive : 0 < n
  · obtain ⟨d, more, least, most, front⟩ := digitBytes_front positive
    obtain ⟨taken, place', taken_eq⟩ := takeDigits_digitBytes n within place rest
    rw [takeDigits_closed closed] at taken_eq
    obtain ⟨digit, _⟩ := isDigit_digit most
    have number := ofNat_toNat_of_lt (show 0x30 + d < 256 by omega)
    have nonzero : ¬ (UInt8.ofNat (0x30 + d) == 0x30) = true := by
      rw [beq_iff_eq, ← UInt8.toNat_inj, number]
      simp
      omega
    refine ⟨place', ?_⟩
    rw [front, List.cons_append] at taken_eq ⊢
    simp only [readUnsigned, if_neg nonzero, if_pos digit, taken_eq]
    exact readTail_closed closed n place'
  · obtain rfl : n = 0 := by omega
    have zero : digitBytes 0 = [0x30] := digitBytes_small (by decide)
    have tail := readTail_closed closed 0 (place.after 0x30)
    refine ⟨place.after 0x30, ?_⟩
    rw [zero, List.singleton_append]
    simp only [readUnsigned, beq_self_eq_true, ↓reduceIte, Cursor.ahead]
    cases rest with
    | nil => exact tail
    | cons b more =>
      have other := (not_number_of_endsValue (closed b rfl)).1
      simp only [other, Bool.false_eq_true, ↓reduceIte]
      exact tail

theorem digitBytes_start (n : Nat) :
    ∃ d more, d < 10 ∧ digitBytes n = UInt8.ofNat (0x30 + d) :: more := by
  by_cases positive : 0 < n
  · obtain ⟨d, more, _, most, front⟩ := digitBytes_front positive
    exact ⟨d, more, most, front⟩
  · obtain rfl : n = 0 := by omega
    exact ⟨0, [], by decide, digitBytes_small (by decide)⟩

theorem digit_ne {d : Nat} (small : d < 10) {k : UInt8} (other : k.toNat < 0x30 ∨ 0x39 < k.toNat) :
    UInt8.ofNat (0x30 + d) ≠ k := by
  rintro rfl
  rw [ofNat_toNat_of_lt (by omega)] at other
  omega

theorem readNumber_digit {d : Nat} (small : d < 10) (rest : List UInt8) (place : Place) :
    readNumber ⟨UInt8.ofNat (0x30 + d) :: rest, place⟩ =
      readUnsigned true ⟨UInt8.ofNat (0x30 + d) :: rest, place⟩ := by
  simp only [readNumber]
  split
  · rename_i found
    exact absurd (List.cons.inj found).1 (digit_ne small (by decide))
  · rfl

theorem takes_natural (expected : String) {limit n : Nat} (fits : n ≤ limit)
    (within : n ≤ significandLimit) :
    Takes (Format.natural expected limit).read (digitBytes n) n := by
  obtain ⟨d, more, small, front⟩ := digitBytes_start n
  obtain ⟨digit, _⟩ := isDigit_digit small
  have space : isSpace (UInt8.ofNat (0x30 + d)) = false := by
    simp only [isSpace, Bool.or_eq_false_iff, beq_eq_false_iff_ne]
    exact ⟨⟨⟨digit_ne small (by decide), digit_ne small (by decide)⟩, digit_ne small (by decide)⟩,
      digit_ne small (by decide)⟩
  intro rest place closed
  obtain ⟨place', read⟩ := readUnsigned_digitBytes within closed place
  refine ⟨place', ?_⟩
  rw [front, List.cons_append] at read ⊢
  have starts : (UInt8.ofNat (0x30 + d) == 0x2D || isDigit (UInt8.ofNat (0x30 + d))) = true := by
    rw [digit, Bool.or_true]
  simp only [Format.natural, trim_cons space, starts, ↓reduceIte, readNumber_digit small, read]
  simp only [bind, Except.bind, fits, ↓reduceIte]

end Numbers

section Pieces

/-- Pieces with commas between them, and one in front of the first unless nothing comes before. -/
def joined : Bool → List (List UInt8) → List UInt8
  | _, [] => []
  | first, piece :: more => (if first then piece else 0x2C :: piece) ++ joined false more

def comma (first : Bool) : List UInt8 := if first then [] else [0x2C]

theorem joined_cons (first : Bool) (piece : List UInt8) (more : List (List UInt8)) :
    joined first (piece :: more) = comma first ++ (piece ++ joined false more) := by
  cases first <;> rfl

theorem encode_intercalate (texts : List String) :
    encode (String.intercalate "," texts) = joined true (texts.map encode) := by
  have comma : ",".toList.flatMap String.utf8EncodeChar = [0x2C] := rfl
  rw [encode_toList, String.toList_intercalate]
  induction texts with
  | nil => rfl
  | cons text texts ih =>
    cases texts with
    | nil =>
      simp only [List.map_cons, List.map_nil, List.intercalate_singleton, joined, ↓reduceIte,
        List.append_nil]
      exact (encode_toList text).symm
    | cons second more =>
      rw [List.map_cons, List.map_cons, List.intercalate_cons_cons, List.flatMap_append,
        List.flatMap_append, comma, ← encode_toList, ← List.map_cons, ih]
      simp only [List.map_cons, joined, ↓reduceIte, Bool.false_eq_true, List.append_assoc,
        List.nil_append, List.cons_append]

theorem closed_joined (closer : UInt8) (ends : endsValue closer = true)
    (pieces : List (List UInt8)) (rest : List UInt8) :
    Closed (joined false pieces ++ closer :: rest) := by
  cases pieces with
  | nil => exact closed_cons ends rest
  | cons piece more => exact closed_cons (b := 0x2C) rfl _

theorem length_le_joined {pieces : List (List UInt8)} (filled : ∀ piece ∈ pieces, piece ≠ [])
    (first : Bool) : pieces.length ≤ (joined first pieces).length := by
  induction pieces generalizing first with
  | nil => exact Nat.zero_le _
  | cons piece more ih =>
    have later := ih (fun p member => filled p (List.mem_cons_of_mem piece member)) false
    have front : 0 < piece.length := List.length_pos_iff.mpr (filled piece List.mem_cons_self)
    rw [joined, List.length_append, List.length_cons]
    cases first with
    | true =>
      simp only [↓reduceIte]
      omega
    | false =>
      simp only [Bool.false_eq_true, ↓reduceIte, List.length_cons]
      omega

end Pieces

end TenantGate.Json
