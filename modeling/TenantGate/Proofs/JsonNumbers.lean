import Mathlib.Data.List.TakeWhile
import TenantGate.Proofs.JsonGrammar

/-!
Numbers that are read. A number ends where no part of it goes on. What is made of it depends on its
own bytes alone, not on its place and not on what follows: it is read, or it is out of range. And
nothing but a number is read.
-/
namespace TenantGate.Json

variable {α : Type} {bytes rest : List UInt8}

structure Ends (fraction exponent rest : List UInt8) : Prop where
  digit : ∀ b ∈ rest.head?, isDigit b = false
  letter : exponent = [] → ∀ b ∈ rest.head?, isExponent b = false
  point : fraction = [] → exponent = [] → ∀ b ∈ rest.head?, (b == 0x2E) = false

inductive CutNumeral : List UInt8 → List UInt8 → Prop where
  | parts {sign whole fraction exponent rest : List UInt8} (signs : sign = [] ∨ sign = [0x2D])
      (hasWhole : Whole whole) (hasFraction : Fraction fraction) (hasExponent : Exponent exponent)
      (ends : Ends fraction exponent rest) :
      CutNumeral (sign ++ (whole ++ (fraction ++ exponent))) rest

def InRange (numeral : List UInt8) : Prop :=
  ∃ n c, readNumber (.ofBytes numeral) = .ok (n, c)

theorem ends_nil (fraction exponent : List UInt8) : Ends fraction exponent [] :=
  ⟨by simp, by simp, by simp⟩

theorem ends_of_closed (closed : Closed rest) (fraction exponent : List UInt8) :
    Ends fraction exponent rest := by
  refine ⟨?_, ?_, ?_⟩
  · exact fun b front => (not_number_of_endsValue (closed b front)).1
  · intro _ b front
    obtain ⟨_, _, small, large⟩ := not_number_of_endsValue (closed b front)
    simp [isExponent, small, large]
  · intro _ _ b front
    obtain ⟨_, point, _⟩ := not_number_of_endsValue (closed b front)
    simp [point]

theorem Numeral.cut (numeral : Numeral bytes) (closed : Closed rest) : CutNumeral bytes rest := by
  cases numeral with
  | parts signs hasWhole hasFraction hasExponent =>
    exact .parts signs hasWhole hasFraction hasExponent (ends_of_closed closed _ _)

section Digits

theorem takeDigits_digits (digits : ∀ b ∈ bytes, isDigit b = true)
    (limit value taken dropped : Nat) : ∃ value' taken' dropped',
      taken' + dropped' = taken + dropped + bytes.length ∧
      ∀ rest place, (∀ b ∈ rest.head?, isDigit b = false) → ∃ place',
        takeDigits limit value taken dropped place (bytes ++ rest) =
          (value', taken', dropped', ⟨rest, place'⟩) := by
  induction bytes generalizing value taken dropped with
  | nil =>
    refine ⟨value, taken, dropped, rfl, fun rest place other => ⟨place, ?_⟩⟩
    cases rest with
    | nil => rfl
    | cons b rest => rw [List.nil_append, takeDigits, if_neg (by simp [other b rfl])]
  | cons b bytes ih =>
    obtain ⟨digit, digits⟩ := List.forall_mem_cons.mp digits
    by_cases grows : (dropped == 0 && decide (value * 10 + digitOf b ≤ limit)) = true
    · obtain ⟨value', taken', dropped', count, later⟩ :=
        ih digits (value * 10 + digitOf b) (taken + 1) 0
      have none : dropped = 0 := by
        simp only [Bool.and_eq_true, beq_iff_eq] at grows
        exact grows.1
      refine ⟨value', taken', dropped', ?_, fun rest place other => ?_⟩
      · rw [List.length_cons]
        omega
      · rw [List.cons_append, takeDigits, if_pos digit]
        dsimp only
        rw [if_pos grows]
        exact later rest (place.after b) other
    · obtain ⟨value', taken', dropped', count, later⟩ := ih digits value taken (dropped + 1)
      refine ⟨value', taken', dropped', ?_, fun rest place other => ?_⟩
      · rw [List.length_cons]
        omega
      · rw [List.cons_append, takeDigits, if_pos digit]
        dsimp only
        rw [if_neg grows]
        exact later rest (place.after b) other

theorem takeDigits_taken (limit value taken dropped : Nat) (place : Place) (bytes : List UInt8) :
    ∃ digits value' taken' dropped' rest place',
      takeDigits limit value taken dropped place bytes =
        (value', taken', dropped', ⟨rest, place'⟩) ∧
      bytes = digits ++ rest ∧ (∀ b ∈ digits, isDigit b = true) ∧
      (∀ b ∈ rest.head?, isDigit b = false) ∧
      taken' + dropped' = taken + dropped + digits.length := by
  have cut := List.takeWhile_append_dropWhile (p := isDigit) (l := bytes)
  have each : ∀ b ∈ bytes.takeWhile isDigit, isDigit b = true := fun b among =>
    List.mem_takeWhile_imp among
  have other : ∀ b ∈ (bytes.dropWhile isDigit).head?, isDigit b = false := by
    intro b front
    have first := List.head?_dropWhile_not isDigit bytes
    rw [Option.mem_def.mp front] at first
    simpa using first
  obtain ⟨value', taken', dropped', count, later⟩ :=
    takeDigits_digits each limit value taken dropped
  obtain ⟨place', same⟩ := later _ place other
  rw [cut] at same
  exact ⟨_, value', taken', dropped', _, place', same, cut.symm, each, other, count⟩

end Digits

section Outcomes

def Alike (r r' : Except Fault (α × Cursor)) (rest rest' : List UInt8) : Prop :=
  ∃ o, Leads r rest o ∧ Leads r' rest' o

theorem alike_ok (a : α) (rest rest' : List UInt8) (place place' : Place) :
    Alike (.ok (a, ⟨rest, place⟩)) (.ok (a, ⟨rest', place'⟩)) rest rest' :=
  ⟨some a, leads_ok a rest place, leads_ok a rest' place'⟩

theorem alike_error (fault fault' : Fault) (rest rest' : List UInt8) :
    Alike (.error fault : Except Fault (α × Cursor)) (.error fault') rest rest' :=
  ⟨none, ⟨fault, rfl⟩, fault', rfl⟩

variable {rest' : List UInt8}

theorem alike_float (rest rest' : List UInt8) (place place' : Place) (positive : Bool)
    (significand : Nat) (exponent : Int) :
    Alike (floatOfParts ⟨rest, place⟩ positive significand exponent)
      (floatOfParts ⟨rest', place'⟩ positive significand exponent) rest rest' := by
  simp only [floatOfParts]
  cases floatOfParts? positive significand exponent with
  | none => exact alike_error _ _ rest rest'
  | some x => exact alike_ok _ rest rest' place place'

theorem alike_exponent (digits : Digits bytes) (other : ∀ b ∈ rest.head?, isDigit b = false)
    (other' : ∀ b ∈ rest'.head?, isDigit b = false) {sign : List UInt8}
    (signs : sign = [] ∨ sign = [0x2B] ∨ sign = [0x2D]) (letter : UInt8) (positive : Bool)
    (significand : Nat) (start : Int) (place place' : Place) :
    Alike (readExponent positive significand start ⟨letter :: (sign ++ bytes) ++ rest, place⟩)
      (readExponent positive significand start ⟨letter :: (sign ++ bytes) ++ rest', place'⟩)
      rest rest' := by
  obtain ⟨filled, each⟩ := digits
  obtain ⟨d, more, rfl⟩ := List.exists_cons_of_ne_nil filled
  have digit := each d List.mem_cons_self
  have plus : (d == 0x2B) = false := digit_beq digit rfl
  have minus : (d == 0x2D) = false := digit_beq digit rfl
  obtain ⟨value, count, dropped, _, taken⟩ := takeDigits_digits each exponentLimit 0 0 0
  rcases signs with rfl | rfl | rfl
  all_goals
    simp only [readExponent, List.cons_append, List.nil_append, List.drop_succ_cons,
      List.drop_zero, plus, minus, Bool.false_eq_true, beq_self_eq_true, ↓reduceIte, digit,
      Cursor.ahead, show ((0x2D : UInt8) == 0x2B) = false from rfl]
    obtain ⟨behind, same⟩ := taken rest _ other
    obtain ⟨behind', same'⟩ := taken rest' _ other'
    rw [List.cons_append] at same same'
    rw [same, same']
    simp only
    split
    · exact alike_float rest rest' behind behind' positive significand _
    · split
      · exact alike_error _ _ rest rest'
      · exact alike_ok _ rest rest' behind behind'

theorem Exponent.follows (exponent : Exponent bytes) :
    bytes = [] ∨ ∃ letter more, bytes = letter :: more ∧
      isExponent letter = true ∧ isDigit letter = false ∧ (letter == 0x2E) = false ∧
      ∀ fraction rest rest', Ends fraction bytes rest → Ends fraction bytes rest' →
        ∀ positive significand start place place',
          Alike (readExponent positive significand start ⟨letter :: (more ++ rest), place⟩)
            (readExponent positive significand start ⟨letter :: (more ++ rest'), place'⟩)
            rest rest' := by
  cases exponent with
  | none => exact .inl rfl
  | @digits letter sign more letters signs digits =>
    have other : isDigit letter = false ∧ (letter == 0x2E) = false := by
      simp only [isExponent, Bool.or_eq_true, beq_iff_eq] at letters
      rcases letters with rfl | rfl <;> exact ⟨rfl, rfl⟩
    exact .inr ⟨letter, sign ++ more, rfl, letters, other.1, other.2,
      fun _ _ _ ends ends' => alike_exponent digits ends.digit ends'.digit signs letter⟩

theorem no_digit_of_exponent {fraction exponent : List UInt8} (hasExponent : Exponent exponent)
    (ends : Ends fraction exponent rest) : ∀ b ∈ (exponent ++ rest).head?, isDigit b = false := by
  rcases hasExponent.follows with rfl | ⟨letter, more, rfl, _, digit, _, _⟩
  · exact ends.digit
  · intro b front
    rwa [← Option.some.inj front]

def readBehindDigits (positive : Bool) (significand : Nat) (start : Int) (c : Cursor) :
    Except Fault (Number × Cursor) :=
  match c.rest with
  | b :: _ =>
    if b == 0x65 || b == 0x45 then readExponent positive significand start c
    else floatOfParts c positive significand start
  | [] => floatOfParts c positive significand start

theorem alike_behindDigits {fraction exponent : List UInt8} (hasExponent : Exponent exponent)
    (ends : Ends fraction exponent rest) (ends' : Ends fraction exponent rest') (positive : Bool)
    (significand : Nat) (start : Int) (place place' : Place) :
    Alike (readBehindDigits positive significand start ⟨exponent ++ rest, place⟩)
      (readBehindDigits positive significand start ⟨exponent ++ rest', place'⟩) rest rest' := by
  rcases hasExponent.follows with rfl | ⟨letter, more, rfl, letters, _, _, alike⟩
  · have none {rest : List UInt8} (ends : Ends fraction [] rest) (place : Place) :
        readBehindDigits positive significand start ⟨rest, place⟩ =
          floatOfParts ⟨rest, place⟩ positive significand start := by
      cases rest with
      | nil => rfl
      | cons b more =>
        have other := ends.letter rfl b rfl
        rw [isExponent] at other
        simp only [readBehindDigits, other, Bool.false_eq_true, ↓reduceIte]
    rw [List.nil_append, List.nil_append, none ends, none ends']
    exact alike_float rest rest' place place' positive significand start
  · rw [isExponent] at letters
    simp only [readBehindDigits, List.cons_append, letters, ↓reduceIte]
    exact alike fraction rest rest' ends ends' positive significand start place place'

theorem alike_fraction {digits exponent : List UInt8} (hasDigits : Digits digits)
    (hasExponent : Exponent exponent) (ends : Ends (0x2E :: digits) exponent rest)
    (ends' : Ends (0x2E :: digits) exponent rest') (positive : Bool) (significand : Nat)
    (start : Int) (place place' : Place) :
    Alike
      (readFraction positive significand start ⟨0x2E :: (digits ++ (exponent ++ rest)), place⟩)
      (readFraction positive significand start ⟨0x2E :: (digits ++ (exponent ++ rest')), place'⟩)
      rest rest' := by
  obtain ⟨value, count, dropped, total, taken⟩ :=
    takeDigits_digits hasDigits.2 significandLimit significand 0 0
  have filled : ¬ (count + dropped == 0) = true := by
    have positive := List.length_pos_iff.mpr hasDigits.1
    simp
    omega
  obtain ⟨behind, same⟩ := taken (exponent ++ rest) (place.after 0x2E)
    (no_digit_of_exponent hasExponent ends)
  obtain ⟨behind', same'⟩ := taken (exponent ++ rest') (place'.after 0x2E)
    (no_digit_of_exponent hasExponent ends')
  simp only [readFraction, List.drop_succ_cons, List.drop_zero, Cursor.ahead, same, same',
    if_neg filled]
  exact alike_behindDigits hasExponent ends ends' positive value (start - count) behind behind'

theorem alike_tail {fraction exponent : List UInt8} (hasFraction : Fraction fraction)
    (hasExponent : Exponent exponent) (ends : Ends fraction exponent rest)
    (ends' : Ends fraction exponent rest') (positive : Bool) (significand dropped : Nat)
    (place place' : Place) :
    Alike (readTail positive significand dropped ⟨fraction ++ (exponent ++ rest), place⟩)
      (readTail positive significand dropped ⟨fraction ++ (exponent ++ rest'), place'⟩)
      rest rest' := by
  have whole : Alike (readTail.whole positive significand dropped ⟨rest, place⟩)
      (readTail.whole positive significand dropped ⟨rest', place'⟩) rest rest' := by
    simp only [readTail.whole]
    split
    · exact alike_float rest rest' place place' positive significand dropped
    split
    · exact alike_ok _ rest rest' place place'
    split
    · exact alike_ok _ rest rest' place place'
    · exact alike_ok _ rest rest' place place'
  cases hasFraction with
  | digits digits =>
    simp only [List.cons_append, readTail, beq_self_eq_true, ↓reduceIte]
    exact alike_fraction digits hasExponent ends ends' positive significand dropped place place'
  | none =>
    rcases hasExponent.follows with rfl | ⟨letter, more, rfl, letters, _, point, alike⟩
    · have none {rest : List UInt8} (ends : Ends [] [] rest) (place : Place) :
          readTail positive significand dropped ⟨rest, place⟩ =
            readTail.whole positive significand dropped ⟨rest, place⟩ := by
        cases rest with
        | nil => rfl
        | cons b more =>
          have letter := ends.letter rfl b rfl
          have point := ends.point rfl rfl b rfl
          rw [isExponent] at letter
          simp only [readTail, point, letter, Bool.false_eq_true, ↓reduceIte]
      simp only [List.nil_append]
      rw [none ends, none ends']
      exact whole
    · rw [isExponent] at letters
      simp only [List.nil_append, List.cons_append, readTail, point, letters, Bool.false_eq_true,
        ↓reduceIte]
      exact alike [] rest rest' ends ends' positive significand dropped place place'

theorem no_digit_of_fraction {fraction exponent : List UInt8} (hasFraction : Fraction fraction)
    (hasExponent : Exponent exponent) (ends : Ends fraction exponent rest) :
    ∀ b ∈ (fraction ++ (exponent ++ rest)).head?, isDigit b = false := by
  cases hasFraction with
  | none =>
    rw [List.nil_append]
    exact no_digit_of_exponent hasExponent ends
  | digits digits =>
    intro b front
    rw [← Option.some.inj front]
    rfl

theorem alike_unsigned {whole fraction exponent : List UInt8} (hasWhole : Whole whole)
    (hasFraction : Fraction fraction) (hasExponent : Exponent exponent)
    (ends : Ends fraction exponent rest) (ends' : Ends fraction exponent rest') (positive : Bool)
    (place place' : Place) :
    Alike (readUnsigned positive ⟨whole ++ (fraction ++ (exponent ++ rest)), place⟩)
      (readUnsigned positive ⟨whole ++ (fraction ++ (exponent ++ rest')), place'⟩) rest rest' := by
  have tail := alike_tail hasFraction hasExponent ends ends' positive
  have front := no_digit_of_fraction hasFraction hasExponent ends
  have front' := no_digit_of_fraction hasFraction hasExponent ends'
  cases hasWhole with
  | zero =>
    have zero {more : List UInt8} (other : ∀ b ∈ more.head?, isDigit b = false) (place : Place) :
        readUnsigned positive ⟨0x30 :: more, place⟩ =
          readTail positive 0 0 ⟨more, place.after 0x30⟩ := by
      cases more with
      | nil => rfl
      | cons d more =>
        simp only [readUnsigned, beq_self_eq_true, ↓reduceIte, Cursor.ahead, other d rfl,
          Bool.false_eq_true]
    rw [List.singleton_append, List.singleton_append, zero front, zero front']
    exact tail 0 0 _ _
  | @digits b more digit nonzero each =>
    have zero : (b == 0x30) = false := by simpa using nonzero
    obtain ⟨value, count, dropped, _, taken⟩ := takeDigits_digits
      (List.forall_mem_cons.mpr ⟨digit, each⟩) significandLimit 0 0 0
    obtain ⟨behind, same⟩ := taken _ place front
    obtain ⟨behind', same'⟩ := taken _ place' front'
    rw [List.cons_append] at same same'
    simp only [List.cons_append, readUnsigned, zero, digit, Bool.false_eq_true, ↓reduceIte, same,
      same']
    exact tail value dropped behind behind'

theorem alike_number {numeral : List UInt8} {sign whole fraction exponent : List UInt8}
    (signs : sign = [] ∨ sign = [0x2D]) (hasWhole : Whole whole) (hasFraction : Fraction fraction)
    (hasExponent : Exponent exponent) (own : numeral = sign ++ (whole ++ (fraction ++ exponent)))
    (ends : Ends fraction exponent rest) (ends' : Ends fraction exponent rest')
    (place place' : Place) :
    Alike (readNumber ⟨numeral ++ rest, place⟩) (readNumber ⟨numeral ++ rest', place'⟩)
      rest rest' := by
  have unsigned := alike_unsigned hasWhole hasFraction hasExponent ends ends'
  subst own
  rw [List.append_assoc, List.append_assoc, List.append_assoc, List.append_assoc,
    List.append_assoc, List.append_assoc]
  rcases signs with rfl | rfl
  · have plain {more : List UInt8} (place : Place) :
        readNumber ⟨[] ++ (whole ++ more), place⟩ = readUnsigned true ⟨whole ++ more, place⟩ := by
      obtain ⟨b, digits, rfl, digit⟩ := hasWhole.front
      rw [List.nil_append, readNumber]
      split
      · rename_i found
        obtain rfl : b = 0x2D := (List.cons.inj found).1
        exact absurd digit (by decide)
      · rfl
    rw [plain, plain]
    exact unsigned true place place'
  · exact unsigned false (place.after 0x2D) (place'.after 0x2D)

end Outcomes

section Backwards

variable {positive : Bool} {significand dropped : Nat} {start : Int} {place place' : Place}
  {n : Number}

theorem floatOfParts_ok {c c' : Cursor}
    (read : floatOfParts c positive significand start = .ok (n, c')) : c' = c := by
  rw [floatOfParts] at read
  split at read
  · exact (Prod.mk.inj (Except.ok.inj read)).2.symm
  · exact absurd read (by simp [Cursor.fail])

def readExponentDigits (positive : Bool) (significand : Nat) (start : Int) (upward : Bool)
    (c : Cursor) : Except Fault (Number × Cursor) :=
  match c.rest with
  | [] => c.fail .endOfValue
  | b :: _ =>
    if isDigit b then
      let (e, taken, dropped, after) := takeDigits exponentLimit 0 0 0 c.place c.rest
      if dropped == 0 then
        floatOfParts after positive significand (if upward then start + e else start - e)
      else if significand != 0 && upward then
        .error ⟨.numberOutOfRange, ⟨c.place.line, c.place.column + taken + 1⟩, []⟩
      else .ok (.float (if positive then 0.0 else -0.0), after)
    else c.blame .invalidNumber

theorem readExponent_cases (positive : Bool) (significand : Nat) (start : Int) (letter : UInt8)
    (bytes : List UInt8) (place : Place) :
    ∃ sign more upward place', (sign = [] ∨ sign = [0x2B] ∨ sign = [0x2D]) ∧
      bytes = sign ++ more ∧ readExponent positive significand start ⟨letter :: bytes, place⟩ =
        readExponentDigits positive significand start upward ⟨more, place'⟩ := by
  cases bytes with
  | nil => exact ⟨[], [], true, _, .inl rfl, rfl, rfl⟩
  | cons b more =>
    by_cases plus : (b == 0x2B) = true
    · refine ⟨[b], more, true, (place.after letter).after b, .inr (.inl ?_), rfl, ?_⟩
      · simpa using plus
      · simp only [readExponent, List.drop_succ_cons, List.drop_zero, Cursor.ahead, plus,
          ↓reduceIte]
        rfl
    · by_cases minus : (b == 0x2D) = true
      · refine ⟨[b], more, false, (place.after letter).after b, .inr (.inr ?_), rfl, ?_⟩
        · simpa using minus
        · simp only [readExponent, List.drop_succ_cons, List.drop_zero, Cursor.ahead, plus, minus,
            Bool.false_eq_true, ↓reduceIte]
          rfl
      · refine ⟨[], b :: more, true, place.after letter, .inl rfl, rfl, ?_⟩
        simp only [readExponent, List.drop_succ_cons, List.drop_zero, Cursor.ahead, plus, minus,
          Bool.false_eq_true, ↓reduceIte]
        rfl

theorem readExponentDigits_ok {upward : Bool}
    (read : readExponentDigits positive significand start upward ⟨bytes, place⟩ =
      .ok (n, ⟨rest, place'⟩)) :
    ∃ digits, bytes = digits ++ rest ∧ Digits digits ∧ ∀ b ∈ rest.head?, isDigit b = false := by
  cases bytes with
  | nil => exact absurd read (by simp [readExponentDigits, Cursor.fail])
  | cons b more =>
    simp only [readExponentDigits] at read
    split at read
    · rename_i digit
      obtain ⟨digits, value, taken, dropped, behind, last, same, whole, each, other, _⟩ :=
        takeDigits_taken exponentLimit 0 0 0 place (b :: more)
      have filled : digits ≠ [] := by
        rintro rfl
        rw [List.nil_append] at whole
        rw [← whole] at other
        exact absurd (other b rfl) (by simp [digit])
      rw [same] at read
      simp only at read
      have ends : rest = behind := by
        split at read
        · exact congrArg Cursor.rest (floatOfParts_ok read)
        · split at read
          · exact absurd read (by simp)
          · exact (congrArg Cursor.rest (Prod.mk.inj (Except.ok.inj read)).2).symm
      subst ends
      exact ⟨digits, whole, ⟨filled, each⟩, other⟩
    · exact absurd read (by simp [Cursor.blame])

theorem readExponent_ok {letter : UInt8} (letters : isExponent letter = true)
    (read : readExponent positive significand start ⟨letter :: bytes, place⟩ =
      .ok (n, ⟨rest, place'⟩)) (fraction : List UInt8) :
    ∃ exponent, letter :: bytes = exponent ++ rest ∧ Exponent exponent ∧
      Ends fraction exponent rest := by
  obtain ⟨sign, more, upward, behind, signs, rfl, same⟩ :=
    readExponent_cases positive significand start letter bytes place
  rw [same] at read
  obtain ⟨digits, rfl, hasDigits, other⟩ := readExponentDigits_ok read
  exact ⟨letter :: (sign ++ digits), by simp, .digits letters signs hasDigits, other,
    by simp, by simp⟩

theorem readBehindDigits_ok (front : ∀ b ∈ bytes.head?, isDigit b = false)
    (read : readBehindDigits positive significand start ⟨bytes, place⟩ =
      .ok (n, ⟨rest, place'⟩)) {fraction : List UInt8} (filled : fraction ≠ []) :
    ∃ exponent, bytes = exponent ++ rest ∧ Exponent exponent ∧ Ends fraction exponent rest := by
  cases bytes with
  | nil =>
    obtain rfl : rest = [] := congrArg Cursor.rest (floatOfParts_ok read)
    exact ⟨[], rfl, .none, ends_nil fraction []⟩
  | cons b more =>
    simp only [readBehindDigits] at read
    split at read
    · rename_i letters
      exact readExponent_ok letters read fraction
    · rename_i letters
      obtain rfl : rest = b :: more := congrArg Cursor.rest (floatOfParts_ok read)
      refine ⟨[], rfl, .none, front, fun _ d same => ?_, fun none => absurd none filled⟩
      rw [← Option.some.inj same]
      simpa [isExponent] using letters

theorem readFraction_ok
    (read : readFraction positive significand start ⟨0x2E :: bytes, place⟩ =
      .ok (n, ⟨rest, place'⟩)) :
    ∃ fraction exponent, 0x2E :: bytes = fraction ++ (exponent ++ rest) ∧ Fraction fraction ∧
      Exponent exponent ∧ Ends fraction exponent rest := by
  obtain ⟨digits, value, taken, dropped, behind, last, same, rfl, each, other, count⟩ :=
    takeDigits_taken significandLimit significand 0 0 (place.after 0x2E) bytes
  simp only [readFraction, List.drop_succ_cons, List.drop_zero, Cursor.ahead, same] at read
  split at read
  · split at read <;> exact absurd read (by simp [Cursor.blame])
  · rename_i some
    have filled : digits ≠ [] := by
      rintro rfl
      simp only [List.length_nil] at count
      exact some (by simp; omega)
    have hasFraction : Fraction (0x2E :: digits) := .digits ⟨filled, each⟩
    obtain ⟨exponent, rfl, hasExponent, ends⟩ :=
      readBehindDigits_ok other read (List.cons_ne_nil 0x2E digits)
    exact ⟨_, exponent, rfl, hasFraction, hasExponent, ends⟩

theorem readTail_ok (front : ∀ b ∈ bytes.head?, isDigit b = false)
    (read : readTail positive significand dropped ⟨bytes, place⟩ = .ok (n, ⟨rest, place'⟩)) :
    ∃ fraction exponent, bytes = fraction ++ (exponent ++ rest) ∧ Fraction fraction ∧
      Exponent exponent ∧ Ends fraction exponent rest := by
  have whole {c : Cursor} (read : readTail.whole positive significand dropped c =
      .ok (n, ⟨rest, place'⟩)) : rest = c.rest := by
    rw [readTail.whole] at read
    split at read
    · exact congrArg Cursor.rest (floatOfParts_ok read)
    · split at read
      · exact (congrArg Cursor.rest (Prod.mk.inj (Except.ok.inj read)).2).symm
      · split at read
        · exact (congrArg Cursor.rest (Prod.mk.inj (Except.ok.inj read)).2).symm
        · exact (congrArg Cursor.rest (Prod.mk.inj (Except.ok.inj read)).2).symm
  cases bytes with
  | nil =>
    obtain rfl := whole read
    exact ⟨[], [], rfl, .none, .none, ends_nil [] []⟩
  | cons b more =>
    simp only [readTail] at read
    split at read
    · rename_i point
      obtain rfl : b = 0x2E := by simpa using point
      exact readFraction_ok read
    · rename_i point
      split at read
      · rename_i letters
        obtain ⟨exponent, same, hasExponent, ends⟩ := readExponent_ok letters read []
        exact ⟨[], exponent, same, .none, hasExponent, ends⟩
      · rename_i letters
        obtain rfl := whole read
        refine ⟨[], [], rfl, .none, .none, front, fun _ d same => ?_, fun _ _ d same => ?_⟩
        · rw [← Option.some.inj same]
          simpa [isExponent] using letters
        · rw [← Option.some.inj same]
          simpa using point

theorem readUnsigned_ok
    (read : readUnsigned positive ⟨bytes, place⟩ = .ok (n, ⟨rest, place'⟩)) :
    ∃ whole fraction exponent, bytes = whole ++ (fraction ++ (exponent ++ rest)) ∧ Whole whole ∧
      Fraction fraction ∧ Exponent exponent ∧ Ends fraction exponent rest := by
  cases bytes with
  | nil => exact absurd read (by simp [readUnsigned, Cursor.fail])
  | cons b more =>
    simp only [readUnsigned] at read
    split at read
    · rename_i zero
      obtain rfl : b = 0x30 := by simpa using zero
      have other : (∀ d ∈ more.head?, isDigit d = false) ∧
          readTail positive 0 0 ⟨more, place.after 0x30⟩ = .ok (n, ⟨rest, place'⟩) := by
        cases more with
        | nil => exact ⟨by simp, read⟩
        | cons d more =>
          simp only at read
          split at read
          · exact absurd read (by simp [Cursor.blame])
          · rename_i digit
            exact ⟨by simpa using digit, read⟩
      obtain ⟨fraction, exponent, rfl, hasFraction, hasExponent, ends⟩ :=
        readTail_ok other.1 other.2
      exact ⟨[0x30], fraction, exponent, rfl, .zero, hasFraction, hasExponent, ends⟩
    · rename_i nonzero
      split at read
      · rename_i digit
        obtain ⟨digits, value, taken, dropped, behind, last, same, whole, each, other, _⟩ :=
          takeDigits_taken significandLimit 0 0 0 place (b :: more)
        rw [same] at read
        obtain ⟨fraction, exponent, rfl, hasFraction, hasExponent, ends⟩ :=
          readTail_ok other read
        cases digits with
        | nil =>
          rw [List.nil_append] at whole
          rw [← whole] at other
          exact absurd (other b rfl) (by simp [digit])
        | cons d digits =>
          obtain ⟨rfl, _⟩ := List.cons.inj whole
          have hasWhole : Whole (b :: digits) :=
            .digits digit (by simpa using nonzero) fun d among =>
              each d (List.mem_cons_of_mem b among)
          exact ⟨_, fraction, exponent, whole, hasWhole, hasFraction, hasExponent, ends⟩
      · exact absurd read (by simp [Cursor.blame])

end Backwards

theorem readNumber_iff (bytes : List UInt8) (place : Place) (rest : List UInt8) :
    (∃ n, Leads (readNumber ⟨bytes, place⟩) rest (some n)) ↔
      ∃ numeral, bytes = numeral ++ rest ∧ CutNumeral numeral rest ∧ InRange numeral := by
  constructor
  · rintro ⟨n, place', read⟩
    have parts : ∃ sign whole fraction exponent, (sign = [] ∨ sign = [0x2D]) ∧
        bytes = sign ++ (whole ++ (fraction ++ (exponent ++ rest))) ∧ Whole whole ∧
        Fraction fraction ∧ Exponent exponent ∧ Ends fraction exponent rest := by
      have unsigned := read
      rw [readNumber] at unsigned
      split at unsigned
      · rename_i more front
        obtain ⟨whole, fraction, exponent, rfl, parts⟩ := readUnsigned_ok unsigned
        exact ⟨[0x2D], whole, fraction, exponent, .inr rfl, front, parts⟩
      · obtain ⟨whole, fraction, exponent, same, parts⟩ := readUnsigned_ok unsigned
        exact ⟨[], whole, fraction, exponent, .inl rfl, same, parts⟩
    obtain ⟨sign, whole, fraction, exponent, signs, rfl, hasWhole, hasFraction, hasExponent,
      ends⟩ := parts
    have same : sign ++ (whole ++ (fraction ++ (exponent ++ rest))) =
        (sign ++ (whole ++ (fraction ++ exponent))) ++ rest := by simp
    refine ⟨_, same, .parts signs hasWhole hasFraction hasExponent ends, ?_⟩
    obtain ⟨o, own, alone⟩ := alike_number signs hasWhole hasFraction hasExponent rfl ends
      (ends_nil fraction exponent) place .start
    rw [← same, read] at own
    rw [List.append_nil] at alone
    cases o with
    | none =>
      obtain ⟨fault, wrong⟩ := own
      exact absurd wrong (by simp)
    | some m =>
      obtain ⟨behind, alone⟩ := alone
      exact ⟨m, _, alone⟩
  · rintro ⟨numeral, rfl, cut, n, c, alone⟩
    cases cut with
    | @parts sign whole fraction exponent _ signs hasWhole hasFraction hasExponent ends =>
      obtain ⟨o, own, other⟩ := alike_number signs hasWhole hasFraction hasExponent rfl ends
        (ends_nil fraction exponent) place .start
      rw [List.append_nil] at other
      cases o with
      | none =>
        obtain ⟨fault, wrong⟩ := other
        rw [Cursor.ofBytes, wrong] at alone
        exact absurd alone (by simp)
      | some m => exact ⟨m, own⟩

theorem Numeral.stops {numeral : List UInt8} (hasNumeral : Numeral numeral) (closed : Closed rest)
    (place : Place) : ∃ o, Leads (readNumber ⟨numeral ++ rest, place⟩) rest o := by
  cases hasNumeral with
  | @parts sign whole fraction exponent signs hasWhole hasFraction hasExponent =>
    have ends := ends_of_closed closed fraction exponent
    obtain ⟨o, own, _⟩ :=
      alike_number signs hasWhole hasFraction hasExponent rfl ends ends place place
    exact ⟨o, own⟩

end TenantGate.Json
