import Mathlib.Data.List.TakeWhile
import TenantGate.Decimal.Reading

/-!
Which texts are read as numbers, and as which ones: integers are digits behind an optional sign,
decimals may have a point among their digits and an integer behind an `e`.
-/
namespace TenantGate.Decimal

def IsDigits (ds : List Char) : Prop := ds ≠ [] ∧ ∀ c ∈ ds, c.isDigit = true

def valueOf (ds : List Char) : Nat := Nat.ofDigitChars 10 ds 0

inductive IsInteger : List Char → Int → Prop where
  | plain {ds : List Char} (digits : IsDigits ds) : IsInteger ds (valueOf ds)
  | plus {ds : List Char} (digits : IsDigits ds) : IsInteger ('+' :: ds) (valueOf ds)
  | minus {ds : List Char} (digits : IsDigits ds) : IsInteger ('-' :: ds) (-(valueOf ds : Int))

inductive IsExponent : List Char → Int → Prop where
  | absent : IsExponent [] 0
  | marked {mark : Char} {cs : List Char} {e : Int} (mark_is : mark = 'e' ∨ mark = 'E')
      (integer : IsInteger cs e) : IsExponent (mark :: cs) e

inductive IsUnsigned : List Char → Nat → Int → Prop where
  | whole {ds cs : List Char} {e : Int} (digits : IsDigits ds) (exponent : IsExponent cs e) :
      IsUnsigned (ds ++ cs) (valueOf ds) e
  | pointed {ds fraction cs : List Char} {e : Int} (digits : IsDigits (ds ++ fraction))
      (exponent : IsExponent cs e) :
      IsUnsigned (ds ++ '.' :: (fraction ++ cs)) (valueOf (ds ++ fraction)) (e - fraction.length)

/-- The size of a decimal: a number, or a word for what is beyond all numbers or no number. -/
inductive IsSize : List Char → Float → Prop where
  | number {cs : List Char} {coefficient : Nat} {e : Int} (read : IsUnsigned cs coefficient e) :
      IsSize cs (nearest coefficient e)
  | infinite {cs : List Char}
      (word : (String.ofList cs).toLower = "inf" ∨ (String.ofList cs).toLower = "infinity") :
      IsSize cs (1.0 / 0.0)
  | undefined {cs : List Char} (word : (String.ofList cs).toLower = "nan") : IsSize cs (0.0 / 0.0)

inductive IsDecimal : List Char → Float → Prop where
  | plain {cs : List Char} {x : Float} (size : IsSize cs x) : IsDecimal cs x
  | plus {cs : List Char} {x : Float} (size : IsSize cs x) : IsDecimal ('+' :: cs) x
  | minus {cs : List Char} {x : Float} (size : IsSize cs x) : IsDecimal ('-' :: cs) (-x)

theorem digit?_eq (c : Char) :
    digit? c = if c.isDigit then some (c.toNat - '0'.toNat) else none := by
  rfl

def Stops (cs : List Char) : Prop := ∀ c ∈ cs.head?, c.isDigit = false

theorem takeDigits_append {ds rest : List Char} (digits : ∀ c ∈ ds, c.isDigit = true)
    (stops : Stops rest) (value : Nat) :
    takeDigits value (ds ++ rest) = (Nat.ofDigitChars 10 ds value, rest) := by
  induction ds generalizing value with
  | nil =>
    cases rest with
    | nil => rfl
    | cons c cs => simp [takeDigits, digit?_eq, stops c rfl]
  | cons d ds ih =>
    obtain ⟨digit, digits⟩ := List.forall_mem_cons.mp digits
    rw [List.cons_append, takeDigits, digit?_eq, if_pos digit, Nat.ofDigitChars_cons]
    simp only [ih digits, Nat.mul_comm]

theorem exists_digits (cs : List Char) :
    ∃ ds rest, cs = ds ++ rest ∧ (∀ c ∈ ds, c.isDigit = true) ∧ Stops rest := by
  refine ⟨cs.takeWhile Char.isDigit, cs.dropWhile Char.isDigit,
    List.takeWhile_append_dropWhile.symm, fun c member => List.mem_takeWhile_imp member, ?_⟩
  intro c first
  have kept := List.head?_dropWhile_not Char.isDigit cs
  rw [Option.mem_def.mp first] at kept
  simpa using kept

theorem natural?_eq_some_iff {cs : List Char} {n : Nat} :
    natural? cs = some n ↔ IsDigits cs ∧ valueOf cs = n := by
  -- what is read is the whole run of digits at the front; anything behind it is a refusal
  obtain ⟨ds, rest, rfl, digits, stops⟩ := exists_digits cs
  have taken := takeDigits_append digits stops 0
  cases rest with
  | nil =>
    rw [List.append_nil] at taken ⊢
    cases ds with
    | nil => simp [natural?, IsDigits]
    | cons d ds =>
      simp only [natural?, taken, Option.some.injEq, valueOf]
      exact ⟨fun same => ⟨⟨nofun, digits⟩, same⟩, And.right⟩
  | cons c cs =>
    have other : c.isDigit = false := stops c rfl
    constructor
    · intro read
      unfold natural? at read
      split at read
      · cases read
      · rw [taken] at read
        cases read
    · rintro ⟨⟨-, all⟩, -⟩
      rw [all c (by simp)] at other
      cases other

theorem IsDigits.plain {ds : List Char} (digits : IsDigits ds) {c : Char}
    (other : c.isDigit = false) : c ∉ ds := by
  intro among
  rw [digits.2 c among] at other
  exact absurd other (by decide)

theorem isDigits_toDigits (n : Nat) : IsDigits (Nat.toDigits 10 n) :=
  ⟨Nat.toDigits_ne_nil, fun _ among => Nat.isDigit_of_mem_toDigits (by decide) (by decide) among⟩

theorem isDigits_toString (n : Nat) : IsDigits (toString n).toList := by
  rw [Nat.toString_eq_repr, Nat.toList_repr]
  exact isDigits_toDigits n

theorem valueOf_toString (n : Nat) : valueOf (toString n).toList = n := by
  rw [Nat.toString_eq_repr, Nat.toList_repr]
  exact Nat.ofDigitChars_ten_toDigits

theorem takeSign_cases (cs : List Char) :
    (∃ more, cs = '-' :: more ∧ takeSign cs = (true, more)) ∨
      (∃ more, cs = '+' :: more ∧ takeSign cs = (false, more)) ∨
      takeSign cs = (false, cs) := by
  fun_cases takeSign cs with
  | case1 more => exact .inl ⟨more, rfl, rfl⟩
  | case2 more => exact .inr (.inl ⟨more, rfl, rfl⟩)
  | case3 => exact .inr (.inr rfl)

theorem takeSign_plain {cs : List Char} (minus : cs.head? ≠ some '-') (plus : cs.head? ≠ some '+') :
    takeSign cs = (false, cs) := by
  rcases takeSign_cases cs with ⟨more, rfl, -⟩ | ⟨more, rfl, -⟩ | plain
  · exact absurd rfl minus
  · exact absurd rfl plus
  · exact plain

theorem IsDigits.head? {ds : List Char} (digits : IsDigits ds) {c : Char}
    (other : c.isDigit = false) (more : List Char) : (ds ++ more).head? ≠ some c := by
  obtain ⟨d, ds, rfl⟩ := List.exists_cons_of_ne_nil digits.1
  rintro ⟨⟩
  exact digits.plain other List.mem_cons_self

theorem integer_iff {cs : List Char} {i : Int} :
    (natural? (takeSign cs).2).map (fun n : Nat => if (takeSign cs).1 then -(n : Int) else n) =
      some i ↔ IsInteger cs i := by
  rw [Option.map_eq_some_iff]
  constructor
  · rintro ⟨n, read, rfl⟩
    obtain ⟨digits, rfl⟩ := natural?_eq_some_iff.mp read
    rcases takeSign_cases cs with ⟨more, rfl, sign⟩ | ⟨more, rfl, sign⟩ | sign <;>
      rw [sign] at digits ⊢
    · exact .minus digits
    · exact .plus digits
    · exact .plain digits
  · intro integer
    cases integer with
    | plain digits =>
      have sign := takeSign_plain (digits.head? (by decide) []) (digits.head? (by decide) [])
      rw [List.append_nil] at sign
      rw [sign]
      exact ⟨_, natural?_eq_some_iff.mpr ⟨digits, rfl⟩, rfl⟩
    | plus digits => exact ⟨_, natural?_eq_some_iff.mpr ⟨digits, rfl⟩, rfl⟩
    | minus digits => exact ⟨_, natural?_eq_some_iff.mpr ⟨digits, rfl⟩, rfl⟩

theorem IsInteger.unique {cs : List Char} {i j : Int} (first : IsInteger cs i)
    (second : IsInteger cs j) : i = j :=
  Option.some.inj ((integer_iff.mpr first).symm.trans (integer_iff.mpr second))

theorem integerWithin?_eq_some_iff {least greatest i : Int} {s : String} :
    integerWithin? least greatest s = some i ↔
      IsInteger s.toList i ∧ least ≤ i ∧ i ≤ greatest := by
  rw [← integer_iff]
  simp only [integerWithin?]
  cases natural? (takeSign s.toList).2 with
  | none => simp
  | some n =>
    simp only [Option.map_some, Option.some.injEq]
    generalize (if (takeSign s.toList).1 then -(n : Int) else n) = j
    by_cases inside : least ≤ j ∧ j ≤ greatest
    · simp only [inside, decide_true, Bool.and_true, if_true, Option.some.injEq]
      exact ⟨fun same => ⟨same, same ▸ inside⟩, And.left⟩
    · simp only [Bool.and_eq_true, decide_eq_true_eq, if_neg inside]
      exact ⟨nofun, fun ⟨same, within⟩ => absurd (same ▸ within) inside⟩

def IsInt64 (i : Int) : Prop := -0x8000000000000000 ≤ i ∧ i ≤ 0x7FFFFFFFFFFFFFFF

instance (i : Int) : Decidable (IsInt64 i) := inferInstanceAs (Decidable (_ ∧ _))

theorem int64?_eq_some_iff {i : Int} {s : String} :
    int64? s = some i ↔ IsInteger s.toList i ∧ IsInt64 i :=
  integerWithin?_eq_some_iff

theorem exponentPart?_eq_some_iff {cs : List Char} {e : Int} :
    exponentPart? cs = some e ↔ IsExponent cs e := by
  cases cs with
  | nil =>
    rw [exponentPart?, Option.some.injEq]
    constructor
    · rintro rfl
      exact .absent
    · rintro ⟨⟩
      rfl
  | cons c cs =>
    by_cases mark : c = 'e' ∨ c = 'E'
    · have read : exponentPart? (c :: cs) = (natural? (takeSign cs).2).map
          fun n : Nat => if (takeSign cs).1 then -(n : Int) else n := by
        simp only [exponentPart?, Bool.or_eq_true, beq_iff_eq, if_pos mark]
        cases natural? (takeSign cs).2 <;> rfl
      rw [read, integer_iff]
      constructor
      · exact .marked mark
      · intro exponent
        cases exponent with
        | marked _ integer => exact integer
    · simp only [exponentPart?, Bool.or_eq_true, beq_iff_eq, if_neg mark]
      constructor
      · intro read
        cases read
      · intro exponent
        cases exponent with
        | marked is _ => exact absurd is mark

theorem IsExponent.stops {cs : List Char} {e : Int} (exponent : IsExponent cs e) : Stops cs := by
  cases exponent with
  | absent => exact nofun
  | marked mark => rcases mark with rfl | rfl <;> rintro _ ⟨rfl⟩ <;> rfl

theorem IsExponent.pointless {cs : List Char} {e : Int} (exponent : IsExponent cs e) :
    cs.head? ≠ some '.' := by
  cases exponent with
  | absent => exact nofun
  | marked mark => rcases mark with rfl | rfl <;> exact nofun

theorem unsigned?_whole {ds cs : List Char} (digits : ∀ c ∈ ds, c.isDigit = true)
    (stops : Stops cs) (pointless : cs.head? ≠ some '.') :
    unsigned? (ds ++ cs) =
      if ds = [] then none else (exponentPart? cs).map fun e => nearest (valueOf ds) e := by
  have count : (ds ++ cs).length - cs.length = ds.length := by simp
  simp only [unsigned?, takeDigits_append digits stops 0, count]
  split
  · exact absurd rfl pointless
  · simp only [beq_iff_eq, List.length_eq_zero_iff]
    rfl

theorem unsigned?_pointed {ds fraction cs : List Char}
    (digits : ∀ c ∈ ds ++ fraction, c.isDigit = true) (stops : Stops cs) :
    unsigned? (ds ++ '.' :: (fraction ++ cs)) =
      if ds ++ fraction = [] then none
      else (exponentPart? cs).map fun e => nearest (valueOf (ds ++ fraction)) (e - fraction.length) := by
  obtain ⟨whole, behind⟩ := List.forall_mem_append.mp digits
  have point : Stops ('.' :: (fraction ++ cs)) := by
    rintro _ ⟨rfl⟩
    rfl
  have count : (ds ++ '.' :: (fraction ++ cs)).length - ('.' :: (fraction ++ cs)).length =
      ds.length := by simp
  have places : (fraction ++ cs).length - cs.length = fraction.length := by simp
  simp only [unsigned?, takeDigits_append whole point 0, takeDigits_append behind stops, count,
    places, beq_iff_eq, Nat.add_eq_zero_iff, List.length_eq_zero_iff, List.append_eq_nil_iff,
    valueOf, Nat.ofDigitChars_append]

theorem unsigned?_eq_some_iff {cs : List Char} {x : Float} :
    unsigned? cs = some x ↔
      ∃ coefficient e, IsUnsigned cs coefficient e ∧ nearest coefficient e = x := by
  constructor
  · intro read
    obtain ⟨ds, rest, rfl, digits, stops⟩ := exists_digits cs
    by_cases point : rest.head? = some '.'
    · obtain ⟨behind, rfl⟩ := List.head?_eq_some_iff.mp point
      obtain ⟨fraction, tail, rfl, more, stops⟩ := exists_digits behind
      have all := List.forall_mem_append.mpr ⟨digits, more⟩
      rw [unsigned?_pointed all stops] at read
      split at read
      · cases read
      · rename_i some
        obtain ⟨e, exponent, rfl⟩ := Option.map_eq_some_iff.mp read
        exact ⟨_, _, .pointed ⟨some, all⟩ (exponentPart?_eq_some_iff.mp exponent), rfl⟩
    · rw [unsigned?_whole digits stops point] at read
      split at read
      · cases read
      · rename_i some
        obtain ⟨e, exponent, rfl⟩ := Option.map_eq_some_iff.mp read
        exact ⟨_, _, .whole ⟨some, digits⟩ (exponentPart?_eq_some_iff.mp exponent), rfl⟩
  · rintro ⟨_, _, unsigned, rfl⟩
    cases unsigned with
    | whole digits exponent =>
      rw [unsigned?_whole digits.2 exponent.stops exponent.pointless, if_neg digits.1,
        exponentPart?_eq_some_iff.mpr exponent]
      rfl
    | pointed digits exponent =>
      rw [unsigned?_pointed digits.2 exponent.stops, if_neg digits.1,
        exponentPart?_eq_some_iff.mpr exponent]
      rfl

theorem lower_first {c : Char} {cs : List Char} {word : String} (small : c.toNat < 'A'.toNat)
    (lower : (String.ofList (c :: cs)).toLower = word) : word.toList.head? = some c := by
  have kept : c.toLower = c := by
    unfold Char.toLower
    rw [dif_neg]
    rintro ⟨upper, -⟩
    exact absurd (UInt32.le_iff_toNat_le.mp upper) (by simpa using small)
  rw [← lower]
  change (String.map Char.toLower (String.ofList (c :: cs))).toList.head? = some c
  rw [String.toList_map, String.toList_ofList, List.map_cons, kept]
  rfl

theorem IsUnsigned.first {cs : List Char} {coefficient : Nat} {e : Int}
    (unsigned : IsUnsigned cs coefficient e) :
    ∃ c more, cs = c :: more ∧ (c.isDigit = true ∨ c = '.') := by
  cases unsigned with
  | whole digits =>
    obtain ⟨c, more, rfl⟩ := List.exists_cons_of_ne_nil digits.1
    exact ⟨c, _, List.cons_append, .inl (digits.2 c List.mem_cons_self)⟩
  | @pointed ds _ _ _ digits =>
    cases ds with
    | nil => exact ⟨'.', _, rfl, .inr rfl⟩
    | cons c more => exact ⟨c, _, List.cons_append, .inl (digits.2 c List.mem_cons_self)⟩

def startsAtLetter (word : String) : Bool := word.toList.head?.all fun c => 'A'.toNat ≤ c.toNat

theorem lower_ne {c : Char} (small : c.toNat < 'A'.toNat) (cs : List Char) {word : String}
    (letter : startsAtLetter word) :
    (String.ofList (c :: cs)).toLower ≠ word := by
  intro lower
  rw [startsAtLetter, lower_first small lower] at letter
  exact absurd small (Nat.not_lt.mpr (of_decide_eq_true letter))

theorem digit_small {c : Char} (digit : c.isDigit = true) : c.toNat < 'A'.toNat := by
  rw [Char.isDigit, Bool.and_eq_true] at digit
  have most : c.toNat ≤ '9'.toNat := UInt32.le_iff_toNat_le.mp (of_decide_eq_true digit.2)
  exact Nat.lt_of_le_of_lt most (by decide)

theorem IsUnsigned.lower_ne {cs : List Char} {coefficient : Nat} {e : Int}
    (unsigned : IsUnsigned cs coefficient e) {word : String}
    (letter : startsAtLetter word) :
    (String.ofList cs).toLower ≠ word := by
  obtain ⟨c, more, rfl, digit | rfl⟩ := unsigned.first
  · exact Decimal.lower_ne (digit_small digit) more letter
  · exact Decimal.lower_ne (by decide) more letter

theorem size_iff {cs : List Char} {x : Float} :
    (if (String.ofList cs).toLower == "inf" || (String.ofList cs).toLower == "infinity" then
        some (1.0 / 0.0)
      else if (String.ofList cs).toLower == "nan" then some (0.0 / 0.0)
      else unsigned? cs) = some x ↔ IsSize cs x := by
  simp only [Bool.or_eq_true, beq_iff_eq]
  constructor
  · intro read
    split at read
    · rename_i word
      cases read
      exact .infinite word
    · split at read
      · rename_i word
        cases read
        exact .undefined word
      · obtain ⟨coefficient, e, unsigned, rfl⟩ := unsigned?_eq_some_iff.mp read
        exact .number unsigned
  · intro size
    cases size with
    | number unsigned =>
      have inf : (String.ofList cs).toLower ≠ "inf" := unsigned.lower_ne (by decide)
      have infinity : (String.ofList cs).toLower ≠ "infinity" := unsigned.lower_ne (by decide)
      rw [if_neg (by simp [inf, infinity]), if_neg (unsigned.lower_ne (by decide))]
      exact unsigned?_eq_some_iff.mpr ⟨_, _, unsigned, rfl⟩
    | infinite word => rw [if_pos word]
    | undefined word => simp [word]

theorem not_isSize_sign {cs : List Char} {x : Float} {sign : Char}
    (is_sign : sign = '-' ∨ sign = '+') : ¬IsSize (sign :: cs) x := by
  have small : sign.toNat < 'A'.toNat := by rcases is_sign with rfl | rfl <;> decide
  intro size
  cases size with
  | number unsigned =>
    obtain ⟨c, more, same, other⟩ := unsigned.first
    cases same
    rcases is_sign with rfl | rfl <;> revert other <;> decide
  | infinite word =>
    exact word.elim (lower_ne small cs (by decide)) (lower_ne small cs (by decide))
  | undefined word => exact lower_ne small cs (by decide) word

theorem float?_eq_some_iff {s : String} {x : Float} :
    float? s = some x ↔ IsDecimal s.toList x := by
  have read : float? s = some x ↔ ∃ y, IsSize (takeSign s.toList).2 y ∧
      (if (takeSign s.toList).1 then -y else y) = x := by
    simp only [float?, Option.map_eq_some_iff, size_iff]
  rw [read]
  generalize s.toList = cs
  constructor
  · rintro ⟨y, size, rfl⟩
    rcases takeSign_cases cs with ⟨more, rfl, sign⟩ | ⟨more, rfl, sign⟩ | sign <;>
      rw [sign] at size ⊢
    · exact .minus size
    · exact .plus size
    · exact .plain size
  · intro decimal
    cases decimal with
    | plain size =>
      -- no size starts with a sign, so none was taken off
      rcases takeSign_cases cs with ⟨more, rfl, -⟩ | ⟨more, rfl, -⟩ | sign
      · exact absurd size (not_isSize_sign (.inl rfl))
      · exact absurd size (not_isSize_sign (.inr rfl))
      · rw [sign]
        exact ⟨x, size, rfl⟩
    | plus size => exact ⟨x, size, rfl⟩
    | minus size => exact ⟨_, size, rfl⟩

theorem IsDecimal.unique {s : String} {x y : Float} (first : IsDecimal s.toList x)
    (second : IsDecimal s.toList y) : x = y :=
  Option.some.inj ((float?_eq_some_iff.mpr first).symm.trans (float?_eq_some_iff.mpr second))

def nearestTo (i : Int) : Float := if i < 0 then -nearest i.natAbs 0 else nearest i.natAbs 0

theorem IsDigits.size {ds : List Char} (digits : IsDigits ds) : IsSize ds (nearest (valueOf ds) 0) := by
  have unsigned := IsUnsigned.whole digits .absent
  rw [List.append_nil] at unsigned
  exact .number unsigned

theorem IsInteger.decimal {cs : List Char} {i : Int} (integer : IsInteger cs i) (nonzero : i ≠ 0) :
    IsDecimal cs (nearestTo i) := by
  cases integer with
  | plain digits =>
    rw [nearestTo, if_neg (by omega), Int.natAbs_natCast]
    exact .plain digits.size
  | plus digits =>
    rw [nearestTo, if_neg (by omega), Int.natAbs_natCast]
    exact .plus digits.size
  | minus digits =>
    rw [nearestTo, if_pos (by omega), Int.natAbs_neg, Int.natAbs_natCast]
    exact .minus digits.size

theorem IsInteger.lower_ne {t word : String} {i : Int} (integer : IsInteger t.toList i)
    (letter : startsAtLetter word) : t.toLower ≠ word := by
  obtain ⟨cs, rfl⟩ : ∃ cs, t = String.ofList cs := ⟨t.toList, String.ofList_toList.symm⟩
  rw [String.toList_ofList] at integer
  cases integer with
  | plain digits =>
    obtain ⟨c, more, rfl⟩ := List.exists_cons_of_ne_nil digits.1
    exact Decimal.lower_ne (digit_small (digits.2 c List.mem_cons_self)) more letter
  | plus => exact Decimal.lower_ne (by decide) _ letter
  | minus => exact Decimal.lower_ne (by decide) _ letter

theorem IsDecimal.lower_ne {t word : String} {x : Float} (decimal : IsDecimal t.toList x)
    (letter : startsAtLetter word)
    (other : word ≠ "inf" ∧ word ≠ "infinity" ∧ word ≠ "nan") : t.toLower ≠ word := by
  obtain ⟨cs, rfl⟩ : ∃ cs, t = String.ofList cs := ⟨t.toList, String.ofList_toList.symm⟩
  rw [String.toList_ofList] at decimal
  obtain ⟨inf, infinity, nan⟩ := other
  cases decimal with
  | plain size =>
    cases size with
    | number unsigned => exact unsigned.lower_ne letter
    | infinite is =>
      rcases is with is | is <;> rw [is]
      · exact inf.symm
      · exact infinity.symm
    | undefined is =>
      rw [is]
      exact nan.symm
  | plus => exact Decimal.lower_ne (by decide) _ letter
  | minus => exact Decimal.lower_ne (by decide) _ letter

end TenantGate.Decimal
