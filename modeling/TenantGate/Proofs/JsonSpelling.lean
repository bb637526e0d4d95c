import TenantGate.Proofs.JsonReading

/-!
Strings in any spelling. The inside of a string is a sequence of tokens: characters that stand for
themselves, escapes of one letter and escapes by number, the last two in pairs for characters beyond
U+FFFF. What the tokens mean is what the reader makes of them, tokens without a meaning are refused,
and nothing but tokens is read.
-/
namespace TenantGate.Json

open Utf8

variable {α : Type}

/-- The result has taken a value off the front of the rest, or it is a fault if there is none. -/
def Leads (r : Except Fault (α × Cursor)) (rest : List UInt8) : Option α → Prop
  | some a => ∃ place, r = .ok (a, ⟨rest, place⟩)
  | none => ∃ fault, r = .error fault

theorem leads_ok (a : α) (rest : List UInt8) (place : Place) :
    Leads (.ok (a, ⟨rest, place⟩)) rest (some a) :=
  ⟨place, rfl⟩

def readEscapes : List (Char × Char) := ('/', '/') :: shortEscapes

inductive Token where
  | plain (c : Char) (unescaped : isEscaped c = false)
  | short (letter c : Char) (listed : (letter, c) ∈ readEscapes)
  | number (w x y z : UInt8) (n : Nat) (digits : hex4? w x y z = some n)

def Token.bytes : Token → List UInt8
  | .plain c _ => String.utf8EncodeChar c
  | .short letter _ _ => 0x5C :: String.utf8EncodeChar letter
  | .number w x y z _ _ => [0x5C, 0x75, w, x, y, z]

def spelled (tokens : List Token) : List UInt8 := tokens.flatMap Token.bytes

def quoted (tokens : List Token) : List UInt8 := 0x22 :: spelled tokens ++ [0x22]

def isLeading (n : Nat) : Bool := 0xD800 ≤ n && n ≤ 0xDBFF

def isTrailing (n : Nat) : Bool := 0xDC00 ≤ n && n ≤ 0xDFFF

def ofHalves (leading trailing : Nat) : Char :=
  Char.ofNat ((leading - 0xD800) * 0x400 + (trailing - 0xDC00) + 0x10000)

/-- The characters that tokens stand for. Halves of surrogate pairs must stand side by side. -/
def meaning : List Token → Option (List Char)
  | [] => some []
  | .plain c _ :: more => (meaning more).map (c :: ·)
  | .short _ c _ :: more => (meaning more).map (c :: ·)
  | .number _ _ _ _ n _ :: more =>
    if isTrailing n then none
    else if isLeading n then
      match more with
      | .number _ _ _ _ m _ :: more =>
        if isTrailing m then (meaning more).map (ofHalves n m :: ·) else none
      | _ => none
    else (meaning more).map (Char.ofNat n :: ·)

def textOf (tokens : List Token) : Option String := (meaning tokens).map String.ofList

theorem spelled_cons (token : Token) (tokens : List Token) :
    spelled (token :: tokens) = token.bytes ++ spelled tokens := List.flatMap_cons

section Escapes

theorem readEscape_letter {letter c : Char} (listed : (letter, c) ∈ readEscapes) (place : Place)
    (more : List UInt8) :
    ∃ e : Escape (String.utf8EncodeChar letter ++ more),
      readEscape place (String.utf8EncodeChar letter ++ more) = .ok e ∧ e.char = c ∧
        e.rest = more := by
  rcases List.mem_cons.mp listed with slash | short
  · obtain ⟨rfl, rfl⟩ := Prod.mk.inj slash
    exact ⟨_, rfl, rfl, rfl⟩
  · exact readEscape_short short place more

variable {w x y z : UInt8} {n : Nat} (digits : hex4? w x y z = some n)
include digits

theorem readEscape_digits (place : Place) (more : List UInt8) :
    readEscape place (0x75 :: w :: x :: y :: z :: more) =
      if isTrailing n then .error ⟨.loneSurrogate, (place.after 0x75).afterAll [w, x, y, z], []⟩
      else if isLeading n then
        match readTrailing n ((place.after 0x75).afterAll [w, x, y, z]) more with
        | .error f => .error f
        | .ok e => .ok ⟨e.char, e.place, e.rest, length_le_of_behind e.shorter _ w x y z⟩
      else
        .ok ⟨Char.ofNat n, (place.after 0x75).afterAll [w, x, y, z], more,
          length_le_of_behind (Nat.le_refl _) _ w x y z⟩ := by
  simp only [readEscape, digits]
  rfl

theorem readEscape_lone (trailing : isTrailing n = true) (place : Place) (more : List UInt8) :
    ∃ fault, readEscape place (0x75 :: w :: x :: y :: z :: more) = .error fault := by
  rw [readEscape_digits digits, if_pos trailing]
  exact ⟨_, rfl⟩

theorem readEscape_single (trailing : isTrailing n = false) (leading : isLeading n = false)
    (place : Place) (more : List UInt8) :
    ∃ e : Escape (0x75 :: w :: x :: y :: z :: more),
      readEscape place (0x75 :: w :: x :: y :: z :: more) = .ok e ∧ e.char = Char.ofNat n ∧
        e.rest = more := by
  rw [readEscape_digits digits, if_neg (by rw [trailing]; decide), if_neg (by rw [leading]; decide)]
  exact ⟨_, rfl, rfl, rfl⟩

theorem readEscape_pair {more : List UInt8} {e : Escape more} (trailing : isTrailing n = false)
    (leading : isLeading n = true) {place : Place}
    (paired : readTrailing n ((place.after 0x75).afterAll [w, x, y, z]) more = .ok e) :
    ∃ e' : Escape (0x75 :: w :: x :: y :: z :: more),
      readEscape place (0x75 :: w :: x :: y :: z :: more) = .ok e' ∧ e'.char = e.char ∧
        e'.rest = e.rest := by
  rw [readEscape_digits digits, if_neg (by rw [trailing]; decide), if_pos leading, paired]
  exact ⟨_, rfl, rfl, rfl⟩

theorem readEscape_unpaired {more : List UInt8} {fault : Fault} (trailing : isTrailing n = false)
    (leading : isLeading n = true) {place : Place}
    (unpaired : readTrailing n ((place.after 0x75).afterAll [w, x, y, z]) more = .error fault) :
    readEscape place (0x75 :: w :: x :: y :: z :: more) = .error fault := by
  rw [readEscape_digits digits, if_neg (by rw [trailing]; decide), if_pos leading, unpaired]

omit digits in
theorem readTrailing_other {leading : Nat} {place : Place} {input : List UInt8}
    (other : ∀ more, input ≠ 0x5C :: 0x75 :: more) :
    ∃ fault, readTrailing leading place input = .error fault := by
  cases input with
  | nil => exact ⟨_, rfl⟩
  | cons b rest =>
    cases rest with
    | nil =>
      rw [readTrailing]
      split <;> exact ⟨_, rfl⟩
    | cons u more =>
      rw [readTrailing]
      split
      · exact ⟨_, rfl⟩
      · rename_i backslash
        obtain rfl : b = 0x5C := by simpa using backslash
        have letter : (u != 0x75) = true := by
          rw [bne_iff_ne]
          rintro rfl
          exact other more rfl
        simp only [letter, ↓reduceIte]
        exact ⟨_, rfl⟩

theorem readTrailing_number (leading : Nat) (place : Place) (more : List UInt8) :
    (isTrailing n = true →
      ∃ e : Escape (0x5C :: 0x75 :: w :: x :: y :: z :: more),
        readTrailing leading place (0x5C :: 0x75 :: w :: x :: y :: z :: more) = .ok e ∧
          e.char = ofHalves leading n ∧ e.rest = more) ∧
    (isTrailing n = false →
      ∃ fault, readTrailing leading place (0x5C :: 0x75 :: w :: x :: y :: z :: more) =
        .error fault) := by
  have backslash : ¬ ((0x5C : UInt8) != 0x5C) = true := by decide
  have letter : ¬ ((0x75 : UInt8) != 0x75) = true := by decide
  constructor
  · intro trailing
    have inside : ¬ (n < 0xDC00 ∨ 0xDFFF < n) := by
      simp only [isTrailing, Bool.and_eq_true, decide_eq_true_eq] at trailing
      omega
    have shorter : more.length ≤ (0x5C :: 0x75 :: w :: x :: y :: z :: more).length :=
      Nat.le_trans (length_le_of_behind (Nat.le_refl _) 0x75 w x y z) (length_le_cons _ _)
    refine ⟨⟨ofHalves leading n, ((place.after 0x5C).after 0x75).afterAll [w, x, y, z], more,
      shorter⟩, ?_, ?_, rfl⟩
    · simp [readTrailing, digits, inside, ofHalves]
    · dsimp only
  · intro trailing
    have outside : n < 0xDC00 ∨ 0xDFFF < n := by
      simp only [isTrailing, Bool.and_eq_false_iff, decide_eq_false_iff_not] at trailing
      omega
    refine ⟨⟨.loneSurrogate, ((place.after 0x5C).after 0x75).afterAll [w, x, y, z], []⟩, ?_⟩
    simp [readTrailing, digits, outside]

end Escapes

section Strings

theorem readText_fault {read : String} {place : Place} {input : List UInt8} {fault : Fault}
    (escape : readEscape (place.after 0x5C) input = .error fault) :
    readText read place (0x5C :: input) = .error fault := by
  have other : ¬ ((0x5C : UInt8) == 0x22) = true := by decide
  have same : ((0x5C : UInt8) == 0x5C) = true := by decide
  rw [readText, if_neg other, if_pos same, escape]

theorem leads_push {o : Option (List Char)} {c : Char} {read : String} {place place' : Place}
    {bytes input rest : List UInt8}
    (taken : readText read place bytes = readText (read.push c) place' input)
    (later : Leads (readText (read.push c) place' input) rest
      (o.map fun cs => read.push c ++ String.ofList cs)) :
    Leads (readText read place bytes) rest
      ((o.map (c :: ·)).map fun cs => read ++ String.ofList cs) := by
  rw [taken, Option.map_map]
  have same : ((fun cs => read ++ String.ofList cs) ∘ fun cs => c :: cs) =
      fun cs => read.push c ++ String.ofList cs := by
    funext cs
    rw [Function.comp_apply, String.push_eq_append, String.append_assoc, ← String.ofList_cons]
  rw [same]
  exact later

theorem byte_of_letter {letter c : Char} (listed : (letter, c) ∈ readEscapes) :
    ∃ b, String.utf8EncodeChar letter = [b] ∧ b ≠ 0x75 ∧ isShortEscape b = true := by
  simp only [readEscapes, shortEscapes, List.mem_cons, List.not_mem_nil, or_false,
    Prod.mk.injEq] at listed
  rcases listed with ⟨rfl, _⟩ | ⟨rfl, _⟩ | ⟨rfl, _⟩ | ⟨rfl, _⟩ | ⟨rfl, _⟩ | ⟨rfl, _⟩ | ⟨rfl, _⟩ |
    ⟨rfl, _⟩ <;> exact ⟨_, rfl, by decide, by decide⟩

theorem spelled_other {tokens : List Token}
    (other : ∀ w x y z n digits more, tokens ≠ .number w x y z n digits :: more)
    (rest more : List UInt8) : spelled tokens ++ 0x22 :: rest ≠ 0x5C :: 0x75 :: more := by
  intro same
  cases tokens with
  | nil => exact absurd (List.cons.inj same).1 (by decide)
  | cons token tokens =>
    rw [spelled_cons, List.append_assoc] at same
    cases token with
    | number w x y z n digits => exact other w x y z n digits tokens rfl
    | plain c unescaped =>
      obtain ⟨b, tail, bytes, _⟩ := next_encodeChar c []
      rw [Token.bytes, bytes] at same
      have among : b ∈ String.utf8EncodeChar c := bytes ▸ List.mem_cons_self
      exact (byte_of_unescaped unescaped among).2.1 (List.cons.inj same).1
    | short letter c listed =>
      obtain ⟨b, bytes, letter', _⟩ := byte_of_letter listed
      rw [Token.bytes, bytes] at same
      exact letter' (List.cons.inj (List.cons.inj same).2).1

theorem readText_tokens (tokens : List Token) (read : String) (place : Place)
    (rest : List UInt8) :
    Leads (readText read place (spelled tokens ++ 0x22 :: rest)) rest
      ((meaning tokens).map fun cs => read ++ String.ofList cs) := by
  fun_induction meaning tokens generalizing read place with
  | case1 =>
    rw [spelled, List.flatMap_nil, List.nil_append, readText_quote, Option.map_some,
      String.ofList_nil, String.append_empty]
    exact leads_ok read rest _
  | case2 c unescaped more ih =>
    rw [spelled_cons, Token.bytes, List.append_assoc]
    obtain ⟨place', taken⟩ := readText_unescaped unescaped read place (spelled more ++ 0x22 :: rest)
    exact leads_push taken (ih (read.push c) place')
  | case3 letter c listed more ih =>
    rw [spelled_cons, Token.bytes, List.append_assoc, List.cons_append]
    obtain ⟨e, escape, shown, behind⟩ :=
      readEscape_letter listed (place.after 0x5C) (spelled more ++ 0x22 :: rest)
    have taken := @readText_escape read _ _ _ escape
    rw [shown, behind] at taken
    exact leads_push taken (ih (read.push c) e.place)
  | case4 w x y z n digits more trailing =>
    obtain ⟨fault, escape⟩ := readEscape_lone digits trailing (place.after 0x5C)
      (spelled more ++ 0x22 :: rest)
    exact ⟨fault, readText_fault escape⟩
  | case5 w x y z n digits trailing leading w' x' y' z' m digits' more paired ih =>
    rw [spelled_cons, spelled_cons, Token.bytes, Token.bytes, List.append_assoc, List.append_assoc]
    obtain ⟨e, second, shown, behind⟩ := (readTrailing_number digits' n
      (((place.after 0x5C).after 0x75).afterAll [w, x, y, z])
      (spelled more ++ 0x22 :: rest)).1 paired
    obtain ⟨e', escape, shown', behind'⟩ :=
      readEscape_pair digits (by simpa using trailing) leading second
    have taken := @readText_escape read _ _ _ escape
    rw [shown', shown, behind', behind] at taken
    exact leads_push taken (ih (read.push (ofHalves n m)) e'.place)
  | case6 w x y z n digits trailing leading w' x' y' z' m digits' more unpaired =>
    rw [spelled_cons, spelled_cons, Token.bytes, Token.bytes, List.append_assoc, List.append_assoc]
    obtain ⟨fault, second⟩ := (readTrailing_number digits' n
      (((place.after 0x5C).after 0x75).afterAll [w, x, y, z])
      (spelled more ++ 0x22 :: rest)).2 (by simpa using unpaired)
    exact ⟨fault, readText_fault
      (readEscape_unpaired digits (by simpa using trailing) leading second)⟩
  | case7 w x y z n digits more trailing leading lone =>
    rw [spelled_cons, Token.bytes, List.append_assoc]
    obtain ⟨fault, second⟩ := @readTrailing_other n
      (((place.after 0x5C).after 0x75).afterAll [w, x, y, z]) (spelled more ++ 0x22 :: rest)
      (spelled_other lone rest)
    exact ⟨fault, readText_fault
      (readEscape_unpaired digits (by simpa using trailing) leading second)⟩
  | case8 w x y z n digits more trailing leading ih =>
    rw [spelled_cons, Token.bytes, List.append_assoc]
    obtain ⟨e, escape, shown, behind⟩ := readEscape_single digits (by simpa using trailing)
      (by simpa using leading) (place.after 0x5C) (spelled more ++ 0x22 :: rest)
    have taken := @readText_escape read _ _ _ escape
    rw [shown, behind] at taken
    exact leads_push taken (ih (read.push (Char.ofNat n)) e.place)

theorem readText_spelled (tokens : List Token) (place : Place) (rest : List UInt8) :
    Leads (readText "" place (spelled tokens ++ 0x22 :: rest)) rest (textOf tokens) := by
  have read := readText_tokens tokens "" place rest
  have same : (fun cs => "" ++ String.ofList cs) = String.ofList := by
    funext cs
    rw [String.empty_append]
  rwa [same] at read

theorem token_of_char (c : Char) : ∃ token : Token, token.bytes = bytesOf (escapeChars c) ∧
    ∀ more, meaning (token :: more) = (meaning more).map (c :: ·) := by
  have backslash : String.utf8EncodeChar '\\' = [0x5C] := rfl
  cases escaped : isEscaped c with
  | false =>
    refine ⟨.plain c escaped, ?_, fun _ => rfl⟩
    rw [escapeChars_plain escaped]
    exact (List.append_nil _).symm
  | true =>
    rcases escapeChars_cases escaped with ⟨letter, listed, written⟩ | ⟨small, written⟩
    · refine ⟨.short letter c (List.mem_cons_of_mem _ listed), ?_, fun _ => rfl⟩
      rw [written, bytesOf_cons, backslash]
      exact congrArg (0x5C :: ·) (List.append_nil _).symm
    · refine ⟨.number _ _ _ _ c.toNat (hex4?_hexDigit c.toNat small), ?_, ?_⟩
      · have high := hexDigit_ascii (c.toNat / 16) (by omega)
        have low := hexDigit_ascii (c.toNat % 16) (by omega)
        have letter : String.utf8EncodeChar 'u' = [0x75] := rfl
        have zero : String.utf8EncodeChar '0' = [0x30] := rfl
        rw [written]
        simp only [Token.bytes, bytesOf, List.flatMap_cons, List.flatMap_nil, backslash, letter,
          zero, encodeChar_ascii high, encodeChar_ascii low, List.append_nil, List.cons_append,
          List.nil_append]
      · intro more
        have trailing : ¬ isTrailing c.toNat = true := by simp [isTrailing]; omega
        have leading : ¬ isLeading c.toNat = true := by simp [isLeading]; omega
        rw [meaning.eq_def]
        simp only [if_neg trailing, if_neg leading, Char.ofNat_toNat]

theorem quoted_of_text (s : String) :
    ∃ tokens, encode (stringText s) = quoted tokens ∧ textOf tokens = some s := by
  have spelling (cs : List Char) : ∃ tokens,
      spelled tokens = bytesOf (cs.flatMap escapeChars) ∧ meaning tokens = some cs := by
    induction cs with
    | nil => exact ⟨[], rfl, rfl⟩
    | cons c cs ih =>
      obtain ⟨token, bytes, stands⟩ := token_of_char c
      obtain ⟨tokens, rest, means⟩ := ih
      refine ⟨token :: tokens, ?_, ?_⟩
      · rw [spelled_cons, bytes, rest, List.flatMap_cons, bytesOf_append]
      · rw [stands, means, Option.map_some]
  obtain ⟨tokens, bytes, means⟩ := spelling s.toList
  refine ⟨tokens, ?_, ?_⟩
  · rw [encode_stringText, quoted, bytes]
  · rw [textOf, means, Option.map_some, String.ofList_toList]

end Strings

section Backwards

/-- The bytes are tokens that stand for the character, and the rest. -/
def StandsFor (bytes : List UInt8) (c : Char) (rest : List UInt8) : Prop :=
  ∃ tokens, bytes = spelled tokens ++ rest ∧
    ∀ more, meaning (tokens ++ more) = (meaning more).map (c :: ·)

theorem standsFor_short {letter c : Char} (listed : (letter, c) ∈ readEscapes)
    (rest : List UInt8) :
    StandsFor (0x5C :: (String.utf8EncodeChar letter ++ rest)) c rest := by
  refine ⟨[.short letter c listed], ?_, fun _ => rfl⟩
  rw [spelled_cons, Token.bytes, spelled, List.flatMap_nil, List.append_nil, List.cons_append]

theorem standsFor_single {w x y z : UInt8} {n : Nat} (digits : hex4? w x y z = some n)
    (trailing : isTrailing n = false) (leading : isLeading n = false) (rest : List UInt8) :
    StandsFor (0x5C :: 0x75 :: w :: x :: y :: z :: rest) (Char.ofNat n) rest := by
  refine ⟨[.number w x y z n digits], rfl, fun more => ?_⟩
  rw [List.singleton_append, meaning.eq_def]
  simp [trailing, leading]

theorem standsFor_pair {w x y z w' x' y' z' : UInt8} {n m : Nat}
    (digits : hex4? w x y z = some n) (digits' : hex4? w' x' y' z' = some m)
    (trailing : isTrailing n = false) (leading : isLeading n = true)
    (paired : isTrailing m = true) (rest : List UInt8) :
    StandsFor (0x5C :: 0x75 :: w :: x :: y :: z :: 0x5C :: 0x75 :: w' :: x' :: y' :: z' :: rest)
      (ofHalves n m) rest := by
  refine ⟨[.number w x y z n digits, .number w' x' y' z' m digits'], rfl, fun more => ?_⟩
  rw [List.cons_append, List.singleton_append, meaning.eq_def]
  simp [trailing, leading, paired]

theorem readTrailing_ok {leading : Nat} {place : Place} {input : List UInt8} {e : Escape input}
    (read : readTrailing leading place input = .ok e) :
    ∃ w x y z n, hex4? w x y z = some n ∧ isTrailing n = true ∧
      input = 0x5C :: 0x75 :: w :: x :: y :: z :: e.rest ∧ e.char = ofHalves leading n := by
  unfold readTrailing at read
  split at read
  · exact absurd read (by simp)
  · split at read <;> exact absurd read (by simp)
  · split at read
    · exact absurd read (by simp)
    · rename_i backslash
      split at read
      · exact absurd read (by simp)
      · rename_i letter
        split at read
        · split at read
          · exact absurd read (by simp)
          · rename_i w x y z rest _ n digits
            split at read
            · exact absurd read (by simp)
            · rename_i inside
              simp only [Except.ok.injEq] at read
              subst read
              simp only [bne_iff_ne, ne_eq, Decidable.not_not] at backslash letter
              subst backslash letter
              have paired : isTrailing n = true := by
                simp only [Bool.or_eq_true, decide_eq_true_eq] at inside
                simp only [isTrailing, Bool.and_eq_true, decide_eq_true_eq]
                omega
              exact ⟨w, x, y, z, n, digits, paired, rfl, by dsimp only [ofHalves]⟩
        · exact absurd read (by simp)

theorem letter_of_short {b : UInt8} (short : isShortEscape b = true) :
    ∃ letter c, (letter, c) ∈ readEscapes ∧ String.utf8EncodeChar letter = [b] := by
  have shown := Text.forall_byte_below
    (fun b => isShortEscape b = true →
      (readEscapes.any fun e => String.utf8EncodeChar e.1 == [b]) = true)
    256 (by decide +kernel) b b.toNat_lt short
  rw [List.any_eq_true] at shown
  obtain ⟨⟨letter, c⟩, listed, own⟩ := shown
  exact ⟨letter, c, listed, by simpa using own⟩

theorem readEscape_number {place : Place} {b : UInt8} {rest : List UInt8}
    {e : Escape (b :: rest)} (other : isShortEscape b = false)
    (read : readEscape place (b :: rest) = .ok e) :
    StandsFor (0x5C :: b :: rest) e.char e.rest := by
  simp only [isShortEscape, Bool.or_eq_false_iff] at other
  obtain ⟨⟨⟨⟨⟨⟨⟨quote, backslash⟩, slash⟩, back⟩, feed⟩, line⟩, carriage⟩, tab⟩ := other
  simp only [readEscape, quote, backslash, slash, back, feed, line, carriage, tab,
    Bool.false_eq_true, ↓reduceIte] at read
  split at read
  · rename_i same
    obtain rfl : b = 0x75 := by simpa using same
    split at read
    · rename_i w x y z more
      split at read
      · exact absurd read (by simp)
      · rename_i n digits
        split at read
        · exact absurd read (by simp)
        · rename_i trailing
          have trailing : isTrailing n = false := by simpa [isTrailing] using trailing
          split at read
          · rename_i leading
            split at read
            · exact absurd read (by simp)
            · rename_i e' second
              obtain ⟨w', x', y', z', m, digits', paired, whole, shown⟩ := readTrailing_ok second
              have stands := standsFor_pair digits digits' trailing leading paired e'.rest
              rw [← whole, ← shown] at stands
              rw [← Except.ok.inj read]
              exact stands
          · rename_i leading
            rw [← Except.ok.inj read]
            exact standsFor_single digits trailing (by simpa [isLeading] using leading) more
    · exact absurd read (by simp)
  · exact absurd read (by simp)

theorem readEscape_ok {place : Place} {input : List UInt8} {e : Escape input}
    (read : readEscape place input = .ok e) : StandsFor (0x5C :: input) e.char e.rest := by
  cases input with
  | nil => exact absurd read (by simp [readEscape])
  | cons b rest =>
    cases short : isShortEscape b with
    | false => exact readEscape_number short read
    | true =>
      obtain ⟨letter, c, listed, own⟩ := letter_of_short short
      have stands := standsFor_short listed rest
      have certain := readEscape_letter listed place rest
      rw [own, List.singleton_append] at stands
      rw [own, List.singleton_append] at certain
      obtain ⟨e', read', shown, behind⟩ := certain
      obtain rfl := Except.ok.inj (read'.symm.trans read)
      rwa [shown, behind]

theorem unescaped_of_next {b : UInt8} {rest more : List UInt8} {c : Char} (quote : b ≠ 0x22)
    (backslash : b ≠ 0x5C) (large : ¬ b < 0x20) (taken : next b rest = (some c, more)) :
    isEscaped c = false := by
  have bytes := next_some taken
  cases escaped : isEscaped c with
  | false => rfl
  | true =>
    have small := toNat_lt_of_isEscaped escaped
    rw [encodeChar_ascii (by omega), List.singleton_append] at bytes
    have own := (List.cons.inj bytes).1
    have number : b.toNat = c.toNat := by rw [own, ofNat_toNat_of_lt (by omega)]
    rw [UInt8.lt_iff_toNat_lt] at large
    simp only [isEscaped, Bool.or_eq_true, beq_iff_eq, decide_eq_true_eq] at escaped
    rcases escaped with (rfl | rfl) | control
    · exact absurd own quote
    · exact absurd own backslash
    · exact absurd (number ▸ control) large

theorem readText_ok {read s : String} {place place' : Place} {bytes rest : List UInt8}
    (result : readText read place bytes = .ok (s, ⟨rest, place'⟩)) :
    ∃ tokens cs, bytes = spelled tokens ++ 0x22 :: rest ∧ meaning tokens = some cs ∧
      s = read ++ String.ofList cs := by
  fun_induction readText read place bytes with
  | case1 => exact absurd result (by simp)
  | case2 read place b more quote =>
    simp only [Except.ok.injEq, Prod.mk.injEq, Cursor.mk.injEq] at result
    obtain ⟨rfl, rfl, _⟩ := result
    obtain rfl : b = 0x22 := by simpa using quote
    exact ⟨[], [], rfl, rfl, by rw [String.ofList_nil, String.append_empty]⟩
  | case3 => exact absurd result (by simp)
  | case4 read place b more quote backslash e escape ih =>
    obtain ⟨tokens, cs, rest_eq, means, same⟩ := ih result
    obtain ⟨front, bytes, stands⟩ := readEscape_ok escape
    obtain rfl : b = 0x5C := by simpa using backslash
    refine ⟨front ++ tokens, e.char :: cs, ?_, ?_, ?_⟩
    · rw [bytes, rest_eq, spelled, spelled, spelled, List.flatMap_append, List.append_assoc]
    · rw [stands, means, Option.map_some]
    · rw [same, String.push_eq_append, String.append_assoc, ← String.ofList_cons]
  | case5 => exact absurd result (by simp)
  | case6 read place b more quote backslash large c rest' taken ih =>
    obtain ⟨tokens, cs, rest_eq, means, same⟩ := ih result
    have unescaped := unescaped_of_next (by simpa using quote) (by simpa using backslash) large taken
    refine ⟨.plain c unescaped :: tokens, c :: cs, ?_, ?_, ?_⟩
    · rw [next_some taken, rest_eq, spelled_cons, Token.bytes, List.append_assoc]
    · rw [meaning, means, Option.map_some]
    · rw [same, String.push_eq_append, String.append_assoc, ← String.ofList_cons]
  | case7 => exact absurd result (by simp)

theorem readText_iff (place : Place) (bytes : List UInt8) (s : String) (rest : List UInt8) :
    Leads (readText "" place bytes) rest (some s) ↔
      ∃ tokens, bytes = spelled tokens ++ 0x22 :: rest ∧ textOf tokens = some s := by
  constructor
  · rintro ⟨place', result⟩
    obtain ⟨tokens, cs, bytes, means, rfl⟩ := readText_ok result
    exact ⟨tokens, bytes, by rw [textOf, means, Option.map_some, String.empty_append]⟩
  · rintro ⟨tokens, rfl, own⟩
    rw [← own]
    exact readText_spelled tokens place rest

end Backwards

end TenantGate.Json
