import Mathlib.Data.List.Basic
import Mathlib.Data.List.TakeWhile
import TenantGate.Proofs.Percent
import TenantGate.Tenant.Directory

/-!
The grammar of identifiers. A text is valid exactly if it is a kind, an underscore and a token, and
it is that in one way only. All of it is ASCII and shorter than the longest text that is looked at,
so the limit turns nothing away. What is minted has a token of its own, so it is valid exactly if
the kind is one.
-/
namespace TenantGate.Identifier

open Utf8

structure IsKind (kind : String) : Prop where
  letters : ∀ c ∈ kind.toList, isSmallLetter c = true
  least : 2 ≤ kind.toList.length
  greatest : kind.toList.length ≤ 12

structure IsToken (token : String) : Prop where
  characters : ∀ c ∈ token.toList, isTokenChar c = true
  least : 10 ≤ token.toList.length
  greatest : token.toList.length ≤ 64

structure Splits (s kind token : String) : Prop where
  isKind : IsKind kind
  isToken : IsToken token
  whole : s = kind ++ "_" ++ token

section Characters

theorem isSmallLetter_small {c : Char} (letter : isSmallLetter c = true) : c.toNat < 0x80 := by
  simp only [isSmallLetter, Bool.and_eq_true, decide_eq_true_eq, Char.le_def,
    UInt32.le_iff_toNat_le] at letter
  exact Nat.lt_of_le_of_lt letter.2 (by decide)

theorem isTokenChar_small {c : Char} (token : isTokenChar c = true) : c.toNat < 0x80 := by
  simp only [isTokenChar, Bool.or_eq_true, Bool.and_eq_true, decide_eq_true_eq, Char.le_def,
    UInt32.le_iff_toNat_le] at token
  rcases token with (⟨_, capital⟩ | ⟨_, letter⟩) | ⟨_, digit⟩
  · exact Nat.lt_of_le_of_lt capital (by decide)
  · exact Nat.lt_of_le_of_lt letter (by decide)
  · exact Nat.lt_of_le_of_lt digit (by decide)

theorem hexDigit_isTokenChar : ∀ n < 16, isTokenChar (Json.hexDigit n) = true := by decide

end Characters

section Pattern

theorem toList_split (kind token : String) :
    (kind ++ "_" ++ token).toList = kind.toList ++ '_' :: token.toList := by
  simp only [String.toList_append, List.append_assoc]
  rfl

theorem letters_before {letters token : List Char}
    (each : ∀ c ∈ letters, isSmallLetter c = true) :
    (letters ++ '_' :: token).takeWhile isSmallLetter = letters ∧
      (letters ++ '_' :: token).dropWhile isSmallLetter = '_' :: token := by
  have other : isSmallLetter '_' = false := rfl
  constructor
  · rw [List.takeWhile_append_of_pos each, List.takeWhile_cons_of_neg (by simp [other]),
      List.append_nil]
  · rw [List.dropWhile_append_of_pos each, List.dropWhile_cons_of_neg (by simp [other])]

theorem matchesPattern_iff (s : String) :
    matchesPattern s.toList = true ↔ ∃ kind token, Splits s kind token := by
  constructor
  · intro fits
    have pieces := List.takeWhile_append_dropWhile (p := isSmallLetter) (l := s.toList)
    simp only [matchesPattern] at fits
    split at fits
    · rename_i token behind
      simp only [Bool.and_eq_true, decide_eq_true_eq, List.all_eq_true] at fits
      obtain ⟨⟨⟨⟨least, greatest⟩, characters⟩, short⟩, long⟩ := fits
      refine ⟨String.ofList (s.toList.takeWhile isSmallLetter), String.ofList token,
        ⟨?_, ?_, ?_⟩, ⟨?_, ?_, ?_⟩, ?_⟩
      · rw [String.toList_ofList]
        exact fun c among => List.mem_takeWhile_imp among
      · rwa [String.toList_ofList]
      · rwa [String.toList_ofList]
      · rwa [String.toList_ofList]
      · rwa [String.toList_ofList]
      · rwa [String.toList_ofList]
      · rw [← String.toList_inj, toList_split, String.toList_ofList, String.toList_ofList,
          ← behind, pieces]
    · exact absurd fits (by simp)
  · rintro ⟨kind, token, isKind, isToken, rfl⟩
    obtain ⟨taken, dropped⟩ := @letters_before _ token.toList isKind.letters
    simp only [matchesPattern, toList_split, taken, dropped, Bool.and_eq_true, decide_eq_true_eq,
      List.all_eq_true]
    exact ⟨⟨⟨⟨isKind.least, isKind.greatest⟩, isToken.characters⟩, isToken.least⟩,
      isToken.greatest⟩

theorem IsKind.no_underscore {kind : String} (isKind : IsKind kind) : '_' ∉ kind.toList :=
  fun among => absurd (isKind.letters '_' among) (by decide)

theorem IsToken.no_underscore {token : String} (isToken : IsToken token) : '_' ∉ token.toList :=
  fun among => absurd (isToken.characters '_' among) (by decide)

theorem Splits.unique {s kind token kind' token' : String} (splits : Splits s kind token)
    (whole : s = kind' ++ "_" ++ token') : kind = kind' ∧ token = token' := by
  have same := congrArg String.toList (splits.whole.symm.trans whole)
  rw [toList_split, toList_split, List.append_cons_inj_of_notMem splits.isKind.no_underscore
    splits.isToken.no_underscore] at same
  exact ⟨String.toList_inj.mp same.1, String.toList_inj.mp same.2.2⟩

theorem Splits.last {s kind token : String} {c : Char} (splits : Splits (s.push c) kind token) :
    isTokenChar c = true := by
  have whole := congrArg String.toList splits.whole
  have least := splits.isToken.least
  have characters := splits.isToken.characters
  rw [toList_split, String.toList_push] at whole
  rcases List.eq_nil_or_concat token.toList with none | ⟨front, d, token'⟩
  · rw [none] at least
    exact absurd least (by decide)
  · rw [List.concat_eq_append] at token'
    rw [token', ← List.cons_append, ← List.append_assoc] at whole
    have same := List.singleton_inj.mp (List.append_inj' whole rfl).2
    rw [same]
    exact characters d (token' ▸ List.mem_append_right front List.mem_cons_self)

end Pattern

section Limits

theorem length_encode (s : String) : (encode s).length = s.utf8ByteSize := by
  rw [encode, String.toUTF8_eq_toByteArray, byteArray_toList, Array.length_toList]
  exact String.size_toByteArray

theorem utf8ByteSize_ascii {s : String} (small : ∀ c ∈ s.toList, c.toNat < 0x80) :
    s.utf8ByteSize = s.toList.length := by
  have bytes := encode_ascii s.toList small
  rw [String.ofList_toList] at bytes
  rw [← length_encode, bytes, asciiBytes, List.length_map]

theorem Splits.inLimits {s kind token : String} (splits : Splits s kind token) :
    0 < s.utf8ByteSize ∧ s.utf8ByteSize ≤ greatestLength := by
  obtain ⟨isKind, isToken, rfl⟩ := splits
  have small : ∀ c ∈ (kind ++ "_" ++ token).toList, c.toNat < 0x80 := by
    rw [toList_split]
    intro c among
    rcases List.mem_append.mp among with letter | behind
    · exact isSmallLetter_small (isKind.letters c letter)
    · rcases List.mem_cons.mp behind with rfl | character
      · decide
      · exact isTokenChar_small (isToken.characters c character)
  have least := isKind.least
  have greatest := isKind.greatest
  have most := isToken.greatest
  rw [utf8ByteSize_ascii small, toList_split, List.length_append, List.length_cons]
  exact ⟨by omega, Nat.le_trans (show _ ≤ 77 by omega) (by decide)⟩

theorem isValid_eq (s : String) : isValid s = matchesPattern s.toList := by
  cases fits : matchesPattern s.toList with
  | false => simp only [isValid, fits, Bool.and_false]
  | true =>
    obtain ⟨kind, token, splits⟩ := (matchesPattern_iff s).mp fits
    obtain ⟨filled, short⟩ := splits.inLimits
    simp only [isValid, fits, Bool.and_true, Bool.and_eq_true, bne_iff_ne, decide_eq_true_eq]
    exact ⟨Nat.ne_of_gt filled, short⟩

theorem isValid_iff (s : String) : isValid s = true ↔ ∃ kind token, Splits s kind token := by
  rw [isValid_eq, matchesPattern_iff]

end Limits

section Minting

theorem hexChars_characters (bytes : List UInt8) :
    ∀ c ∈ hexChars bytes, isTokenChar c = true := by
  intro c among
  obtain ⟨b, _, digit⟩ := List.mem_flatMap.mp among
  have small := b.toNat_lt
  simp only [List.mem_cons, List.not_mem_nil, or_false] at digit
  rcases digit with rfl | rfl
  · exact hexDigit_isTokenChar _ (by omega)
  · exact hexDigit_isTokenChar _ (by omega)

theorem length_hexChars (bytes : List UInt8) : (hexChars bytes).length = 2 * bytes.length := by
  induction bytes with
  | nil => rfl
  | cons b bytes ih =>
    rw [hexChars, List.flatMap_cons, List.length_append, ← hexChars, ih, List.length_cons]
    simp only [List.length_cons, List.length_nil]
    omega

theorem isToken_uuid {random : List UInt8} (full : random.length = 16) :
    IsToken (String.ofList (hexChars (uuidBytes random))) := by
  have length : (hexChars (uuidBytes random)).length = 32 := by
    rw [length_hexChars, uuidBytes, List.length_mapIdx, List.length_take, full]
    decide
  constructor
  · rw [String.toList_ofList]
    exact hexChars_characters _
  · rw [String.toList_ofList, length]
    decide
  · rw [String.toList_ofList, length]
    decide

theorem isValid_mint_iff (kind : String) {random : List UInt8} (full : random.length = 16) :
    isValid (mint kind random) = true ↔ IsKind kind := by
  rw [isValid_iff]
  constructor
  · rintro ⟨kind', token, splits⟩
    rw [← (splits.unique rfl).1]
    exact splits.isKind
  · intro isKind
    exact ⟨kind, _, isKind, isToken_uuid full, rfl⟩

end Minting

/-- A text is valid exactly if it is a kind, an underscore and a token, which it is in one way only;
nothing else may stand at its end, the limit of its length makes no difference, and a minted one is
valid exactly if its kind is one. -/
theorem valid_iff_kind_and_token :
    (∀ s, isValid s = true ↔ ∃ kind token, Splits s kind token) ∧
    (∀ s kind token kind' token', Splits s kind token → Splits s kind' token' →
      kind = kind' ∧ token = token') ∧
    (∀ (s : String) c, isTokenChar c = false → isValid (s.push c) = false) ∧
    (∀ s, isValid s = matchesPattern s.toList) ∧
    (∀ kind random, random.length = 16 →
      (isValid (mint kind random) = true ↔ IsKind kind)) := by
  refine ⟨isValid_iff, fun _ _ _ _ _ first second => first.unique second.whole, ?_, isValid_eq,
    fun kind _ full => isValid_mint_iff kind full⟩
  intro s c other
  cases valid : isValid (s.push c) with
  | false => rfl
  | true =>
    obtain ⟨kind, token, splits⟩ := (isValid_iff _).mp valid
    exact absurd (splits.last.symm.trans other) (by decide)

/-- An identifier at both of its upper bounds splits, and no line break may follow it; one that is
minted for a kind with a capital letter is not valid. -/
theorem longest_identifier_splits :
    let kind := "abcdefghijkl"
    let token := String.ofList (List.replicate 64 'Z')
    Splits (kind ++ "_" ++ token) kind token ∧ isValid (kind ++ "_" ++ token) = true ∧
      isTokenChar '\n' = false ∧ isValid ((kind ++ "_" ++ token).push '\n') = false ∧
      (List.replicate 16 (0xAB : UInt8)).length = 16 ∧ ¬ IsKind "Org" ∧
      ¬ isValid (mint "Org" (List.replicate 16 0xAB)) = true := by
  have splits : Splits ("abcdefghijkl" ++ "_" ++ String.ofList (List.replicate 64 'Z'))
      "abcdefghijkl" (String.ofList (List.replicate 64 'Z')) :=
    ⟨⟨List.all_eq_true.mp (by decide), by decide, by decide⟩,
      ⟨List.all_eq_true.mp (by decide), by decide, by decide⟩, rfl⟩
  have capital : ¬ IsKind "Org" := fun isKind => absurd (isKind.letters 'O' (by decide)) (by decide)
  obtain ⟨valid, _, ends, _, minted⟩ := valid_iff_kind_and_token
  have full : (List.replicate 16 (0xAB : UInt8)).length = 16 := rfl
  exact ⟨splits, (valid _).mpr ⟨_, _, splits⟩, rfl, ends _ '\n' rfl, full, capital,
    mt (minted "Org" _ full).mp capital⟩

end TenantGate.Identifier
