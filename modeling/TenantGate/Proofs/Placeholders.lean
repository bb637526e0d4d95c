import Mathlib.Data.List.Basic
import TenantGate.Failure
import TenantGate.Proofs.IdentifierGrammar
import TenantGate.Proofs.Numerals

/-!
Templates of words and numbered placeholders. Putting in one argument turns a template into another
one, in which the words of the argument stand for its placeholder. So as long as no argument has a
brace, no argument is seen by those after it, and filling is substitution all at once.
-/
namespace TenantGate.Text

structure Plain (s : String) : Prop where
  unopened : '\x7b' ∉ s.toList
  unclosed : '\x7d' ∉ s.toList

instance (s : String) : Decidable (Plain s) :=
  decidable_of_iff ('\x7b' ∉ s.toList ∧ '\x7d' ∉ s.toList)
    ⟨fun both => ⟨both.1, both.2⟩, fun plain => ⟨plain.unopened, plain.unclosed⟩⟩

inductive Piece where
  | words (s : String) (plain : Plain s)
  | slot (number : Nat)

namespace Piece

def text : Piece → String
  | words s _ => s
  | slot k => placeholder k

/-- A placeholder stands for the argument of its number, and for itself where there is none. -/
def filled (args : List String) : Piece → String
  | words s _ => s
  | slot k => args[k]?.getD (placeholder k)

/-- What the arguments leave of a piece when they are numbered from `i` on. -/
def filledFrom (i : Nat) (args : List String) : Piece → String
  | words s _ => s
  | slot k => if k < i then placeholder k else args[k - i]?.getD (placeholder k)

def put (i : Nat) (arg : String) (plain : Plain arg) : Piece → Piece
  | words s plain => words s plain
  | slot k => if k = i then words arg plain else slot k

end Piece

def template (pieces : List Piece) : String := String.join (pieces.map Piece.text)

def templateChars (pieces : List Piece) : List Char := pieces.flatMap fun p => p.text.toList

theorem templateChars_cons (piece : Piece) (pieces : List Piece) :
    templateChars (piece :: pieces) = piece.text.toList ++ templateChars pieces :=
  List.flatMap_cons

theorem toList_template (pieces : List Piece) :
    (template pieces).toList = templateChars pieces := by
  rw [template, String.toList_join, List.flatMap_map, templateChars]

section Numbers

def mark (i : Nat) : List Char := (toString i).toList ++ ['\x7d']

theorem toList_placeholder (i : Nat) : (placeholder i).toList = '\x7b' :: mark i := by
  simp only [placeholder, mark, String.toList_append]
  rfl

theorem mark_unopened (i : Nat) : '\x7b' ∉ mark i := by
  rw [mark, List.mem_append, List.mem_singleton]
  rintro (digit | closing)
  · exact absurd ((Decimal.isDigits_toString i).2 _ digit) (by decide)
  · exact absurd closing (by decide)

theorem takeWhile_mark (i : Nat) (rest : List Char) :
    (mark i ++ rest).takeWhile Char.isDigit = (toString i).toList := by
  rw [mark, List.append_assoc, List.takeWhile_append_of_pos (Decimal.isDigits_toString i).2,
    List.singleton_append, List.takeWhile_cons_of_neg (by decide), List.append_nil]

theorem number_of_mark {i k : Nat} {rest rest' : List Char}
    (same : mark i ++ rest = mark k ++ rest') : i = k := by
  have digits := congrArg (List.takeWhile Char.isDigit) same
  rw [takeWhile_mark, takeWhile_mark] at digits
  calc i = Decimal.valueOf (toString i).toList := (Decimal.valueOf_toString i).symm
    _ = Decimal.valueOf (toString k).toList := by rw [digits]
    _ = k := Decimal.valueOf_toString k

end Numbers

section Replacing

variable {first c : Char} {pat new cs rest : List Char}

theorem replaceChars_found (first : Char) (pat new rest : List Char) :
    replaceChars first pat new (first :: pat ++ rest) = new ++ replaceChars first pat new rest := by
  rw [List.cons_append, replaceChars]
  have found : dropLeading? (first :: pat) (first :: (pat ++ rest)) = some rest :=
    dropLeading?_eq_some_iff.mpr rfl
  split
  · rename_i rest' there
    rw [found, Option.some.injEq] at there
    rw [there]
  · rename_i missing
    rw [found] at missing
    exact absurd missing (by simp)

theorem replaceChars_missed (missed : ∀ rest, c :: cs ≠ first :: pat ++ rest) :
    replaceChars first pat new (c :: cs) = c :: replaceChars first pat new cs := by
  rw [replaceChars]
  split
  · rename_i rest there
    exact absurd (dropLeading?_eq_some_iff.mp there) (missed rest)
  · rfl

theorem replaceChars_append (without : first ∉ cs) :
    replaceChars first pat new (cs ++ rest) = cs ++ replaceChars first pat new rest := by
  induction cs with
  | nil => rfl
  | cons c cs ih =>
    obtain ⟨other, without⟩ := not_or.mp (mt List.mem_cons.mpr without)
    rw [List.cons_append, replaceChars_missed fun _ same => other (List.cons.inj same).1.symm,
      ih without, List.cons_append]

end Replacing

section Filling

variable {i : Nat} {arg : String}

theorem fillOne_found (i : Nat) (arg : List Char) (rest : List Char) :
    fillOne i arg ((placeholder i).toList ++ rest) = arg ++ fillOne i arg rest := by
  rw [toList_placeholder]
  exact replaceChars_found '\x7b' (mark i) arg rest

theorem fillOne_other {k : Nat} (other : k ≠ i) (arg rest : List Char) :
    fillOne i arg ((placeholder k).toList ++ rest) =
      (placeholder k).toList ++ fillOne i arg rest := by
  have missed (behind : List Char) : '\x7b' :: (mark k ++ rest) ≠ '\x7b' :: mark i ++ behind :=
    fun same => other (number_of_mark (List.cons.inj same).2)
  rw [toList_placeholder, List.cons_append, fillOne]
  refine (replaceChars_missed missed).trans ?_
  rw [replaceChars_append (mark_unopened k), List.cons_append]
  rfl

theorem fillOne_words (i : Nat) (arg : List Char) {s : String} (plain : Plain s)
    (rest : List Char) : fillOne i arg (s.toList ++ rest) = s.toList ++ fillOne i arg rest :=
  replaceChars_append plain.unopened

theorem fillOne_template (i : Nat) {arg : String} (plain : Plain arg) (pieces : List Piece) :
    fillOne i arg.toList (templateChars pieces) =
      templateChars (pieces.map (Piece.put i arg plain)) := by
  induction pieces with
  | nil =>
    rw [templateChars, List.flatMap_nil, fillOne, replaceChars]
    rfl
  | cons piece pieces ih =>
    rw [templateChars_cons, List.map_cons, templateChars_cons]
    cases piece with
    | words s plain => rw [Piece.text, fillOne_words i _ plain, ih, Piece.put, Piece.text]
    | slot k =>
      by_cases same : k = i
      · subst same
        rw [Piece.text, fillOne_found, ih, Piece.put, if_pos rfl, Piece.text]
      · rw [Piece.text, fillOne_other same, ih, Piece.put, if_neg same, Piece.text]

theorem Piece.filledFrom_nil (i : Nat) (piece : Piece) : piece.filledFrom i [] = piece.text := by
  cases piece with
  | words s plain => rfl
  | slot k => rw [filledFrom, List.getElem?_nil, Option.getD_none, ite_self, text]

theorem Piece.filledFrom_put (i : Nat) {arg : String} (plain : Plain arg) (args : List String)
    (piece : Piece) :
    (piece.put i arg plain).filledFrom (i + 1) args = piece.filledFrom i (arg :: args) := by
  cases piece with
  | words s plain => rfl
  | slot k =>
    rcases Nat.lt_trichotomy k i with before | same | behind
    · rw [put, if_neg (Nat.ne_of_lt before), filledFrom, filledFrom, if_pos before,
        if_pos (Nat.lt_succ_of_lt before)]
    · subst same
      rw [put, if_pos rfl, filledFrom, filledFrom, if_neg (Nat.lt_irrefl k), Nat.sub_self,
        List.getElem?_cons_zero, Option.getD_some]
    · obtain ⟨d, rfl⟩ := Nat.exists_eq_add_of_lt behind
      rw [put, if_neg (by omega), filledFrom, filledFrom, if_neg (by omega), if_neg (by omega),
        show i + d + 1 - i = d + 1 by omega, show i + d + 1 - (i + 1) = d by omega,
        List.getElem?_cons_succ]

theorem fillFrom_template (i : Nat) (pieces : List Piece) (args : List String)
    (plain : ∀ arg ∈ args, Plain arg) :
    fillFrom i (templateChars pieces) args =
      pieces.flatMap fun piece => (piece.filledFrom i args).toList := by
  induction args generalizing i pieces with
  | nil => simp only [fillFrom, Piece.filledFrom_nil, templateChars]
  | cons arg args ih =>
    obtain ⟨first, others⟩ := List.forall_mem_cons.mp plain
    rw [fillFrom, fillOne_template i first, ih _ _ others, List.flatMap_map]
    simp only [Piece.filledFrom_put]

theorem Piece.filledFrom_zero (args : List String) (piece : Piece) :
    piece.filledFrom 0 args = piece.filled args := by
  cases piece with
  | words s plain => rfl
  | slot k => rw [filledFrom, if_neg (Nat.not_lt_zero k), Nat.sub_zero, filled]

theorem fill_template (pieces : List Piece) (args : List String)
    (plain : ∀ arg ∈ args, Plain arg) :
    fill (template pieces) args = String.join (pieces.map (Piece.filled args)) := by
  rw [← String.toList_inj, fill, String.toList_ofList, toList_template,
    fillFrom_template 0 pieces args plain, String.toList_join, List.flatMap_map]
  simp only [Piece.filledFrom_zero]

end Filling

section Tenants

open Identifier

theorem plain_of_isValid {id : String} (valid : isValid id = true) : Plain id := by
  obtain ⟨kind, token, splits⟩ := (isValid_iff id).mp valid
  have among (c : Char) (small : isSmallLetter c = false) (character : isTokenChar c = false)
      (other : c ≠ '_') : c ∉ id.toList := by
    rw [splits.whole, toList_split, List.mem_append, List.mem_cons]
    rintro (letter | underscore | rest)
    · exact absurd (splits.isKind.letters c letter) (by rw [small]; decide)
    · exact other underscore
    · exact absurd (splits.isToken.characters c rest) (by rw [character]; decide)
  exact ⟨among _ (by decide) (by decide) (by decide), among _ (by decide) (by decide) (by decide)⟩

def membershipPieces : List Piece :=
  [.words "The caller is not a member of the organization '" (by decide), .slot 0,
    .words "'" (by decide)]

theorem template_membershipPieces : template membershipPieces = Messages.userNotAMember := by
  decide

theorem notAMember_message {id : String} (plain : Plain id) :
    (Rejection.notAMember id).message =
      "The caller is not a member of the organization '" ++ id ++ "'" := by
  have filled := fill_template membershipPieces [id] (List.forall_mem_singleton.mpr plain)
  rw [template_membershipPieces] at filled
  rw [Rejection.notAMember, filled, String.append_assoc]
  simp only [membershipPieces, List.map_cons, List.map_nil, Piece.filled, String.join_cons,
    List.getElem?_cons_zero, Option.getD_some, String.join_nil, String.append_empty]

/-- Where no argument has a brace each placeholder makes way for its argument, if there is one, and
all else stays what and where it is. No valid identifier has a brace. -/
theorem filling_is_substitution :
    (∀ pieces args, (∀ arg ∈ args, Plain arg) →
      fill (template pieces) args = String.join (pieces.map (Piece.filled args))) ∧
    (∀ id, isValid id = true → Plain id ∧ (Rejection.notAMember id).message =
      "The caller is not a member of the organization '" ++ id ++ "'") :=
  ⟨fill_template, fun _ valid =>
    ⟨plain_of_isValid valid, notAMember_message (plain_of_isValid valid)⟩⟩

def tenNames : List String := ["a", "b", "c", "d", "e", "f", "g", "h", "i", "j"]

/-- The placeholder `1` is told from `10` beside it, also where an argument is a number, and `11`
has no argument. -/
theorem neighbours_are_told_apart :
    (∀ arg ∈ tenNames ++ ["1"], Plain arg) ∧
    template [.slot 1, .slot 10, .words "0 " (by decide), .slot 11, .slot 1] =
      "\x7b1\x7d\x7b10\x7d0 \x7b11\x7d\x7b1\x7d" ∧
    fill "\x7b1\x7d\x7b10\x7d0 \x7b11\x7d\x7b1\x7d" (tenNames ++ ["1"]) =
      "b10 \x7b11\x7db" ∧
    isValid "org_ABC123xyz789" = true ∧ (Rejection.notAMember "org_ABC123xyz789").message =
      "The caller is not a member of the organization 'org_ABC123xyz789'" := by
  have plain : ∀ arg ∈ tenNames ++ ["1"], Plain arg := by decide
  have shown : template [.slot 1, .slot 10, .words "0 " (by decide), .slot 11, .slot 1] =
      "\x7b1\x7d\x7b10\x7d0 \x7b11\x7d\x7b1\x7d" := by decide
  have valid : isValid "org_ABC123xyz789" = true := by decide
  obtain ⟨fills, identifiers⟩ := filling_is_substitution
  refine ⟨plain, shown, ?_, valid, (identifiers _ valid).2⟩
  rw [← shown, fills _ _ plain]
  decide

end Tenants

end TenantGate.Text
