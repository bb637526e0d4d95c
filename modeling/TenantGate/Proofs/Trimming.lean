import Mathlib.Data.List.DropRight
import TenantGate.Text.Printable

/-!
Blanks around a text. Trimming takes the longest runs of blanks off both ends, and this is all that
it does: a text is cut into blanks, what is left, and blanks in one way only.
-/
namespace TenantGate.Text

theorem trimChars_eq_nil_iff (cs : List Char) :
    trimChars cs = [] ↔ ∀ c ∈ cs, isBlank c = true := by
  rw [trimChars, List.reverse_eq_nil_iff, List.dropWhile_eq_nil_iff]
  constructor
  · intro blank
    by_contra other
    have front : cs.dropWhile isBlank ≠ [] := by
      rw [ne_eq, List.dropWhile_eq_nil_iff]
      exact other
    have first := List.head_dropWhile_not isBlank front
    rw [blank _ (List.mem_reverse.mpr (List.head_mem front))] at first
    exact absurd first (by decide)
  · intro blank c member
    exact blank c ((List.dropWhile_sublist isBlank).subset (List.mem_reverse.mp member))

theorem nonBlank?_eq (s : String) :
    nonBlank? s = if s.toList.all isBlank then none else some (trim s) := by
  have empty : (trim s).isEmpty = true ↔ s.toList.all isBlank = true := by
    rw [List.all_eq_true, ← trimChars_eq_nil_iff, trim, String.isEmpty_iff,
      String.ofList_eq_empty_iff]
  simp only [nonBlank?, empty]

structure IsTrimOf (t s : String) : Prop where
  cut : ∃ front back, s.toList = front ++ t.toList ++ back ∧
    (∀ c ∈ front, isBlank c = true) ∧ ∀ c ∈ back, isBlank c = true
  starts : ∀ c ∈ t.toList.head?, isBlank c = false
  ends : ∀ c ∈ t.toList.getLast?, isBlank c = false

theorem dropWhile_of_starts {cs : List Char} (starts : ∀ c ∈ cs.head?, isBlank c = false) :
    cs.dropWhile isBlank = cs := by
  cases cs with
  | nil => rfl
  | cons c rest => rw [List.dropWhile_cons_of_neg (by simp [starts c rfl])]

theorem trimChars_of_cut {front body back : List Char}
    (blankFront : ∀ c ∈ front, isBlank c = true) (blankBack : ∀ c ∈ back, isBlank c = true)
    (starts : ∀ c ∈ body.head?, isBlank c = false)
    (ends : ∀ c ∈ body.getLast?, isBlank c = false) :
    trimChars (front ++ body ++ back) = body := by
  cases body with
  | nil =>
    rw [trimChars_eq_nil_iff]
    intro c member
    rw [List.append_nil] at member
    exact (List.mem_append.mp member).elim (blankFront c) (blankBack c)
  | cons c rest =>
    have front_dropped : ((front ++ c :: rest) ++ back).dropWhile isBlank = c :: rest ++ back := by
      rw [List.append_assoc, List.dropWhile_append_of_pos blankFront]
      exact dropWhile_of_starts starts
    have back_dropped : (back.reverse ++ (c :: rest).reverse).dropWhile isBlank =
        (c :: rest).reverse := by
      rw [List.dropWhile_append_of_pos fun d among => blankBack d (List.mem_reverse.mp among)]
      exact dropWhile_of_starts (by rwa [List.head?_reverse])
    rw [trimChars, front_dropped, List.reverse_append, back_dropped, List.reverse_reverse]

theorem isTrimOf_trim (s : String) : IsTrimOf (trim s) s := by
  let rest := s.toList.dropWhile isBlank
  have chars : (trim s).toList = rest.rdropWhile isBlank := String.toList_ofList
  refine ⟨⟨s.toList.takeWhile isBlank, rest.rtakeWhile isBlank, ?_, ?_, ?_⟩, ?_, ?_⟩
  · rw [chars, List.append_assoc, List.rdropWhile_append_rtakeWhile,
      List.takeWhile_append_dropWhile]
  · intro c among
    exact List.mem_takeWhile_imp among
  · intro c among
    exact List.mem_rtakeWhile_imp among
  · intro c first
    rw [chars] at first
    -- What the back is taken off still starts where the front has ended.
    obtain ⟨more, whole⟩ := List.rdropWhile_prefix isBlank rest
    have here : rest.head? = some c := by
      rw [← whole, List.head?_append, Option.mem_def.mp first]
      rfl
    obtain ⟨_, shape⟩ := List.head?_eq_some_iff.mp here
    have kept : rest ≠ [] := by simp [shape]
    have solid := List.head_dropWhile_not isBlank kept
    simpa [show s.toList.dropWhile isBlank = rest from rfl, shape] using solid
  · intro c last
    rw [chars] at last
    have kept : rest.rdropWhile isBlank ≠ [] := by
      rintro none
      rw [none] at last
      exact absurd last (by simp)
    have solid := List.rdropWhile_last_not isBlank rest kept
    rw [Option.mem_def, List.getLast?_eq_some_getLast kept, Option.some.injEq] at last
    rw [last] at solid
    simpa using solid

theorem isTrimOf_iff {t s : String} : IsTrimOf t s ↔ trim s = t := by
  constructor
  · rintro ⟨⟨front, back, cut, blankFront, blankBack⟩, starts, ends⟩
    rw [trim, cut, trimChars_of_cut blankFront blankBack starts ends, String.ofList_toList]
  · rintro rfl
    exact isTrimOf_trim s

theorem trim_trim (s : String) : trim (trim s) = trim s := by
  have ⟨_, starts, ends⟩ := isTrimOf_trim s
  exact isTrimOf_iff.mp ⟨⟨[], [], by simp, by simp, by simp⟩, starts, ends⟩

end TenantGate.Text
