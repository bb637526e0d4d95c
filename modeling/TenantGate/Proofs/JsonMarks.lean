import TenantGate.Proofs.JsonMaps

/-!
What stood where reading went on. A reader that finds a key, a colon or the end of a list or an
object has read white space, a comma where one belongs, and the mark itself, and nothing else.
-/
namespace TenantGate.Json

theorem skipSpace_taken (place : Place) (bytes : List UInt8) :
    ∃ gap : Gap, bytes = gap.bytes ++ (skipSpace place bytes).rest := by
  induction bytes generalizing place with
  | nil => exact ⟨.none, rfl⟩
  | cons b bytes ih =>
    rw [skipSpace]
    split
    · rename_i space
      obtain ⟨gap, taken⟩ := ih (place.after b)
      exact ⟨gap.cons b space, congrArg (b :: ·) taken⟩
    · exact ⟨.none, rfl⟩

theorem trim_taken (c : Cursor) : ∃ gap : Gap, c.rest = gap.bytes ++ c.trim.rest :=
  skipSpace_taken c.place c.rest

variable {first : Bool} {c c' : Cursor}

section Objects

theorem nextKey_found (found : nextKey first c = .ok (true, c')) :
    ∃ gap lead : Gap, c.rest = gap.bytes ++ (comma first ++ (lead.bytes ++ 0x22 :: c'.rest)) := by
  obtain ⟨gap, taken⟩ := trim_taken c
  rw [taken]
  simp only [nextKey] at found
  split at found
  · exact absurd found (by simp [Cursor.blame])
  rename_i b rest bytes
  rw [bytes]
  split at found
  · exact absurd found (by simp)
  split at found
  case isTrue between =>
    rw [Bool.and_eq_true, Bool.not_eq_true'] at between
    obtain ⟨mark, rfl⟩ := between
    obtain rfl : b = 0x2C := by simpa using mark
    obtain ⟨lead, taken'⟩ := skipSpace_taken c.trim.ahead rest
    rw [taken']
    split at found
    · exact absurd found (by simp [Cursor.blame])
    rename_i d more bytes'
    rw [bytes']
    split at found
    · rename_i quote
      obtain rfl : d = 0x22 := by simpa using quote
      obtain rfl := (Prod.mk.inj (Except.ok.inj found)).2
      exact ⟨gap, lead, rfl⟩
    · split at found <;> exact absurd found (by simp [Cursor.blame])
  case isFalse =>
    split at found
    · rename_i begins
      obtain rfl : first = true := begins
      split at found
      · rename_i quote
        obtain rfl : b = 0x22 := by simpa using quote
        obtain rfl := (Prod.mk.inj (Except.ok.inj found)).2
        exact ⟨gap, .none, rfl⟩
      · exact absurd found (by simp [Cursor.blame])
    · exact absurd found (by simp [Cursor.blame])

theorem nextKey_closed (found : nextKey first c = .ok (false, c')) :
    ∃ (gap : Gap) (more : List UInt8), c.rest = gap.bytes ++ c'.rest ∧ c'.rest = 0x7D :: more := by
  obtain ⟨gap, taken⟩ := trim_taken c
  simp only [nextKey] at found
  split at found
  · exact absurd found (by simp [Cursor.blame])
  rename_i b rest bytes
  split at found
  · rename_i brace
    obtain rfl : b = 0x7D := by simpa using brace
    obtain rfl := (Prod.mk.inj (Except.ok.inj found)).2
    exact ⟨gap, rest, taken, bytes⟩
  · split at found
    · split at found
      · exact absurd found (by simp [Cursor.blame])
      · split at found
        · exact absurd found (by simp)
        · split at found <;> exact absurd found (by simp [Cursor.blame])
    · split at found
      · split at found
        · exact absurd found (by simp)
        · exact absurd found (by simp [Cursor.blame])
      · exact absurd found (by simp [Cursor.blame])

theorem readColon_found (found : readColon c = .ok c') :
    ∃ gap : Gap, c.rest = gap.bytes ++ 0x3A :: c'.rest := by
  obtain ⟨gap, taken⟩ := trim_taken c
  rw [taken]
  simp only [readColon] at found
  split at found
  · exact absurd found (by simp [Cursor.blame])
  rename_i b rest bytes
  rw [bytes]
  split at found
  · rename_i colon
    obtain rfl : b = 0x3A := by simpa using colon
    obtain rfl := Except.ok.inj found
    exact ⟨gap, rfl⟩
  · exact absurd found (by simp [Cursor.blame])

end Objects

section Lists

theorem nextItem_found (found : nextItem true c = .ok (true, c')) :
    ∃ gap : Gap, c.rest = gap.bytes ++ c'.rest := by
  obtain ⟨gap, taken⟩ := trim_taken c
  simp only [nextItem, ↓reduceIte] at found
  split at found
  · exact absurd found (by simp [Cursor.blame])
  · split at found
    · exact absurd found (by simp)
    · obtain rfl := (Prod.mk.inj (Except.ok.inj found)).2
      exact ⟨gap, taken⟩

theorem nextItem_front {b : UInt8} (solid : isSpace b = false) (other : b ≠ 0x5D) (gap : Gap)
    (rest : List UInt8) (place : Place) :
    ∃ place', nextItem true ⟨gap.bytes ++ b :: rest, place⟩ = .ok (true, ⟨b :: rest, place'⟩) := by
  have trims (c : Cursor) : nextItem true c = nextItem true c.trim := by
    simp only [nextItem, trim_trim]
  obtain ⟨place', same⟩ := trims_gap trims gap (b :: rest) place
  refine ⟨place', ?_⟩
  rw [same]
  simp only [nextItem, trim_cons solid, beq_eq_false_iff_ne.mpr other, Bool.false_eq_true,
    ↓reduceIte]

theorem nextItem_closed (found : nextItem true c = .ok (false, c')) :
    ∃ (gap : Gap) (more : List UInt8), c.rest = gap.bytes ++ 0x5D :: more := by
  obtain ⟨gap, taken⟩ := trim_taken c
  rw [taken]
  simp only [nextItem, ↓reduceIte] at found
  split at found
  · exact absurd found (by simp [Cursor.blame])
  rename_i b rest bytes
  rw [bytes]
  split at found
  · rename_i bracket
    obtain rfl : b = 0x5D := by simpa using bracket
    exact ⟨gap, rest, rfl⟩
  · exact absurd found (by simp)

theorem endList_found (found : endList c = .ok c') :
    ∃ gap : Gap, c.rest = gap.bytes ++ 0x5D :: c'.rest := by
  obtain ⟨gap, taken⟩ := trim_taken c
  rw [taken]
  simp only [endList] at found
  split at found
  · exact absurd found (by simp [Cursor.blame])
  rename_i b rest bytes
  rw [bytes]
  split at found
  · rename_i bracket
    obtain rfl : b = 0x5D := by simpa using bracket
    obtain rfl := Except.ok.inj found
    exact ⟨gap, rfl⟩
  · split at found
    · split at found <;> exact absurd found (by simp [Cursor.blame])
    · exact absurd found (by simp [Cursor.blame])

end Lists

end TenantGate.Json
