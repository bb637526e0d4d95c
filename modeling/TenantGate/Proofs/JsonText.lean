import TenantGate.Json.Format

/-!
Strings as JSON. No escape begins another one, so different texts are written differently.
-/
namespace TenantGate.Json

def isEscaped (c : Char) : Bool := c == '"' || c == '\\' || c.toNat < 0x20

def escapeChars (c : Char) : List Char := (escapeChar c).toList

theorem escapeChars_plain {c : Char} (plain : isEscaped c = false) : escapeChars c = [c] := by
  simp only [isEscaped, Bool.or_eq_false_iff, beq_eq_false_iff_ne, decide_eq_false_iff_not] at plain
  obtain ⟨⟨quote, backslash⟩, large⟩ := plain
  have other (d : Char) (small : d.toNat < 0x20) : ¬ (c == d) = true := by
    rw [beq_iff_eq]
    rintro rfl
    exact large small
  have quote : ¬ (c == '"') = true := by simpa using quote
  have backslash : ¬ (c == '\\') = true := by simpa using backslash
  simp only [escapeChars, escapeChar, if_neg quote, if_neg backslash, if_neg large,
    if_neg (other '\x08' (by decide)), if_neg (other '\x0c' (by decide)),
    if_neg (other '\n' (by decide)), if_neg (other '\r' (by decide)),
    if_neg (other '\t' (by decide))]
  exact String.toList_singleton c

theorem toNat_lt_of_isEscaped {c : Char} (escaped : isEscaped c = true) : c.toNat < 0x60 := by
  simp only [isEscaped, Bool.or_eq_true, beq_iff_eq, decide_eq_true_eq] at escaped
  rcases escaped with (rfl | rfl) | small
  · decide
  · decide
  · exact Nat.lt_trans small (by decide)

theorem stringText_toList (s : String) :
    (stringText s).toList = '"' :: s.toList.flatMap escapeChars ++ ['"'] := by
  have written (cs : List Char) (text : String) :
      (cs.foldl (fun text c => text ++ escapeChar c) text).toList =
        text.toList ++ cs.flatMap escapeChars := by
    induction cs generalizing text with
    | nil => simp
    | cons c cs ih =>
      rw [List.foldl_cons, ih, String.toList_append, List.flatMap_cons, List.append_assoc]
      rfl
  rw [stringText, String.toList_append, written]
  rfl

end TenantGate.Json
