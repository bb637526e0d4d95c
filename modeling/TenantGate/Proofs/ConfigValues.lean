import TenantGate.Proofs.ConfigLayers
import TenantGate.Proofs.FileIntegers

/-!
What becomes of configured values. The text of a variable is taken for a boolean, an integer or a
decimal where it can be, and a field of texts then holds how that is usually written. Integers are
taken as they stand if they have 64 bits; beyond that they are taken for floats, and the number that
such a float is rounded to need not be the one that was written.
-/
namespace TenantGate.Startup

open Decimal (IsInteger IsDecimal IsInt64 nearestTo)

inductive TakenFor (t : String) : Value → Prop where
  | boolean (b : Bool) (word : t.toLower = toString b) : TakenFor t (.boolean b)
  | integer {i : Int} (written : IsInteger t.toList i) (inside : IsInt64 i) :
      TakenFor t (.integer i)
  | float {x : Float} (written : IsDecimal t.toList x)
      (outside : ∀ i, IsInteger t.toList i → ¬IsInt64 i) : TakenFor t (.float x)
  | text (word : ∀ b : Bool, t.toLower ≠ toString b) (number : ∀ x, ¬IsDecimal t.toList x)
      (integer : ∀ i, IsInteger t.toList i → ¬IsInt64 i) : TakenFor t (.text t)

theorem variableValue_takenFor (t : String) : TakenFor t (variableValue t) := by
  rw [variableValue]
  simp only [beq_iff_eq]
  split
  · rename_i word
    exact .boolean true word
  · rename_i yes
    split
    · rename_i word
      exact .boolean false word
    · rename_i no
      have outside (none : Decimal.int64? t = none) : ∀ i, IsInteger t.toList i → ¬IsInt64 i := by
        intro i written inside
        rw [Decimal.int64?_eq_some_iff.mpr ⟨written, inside⟩] at none
        cases none
      split
      · rename_i i read
        obtain ⟨written, inside⟩ := Decimal.int64?_eq_some_iff.mp read
        exact .integer written inside
      · rename_i none
        split
        · rename_i x read
          exact .float (Decimal.float?_eq_some_iff.mp read) (outside none)
        · rename_i unread
          refine .text ?_ ?_ (outside none)
          · rintro (_ | _)
            · exact no
            · exact yes
          · intro x written
            rw [Decimal.float?_eq_some_iff.mpr written] at unread
            cases unread

theorem integer_no_boolean {t : String} {i : Int} (written : IsInteger t.toList i) (b : Bool) :
    t.toLower ≠ toString b :=
  written.lower_ne (by cases b <;> decide)

theorem decimal_no_boolean {t : String} {x : Float} (written : IsDecimal t.toList x) (b : Bool) :
    t.toLower ≠ toString b :=
  written.lower_ne (by cases b <;> decide) (by cases b <;> decide)

theorem TakenFor.unique {t : String} {v w : Value} (first : TakenFor t v)
    (second : TakenFor t w) : v = w := by
  cases first with
  | boolean b word =>
    cases second with
    | boolean c again =>
      have same : toString b = toString c := word.symm.trans again
      cases b <;> cases c <;> first | rfl | exact absurd same (by decide)
    | integer written => exact absurd word (integer_no_boolean written b)
    | float written => exact absurd word (decimal_no_boolean written b)
    | text other => exact absurd word (other b)
  | integer written inside =>
    cases second with
    | boolean b word => exact absurd word (integer_no_boolean written b)
    | integer again => rw [written.unique again]
    | float _ outside => exact absurd inside (outside _ written)
    | text _ _ outside => exact absurd inside (outside _ written)
  | float written outside =>
    cases second with
    | boolean b word => exact absurd word (decimal_no_boolean written b)
    | integer again inside => exact absurd inside (outside _ again)
    | float again => rw [written.unique again]
    | text _ other => exact absurd written (other _)
  | text other undecimal outside =>
    cases second with
    | boolean b word => exact absurd word (other b)
    | integer written inside => exact absurd inside (outside _ written)
    | float written => exact absurd written (undecimal _)
    | text => rfl

theorem variableValue_eq {t : String} {v : Value} (taken : TakenFor t v) : variableValue t = v :=
  (variableValue_takenFor t).unique taken

/-- Texts that are not held as they are: booleans in capital letters, and numbers that are usually
written otherwise. -/
inductive Altered (t : String) : Prop where
  | boolean (b : Bool) (word : t.toLower = toString b) (other : toString b ≠ t)
  | integer {i : Int} (written : IsInteger t.toList i) (inside : IsInt64 i)
      (other : toString i ≠ t)
  | float {x : Float} (written : IsDecimal t.toList x)
      (outside : ∀ i, IsInteger t.toList i → ¬IsInt64 i) (other : Decimal.plainText x ≠ t)

theorem text_variableValue_iff (t : String) :
    Sourced.text ⟨variableValue t, none⟩ = .ok t ↔ ¬Altered t := by
  constructor
  · intro same altered
    cases altered with
    | boolean b word other =>
      rw [variableValue_eq (.boolean b word)] at same
      exact other (Except.ok.inj same)
    | integer written inside other =>
      rw [variableValue_eq (.integer written inside)] at same
      exact other (Except.ok.inj same)
    | float written outside other =>
      rw [variableValue_eq (.float written outside)] at same
      exact other (Except.ok.inj same)
  · intro kept
    have taken := variableValue_takenFor t
    generalize variableValue t = v at taken ⊢
    cases taken with
    | boolean b word => exact congrArg _ (by_contra fun other => kept (.boolean b word other))
    | integer written inside =>
      exact congrArg _ (by_contra fun other => kept (.integer written inside other))
    | float written outside =>
      exact congrArg _ (by_contra fun other => kept (.float written outside other))
    | text => rfl

def Field.greatest? : Field → Option Nat
  | .port => some 65535
  | .settingsSeconds | .timeoutSeconds => some greatestNatural
  | .host | .authUrl | .endUsersUrl | .organizationsUrl | .serviceToken => none

inductive Source.Writes : Source → Int → Prop where
  | unquoted {t : String} {i : Int} (written : IsInteger t.toList i) : Writes (.variable t) i
  | quoted {t : String} {i : Int} (written : IsInteger t.toList i) : Writes (.entry (.text t)) i
  | bare (i : Int) : Writes (.entry (.integer i)) i

/-- Whether a source's integer is taken as it stands, and not for a float. -/
def Source.Exact (s : Source) (i : Int) : Prop :=
  match s with
  | .variable _ => IsInt64 i
  | .entry (.text _) => 0 ≤ i ∧ i ≤ greatestNatural
  | .entry _ => True

theorem textNatural?_integer {t : String} {i : Int} (written : IsInteger t.toList i) :
    textNatural? t = if 0 ≤ i ∧ i ≤ greatestNatural then some i.toNat
      else some (roundedNatural (nearestTo i)) := by
  have yes : t.toLower ≠ "true" ∧ t.toLower ≠ "on" ∧ t.toLower ≠ "yes" :=
    ⟨written.lower_ne (by decide), written.lower_ne (by decide), written.lower_ne (by decide)⟩
  have no : t.toLower ≠ "false" ∧ t.toLower ≠ "off" ∧ t.toLower ≠ "no" :=
    ⟨written.lower_ne (by decide), written.lower_ne (by decide), written.lower_ne (by decide)⟩
  simp only [textNatural?, Bool.or_eq_true, beq_iff_eq, yes, no, or_self, if_false]
  by_cases inside : 0 ≤ i ∧ i ≤ greatestNatural
  · rw [if_pos inside, Decimal.integerWithin?_eq_some_iff.mpr ⟨written, inside⟩]
  · rw [if_neg inside]
    have nonzero : i ≠ 0 := by
      rintro rfl
      exact inside (by decide)
    have unread : Decimal.integerWithin? 0 greatestNatural t = none := by
      refine Option.eq_none_iff_forall_ne_some.mpr fun j read => ?_
      obtain ⟨again, bounds⟩ := Decimal.integerWithin?_eq_some_iff.mp read
      exact inside (written.unique again ▸ bounds)
    rw [unread, Decimal.float?_eq_some_iff.mpr (written.decimal nonzero)]
    rfl

theorem natural_exact {s : Source} {i : Int} (writes : s.Writes i) (whole : s.Exact i) :
    (Sourced.natural ⟨s.value, none⟩).toOption = if 0 ≤ i then some i.toNat else none := by
  cases writes with
  | unquoted written =>
    rw [Source.value, variableValue_eq (.integer written whole), Sourced.natural]
    by_cases positive : 0 ≤ i <;> simp [positive, Except.toOption, Sourced.mismatch]
  | quoted written =>
    have inside : 0 ≤ i ∧ i ≤ greatestNatural := whole
    simp only [Source.value, Sourced.natural, textNatural?_integer written, if_pos inside,
      if_pos inside.1]
    rfl
  | bare =>
    rw [Source.value, Sourced.natural]
    by_cases positive : 0 ≤ i <;> simp [positive, Except.toOption, Sourced.mismatch]

theorem natural_inexact {s : Source} {i : Int} (writes : s.Writes i) (inexact : ¬s.Exact i) :
    (Sourced.natural ⟨s.value, none⟩).toOption = some (roundedNatural (nearestTo i)) := by
  cases writes with
  | unquoted written =>
    -- zero is taken as it stands, so it does not matter that there are two floats of it
    have nonzero : i ≠ 0 := by
      rintro rfl
      exact inexact (show IsInt64 0 by decide)
    have outside (j : Int) (again : IsInteger _ j) : ¬IsInt64 j := written.unique again ▸ inexact
    rw [Source.value, variableValue_eq (.float (written.decimal nonzero) outside)]
    rfl
  | quoted written =>
    have outside : ¬(0 ≤ i ∧ i ≤ greatestNatural) := inexact
    simp only [Source.value, Sourced.natural, textNatural?_integer written, if_neg outside]
    rfl
  | bare => exact absurd trivial inexact

theorem roundedNatural_le (x : Float) : roundedNatural x ≤ greatestNatural := by
  unfold roundedNatural
  split
  · exact Nat.zero_le _
  · split
    · exact Nat.le_refl _
    · exact Nat.le_of_lt_succ (UInt64.toNat_lt _)

theorem convert_text {f : Field} (texts : f.greatest? = none) (v : Value) :
    f.convert v = (Sourced.text ⟨v, none⟩).toOption.map .text := by
  cases f <;> first | rfl | cases texts

theorem convert_number {f : Field} {greatest : Nat} (numbers : f.greatest? = some greatest)
    {v : Value} (small : ∀ n ∈ (Sourced.natural ⟨v, none⟩).toOption, n ≤ greatestNatural) :
    f.convert v = (Sourced.natural ⟨v, none⟩).toOption.bind fun n =>
      if n ≤ greatest then some (.number n) else none := by
  have seconds : (Sourced.natural ⟨v, none⟩).toOption.map Content.number =
      (Sourced.natural ⟨v, none⟩).toOption.bind fun n =>
        if n ≤ greatestNatural then some (.number n) else none := by
    cases natural : (Sourced.natural ⟨v, none⟩).toOption with
    | none => rfl
    | some n => simp [small n natural]
  cases f with
  | port =>
    cases numbers
    rw [Field.convert, natural16_eq]
    cases (Sourced.natural ⟨v, none⟩).toOption with
    | none => rfl
    | some n =>
      by_cases fits : n < 65536
      · simp [fits, Nat.le_of_lt_succ fits]
      · simp [fits, Nat.not_le.mpr (Nat.lt_of_not_le fun le => fits (Nat.lt_succ_of_le le))]
  | settingsSeconds | timeoutSeconds =>
    cases numbers
    exact seconds
  | host | authUrl | endUsersUrl | organizationsUrl | serviceToken => cases numbers

theorem lastValue?_mem {f : Field} {entries : List (String × Value)} {v : Value}
    (found : lastValue? f entries = some v) : ∃ key, (key, v) ∈ entries := by
  obtain ⟨⟨key, _⟩, last, rfl⟩ := Option.map_eq_some_iff.mp found
  exact ⟨key, List.mem_reverse.mp (List.mem_of_find?_eq_some last)⟩

theorem source?_integer {file : Option String} {environment : List (String × String)} {f : Field}
    {i : Int} (found : source? file environment f = some (.entry (.integer i))) : IsInt64 i := by
  rw [source?, Option.or_eq_some_iff] at found
  rcases found with of_variable | ⟨-, of_entry⟩
  · obtain ⟨text, -, same⟩ := Option.map_eq_some_iff.mp of_variable
    cases same
  · obtain ⟨v, last, same⟩ := Option.map_eq_some_iff.mp of_entry
    cases same
    obtain ⟨entries, read, last⟩ := Option.bind_eq_some_iff.mp last
    obtain ⟨text, -, read⟩ := Option.bind_eq_some_iff.mp read
    obtain ⟨key, member⟩ := lastValue?_mem last
    exact Toml.parse?_integer read member

theorem natural_le {file : Option String} {environment : List (String × String)} {f : Field}
    {s : Source} {i : Int} (found : source? file environment f = some s) (writes : s.Writes i) :
    ∀ n ∈ (Sourced.natural ⟨s.value, none⟩).toOption, n ≤ greatestNatural := by
  intro n made
  by_cases whole : s.Exact i
  · have of_int64 (inside : IsInt64 i) : i ≤ greatestNatural :=
      Int.le_trans inside.2 (by decide)
    have bound : i ≤ greatestNatural := by
      cases writes with
      | unquoted => exact of_int64 whole
      | quoted => exact whole.2
      | bare => exact of_int64 (source?_integer found)
    rw [natural_exact writes whole] at made
    by_cases positive : 0 ≤ i
    · rw [if_pos positive] at made
      cases made
      omega
    · rw [if_neg positive] at made
      cases made
  · rw [natural_inexact writes whole] at made
    cases made
    exact roundedNatural_le _

/-- What a configuration holds of the values that were given. A field of texts with the text of a
variable holds it as it is exactly if it is no boolean word and no number that is usually written
otherwise. A field of numbers holds exactly the integer that its source writes if that is taken as
it stands, and there is no configuration if it does not fit the field. All other integers are
rounded to the number of a float. -/
theorem configured_values_are_kept_iff (file : Option String)
    (environment : List (String × String)) (f : Field) :
    (∀ config t, Config.load file environment = .ok config → f.greatest? = none →
      source? file environment f = some (.variable t) →
      (config.content f = .text t ↔ ¬Altered t)) ∧
    (∀ config greatest source i, Config.load file environment = .ok config →
      f.greatest? = some greatest → source? file environment f = some source → source.Writes i →
      ∃ n : Nat, config.content f = .number n ∧ n ≤ greatest ∧
        (source.Exact i → (n : Int) = i) ∧ (¬source.Exact i → n = roundedNatural (nearestTo i))) ∧
    (∀ greatest source i, f.greatest? = some greatest →
      source? file environment f = some source → source.Writes i → source.Exact i →
      ¬(0 ≤ i ∧ i ≤ greatest) → ∃ fault, Config.load file environment = .error fault) := by
  refine ⟨?_, ?_, ?_⟩
  · intro config t loaded texts found
    have held := take_of_load loaded f
    rw [found] at held
    change f.convert (variableValue t) = some (config.content f) at held
    rw [convert_text texts] at held
    obtain ⟨s, made, same⟩ := Option.map_eq_some_iff.mp held
    rw [← same, Content.text.injEq, ← text_variableValue_iff]
    cases written : Sourced.text ⟨variableValue t, none⟩ with
    | error m =>
      rw [written] at made
      cases made
    | ok u =>
      rw [written] at made
      cases made
      rw [Except.ok.injEq]
  · intro config greatest source i loaded numbers found writes
    have held := take_of_load loaded f
    rw [found] at held
    change f.convert source.value = some (config.content f) at held
    rw [convert_number numbers (natural_le found writes)] at held
    obtain ⟨n, made, fits⟩ := Option.bind_eq_some_iff.mp held
    split at fits
    · rename_i small
      refine ⟨n, (Option.some.inj fits).symm, small, fun whole => ?_, fun inexact => ?_⟩
      · rw [natural_exact writes whole] at made
        split at made
        · cases made
          omega
        · cases made
      · rw [natural_inexact writes inexact] at made
        exact (Option.some.inj made).symm
    · cases fits
  · intro greatest source i numbers found writes whole misfit
    refine misfit_ends_loading found ?_
    rw [convert_number numbers (natural_le found writes), natural_exact writes whole]
    by_cases positive : 0 ≤ i
    · have great : ¬i.toNat ≤ greatest := by omega
      simp [positive, great]
    · simp [positive]

theorem plain_values_are_kept :
    Config.load none [("TENANCY__AUTH_URL", "mock"), ("TENANCY__PORT", "0080")] =
        .ok { Config.standard with authUrl := "mock", port := 80 } ∧
    ¬Altered "mock" ∧
    (∃ n : Nat, Config.content { Config.standard with authUrl := "mock", port := 80 } .port =
      .number n ∧ (n : Int) = 80) ∧
    ∃ fault, Config.load none [("TENANCY__PORT", "70000")] = .error fault := by
  have loaded : Config.load none [("TENANCY__AUTH_URL", "mock"), ("TENANCY__PORT", "0080")] =
      .ok { Config.standard with authUrl := "mock", port := 80 } := by decide +kernel
  have auth : source? none [("TENANCY__AUTH_URL", "mock"), ("TENANCY__PORT", "0080")] .authUrl =
      some (.variable "mock") := source?_variable (by decide +kernel) none
  have port : source? none [("TENANCY__AUTH_URL", "mock"), ("TENANCY__PORT", "0080")] .port =
      some (.variable "0080") := source?_variable (by decide +kernel) none
  have beyond : source? none [("TENANCY__PORT", "70000")] .port = some (.variable "70000") :=
    source?_variable (by decide +kernel) none
  have written : Source.Writes (.variable "0080") 80 := .unquoted (.plain ⟨nofun, List.all_eq_true.mp rfl⟩)
  have great : Source.Writes (.variable "70000") 70000 := .unquoted (.plain ⟨nofun, List.all_eq_true.mp rfl⟩)
  obtain ⟨n, held, -, whole, -⟩ := (configured_values_are_kept_iff none _ .port).2.1 _ _ _ _
    loaded rfl port written
  exact ⟨loaded,
    ((configured_values_are_kept_iff none _ .authUrl).1 _ _ loaded rfl auth).mp rfl,
    ⟨n, held, whole (show IsInt64 80 by decide)⟩,
    (configured_values_are_kept_iff none _ .port).2.2 _ _ _ rfl beyond great
      (show IsInt64 70000 by decide) (by decide)⟩

/-- A token loses its zeros, and a port far below zero becomes one. -/
theorem numeric_values_are_altered :
    source? none [("TENANCY__SERVICE_TOKEN", "007"), ("TENANCY__PORT", "-99999999999999999999")]
        .serviceToken = some (.variable "007") ∧
    source? none [("TENANCY__SERVICE_TOKEN", "007"), ("TENANCY__PORT", "-99999999999999999999")]
        .port = some (.variable "-99999999999999999999") ∧
    Config.load none
        [("TENANCY__SERVICE_TOKEN", "007"), ("TENANCY__PORT", "-99999999999999999999")] =
      .ok { Config.standard with serviceToken := some "7", port := 0 } := by
  exact ⟨source?_variable (by decide +kernel) none, source?_variable (by decide +kernel) none,
    by decide +kernel⟩

end TenantGate.Startup
