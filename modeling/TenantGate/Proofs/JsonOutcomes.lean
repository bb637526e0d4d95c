import TenantGate.Proofs.JsonNumbers

/-!
What readers make of values. A reader keeps to a value when it takes just the value off the front of
what follows, or refuses it; readers of strings, truth values, numbers, optional values and
alternatives keep to every value.
-/
namespace TenantGate.Json

open Utf8

variable {α β γ : Type}

def Fails (r : Except Fault γ) : Prop := ∃ fault, r = .error fault

def Stops (r : Except Fault (α × Cursor)) (rest : List UInt8) : Prop := ∃ o, Leads r rest o

/-- The reader takes just the bytes off the front of what follows, or refuses them. -/
def Keeps (read : Reader α) (bytes : List UInt8) : Prop :=
  ∀ rest place, Closed rest → Stops (read ⟨bytes ++ rest, place⟩) rest

def Refuses (read : Reader α) (bytes : List UInt8) : Prop :=
  ∀ rest place, Closed rest → Fails (read ⟨bytes ++ rest, place⟩)

def Trims (read : Reader α) : Prop := ∀ c, read c = read c.trim

section Results

variable {r : Except Fault (α × Cursor)} {rest behind : List UInt8}

theorem fails_error (fault : Fault) : Fails (.error fault : Except Fault γ) := ⟨fault, rfl⟩

theorem Fails.bind {r : Except Fault β} (fails : Fails r) (next : β → Except Fault γ) :
    Fails (r >>= next) := by
  obtain ⟨fault, rfl⟩ := fails
  exact fails_error fault

theorem fails_bind (r : Except Fault β) {next : β → Except Fault γ} (later : ∀ a, Fails (next a)) :
    Fails (r >>= next) := by
  cases r with
  | error fault => exact fails_error fault
  | ok a => exact later a

theorem Fails.stops (fails : Fails r) (rest : List UInt8) : Stops r rest := ⟨none, fails⟩

theorem stops_ok (a : α) (rest : List UInt8) (place : Place) :
    Stops (.ok (a, ⟨rest, place⟩)) rest :=
  ⟨some a, leads_ok a rest place⟩

theorem stops_or : Stops r rest ↔ Fails r ∨ ∃ a place, r = .ok (a, ⟨rest, place⟩) := by
  constructor
  · rintro ⟨o, leads⟩
    cases o with
    | none => exact .inl leads
    | some a => exact .inr ⟨a, leads⟩
  · rintro (fails | ⟨a, leads⟩)
    · exact ⟨none, fails⟩
    · exact ⟨some a, leads⟩

theorem Stops.bind (stops : Stops r rest) {next : α × Cursor → Except Fault (β × Cursor)}
    (later : ∀ a place, Stops (next (a, ⟨rest, place⟩)) behind) : Stops (r >>= next) behind := by
  rcases stops_or.mp stops with fails | ⟨a, place, rfl⟩
  · exact (fails.bind next).stops behind
  · exact later a place

theorem Stops.bind_fails (stops : Stops r rest) {next : α × Cursor → Except Fault γ}
    (later : ∀ a place, Fails (next (a, ⟨rest, place⟩))) : Fails (r >>= next) := by
  rcases stops_or.mp stops with fails | ⟨a, place, rfl⟩
  · exact fails.bind next
  · exact later a place

theorem Stops.within (stops : Stops r rest) (step : Step) : Stops (within step r) rest := by
  rcases stops_or.mp stops with ⟨fault, rfl⟩ | ⟨a, place, rfl⟩
  · exact (fails_error (fault.under step)).stops rest
  · exact stops_ok a rest place

theorem Fails.within (fails : Fails r) (step : Step) : Fails (within step r) := by
  obtain ⟨fault, rfl⟩ := fails
  exact fails_error (fault.under step)

end Results

section Spaces

theorem trim_space {b : UInt8} (space : isSpace b = true) (bytes : List UInt8) (place : Place) :
    Cursor.trim ⟨b :: bytes, place⟩ = Cursor.trim ⟨bytes, place.after b⟩ := by
  rw [Cursor.trim, skipSpace, if_pos space]
  rfl

theorem trim_trim (c : Cursor) : c.trim.trim = c.trim := by
  obtain ⟨bytes, place⟩ := c
  induction bytes generalizing place with
  | nil => rfl
  | cons b bytes ih =>
    cases space : isSpace b with
    | true =>
      rw [trim_space space]
      exact ih (place.after b)
    | false => rw [trim_cons space, trim_cons space]

theorem trim_gap (gap : Gap) (rest : List UInt8) (place : Place) :
    ∃ place', Cursor.trim ⟨gap.bytes ++ rest, place⟩ = Cursor.trim ⟨rest, place'⟩ := by
  obtain ⟨bytes, blank⟩ := gap
  induction bytes generalizing place with
  | nil => exact ⟨place, rfl⟩
  | cons b bytes ih =>
    obtain ⟨place', skipped⟩ :=
      ih (place.after b) (fun d among => blank d (List.mem_cons_of_mem b among))
    refine ⟨place', ?_⟩
    rw [← skipped]
    exact trim_space (blank b List.mem_cons_self) (bytes ++ rest) place

theorem trims_gap {f : Cursor → γ} (trims : ∀ c, f c = f c.trim) (gap : Gap)
    (rest : List UInt8) (place : Place) :
    ∃ place', f ⟨gap.bytes ++ rest, place⟩ = f ⟨rest, place'⟩ := by
  obtain ⟨place', same⟩ := trim_gap gap rest place
  refine ⟨place', ?_⟩
  rw [trims, same, ← trims]

variable {read : Reader α} (trims : Trims read) (gap : Gap) {bytes : List UInt8}
include trims

theorem Trims.takes {a : α} (takes : Takes read bytes a) : Takes read (gap.bytes ++ bytes) a := by
  intro rest place closed
  obtain ⟨place', same⟩ := trims_gap trims gap (bytes ++ rest) place
  rw [List.append_assoc, same]
  exact takes rest place' closed

theorem Trims.keeps (keeps : Keeps read bytes) : Keeps read (gap.bytes ++ bytes) := by
  intro rest place closed
  obtain ⟨place', same⟩ := trims_gap trims gap (bytes ++ rest) place
  rw [List.append_assoc, same]
  exact keeps rest place' closed

theorem Trims.refuses (refuses : Refuses read bytes) : Refuses read (gap.bytes ++ bytes) := by
  intro rest place closed
  obtain ⟨place', same⟩ := trims_gap trims gap (bytes ++ rest) place
  rw [List.append_assoc, same]
  exact refuses rest place' closed

end Spaces

section Fronts

structure Fronted (bytes : List UInt8) (b : UInt8) : Prop where
  solid : isSpace b = false
  ends : endsValue b = false
  null : b = 0x6E → bytes = nullBytes
  boolean : b = 0x74 ∨ b = 0x66 → bytes = booleanBytes (b == 0x74)
  number : startsNumber b = true → Numeral bytes
  text : b = 0x22 → ∃ tokens, bytes = quoted tokens
  list : b = 0x5B → ∃ gap items, bytes = listBytes gap items ∧ ∀ i ∈ items, WellFormed i.value
  object : b = 0x7B → ∃ gap entries, bytes = objectBytes gap entries ∧
    ∀ e ∈ entries, WellFormed e.value.value

theorem WellFormed.fronted {bytes : List UInt8} (wellFormed : WellFormed bytes) :
    ∃ b more, bytes = b :: more ∧ Fronted bytes b := by
  cases wellFormed with
  | null =>
    refine ⟨0x6E, _, rfl, ?_⟩
    constructor
    case null => exact fun _ => rfl
    all_goals first | rfl | exact fun same => absurd same (by decide)
  | boolean b =>
    cases b with
    | true =>
      refine ⟨0x74, _, rfl, ?_⟩
      constructor
      case boolean => exact fun _ => rfl
      all_goals first | rfl | exact fun same => absurd same (by decide)
    | false =>
      refine ⟨0x66, _, rfl, ?_⟩
      constructor
      case boolean => exact fun _ => rfl
      all_goals first | rfl | exact fun same => absurd same (by decide)
  | number numeral =>
    obtain ⟨b, more, rfl, number⟩ := numeral.front
    obtain ⟨space, ends, other⟩ := number_solid number
    simp only [List.mem_cons, List.not_mem_nil, or_false, not_or] at other
    obtain ⟨quote, bracket, false', null, true', brace⟩ := other
    exact ⟨b, more, rfl, space, ends, fun same => absurd same null,
      fun same => absurd same (not_or.mpr ⟨true', false'⟩), fun _ => numeral,
      fun same => absurd same quote, fun same => absurd same bracket,
      fun same => absurd same brace⟩
  | text tokens =>
    refine ⟨0x22, _, rfl, ?_⟩
    constructor
    case text => exact fun _ => ⟨tokens, rfl⟩
    all_goals first | rfl | exact fun same => absurd same (by decide)
  | @list gap items each =>
    refine ⟨0x5B, _, rfl, ?_⟩
    constructor
    case list => exact fun _ => ⟨gap, items, rfl, each⟩
    all_goals first | rfl | exact fun same => absurd same (by decide)
  | @object gap entries each =>
    refine ⟨0x7B, _, rfl, ?_⟩
    constructor
    case object => exact fun _ => ⟨gap, entries, rfl, each⟩
    all_goals first | rfl | exact fun same => absurd same (by decide)

end Fronts

section Scalars

variable {bytes : List UInt8}

theorem refuseKind_fails (expected : String) (c : Cursor) :
    Fails (refuseKind expected c : Except Fault α) := by
  unfold refuseKind
  simp only [Cursor.blame, Cursor.fail]
  split
  · exact fails_error _
  · split
    · exact fails_bind _ fun _ => fails_error _
    split
    · exact fails_bind _ fun _ => fails_error _
    split
    · exact fails_bind _ fun _ => fails_error _
    split
    · exact fails_bind _ fun _ => fails_error _
    split
    · exact fails_bind _ fun _ => fails_error _
    split
    · exact fails_error _
    split
    · exact fails_error _
    · exact fails_error _

theorem trims_readString (expected : String) : Trims (readString expected) := by
  intro c
  simp only [readString, trim_trim]

theorem trims_boolean : Trims Format.boolean.read := by
  intro c
  simp only [Format.boolean, trim_trim]

theorem trims_natural (expected : String) (limit : Nat) :
    Trims (Format.natural expected limit).read := by
  intro c
  simp only [Format.natural, trim_trim]

theorem trims_optional (f : Format α) : Trims (Format.optional f).read := by
  intro c
  simp only [Format.optional, trim_trim]

theorem trims_list (f : Format α) : Trims (Format.list f).read := by
  intro c
  simp only [Format.list, trim_trim]

theorem trims_map {f : Format α} (trims : Trims f.read) (into : α → β) (back : β → α) :
    Trims (f.map into back).read := by
  intro c
  simp only [Format.map]
  rw [trims c]

theorem readString_quoted (expected : String) (tokens : List Token) (rest : List UInt8)
    (place : Place) :
    Leads (readString expected ⟨quoted tokens ++ rest, place⟩) rest (textOf tokens) := by
  have read := readText_spelled tokens (place.after 0x22) rest
  rw [quoted, List.cons_append, List.cons_append, List.append_assoc, List.singleton_append]
  simp only [readString, trim_cons (b := 0x22) rfl, Cursor.ahead]
  exact read

theorem keeps_readString (expected : String) (wellFormed : WellFormed bytes) :
    Keeps (readString expected) bytes := by
  intro rest place _
  obtain ⟨b, more, rfl, fronted⟩ := wellFormed.fronted
  by_cases quote : b = 0x22
  · obtain ⟨tokens, same⟩ := fronted.text quote
    rw [same]
    exact ⟨_, readString_quoted expected tokens rest place⟩
  · rw [List.cons_append]
    simp only [readString, trim_cons fronted.solid]
    split
    · rename_i found
      exact absurd (List.cons.inj found).1 quote
    · exact (refuseKind_fails expected _).stops rest

theorem keeps_boolean (wellFormed : WellFormed bytes) : Keeps Format.boolean.read bytes := by
  intro rest place _
  obtain ⟨b, more, rfl, fronted⟩ := wellFormed.fronted
  by_cases letter : b = 0x74 ∨ b = 0x66
  · have same := fronted.boolean letter
    rw [same]
    cases b == 0x74 <;> exact stops_ok _ rest _
  · rw [not_or] at letter
    rw [List.cons_append]
    simp only [Format.boolean, trim_cons fronted.solid]
    split
    · rename_i found
      exact absurd (List.cons.inj found).1 letter.1
    · rename_i found
      exact absurd (List.cons.inj found).1 letter.2
    · exact (refuseKind_fails _ _).stops rest

theorem optional_other (f : Format α) {b : UInt8} {more : List UInt8} (solid : isSpace b = false)
    (other : b ≠ 0x6E) (place : Place) :
    (Format.optional f).read ⟨b :: more, place⟩ =
      f.read ⟨b :: more, place⟩ >>= fun (a, c) => pure (some a, c) := by
  simp only [Format.optional, trim_cons solid]
  split
  · rename_i found
    exact absurd (List.cons.inj found).1 other
  · rfl

theorem optional_null (f : Format α) (rest : List UInt8) (place : Place) :
    Leads ((Format.optional f).read ⟨nullBytes ++ rest, place⟩) rest (some none) :=
  leads_ok none rest _

theorem keeps_optional {f : Format α} (keeps : Keeps f.read bytes) (wellFormed : WellFormed bytes) :
    Keeps (Format.optional f).read bytes := by
  intro rest place closed
  obtain ⟨b, more, rfl, fronted⟩ := wellFormed.fronted
  by_cases letter : b = 0x6E
  · rw [fronted.null letter]
    exact ⟨_, optional_null f rest place⟩
  · have stops := keeps rest place closed
    rw [List.cons_append] at stops ⊢
    rw [optional_other f fronted.solid letter]
    exact stops.bind fun a place => stops_ok (some a) rest place

theorem keeps_map {f : Format α} (keeps : Keeps f.read bytes) (into : α → β) (back : β → α) :
    Keeps (f.map into back).read bytes := by
  intro rest place closed
  exact (keeps rest place closed).bind fun a place => stops_ok (into a) rest place

end Scalars

section Numbers

variable {bytes : List UInt8}

theorem keeps_natural (expected : String) (limit : Nat) (wellFormed : WellFormed bytes) :
    Keeps (Format.natural expected limit).read bytes := by
  intro rest place closed
  obtain ⟨b, more, rfl, fronted⟩ := wellFormed.fronted
  cases number : startsNumber b with
  | true =>
    have stops : Stops _ rest := (fronted.number number).stops closed place
    rw [startsNumber] at number
    rw [List.cons_append] at stops ⊢
    simp only [Format.natural, trim_cons fronted.solid, number, ↓reduceIte]
    refine stops.bind fun n place => ?_
    cases n with
    | natural value =>
      dsimp only
      split
      · exact stops_ok value rest place
      · exact (fails_error _).stops rest
    | negative _ => exact (fails_error _).stops rest
    | float _ => exact (fails_error _).stops rest
  | false =>
    rw [startsNumber] at number
    rw [List.cons_append]
    simp only [Format.natural, trim_cons fronted.solid, number, Bool.false_eq_true, ↓reduceIte]
    exact (refuseKind_fails expected _).stops rest

end Numbers

end TenantGate.Json
