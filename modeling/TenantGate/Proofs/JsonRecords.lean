import TenantGate.Proofs.JsonMaps
import TenantGate.Proofs.JsonSkipping

/-!
Reading records. A record is a draft of itself in which the fields given so far are filled in. Its
reader keeps to every value if the readers of the fields do; it refuses an object in which a field
is given twice or holds what is refused, and it takes an object with members under the names of the
fields, in any order and among any others.
-/
namespace TenantGate.Json

open Utf8

variable {α ι τ δ : Type}

section Drafts

def Fields.names : {τ δ : Type} → Fields τ δ → List String
  | _, _, .none => []
  | _, _, .field name _ _ _ more => name :: more.names

def Fields.draft : {τ δ : Type} → Fields τ δ → τ → List String → δ
  | _, _, .none, (), _ => ()
  | _, _, .field name _ _ _ more, (a, b), given =>
    (if name ∈ given then some a else Option.none, more.draft b given)

theorem Fields.blank_eq_draft (fs : Fields τ δ) (t : τ) : fs.blank = fs.draft t [] := by
  induction fs with
  | none => rfl
  | field name absence hides format more ih =>
    rw [blank, ih t.2]
    rfl

theorem Fields.draft_other {fs : Fields τ δ} {key : String} (other : key ∉ fs.names) (t : τ)
    (given : List String) : fs.draft t (key :: given) = fs.draft t given := by
  induction fs with
  | none => rfl
  | field name absence hides format more ih =>
    rw [names, List.mem_cons, not_or] at other
    have same : name ∈ key :: given ↔ name ∈ given := by
      rw [List.mem_cons]
      exact or_iff_right fun named => other.1 named.symm
    simp only [draft, ih other.2, same]

def Fields.holds : {τ δ : Type} → Fields τ δ → δ → String → Bool
  | _, _, .none, (), _ => false
  | _, _, .field name _ _ _ more, (a?, b), key =>
    if key = name then a?.isSome else more.holds b key

def Absence.value? : Absence α → Option α
  | .required => Option.none
  | .nullable a => some a
  | .defaulted a => some a

def Fields.Complete : {τ δ : Type} → Fields τ δ → τ → List String → Prop
  | _, _, .none, (), _ => True
  | _, _, .field name absence _ _ more, (a, b), given =>
    (name ∈ given ∨ absence.value? = some a) ∧ more.Complete b given

theorem Fields.finish_draft {fs : Fields τ δ} {t : τ} {given : List String}
    (complete : fs.Complete t given) : fs.finish (fs.draft t given) = .ok t := by
  induction fs with
  | none => rfl
  | field name absence hides format more ih =>
    obtain ⟨a, b⟩ := t
    obtain ⟨own, others⟩ := complete
    have later := ih others
    by_cases held : name ∈ given
    · simp only [draft, if_pos held, finish, later, Except.map]
    · have filled := own.resolve_left held
      simp only [draft, if_neg held]
      cases absence with
      | required => exact absurd filled (by simp [Absence.value?])
      | nullable value | defaulted value =>
        obtain rfl := Option.some.inj filled
        simp only [finish, later, Except.map]

theorem Fields.complete_mono {fs : Fields τ δ} {t : τ} {given more : List String}
    (complete : fs.Complete t given) (all : ∀ name ∈ given, name ∈ more) : fs.Complete t more := by
  induction fs with
  | none => trivial
  | field name absence hides format rest ih =>
    exact ⟨complete.1.imp_left (all name), ih complete.2⟩

end Drafts

section Steps

/-- The field of that name has a format with the property. -/
def Fields.At : {τ δ : Type} → Fields τ δ → String → ((α : Type) → Format α → Prop) → Prop
  | _, _, .none, _, _ => False
  | _, _, .field (α := α) name _ _ format more, key, p =>
    key = name ∧ p α format ∨ key ≠ name ∧ more.At key p

structure Format.Steady (f : Format α) : Prop where
  trims : Trims f.read
  keeps : ∀ {bytes}, WellFormed bytes → Keeps f.read bytes

def Fields.Steady : {τ δ : Type} → Fields τ δ → Prop
  | _, _, .none => True
  | _, _, .field _ _ _ format more => format.Steady ∧ more.Steady

theorem Fields.Steady.at {fs : Fields τ δ} (steady : fs.Steady) {key : String}
    (named : key ∈ fs.names) : fs.At key fun _ f => f.Steady := by
  induction fs with
  | none => exact absurd named List.not_mem_nil
  | field name absence hides format more ih =>
    by_cases same : key = name
    · exact .inl ⟨same, steady.1⟩
    · exact .inr ⟨same, ih steady.2 ((List.mem_cons.mp named).resolve_left same)⟩

theorem Fields.readInto_other {fs : Fields τ δ} {key : String} (other : key ∉ fs.names) (draft : δ)
    (c : Cursor) : fs.readInto key draft c = Option.none := by
  induction fs with
  | none => rfl
  | field name absence hides format more ih =>
    rw [names, List.mem_cons, not_or] at other
    have elsewhere : ¬ (key == name) = true := by simpa using other.1
    simp only [readInto, if_neg elsewhere, ih other.2, Option.map_none]

theorem Fields.readInto_at {fs : Fields τ δ} {key : String} {p : (α : Type) → Format α → Prop}
    (at' : fs.At key p) (draft : δ) (c : Cursor) :
    ∃ (α : Type) (f : Format α) (fill : α → δ), p α f ∧
      (∀ a, fs.holds (fill a) key = true ∧
        ∀ other, fs.holds draft other = true → fs.holds (fill a) other = true) ∧
      fs.readInto key draft c = some
        (if fs.holds draft key then .error ⟨.duplicateField key, placeLeaving 0x7D c, []⟩
        else readColon c >>= fun c => within (.field key) (f.read c) >>= fun (a, c) =>
          pure (fill a, c)) := by
  induction fs with
  | none => exact at'.elim
  | field name absence hides format more ih =>
    obtain ⟨a?, b⟩ := draft
    rcases at' with ⟨rfl, own⟩ | ⟨other, later⟩
    · refine ⟨_, format, fun a => (some a, b), own, fun a => ⟨?_, fun other held => ?_⟩, ?_⟩
      · simp only [holds, ↓reduceIte, Option.isSome_some]
      · simp only [holds] at held ⊢
        split
        · rfl
        · rename_i different
          rwa [if_neg different] at held
      · simp only [readInto, beq_self_eq_true, ↓reduceIte, holds]
        cases a? <;> rfl
    · obtain ⟨α, f, fill, own, filled, read⟩ := ih later b
      have elsewhere : ¬ (key == name) = true := by simpa using other
      refine ⟨α, f, fun a => (a?, fill a), own, fun a => ⟨?_, fun name' held => ?_⟩, ?_⟩
      · simp only [holds, if_neg other]
        exact (filled a).1
      · simp only [holds] at held ⊢
        split
        · rename_i same
          rwa [if_pos same] at held
        · rename_i different
          rw [if_neg different] at held
          exact (filled a).2 name' held
      · simp only [readInto, if_neg elsewhere, read, Option.map_some, holds, if_neg other]
        split
        · rfl
        · simp only [bind, Except.bind]
          cases readColon c with
          | error fault => rfl
          | ok c =>
            dsimp only
            cases within (.field key) (f.read c) <;> rfl

/-- The bytes are read as what the record holds in the field of that name. -/
def Fields.States : {τ δ : Type} → Fields τ δ → τ → String → List UInt8 → Prop
  | _, _, .none, (), _, _ => False
  | _, _, .field name _ _ format more, (a, b), key, bytes =>
    key = name ∧ Takes format.read bytes a ∨ key ≠ name ∧ more.States b key bytes

theorem Fields.readInto_states {fs : Fields τ δ} (distinct : fs.names.Nodup) {t : τ} {key : String}
    {bytes : List UInt8} (states : fs.States t key bytes) {given : List String}
    (fresh : key ∉ given) {c : Cursor} {rest : List UInt8} (closed : Closed rest) {place : Place}
    (colon : readColon c = .ok ⟨bytes ++ rest, place⟩) :
    ∃ place', fs.readInto key (fs.draft t given) c =
      some (.ok (fs.draft t (key :: given), ⟨rest, place'⟩)) := by
  induction fs with
  | none => exact states.elim
  | field name absence hides format more ih =>
    rw [names, List.nodup_cons] at distinct
    rcases states with ⟨rfl, takes⟩ | ⟨other, later⟩
    · obtain ⟨place', taken⟩ := takes rest place closed
      refine ⟨place', ?_⟩
      simp only [readInto, draft, beq_self_eq_true, ↓reduceIte, if_neg fresh, colon, bind,
        Except.bind, taken, within, List.mem_cons_self, draft_other distinct.1]
      rfl
    · obtain ⟨place', taken⟩ := ih distinct.2 later
      refine ⟨place', ?_⟩
      have elsewhere : ¬ (key == name) = true := by simpa using other
      have same : name ∈ key :: given ↔ name ∈ given := by
        rw [List.mem_cons]
        exact or_iff_right fun named => other named.symm
      simp only [readInto, draft, if_neg elsewhere, taken, Option.map_some, Except.map, same]

theorem Fields.States.named {fs : Fields τ δ} {t : τ} {key : String} {bytes : List UInt8}
    (states : fs.States t key bytes) : key ∈ fs.names := by
  induction fs with
  | none => exact states.elim
  | field name absence hides format more ih =>
    rcases states with ⟨rfl, _⟩ | ⟨_, later⟩
    · exact List.mem_cons_self
    · exact List.mem_cons_of_mem name (ih later)

theorem skip_entry {e : Entry} (loose : Loose e.value.value) (entries : List Entry)
    (rest : List UInt8) (place : Place) :
    ∃ place', skipValue ⟨e.value.front ++ behindEntry e entries rest, place⟩ =
      .ok ⟨behindEntry e entries rest, place'⟩ := by
  rw [Padded.front, List.append_assoc]
  exact skipValue_padded loose (closed_behindEntry e entries rest) place

end Steps

section Objects

def atEntries (gap : Gap) (first : Bool) (entries : List Entry) (rest : List UInt8)
    (place : Place) : Cursor :=
  ⟨gap.bytes ++ (joined first (entries.map Entry.bytes) ++ 0x7D :: rest), place⟩

variable {fs : Fields τ δ}

theorem Fields.readObject_entry (fs : Fields τ δ) (draft : δ) (first : Bool) (fuel : Nat)
    (gap : Gap) (e : Entry) (entries : List Entry) (rest : List UInt8) (place : Place) :
    ∃ place', fs.readObject draft first (fuel + 1) (atEntries gap first (e :: entries) rest place) =
      (readText "" place' (spelled e.key ++ 0x22 :: behindKey e entries rest) >>= fun (key, c) =>
        match fs.readInto key draft c with
        | some r => r >>= fun (draft, c) => fs.readObject draft false fuel c
        | Option.none => readColon c >>= fun c => within (.field key) (skipValue c) >>= fun c =>
          fs.readObject draft false fuel c) := by
  obtain ⟨place', found⟩ := nextKey_entry first gap e entries rest place
  refine ⟨place', ?_⟩
  rw [atEntries, readObject, found]
  rfl

theorem Fields.readObject_keyed (fs : Fields τ δ) {e : Entry} {name : String}
    (given : textOf e.key = some name) (draft : δ) (first : Bool) (fuel : Nat) (gap : Gap)
    (entries : List Entry) (rest : List UInt8) (place : Place) :
    ∃ between start, readColon ⟨behindKey e entries rest, between⟩ =
        .ok ⟨e.value.front ++ behindEntry e entries rest, start⟩ ∧
      fs.readObject draft first (fuel + 1) (atEntries gap first (e :: entries) rest place) =
        match fs.readInto name draft ⟨behindKey e entries rest, between⟩ with
        | some r => r >>= fun (draft, c) => fs.readObject draft false fuel c
        | Option.none => within (.field name)
            (skipValue ⟨e.value.front ++ behindEntry e entries rest, start⟩) >>= fun c =>
              fs.readObject draft false fuel c := by
  obtain ⟨inside, same⟩ := fs.readObject_entry draft first fuel gap e entries rest place
  have keyed := readText_spelled e.key inside (behindKey e entries rest)
  rw [given] at keyed
  obtain ⟨between, keyed⟩ := keyed
  obtain ⟨start, colon⟩ := readColon_behindKey e entries rest between
  refine ⟨between, start, colon, ?_⟩
  rw [same, keyed]
  simp only [bind, Except.bind, colon]

theorem Fields.readObject_end (fs : Fields τ δ) (draft : δ) (first : Bool) (fuel : Nat)
    (gap : Gap) (rest : List UInt8) (place : Place) :
    ∃ place', fs.readObject draft first (fuel + 1) (atEntries gap first [] rest place) =
      match fs.finish draft with
      | .ok t => .ok (t, ⟨0x7D :: rest, place'⟩)
      | .error name =>
        .error ⟨.missingField name, placeLeaving 0x7D ⟨0x7D :: rest, place'⟩, []⟩ := by
  obtain ⟨place', found⟩ := nextKey_end first gap rest place
  refine ⟨place', ?_⟩
  rw [atEntries, List.map_nil, joined, List.nil_append, readObject, found]
  rfl

theorem Fields.readObject_known {e : Entry} {name : String} (given : textOf e.key = some name)
    {p : (α : Type) → Format α → Prop} (at' : fs.At name p) (draft : δ) (first : Bool) (fuel : Nat)
    (gap : Gap) (entries : List Entry) (rest : List UInt8) (place : Place) :
    ∃ (α : Type) (f : Format α) (fill : α → δ), p α f ∧
      (∀ a, fs.holds (fill a) name = true ∧
        ∀ other, fs.holds draft other = true → fs.holds (fill a) other = true) ∧
      ∃ fault place',
        fs.readObject draft first (fuel + 1) (atEntries gap first (e :: entries) rest place) =
          if fs.holds draft name then .error fault
          else within (.field name)
            (f.read ⟨e.value.front ++ behindEntry e entries rest, place'⟩) >>= fun (a, c) =>
              fs.readObject (fill a) false fuel c := by
  obtain ⟨between, start, colon, same⟩ := fs.readObject_keyed given draft first fuel gap entries rest
    place
  obtain ⟨α, f, fill, own, filled, read⟩ := readInto_at at' draft
    ⟨behindKey e entries rest, between⟩
  refine ⟨α, f, fill, own, filled, ⟨.duplicateField name,
    placeLeaving 0x7D ⟨behindKey e entries rest, between⟩, []⟩, start, ?_⟩
  rw [same]
  simp only [bind, Except.bind, read, colon]
  by_cases held : fs.holds draft name = true
  · simp only [if_pos held]
  · simp only [if_neg held]
    cases within (.field name) (f.read ⟨e.value.front ++ behindEntry e entries rest, start⟩) <;> rfl

theorem Fields.readObject_unknown {e : Entry} (wellFormed : WellFormed e.value.value)
    {name : String} (given : textOf e.key = some name) (other : name ∉ fs.names) (draft : δ)
    (first : Bool) (fuel : Nat) (gap : Gap) (entries : List Entry) (rest : List UInt8)
    (place : Place) :
    ∃ place',
      fs.readObject draft first (fuel + 1) (atEntries gap first (e :: entries) rest place) =
        fs.readObject draft false fuel (atEntries e.value.after false entries rest place') := by
  obtain ⟨between, start, _, same⟩ := fs.readObject_keyed given draft first fuel gap entries rest
    place
  obtain ⟨last, skipped⟩ := skip_entry wellFormed.loose entries rest start
  refine ⟨last, ?_⟩
  rw [same]
  simp only [bind, Except.bind, readInto_other other, skipped, within]
  rfl

/-- One entry: it is refused, or the others are read into a draft that holds what this one held, and
the value of the entry under a name that it had no value for. -/
theorem Fields.readObject_step (steady : fs.Steady) {e : Entry}
    (wellFormed : WellFormed e.value.value) (draft : δ) (first : Bool) (fuel : Nat) (gap : Gap)
    (entries : List Entry) (rest : List UInt8) (place : Place) :
    Fails (fs.readObject draft first (fuel + 1) (atEntries gap first (e :: entries) rest place)) ∨
    ∃ draft' place',
      fs.readObject draft first (fuel + 1) (atEntries gap first (e :: entries) rest place) =
        fs.readObject draft' false fuel (atEntries e.value.after false entries rest place') ∧
      (∀ other, fs.holds draft other = true → fs.holds draft' other = true) ∧
      ∀ name ∈ fs.names, textOf e.key = some name →
        fs.holds draft name = false ∧ fs.holds draft' name = true := by
  cases given : textOf e.key with
  | none =>
    obtain ⟨inside, same⟩ := fs.readObject_entry draft first fuel gap e entries rest place
    have keyed := readText_spelled e.key inside (behindKey e entries rest)
    rw [given] at keyed
    rw [same]
    exact .inl (Fails.bind keyed _)
  | some key =>
    by_cases named : key ∈ fs.names
    · obtain ⟨α, f, fill, own, filled, fault, start, same⟩ := readObject_known given
        (steady.at named) draft first fuel gap entries rest place
      rw [same]
      by_cases held : fs.holds draft key = true
      · rw [if_pos held]
        exact .inl (fails_error fault)
      · have keeps := (own.trims.keeps e.value.before (own.keeps wellFormed)) _ start
          (closed_behindEntry e entries rest)
        rw [if_neg held]
        rcases stops_or.mp (keeps.within (.field key)) with fails | ⟨a, last, taken⟩
        · exact .inl (fails.bind _)
        · refine .inr ⟨fill a, last, congrArg (· >>= _) taken, (filled a).2, ?_⟩
          intro name _ same
          obtain rfl := Option.some.inj same
          exact ⟨by simpa using held, (filled a).1⟩
    · obtain ⟨last, same⟩ := readObject_unknown wellFormed given named draft first fuel gap entries
        rest place
      refine .inr ⟨draft, last, same, fun _ held => held, ?_⟩
      intro name listed same
      obtain rfl := Option.some.inj same
      exact absurd listed named

theorem Fields.readObject_stops (steady : fs.Steady) {entries : List Entry}
    (each : ∀ e ∈ entries, WellFormed e.value.value) (draft : δ) (first : Bool) {fuel : Nat}
    (enough : entries.length < fuel) (gap : Gap) (rest : List UInt8) (place : Place) :
    Stops (fs.readObject draft first fuel (atEntries gap first entries rest place))
      (0x7D :: rest) := by
  induction entries generalizing draft first fuel gap place with
  | nil =>
    obtain ⟨fuel, rfl⟩ := Nat.exists_eq_succ_of_ne_zero (Nat.ne_zero_of_lt enough)
    obtain ⟨place', ended⟩ := fs.readObject_end draft first fuel gap rest place
    rw [ended]
    split
    · exact stops_ok _ _ place'
    · exact (fails_error _).stops _
  | cons e entries ih =>
    obtain ⟨fuel, rfl⟩ := Nat.exists_eq_succ_of_ne_zero (Nat.ne_zero_of_lt enough)
    rcases readObject_step steady (each e List.mem_cons_self) draft first fuel gap entries rest
      place with fails | ⟨draft', place', same, _⟩
    · exact fails.stops _
    · rw [same]
      exact ih (fun other among => each other (List.mem_cons_of_mem e among)) draft' false
        (Nat.lt_of_succ_lt_succ enough) e.value.after place'

def timesGiven (name : String) (entries : List Entry) : Nat :=
  (entries.map fun e => textOf e.key).count (some name)

theorem timesGiven_cons (name : String) (e : Entry) (entries : List Entry) :
    timesGiven name (e :: entries) =
      timesGiven name entries + if textOf e.key = some name then 1 else 0 := by
  simp only [timesGiven, List.map_cons, List.count_cons, beq_iff_eq]

/-- A field that is given twice is refused, whether one of the two is read already or none is. -/
theorem Fields.readObject_repeated (steady : fs.Steady) {name : String} (named : name ∈ fs.names)
    {entries : List Entry} (each : ∀ e ∈ entries, WellFormed e.value.value) {draft : δ}
    (repeated : 2 ≤ timesGiven name entries + (fs.holds draft name).toNat) (first : Bool)
    (fuel : Nat) (gap : Gap) (rest : List UInt8) (place : Place) :
    Fails (fs.readObject draft first fuel (atEntries gap first entries rest place)) := by
  induction entries generalizing draft first fuel gap place with
  | nil =>
    have most := Bool.toNat_le (fs.holds draft name)
    have never : timesGiven name [] = 0 := rfl
    omega
  | cons e entries ih =>
    cases fuel with
    | zero => exact fails_error _
    | succ fuel =>
      rcases readObject_step steady (each e List.mem_cons_self) draft first fuel gap entries rest
        place with fails | ⟨draft', place', same, held, own⟩
      · exact fails
      · rw [same]
        refine ih (fun other among => each other (List.mem_cons_of_mem e among)) ?_ false fuel
          e.value.after place'
        rw [timesGiven_cons] at repeated
        by_cases given : textOf e.key = some name
        · obtain ⟨free, filled⟩ := own name named given
          rw [free, if_pos given] at repeated
          rw [filled]
          simpa using repeated
        · rw [if_neg given] at repeated
          have grows : (fs.holds draft name).toNat ≤ (fs.holds draft' name).toNat := by
            cases before : fs.holds draft name with
            | false => exact Nat.zero_le _
            | true => exact Nat.le_of_eq (congrArg Bool.toNat (held name before).symm)
          omega

theorem Fields.readObject_refused (steady : fs.Steady) {refused : Entry} {name : String}
    (given : textOf refused.key = some name)
    (refuses : fs.At name fun _ f => Refuses f.read refused.value.front)
    {entries : List Entry} (among : refused ∈ entries)
    (each : ∀ e ∈ entries, WellFormed e.value.value) (draft : δ) (first : Bool) (fuel : Nat)
    (gap : Gap) (rest : List UInt8) (place : Place) :
    Fails (fs.readObject draft first fuel (atEntries gap first entries rest place)) := by
  induction entries generalizing draft first fuel gap place with
  | nil => exact absurd among List.not_mem_nil
  | cons e entries ih =>
    cases fuel with
    | zero => exact fails_error _
    | succ fuel =>
      rcases List.mem_cons.mp among with rfl | later
      · obtain ⟨α, f, fill, own, _, fault, start, same⟩ := readObject_known given refuses draft
          first fuel gap entries rest place
        rw [same]
        split
        · exact fails_error fault
        · exact ((own _ start (closed_behindEntry refused entries rest)).within _).bind _
      · rcases readObject_step steady (each e List.mem_cons_self) draft first fuel gap entries rest
          place with fails | ⟨draft', place', same, _⟩
        · exact fails
        · rw [same]
          exact ih later (fun other among => each other (List.mem_cons_of_mem e among)) draft' false
            fuel e.value.after place'

def Fields.givenBy (fs : Fields τ δ) (entries : List Entry) : List String :=
  entries.filterMap fun e => (textOf e.key).filter (· ∈ fs.names)

/-- An entry gives what the record holds, or it is under a name that is no field's. -/
def Fields.Fits (fs : Fields τ δ) (t : τ) (e : Entry) : Prop :=
  ∃ name, textOf e.key = some name ∧
    (fs.States t name e.value.front ∨ name ∉ fs.names ∧ WellFormed e.value.value)

theorem Fields.readObject_takes (distinct : fs.names.Nodup) {t : τ} {entries : List Entry}
    (fits : ∀ e ∈ entries, fs.Fits t e) {given : List String}
    (fresh : (fs.givenBy entries ++ given).Nodup)
    (complete : fs.Complete t (fs.givenBy entries ++ given)) (first : Bool) {fuel : Nat}
    (enough : entries.length < fuel) (gap : Gap) (rest : List UInt8) (place : Place) :
    ∃ place', fs.readObject (fs.draft t given) first fuel (atEntries gap first entries rest place) =
      .ok (t, ⟨0x7D :: rest, place'⟩) := by
  -- over the entries to come: what is read goes from them to the fields that are given
  induction entries generalizing given first fuel gap place with
  | nil =>
    obtain ⟨fuel, rfl⟩ := Nat.exists_eq_succ_of_ne_zero (Nat.ne_zero_of_lt enough)
    have finished : fs.finish (fs.draft t given) = .ok t := finish_draft complete
    obtain ⟨place', ended⟩ := fs.readObject_end (fs.draft t given) first fuel gap rest place
    rw [finished] at ended
    exact ⟨place', ended⟩
  | cons e entries ih =>
    obtain ⟨fuel, rfl⟩ := Nat.exists_eq_succ_of_ne_zero (Nat.ne_zero_of_lt enough)
    have others : ∀ other ∈ entries, fs.Fits t other :=
      fun other among => fits other (List.mem_cons_of_mem e among)
    obtain ⟨name, key, states | ⟨other, wellFormed⟩⟩ := fits e List.mem_cons_self
    · have front : fs.givenBy (e :: entries) = name :: fs.givenBy entries := by
        simp only [givenBy, List.filterMap_cons, key, Option.filter_some, states.named, decide_true,
          ↓reduceIte]
      have order : (fs.givenBy (e :: entries) ++ given).Perm
          (fs.givenBy entries ++ name :: given) := by
        rw [front]
        exact List.perm_middle.symm
      have fresh' := order.nodup_iff.mp fresh
      have own : name ∉ given := (List.nodup_cons.mp (List.nodup_append.mp fresh').2.1).1
      obtain ⟨between, start, colon, same⟩ := fs.readObject_keyed key (fs.draft t given) first fuel gap
        entries rest place
      obtain ⟨behind, taken⟩ := readInto_states distinct states own
        (closed_behindEntry e entries rest) colon
      obtain ⟨last, done⟩ := ih others fresh'
        (complete_mono complete fun name listed => order.mem_iff.mp listed) false
        (Nat.lt_of_succ_lt_succ enough) e.value.after behind
      refine ⟨last, ?_⟩
      rw [same, taken]
      exact done
    · have front : fs.givenBy (e :: entries) = fs.givenBy entries := by
        simp only [givenBy, List.filterMap_cons, key, Option.filter_some, other, decide_false,
          Bool.false_eq_true, ↓reduceIte]
      rw [front] at fresh complete
      obtain ⟨behind, same⟩ := readObject_unknown wellFormed key other (fs.draft t given) first fuel
        gap entries rest place
      obtain ⟨last, done⟩ := ih others fresh complete false (Nat.lt_of_succ_lt_succ enough)
        e.value.after behind
      exact ⟨last, same.trans done⟩

end Objects

section Positions

def atItems (gap : Gap) (first : Bool) (items : List Padded) (rest : List UInt8) (place : Place) :
    Cursor :=
  ⟨gap.bytes ++ (joined first (items.map Padded.bytes) ++ 0x5D :: rest), place⟩

variable {fs : Fields τ δ}

theorem Fields.readList_stops (steady : fs.Steady) (expected : String) {items : List Padded}
    (each : ∀ i ∈ items, WellFormed i.value) (index : Nat) (first : Bool) (gap : Gap)
    (rest : List UInt8) (place : Place) :
    Fails (fs.readList expected index first (atItems gap first items rest place)) ∨
    ∃ t gap' first' items' place',
      fs.readList expected index first (atItems gap first items rest place) =
        .ok (t, atItems gap' first' items' rest place') ∧
      ∀ i ∈ items', WellFormed i.value := by
  induction fs generalizing items index first gap place with
  | none => exact .inr ⟨(), gap, first, items, place, rfl, each⟩
  | field name absence hides format more ih =>
    cases items with
    | nil =>
      obtain ⟨place', found⟩ := nextItem_end first gap rest place
      simp only [readList, atItems, List.map_nil, joined, List.nil_append, found, bind, Except.bind,
        Bool.false_eq_true, ↓reduceIte]
      cases absence with
      | defaulted a =>
        have later := ih steady.2 each (index + 1) first .none place'
        rcases later with ⟨fault, failed⟩ | ⟨b, gap', first', items', last, read, left⟩
        · have failed : more.readList expected (index + 1) first ⟨0x5D :: rest, place'⟩ =
            .error fault := failed
          simp only [failed]
          exact .inl (fails_error fault)
        · have read : more.readList expected (index + 1) first ⟨0x5D :: rest, place'⟩ =
            .ok (b, atItems gap' first' items' rest last) := read
          simp only [read]
          exact .inr ⟨(a, b), gap', first', items', last, rfl, left⟩
      | required => exact .inl (fails_error _)
      | nullable a => exact .inl (fails_error _)
    | cons i items =>
      have own := each i List.mem_cons_self
      obtain ⟨place', found⟩ := nextItem_item own.starts first gap items (0x5D :: rest) place
      have closed := closed_behind i.after 0x5D rfl (items.map Padded.bytes) rest
      have stops := (steady.1.keeps own _ place' closed).within (.item index)
      simp only [readList, atItems, found, bind, Except.bind, ↓reduceIte]
      rcases stops_or.mp stops with ⟨fault, failed⟩ | ⟨a, behind, taken⟩
      · simp only [failed]
        exact .inl (fails_error fault)
      · have later := ih steady.2 (fun other among => each other (List.mem_cons_of_mem i among))
          (index + 1) false i.after behind
        simp only [taken]
        rcases later with ⟨fault, failed⟩ | ⟨b, gap', first', items', last, read, left⟩
        · rw [atItems] at failed
          simp only [failed]
          exact .inl (fails_error fault)
        · rw [atItems] at read
          simp only [read]
          exact .inr ⟨(a, b), gap', first', items', last, rfl, left⟩

def Fields.RefusesItem : {τ δ : Type} → Fields τ δ → List Padded → Prop
  | _, _, .field _ _ _ format more, i :: items =>
    Refuses format.read i.value ∨ more.RefusesItem items
  | _, _, _, _ => False

theorem Fields.readList_fails (steady : fs.Steady) (expected : String) {items : List Padded}
    (each : ∀ i ∈ items, WellFormed i.value) (refuses : fs.RefusesItem items) (index : Nat)
    (first : Bool) (gap : Gap) (rest : List UInt8) (place : Place) :
    Fails (fs.readList expected index first (atItems gap first items rest place)) := by
  induction fs generalizing items index first gap place with
  | none => exact refuses.elim
  | field name absence hides format more ih =>
    cases items with
    | nil => exact refuses.elim
    | cons i items =>
      have own := each i List.mem_cons_self
      obtain ⟨place', found⟩ := nextItem_item own.starts first gap items (0x5D :: rest) place
      have closed := closed_behind i.after 0x5D rfl (items.map Padded.bytes) rest
      simp only [readList, atItems, found, bind, Except.bind, ↓reduceIte]
      rcases refuses with refused | later
      · obtain ⟨fault, failed⟩ := (refused _ place' closed).within (.item index)
        rw [failed]
        exact fails_error fault
      · have stops := (steady.1.keeps own _ place' closed).within (.item index)
        rcases stops_or.mp stops with ⟨fault, failed⟩ | ⟨a, behind, taken⟩
        · rw [failed]
          exact fails_error fault
        · obtain ⟨fault, failed⟩ := ih steady.2
            (fun other among => each other (List.mem_cons_of_mem i among)) later (index + 1) false
            i.after behind
          rw [atItems] at failed
          simp only [taken, failed]
          exact fails_error fault

theorem endList_items {items : List Padded} (each : ∀ i ∈ items, WellFormed i.value) (gap : Gap)
    (first : Bool) (rest : List UInt8) (place : Place) :
    Fails (endList (atItems gap first items rest place)) ∨
      ∃ place', endList (atItems gap first items rest place) = .ok ⟨rest, place'⟩ := by
  have trims (c : Cursor) : endList c = endList c.trim := by simp only [endList, trim_trim]
  cases items with
  | nil => exact .inr (endList_end gap rest place)
  | cons i items =>
    left
    rw [atItems, List.map_cons, joined, List.append_assoc]
    cases first with
    | true =>
      obtain ⟨b, more, value, space, ends⟩ := (each i List.mem_cons_self).front
      rw [if_pos rfl, i.bytes_append, Padded.front, List.append_assoc, value]
      obtain ⟨between, skipped⟩ := trims_gap trims gap (i.before.bytes ++ ((b :: more) ++
        (i.after.bytes ++ (joined false (items.map Padded.bytes) ++ 0x5D :: rest)))) place
      obtain ⟨place', skipped'⟩ := trims_gap trims i.before ((b :: more) ++
        (i.after.bytes ++ (joined false (items.map Padded.bytes) ++ 0x5D :: rest))) between
      simp only [endsValue, Bool.or_eq_false_iff] at ends
      obtain ⟨⟨⟨_, comma⟩, bracket⟩, _⟩ := ends
      rw [skipped, skipped', List.cons_append]
      simp only [endList, trim_cons space, bracket, comma, Bool.false_eq_true, ↓reduceIte]
      exact fails_error _
    | false =>
      rw [if_neg (by decide), List.cons_append]
      obtain ⟨between, skipped⟩ := trims_gap trims gap (0x2C :: (i.bytes ++
        (joined false (items.map Padded.bytes) ++ 0x5D :: rest))) place
      have bracket : ((0x2C : UInt8) == 0x5D) = false := rfl
      rw [skipped]
      simp only [endList, trim_cons (b := 0x2C) rfl, bracket, beq_self_eq_true, Bool.false_eq_true,
        ↓reduceIte]
      split
      · exact fails_error _
      · exact fails_error _

end Positions

section Records

variable {fs : Fields τ δ}

theorem trims_record (name : String) (fs : Fields τ δ) : Trims (Format.record name fs).read := by
  intro c
  simp only [Format.record, trim_trim]

theorem record_list (name : String) (fs : Fields τ δ) (gap : Gap) (items : List Padded)
    (rest : List UInt8) (place : Place) :
    ∃ expected, (Format.record name fs).read ⟨listBytes gap items ++ rest, place⟩ =
      (fs.readList expected 0 true (atItems gap true items rest (place.after 0x5B)) >>=
        fun (t, c) => do return (t, ← endList c)) := by
  rw [listBytes_append]
  exact ⟨_, rfl⟩

theorem record_object (name : String) (fs : Fields τ δ) (gap : Gap) (entries : List Entry)
    (rest : List UInt8) (place : Place) :
    ∃ fuel, entries.length < fuel ∧
      (Format.record name fs).read ⟨objectBytes gap entries ++ rest, place⟩ =
        (fs.readObject fs.blank true fuel (atEntries gap true entries rest (place.after 0x7B)) >>=
          fun (t, c) => do return (t, ← endObject c)) := by
  have most := length_le_entries entries
  refine ⟨(gap.bytes ++ (joined true (entries.map Entry.bytes) ++ 0x7D :: rest)).length + 1, ?_, ?_⟩
  · rw [List.length_append, List.length_append]
    omega
  · rw [objectBytes_append]
    rfl

theorem keeps_record (name : String) (steady : fs.Steady) {bytes : List UInt8}
    (wellFormed : WellFormed bytes) : Keeps (Format.record name fs).read bytes := by
  intro rest place _
  obtain ⟨b, more, rfl, fronted⟩ := wellFormed.fronted
  by_cases bracket : b = 0x5B
  · obtain ⟨gap, items, same, each⟩ := fronted.list bracket
    obtain ⟨expected, read⟩ := record_list name fs gap items rest place
    rw [same, read]
    rcases Fields.readList_stops steady expected each 0 true gap rest (place.after 0x5B) with
      fails | ⟨t, gap', first', items', place', done, left⟩
    · exact (fails.bind _).stops rest
    · rw [done]
      rcases endList_items left gap' first' rest place' with ⟨fault, failed⟩ | ⟨last, ended⟩
      · simp only [bind, Except.bind, failed]
        exact (fails_error fault).stops rest
      · simp only [bind, Except.bind, ended]
        exact stops_ok t rest last
  by_cases brace : b = 0x7B
  · obtain ⟨gap, entries, same, each⟩ := fronted.object brace
    obtain ⟨fuel, enough, read⟩ := record_object name fs gap entries rest place
    rw [same, read]
    refine (Fields.readObject_stops steady each fs.blank true enough gap rest _).bind
      fun t behind => ?_
    exact stops_ok t rest (behind.after 0x7D)
  · rw [List.cons_append]
    simp only [Format.record, trim_cons fronted.solid]
    split
    · rename_i found
      exact absurd (List.cons.inj found).1 bracket
    · rename_i found
      exact absurd (List.cons.inj found).1 brace
    · exact (refuseKind_fails _ _).stops rest

theorem steady_record (name : String) (steady : fs.Steady) : (Format.record name fs).Steady :=
  ⟨trims_record name fs, keeps_record name steady⟩

theorem refuses_repeated (record : String) (steady : fs.Steady) {name : String}
    (named : name ∈ fs.names) (gap : Gap) {entries : List Entry}
    (each : ∀ e ∈ entries, WellFormed e.value.value) (repeated : 2 ≤ timesGiven name entries) :
    Refuses (Format.record record fs).read (objectBytes gap entries) := by
  intro rest place _
  obtain ⟨fuel, _, read⟩ := record_object record fs gap entries rest place
  rw [read]
  exact (Fields.readObject_repeated steady named each
    (Nat.le_trans repeated (Nat.le_add_right _ _)) true fuel gap rest _).bind _

theorem refuses_member (record : String) (steady : fs.Steady) {refused : Entry} {name : String}
    (given : textOf refused.key = some name)
    (refuses : fs.At name fun _ f => Refuses f.read refused.value.front) (gap : Gap)
    {entries : List Entry} (among : refused ∈ entries)
    (each : ∀ e ∈ entries, WellFormed e.value.value) :
    Refuses (Format.record record fs).read (objectBytes gap entries) := by
  intro rest place _
  obtain ⟨fuel, _, read⟩ := record_object record fs gap entries rest place
  rw [read]
  exact (Fields.readObject_refused steady given refuses among each fs.blank true fuel gap rest
    _).bind _

theorem refuses_position (record : String) (steady : fs.Steady) (gap : Gap) {items : List Padded}
    (each : ∀ i ∈ items, WellFormed i.value) (refuses : fs.RefusesItem items) :
    Refuses (Format.record record fs).read (listBytes gap items) := by
  intro rest place _
  obtain ⟨expected, read⟩ := record_list record fs gap items rest place
  rw [read]
  exact (Fields.readList_fails steady expected each refuses 0 true gap rest _).bind _

theorem takes_record (record : String) (distinct : fs.names.Nodup) {t : τ} (gap : Gap)
    {entries : List Entry} (fits : ∀ e ∈ entries, fs.Fits t e)
    (fresh : (fs.givenBy entries).Nodup) (complete : fs.Complete t (fs.givenBy entries)) :
    Takes (Format.record record fs).read (objectBytes gap entries) t := by
  intro rest place _
  obtain ⟨fuel, enough, read⟩ := record_object record fs gap entries rest place
  rw [← List.append_nil (fs.givenBy entries)] at fresh complete
  obtain ⟨behind, taken⟩ := Fields.readObject_takes distinct fits fresh complete true enough gap
    rest (place.after 0x7B)
  rw [← Fields.blank_eq_draft] at taken
  refine ⟨behind.after 0x7D, ?_⟩
  rw [read]
  exact congrArg (· >>= _) taken

theorem Fields.givenBy_named (fs : Fields τ δ) {given : List ι} {name : ι → String}
    {entry : ι → Entry}
    (keyed : ∀ i ∈ given, textOf (entry i).key = some (name i) ∧ name i ∈ fs.names) :
    fs.givenBy (given.map entry) = given.map name := by
  induction given with
  | nil => rfl
  | cons i given ih =>
    obtain ⟨key, named⟩ := keyed i List.mem_cons_self
    have later := ih fun other among => keyed other (List.mem_cons_of_mem i among)
    rw [givenBy] at later ⊢
    simp only [List.map_cons, List.filterMap_cons, key, Option.filter_some, named, decide_true,
      ↓reduceIte, later]

theorem Fields.givenBy_others (fs : Fields τ δ) {others : List Entry}
    (unknown : ∀ e ∈ others, ∃ name, textOf e.key = some name ∧ name ∉ fs.names) :
    fs.givenBy others = [] := by
  rw [givenBy, List.filterMap_eq_nil_iff]
  intro e among
  obtain ⟨name, key, other⟩ := unknown e among
  simp only [key, Option.filter_some, other, decide_false, Bool.false_eq_true, ↓reduceIte]

theorem takes_written_record {fs : Fields τ δ} (name : String) (distinct : fs.names.Nodup) {t : τ}
    (states : ∀ m ∈ fs.write t, fs.States t m.1 (encode m.2))
    (once : ((fs.write t).map Prod.fst).Nodup)
    (complete : fs.Complete t ((fs.write t).map Prod.fst)) :
    Takes (Format.record name fs).read (encode ((Format.record name fs).write t)) t := by
  obtain ⟨given, same, written, each⟩ := encode_objectText (fs.write t)
  have stated {m : (String × String) × Entry} (listed : m ∈ given) :
      fs.States t m.1.1 (encode m.1.2) :=
    states m.1 (same ▸ List.mem_map_of_mem listed)
  have names : fs.givenBy (given.map Prod.snd) = (fs.write t).map Prod.fst := by
    rw [fs.givenBy_named fun m listed => ⟨(each m listed).1, (stated listed).named⟩, ← same,
      List.map_map]
    rfl
  have written : encode ((Format.record name fs).write t) =
      objectBytes .none (given.map Prod.snd) := written
  rw [written]
  apply takes_record name distinct
  · refine List.forall_mem_map.mpr fun m listed => ⟨m.1.1, (each m listed).1, .inl ?_⟩
    rw [(each m listed).2]
    exact stated listed
  · rwa [names]
  · rwa [names]

end Records

end TenantGate.Json
