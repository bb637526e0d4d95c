import TenantGate.Proofs.JsonRecords
import TenantGate.Proofs.JsonShapes

/-!
Records whose only field is a text that must be given. The texts that such a record is read from are
an object with one member of the name among others of other names, and a list of one string. A
misfit is known by what the text starts with: up to the value of a wrong shape, the second member of
the name, or the end without one. Every other text is broken. What stands behind the record, or
behind the misfit, is not looked at.
-/
namespace TenantGate.Json

variable {name s : String} {o o' : Option String} {bytes rest : List UInt8}

def soleText (title name : String) : Format (String × Unit) :=
  .record title (.field name .required (fun _ => false) .string .none)

section Grammar

structure Entry.Other (name : String) (e : Entry) : Prop where
  key : ∃ k, textOf e.key = some k ∧ k ≠ name
  value : Loose e.value.value

structure Entry.Gives (name s : String) (e : Entry) : Prop where
  key : textOf e.key = some name
  value : ∃ tokens, e.value.value = quoted tokens ∧ textOf tokens = some s

inductive Holds (name s : String) : List UInt8 → List UInt8 → Prop where
  | object (lead gap : Gap) {before after : List Entry} {own : Entry}
      (others : ∀ e ∈ before ++ after, e.Other name) (gives : own.Gives name s)
      (rest : List UInt8) :
      Holds name s (lead.bytes ++ (objectBytes gap (before ++ own :: after) ++ rest)) rest
  | list (lead gap : Gap) {item : Padded} {tokens : List Token} (value : item.value = quoted tokens)
      (means : textOf tokens = some s) (rest : List UInt8) :
      Holds name s (lead.bytes ++ (listBytes gap [item] ++ rest)) rest

/-- The entries of an object in front of what is read next, which is the first if there are none. -/
def behindEntries (gap : Gap) (entries : List Entry) (bytes : List UInt8) : List UInt8 :=
  0x7B :: (gap.bytes ++ (joined true (entries.map Entry.bytes) ++
    (comma entries.isEmpty ++ bytes)))

inductive Misses (name : String) : List UInt8 → Prop where
  | other (lead : Gap) {shape : ValueShape} {value : List UInt8} (shown : Shows shape value)
      (other : shape ≠ .object ∧ shape ≠ .list) : Misses name (lead.bytes ++ value)
  | empty (lead gap : Gap) (rest : List UInt8) :
      Misses name (lead.bytes ++ (listBytes gap [] ++ rest))
  | item (lead gap : Gap) {shape : ValueShape} {value : List UInt8} (shown : Shows shape value)
      (other : shape ≠ .text) : Misses name (lead.bytes ++ 0x5B :: (gap.bytes ++ value))
  | missing (lead gap : Gap) {entries : List Entry} (others : ∀ e ∈ entries, e.Other name)
      (rest : List UInt8) : Misses name (lead.bytes ++ (objectBytes gap entries ++ rest))
  | repeated (lead gap : Gap) {before after : List Entry} {own : Entry} {s : String}
      (others : ∀ e ∈ before ++ after, e.Other name) (gives : own.Gives name s) (front : Gap)
      {again : List Token} (named : textOf again = some name) (rest : List UInt8) :
      Misses name (lead.bytes ++ behindEntries gap (before ++ own :: after)
        (front.bytes ++ (quoted again ++ rest)))
  | member (lead gap : Gap) {entries : List Entry} (others : ∀ e ∈ entries, e.Other name)
      (front : Gap) {key : List Token} (named : textOf key = some name) (behind within : Gap)
      {shape : ValueShape} {value : List UInt8} (shown : Shows shape value)
      (other : shape ≠ .text) :
      Misses name (lead.bytes ++ behindEntries gap entries
        (front.bytes ++ (quoted key ++ (behind.bytes ++ 0x3A :: (within.bytes ++ value)))))

theorem Holds.append (holds : Holds name s bytes rest) (more : List UInt8) :
    Holds name s (bytes ++ more) (rest ++ more) := by
  cases holds with
  | object lead gap others gives rest =>
    rw [List.append_assoc, List.append_assoc]
    exact .object lead gap others gives (rest ++ more)
  | list lead gap value means rest =>
    rw [List.append_assoc, List.append_assoc]
    exact .list lead gap value means (rest ++ more)

end Grammar

section Drafts

inductive Gathers (name : String) : Option String → List Entry → Option String → Prop where
  | nil (o : Option String) : Gathers name o [] o
  | other {e : Entry} {entries : List Entry} {o o' : Option String} (other : e.Other name)
      (later : Gathers name o entries o') : Gathers name o (e :: entries) o'
  | own {e : Entry} {entries : List Entry} {s : String} {o' : Option String}
      (gives : e.Gives name s) (later : Gathers name (some s) entries o') :
      Gathers name none (e :: entries) o'

theorem gathers_held_iff {entries : List Entry} :
    Gathers name (some s) entries o ↔ o = some s ∧ ∀ e ∈ entries, e.Other name := by
  constructor
  · intro gathers
    induction entries with
    | nil =>
      cases gathers with
      | nil => exact ⟨rfl, by simp⟩
    | cons e entries ih =>
      cases gathers with
      | other other later =>
        obtain ⟨same, others⟩ := ih later
        exact ⟨same, List.forall_mem_cons.mpr ⟨other, others⟩⟩
  · rintro ⟨rfl, others⟩
    induction entries with
    | nil => exact .nil _
    | cons e entries ih =>
      obtain ⟨other, others⟩ := List.forall_mem_cons.mp others
      exact .other other (ih others)

theorem gathers_none_iff {entries : List Entry} :
    Gathers name none entries none ↔ ∀ e ∈ entries, e.Other name := by
  constructor
  · intro gathers
    induction entries with
    | nil => simp
    | cons e entries ih =>
      cases gathers with
      | other other later => exact List.forall_mem_cons.mpr ⟨other, ih later⟩
      | own gives later => exact absurd (gathers_held_iff.mp later).1 (by simp)
  · intro others
    induction entries with
    | nil => exact .nil _
    | cons e entries ih =>
      obtain ⟨other, others⟩ := List.forall_mem_cons.mp others
      exact .other other (ih others)

theorem gathers_some_iff {entries : List Entry} :
    Gathers name none entries (some s) ↔ ∃ before own after, entries = before ++ own :: after ∧
      (∀ e ∈ before ++ after, e.Other name) ∧ own.Gives name s := by
  constructor
  · intro gathers
    induction entries with
    | nil => cases gathers
    | cons e entries ih =>
      cases gathers with
      | other other later =>
        obtain ⟨before, own, after, rfl, others, gives⟩ := ih later
        exact ⟨e :: before, own, after, rfl, List.forall_mem_cons.mpr ⟨other, others⟩, gives⟩
      | own gives later =>
        obtain ⟨same, others⟩ := gathers_held_iff.mp later
        obtain rfl := Option.some.inj same
        exact ⟨[], e, entries, rfl, others, gives⟩
  · rintro ⟨before, own, after, rfl, others, gives⟩
    induction before with
    | nil => exact .own gives (gathers_held_iff.mpr ⟨rfl, others⟩)
    | cons e before ih =>
      obtain ⟨other, others⟩ := List.forall_mem_cons.mp others
      exact .other other (ih others)

end Drafts

section Members

def readSole (name : String) (o : Option String) (first : Bool) (fuel : Nat) (c : Cursor) :
    Except Fault ((String × Unit) × Cursor) :=
  (Fields.field name .required (fun _ => false) .string .none).readObject (o, ()) first fuel c

def readMember (name : String) (o : Option String) (key : String) (c : Cursor) :
    Except Fault (Option String × Cursor) :=
  if key == name then
    match o with
    | some _ => .error ⟨.duplicateField name, placeLeaving 0x7D c, []⟩
    | none => readColon c >>= fun c =>
      within (.field name) (readString "a string" c) >>= fun (s, c) => .ok (some s, c)
  else readColon c >>= fun c => within (.field key) (skipValue c) >>= fun c => .ok (o, c)

/-- Behind a key there is one member and then the others; without a key the record is finished. -/
theorem readSole_succ (name : String) (o : Option String) (first : Bool) (fuel : Nat) (c : Cursor) :
    readSole name o first (fuel + 1) c = nextKey first c >>= fun (more, c) =>
      if more then readText "" c.place c.rest >>= fun (key, c) =>
        readMember name o key c >>= fun (o, c) => readSole name o false fuel c
      else match o with
        | some s => .ok ((s, ()), c)
        | none => .error ⟨.missingField name, placeLeaving 0x7D c, []⟩ := by
  rw [readSole, Fields.readObject]
  cases nextKey first c with
  | error fault => rfl
  | ok found =>
    obtain ⟨more, c⟩ := found
    cases more with
    | false => cases o <;> rfl
    | true =>
      simp only [bind, Except.bind, ↓reduceIte]
      cases readText "" c.place c.rest with
      | error fault => rfl
      | ok keyed =>
        obtain ⟨key, c⟩ := keyed
        simp only [Fields.readInto, readMember, bind, Except.bind]
        cases key == name with
        | false =>
          simp only [Bool.false_eq_true, ↓reduceIte, Option.map_none]
          cases readColon c with
          | error fault => rfl
          | ok c =>
            dsimp only
            cases within (.field key) (skipValue c) <;> rfl
        | true =>
          simp only [↓reduceIte]
          cases o with
          | some s => rfl
          | none =>
            cases readColon c with
            | error fault => rfl
            | ok c =>
              dsimp only [Format.string]
              cases within (.field name) (readString "a string" c) <;> rfl

theorem readMember_ok {key : String} {tokens : List Token} (named : textOf tokens = some key)
    {place : Place} (read : Leads (readMember name o key ⟨bytes, place⟩) rest (some o')) :
    ∃ (gap before : Gap) (value : List UInt8),
      bytes = gap.bytes ++ 0x3A :: (before.bytes ++ (value ++ rest)) ∧
      ∀ lead after entries o'', Gathers name o' entries o'' →
        Gathers name o (⟨lead, tokens, gap, ⟨before, value, after⟩⟩ :: entries) o'' := by
  simp only [readMember] at read
  split at read
  · rename_i own
    obtain rfl : key = name := by simpa using own
    cases o with
    | some s =>
      obtain ⟨place', read⟩ := read
      exact absurd read (by simp)
    | none =>
      obtain ⟨c, colon, read⟩ := (leads_bind_iff _ _ _ _).mp read
      obtain ⟨⟨s, c'⟩, inside, place', read⟩ := (leads_bind_iff _ _ _ _).mp read
      obtain ⟨rfl, rfl⟩ := Prod.mk.inj (Except.ok.inj read)
      have text := (within_ok_iff _ _ _).mp inside
      obtain ⟨gap, colon⟩ := readColon_found colon
      obtain ⟨before, value, bytes', means⟩ :=
        (readString_iff _ c.rest c.place s rest).mp ⟨place', text⟩
      refine ⟨gap, before, quoted value, ?_, ?_⟩
      · rw [← bytes']
        exact colon
      · exact fun lead after entries o'' later => .own ⟨named, value, rfl, means⟩ later
  · rename_i other
    obtain ⟨c, colon, read⟩ := (leads_bind_iff _ _ _ _).mp read
    obtain ⟨c', inside, place', read⟩ := (leads_bind_iff _ _ _ _).mp read
    obtain ⟨rfl, rfl⟩ := Prod.mk.inj (Except.ok.inj read)
    have skipped := (within_ok_iff _ _ _).mp inside
    obtain ⟨gap, colon⟩ := readColon_found colon
    obtain ⟨before, value, bytes', loose⟩ := skipValue_ok skipped
    refine ⟨gap, before, value, ?_, ?_⟩
    · rw [← bytes']
      exact colon
    · exact fun lead after entries o'' later =>
        .other ⟨⟨key, named, by simpa using other⟩, loose⟩ later

theorem readMember_misfit_iff (name : String) (o : Option String) (key : String)
    (bytes : List UInt8) (place : Place) :
    Misfit (readMember name o key ⟨bytes, place⟩) ↔ key = name ∧ (o ≠ none ∨
      ∃ (gap before : Gap) (value : List UInt8) (shape : ValueShape),
        bytes = gap.bytes ++ 0x3A :: (before.bytes ++ value) ∧ Shows shape value ∧
          shape ≠ .text) := by
  simp only [readMember, beq_iff_eq]
  by_cases own : key = name
  · simp only [own, ↓reduceIte, true_and]
    cases o with
    | some s => simp [Cause.kind]
    | none =>
      simp only [misfit_bind_iff, misfit_within_iff, readColon_sound, false_or, ne_eq,
        not_true_eq_false, not_misfit_ok, and_false, exists_false, or_false]
      constructor
      · rintro ⟨c, colon, misfit⟩
        obtain ⟨gap, colon⟩ := readColon_found colon
        obtain ⟨before, value, shape, bytes', shown, other⟩ :=
          (readString_misfit_iff _ c.rest c.place).mp misfit
        exact ⟨gap, before, value, shape, bytes' ▸ colon, shown, other⟩
      · rintro ⟨gap, before, value, shape, rfl, shown, other⟩
        obtain ⟨place', colon⟩ := readColon_gap gap (before.bytes ++ value) place
        exact ⟨_, colon,
          (readString_misfit_iff _ _ _).mpr ⟨before, value, shape, rfl, shown, other⟩⟩
  · simp only [own, ↓reduceIte, false_and, misfit_bind_iff, misfit_within_iff,
      readColon_sound, skipValue_sound, not_misfit_ok, and_false, exists_false, or_false]

theorem Padded.bytes_spread (p : Padded) (rest : List UInt8) :
    p.bytes ++ rest = p.before.bytes ++ (p.value ++ (p.after.bytes ++ rest)) := by
  simp only [Padded.bytes, List.append_assoc]

theorem readMember_other {e : Entry} (other : e.Other name) (o : Option String)
    (closed : Closed rest) : ∃ key, textOf e.key = some key ∧ ∀ place,
      Leads (readMember name o key ⟨e.gap.bytes ++ 0x3A :: (e.value.bytes ++ rest), place⟩)
        (e.value.after.bytes ++ rest) (some o) := by
  obtain ⟨key, named, differs⟩ := other.key
  refine ⟨key, named, fun place => ?_⟩
  obtain ⟨between, colon⟩ := readColon_gap e.gap (e.value.bytes ++ rest) place
  obtain ⟨place', skipped⟩ := skipValue_padded other.value (closed_gap e.value.after closed) between
  rw [← Padded.bytes_spread] at skipped
  refine ⟨place', ?_⟩
  simp only [readMember, beq_iff_eq, differs, ↓reduceIte, colon, bind, Except.bind, skipped, within]

theorem readMember_gives {e : Entry} (gives : e.Gives name s) (rest : List UInt8) (place : Place) :
    Leads (readMember name none name ⟨e.gap.bytes ++ 0x3A :: (e.value.bytes ++ rest), place⟩)
      (e.value.after.bytes ++ rest) (some (some s)) := by
  obtain ⟨tokens, value, means⟩ := gives.value
  obtain ⟨between, colon⟩ := readColon_gap e.gap (e.value.bytes ++ rest) place
  have whole : e.value.bytes ++ rest =
      e.value.before.bytes ++ (quoted tokens ++ (e.value.after.bytes ++ rest)) := by
    rw [Padded.bytes_spread, value]
  obtain ⟨place', read⟩ := (readString_iff "a string" (e.value.bytes ++ rest) between s
    (e.value.after.bytes ++ rest)).mpr ⟨e.value.before, tokens, whole, means⟩
  refine ⟨place', ?_⟩
  simp only [readMember, beq_self_eq_true, ↓reduceIte, colon, bind, Except.bind, read, within]

end Members

section Objects

/-- What ends the reading of members in a misfit: the end without a text, a second text, or a value
of another shape. -/
inductive Spoils (name : String) (first : Bool) : Option String → List UInt8 → Prop where
  | missing (rest : List UInt8) : Spoils name first none (0x7D :: rest)
  | repeated (s : String) (front : Gap) {again : List Token} (named : textOf again = some name)
      (rest : List UInt8) :
      Spoils name first (some s) (comma first ++ (front.bytes ++ (quoted again ++ rest)))
  | member (front : Gap) {key : List Token} (named : textOf key = some name) (behind within : Gap)
      {shape : ValueShape} {value : List UInt8} (shown : Shows shape value)
      (other : shape ≠ .text) :
      Spoils name first none (comma first ++
        (front.bytes ++ (quoted key ++ (behind.bytes ++ 0x3A :: (within.bytes ++ value)))))

theorem joined_entry (first : Bool) (e : Entry) (entries : List Entry) (rest : List UInt8) :
    joined first ((e :: entries).map Entry.bytes) ++ rest =
      comma first ++ (e.lead.bytes ++ (quoted e.key ++ (e.gap.bytes ++ 0x3A ::
        (e.value.bytes ++ (joined false (entries.map Entry.bytes) ++ rest))))) := by
  simp only [List.map_cons, joined_cons, Entry.bytes, List.append_assoc, List.cons_append]

theorem quoted_append (tokens : List Token) (rest : List UInt8) :
    quoted tokens ++ rest = 0x22 :: (spelled tokens ++ 0x22 :: rest) := by
  rw [quoted, List.cons_append, List.cons_append, List.append_assoc, List.singleton_append]

theorem readSole_ok {first : Bool} {fuel : Nat} {place : Place}
    (read : Leads (readSole name o first fuel ⟨bytes, place⟩) rest (some (s, ()))) :
    ∃ (gap : Gap) (entries : List Entry) (more : List UInt8),
      bytes = gap.bytes ++ (joined first (entries.map Entry.bytes) ++ rest) ∧ rest = 0x7D :: more ∧
        Gathers name o entries (some s) := by
  induction fuel generalizing o first bytes place with
  | zero =>
    obtain ⟨place', read⟩ := read
    exact absurd read (by simp [readSole, Fields.readObject, Cursor.blame])
  | succ fuel ih =>
    rw [readSole_succ] at read
    obtain ⟨⟨more, c⟩, found, read⟩ := (leads_bind_iff _ _ _ _).mp read
    cases more with
    | false =>
      obtain ⟨gap, more, taken, brace⟩ := nextKey_closed found
      cases o with
      | none =>
        obtain ⟨place', read⟩ := read
        exact absurd read (by simp)
      | some t =>
        obtain ⟨place', read⟩ := read
        obtain ⟨same, rfl⟩ := Prod.mk.inj (Except.ok.inj read)
        obtain rfl := (Prod.mk.inj same).1
        exact ⟨gap, [], more, taken, brace, .nil _⟩
    | true =>
      obtain ⟨gap, lead, taken⟩ := nextKey_found found
      obtain ⟨⟨key, c⟩, keyed, read⟩ := (leads_bind_iff _ _ _ _).mp read
      obtain ⟨⟨o', c'⟩, member, read⟩ := (leads_bind_iff _ _ _ _).mp read
      obtain ⟨tokens, inside, named⟩ := (readText_iff _ _ _ _).mp ⟨_, keyed⟩
      obtain ⟨colon, before, value, bytes', gathers⟩ := readMember_ok named ⟨_, member⟩
      obtain ⟨after, entries, more, later, brace, gathers'⟩ := ih read
      refine ⟨gap, ⟨lead, tokens, colon, ⟨before, value, after⟩⟩ :: entries, more, ?_, brace,
        gathers _ _ _ _ gathers'⟩
      rw [joined_entry, quoted_append, Padded.bytes_spread]
      exact taken.trans (by rw [inside, bytes', later])

theorem readSole_misfit {first : Bool} {fuel : Nat} {place : Place}
    (misfit : Misfit (readSole name o first fuel ⟨bytes, place⟩)) :
    ∃ (gap : Gap) (entries : List Entry) (o' : Option String) (tail : List UInt8),
      bytes = gap.bytes ++ (joined first (entries.map Entry.bytes) ++ tail) ∧
        Gathers name o entries o' ∧ Spoils name (entries.isEmpty && first) o' tail := by
  induction fuel generalizing o first bytes place with
  | zero => exact absurd misfit (by simp [readSole, Fields.readObject, Cause.kind])
  | succ fuel ih =>
    rw [readSole_succ] at misfit
    rcases (misfit_bind_iff _ _).mp misfit with unread | ⟨⟨more, c⟩, found, misfit⟩
    · exact absurd unread (nextKey_sound _ _)
    cases more with
    | false =>
      obtain ⟨gap, more, taken, brace⟩ := nextKey_closed found
      cases o with
      | none =>
        refine ⟨gap, [], none, 0x7D :: more, ?_, .nil _, .missing more⟩
        rw [← brace]
        exact taken
      | some t => exact absurd misfit (by simp)
    | true =>
      obtain ⟨gap, lead, taken⟩ := nextKey_found found
      rcases (misfit_bind_iff _ _).mp misfit with unread | ⟨⟨key, c'⟩, keyed, misfit⟩
      · exact absurd unread (readText_sound _ _ _)
      obtain ⟨tokens, inside, named⟩ := (readText_iff _ _ _ _).mp ⟨_, keyed⟩
      have front : bytes =
          gap.bytes ++ (comma first ++ (lead.bytes ++ (quoted tokens ++ c'.rest))) := by
        rw [quoted_append, ← inside]
        exact taken
      rcases (misfit_bind_iff _ _).mp misfit with spoiled | ⟨⟨o', c''⟩, member, misfit⟩
      · obtain ⟨rfl, cause⟩ := (readMember_misfit_iff _ _ _ c'.rest c'.place).mp spoiled
        cases o with
        | some t => exact ⟨gap, [], some t, _, front, .nil _, .repeated t lead named c'.rest⟩
        | none =>
          obtain ⟨behind, within, value, shape, bytes', shown, other⟩ :=
            cause.resolve_left (not_not_intro rfl)
          rw [bytes'] at front
          exact ⟨gap, [], none, _, front, .nil _, .member lead named behind within shown other⟩
      · obtain ⟨colon, before, value, bytes', gathers⟩ := readMember_ok named ⟨_, member⟩
        obtain ⟨after, entries, last, tail, later, gathers', spoils⟩ := ih misfit
        refine ⟨gap, ⟨lead, tokens, colon, ⟨before, value, after⟩⟩ :: entries, last, tail, ?_,
          gathers _ _ _ _ gathers', ?_⟩
        · rw [joined_entry, Padded.bytes_spread, ← later, ← bytes']
          exact front
        · rwa [Bool.and_false] at spoils

theorem Spoils.closed {tail : List UInt8} (spoils : Spoils name false o tail) : Closed tail := by
  cases spoils with
  | missing rest => exact closed_cons (b := 0x7D) rfl rest
  | repeated s front named rest => exact closed_cons (b := 0x2C) rfl _
  | member front named behind within shown other => exact closed_cons (b := 0x2C) rfl _

theorem closed_entries {e : Entry} {entries : List Entry} {tail : List UInt8}
    (closed : e :: entries ≠ [] → Closed tail) :
    Closed (joined false (entries.map Entry.bytes) ++ tail) := by
  cases entries with
  | nil => exact closed (by simp)
  | cons next entries => exact closed_cons (b := 0x2C) rfl _

theorem readSole_keyed (name : String) {tokens : List Token} {key : String}
    (named : textOf tokens = some key) (o : Option String) (gap lead : Gap) (first : Bool)
    (fuel : Nat) (bytes : List UInt8) (place : Place) :
    ∃ inside, readSole name o first (fuel + 1)
        ⟨gap.bytes ++ (comma first ++ (lead.bytes ++ (quoted tokens ++ bytes))), place⟩ =
      readMember name o key ⟨bytes, inside⟩ >>= fun (o, c) => readSole name o false fuel c := by
  rw [quoted_append]
  obtain ⟨start, found⟩ := nextKey_key first gap lead (spelled tokens ++ 0x22 :: bytes) place
  obtain ⟨inside, keyed⟩ := (readText_iff start _ key bytes).mpr ⟨tokens, rfl, named⟩
  refine ⟨inside, ?_⟩
  rw [readSole_succ, found]
  simp only [bind, Except.bind, ↓reduceIte, keyed]

theorem readSole_entry {e : Entry} {key : String} (named : textOf e.key = some key)
    (member : ∀ place, Leads
      (readMember name o key ⟨e.gap.bytes ++ 0x3A :: (e.value.bytes ++ rest), place⟩)
      (e.value.after.bytes ++ rest) (some o'))
    (gap : Gap) (first : Bool) (fuel : Nat) (place : Place) :
    ∃ place', readSole name o first (fuel + 1) ⟨gap.bytes ++ (comma first ++ (e.lead.bytes ++
        (quoted e.key ++ (e.gap.bytes ++ 0x3A :: (e.value.bytes ++ rest))))), place⟩ =
      readSole name o' false fuel ⟨e.value.after.bytes ++ rest, place'⟩ := by
  obtain ⟨inside, same⟩ := readSole_keyed name named o gap e.lead first fuel _ place
  obtain ⟨behind, read⟩ := member inside
  exact ⟨behind, by rw [same, read]; rfl⟩

theorem readSole_run {entries : List Entry} (gathers : Gathers name o entries o')
    {tail : List UInt8} (closed : entries ≠ [] → Closed tail) (gap : Gap) (first : Bool)
    (fuel : Nat) (place : Place) :
    ∃ (gap' : Gap) (place' : Place), readSole name o first (fuel + entries.length)
        ⟨gap.bytes ++ (joined first (entries.map Entry.bytes) ++ tail), place⟩ =
      readSole name o' (entries.isEmpty && first) fuel ⟨gap'.bytes ++ tail, place'⟩ := by
  induction gathers generalizing gap first place with
  | nil o => exact ⟨gap, place, by simp [joined]⟩
  | @other e entries o o' other later ih =>
    obtain ⟨key, named, member⟩ := readMember_other other o (closed_entries closed)
    obtain ⟨behind, step⟩ := readSole_entry named member gap first (fuel + entries.length) place
    obtain ⟨gap', place', same⟩ := ih (fun _ => closed (by simp)) e.value.after false behind
    rw [Bool.and_false] at same
    refine ⟨gap', place', ?_⟩
    rw [joined_entry, List.length_cons, ← Nat.add_assoc, step, same]
    rfl
  | @own e entries s o' gives later ih =>
    obtain ⟨behind, step⟩ := readSole_entry gives.key (readMember_gives gives _) gap first
      (fuel + entries.length) place
    obtain ⟨gap', place', same⟩ := ih (fun _ => closed (by simp)) e.value.after false behind
    rw [Bool.and_false] at same
    refine ⟨gap', place', ?_⟩
    rw [joined_entry, List.length_cons, ← Nat.add_assoc, step, same]
    rfl

theorem readSole_spoiled {first : Bool} {tail : List UInt8} (spoils : Spoils name first o tail)
    (gap : Gap) (fuel : Nat) (place : Place) :
    Misfit (readSole name o first (fuel + 1) ⟨gap.bytes ++ tail, place⟩) := by
  cases spoils with
  | missing rest =>
    obtain ⟨place', found⟩ := nextKey_end first gap rest place
    rw [readSole_succ, found]
    exact ⟨_, rfl, rfl⟩
  | repeated s front named rest =>
    obtain ⟨inside, same⟩ := readSole_keyed name named (some s) gap front first fuel rest place
    rw [same, misfit_bind_iff, readMember_misfit_iff]
    exact .inl ⟨rfl, .inl (by simp)⟩
  | member front named behind within shown other =>
    obtain ⟨inside, same⟩ := readSole_keyed name named none gap front first fuel _ place
    rw [same, misfit_bind_iff, readMember_misfit_iff]
    exact .inl ⟨rfl, .inr ⟨behind, within, _, _, rfl, shown, other⟩⟩

theorem readSole_closed (name s : String) (gap : Gap) (first : Bool) (fuel : Nat)
    (rest : List UInt8) (place : Place) :
    Leads (readSole name (some s) first (fuel + 1) ⟨gap.bytes ++ 0x7D :: rest, place⟩)
      (0x7D :: rest) (some (s, ())) := by
  obtain ⟨place', found⟩ := nextKey_end first gap rest place
  rw [readSole_succ, found]
  exact ⟨place', rfl⟩

variable (name : String) (bytes : List UInt8) (place : Place)

def readSoleObject (name : String) (c : Cursor) : Except Fault ((String × Unit) × Cursor) :=
  readSole name none true (c.rest.length + 1) c >>= fun (t, c) =>
    endObject c >>= fun c => .ok (t, c)

theorem readSole_enough {entries : List Entry} (gathers : Gathers name none entries o)
    {tail : List UInt8} (closed : entries ≠ [] → Closed tail) (gap : Gap)
    (same : bytes = gap.bytes ++ (joined true (entries.map Entry.bytes) ++ tail)) :
    ∃ (gap' : Gap) (fuel : Nat) (place' : Place),
      readSole name none true (bytes.length + 1) ⟨bytes, place⟩ =
        readSole name o entries.isEmpty (fuel + 1) ⟨gap'.bytes ++ tail, place'⟩ := by
  have most := length_le_entries entries
  have enough : entries.length ≤ bytes.length := by
    rw [same, List.length_append, List.length_append]
    omega
  obtain ⟨gap', place', run⟩ :=
    readSole_run gathers closed gap true (bytes.length - entries.length + 1) place
  rw [Bool.and_true, ← same] at run
  refine ⟨gap', bytes.length - entries.length, place', ?_⟩
  rw [← run]
  congr 1
  omega

theorem readSoleObject_iff (s : String) (rest : List UInt8) :
    Leads (readSoleObject name ⟨bytes, place⟩) rest (some (s, ())) ↔
      ∃ (gap : Gap) (entries : List Entry),
        0x7B :: bytes = objectBytes gap entries ++ rest ∧ Gathers name none entries (some s) := by
  constructor
  · intro read
    obtain ⟨⟨t, c⟩, members, read⟩ := (leads_bind_iff _ _ _ _).mp read
    obtain ⟨c', ended, place', read⟩ := (leads_bind_iff _ _ _ _).mp read
    obtain ⟨rfl, rfl⟩ := Prod.mk.inj (Except.ok.inj read)
    obtain ⟨gap, entries, more, taken, brace, gathers⟩ := readSole_ok ⟨c.place, members⟩
    obtain ⟨front, start⟩ := c
    obtain rfl : front = 0x7D :: more := brace
    obtain ⟨rfl, _⟩ := Cursor.mk.inj (Except.ok.inj ended)
    refine ⟨gap, entries, ?_, gathers⟩
    rw [objectBytes_append, taken]
  · rintro ⟨gap, entries, same, gathers⟩
    rw [objectBytes_append] at same
    have closed : entries ≠ [] → Closed (0x7D :: rest) := fun _ => closed_cons rfl rest
    obtain ⟨gap', fuel, between, run⟩ :=
      readSole_enough name bytes place gathers closed gap (List.cons.inj same).2
    obtain ⟨inside, read⟩ := readSole_closed name s gap' entries.isEmpty fuel rest between
    refine ⟨inside.after 0x7D, ?_⟩
    rw [readSoleObject, run, read]
    rfl

theorem readSoleObject_misfit_iff :
    Misfit (readSoleObject name ⟨bytes, place⟩) ↔
      ∃ (gap : Gap) (entries : List Entry) (o : Option String) (tail : List UInt8),
        bytes = gap.bytes ++ (joined true (entries.map Entry.bytes) ++ tail) ∧
          Gathers name none entries o ∧ Spoils name entries.isEmpty o tail := by
  constructor
  · intro misfit
    rcases (misfit_bind_iff _ _).mp misfit with spoiled | ⟨⟨t, c⟩, _, misfit⟩
    · obtain ⟨gap, entries, o, tail, taken, gathers, spoils⟩ := readSole_misfit spoiled
      rw [Bool.and_true] at spoils
      exact ⟨gap, entries, o, tail, taken, gathers, spoils⟩
    · rcases (misfit_bind_iff _ _).mp misfit with unread | ⟨c', _, misfit⟩
      · exact absurd unread (endObject_sound _)
      · exact absurd misfit (by simp)
  · rintro ⟨gap, entries, o, tail, same, gathers, spoils⟩
    have closed : entries ≠ [] → Closed tail := by
      intro some
      rw [List.isEmpty_eq_false_iff.mpr some] at spoils
      exact spoils.closed
    obtain ⟨gap', fuel, between, run⟩ := readSole_enough name bytes place gathers closed gap same
    refine (misfit_bind_iff _ _).mpr (.inl ?_)
    rw [run]
    exact readSole_spoiled spoils gap' fuel between

end Objects

section Lists

def readSoleList (expected : String) (c : Cursor) : Except Fault ((String × Unit) × Cursor) :=
  nextItem true c >>= fun (found, c) =>
    if found then within (.item 0) (readString "a string" c) >>= fun (s, c) =>
      endList c >>= fun c => .ok ((s, ()), c)
    else .error ⟨.invalidLength 0 expected, placeLeaving 0x5D c, []⟩

theorem readSoleList_eq (expected name : String) (c : Cursor) :
    readSoleList expected c =
      (Fields.field name .required (fun _ => false) .string .none).readList expected 0 true c >>=
        fun (t, c) => endList c >>= fun c => .ok (t, c) := by
  rw [readSoleList, Fields.readList]
  cases nextItem true c with
  | error fault => rfl
  | ok found =>
    obtain ⟨more, c⟩ := found
    cases more with
    | false => rfl
    | true =>
      simp only [bind, Except.bind, ↓reduceIte, Format.string]
      cases within (.item 0) (readString "a string" c) <;> rfl

theorem listBytes_single (gap : Gap) (item : Padded) (rest : List UInt8) :
    listBytes gap [item] ++ rest = 0x5B :: (gap.bytes ++
      (item.before.bytes ++ (item.value ++ (item.after.bytes ++ 0x5D :: rest)))) := by
  simp [listBytes, joined, Padded.bytes]

variable (expected : String) (bytes : List UInt8) (place : Place)

theorem readSoleList_iff (s : String) (rest : List UInt8) :
    Leads (readSoleList expected ⟨bytes, place⟩) rest (some (s, ())) ↔
      ∃ (gap : Gap) (item : Padded) (tokens : List Token),
        0x5B :: bytes = listBytes gap [item] ++ rest ∧ item.value = quoted tokens ∧
          textOf tokens = some s := by
  constructor
  · intro read
    obtain ⟨⟨found, c⟩, next, read⟩ := (leads_bind_iff _ _ _ _).mp read
    cases found with
    | false =>
      obtain ⟨place', read⟩ := read
      exact absurd read (by simp)
    | true =>
      obtain ⟨⟨t, c'⟩, inside, read⟩ := (leads_bind_iff _ _ _ _).mp read
      obtain ⟨c'', ended, place', read⟩ := (leads_bind_iff _ _ _ _).mp read
      obtain ⟨same, rfl⟩ := Prod.mk.inj (Except.ok.inj read)
      obtain rfl := (Prod.mk.inj same).1
      obtain ⟨gap, taken⟩ := nextItem_found next
      obtain ⟨before, tokens, front, means⟩ := (readString_iff _ c.rest c.place t c'.rest).mp
        ⟨c'.place, (within_ok_iff _ _ _).mp inside⟩
      obtain ⟨after, ended⟩ := endList_found ended
      refine ⟨gap, ⟨before, quoted tokens, after⟩, tokens, ?_, rfl, means⟩
      rw [listBytes_single, ← ended, ← front]
      exact congrArg (0x5B :: ·) taken
  · rintro ⟨gap, item, tokens, same, value, means⟩
    rw [listBytes_single, value] at same
    obtain rfl := (List.cons.inj same).2
    obtain ⟨start, next⟩ := nextItem_front (b := 0x22) rfl (by decide) (gap.append item.before)
      (spelled tokens ++ 0x22 :: (item.after.bytes ++ 0x5D :: rest)) place
    rw [← quoted_append, Gap.append, List.append_assoc] at next
    have read := readString_quoted "a string" tokens (item.after.bytes ++ 0x5D :: rest) start
    rw [means] at read
    obtain ⟨inside, read⟩ := read
    obtain ⟨place', ended⟩ := endList_end item.after rest inside
    refine ⟨place', ?_⟩
    rw [readSoleList, next]
    simp only [bind, Except.bind, ↓reduceIte, read, within, ended]

theorem readSoleList_misfit_iff :
    Misfit (readSoleList expected ⟨bytes, place⟩) ↔
      ∃ gap : Gap, (∃ rest, bytes = gap.bytes ++ 0x5D :: rest) ∨
        ∃ value shape, bytes = gap.bytes ++ value ∧ Shows shape value ∧ shape ≠ .text := by
  constructor
  · intro misfit
    rcases (misfit_bind_iff _ _).mp misfit with unread | ⟨⟨found, c⟩, next, misfit⟩
    · exact absurd unread (nextItem_sound _ _)
    cases found with
    | false =>
      obtain ⟨gap, rest, taken⟩ := nextItem_closed next
      exact ⟨gap, .inl ⟨rest, taken⟩⟩
    | true =>
      obtain ⟨gap, taken⟩ := nextItem_found next
      rcases (misfit_bind_iff _ _).mp misfit with inside | ⟨⟨t, c'⟩, _, misfit⟩
      · rw [misfit_within_iff] at inside
        obtain ⟨before, value, shape, front, shown, other⟩ :=
          (readString_misfit_iff _ c.rest c.place).mp inside
        refine ⟨gap.append before, .inr ⟨value, shape, ?_, shown, other⟩⟩
        rw [Gap.append, List.append_assoc, ← front]
        exact taken
      · rcases (misfit_bind_iff _ _).mp misfit with unread | ⟨c'', _, misfit⟩
        · exact absurd unread (endList_sound _)
        · exact absurd misfit (by simp)
  · rintro ⟨gap, ⟨rest, rfl⟩ | ⟨value, shape, rfl, shown, other⟩⟩
    · obtain ⟨place', next⟩ := nextItem_end true gap rest place
      rw [readSoleList, next]
      exact ⟨_, rfl, rfl⟩
    · obtain ⟨b, more, rfl, own⟩ := shown.front
      have bracket : b ≠ 0x5D := by
        rintro rfl
        exact absurd own (by simp [shapeOf?, startsNumber, isDigit])
      obtain ⟨place', next⟩ := nextItem_front (shapeOf?_solid own) bracket gap more place
      rw [readSoleList, next]
      have inside : Misfit (readString "a string" ⟨b :: more, place'⟩) :=
        (readString_misfit_iff _ _ _).mpr ⟨.none, _, shape, rfl, shown, other⟩
      refine (misfit_bind_iff _ _).mpr (.inr ⟨_, rfl, (misfit_bind_iff _ _).mpr (.inl ?_)⟩)
      exact (misfit_within_iff _ _).mpr inside

end Lists

section Records

variable (title name : String)

def readFront (title name : String) (c : Cursor) : Except Fault ((String × Unit) × Cursor) :=
  match c.rest with
  | 0x5B :: rest =>
    readSoleList ("struct " ++ title ++ " with " ++ toString 1 ++ " element") ⟨rest, c.ahead⟩
  | 0x7B :: rest => readSoleObject name ⟨rest, c.ahead⟩
  | _ => refuseKind ("struct " ++ title) c

theorem soleText_read (c : Cursor) :
    (soleText title name).read c = readFront title name c.trim := by
  simp only [soleText, Format.record, readFront, readSoleList_eq _ name]
  generalize c.trim = d
  obtain ⟨front, place⟩ := d
  cases front with
  | nil => rfl
  | cons b front =>
    by_cases bracket : b = 0x5B
    · subst bracket
      rfl
    by_cases brace : b = 0x7B
    · subst brace
      rfl
    · simp [bracket, brace]

theorem soleText_front (lead : Gap) {b : UInt8} (solid : isSpace b = false) (rest : List UInt8)
    (place : Place) :
    ∃ place', (soleText title name).read ⟨lead.bytes ++ b :: rest, place⟩ =
      readFront title name ⟨b :: rest, place'⟩ := by
  obtain ⟨place', same⟩ := trims_gap (trims_record title _) lead (b :: rest) place
  have first := soleText_read title name ⟨b :: rest, place'⟩
  rw [trim_cons solid] at first
  exact ⟨place', same.trans first⟩

variable (bytes : List UInt8) (place : Place)

theorem soleText_iff (s : String) (rest : List UInt8) :
    Leads ((soleText title name).read ⟨bytes, place⟩) rest (some (s, ())) ↔
      Holds name s bytes rest := by
  constructor
  · intro read
    rw [soleText_read] at read
    obtain ⟨lead, taken⟩ := trim_taken ⟨bytes, place⟩
    replace taken : bytes = _ := taken
    rw [taken]
    generalize Cursor.trim ⟨bytes, place⟩ = c at read
    obtain ⟨front, place'⟩ := c
    simp only [readFront] at read
    split at read
    · obtain ⟨gap, item, tokens, same, value, means⟩ := (readSoleList_iff _ _ _ s rest).mp read
      rw [same]
      exact .list lead gap value means rest
    · obtain ⟨gap, entries, same, gathers⟩ := (readSoleObject_iff name _ _ s rest).mp read
      obtain ⟨before, own, after, rfl, others, gives⟩ := gathers_some_iff.mp gathers
      rw [same]
      exact .object lead gap others gives rest
    · obtain ⟨fault, failed⟩ := refuseKind_fails (α := (String × Unit) × Cursor)
        ("struct " ++ title) ⟨front, place'⟩
      obtain ⟨_, read⟩ := read
      exact absurd (read.symm.trans failed) (by simp)
  · intro holds
    cases holds with
    | @object lead gap before after own others gives rest =>
      obtain ⟨place', same⟩ := soleText_front title name lead (b := 0x7B) rfl _ place
      rw [objectBytes_append, same, readFront]
      refine (readSoleObject_iff name _ _ s rest).mpr ⟨gap, _, (objectBytes_append _ _ _).symm, ?_⟩
      exact gathers_some_iff.mpr ⟨before, own, after, rfl, others, gives⟩
    | @list lead gap item tokens value means rest =>
      obtain ⟨place', same⟩ := soleText_front title name lead (b := 0x5B) rfl _ place
      rw [listBytes_single, same, readFront]
      exact (readSoleList_iff _ _ _ s rest).mpr
        ⟨gap, item, tokens, (listBytes_single _ _ _).symm, value, means⟩

theorem listBytes_empty (gap : Gap) (rest : List UInt8) :
    listBytes gap [] ++ rest = 0x5B :: (gap.bytes ++ 0x5D :: rest) := by
  simp [listBytes, joined]

theorem misses_of_spoils (lead gap : Gap) {entries : List Entry} {tail : List UInt8}
    (gathers : Gathers name none entries o) (spoils : Spoils name entries.isEmpty o tail) :
    Misses name (lead.bytes ++
      0x7B :: (gap.bytes ++ (joined true (entries.map Entry.bytes) ++ tail))) := by
  cases spoils with
  | missing rest =>
    rw [← objectBytes_append]
    exact .missing lead gap (gathers_none_iff.mp gathers) rest
  | repeated s front named rest =>
    obtain ⟨before, own, after, rfl, others, gives⟩ := gathers_some_iff.mp gathers
    exact .repeated lead gap others gives front named rest
  | member front named behind within shown other =>
    exact .member lead gap (gathers_none_iff.mp gathers) front named behind within shown other

theorem soleText_misfit_of_misses (misses : Misses name bytes) :
    Misfit ((soleText title name).read ⟨bytes, place⟩) := by
  cases misses with
  | other lead shown other =>
    obtain ⟨b, more, rfl, own⟩ := shown.front
    obtain ⟨place', same⟩ := soleText_front title name lead (shapeOf?_solid own) more place
    rw [same]
    simp only [readFront]
    split
    · rename_i front
      rw [(List.cons.inj front).1] at own
      exact absurd (Option.some.inj own).symm other.2
    · rename_i front
      rw [(List.cons.inj front).1] at own
      exact absurd (Option.some.inj own).symm other.1
    · exact (refuseKind_misfit_iff _ _ _).mpr ⟨_, shown⟩
  | empty lead gap rest =>
    obtain ⟨place', same⟩ := soleText_front title name lead (b := 0x5B) rfl _ place
    rw [listBytes_empty, same]
    exact (readSoleList_misfit_iff _ _ _).mpr ⟨gap, .inl ⟨rest, rfl⟩⟩
  | item lead gap shown other =>
    obtain ⟨place', same⟩ := soleText_front title name lead (b := 0x5B) rfl _ place
    rw [same]
    exact (readSoleList_misfit_iff _ _ _).mpr ⟨gap, .inr ⟨_, _, rfl, shown, other⟩⟩
  | @missing lead gap entries others rest =>
    obtain ⟨place', same⟩ := soleText_front title name lead (b := 0x7B) rfl _ place
    rw [objectBytes_append, same]
    exact (readSoleObject_misfit_iff name _ _).mpr
      ⟨gap, entries, none, _, rfl, gathers_none_iff.mpr others, .missing rest⟩
  | @repeated lead gap before after own s others gives front again named rest =>
    obtain ⟨place', same⟩ := soleText_front title name lead (b := 0x7B) rfl _ place
    rw [behindEntries, same]
    exact (readSoleObject_misfit_iff name _ _).mpr ⟨gap, _, some s, _, rfl,
      gathers_some_iff.mpr ⟨before, own, after, rfl, others, gives⟩,
      .repeated s front named rest⟩
  | @member lead gap entries others front key named behind within shape value shown other =>
    obtain ⟨place', same⟩ := soleText_front title name lead (b := 0x7B) rfl _ place
    rw [behindEntries, same]
    exact (readSoleObject_misfit_iff name _ _).mpr ⟨gap, entries, none, _, rfl,
      gathers_none_iff.mpr others, .member front named behind within shown other⟩

theorem soleText_misfit_iff :
    Misfit ((soleText title name).read ⟨bytes, place⟩) ↔ Misses name bytes := by
  refine ⟨fun misfit => ?_, soleText_misfit_of_misses title name bytes place⟩
  rw [soleText_read] at misfit
  obtain ⟨lead, taken⟩ := trim_taken ⟨bytes, place⟩
  replace taken : bytes = _ := taken
  rw [taken]
  generalize Cursor.trim ⟨bytes, place⟩ = c at misfit
  obtain ⟨front, place'⟩ := c
  simp only [readFront] at misfit
  split at misfit
  · obtain ⟨gap, ⟨rest, rfl⟩ | ⟨value, shape, rfl, shown, other⟩⟩ :=
      (readSoleList_misfit_iff _ _ _).mp misfit
    · rw [← listBytes_empty]
      exact .empty lead gap rest
    · exact .item lead gap shown other
  · obtain ⟨gap, entries, o, tail, rfl, gathers, spoils⟩ :=
      (readSoleObject_misfit_iff name _ _).mp misfit
    exact misses_of_spoils name lead gap gathers spoils
  · rename_i list object
    obtain ⟨shape, shown⟩ := (refuseKind_misfit_iff _ _ _).mp misfit
    refine .other lead shown ⟨?_, ?_⟩
    · rintro rfl
      cases shown with
      | object rest => exact object rest rfl
    · rintro rfl
      cases shown with
      | list rest => exact list rest rfl

theorem Holds.not_misses {name s : String} {bytes rest : List UInt8}
    (holds : Holds name s bytes rest) : ¬ Misses name bytes := by
  obtain ⟨place', read⟩ := (soleText_iff "" name bytes .start s rest).mpr holds
  rw [← soleText_misfit_iff "" name bytes .start, read]
  exact not_misfit_ok _

end Records

end TenantGate.Json
