import TenantGate.Proofs.JsonIsolated
import TenantGate.Proofs.JsonLaws
import TenantGate.Proofs.JsonSoleField

/-!
Texts of maps. If the reader of the items reads each of them by itself, a map is read from an object
whose keys spell the names and whose values, each for itself, read as the items, and from no other
text.
-/
namespace TenantGate.Json

variable {α β : Type} {bytes rest : List UInt8} {place : Place} {f : Format α}

/-- An entry whose key spells the name and whose value, for itself, reads as the item. -/
structure Entry.Tells (f : Format α) (e : Entry) (m : String × α) : Prop where
  name : textOf e.key = some m.1
  item : f.readBytes e.value.bytes = .ok m.2

theorem readBytes_iff_leads {a : α} :
    f.readBytes bytes = .ok a ↔
      ∃ after : Gap, Leads (f.read (.ofBytes bytes)) after.bytes (some a) := by
  constructor
  · intro read
    rw [Format.readBytes] at read
    cases led : f.read (.ofBytes bytes) with
    | error fault =>
      rw [led] at read
      exact absurd read (by simp [bind, Except.bind])
    | ok found =>
      obtain ⟨a', c⟩ := found
      obtain ⟨after, taken⟩ := trim_taken c
      simp only [led, bind, Except.bind] at read
      split at read
      · rename_i blank
        obtain rfl := Except.ok.inj read
        rw [blank, List.append_nil] at taken
        refine ⟨after, c.place, ?_⟩
        rw [← taken]
      · exact absurd read (by simp [Cursor.blame])
  · rintro ⟨after, place, led⟩
    obtain ⟨last, blank⟩ := trim_gap after [] place
    rw [List.append_nil] at blank
    rw [Format.readBytes, led]
    simp only [bind, Except.bind, blank]
    rfl

theorem map_readBytes_iff {into : α → β} {back : β → α} {b : β} :
    (f.map into back).readBytes bytes = .ok b ↔ ∃ a, f.readBytes bytes = .ok a ∧ b = into a := by
  simp only [readBytes_iff_leads]
  constructor
  · rintro ⟨after, led⟩
    obtain ⟨⟨a, c⟩, found, place, same⟩ := (leads_bind_iff _ _ _ _).mp led
    obtain ⟨rfl, rfl⟩ := Prod.mk.inj (Except.ok.inj same)
    exact ⟨a, ⟨after, place, found⟩, rfl⟩
  · rintro ⟨a, ⟨after, place, found⟩, rfl⟩
    exact ⟨after, (leads_bind_iff _ _ _ _).mpr ⟨_, found, place, rfl⟩⟩

theorem takes_of_readBytes (isolates : Isolates f.read) {a : α} (read : f.readBytes bytes = .ok a) :
    ∃ p : Padded, bytes = p.bytes ∧ Takes f.read p.value a := by
  obtain ⟨after, led⟩ := readBytes_iff_leads.mp read
  obtain ⟨before, value, taken, _, takes⟩ := isolates led
  exact ⟨⟨before, value, after⟩, taken, takes⟩

theorem readMembers_tells (isolates : Isolates f.read) (trims : Trims f.read)
    {read members : List (String × α)} {first : Bool} {fuel : Nat}
    (led : Leads (readMembers f.read read first fuel ⟨bytes, place⟩) rest (some members)) :
    ∃ (gap : Gap) (entries : List Entry) (found : List (String × α)) (more : List UInt8),
      bytes = gap.bytes ++ (joined first (entries.map Entry.bytes) ++ rest) ∧ rest = 0x7D :: more ∧
        members = read.reverse ++ found ∧ List.Forall₂ (Entry.Tells f) entries found := by
  induction fuel generalizing read first bytes place with
  | zero =>
    obtain ⟨place', led⟩ := led
    exact absurd led (by simp [readMembers, Cursor.blame])
  | succ fuel ih =>
    rw [readMembers] at led
    obtain ⟨⟨more, c⟩, found, led⟩ := (leads_bind_iff _ _ _ _).mp led
    cases more with
    | false =>
      obtain ⟨gap, more, taken, brace⟩ := nextKey_closed found
      obtain ⟨place', led⟩ := led
      obtain ⟨rfl, rfl⟩ := Prod.mk.inj (Except.ok.inj led)
      exact ⟨gap, [], [], more, taken, brace, (List.append_nil _).symm, .nil⟩
    | true =>
      obtain ⟨gap, lead, taken⟩ := nextKey_found found
      obtain ⟨⟨key, c⟩, keyed, led⟩ := (leads_bind_iff _ _ _ _).mp led
      obtain ⟨c', colon, led⟩ := (leads_bind_iff _ _ _ _).mp led
      obtain ⟨⟨a, c''⟩, item, led⟩ := (leads_bind_iff _ _ _ _).mp led
      obtain ⟨tokens, inside, named⟩ := (readText_iff _ _ _ _).mp ⟨_, keyed⟩
      obtain ⟨behind, colon⟩ := readColon_found colon
      obtain ⟨before, value, bytes', _, takes⟩ := isolates ⟨_, (within_ok_iff _ _ _).mp item⟩
      obtain ⟨after, entries, found, more, later, brace, same, tells⟩ := ih led
      refine ⟨gap, ⟨lead, tokens, behind, ⟨before, value, after⟩⟩ :: entries, (key, a) :: found,
        more, ?_, brace, ?_, .cons ⟨named, ?_⟩ tells⟩
      · rw [joined_entry, quoted_append, Padded.bytes_spread]
        exact taken.trans (by rw [inside, colon, bytes', later])
      · rw [same, List.reverse_cons, List.append_assoc, List.singleton_append]
      · exact readBytes_padded f (trims.takes before takes)

theorem members_tells (isolates : Isolates f.read) (trims : Trims f.read)
    {members : List (String × α)}
    (led : Leads ((Format.members f).read ⟨bytes, place⟩) rest (some members)) :
    ∃ (lead gap : Gap) (entries : List Entry),
      bytes = lead.bytes ++ (objectBytes gap entries ++ rest) ∧
        List.Forall₂ (Entry.Tells f) entries members := by
  obtain ⟨lead, taken⟩ := trim_taken ⟨bytes, place⟩
  simp only [Format.members] at led
  split at led
  · rename_i inside front
    obtain ⟨⟨members', ⟨left, at'⟩⟩, found, led⟩ := (leads_bind_iff _ _ _ _).mp led
    obtain ⟨c, ended, place', same⟩ := (leads_bind_iff _ _ _ _).mp led
    obtain ⟨rfl, rfl⟩ := Prod.mk.inj (Except.ok.inj same)
    obtain ⟨gap, entries, told, more, spread, rfl, whole, tells⟩ :=
      readMembers_tells isolates trims ⟨_, found⟩
    obtain ⟨behind, ended'⟩ := endObject_brace more at'
    obtain rfl := (Cursor.mk.inj (Except.ok.inj (ended.symm.trans ended'))).1
    obtain rfl : members' = told := whole
    refine ⟨lead, gap, entries, ?_, tells⟩
    rw [objectBytes_append, ← spread, ← front]
    exact taken
  · exact absurd led (refuseKind_fails _ _).never

theorem readAs_of_tells (isolates : Isolates f.read) (trims : Trims f.read) {entries : List Entry}
    {members : List (String × α)} (tells : List.Forall₂ (Entry.Tells f) entries members) :
    ∃ given : List ((String × α) × Entry), given.map Prod.fst = members ∧
      (given.map Prod.snd).map Entry.bytes = entries.map Entry.bytes ∧
      ∀ m ∈ given, ReadAs f.read m := by
  induction tells with
  | nil => exact ⟨[], rfl, rfl, fun m among => absurd among List.not_mem_nil⟩
  | @cons e m entries members own later ih =>
    obtain ⟨given, same, bytes', each⟩ := ih
    obtain ⟨p, value, takes⟩ := takes_of_readBytes isolates own.item
    refine ⟨(m, { e with value := p }) :: given, ?_, ?_, List.forall_mem_cons.mpr ⟨?_, each⟩⟩
    · rw [List.map_cons, same]
    · rw [List.map_cons, List.map_cons, List.map_cons, bytes', Entry.bytes, Entry.bytes, value]
    · exact ⟨own.name, trims.takes p.before takes⟩

/-- A text reads as a map exactly if it is an object whose entries tell the members, in their
order. -/
theorem members_readBytes_iff (isolates : Isolates f.read) (trims : Trims f.read)
    {members : List (String × α)} :
    (Format.members f).readBytes bytes = .ok members ↔
      ∃ (lead gap after : Gap) (entries : List Entry),
        bytes = lead.bytes ++ (objectBytes gap entries ++ after.bytes) ∧
          List.Forall₂ (Entry.Tells f) entries members := by
  constructor
  · intro read
    obtain ⟨after, led⟩ := readBytes_iff_leads.mp read
    obtain ⟨lead, gap, entries, bytes', tells⟩ := members_tells isolates trims led
    exact ⟨lead, gap, after, entries, bytes', tells⟩
  · rintro ⟨lead, gap, after, entries, rfl, tells⟩
    obtain ⟨given, same, bytes', each⟩ := readAs_of_tells isolates trims tells
    have takes := (trims_members f).takes lead (takes_members gap each)
    have whole : objectBytes gap (given.map Prod.snd) = objectBytes gap entries := by
      rw [objectBytes, bytes', objectBytes]
    rw [whole, same] at takes
    exact readBytes_padded _ (p := ⟨lead, objectBytes gap entries, after⟩) takes

end TenantGate.Json
