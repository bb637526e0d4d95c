import TenantGate.Proofs.JsonLists

/-!
Reading maps and alternatives. A map is read entry by entry, each with its key, its colon and its
value; an alternative is a name, or an object with the name and `null` in it.
-/
namespace TenantGate.Json

open Utf8

variable {α β γ : Type}

section Members

theorem nextKey_end (first : Bool) (gap : Gap) (rest : List UInt8) (place : Place) :
    ∃ place', nextKey first ⟨gap.bytes ++ 0x7D :: rest, place⟩ =
      .ok (false, ⟨0x7D :: rest, place'⟩) := by
  have trims (c : Cursor) : nextKey first c = nextKey first c.trim := by
    simp only [nextKey, trim_trim]
  obtain ⟨place', same⟩ := trims_gap trims gap (0x7D :: rest) place
  exact ⟨place', same⟩

theorem readColon_gap (gap : Gap) (rest : List UInt8) (place : Place) :
    ∃ place', readColon ⟨gap.bytes ++ 0x3A :: rest, place⟩ = .ok ⟨rest, place'⟩ := by
  have trims (c : Cursor) : readColon c = readColon c.trim := by simp only [readColon, trim_trim]
  obtain ⟨place', same⟩ := trims_gap trims gap (0x3A :: rest) place
  exact ⟨place'.after 0x3A, same⟩

def behindEntry (e : Entry) (entries : List Entry) (rest : List UInt8) : List UInt8 :=
  e.value.after.bytes ++ (joined false (entries.map Entry.bytes) ++ 0x7D :: rest)

def behindKey (e : Entry) (entries : List Entry) (rest : List UInt8) : List UInt8 :=
  e.gap.bytes ++ 0x3A :: (e.value.front ++ behindEntry e entries rest)

theorem readColon_behindKey (e : Entry) (entries : List Entry) (rest : List UInt8)
    (place : Place) :
    ∃ place', readColon ⟨behindKey e entries rest, place⟩ =
      .ok ⟨e.value.front ++ behindEntry e entries rest, place'⟩ :=
  readColon_gap e.gap _ place

theorem closed_behindEntry (e : Entry) (entries : List Entry) (rest : List UInt8) :
    Closed (behindEntry e entries rest) :=
  closed_behind e.value.after 0x7D rfl _ rest

theorem Entry.bytes_append (e : Entry) (entries : List Entry) (rest : List UInt8) :
    e.bytes ++ (joined false (entries.map Entry.bytes) ++ 0x7D :: rest) =
      e.lead.bytes ++ (quoted e.key ++ behindKey e entries rest) := by
  simp only [Entry.bytes, behindKey, behindEntry, ← Padded.bytes_append, List.cons_append,
    List.append_assoc]

theorem nextKey_key (first : Bool) (gap lead : Gap) (rest : List UInt8) (place : Place) :
    ∃ place', nextKey first ⟨gap.bytes ++ (comma first ++ (lead.bytes ++ 0x22 :: rest)), place⟩ =
      .ok (true, ⟨rest, place'⟩) := by
  have trims (c : Cursor) : nextKey first c = nextKey first c.trim := by
    simp only [nextKey, trim_trim]
  obtain ⟨between, skipped⟩ := trims_gap trims gap (comma first ++ (lead.bytes ++ 0x22 :: rest))
    place
  rw [skipped]
  cases first with
  | true =>
    obtain ⟨place', skipped'⟩ := trims_gap trims lead (0x22 :: rest) between
    exact ⟨place'.after 0x22, skipped'⟩
  | false =>
    obtain ⟨place', skipped'⟩ := trim_gap lead (0x22 :: rest) (between.after 0x2C)
    rw [trim_cons (b := 0x22) rfl, Cursor.trim] at skipped'
    refine ⟨place'.after 0x22, ?_⟩
    have brace : ¬ ((0x2C : UInt8) == 0x7D) = true := by decide
    rw [comma, if_neg (by decide), List.singleton_append]
    simp only [nextKey, trim_cons (b := 0x2C) rfl, if_neg brace, beq_self_eq_true, Bool.not_false,
      Bool.and_self, ↓reduceIte, Cursor.ahead, skipped']

theorem nextKey_entry (first : Bool) (gap : Gap) (e : Entry) (entries : List Entry)
    (rest : List UInt8) (place : Place) :
    ∃ place', nextKey first
        ⟨gap.bytes ++ (joined first ((e :: entries).map Entry.bytes) ++ 0x7D :: rest), place⟩ =
      .ok (true, ⟨spelled e.key ++ 0x22 :: behindKey e entries rest, place'⟩) := by
  have key : quoted e.key ++ behindKey e entries rest =
      0x22 :: (spelled e.key ++ 0x22 :: behindKey e entries rest) := by
    rw [quoted, List.cons_append, List.cons_append, List.append_assoc, List.singleton_append]
  rw [List.map_cons, joined_cons, List.append_assoc, List.append_assoc, e.bytes_append, key]
  exact nextKey_key first gap e.lead _ place

theorem length_le_entries (entries : List Entry) :
    entries.length ≤ (joined true (entries.map Entry.bytes)).length := by
  have count : (entries.map Entry.bytes).length = entries.length := List.length_map _
  rw [← count]
  refine length_le_joined ?_ true
  intro piece listed
  obtain ⟨e, among, rfl⟩ := List.mem_map.mp listed
  simp [Entry.bytes, quoted]

theorem objectBytes_append (gap : Gap) (entries : List Entry) (rest : List UInt8) :
    objectBytes gap entries ++ rest =
      0x7B :: (gap.bytes ++ (joined true (entries.map Entry.bytes) ++ 0x7D :: rest)) := by
  simp only [objectBytes, List.cons_append, List.append_assoc, List.nil_append]

theorem readMembers_entry (item : Reader α) (read : List (String × α)) (first : Bool) (fuel : Nat)
    (gap : Gap) (e : Entry) (entries : List Entry) (rest : List UInt8) (place : Place) :
    ∃ place', readMembers item read first (fuel + 1)
        ⟨gap.bytes ++ (joined first ((e :: entries).map Entry.bytes) ++ 0x7D :: rest), place⟩ =
      (readText "" place' (spelled e.key ++ 0x22 :: behindKey e entries rest) >>= fun (key, c) =>
        readColon c >>= fun c => within (.field key) (item c) >>= fun (a, c) =>
          readMembers item ((key, a) :: read) false fuel c) := by
  obtain ⟨place', found⟩ := nextKey_entry first gap e entries rest place
  refine ⟨place', ?_⟩
  rw [readMembers, found]
  rfl

theorem readMembers_end (item : Reader α) (read : List (String × α)) (first : Bool) (fuel : Nat)
    (gap : Gap) (rest : List UInt8) (place : Place) :
    ∃ place', readMembers item read first (fuel + 1) ⟨gap.bytes ++ 0x7D :: rest, place⟩ =
      .ok (read.reverse, ⟨0x7D :: rest, place'⟩) := by
  obtain ⟨place', found⟩ := nextKey_end first gap rest place
  refine ⟨place', ?_⟩
  rw [readMembers, found]
  rfl

variable {item : Reader α}

theorem readMembers_stops {entries : List Entry} (keeps : ∀ e ∈ entries, Keeps item e.value.front)
    (read : List (String × α)) (first : Bool) {fuel : Nat} (enough : entries.length < fuel)
    (gap : Gap) (rest : List UInt8) (place : Place) :
    Stops (readMembers item read first fuel
      ⟨gap.bytes ++ (joined first (entries.map Entry.bytes) ++ 0x7D :: rest), place⟩)
      (0x7D :: rest) := by
  induction entries generalizing read first fuel gap place with
  | nil =>
    obtain ⟨fuel, rfl⟩ := Nat.exists_eq_succ_of_ne_zero (Nat.ne_zero_of_lt enough)
    obtain ⟨place', ended⟩ := readMembers_end item read first fuel gap rest place
    rw [List.map_nil, joined, List.nil_append, ended]
    exact stops_ok _ _ place'
  | cons e entries ih =>
    obtain ⟨fuel, rfl⟩ := Nat.exists_eq_succ_of_ne_zero (Nat.ne_zero_of_lt enough)
    obtain ⟨place', same⟩ := readMembers_entry item read first fuel gap e entries rest place
    rw [same]
    refine Stops.bind ⟨_, readText_spelled e.key place' _⟩ fun key between => ?_
    obtain ⟨behind, colon⟩ := readColon_behindKey e entries rest between
    simp only [colon]
    refine ((keeps e List.mem_cons_self _ behind (closed_behindEntry e entries rest)).within
      _).bind fun a last => ?_
    exact ih (fun other among => keeps other (List.mem_cons_of_mem e among)) ((key, a) :: read)
      false (Nat.lt_of_succ_lt_succ enough) e.value.after last

theorem readMembers_fails {entries : List Entry} (keeps : ∀ e ∈ entries, Keeps item e.value.front)
    (refuses : ∃ e ∈ entries, Refuses item e.value.front) (read : List (String × α))
    (first : Bool) {fuel : Nat} (enough : entries.length < fuel) (gap : Gap) (rest : List UInt8)
    (place : Place) :
    Fails (readMembers item read first fuel
      ⟨gap.bytes ++ (joined first (entries.map Entry.bytes) ++ 0x7D :: rest), place⟩) := by
  induction entries generalizing read first fuel gap place with
  | nil =>
    obtain ⟨e, among, _⟩ := refuses
    exact absurd among List.not_mem_nil
  | cons e entries ih =>
    obtain ⟨fuel, rfl⟩ := Nat.exists_eq_succ_of_ne_zero (Nat.ne_zero_of_lt enough)
    obtain ⟨place', same⟩ := readMembers_entry item read first fuel gap e entries rest place
    rw [same]
    refine Stops.bind_fails ⟨_, readText_spelled e.key place' _⟩ fun key between => ?_
    obtain ⟨behind, colon⟩ := readColon_behindKey e entries rest between
    have closed := closed_behindEntry e entries rest
    simp only [colon]
    obtain ⟨refused, among, refuses⟩ := refuses
    rcases List.mem_cons.mp among with rfl | later
    · exact ((refuses _ behind closed).within _).bind _
    · refine ((keeps e List.mem_cons_self _ behind closed).within _).bind_fails fun a last => ?_
      exact ih (fun other among => keeps other (List.mem_cons_of_mem e among))
        ⟨refused, later, refuses⟩ ((key, a) :: read) false (Nat.lt_of_succ_lt_succ enough)
        e.value.after last

structure ReadAs (item : Reader α) (m : (String × α) × Entry) : Prop where
  name : textOf m.2.key = some m.1.1
  takes : Takes item m.2.value.front m.1.2

theorem readMembers_takes {members : List ((String × α) × Entry)}
    (each : ∀ m ∈ members, ReadAs item m) (read : List (String × α)) (first : Bool) {fuel : Nat}
    (enough : members.length < fuel) (gap : Gap) (rest : List UInt8) (place : Place) :
    ∃ place', readMembers item read first fuel
        ⟨gap.bytes ++ (joined first (members.map fun m => m.2.bytes) ++ 0x7D :: rest), place⟩ =
      .ok (read.reverse ++ members.map Prod.fst, ⟨0x7D :: rest, place'⟩) := by
  induction members generalizing read first fuel gap place with
  | nil =>
    obtain ⟨fuel, rfl⟩ := Nat.exists_eq_succ_of_ne_zero (Nat.ne_zero_of_lt enough)
    rw [List.map_nil, List.map_nil, List.append_nil]
    exact readMembers_end item read first fuel gap rest place
  | cons m members ih =>
    obtain ⟨fuel, rfl⟩ := Nat.exists_eq_succ_of_ne_zero (Nat.ne_zero_of_lt enough)
    obtain ⟨⟨key, a⟩, e⟩ := m
    obtain ⟨name, takes⟩ := each _ List.mem_cons_self
    obtain ⟨inside, same⟩ := readMembers_entry item read first fuel gap e (members.map Prod.snd)
      rest place
    have keyed := readText_spelled e.key inside (behindKey e (members.map Prod.snd) rest)
    rw [name] at keyed
    obtain ⟨between, keyed⟩ := keyed
    obtain ⟨behind, colon⟩ := readColon_behindKey e (members.map Prod.snd) rest between
    obtain ⟨last, taken⟩ := takes _ behind (closed_behindEntry e (members.map Prod.snd) rest)
    obtain ⟨final, later⟩ := ih (fun other among => each other (List.mem_cons_of_mem _ among))
      ((key, a) :: read) false (Nat.lt_of_succ_lt_succ enough) e.value.after last
    refine ⟨final, ?_⟩
    rw [List.reverse_cons, List.append_assoc, List.singleton_append] at later
    rw [List.map_cons, List.map_map] at same
    refine same.trans ?_
    simp only [keyed, bind, Except.bind, colon, taken, within]
    rw [behindEntry, List.map_map]
    exact later

theorem members_read (f : Format α) (gap : Gap) (entries : List Entry) (rest : List UInt8)
    (place : Place) :
    ∃ fuel, (joined true (entries.map Entry.bytes)).length < fuel ∧
      (Format.members f).read ⟨objectBytes gap entries ++ rest, place⟩ =
        (readMembers f.read [] true fuel ⟨gap.bytes ++ (joined true (entries.map Entry.bytes) ++
          0x7D :: rest), place.after 0x7B⟩ >>= fun (members, c) => do
            return (members, ← endObject c)) := by
  refine ⟨(gap.bytes ++ (joined true (entries.map Entry.bytes) ++ 0x7D :: rest)).length + 1, ?_, ?_⟩
  · rw [List.length_append, List.length_append]
    omega
  · rw [objectBytes_append]
    simp only [Format.members, trim_cons (b := 0x7B) rfl, Cursor.ahead]

theorem trims_members (f : Format α) : Trims (Format.members f).read := by
  intro c
  simp only [Format.members, trim_trim]

theorem keeps_members {f : Format α} (trims : Trims f.read)
    (keeps : ∀ {bytes}, WellFormed bytes → Keeps f.read bytes) {bytes : List UInt8}
    (wellFormed : WellFormed bytes) : Keeps (Format.members f).read bytes := by
  intro rest place _
  obtain ⟨b, more, rfl, fronted⟩ := wellFormed.fronted
  by_cases brace : b = 0x7B
  · obtain ⟨gap, entries, same, each⟩ := fronted.object brace
    obtain ⟨fuel, long, read⟩ := members_read f gap entries rest place
    rw [same, read]
    refine (readMembers_stops (fun e among => trims.keeps e.value.before (keeps (each e among)))
      [] true (Nat.lt_of_le_of_lt (length_le_entries entries) long) gap rest _).bind
        fun found behind => ?_
    exact stops_ok found rest (behind.after 0x7D)
  · rw [List.cons_append]
    simp only [Format.members, trim_cons fronted.solid]
    split
    · rename_i found
      exact absurd (List.cons.inj found).1 brace
    · exact (refuseKind_fails _ _).stops rest

theorem refuses_members {f : Format α} (trims : Trims f.read)
    (keeps : ∀ {bytes}, WellFormed bytes → Keeps f.read bytes) (gap : Gap) {entries : List Entry}
    (each : ∀ e ∈ entries, WellFormed e.value.value)
    (refuses : ∃ e ∈ entries, Refuses f.read e.value.value) :
    Refuses (Format.members f).read (objectBytes gap entries) := by
  intro rest place _
  obtain ⟨fuel, long, read⟩ := members_read f gap entries rest place
  obtain ⟨e, among, refuses⟩ := refuses
  rw [read]
  exact (readMembers_fails (fun e among => trims.keeps e.value.before (keeps (each e among)))
    ⟨e, among, trims.refuses e.value.before refuses⟩ [] true
    (Nat.lt_of_le_of_lt (length_le_entries entries) long) gap rest _).bind _

theorem takes_members {f : Format α} (gap : Gap) {members : List ((String × α) × Entry)}
    (each : ∀ m ∈ members, ReadAs f.read m) :
    Takes (Format.members f).read (objectBytes gap (members.map Prod.snd))
      (members.map Prod.fst) := by
  intro rest place _
  obtain ⟨fuel, long, read⟩ := members_read f gap (members.map Prod.snd) rest place
  have most := length_le_entries (members.map Prod.snd)
  rw [List.length_map] at most
  obtain ⟨behind, taken⟩ := readMembers_takes each [] true (Nat.lt_of_le_of_lt most long) gap rest
    (place.after 0x7B)
  refine ⟨behind.after 0x7D, ?_⟩
  rw [read, List.map_map]
  exact congrArg (· >>= _) taken

theorem entry_of_name (name : String) (value : List UInt8) :
    ∃ e : Entry, e.bytes = encode (stringText name) ++ 0x3A :: value ∧ textOf e.key = some name ∧
      e.value = .bare value := by
  obtain ⟨tokens, written, spells⟩ := quoted_of_text name
  refine ⟨⟨.none, tokens, .none, .bare value⟩, ?_, spells, rfl⟩
  rw [written, Entry.bytes, bytes_bare]
  rfl

theorem encode_objectText (members : List (String × String)) :
    ∃ given : List ((String × String) × Entry), given.map Prod.fst = members ∧
      encode (objectText members) = objectBytes .none (given.map Prod.snd) ∧
      ∀ m ∈ given, textOf m.2.key = some m.1.1 ∧ m.2.value = .bare (encode m.1.2) := by
  have opened : encode "\x7b" = [0x7B] := by decide +kernel
  have closed : encode "\x7d" = [0x7D] := by decide +kernel
  have colon : encode ":" = [0x3A] := by decide +kernel
  have written : ∃ given : List ((String × String) × Entry), given.map Prod.fst = members ∧
      members.map (encode ∘ fun m => stringText m.1 ++ ":" ++ m.2) =
        (given.map Prod.snd).map Entry.bytes ∧
      ∀ m ∈ given, textOf m.2.key = some m.1.1 ∧ m.2.value = .bare (encode m.1.2) := by
    induction members with
    | nil => exact ⟨[], rfl, rfl, fun m among => absurd among List.not_mem_nil⟩
    | cons m members ih =>
      obtain ⟨given, same, bytes, each⟩ := ih
      obtain ⟨e, own, named, value⟩ := entry_of_name m.1 (encode m.2)
      refine ⟨(m, e) :: given, ?_, ?_, List.forall_mem_cons.mpr ⟨⟨named, value⟩, each⟩⟩
      · rw [List.map_cons, same]
      · rw [List.map_cons, bytes, Function.comp_apply, encode_append, encode_append, colon,
          List.append_assoc, List.map_cons, List.map_cons, own]
        rfl
  obtain ⟨given, same, bytes, each⟩ := written
  refine ⟨given, same, ?_, each⟩
  rw [objectText, encode_append, encode_append, encode_intercalate, opened, closed, List.map_map,
    objectBytes, bytes]
  rfl

theorem exists_pairs {f : α → β} {as : List α} {items : List (β × γ)}
    (same : items.map Prod.fst = as.map f) :
    ∃ pairs : List (α × γ), pairs.map Prod.fst = as ∧
      pairs.map Prod.snd = items.map Prod.snd ∧ ∀ p ∈ pairs, (f p.1, p.2) ∈ items := by
  induction as generalizing items with
  | nil =>
    obtain rfl := List.map_eq_nil_iff.mp same
    exact ⟨[], rfl, rfl, fun p among => absurd among List.not_mem_nil⟩
  | cons a as ih =>
    obtain ⟨⟨b, c⟩, more, rfl, rfl, later⟩ := List.map_eq_cons_iff.mp same
    obtain ⟨pairs, firsts, seconds, each⟩ := ih later
    refine ⟨(a, c) :: pairs, ?_, ?_, List.forall_mem_cons.mpr ⟨List.mem_cons_self, ?_⟩⟩
    · rw [List.map_cons, firsts]
    · rw [List.map_cons, List.map_cons, seconds]
    · exact fun p among => List.mem_cons_of_mem _ (each p among)

theorem takes_written_members {f : Format α} {members : List (String × α)}
    (takes : ∀ m ∈ members, Takes f.read (encode (f.write m.2)) m.2) :
    Takes (Format.members f).read (encode ((Format.members f).write members)) members := by
  obtain ⟨given, same, written, each⟩ :=
    encode_objectText (members.map fun m => (m.1, f.write m.2))
  obtain ⟨pairs, firsts, seconds, paired⟩ := exists_pairs same
  have written : encode ((Format.members f).write members) =
      objectBytes .none (pairs.map Prod.snd) := by
    rw [seconds]
    exact written
  have taken : ∀ m ∈ pairs, ReadAs f.read m := by
    intro m listed
    obtain ⟨named, value⟩ := each _ (paired m listed)
    have among : m.1 ∈ members := firsts ▸ List.mem_map_of_mem listed
    refine ⟨named, ?_⟩
    rw [value]
    exact takes m.1 among
  have read := takes_members .none taken
  rwa [← written, firsts] at read

end Members

section Alternatives

variable {alternatives : List (String × α)}

theorem pick_cases (alternatives : List (String × α)) (name : String) (c : Cursor) :
    Fails (pick alternatives name c) ∨ ∃ a, pick alternatives name c = .ok (a, c) := by
  rw [pick]
  split
  · exact .inr ⟨_, rfl⟩
  · exact .inl (fails_error _)

theorem trims_alternatives (expected : String) (nameOf : α → String)
    (alternatives : List (String × α)) :
    Trims (Format.alternatives expected nameOf alternatives).read := by
  intro c
  simp only [Format.alternatives, trim_trim]

theorem alternatives_quoted (expected : String) (nameOf : α → String) (tokens : List Token)
    (rest : List UInt8) (place : Place) :
    (Format.alternatives expected nameOf alternatives).read ⟨quoted tokens ++ rest, place⟩ =
      (readText "" (place.after 0x22) (spelled tokens ++ 0x22 :: rest) >>= fun (name, c) =>
        pick alternatives name c) := by
  rw [quoted, List.cons_append, List.cons_append, List.append_assoc, List.singleton_append]
  simp only [Format.alternatives, trim_cons (b := 0x22) rfl, beq_self_eq_true, ↓reduceIte,
    Cursor.ahead]

def readEmpty (a : α) (c : Cursor) : Except Fault (α × Cursor) := do
  let c ← readColon c
  let c := c.trim
  let c ← match c.rest with
    | 0x6E :: rest => expectBytes c.ahead [0x75, 0x6C, 0x6C] rest
    | _ => refuseKind "unit" c
  let c := c.trim
  match c.rest with
  | [] => c.fail .endOfObject
  | b :: rest => if b == 0x7D then .ok (a, ⟨rest, c.ahead⟩) else c.fail .expectedValue

theorem alternatives_object (expected : String) (nameOf : α → String)
    (alternatives : List (String × α)) (rest : List UInt8) (place : Place) :
    (Format.alternatives expected nameOf alternatives).read ⟨0x7B :: rest, place⟩ =
      (readString expected ⟨rest, place.after 0x7B⟩ >>= fun (name, c) =>
        pick alternatives name c >>= fun (a, c) => readEmpty a c) := rfl

theorem readEmpty_stops (a : α) {e : Entry} (wellFormed : WellFormed e.value.value)
    (entries : List Entry) (rest : List UInt8) (place : Place) :
    Stops (readEmpty a ⟨behindKey e entries rest, place⟩) rest := by
  obtain ⟨start, colon⟩ := readColon_behindKey e entries rest place
  obtain ⟨b, tail, value, fronted⟩ := wellFormed.fronted
  obtain ⟨front, blank⟩ :=
    trim_gap e.value.before (e.value.value ++ behindEntry e entries rest) start
  simp only [readEmpty, bind, Except.bind, colon, Padded.front, List.append_assoc, blank]
  by_cases letter : b = 0x6E
  · obtain ⟨last, ended⟩ := trim_gap e.value.after
      (joined false (entries.map Entry.bytes) ++ 0x7D :: rest)
      ((((front.after 0x6E).after 0x75).after 0x6C).after 0x6C)
    have null : Cursor.trim ⟨nullBytes ++ behindEntry e entries rest, front⟩ =
        ⟨nullBytes ++ behindEntry e entries rest, front⟩ := trim_cons rfl _ _
    have letters (place : Place) :
        expectBytes (place.after 0x6E) [0x75, 0x6C, 0x6C]
          (0x75 :: 0x6C :: 0x6C :: behindEntry e entries rest) =
        .ok ⟨behindEntry e entries rest,
          (((place.after 0x6E).after 0x75).after 0x6C).after 0x6C⟩ := rfl
    rw [fronted.null letter, null]
    simp only [nullBytes, List.cons_append, List.nil_append, Cursor.ahead, letters]
    rw [behindEntry, ended]
    -- a second member would stand where the closing brace belongs
    cases entries with
    | nil => exact stops_ok a rest (last.after 0x7D)
    | cons other entries => exact (fails_error _).stops rest
  · rw [value, List.cons_append, trim_cons fronted.solid]
    dsimp only
    split
    · rename_i found
      exact absurd (List.cons.inj found).1 letter
    · obtain ⟨fault, refused⟩ := refuseKind_fails (α := Cursor) "unit"
        ⟨b :: (tail ++ behindEntry e entries rest), front⟩
      rw [refused]
      exact (fails_error fault).stops rest

theorem keeps_alternatives (expected : String) (nameOf : α → String) {bytes : List UInt8}
    (wellFormed : WellFormed bytes) :
    Keeps (Format.alternatives expected nameOf alternatives).read bytes := by
  intro rest place _
  obtain ⟨b, more, rfl, fronted⟩ := wellFormed.fronted
  by_cases quote : b = 0x22
  · obtain ⟨tokens, same⟩ := fronted.text quote
    rw [same, alternatives_quoted]
    refine Stops.bind ⟨_, readText_spelled tokens _ rest⟩ fun name place => ?_
    rcases pick_cases alternatives name ⟨rest, place⟩ with fails | ⟨a, picked⟩
    · exact fails.stops rest
    · simp only [picked]
      exact stops_ok a rest place
  by_cases brace : b = 0x7B
  · obtain ⟨gap, entries, same, each⟩ := fronted.object brace
    have trims := trims_readString expected
    rw [same, objectBytes_append, alternatives_object]
    cases entries with
    | nil =>
      obtain ⟨place', skipped⟩ := trims_gap trims gap (0x7D :: rest) (place.after 0x7B)
      have fails : Fails (readString expected ⟨gap.bytes ++ 0x7D :: rest, place.after 0x7B⟩) := by
        rw [skipped]
        exact refuseKind_fails expected ⟨0x7D :: rest, place'⟩
      exact (fails.bind _).stops rest
    | cons e entries =>
      rw [List.map_cons, joined, if_pos rfl, List.append_assoc, e.bytes_append]
      obtain ⟨between, skipped⟩ := trims_gap trims gap
        (e.lead.bytes ++ (quoted e.key ++ behindKey e entries rest)) (place.after 0x7B)
      obtain ⟨place', skipped'⟩ := trims_gap trims e.lead (quoted e.key ++ behindKey e entries rest)
        between
      rw [skipped, skipped']
      refine Stops.bind ⟨_, readString_quoted expected e.key _ place'⟩ fun name behind => ?_
      rcases pick_cases alternatives name ⟨behindKey e entries rest, behind⟩ with
        fails | ⟨a, picked⟩
      · exact (fails.bind _).stops rest
      · simp only [picked]
        exact readEmpty_stops a (each e List.mem_cons_self) entries rest behind
  · rw [List.cons_append]
    have quote' : (b == 0x22) = false := by simpa using quote
    have brace' : (b == 0x7B) = false := by simpa using brace
    simp only [Format.alternatives, trim_cons fronted.solid, quote', brace', Bool.false_eq_true,
      ↓reduceIte]
    exact (fails_error _).stops rest

theorem takes_alternatives (expected : String) (nameOf : α → String) {name : String} {a : α}
    (found : alternatives.find? (fun entry => entry.1 == name) = some (name, a))
    {tokens : List Token} (spells : textOf tokens = some name) :
    Takes (Format.alternatives expected nameOf alternatives).read (quoted tokens) a := by
  intro rest place _
  have read := readText_spelled tokens (place.after 0x22) rest
  rw [spells] at read
  obtain ⟨place', read⟩ := read
  refine ⟨place', ?_⟩
  rw [alternatives_quoted, read]
  simp only [bind, Except.bind, pick, found]

end Alternatives

end TenantGate.Json
