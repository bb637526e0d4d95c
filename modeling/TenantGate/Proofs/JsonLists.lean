import TenantGate.Proofs.JsonOutcomes

/-!
Reading lists. What stands between the brackets is read item by item. The reader keeps to every
value if the reader of the items does, it refuses a list with an item that is refused, and it takes
a list of items that are taken.
-/
namespace TenantGate.Json

open Utf8

variable {α : Type}

/-- What a reader sees of a value in a list or an object; the white space behind is left over. -/
def Padded.front (p : Padded) : List UInt8 := p.before.bytes ++ p.value

def Padded.bare (value : List UInt8) : Padded := ⟨.none, value, .none⟩

theorem bytes_bare (value : List UInt8) : (Padded.bare value).bytes = value :=
  List.append_nil value

theorem Padded.bytes_append (p : Padded) (more : List UInt8) :
    p.bytes ++ more = p.front ++ (p.after.bytes ++ more) := by
  rw [bytes, front, List.append_assoc, List.append_assoc, List.append_assoc]

theorem closed_behind (gap : Gap) (closer : UInt8) (ends : endsValue closer = true)
    (pieces : List (List UInt8)) (rest : List UInt8) :
    Closed (gap.bytes ++ (joined false pieces ++ closer :: rest)) :=
  closed_gap gap (closed_joined closer ends pieces rest)

theorem WellFormed.starts {bytes : List UInt8} (wellFormed : WellFormed bytes) : Starts bytes := by
  obtain ⟨b, more, rfl, space, ends⟩ := wellFormed.front
  refine ⟨b, more, rfl, space, ?_⟩
  rintro rfl
  exact absurd ends (by decide)

section Lists

theorem nextItem_end (first : Bool) (gap : Gap) (rest : List UInt8) (place : Place) :
    ∃ place', nextItem first ⟨gap.bytes ++ 0x5D :: rest, place⟩ =
      .ok (false, ⟨0x5D :: rest, place'⟩) := by
  have trims (c : Cursor) : nextItem first c = nextItem first c.trim := by
    simp only [nextItem, trim_trim]
  obtain ⟨place', same⟩ := trims_gap trims gap (0x5D :: rest) place
  exact ⟨place', same⟩

theorem endList_end (gap : Gap) (rest : List UInt8) (place : Place) :
    ∃ place', endList ⟨gap.bytes ++ 0x5D :: rest, place⟩ = .ok ⟨rest, place'⟩ := by
  have trims (c : Cursor) : endList c = endList c.trim := by simp only [endList, trim_trim]
  obtain ⟨place', same⟩ := trims_gap trims gap (0x5D :: rest) place
  exact ⟨place'.after 0x5D, same⟩

theorem nextItem_item {i : Padded} (starts : Starts i.value) (first : Bool) (gap : Gap)
    (items : List Padded) (rest : List UInt8) (place : Place) :
    ∃ place', nextItem first
        ⟨gap.bytes ++ (joined first ((i :: items).map Padded.bytes) ++ rest), place⟩ =
      .ok (true, ⟨i.value ++ (i.after.bytes ++ (joined false (items.map Padded.bytes) ++ rest)),
        place'⟩) := by
  have trims (c : Cursor) : nextItem first c = nextItem first c.trim := by
    simp only [nextItem, trim_trim]
  obtain ⟨b, tail, value, space, bracket⟩ := starts
  have bracket : ¬ (b == 0x5D) = true := by simpa using bracket
  rw [List.map_cons, joined, List.append_assoc]
  cases first with
  | true =>
    rw [if_pos rfl, i.bytes_append, Padded.front, List.append_assoc, value, List.cons_append]
    obtain ⟨between, skipped⟩ := trims_gap trims gap (i.before.bytes ++ b :: (tail ++
      (i.after.bytes ++ (joined false (items.map Padded.bytes) ++ rest)))) place
    obtain ⟨place', skipped'⟩ := trims_gap trims i.before (b :: (tail ++
      (i.after.bytes ++ (joined false (items.map Padded.bytes) ++ rest)))) between
    refine ⟨place', ?_⟩
    rw [skipped, skipped']
    simp only [nextItem, trim_cons space, if_neg bracket, ↓reduceIte]
  | false =>
    have comma : ¬ ((0x2C : UInt8) == 0x5D) = true := by decide
    rw [if_neg (by decide), List.cons_append, i.bytes_append, Padded.front, List.append_assoc,
      value, List.cons_append]
    obtain ⟨between, skipped⟩ := trims_gap trims gap (0x2C :: (i.before.bytes ++ b :: (tail ++
      (i.after.bytes ++ (joined false (items.map Padded.bytes) ++ rest))))) place
    obtain ⟨place', skipped'⟩ := trim_gap i.before (b :: (tail ++
      (i.after.bytes ++ (joined false (items.map Padded.bytes) ++ rest)))) (between.after 0x2C)
    rw [trim_cons space, Cursor.trim] at skipped'
    refine ⟨place', ?_⟩
    rw [skipped]
    simp only [nextItem, trim_cons (b := 0x2C) rfl, if_neg comma, beq_self_eq_true,
      Bool.false_eq_true, ↓reduceIte, Cursor.ahead, skipped', if_neg bracket]

theorem readItems_item (item : Reader α) (read : List α) (index fuel : Nat) {i : Padded}
    (starts : Starts i.value) (gap : Gap) (items : List Padded) (rest : List UInt8)
    (place : Place) :
    ∃ place', readItems item read index (fuel + 1)
        ⟨gap.bytes ++ (joined (index == 0) ((i :: items).map Padded.bytes) ++ rest), place⟩ =
      (within (.item index) (item
        ⟨i.value ++ (i.after.bytes ++ (joined false (items.map Padded.bytes) ++ rest)), place'⟩) >>=
        fun (a, c) => readItems item (a :: read) (index + 1) fuel c) := by
  obtain ⟨place', found⟩ := nextItem_item starts (index == 0) gap items rest place
  refine ⟨place', ?_⟩
  rw [readItems, found]
  rfl

theorem readItems_end (item : Reader α) (read : List α) (index fuel : Nat) (gap : Gap)
    (rest : List UInt8) (place : Place) :
    ∃ place', readItems item read index (fuel + 1) ⟨gap.bytes ++ 0x5D :: rest, place⟩ =
      .ok (read.reverse, ⟨0x5D :: rest, place'⟩) := by
  obtain ⟨place', found⟩ := nextItem_end (index == 0) gap rest place
  refine ⟨place', ?_⟩
  rw [readItems, found]
  rfl

variable {item : Reader α}

theorem readItems_stops {items : List Padded} (starts : ∀ i ∈ items, Starts i.value)
    (keeps : ∀ i ∈ items, Keeps item i.value) (read : List α) (index : Nat) {fuel : Nat}
    (enough : items.length < fuel) (gap : Gap) (rest : List UInt8) (place : Place) :
    Stops (readItems item read index fuel
      ⟨gap.bytes ++ (joined (index == 0) (items.map Padded.bytes) ++ 0x5D :: rest), place⟩)
      (0x5D :: rest) := by
  induction items generalizing read index fuel gap place with
  | nil =>
    obtain ⟨fuel, rfl⟩ := Nat.exists_eq_succ_of_ne_zero (Nat.ne_zero_of_lt enough)
    obtain ⟨place', ended⟩ := readItems_end item read index fuel gap rest place
    rw [List.map_nil, joined, List.nil_append, ended]
    exact stops_ok _ _ place'
  | cons i items ih =>
    obtain ⟨fuel, rfl⟩ := Nat.exists_eq_succ_of_ne_zero (Nat.ne_zero_of_lt enough)
    obtain ⟨place', same⟩ := readItems_item item read index fuel (starts i List.mem_cons_self) gap
      items (0x5D :: rest) place
    rw [same]
    have closed := closed_behind i.after 0x5D rfl (items.map Padded.bytes) rest
    refine ((keeps i List.mem_cons_self _ place' closed).within _).bind fun a behind => ?_
    exact ih (fun other among => starts other (List.mem_cons_of_mem i among))
      (fun other among => keeps other (List.mem_cons_of_mem i among)) (a :: read) (index + 1)
      (Nat.lt_of_succ_lt_succ enough) i.after behind

theorem readItems_fails {items : List Padded} (starts : ∀ i ∈ items, Starts i.value)
    (keeps : ∀ i ∈ items, Keeps item i.value) (refuses : ∃ i ∈ items, Refuses item i.value)
    (read : List α) (index : Nat) {fuel : Nat} (enough : items.length < fuel) (gap : Gap)
    (rest : List UInt8) (place : Place) :
    Fails (readItems item read index fuel
      ⟨gap.bytes ++ (joined (index == 0) (items.map Padded.bytes) ++ 0x5D :: rest), place⟩) := by
  induction items generalizing read index fuel gap place with
  | nil =>
    obtain ⟨i, among, _⟩ := refuses
    exact absurd among List.not_mem_nil
  | cons i items ih =>
    obtain ⟨fuel, rfl⟩ := Nat.exists_eq_succ_of_ne_zero (Nat.ne_zero_of_lt enough)
    obtain ⟨place', same⟩ := readItems_item item read index fuel (starts i List.mem_cons_self) gap
      items (0x5D :: rest) place
    have closed := closed_behind i.after 0x5D rfl (items.map Padded.bytes) rest
    rw [same]
    obtain ⟨refused, among, refuses⟩ := refuses
    rcases List.mem_cons.mp among with rfl | later
    · exact ((refuses _ place' closed).within _).bind _
    · refine ((keeps i List.mem_cons_self _ place' closed).within _).bind_fails
        fun a behind => ?_
      exact ih (fun other among => starts other (List.mem_cons_of_mem i among))
        (fun other among => keeps other (List.mem_cons_of_mem i among)) ⟨refused, later, refuses⟩
        (a :: read) (index + 1) (Nat.lt_of_succ_lt_succ enough) i.after behind

theorem readItems_takes {items : List (α × Padded)} (starts : ∀ i ∈ items, Starts i.2.value)
    (takes : ∀ i ∈ items, Takes item i.2.value i.1) (read : List α) (index : Nat) {fuel : Nat}
    (enough : items.length < fuel) (gap : Gap) (rest : List UInt8) (place : Place) :
    ∃ place', readItems item read index fuel
        ⟨gap.bytes ++ (joined (index == 0) (items.map fun i => i.2.bytes) ++ 0x5D :: rest), place⟩ =
      .ok (read.reverse ++ items.map Prod.fst, ⟨0x5D :: rest, place'⟩) := by
  induction items generalizing read index fuel gap place with
  | nil =>
    obtain ⟨fuel, rfl⟩ := Nat.exists_eq_succ_of_ne_zero (Nat.ne_zero_of_lt enough)
    rw [List.map_nil, List.map_nil, List.append_nil]
    exact readItems_end item read index fuel gap rest place
  | cons i items ih =>
    obtain ⟨fuel, rfl⟩ := Nat.exists_eq_succ_of_ne_zero (Nat.ne_zero_of_lt enough)
    obtain ⟨inside, same⟩ := readItems_item item read index fuel (starts i List.mem_cons_self) gap
      (items.map Prod.snd) (0x5D :: rest) place
    obtain ⟨behind, taken⟩ := takes i List.mem_cons_self _ inside
      (closed_behind i.2.after 0x5D rfl ((items.map Prod.snd).map Padded.bytes) rest)
    obtain ⟨last, later⟩ := ih (fun other among => starts other (List.mem_cons_of_mem i among))
      (fun other among => takes other (List.mem_cons_of_mem i among)) (i.1 :: read) (index + 1)
      (Nat.lt_of_succ_lt_succ enough) i.2.after behind
    refine ⟨last, ?_⟩
    rw [List.reverse_cons, List.append_assoc, List.singleton_append] at later
    rw [taken, List.map_cons, List.map_map] at same
    exact same.trans later

theorem listBytes_append (gap : Gap) (items : List Padded) (rest : List UInt8) :
    listBytes gap items ++ rest =
      0x5B :: (gap.bytes ++ (joined true (items.map Padded.bytes) ++ 0x5D :: rest)) := by
  simp only [listBytes, List.cons_append, List.append_assoc, List.nil_append]

theorem list_read (f : Format α) (gap : Gap) (items : List Padded) (rest : List UInt8)
    (place : Place) :
    ∃ fuel, (joined true (items.map Padded.bytes)).length < fuel ∧
      (Format.list f).read ⟨listBytes gap items ++ rest, place⟩ =
        (readItems f.read [] 0 fuel ⟨gap.bytes ++ (joined true (items.map Padded.bytes) ++
          0x5D :: rest), place.after 0x5B⟩ >>= fun (items, c) => do
            return (items, ← endList c)) := by
  refine ⟨(gap.bytes ++ (joined true (items.map Padded.bytes) ++ 0x5D :: rest)).length + 1, ?_, ?_⟩
  · rw [List.length_append, List.length_append]
    omega
  · rw [listBytes_append]
    simp only [Format.list, trim_cons (b := 0x5B) rfl, Cursor.ahead]

theorem length_le_items {items : List Padded} (starts : ∀ i ∈ items, Starts i.value) :
    items.length ≤ (joined true (items.map Padded.bytes)).length := by
  have count : (items.map Padded.bytes).length = items.length := List.length_map _
  rw [← count]
  refine length_le_joined ?_ true
  intro piece listed
  obtain ⟨i, among, rfl⟩ := List.mem_map.mp listed
  obtain ⟨b, more, value, _⟩ := starts i among
  rw [Padded.bytes, value]
  simp

theorem keeps_list {f : Format α} (keeps : ∀ {bytes}, WellFormed bytes → Keeps f.read bytes)
    {bytes : List UInt8} (wellFormed : WellFormed bytes) : Keeps (Format.list f).read bytes := by
  intro rest place _
  obtain ⟨b, more, rfl, fronted⟩ := wellFormed.fronted
  by_cases bracket : b = 0x5B
  · obtain ⟨gap, items, same, each⟩ := fronted.list bracket
    have starts : ∀ i ∈ items, Starts i.value := fun i among => (each i among).starts
    obtain ⟨fuel, long, read⟩ := list_read f gap items rest place
    rw [same, read]
    refine (readItems_stops starts (fun i among => keeps (each i among)) [] 0
      (Nat.lt_of_le_of_lt (length_le_items starts) long) gap rest _).bind fun found behind => ?_
    exact stops_ok found rest (behind.after 0x5D)
  · rw [List.cons_append]
    simp only [Format.list, trim_cons fronted.solid]
    split
    · rename_i found
      exact absurd (List.cons.inj found).1 bracket
    · exact (refuseKind_fails _ _).stops rest

theorem refuses_list {f : Format α} (keeps : ∀ {bytes}, WellFormed bytes → Keeps f.read bytes)
    (gap : Gap) {items : List Padded} (each : ∀ i ∈ items, WellFormed i.value)
    (refuses : ∃ i ∈ items, Refuses f.read i.value) :
    Refuses (Format.list f).read (listBytes gap items) := by
  intro rest place _
  have starts : ∀ i ∈ items, Starts i.value := fun i among => (each i among).starts
  obtain ⟨fuel, long, read⟩ := list_read f gap items rest place
  rw [read]
  exact (readItems_fails starts (fun i among => keeps (each i among)) refuses [] 0
    (Nat.lt_of_le_of_lt (length_le_items starts) long) gap rest _).bind _

theorem takes_list {f : Format α} (gap : Gap) {items : List (α × Padded)}
    (starts : ∀ i ∈ items, Starts i.2.value) (takes : ∀ i ∈ items, Takes f.read i.2.value i.1) :
    Takes (Format.list f).read (listBytes gap (items.map Prod.snd)) (items.map Prod.fst) := by
  intro rest place _
  obtain ⟨fuel, long, read⟩ := list_read f gap (items.map Prod.snd) rest place
  have most := @length_le_items (items.map Prod.snd) (List.forall_mem_map.mpr starts)
  rw [List.length_map] at most
  obtain ⟨behind, taken⟩ := readItems_takes starts takes [] 0 (Nat.lt_of_le_of_lt most long) gap
    rest (place.after 0x5B)
  refine ⟨behind.after 0x5D, ?_⟩
  rw [read, List.map_map]
  exact congrArg (· >>= _) taken

theorem encode_listText (texts : List String) :
    encode (listText texts) = listBytes .none (texts.map fun text => .bare (encode text)) := by
  have opened : encode "[" = [0x5B] := by decide +kernel
  have closed : encode "]" = [0x5D] := by decide +kernel
  have pieces : (texts.map fun text => Padded.bare (encode text)).map Padded.bytes =
      texts.map encode := by
    rw [List.map_map]
    exact List.map_congr_left fun text _ => bytes_bare (encode text)
  rw [listText, encode_append, encode_append, encode_intercalate, opened, closed, listBytes, pieces]
  rfl

end Lists

end TenantGate.Json
