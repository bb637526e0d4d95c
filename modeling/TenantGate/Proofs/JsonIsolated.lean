import TenantGate.Proofs.JsonRecords
import TenantGate.Proofs.JsonShapes

/-!
Readers and what they read. A value that a reader has read is a piece of the text behind some white
space, and the reader takes that piece wherever it stands. Strings and truth values are read in this
way, and so are records, whatever their fields are, if the fields are.
-/
namespace TenantGate.Json

variable {α β τ δ : Type} {bytes rest : List UInt8} {place : Place}

/-- What the reader reads stands by itself: it is read alike whatever is around it. -/
def Isolates (read : Reader α) : Prop :=
  ∀ ⦃bytes place rest a⦄, Leads (read ⟨bytes, place⟩) rest (some a) →
    ∃ (gap : Gap) (value : List UInt8),
      bytes = gap.bytes ++ (value ++ rest) ∧ Starts value ∧ Takes read value a

section Values

theorem Fails.never {r : Except Fault (α × Cursor)} (fails : Fails r) {a : α} :
    ¬ Leads r rest (some a) := by
  rintro ⟨place, same⟩
  obtain ⟨fault, failed⟩ := fails
  exact absurd (failed.symm.trans same) (by simp)

theorem isolates_readString (expected : String) : Isolates (readString expected) := by
  intro bytes place rest s read
  obtain ⟨gap, tokens, taken, means⟩ := (readString_iff expected bytes place s rest).mp read
  refine ⟨gap, quoted tokens, taken, ⟨0x22, _, rfl, rfl, by decide⟩, fun more place' _ => ?_⟩
  exact (readString_iff expected _ place' s more).mpr ⟨.none, tokens, rfl, means⟩

theorem takes_boolean (b : Bool) : Takes Format.boolean.read (booleanBytes b) b := by
  intro rest place _
  cases b <;> exact ⟨_, rfl⟩

theorem isolates_boolean : Isolates Format.boolean.read := by
  intro bytes place rest b read
  obtain ⟨gap, taken⟩ := trim_taken ⟨bytes, place⟩
  simp only [Format.boolean] at read
  -- a word that is read is the word of the truth value
  have word (truth : Bool) {c : Cursor} {front : UInt8} {letters more : List UInt8}
      (same : c.rest = front :: more) (spelled : booleanBytes truth = front :: letters)
      (read : Leads (expectBytes c.ahead letters more >>= fun c => .ok (truth, c)) rest (some b)) :
      c.rest = booleanBytes b ++ rest := by
    obtain ⟨c', found, place', read⟩ := (leads_bind_iff _ _ _ _).mp read
    obtain ⟨rfl, rfl⟩ := Prod.mk.inj (Except.ok.inj read)
    rw [same, spelled, expectBytes_taken found]
    rfl
  have front : (Cursor.trim ⟨bytes, place⟩).rest = booleanBytes b ++ rest := by
    split at read
    · rename_i more same
      exact word true same rfl read
    · rename_i more same
      exact word false same rfl read
    · exact absurd read (refuseKind_fails _ _).never
  refine ⟨gap, booleanBytes b, front ▸ taken, ?_, takes_boolean b⟩
  cases b <;> exact ⟨_, _, rfl, rfl, by decide⟩

theorem Isolates.map {f : Format α} (isolates : Isolates f.read) (into : α → β) (back : β → α) :
    Isolates (f.map into back).read := by
  intro bytes place rest b read
  obtain ⟨⟨a, c⟩, found, place', same⟩ := (leads_bind_iff _ _ _ _).mp read
  obtain ⟨rfl, rfl⟩ := Prod.mk.inj (Except.ok.inj same)
  obtain ⟨gap, value, taken, starts, takes⟩ := isolates ⟨_, found⟩
  refine ⟨gap, value, taken, starts, fun more place closed => ?_⟩
  obtain ⟨behind, again⟩ := takes more place closed
  exact ⟨behind, by simp only [Format.map, again, bind, Except.bind]; rfl⟩

end Values

section Fields

/-- The reader takes what it has used off the front, whatever closes it. -/
def Cuts (read : Reader α) : Prop :=
  ∀ ⦃bytes place rest a⦄, Leads (read ⟨bytes, place⟩) rest (some a) →
    ∃ used, bytes = used ++ rest ∧ Takes read used a

def Fields.Isolated : {τ δ : Type} → Fields τ δ → Prop
  | _, _, .none => True
  | _, _, .field _ _ _ format more => Isolates format.read ∧ Trims format.read ∧ more.Isolated

theorem Isolates.cuts {read : Reader α} (isolates : Isolates read) (trims : Trims read) :
    Cuts read := by
  intro bytes place rest a led
  obtain ⟨gap, value, taken, _, takes⟩ := isolates led
  refine ⟨gap.bytes ++ value, ?_, trims.takes gap takes⟩
  rw [taken, List.append_assoc]

theorem Cuts.behindColon {read : Reader α} (cuts : Cuts read) (step : Step) :
    Cuts fun c => readColon c >>= fun c => within step (read c) := by
  intro bytes place rest a led
  obtain ⟨c, colon, inside⟩ := (leads_bind_iff _ _ _ _).mp led
  obtain ⟨place', inside⟩ := inside
  obtain ⟨gap, taken⟩ := readColon_found colon
  obtain ⟨used, bytes', takes⟩ := cuts ⟨place', (within_ok_iff _ _ _).mp inside⟩
  refine ⟨gap.bytes ++ 0x3A :: used, ?_, fun more place closed => ?_⟩
  · rw [List.append_assoc, List.cons_append, ← bytes']
    exact taken
  · rw [List.append_assoc, List.cons_append]
    obtain ⟨between, colon'⟩ := readColon_gap gap (used ++ more) place
    obtain ⟨behind, again⟩ := takes more between closed
    exact ⟨behind, by simp only [colon', bind, Except.bind, again, within]⟩

theorem Cuts.fill {read : Reader α} (cuts : Cuts read) (fill : α → β) :
    Cuts fun c => read c >>= fun (a, c) => .ok (fill a, c) := by
  intro bytes place rest b led
  obtain ⟨⟨a, c⟩, found, place', same⟩ := (leads_bind_iff _ _ _ _).mp led
  obtain ⟨rfl, rfl⟩ := Prod.mk.inj (Except.ok.inj same)
  obtain ⟨used, taken, takes⟩ := cuts ⟨_, found⟩
  refine ⟨used, taken, fun more place closed => ?_⟩
  obtain ⟨behind, again⟩ := takes more place closed
  exact ⟨behind, by simp only [again, bind, Except.bind]⟩

def passOver (a : α) : Reader α := fun c => skipValue c >>= fun c => .ok (a, c)

theorem cuts_passOver (a : α) : Cuts (passOver a) := by
  intro bytes place rest b led
  obtain ⟨c, skipped, place', same⟩ := (leads_bind_iff _ _ _ _).mp led
  obtain ⟨rfl, rfl⟩ := Prod.mk.inj (Except.ok.inj same)
  obtain ⟨gap, value, taken, loose⟩ := skipValue_ok skipped
  refine ⟨gap.bytes ++ value, ?_, fun more place closed => ?_⟩
  · rw [List.append_assoc]
    exact taken
  · obtain ⟨behind, again⟩ := skipValue_padded (p := ⟨gap, value, .none⟩) loose closed place
    refine ⟨behind, ?_⟩
    rw [List.append_assoc, passOver, again]
    rfl

def Fields.readMember (fs : Fields τ δ) (draft : δ) (key : String) : Reader δ := fun c =>
  match fs.readInto key draft c with
  | some r => r
  | Option.none => readColon c >>= fun c => within (.field key) (passOver draft c)

theorem Fields.readInto_cases {fs : Fields τ δ} (isolated : fs.Isolated) (key : String) (draft : δ) :
    (∀ c, fs.readInto key draft c = Option.none) ∨
      ∃ read : Reader δ, Cuts read ∧ ∀ c, fs.readInto key draft c = some (read c) := by
  induction fs with
  | none => exact .inl fun _ => rfl
  | field name absence hides format more ih =>
    obtain ⟨own, trims, others⟩ := isolated
    obtain ⟨a?, b⟩ := draft
    by_cases same : key = name
    · refine .inr ?_
      cases a? with
      | some a =>
        refine ⟨fun c => .error ⟨.duplicateField name, placeLeaving 0x7D c, []⟩, ?_, fun c => ?_⟩
        · rintro bytes place rest draft ⟨place', read⟩
          exact absurd read nofun
        · simp only [readInto, beq_iff_eq, same, ↓reduceIte]
      | none =>
        refine ⟨_, ((own.cuts trims).behindColon (.field name)).fill fun a => (some a, b),
          fun c => ?_⟩
        simp only [readInto, beq_iff_eq, same, ↓reduceIte, Option.some.injEq]
        cases readColon c with
        | error fault => rfl
        | ok c => rfl
    · rcases ih others b with nowhere | ⟨read, cuts, reads⟩
      · exact .inl fun c => by simp only [readInto, beq_iff_eq, same, ↓reduceIte, nowhere,
          Option.map_none]
      · refine .inr ⟨_, cuts.fill fun b => (a?, b), fun c => ?_⟩
        simp only [readInto, beq_iff_eq, same, ↓reduceIte, reads, Option.map_some]
        cases read c <;> rfl

theorem Fields.cuts_readMember {fs : Fields τ δ} (isolated : fs.Isolated) (draft : δ)
    (key : String) : Cuts (fs.readMember draft key) := by
  rcases fs.readInto_cases isolated key draft with nowhere | ⟨read, cuts, reads⟩
  · have skips : fs.readMember draft key =
        fun c => readColon c >>= fun c => within (.field key) (passOver draft c) := by
      funext c
      rw [readMember, nowhere]
    rw [skips]
    exact (cuts_passOver draft).behindColon (.field key)
  · have same : fs.readMember draft key = read := by
      funext c
      rw [readMember, reads]
    rw [same]
    exact cuts

/-- Behind a key there is one member and then the others; without a key the record is finished. -/
theorem Fields.readObject_succ (fs : Fields τ δ) (draft : δ) (first : Bool) (fuel : Nat)
    (c : Cursor) :
    fs.readObject draft first (fuel + 1) c = nextKey first c >>= fun (more, c) =>
      if more then readText "" c.place c.rest >>= fun (key, c) =>
        fs.readMember draft key c >>= fun (draft, c) => fs.readObject draft false fuel c
      else match fs.finish draft with
        | .ok t => .ok (t, c)
        | .error name => .error ⟨.missingField name, placeLeaving 0x7D c, []⟩ := by
  rw [readObject]
  cases nextKey first c with
  | error fault => rfl
  | ok found =>
    obtain ⟨more, c⟩ := found
    cases more with
    | false => rfl
    | true =>
      simp only [bind, Except.bind, ↓reduceIte]
      cases readText "" c.place c.rest with
      | error fault => rfl
      | ok keyed =>
        obtain ⟨key, c⟩ := keyed
        simp only [readMember, bind, Except.bind, passOver]
        cases fs.readInto key draft c with
        | some r => rfl
        | none =>
          dsimp only
          cases readColon c with
          | error fault => rfl
          | ok c =>
            dsimp only
            cases skipValue c <;> rfl

theorem Fields.readObject_cuts {fs : Fields τ δ} (isolated : fs.Isolated) {draft : δ} {first : Bool}
    {fuel : Nat} {t : τ}
    (read : Leads (fs.readObject draft first fuel ⟨bytes, place⟩) rest (some t)) :
    ∃ used more, bytes = used ++ rest ∧ rest = 0x7D :: more ∧
      (first = false → ∀ more', Closed (used ++ 0x7D :: more')) ∧
      ∀ {fuel'} more' place', used.length < fuel' →
        Leads (fs.readObject draft first fuel' ⟨used ++ 0x7D :: more', place'⟩) (0x7D :: more')
          (some t) := by
  induction fuel generalizing draft first bytes place with
  | zero =>
    obtain ⟨place', read⟩ := read
    exact absurd read (by simp [readObject, Cursor.blame])
  | succ fuel ih =>
    rw [readObject_succ] at read
    obtain ⟨⟨more, c⟩, found, read⟩ := (leads_bind_iff _ _ _ _).mp read
    cases more with
    | false =>
      obtain ⟨gap, more, taken, brace⟩ := nextKey_closed found
      obtain ⟨behind, read⟩ := read
      cases finished : fs.finish draft with
      | error name =>
        rw [finished] at read
        exact absurd read (by simp)
      | ok t' =>
        rw [finished] at read
        obtain ⟨rfl, rfl⟩ := Prod.mk.inj (Except.ok.inj read)
        refine ⟨gap.bytes, more, taken, brace, fun _ more' => ?_,
          fun {fuel'} more' place' enough => ?_⟩
        · exact closed_gap gap (closed_cons (b := 0x7D) rfl more')
        · obtain ⟨fuel', rfl⟩ := Nat.exists_eq_succ_of_ne_zero (Nat.ne_zero_of_lt enough)
          obtain ⟨final, ended⟩ := nextKey_end first gap more' place'
          refine ⟨final, ?_⟩
          rw [Nat.succ_eq_add_one, readObject_succ, ended]
          simp only [bind, Except.bind, Bool.false_eq_true, ↓reduceIte, finished]
    | true =>
      obtain ⟨gap, lead, taken⟩ := nextKey_found found
      obtain ⟨⟨key, c⟩, keyed, read⟩ := (leads_bind_iff _ _ _ _).mp read
      obtain ⟨⟨draft', c'⟩, member, read⟩ := (leads_bind_iff _ _ _ _).mp read
      obtain ⟨tokens, inside, named⟩ := (readText_iff _ _ _ _).mp ⟨_, keyed⟩
      obtain ⟨own, bytes', takes⟩ := fs.cuts_readMember isolated draft key ⟨_, member⟩
      obtain ⟨used, more, later, brace, closed, again⟩ := ih read
      -- what was used: the mark in front of the key, the key, the member and what came later
      have spread (tail : List UInt8) :
          gap.bytes ++ (comma first ++ (lead.bytes ++ (quoted tokens ++ (own ++ used)))) ++ tail =
            gap.bytes ++ (comma first ++ (lead.bytes ++ 0x22 ::
              (spelled tokens ++ 0x22 :: (own ++ (used ++ tail))))) := by
        simp only [quoted, List.append_assoc, List.cons_append, List.nil_append]
      refine ⟨_, more, (taken.trans ?_).trans (spread rest).symm, brace, fun notFirst more' => ?_,
        fun {fuel'} more' place' enough => ?_⟩
      · rw [inside, bytes', later]
      · rw [spread, notFirst]
        exact closed_gap gap (closed_cons (b := 0x2C) rfl _)
      · obtain ⟨fuel', rfl⟩ := Nat.exists_eq_succ_of_ne_zero (Nat.ne_zero_of_lt enough)
        obtain ⟨start, found'⟩ := nextKey_key first gap lead
          (spelled tokens ++ 0x22 :: (own ++ (used ++ 0x7D :: more'))) place'
        obtain ⟨between, keyed'⟩ := (readText_iff start _ key
          (own ++ (used ++ 0x7D :: more'))).mpr ⟨tokens, rfl, named⟩
        obtain ⟨behind, member'⟩ := takes (used ++ 0x7D :: more') between (closed rfl more')
        have fewer : used.length < fuel' := by
          simp only [quoted, List.length_append, List.length_cons] at enough
          omega
        obtain ⟨last, read'⟩ := again more' behind fewer
        refine ⟨last, ?_⟩
        rw [Nat.succ_eq_add_one, readObject_succ, spread, found']
        simp only [bind, Except.bind, ↓reduceIte, keyed', member', read']

end Fields

section Lists

variable {first : Bool} {c c' : Cursor}

theorem nextItem_taken (found : nextItem first c = .ok (true, c')) :
    ∃ gap lead : Gap, c.rest = gap.bytes ++ (comma first ++ (lead.bytes ++ c'.rest)) := by
  obtain ⟨gap, taken⟩ := trim_taken c
  simp only [nextItem] at found
  split at found
  · exact absurd found (by simp [Cursor.blame])
  rename_i b rest bytes
  split at found
  · exact absurd found (by simp)
  split at found
  · rename_i begins
    obtain rfl : first = true := begins
    obtain rfl := (Prod.mk.inj (Except.ok.inj found)).2
    exact ⟨gap, .none, taken⟩
  split at found
  · rename_i notFirst mark
    obtain rfl : b = 0x2C := by simpa using mark
    obtain rfl : first = false := by simpa using notFirst
    obtain ⟨lead, taken'⟩ := skipSpace_taken c.trim.ahead rest
    refine ⟨gap, lead, ?_⟩
    rw [taken, bytes, comma, if_neg (by decide), List.singleton_append, taken']
    split at found
    · exact absurd found (by simp [Cursor.blame])
    · split at found
      · exact absurd found (by simp [Cursor.blame])
      · rw [← (Prod.mk.inj (Except.ok.inj found)).2]
  · exact absurd found (by simp [Cursor.blame])

theorem nextItem_ended (found : nextItem first c = .ok (false, c')) :
    ∃ (gap : Gap) (more : List UInt8), c.rest = gap.bytes ++ c'.rest ∧ c'.rest = 0x5D :: more := by
  obtain ⟨gap, taken⟩ := trim_taken c
  simp only [nextItem] at found
  split at found
  · exact absurd found (by simp [Cursor.blame])
  rename_i b rest bytes
  split at found
  · rename_i bracket
    obtain rfl : b = 0x5D := by simpa using bracket
    obtain rfl := (Prod.mk.inj (Except.ok.inj found)).2
    exact ⟨gap, rest, taken, bytes⟩
  split at found
  · exact absurd found (by simp)
  split at found
  · split at found
    · exact absurd found (by simp [Cursor.blame])
    · split at found <;> exact absurd found (by simp [Cursor.blame])
  · exact absurd found (by simp [Cursor.blame])

theorem nextItem_value {value : List UInt8} (starts : Starts value) (first : Bool) (gap lead : Gap)
    (rest : List UInt8) (place : Place) :
    ∃ place', nextItem first ⟨gap.bytes ++ (comma first ++ (lead.bytes ++ (value ++ rest))), place⟩ =
      .ok (true, ⟨value ++ rest, place'⟩) := by
  obtain ⟨place', found⟩ :=
    nextItem_item (i := ⟨lead, value, .none⟩) starts first gap [] rest place
  refine ⟨place', ?_⟩
  simpa only [List.map_cons, List.map_nil, joined_cons, joined, Padded.bytes, Gap.none,
    List.append_nil, List.append_assoc, List.nil_append] using found

theorem nextItem_bracket (first : Bool) (rest : List UInt8) (place : Place) :
    ∃ place', nextItem first ⟨0x5D :: rest, place⟩ = .ok (false, ⟨0x5D :: rest, place'⟩) :=
  nextItem_end first .none rest place

theorem Fields.readList_ended {fs : Fields τ δ} {expected : String} {index : Nat} {first : Bool}
    {more : List UInt8} {t : τ}
    (read : Leads (fs.readList expected index first ⟨0x5D :: more, place⟩) rest (some t)) :
    rest = 0x5D :: more ∧ ∀ more' place',
      Leads (fs.readList expected index first ⟨0x5D :: more', place'⟩) (0x5D :: more') (some t) := by
  induction fs generalizing index place with
  | none =>
    obtain ⟨place', read⟩ := read
    obtain ⟨rfl, same⟩ := Prod.mk.inj (Except.ok.inj read)
    exact ⟨(Cursor.mk.inj same).1.symm, fun more' place' => ⟨place', rfl⟩⟩
  | field name absence hides format others ih =>
    obtain ⟨between, ended⟩ := nextItem_bracket first more place
    rw [readList] at read
    obtain ⟨⟨found, c⟩, next, read⟩ := (leads_bind_iff _ _ _ _).mp read
    obtain ⟨rfl, rfl⟩ := Prod.mk.inj (Except.ok.inj (ended.symm.trans next))
    cases absence with
    | required => exact absurd read (fails_error _).never
    | nullable a => exact absurd read (fails_error _).never
    | defaulted a =>
      obtain ⟨⟨b, c⟩, later, place', same⟩ := (leads_bind_iff _ _ _ _).mp read
      obtain ⟨rfl, rfl⟩ := Prod.mk.inj (Except.ok.inj same)
      obtain ⟨left, again⟩ := ih ⟨_, later⟩
      refine ⟨left, fun more' place' => ?_⟩
      obtain ⟨between', ended'⟩ := nextItem_bracket first more' place'
      obtain ⟨behind, later'⟩ := again more' between'
      refine ⟨behind, ?_⟩
      rw [readList, ended']
      simp only [bind, Except.bind, Bool.false_eq_true, ↓reduceIte, later']
      rfl

theorem Fields.readList_cuts {fs : Fields τ δ} (isolated : fs.Isolated) {expected : String}
    {index : Nat} {first : Bool} {t : τ} (ended : ∃ (gap : Gap) (more : List UInt8),
      rest = gap.bytes ++ 0x5D :: more)
    (read : Leads (fs.readList expected index first ⟨bytes, place⟩) rest (some t)) :
    ∃ (used : List UInt8) (gap : Gap) (more : List UInt8),
      bytes = used ++ rest ∧ rest = gap.bytes ++ 0x5D :: more ∧
      (first = false → ∀ more', Closed (used ++ (gap.bytes ++ 0x5D :: more'))) ∧
      ∀ more' place',
        Leads (fs.readList expected index first ⟨used ++ (gap.bytes ++ 0x5D :: more'), place'⟩)
          (gap.bytes ++ 0x5D :: more') (some t) := by
  have closed (gap : Gap) (more : List UInt8) : Closed (gap.bytes ++ 0x5D :: more) :=
    closed_gap gap (closed_cons (b := 0x5D) rfl more)
  induction fs generalizing index first bytes place with
  | none =>
    obtain ⟨place', read⟩ := read
    obtain ⟨rfl, same⟩ := Prod.mk.inj (Except.ok.inj read)
    obtain rfl := (Cursor.mk.inj same).1
    obtain ⟨gap, more, rfl⟩ := ended
    exact ⟨[], gap, more, rfl, rfl, fun _ => closed gap, fun more' place' => ⟨place', rfl⟩⟩
  | field name absence hides format others ih =>
    obtain ⟨isolates, trims, others'⟩ := isolated
    rw [readList] at read
    obtain ⟨⟨found, c⟩, next, read⟩ := (leads_bind_iff _ _ _ _).mp read
    cases found with
    | false =>
      obtain ⟨gap, more, taken, bracket⟩ := nextItem_ended next
      cases absence with
      | required => exact absurd read (fails_error _).never
      | nullable a => exact absurd read (fails_error _).never
      | defaulted a =>
        obtain ⟨⟨b, c'⟩, later, place', same⟩ := (leads_bind_iff _ _ _ _).mp read
        obtain ⟨rfl, rfl⟩ := Prod.mk.inj (Except.ok.inj same)
        obtain ⟨atEnd, place''⟩ := c
        obtain rfl : atEnd = 0x5D :: more := bracket
        obtain ⟨left, again⟩ := readList_ended ⟨_, later⟩
        refine ⟨gap.bytes, .none, more, left ▸ taken, left, fun _ => closed gap,
          fun more' place' => ?_⟩
        obtain ⟨between, next'⟩ := nextItem_end first gap more' place'
        obtain ⟨behind, later'⟩ := again more' between
        refine ⟨behind, ?_⟩
        rw [readList, Gap.none, List.nil_append, next']
        simp only [bind, Except.bind, Bool.false_eq_true, ↓reduceIte, later']
        rfl
    | true =>
      obtain ⟨⟨a, c'⟩, item, read⟩ := (leads_bind_iff _ _ _ _).mp read
      obtain ⟨⟨b, c''⟩, later, place', same⟩ := (leads_bind_iff _ _ _ _).mp read
      obtain ⟨rfl, rfl⟩ := Prod.mk.inj (Except.ok.inj same)
      obtain ⟨gap, lead, taken⟩ := nextItem_taken next
      obtain ⟨before, value, bytes', starts, takes⟩ := isolates ⟨_, (within_ok_iff _ _ _).mp item⟩
      obtain ⟨used, last, more, left, bracket, closes, again⟩ := ih others' ⟨_, later⟩
      -- what was used: the mark in front of the item, the item and what came later
      have spread (tail : List UInt8) :
          gap.bytes ++ (comma first ++ (lead.bytes ++ (before.bytes ++ (value ++ used)))) ++ tail =
            gap.bytes ++ (comma first ++ ((lead.append before).bytes ++
              (value ++ (used ++ tail)))) := by
        simp only [Gap.append, List.append_assoc]
      refine ⟨_, last, more, (taken.trans ?_).trans (spread rest).symm, bracket,
        fun notFirst more' => ?_, fun more' place' => ?_⟩
      · rw [bytes', left, Gap.append, List.append_assoc]
      · rw [spread, notFirst]
        exact closed_gap gap (closed_cons (b := 0x2C) rfl _)
      · obtain ⟨between, next'⟩ := nextItem_value starts first gap (lead.append before)
          (used ++ (last.bytes ++ 0x5D :: more')) place'
        obtain ⟨inside, item'⟩ := takes _ between (closes rfl more')
        obtain ⟨behind, later'⟩ := again more' inside
        refine ⟨behind, ?_⟩
        rw [readList, spread, next']
        simp only [bind, Except.bind, ↓reduceIte, item', within, later']
        rfl

end Lists

section Records

theorem endObject_brace (rest : List UInt8) (place : Place) :
    ∃ place', endObject ⟨0x7D :: rest, place⟩ = .ok ⟨rest, place'⟩ := ⟨place.after 0x7D, rfl⟩

theorem isolates_record (name : String) {fs : Fields τ δ} (isolated : fs.Isolated) :
    Isolates (Format.record name fs).read := by
  intro bytes place rest t read
  obtain ⟨gap, taken⟩ := trim_taken ⟨bytes, place⟩
  simp only [Format.record] at read
  split at read
  · rename_i inside front
    obtain ⟨⟨t', c⟩, items, read⟩ := (leads_bind_iff _ _ _ _).mp read
    obtain ⟨c', ended, place', same⟩ := (leads_bind_iff _ _ _ _).mp read
    obtain ⟨rfl, rfl⟩ := Prod.mk.inj (Except.ok.inj same)
    obtain ⟨used, last, more, spread, bracket, _, again⟩ :=
      fs.readList_cuts isolated ((endList_found ended).imp fun _ found => ⟨_, found⟩) ⟨_, items⟩
    obtain ⟨behind, ended'⟩ := endList_end last more c.place
    rw [← bracket] at ended'
    obtain rfl := (Cursor.mk.inj (Except.ok.inj (ended.symm.trans ended'))).1
    have whole (tail : List UInt8) : 0x5B :: (used ++ (last.bytes ++ [0x5D])) ++ tail =
        0x5B :: (used ++ (last.bytes ++ 0x5D :: tail)) := by
      simp only [List.cons_append, List.append_assoc, List.nil_append]
    refine ⟨gap, 0x5B :: (used ++ (last.bytes ++ [0x5D])), ?_, ⟨_, _, rfl, rfl, by decide⟩,
      fun tail start _ => ?_⟩
    · rw [whole, ← bracket, ← spread, ← front]
      exact taken
    · obtain ⟨between, items'⟩ := again tail (start.after 0x5B)
      obtain ⟨final, ended''⟩ := endList_end last tail between
      refine ⟨final, ?_⟩
      rw [whole]
      simp only [Format.record, trim_cons (b := 0x5B) rfl, Cursor.ahead, items', bind, Except.bind,
        ended'']
      rfl
  · rename_i inside front
    obtain ⟨⟨t', ⟨left, at'⟩⟩, members, read⟩ := (leads_bind_iff _ _ _ _).mp read
    obtain ⟨c', ended, place', same⟩ := (leads_bind_iff _ _ _ _).mp read
    obtain ⟨rfl, rfl⟩ := Prod.mk.inj (Except.ok.inj same)
    obtain ⟨used, more, spread, rfl, _, again⟩ := fs.readObject_cuts isolated ⟨_, members⟩
    obtain ⟨behind, ended'⟩ := endObject_brace more at'
    obtain rfl := (Cursor.mk.inj (Except.ok.inj (ended.symm.trans ended'))).1
    have whole (tail : List UInt8) : 0x7B :: (used ++ [0x7D]) ++ tail =
        0x7B :: (used ++ 0x7D :: tail) := by
      simp only [List.cons_append, List.append_assoc, List.nil_append]
    refine ⟨gap, 0x7B :: (used ++ [0x7D]), ?_, ⟨_, _, rfl, rfl, by decide⟩, fun tail start _ => ?_⟩
    · rw [whole, ← spread, ← front]
      exact taken
    · have enough : used.length < (used ++ 0x7D :: tail).length + 1 := by
        rw [List.length_append]
        omega
      obtain ⟨between, members'⟩ := again tail (start.after 0x7B) enough
      obtain ⟨final, ended''⟩ := endObject_brace tail between
      refine ⟨final, ?_⟩
      rw [whole]
      simp only [Format.record, trim_cons (b := 0x7B) rfl, Cursor.ahead, members', bind, Except.bind,
        ended'']
      rfl
  · exact absurd read (refuseKind_fails _ _).never

end Records

end TenantGate.Json
