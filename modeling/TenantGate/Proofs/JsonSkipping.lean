import TenantGate.Proofs.JsonGrammar

/-!
Values that nobody reads. The machine gets past a value by its bytes, whatever frames are open
around it, so that it stands behind the value at the end, whatever follows.
-/
namespace TenantGate.Json

open Utf8

section Machine

variable {mode mode' mode'' : Mode} {frames frames' frames'' : List Frame}
  {bytes more rest : List UInt8}

/-- In front of the rest, the machine gets from one mode to another by the bytes. -/
def Passes (mode : Mode) (frames : List Frame) (bytes rest : List UInt8) (mode' : Mode)
    (frames' : List Frame) : Prop :=
  ∀ place, ∃ place', skipFrom mode frames place (bytes ++ rest) = skipFrom mode' frames' place' rest

theorem passes_nil : Passes mode frames [] rest mode frames := fun place => ⟨place, rfl⟩

theorem Passes.trans (first : Passes mode frames bytes (more ++ rest) mode' frames')
    (second : Passes mode' frames' more rest mode'' frames'') :
    Passes mode frames (bytes ++ more) rest mode'' frames'' := by
  intro place
  obtain ⟨between, early⟩ := first place
  obtain ⟨behind, late⟩ := second between
  exact ⟨behind, by rw [List.append_assoc, early, late]⟩

theorem passes_cons {b : UInt8} (step : mode.step b frames = .advance mode' frames')
    (later : Passes mode' frames' bytes rest mode'' frames'') :
    Passes mode frames (b :: bytes) rest mode'' frames'' := by
  intro place
  obtain ⟨behind, late⟩ := later (place.after b)
  refine ⟨behind, ?_⟩
  rw [List.cons_append, skipFrom, step]
  exact late

theorem passes_all {p : UInt8 → Prop}
    (stays : ∀ b, p b → mode.step b frames = .advance mode frames) (each : ∀ b ∈ bytes, p b) :
    Passes mode frames bytes rest mode frames := by
  induction bytes with
  | nil => exact passes_nil
  | cons b bytes ih =>
    exact passes_cons (stays b (each b List.mem_cons_self))
      (ih fun d among => each d (List.mem_cons_of_mem b among))

theorem passes_gap (gap : Gap)
    (stays : ∀ b, isSpace b = true → mode.step b frames = .advance mode frames) :
    Passes mode frames gap.bytes rest mode frames :=
  passes_all stays gap.blank

theorem passes_end (closed : Closed rest) (atEnd : mode.atEnd frames = Mode.atEnd .done frames)
    (step : ∀ b, endsValue b = true → mode.step b frames = .ofDone b frames) :
    Passes mode frames [] rest .done frames := by
  intro place
  refine ⟨place, ?_⟩
  cases rest with
  | nil =>
    rw [List.append_nil, skipFrom, skipFrom, atEnd]
  | cons b rest =>
    rw [List.nil_append, skipFrom, skipFrom, step b (closed b rfl)]
    rfl

section Numbers

def InWhole (mode : Mode) : Prop := mode = .zero ∨ mode = .whole

def InNumber (mode : Mode) : Prop := InWhole mode ∨ mode = .fraction ∨ mode = .exponentDigits

theorem InNumber.passes (inside : InNumber mode) (closed : Closed rest) :
    Passes mode frames [] rest .done frames := by
  have parts {b : UInt8} (ends : endsValue b = true) :
      isDigit b = false ∧ (b == 0x2E) = false ∧ isExponent b = false := by
    obtain ⟨digit, point, small, large⟩ := not_number_of_endsValue ends
    exact ⟨digit, by simp [point], by simp [isExponent, small, large]⟩
  rcases inside with (rfl | rfl) | rfl | rfl
  all_goals
    refine passes_end closed ?_ ?_
    · cases frames with
      | nil => rfl
      | cons frame frames => cases frame <;> rfl
    · intro b ends
      obtain ⟨digit, point, exponent⟩ := parts ends
      simp [Mode.step, digit, point, exponent]

theorem Passes.finish (passes : Passes mode frames bytes rest mode' frames')
    (inside : InNumber mode') (closed : Closed rest) :
    Passes mode frames bytes rest .done frames' := by
  have whole := @Passes.trans _ _ _ _ _ _ bytes [] rest passes (inside.passes closed)
  rwa [List.append_nil] at whole

theorem passes_whole (start : mode = .item ∨ mode = .sign) (whole : Whole bytes) :
    ∃ mode', InWhole mode' ∧ Passes mode frames bytes rest mode' frames := by
  cases whole with
  | zero =>
    refine ⟨.zero, .inl rfl, passes_cons ?_ passes_nil⟩
    rcases start with rfl | rfl <;> rfl
  | @digits b more first nonzero each =>
    refine ⟨.whole, .inr rfl, passes_cons ?_ (passes_all ?_ each)⟩
    · have zero : (b == 0x30) = false := by simpa using nonzero
      rcases start with rfl | rfl
      · simp [Mode.step, Verdict.ofItem, digit_solid first, first, zero,
          digit_beq first (show isDigit 0x6E = false from rfl),
          digit_beq first (show isDigit 0x74 = false from rfl),
          digit_beq first (show isDigit 0x66 = false from rfl),
          digit_beq first (show isDigit 0x2D = false from rfl)]
      · simp [Mode.step, first, zero]
    · intro d digit
      simp [Mode.step, digit]

theorem passes_digits {after : Mode}
    (first : ∀ b, isDigit b = true → mode.step b frames = .advance after frames)
    (further : ∀ b, isDigit b = true → after.step b frames = .advance after frames)
    (digits : Digits bytes) : Passes mode frames bytes rest after frames := by
  obtain ⟨filled, each⟩ := digits
  cases bytes with
  | nil => exact absurd rfl filled
  | cons b bytes =>
    exact passes_cons (first b (each b List.mem_cons_self))
      (passes_all further fun d among => each d (List.mem_cons_of_mem b among))

theorem passes_fraction (inside : InWhole mode) (fraction : Fraction bytes) :
    ∃ mode', (InWhole mode' ∨ mode' = .fraction) ∧
      Passes mode frames bytes rest mode' frames := by
  cases fraction with
  | none => exact ⟨mode, .inl inside, passes_nil⟩
  | digits digits =>
    have point : mode.step 0x2E frames = .advance .point frames := by
      rcases inside with rfl | rfl <;> rfl
    refine ⟨.fraction, .inr rfl, passes_cons point (passes_digits ?_ ?_ digits)⟩
    · intro b digit
      simp [Mode.step, digit]
    · intro b digit
      simp [Mode.step, digit]

theorem passes_exponent (inside : InWhole mode ∨ mode = .fraction) (exponent : Exponent bytes)
    (closed : Closed rest) : Passes mode frames bytes rest .done frames := by
  cases exponent with
  | none =>
    rcases inside with whole | fraction
    · exact passes_nil.finish (.inl whole) closed
    · exact passes_nil.finish (.inr (.inl fraction)) closed
  | @digits letter sign more letters signs digits =>
    have digit : isDigit letter = false ∧ (letter == 0x2E) = false := by
      simp only [isExponent, Bool.or_eq_true, beq_iff_eq] at letters
      rcases letters with rfl | rfl <;> exact ⟨rfl, rfl⟩
    have start : mode.step letter frames = .advance .exponent frames := by
      rcases inside with (rfl | rfl) | rfl <;> simp [Mode.step, letters, digit]
    have sign (b : UInt8) (among : b = 0x2B ∨ b = 0x2D) :
        Mode.exponent.step b frames = .advance .exponentSign frames := by
      rcases among with rfl | rfl <;> rfl
    have first (b : UInt8) (digit : isDigit b = true) :
        Mode.exponent.step b frames = .advance .exponentDigits frames := by
      simp [Mode.step, digit, digit_beq digit (show isDigit 0x2B = false from rfl),
        digit_beq digit (show isDigit 0x2D = false from rfl)]
    have signed (b : UInt8) (digit : isDigit b = true) :
        Mode.exponentSign.step b frames = .advance .exponentDigits frames := by
      simp [Mode.step, digit]
    have further (b : UInt8) (digit : isDigit b = true) :
        Mode.exponentDigits.step b frames = .advance .exponentDigits frames := by
      simp [Mode.step, digit]
    refine (passes_cons start ?_).finish (.inr (.inr rfl)) closed
    rcases signs with rfl | rfl | rfl
    · exact passes_digits first further digits
    · exact passes_cons (sign _ (.inl rfl)) (passes_digits signed further digits)
    · exact passes_cons (sign _ (.inr rfl)) (passes_digits signed further digits)

theorem passes_numeral (numeral : Numeral bytes) (closed : Closed rest) :
    Passes .item frames bytes rest .done frames := by
  cases numeral with
  | @parts sign whole fraction exponent signs hasWhole hasFraction hasExponent =>
    have unsigned {mode : Mode} (start : mode = .item ∨ mode = .sign) :
        Passes mode frames (whole ++ (fraction ++ exponent)) rest .done frames := by
      obtain ⟨_, inWhole, first⟩ := passes_whole start hasWhole
      obtain ⟨_, inPart, second⟩ := passes_fraction inWhole hasFraction
      exact first.trans (second.trans (passes_exponent inPart hasExponent closed))
    have minus : Mode.item.step 0x2D frames = .advance .sign frames := rfl
    rcases signs with rfl | rfl
    · exact unsigned (.inl rfl)
    · exact passes_cons minus (unsigned (.inr rfl))

end Numbers

section Strings

theorem passes_text (isKey : Bool) {inside : List UInt8} (loose : LooseText inside) :
    Passes (.text isKey) frames (inside ++ [0x22]) rest
      (if isKey then .colon else .done) frames := by
  have opens : Mode.step 0x5C frames (.text isKey) = .advance (.escape isKey) frames := rfl
  induction loose with
  | nil =>
    refine passes_cons ?_ passes_nil
    rfl
  | plain quote backslash large _ ih =>
    refine passes_cons ?_ ih
    simp [Mode.step, quote, backslash, large]
  | @short b more letter _ ih =>
    have number : (b == 0x75) = false := by
      rw [beq_eq_false_iff_ne]
      rintro rfl
      exact absurd letter (by decide)
    refine passes_cons opens (passes_cons ?_ ih)
    simp [Mode.step, number, letter]
  | @number w x y z more digits _ ih =>
    have letter : Mode.step 0x75 frames (.escape isKey) = .advance (.hex isKey true 3) frames := rfl
    have hex {b : UInt8} (among : b ∈ [w, x, y, z]) (left : Nat) :
        Mode.step b frames (.hex isKey true (left + 1)) =
          .advance (.hex isKey true left) frames := by
      simp [Mode.step, digits b among]
    have last : Mode.step z frames (.hex isKey true 0) = .advance (.text isKey) frames := by
      simp [Mode.step, digits z (by simp)]
    exact passes_cons opens (passes_cons letter (passes_cons (hex (by simp) 2)
      (passes_cons (hex (by simp) 1) (passes_cons (hex (by simp) 0) (passes_cons last ih)))))

end Strings

section Values

variable {gap : Gap}

theorem passes_opened {b : UInt8} (space : isSpace b = false) (ends : endsValue b = false)
    (later : Passes .item frames (b :: bytes) rest mode' frames') :
    Passes (.opened .list) frames (b :: bytes) rest mode' frames' := by
  intro place
  obtain ⟨behind, late⟩ := later place
  have bracket : (b == 0x5D) = false := by
    rw [beq_eq_false_iff_ne]
    rintro rfl
    exact absurd ends (by decide)
  have same : (Mode.opened .list).step b frames = Mode.item.step b frames := by
    simp [Mode.step, space, bracket]
  refine ⟨behind, ?_⟩
  rw [List.cons_append, skipFrom, same]
  rw [List.cons_append, skipFrom] at late
  exact late

def Skipped (value : List UInt8) : Prop :=
  ∀ frames rest, Closed rest → Passes .item frames value rest .done frames

theorem item_space (b : UInt8) (space : isSpace b = true) :
    Mode.item.step b frames = .advance .item frames := by
  simp [Mode.step, Verdict.ofItem, space]

theorem done_space {frame : Frame} (b : UInt8) (space : isSpace b = true) :
    Mode.done.step b (frame :: frames) = .advance .done (frame :: frames) := by
  cases frame <;> simp [Mode.step, Verdict.ofDone, space]

theorem passes_padded {frame : Frame} {p : Padded} (skipped : Skipped p.value)
    (closed : Closed rest) :
    Passes .item (frame :: frames) p.bytes rest .done (frame :: frames) :=
  (passes_gap p.before item_space).trans
    ((skipped (frame :: frames) _ (closed_gap p.after closed)).trans
      (passes_gap p.after done_space))

theorem passes_items {items : List Padded} (skipped : ∀ i ∈ items, Skipped i.value) :
    Passes .done (.list :: frames) (joined false (items.map Padded.bytes) ++ [0x5D]) rest .done
      frames := by
  induction items with
  | nil =>
    have bracket : Mode.done.step 0x5D (.list :: frames) = .advance .done frames := rfl
    exact passes_cons bracket passes_nil
  | cons i items ih =>
    have comma : Mode.done.step 0x2C (.list :: frames) = .advance .item (.list :: frames) := rfl
    have closed : Closed ((joined false (items.map Padded.bytes) ++ [0x5D]) ++ rest) := by
      rw [List.append_assoc]
      exact closed_joined 0x5D rfl _ rest
    rw [List.map_cons, joined, List.append_assoc]
    exact passes_cons comma ((passes_padded (skipped i List.mem_cons_self) closed).trans
      (ih fun other among => skipped other (List.mem_cons_of_mem i among)))

theorem passes_list (gap : Gap) {items : List Padded}
    (each : ∀ i ∈ items, Loose i.value) (skipped : ∀ i ∈ items, Skipped i.value) :
    Passes .item frames (listBytes gap items) rest .done frames := by
  have bracket : Mode.item.step 0x5B frames = .advance (.opened .list) (.list :: frames) := rfl
  have opened (b : UInt8) (space : isSpace b = true) :
      (Mode.opened .list).step b (.list :: frames) =
        .advance (.opened .list) (.list :: frames) := by
    simp [Mode.step, space]
  rw [listBytes, List.cons_append, List.append_assoc]
  refine passes_cons bracket ((passes_gap gap opened).trans ?_)
  cases items with
  | nil =>
    have closer : (Mode.opened .list).step 0x5D (.list :: frames) = .advance .done frames := rfl
    exact passes_cons closer passes_nil
  | cons i items =>
    obtain ⟨b, more, value, space, ends⟩ := (each i List.mem_cons_self).front
    have closed : Closed ((joined false (items.map Padded.bytes) ++ [0x5D]) ++ rest) := by
      rw [List.append_assoc]
      exact closed_joined 0x5D rfl _ rest
    have first : Passes (.opened .list) (.list :: frames) (i.value ++ i.after.bytes)
        ((joined false (items.map Padded.bytes) ++ [0x5D]) ++ rest) .done (.list :: frames) := by
      have behind := (skipped i List.mem_cons_self (.list :: frames) _
        (closed_gap i.after closed)).trans (passes_gap i.after done_space)
      rw [value] at behind ⊢
      exact passes_opened space ends behind
    rw [List.map_cons, joined, if_pos rfl, Padded.bytes, List.append_assoc, List.append_assoc]
    exact (passes_gap i.before opened).trans (first.trans
      (passes_items fun other among => skipped other (List.mem_cons_of_mem i among)))

theorem passes_entry (start : mode = .key ∨ mode = .opened .object) {e : LooseEntry}
    (key : LooseText e.key) (skipped : Skipped e.value.value) (closed : Closed rest) :
    Passes mode (.object :: frames) e.bytes rest .done (.object :: frames) := by
  have space (b : UInt8) (space : isSpace b = true) :
      mode.step b (.object :: frames) = .advance mode (.object :: frames) := by
    rcases start with rfl | rfl <;> simp [Mode.step, Verdict.ofKey, space]
  have quote : mode.step 0x22 (.object :: frames) = .advance (.text true) (.object :: frames) := by
    rcases start with rfl | rfl <;> rfl
  have gap (b : UInt8) (space : isSpace b = true) :
      Mode.colon.step b (.object :: frames) = .advance .colon (.object :: frames) := by
    simp [Mode.step, space]
  have colon : Mode.colon.step 0x3A (.object :: frames) = .advance .item (.object :: frames) := rfl
  rw [LooseEntry.bytes, looseQuoted, List.cons_append]
  exact (passes_gap e.lead space).trans (passes_cons quote
    ((passes_text true key).trans ((passes_gap e.gap gap).trans
      (passes_cons colon (passes_padded skipped closed)))))

theorem passes_entries {entries : List LooseEntry} (keys : ∀ e ∈ entries, LooseText e.key)
    (skipped : ∀ e ∈ entries, Skipped e.value.value) :
    Passes .done (.object :: frames) (joined false (entries.map LooseEntry.bytes) ++ [0x7D]) rest
      .done frames := by
  induction entries with
  | nil =>
    have brace : Mode.done.step 0x7D (.object :: frames) = .advance .done frames := rfl
    exact passes_cons brace passes_nil
  | cons e entries ih =>
    have comma : Mode.done.step 0x2C (.object :: frames) = .advance .key (.object :: frames) := rfl
    have closed : Closed ((joined false (entries.map LooseEntry.bytes) ++ [0x7D]) ++ rest) := by
      rw [List.append_assoc]
      exact closed_joined 0x7D rfl _ rest
    obtain ⟨key, keys⟩ := List.forall_mem_cons.mp keys
    obtain ⟨value, skipped⟩ := List.forall_mem_cons.mp skipped
    rw [List.map_cons, joined, List.append_assoc]
    exact passes_cons comma ((passes_entry (.inl rfl) key value closed).trans (ih keys skipped))

theorem passes_object (gap : Gap) {entries : List LooseEntry}
    (keys : ∀ e ∈ entries, LooseText e.key) (skipped : ∀ e ∈ entries, Skipped e.value.value) :
    Passes .item frames (looseObjectBytes gap entries) rest .done frames := by
  have brace : Mode.item.step 0x7B frames = .advance (.opened .object) (.object :: frames) := rfl
  have opened (b : UInt8) (space : isSpace b = true) :
      (Mode.opened .object).step b (.object :: frames) =
        .advance (.opened .object) (.object :: frames) := by
    simp [Mode.step, space]
  rw [looseObjectBytes, List.cons_append, List.append_assoc]
  refine passes_cons brace ((passes_gap gap opened).trans ?_)
  cases entries with
  | nil =>
    have closer : (Mode.opened .object).step 0x7D (.object :: frames) = .advance .done frames := rfl
    exact passes_cons closer passes_nil
  | cons e entries =>
    have closed : Closed ((joined false (entries.map LooseEntry.bytes) ++ [0x7D]) ++ rest) := by
      rw [List.append_assoc]
      exact closed_joined 0x7D rfl _ rest
    obtain ⟨key, keys⟩ := List.forall_mem_cons.mp keys
    obtain ⟨value, skipped⟩ := List.forall_mem_cons.mp skipped
    rw [List.map_cons, joined, if_pos rfl, List.append_assoc]
    exact (passes_entry (.inr rfl) key value closed).trans (passes_entries keys skipped)

theorem Loose.skipped {bytes : List UInt8} (loose : Loose bytes) : Skipped bytes := by
  induction loose with
  | null =>
    intro frames rest _ place
    exact ⟨_, rfl⟩
  | boolean b =>
    intro frames rest _ place
    cases b <;> exact ⟨_, rfl⟩
  | number numeral => exact fun frames rest closed => passes_numeral numeral closed
  | text loose =>
    intro frames rest _
    have quote : Mode.item.step 0x22 frames = .advance (.text false) frames := rfl
    exact passes_cons quote (passes_text false loose)
  | list gap each skipped => exact fun frames rest _ => passes_list gap each skipped
  | object gap keys _ skipped => exact fun frames rest _ => passes_object gap keys skipped

end Values

end Machine

theorem skipValue_padded {p : Padded} (loose : Loose p.value) {rest : List UInt8}
    (closed : Closed rest) (place : Place) :
    ∃ place', skipValue ⟨p.before.bytes ++ (p.value ++ rest), place⟩ = .ok ⟨rest, place'⟩ := by
  obtain ⟨between, first⟩ :=
    @passes_gap .item [] (p.value ++ rest) p.before item_space place
  obtain ⟨behind, second⟩ := loose.skipped [] rest closed between
  refine ⟨behind, ?_⟩
  rw [skipValue, first, second]
  cases rest <;> rfl

end TenantGate.Json
