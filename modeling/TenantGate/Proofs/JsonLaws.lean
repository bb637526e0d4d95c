import TenantGate.Proofs.JsonPresentation

/-!
Lawful formats. What is written presents the document of the value, what presents the document is
read as the value, and what repeats a field is refused. The formats of strings, truth values and
numbers are lawful, and the ways to put formats together keep them so.
-/
namespace TenantGate.Json

open Utf8

variable {α β γ τ δ : Type}

structure Format.Lawful (f : Format α) (shape : Shape) (document : α → Document)
    (valid : α → Prop) : Prop extends f.Steady where
  refuses : ∀ {bytes}, Repeats shape bytes → Refuses f.read bytes
  written : ∀ {a}, valid a → Presents shape (document a) (encode (f.write a))
  takes : ∀ {a bytes}, valid a → Presents shape (document a) bytes → Takes f.read bytes a

section Scalars

theorem scalar_never_repeats {bytes : List UInt8} : ¬ Repeats .scalar bytes := nofun

theorem lawful_string : Format.string.Lawful .scalar .text fun _ => True where
  trims := trims_readString _
  keeps wellFormed := keeps_readString _ wellFormed
  refuses repeats := absurd repeats scalar_never_repeats
  written := by
    intro s _
    obtain ⟨tokens, written, spells⟩ := quoted_of_text s
    exact written ▸ .text spells
  takes := by
    intro s bytes _ presents rest place _
    obtain ⟨tokens, rfl, spells⟩ := presents_text presents
    have read := readString_quoted "a string" tokens rest place
    rwa [spells] at read

theorem lawful_boolean : Format.boolean.Lawful .scalar .boolean fun _ => True where
  trims := trims_boolean
  keeps := keeps_boolean
  refuses repeats := absurd repeats scalar_never_repeats
  written := by
    intro b _
    have texts : encode (booleanText true) = booleanBytes true ∧
        encode (booleanText false) = booleanBytes false := by
      decide +kernel
    cases b with
    | true => exact texts.1 ▸ .boolean true
    | false => exact texts.2 ▸ .boolean false
  takes := by
    intro b bytes _ presents rest place _
    rw [presents_boolean presents]
    cases b <;> exact ⟨_, rfl⟩

theorem lawful_natural (expected : String) {limit : Nat} (within : limit ≤ significandLimit) :
    (Format.natural expected limit).Lawful .scalar .number fun n => n ≤ limit where
  trims := trims_natural expected limit
  keeps := keeps_natural expected limit
  refuses repeats := absurd repeats scalar_never_repeats
  written := by
    intro n _
    have written : encode ((Format.natural expected limit).write n) = digitBytes n :=
      encode_toString n
    exact written ▸ .number n
  takes := by
    intro n bytes fits presents
    rw [presents_number presents]
    exact takes_natural expected fits (Nat.le_trans fits within)

theorem lawful_alternatives (expected : String) {nameOf : α → String}
    {alternatives : List (String × α)}
    (found : ∀ a, alternatives.find? (fun entry => entry.1 == nameOf a) = some (nameOf a, a)) :
    (Format.alternatives expected nameOf alternatives).Lawful .scalar (fun a => .text (nameOf a))
      fun _ => True where
  trims := trims_alternatives expected nameOf alternatives
  keeps := keeps_alternatives expected nameOf
  refuses repeats := absurd repeats scalar_never_repeats
  written := by
    intro a _
    obtain ⟨tokens, written, spells⟩ := quoted_of_text (nameOf a)
    exact written ▸ .text spells
  takes := by
    intro a bytes _ presents
    obtain ⟨tokens, rfl, spells⟩ := presents_text presents
    exact takes_alternatives expected nameOf (found a) spells

end Scalars

section Combinations

variable {f : Format α} {shape : Shape} {document : α → Document} {valid : α → Prop}

theorem lawful_map (lawful : f.Lawful shape document valid) {into : α → β} {back : β → α}
    {document' : β → Document} {valid' : β → Prop} (same : ∀ b, document' b = document (back b))
    (fits : ∀ b, valid' b → valid (back b) ∧ into (back b) = b) :
    (f.map into back).Lawful shape document' valid' where
  trims := trims_map lawful.trims into back
  keeps wellFormed := keeps_map (lawful.keeps wellFormed) into back
  refuses := by
    intro bytes repeats rest place closed
    exact (lawful.refuses repeats rest place closed).bind _
  written := by
    intro b valid
    rw [same]
    exact lawful.written (fits b valid).1
  takes := by
    intro b bytes valid presents rest place closed
    rw [same] at presents
    obtain ⟨place', read⟩ := lawful.takes (fits b valid).1 presents rest place closed
    refine ⟨place', ?_⟩
    simp only [Format.map, read, bind, Except.bind, pure, Except.pure, (fits b valid).2]

theorem lawful_optional (lawful : f.Lawful shape document valid)
    (something : ∀ a, document a ≠ .null) :
    (Format.optional f).Lawful shape (fun a? => (a?.map document).getD .null)
      (fun a? => ∀ a ∈ a?, valid a) where
  trims := trims_optional f
  keeps wellFormed := keeps_optional (lawful.keeps wellFormed) wellFormed
  refuses := by
    intro bytes repeats rest place closed
    obtain ⟨b, more, rfl, fronted⟩ := repeats.wellFormed.fronted
    have letter : b ≠ 0x6E := by
      rintro rfl
      have null := fronted.null rfl
      rw [null] at repeats
      generalize bytes : nullBytes = given at repeats
      cases repeats <;> simp [nullBytes, listBytes, objectBytes] at bytes
    have refused := lawful.refuses repeats rest place closed
    rw [List.cons_append] at refused ⊢
    rw [optional_other f fronted.solid letter]
    exact refused.bind _
  written := by
    intro a? valid
    cases a? with
    | none =>
      have text : encode "null" = nullBytes := by decide +kernel
      exact text ▸ .null shape
    | some a => exact lawful.written (valid a rfl)
  takes := by
    intro a? bytes valid presents rest place closed
    cases a? with
    | none =>
      cases presents
      exact optional_null f rest place
    | some a =>
      have front := presents_something presents (something a)
      obtain ⟨b, more, rfl, fronted⟩ := presents.wellFormed.fronted
      obtain ⟨place', read⟩ := lawful.takes (valid a rfl) presents rest place closed
      refine ⟨place', ?_⟩
      have letter : b ≠ 0x6E := by
        rintro rfl
        exact front rfl
      rw [List.cons_append] at read ⊢
      rw [optional_other f fronted.solid letter, read]
      rfl

theorem lawful_list (lawful : f.Lawful shape document valid) :
    (Format.list f).Lawful (.list shape) (fun as => .list (as.map document))
      (fun as => ∀ a ∈ as, valid a) where
  trims := trims_list f
  keeps := keeps_list lawful.keeps
  refuses := by
    intro bytes repeats
    cases repeats with
    | item gap each among inside =>
      exact refuses_list lawful.keeps gap each ⟨_, among, lawful.refuses inside⟩
  written := by
    intro as valid
    let items := as.map fun a => (document a, Padded.bare (encode (f.write a)))
    have presents : Presents (.list shape) (.list (items.map Prod.fst))
        (listBytes .none (items.map Prod.snd)) :=
      .list .none (List.forall_mem_map.mpr fun a among => lawful.written (valid a among))
    have documents : items.map Prod.fst = as.map document := List.map_map
    have written : encode ((Format.list f).write as) = listBytes .none (items.map Prod.snd) := by
      change encode (listText (as.map f.write)) = _
      rw [encode_listText, List.map_map, List.map_map]
      rfl
    rwa [written, ← documents]
  takes := by
    intro as bytes valid presents
    obtain ⟨gap, items, documents, rfl, each⟩ := presents_list presents
    obtain ⟨pairs, rfl, seconds, paired⟩ := exists_pairs documents.symm
    rw [← seconds]
    apply takes_list gap
    · exact fun p among => (each _ (paired p among)).wellFormed.starts
    · exact fun p among =>
        lawful.takes (valid p.1 (List.mem_map_of_mem among)) (each _ (paired p among))

end Combinations

section Maps

theorem exists_perm_of_map {f : α → β} {images : List β} {as : List α}
    (order : images.Perm (as.map f)) :
    ∃ as' : List α, as'.Perm as ∧ as'.map f = images := by
  generalize mapped : as.map f = others at order
  induction order generalizing as with
  | nil => exact ⟨[], .of_eq (List.map_eq_nil_iff.mp mapped).symm, rfl⟩
  | cons b order ih =>
    obtain ⟨a, more, rfl, rfl, later⟩ := List.map_eq_cons_iff.mp mapped
    obtain ⟨as', perm, images⟩ := ih later
    exact ⟨a :: as', perm.cons a, by rw [List.map_cons, images]⟩
  | swap b b' images =>
    obtain ⟨a, more, rfl, rfl, later⟩ := List.map_eq_cons_iff.mp mapped
    obtain ⟨a', more, rfl, rfl, rfl⟩ := List.map_eq_cons_iff.mp later
    exact ⟨a' :: a :: more, .swap a a' more, rfl⟩
  | trans _ _ first second =>
    obtain ⟨between, perm, images⟩ := second mapped
    obtain ⟨as', perm', images'⟩ := first images
    exact ⟨as', perm'.trans perm, images'⟩

variable {f : Format α} {shape : Shape} {document : α → Document} {valid : α → Prop}

theorem written_members (lawful : f.Lawful shape document valid) {given : List (String × α)}
    (holds : ∀ m ∈ given, valid m.2) :
    Presents (.map shape) (.object (given.map fun m => (m.1, document m.2)))
      (encode ((Format.members f).write given)) := by
  obtain ⟨texts, same, written, each⟩ := encode_objectText (given.map fun m => (m.1, f.write m.2))
  obtain ⟨pairs, firsts, seconds, paired⟩ := exists_pairs same
  let members := pairs.map fun p => Member.mk p.1.1 shape (document p.1.2) p.2
  have entries : members.map Member.entry = texts.map Prod.snd := by
    rw [← seconds, List.map_map]
    rfl
  have said : members.map Member.said = given.map fun m => (m.1, document m.2) := by
    rw [← firsts, List.map_map, List.map_map]
    rfl
  have written : encode ((Format.members f).write given) =
      objectBytes .none (texts.map Prod.snd) := written
  rw [written, ← said, ← entries]
  refine .map .none (.refl _) (List.forall_mem_map.mpr fun p among => ?_)
    (List.forall_mem_map.mpr fun p among => ?_)
  · exact ⟨(each _ (paired p among)).1, rfl⟩
  · have member : p.1 ∈ given := firsts ▸ List.mem_map_of_mem among
    have value := (each _ (paired p among)).2
    change Presents shape (document p.1.2) p.2.value.value
    rw [value]
    exact lawful.written (holds _ member)

theorem takes_presented_members (lawful : f.Lawful shape document valid)
    {given : List (String × α)} (holds : ∀ m ∈ given, valid m.2) {bytes : List UInt8}
    (presents : Presents (.map shape) (.object (given.map fun m => (m.1, document m.2))) bytes) :
    ∃ read : List (String × α), read.Perm given ∧ Takes (Format.members f).read bytes read := by
  obtain ⟨gap, members, entries, said, rfl, order, each⟩ := presents_map presents
  -- each member of the value beside its entry, and then all in the order of the text
  have same : (members.map fun m => (m.said, m.entry)).map Prod.fst =
      given.map fun m => (m.1, document m.2) := by
    rw [List.map_map]
    exact said.symm
  obtain ⟨pairs, firsts, seconds, paired⟩ := exists_pairs same
  rw [List.map_map] at seconds
  have order : entries.Perm (pairs.map Prod.snd) := seconds ▸ order
  obtain ⟨ordered, perm, rfl⟩ := exists_perm_of_map order
  have taken : ∀ m ∈ ordered, ReadAs f.read m := by
    intro m among
    have listed := perm.mem_iff.mp among
    obtain ⟨member, known, same⟩ := List.mem_map.mp (paired m listed)
    obtain ⟨said, entry⟩ := Prod.mk.inj same
    obtain ⟨name, value⟩ := Prod.mk.inj said
    obtain ⟨key, presents⟩ := each member known
    rw [entry, name] at key
    rw [entry, value] at presents
    have own : m.1 ∈ given := firsts ▸ List.mem_map_of_mem listed
    exact ⟨key, lawful.trims.takes _ (lawful.takes (holds _ own) presents)⟩
  exact ⟨ordered.map Prod.fst, firsts ▸ perm.map Prod.fst, takes_members gap taken⟩

theorem lawful_members (lawful : f.Lawful shape document valid) {into : List (String × α) → β}
    {back : β → List (String × α)} {valid' : β → Prop}
    (fits : ∀ b, valid' b → ∀ m ∈ back b, valid m.2)
    (settles : ∀ b, valid' b → ∀ members, members.Perm (back b) → into members = b) :
    ((Format.members f).map into back).Lawful (.map shape)
      (fun b => .object ((back b).map fun m => (m.1, document m.2))) valid' where
  trims := trims_map (trims_members f) into back
  keeps wellFormed := keeps_map (keeps_members lawful.trims lawful.keeps wellFormed) into back
  refuses := by
    intro bytes repeats rest place closed
    cases repeats with
    | value gap each among inside =>
      exact (refuses_members lawful.trims lawful.keeps gap each ⟨_, among, lawful.refuses inside⟩
        rest place closed).bind _
  written holds := written_members lawful (fits _ holds)
  takes := by
    intro b bytes holds presents rest place closed
    obtain ⟨members, perm, taken⟩ := takes_presented_members lawful (fits b holds) presents
    obtain ⟨place', read⟩ := taken rest place closed
    refine ⟨place', ?_⟩
    simp only [Format.map, read, bind, Except.bind, pure, Except.pure, settles b holds members perm]

end Maps

section Records

/-- The fields are lawful, and a field that is hidden holds what it holds when it is not given. -/
inductive Fields.Lawful : {τ δ : Type} → Fields τ δ → List (String × Shape) →
    (τ → List (String × Document)) → (τ → Prop) → Prop where
  | none : Fields.none.Lawful [] (fun _ => []) (fun _ => True)
  | field {α β γ : Type} {name : String} {absence : Absence α} {hides : α → Bool}
      {format : Format α} {more : Fields β γ} {shape : Shape} {document : α → Document}
      {valid : α → Prop} {fields : List (String × Shape)} {said : β → List (String × Document)}
      {valids : β → Prop} (own : format.Lawful shape document valid)
      (hidden : ∀ a, hides a = true → absence.value? = some a)
      (others : more.Lawful fields said valids) :
      (Fields.field name absence hides format more).Lawful ((name, shape) :: fields)
        (fun t => if hides t.1 then said t.2 else (name, document t.1) :: said t.2)
        (fun t => valid t.1 ∧ valids t.2)

variable {fs : Fields τ δ} {fields : List (String × Shape)}
  {said : τ → List (String × Document)} {valid : τ → Prop}

theorem Fields.Lawful.names (lawful : fs.Lawful fields said valid) :
    fields.map Prod.fst = fs.names := by
  induction lawful with
  | none => rfl
  | field own hidden others ih => rw [List.map_cons, ih, Fields.names]

theorem Fields.Lawful.steady (lawful : fs.Lawful fields said valid) : fs.Steady := by
  induction lawful with
  | none => trivial
  | field own hidden others ih => exact ⟨own.toSteady, ih⟩

theorem Fields.Lawful.refuses (lawful : fs.Lawful fields said valid)
    (distinct : (fields.map Prod.fst).Nodup) {name : String} {shape : Shape}
    (known : (name, shape) ∈ fields) {p : Padded} (repeats : Repeats shape p.value) :
    fs.At name fun _ f => Refuses f.read p.front := by
  induction lawful with
  | none => exact absurd known List.not_mem_nil
  | field own hidden others ih =>
    rw [List.map_cons, List.nodup_cons] at distinct
    rcases List.mem_cons.mp known with same | later
    · obtain ⟨rfl, rfl⟩ := Prod.mk.inj same
      exact .inl ⟨rfl, own.trims.refuses p.before (own.refuses repeats)⟩
    · refine .inr ⟨?_, ih distinct.2 later⟩
      rintro rfl
      exact distinct.1 (List.mem_map.mpr ⟨_, later, rfl⟩)

theorem Fields.Lawful.refusesItem (lawful : fs.Lawful fields said valid) {items : List Padded}
    {index : Nat} {i : Padded} {name : String} {shape : Shape} (item : items[index]? = some i)
    (known : fields[index]? = some (name, shape)) (repeats : Repeats shape i.value) :
    fs.RefusesItem items := by
  induction lawful generalizing items index with
  | none => exact absurd known (by simp)
  | field own hidden others ih =>
    cases items with
    | nil => exact absurd item (by simp)
    | cons first items =>
      cases index with
      | zero =>
        obtain rfl : first = i := by simpa using item
        obtain ⟨rfl, rfl⟩ := Prod.mk.inj (Option.some.inj known)
        exact .inl (own.refuses repeats)
      | succ index => exact .inr (ih item known)

theorem Fields.Lawful.complete (lawful : fs.Lawful fields said valid) {t : τ} {given : List String}
    (all : ∀ s ∈ said t, s.1 ∈ given) : fs.Complete t given := by
  induction lawful with
  | none => trivial
  | @field _ _ _ name _ hides _ _ _ document _ _ said _ own hidden others ih =>
    obtain ⟨a, b⟩ := t
    cases hides' : hides a with
    | true =>
      simp only [hides', ↓reduceIte] at all
      exact ⟨.inr (hidden a hides'), ih all⟩
    | false =>
      simp only [hides', Bool.false_eq_true, ↓reduceIte, List.forall_mem_cons] at all
      exact ⟨.inl all.1, ih all.2⟩

theorem Fields.Lawful.said_sublist (lawful : fs.Lawful fields said valid) (t : τ) :
    ((said t).map Prod.fst).Sublist (fields.map Prod.fst) := by
  induction lawful with
  | none => exact List.nil_sublist _
  | field own hidden others ih =>
    dsimp only
    split
    · exact (ih t.2).cons _
    · exact (ih t.2).cons_cons _

theorem Fields.Lawful.states (lawful : fs.Lawful fields said valid)
    (distinct : (fields.map Prod.fst).Nodup) {t : τ} (holds : valid t) {name : String}
    {shape : Shape} (known : (name, shape) ∈ fields) {document : Document}
    (stated : (name, document) ∈ said t) {p : Padded} (presents : Presents shape document p.value) :
    fs.States t name p.front := by
  induction lawful with
  | none => exact absurd known List.not_mem_nil
  | @field _ _ _ name' _ hides _ _ shape' document' _ fields said _ own hidden others ih =>
    obtain ⟨a, b⟩ := t
    rw [List.map_cons, List.nodup_cons] at distinct
    have later (among : (name, document) ∈ said b) : name ∈ fields.map Prod.fst :=
      (others.said_sublist b).subset (List.mem_map.mpr ⟨_, among, rfl⟩)
    have split : (name, document) ∈ said b ∨ name = name' ∧ document = document' a := by
      dsimp only at stated
      split at stated
      · exact .inl stated
      · rcases List.mem_cons.mp stated with same | among
        · exact .inr (Prod.mk.inj same)
        · exact .inl among
    rcases split with among | ⟨rfl, rfl⟩
    · have other : name ≠ name' := by
        rintro rfl
        exact distinct.1 (later among)
      have known : (name, shape) ∈ fields :=
        (List.mem_cons.mp known).resolve_left fun same => other (Prod.mk.inj same).1
      exact .inr ⟨other, ih distinct.2 holds.2 known among⟩
    · have known : (name, shape) = (name, shape') :=
        (List.mem_cons.mp known).resolve_right fun among =>
          distinct.1 (List.mem_map.mpr ⟨_, among, rfl⟩)
      obtain rfl := (Prod.mk.inj known).2
      exact .inl ⟨rfl, own.trims.takes p.before (own.takes holds.1 presents)⟩

structure Part where
  name : String
  shape : Shape
  document : Document
  text : String

theorem Fields.Lawful.parts (lawful : fs.Lawful fields said valid) {t : τ} (holds : valid t) :
    ∃ parts : List Part, (parts.map fun p => (p.name, p.text)) = fs.write t ∧
      (parts.map fun p => (p.name, p.document)) = said t ∧
      ∀ p ∈ parts, (p.name, p.shape) ∈ fields ∧ Presents p.shape p.document (encode p.text) := by
  induction lawful with
  | none => exact ⟨[], rfl, rfl, fun p among => absurd among List.not_mem_nil⟩
  | @field _ _ _ name _ hides format _ shape document _ fields said _ own hidden others ih =>
    obtain ⟨a, b⟩ := t
    obtain ⟨parts, written, saying, each⟩ := ih holds.2
    have each : ∀ p ∈ parts, (p.name, p.shape) ∈ (name, shape) :: fields ∧
        Presents p.shape p.document (encode p.text) :=
      fun p among => ⟨List.mem_cons_of_mem _ (each p among).1, (each p among).2⟩
    cases hidden : hides a with
    | true =>
      refine ⟨parts, ?_, ?_, each⟩
      · simp only [Fields.write, hidden, ↓reduceIte, written]
      · simp only [hidden, ↓reduceIte, saying]
    | false =>
      refine ⟨⟨name, shape, document a, format.write a⟩ :: parts, ?_, ?_,
        List.forall_mem_cons.mpr ⟨⟨List.mem_cons_self, own.written holds.1⟩, each⟩⟩
      · simp only [List.map_cons, Fields.write, hidden, Bool.false_eq_true, ↓reduceIte, written]
      · simp only [List.map_cons, hidden, Bool.false_eq_true, ↓reduceIte, saying]

theorem refuses_record (record : String) (lawful : fs.Lawful fields said valid)
    (distinct : (fields.map Prod.fst).Nodup) {bytes : List UInt8}
    (repeats : Repeats (.record fields) bytes) : Refuses (Format.record record fs).read bytes := by
  cases repeats with
  | twice gap each known given =>
    exact refuses_repeated record lawful.steady (lawful.names ▸ known) gap each given
  | member gap each among key known inside =>
    exact refuses_member record lawful.steady key (lawful.refuses distinct known inside) gap among
      each
  | position gap each item known inside =>
    exact refuses_position record lawful.steady gap each (lawful.refusesItem item known inside)

theorem written_record (record : String) (lawful : fs.Lawful fields said valid) {t : τ}
    (holds : valid t) :
    Presents (.record fields) (.object (said t)) (encode ((Format.record record fs).write t)) := by
  obtain ⟨given, same, written, each⟩ := encode_objectText (fs.write t)
  obtain ⟨parts, texts, documents, fits⟩ := lawful.parts holds
  obtain ⟨pairs, firsts, seconds, paired⟩ := exists_pairs (same.trans texts.symm)
  let members := pairs.map fun p => Member.mk p.1.name p.1.shape p.1.document p.2
  have entries : members.map Member.entry = given.map Prod.snd := by
    rw [← seconds, List.map_map]
    rfl
  have saying : members.map Member.said = said t := by
    rw [← documents, ← firsts, List.map_map, List.map_map]
    rfl
  have written : encode ((Format.record record fs).write t) =
      objectBytes .none (given.map Prod.snd) := written
  have own {p : Part × Entry} (among : p ∈ pairs) : p.1 ∈ parts :=
    firsts ▸ List.mem_map_of_mem among
  rw [written, ← saying, ← entries]
  refine .record .none (.of_eq (List.append_nil _).symm)
    (List.forall_mem_map.mpr fun p among => ?_) (List.forall_mem_map.mpr fun p among => ?_)
    fun e among => absurd among List.not_mem_nil
  · exact ⟨(each _ (paired p among)).1, (fits p.1 (own among)).1⟩
  · have value := (each _ (paired p among)).2
    change Presents p.1.shape p.1.document p.2.value.value
    rw [value]
    exact (fits p.1 (own among)).2

theorem takes_presented (record : String) (lawful : fs.Lawful fields said valid)
    (distinct : (fields.map Prod.fst).Nodup) {t : τ} (holds : valid t) {bytes : List UInt8}
    (presents : Presents (.record fields) (.object (said t)) bytes) :
    Takes (Format.record record fs).read bytes t := by
  obtain ⟨gap, members, others, entries, saying, rfl, order, each, unknown⟩ :=
    presents_record presents
  have names := lawful.names
  have stated {m : Member} (among : m ∈ members) : (m.name, m.document) ∈ said t :=
    saying ▸ List.mem_map_of_mem (f := Member.said) among
  have states {m : Member} (among : m ∈ members) : fs.States t m.name m.entry.value.front :=
    lawful.states distinct holds (each m among).2.1 (stated among) (each m among).2.2
  -- the entries under names of fields give the names that are said, in some order
  have given : (fs.givenBy entries).Perm ((said t).map Prod.fst) := by
    have known : fs.givenBy (members.map Member.entry) = (said t).map Prod.fst := by
      rw [fs.givenBy_named fun m among => ⟨(each m among).1, (states among).named⟩, saying,
        List.map_map]
      rfl
    have rest : fs.givenBy others = [] := by
      refine fs.givenBy_others fun e among => ?_
      obtain ⟨name, key, other, _⟩ := unknown e among
      exact ⟨name, key, names ▸ other⟩
    have all := order.filterMap fun e => (textOf e.key).filter (· ∈ fs.names)
    rw [List.filterMap_append] at all
    change (fs.givenBy entries).Perm (fs.givenBy (members.map Member.entry) ++ fs.givenBy others)
      at all
    rwa [known, rest, List.append_nil] at all
  apply takes_record record (names ▸ distinct) gap
  · intro e among
    rcases List.mem_append.mp (order.mem_iff.mp among) with known | other
    · obtain ⟨m, listed, rfl⟩ := List.mem_map.mp known
      exact ⟨m.name, (each m listed).1, .inl (states listed)⟩
    · obtain ⟨name, key, other, value⟩ := unknown e other
      exact ⟨name, key, .inr ⟨names ▸ other, value⟩⟩
  · exact given.nodup_iff.mpr (distinct.sublist (lawful.said_sublist t))
  · refine lawful.complete fun s among => given.mem_iff.mpr ?_
    exact List.mem_map_of_mem among

theorem lawful_record (record : String) (lawful : fs.Lawful fields said valid)
    (distinct : (fields.map Prod.fst).Nodup) :
    (Format.record record fs).Lawful (.record fields) (fun t => .object (said t)) valid where
  toSteady := steady_record record lawful.steady
  refuses := refuses_record record lawful distinct
  written := written_record record lawful
  takes holds presents := takes_presented record lawful distinct holds presents

end Records

section Texts

variable {f : Format α} {shape : Shape} {document : α → Document} {valid : α → Prop}

theorem closed_blank (gap : Gap) : Closed gap.bytes := by
  have closed := closed_gap gap closed_nil
  rwa [List.append_nil] at closed

theorem ofBytes_padded (p : Padded) :
    Cursor.ofBytes p.bytes = ⟨p.front ++ p.after.bytes, .start⟩ := by
  rw [Padded.bytes, Padded.front, List.append_assoc]
  rfl

theorem readBytes_padded (f : Format α) {p : Padded} {a : α} (takes : Takes f.read p.front a) :
    f.readBytes p.bytes = .ok a := by
  obtain ⟨place, read⟩ := takes p.after.bytes .start (closed_blank p.after)
  obtain ⟨last, blank⟩ := trim_gap p.after [] place
  rw [List.append_nil] at blank
  rw [Format.readBytes, ofBytes_padded, read]
  simp only [bind, Except.bind, blank]
  rfl

theorem readWhole_written (f : Format α) {a : α} (takes : Takes f.read (encode (f.write a)) a) :
    f.readWhole (f.write a) = .ok a := by
  have read := @readBytes_padded _ f (.bare (encode (f.write a))) a takes
  rwa [bytes_bare] at read

theorem Format.Lawful.readBytes_presented (lawful : f.Lawful shape document valid) {a : α}
    (holds : valid a) {p : Padded} (presents : Presents shape (document a) p.value) :
    f.readBytes p.bytes = .ok a :=
  readBytes_padded f (lawful.trims.takes p.before (lawful.takes holds presents))

/-- A record of one field is read from an object with that field among members that are all
well-formed and have names of their own. -/
theorem Format.Lawful.readWhole_member (lawful : f.Lawful shape document valid) (record : String)
    {name : String} {members : List (String × String)} (distinct : (members.map Prod.fst).Nodup)
    (wellFormed : ∀ m ∈ members, WellFormed (encode m.2)) {a : α} (holds : valid a)
    (among : (name, f.write a) ∈ members) :
    (Format.record record (.field name .required (fun _ => false) f .none)).readWhole
      (objectText members) = .ok (a, ()) := by
  have single : (Fields.field name .required (fun _ => false) f .none).Lawful [(name, shape)]
      (fun t => [(name, document t.1)]) (fun t => valid t.1 ∧ True) :=
    .field lawful (fun _ hidden => absurd hidden (by decide)) .none
  have whole := lawful_record record single (List.nodup_singleton name)
  obtain ⟨given, rfl, written, each⟩ := encode_objectText members
  obtain ⟨⟨_, own⟩, listed, rfl⟩ := List.mem_map.mp among
  obtain ⟨front, behind, rfl⟩ := List.append_of_mem listed
  obtain ⟨key, value⟩ := each _ listed
  let member : Member := ⟨name, shape, document a, own⟩
  have order : ((front ++ ((name, f.write a), own) :: behind).map Prod.snd).Perm
      ([member].map Member.entry ++ (front ++ behind).map Prod.snd) := by
    rw [List.map_append, List.map_cons, List.map_append]
    exact List.perm_middle
  have others : ∀ e ∈ (front ++ behind).map Prod.snd, Unknown [(name, shape)] e := by
    rw [List.map_map, List.map_append, List.map_cons] at distinct
    have apart := (List.nodup_cons.mp (List.perm_middle.nodup_iff.mp distinct)).1
    refine List.forall_mem_map.mpr fun m known => ?_
    have listed : m ∈ front ++ ((name, f.write a), own) :: behind :=
      List.perm_middle.mem_iff.mpr (List.mem_cons_of_mem _ known)
    obtain ⟨key, value⟩ := each m listed
    refine ⟨m.1.1, key, ?_, ?_⟩
    · intro same
      rw [List.map_singleton, List.mem_singleton] at same
      rw [← List.map_append] at apart
      exact apart (List.mem_map.mpr ⟨m, known, same⟩)
    · rw [value]
      exact wellFormed m.1 (List.mem_map_of_mem listed)
  have keyed : ∀ m ∈ [member], textOf m.entry.key = some m.name ∧
      (m.name, m.shape) ∈ [(name, shape)] :=
    List.forall_mem_singleton.mpr ⟨key, List.mem_singleton_self _⟩
  have presented : ∀ m ∈ [member], Presents m.shape m.document m.entry.value.value := by
    refine List.forall_mem_singleton.mpr ?_
    change Presents shape (document a) own.value.value
    rw [value]
    exact lawful.written holds
  have presents : Presents (.record [(name, shape)]) (.object [(name, document a)])
      (encode (objectText ((front ++ ((name, f.write a), own) :: behind).map Prod.fst))) :=
    written ▸ .record .none order keyed presented others
  have read := whole.readBytes_presented (p := .bare _) (a := (a, ())) ⟨holds, trivial⟩ presents
  rwa [bytes_bare] at read

theorem Format.Lawful.readBytes_repeated (lawful : f.Lawful shape document valid) {p : Padded}
    (repeats : Repeats shape p.value) : Fails (f.readBytes p.bytes) := by
  have fails := lawful.trims.refuses p.before (lawful.refuses repeats) p.after.bytes .start
    (closed_blank p.after)
  rw [Format.readBytes, ofBytes_padded]
  exact fails.bind _

/-- The format carries the valid values: it reads what it writes as the value, it reads any text
that presents the same document as the value, and it refuses what repeats a field. -/
structure Format.Carries (f : Format α) (shape : Shape) (document : α → Document)
    (valid : α → Prop) : Prop where
  returns : ∀ a, valid a → f.readWhole (f.write a) = .ok a
  presented : ∀ a, valid a → Presents shape (document a) (encode (f.write a))
  portable : ∀ a, valid a → ∀ text : Padded, Presents shape (document a) text.value →
    f.readBytes text.bytes = .ok a
  strict : ∀ text : Padded, Repeats shape text.value →
    ∃ fault, f.readBytes text.bytes = .error fault

theorem Format.Lawful.carries (lawful : f.Lawful shape document valid) :
    f.Carries shape document valid where
  returns _ holds := readWhole_written f (lawful.takes holds (lawful.written holds))
  presented _ := lawful.written
  portable _ holds _ := lawful.readBytes_presented holds
  strict _ := lawful.readBytes_repeated

end Texts

end TenantGate.Json
