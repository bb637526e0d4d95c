import Mathlib.Data.List.Basic
import Mathlib.Data.List.Induction
import Mathlib.Logic.Relation
import TenantGate.Tenant.Tenancy

/-!
Handles to slots over whole histories of acts. Handles that stem from one another by cloning are of
one class. The first tenancy that is set through a handle of a class is what all its handles read
from then on, clones made later among them; every later one is refused and changes nothing, and no
class is touched through the handles of another.
-/
namespace TenantGate.Handles

inductive Act where
  | create
  | clone (handle : Nat)
  | set (handle : Nat) (tenancy : Tenancy)
  | get (handle : Nat)
  | tenantId (handle : Nat)
  | isSet (handle : Nat)

inductive Answer where
  | handle (number : Nat)
  | done
  | refused (f : Failure)
  | tenancy (held? : Option Tenancy)
  | tenantId (id? : Option String)
  | isSet (filled : Bool)
  | noHandle

def look (h : Handles) (handle : Nat) (seen : Slot → Answer) : Answer :=
  match h.slot? handle with
  | some slot => seen slot
  | none => .noHandle

def perform (h : Handles) : Act → Answer × Handles
  | .create => (.handle h.create.2, h.create.1)
  | .clone i =>
    match h.share i with
    | some (larger, j) => (.handle j, larger)
    | none => (.noHandle, h)
  | .set i tenancy =>
    match h.set i tenancy with
    | some (.ok filled) => (.done, filled)
    | some (.error f) => (.refused f, h)
    | none => (.noHandle, h)
  | .get i => (h.look i fun slot => .tenancy slot.tenancy?, h)
  | .tenantId i => (h.look i fun slot => .tenantId slot.tenantId?, h)
  | .isSet i => (h.look i fun slot => .isSet slot.isSet, h)

def after (acts : List Act) : Handles := acts.foldl (fun h act => (h.perform act).2) ⟨[], []⟩

def answer (acts : List Act) (act : Act) : Answer := ((after acts).perform act).1

def Done (acts before : List Act) (act : Act) : Prop := before ++ [act] <+: acts

def Made (acts : List Act) (i : Nat) : Prop :=
  ∃ before act, Done acts before act ∧ answer before act = .handle i

/-- The second handle was made as a clone of the first. -/
def Cloned (acts : List Act) (i j : Nat) : Prop :=
  ∃ before, Done acts before (.clone i) ∧ answer before (.clone i) = .handle j

/-- The handles are connected through clones. -/
def SameClass (acts : List Act) : Nat → Nat → Prop := Relation.EqvGen (Cloned acts)

def Tried (acts : List Act) (i : Nat) (tenancy : Tenancy) : Prop :=
  ∃ before, Done acts before (.set i tenancy) ∧ Made before i

/-- Nothing was to be set through any handle of the class. -/
def Untouched (acts : List Act) (i : Nat) : Prop :=
  ∀ j tenancy, Tried acts j tenancy → ¬ SameClass acts i j

/-- The tenancy is the first that was set through a handle of the class. -/
def First (acts : List Act) (i : Nat) (tenancy : Tenancy) : Prop :=
  ∃ before j, Done acts before (.set j tenancy) ∧ Made before j ∧ SameClass acts i j ∧
    ∀ k other, Tried before k other → ¬ SameClass acts i k

/-- All that is seen through the handle says that its slot holds the tenancy, or nothing. -/
structure Sees (acts : List Act) (i : Nat) (held? : Option Tenancy) : Prop where
  get : answer acts (.get i) = .tenancy held?
  tenantId : answer acts (.tenantId i) = .tenantId (held?.map (·.tenantId))
  isSet : answer acts (.isSet i) = .isSet held?.isSome

def clash (held tenancy : Tenancy) : Failure :=
  .internal ("tenancy already set to '" ++ held.tenantId ++ "', refusing '" ++ tenancy.tenantId ++
    "'")

section Steps

/-- All that an act can do: add a handle with a slot of its own, add a handle to a slot, fill an
empty slot, be refused by a filled one, or leave everything as it is. -/
inductive Step (h : Handles) : Act → Answer → Handles → Prop where
  | create : Step h .create (.handle h.slotOf.length)
      ⟨h.slotOf ++ [h.slots.length], h.slots ++ [.empty]⟩
  | clone {i s : Nat} (own : h.slotOf[i]? = some s) :
      Step h (.clone i) (.handle h.slotOf.length) ⟨h.slotOf ++ [s], h.slots⟩
  | fill {i s : Nat} {tenancy : Tenancy} (own : h.slotOf[i]? = some s)
      (free : h.slots[s]? = some .empty) :
      Step h (.set i tenancy) .done ⟨h.slotOf, h.slots.set s ⟨some tenancy⟩⟩
  | refuse {i s : Nat} {tenancy held : Tenancy} (own : h.slotOf[i]? = some s)
      (filled : h.slots[s]? = some ⟨some held⟩) :
      Step h (.set i tenancy) (.refused (clash held tenancy)) h
  | keep {act : Act} {a : Answer} (made : ∀ j, a ≠ .handle j)
      (unset : ∀ i tenancy, act = .set i tenancy → h.slotOf[i]? = none) : Step h act a h

def Sound (h : Handles) : Prop := ∀ s ∈ h.slotOf, s < h.slots.length

variable {h h' : Handles} {act : Act} {a : Answer} {i s : Nat} {tenancy : Tenancy}

theorem Sound.slot (sound : h.Sound) (own : h.slotOf[i]? = some s) :
    ∃ slot, h.slots[s]? = some slot :=
  ⟨_, List.getElem?_eq_getElem (sound s (List.mem_of_getElem? own))⟩

theorem look_made (own : h.slotOf[i]? = some s) {slot : Slot} (held : h.slots[s]? = some slot)
    (seen : Slot → Answer) : h.look i seen = seen slot := by
  simp only [look, slot?, own, Option.bind_some, held]

theorem look_keeps (seen : Slot → Answer) (other : ∀ slot j, seen slot ≠ .handle j) (j : Nat) :
    h.look i seen ≠ .handle j := by
  rw [look]
  split
  · exact other _ j
  · exact nofun

theorem step_perform (sound : h.Sound) (act : Act) :
    Step h act (h.perform act).1 (h.perform act).2 := by
  cases act with
  | create => exact .create
  | clone i =>
    simp only [perform, share]
    cases own : h.slotOf[i]? with
    | none => exact .keep nofun nofun
    | some s => exact .clone own
  | set i tenancy =>
    simp only [perform, set]
    cases own : h.slotOf[i]? with
    | none =>
      refine .keep nofun fun k other same => ?_
      obtain ⟨rfl, rfl⟩ := Act.set.inj same
      exact own
    | some s =>
      obtain ⟨⟨held?⟩, there⟩ := sound.slot own
      simp only [Option.bind_some, there, Option.map_some, Slot.set]
      cases held? with
      | none => exact .fill own there
      | some held => exact .refuse own there
  | get i => exact .keep (look_keeps _ nofun) nofun
  | tenantId i => exact .keep (look_keeps _ nofun) nofun
  | isSet i => exact .keep (look_keeps _ nofun) nofun

theorem Step.sound (step : Step h act a h') (sound : h.Sound) : h'.Sound := by
  cases step with
  | create =>
    intro s among
    rw [List.length_append]
    rcases List.mem_append.mp among with old | new
    · exact Nat.lt_succ_of_lt (sound s old)
    · rw [List.mem_singleton.mp new]
      exact Nat.lt_succ_self _
  | clone own =>
    intro s among
    rcases List.mem_append.mp among with old | new
    · exact sound s old
    · rw [List.mem_singleton.mp new]
      exact sound _ (List.mem_of_getElem? own)
  | fill own free =>
    intro s among
    rw [List.length_set]
    exact sound s among
  | refuse own filled => exact sound
  | keep made unset => exact sound

theorem Step.slotOf (step : Step h act a h') : h.slotOf <+: h'.slotOf := by
  cases step with
  | create => exact List.prefix_append _ _
  | clone own => exact List.prefix_append _ _
  | fill own free => exact List.prefix_rfl
  | refuse own filled => exact List.prefix_rfl
  | keep made unset => exact List.prefix_rfl

theorem Step.made_iff (step : Step h act a h') :
    i < h'.slotOf.length ↔ i < h.slotOf.length ∨ a = .handle i := by
  cases step with
  | create =>
    rw [List.length_append, List.length_singleton, Nat.lt_succ_iff_lt_or_eq, Answer.handle.injEq,
      eq_comm (a := i)]
  | clone own =>
    rw [List.length_append, List.length_singleton, Nat.lt_succ_iff_lt_or_eq, Answer.handle.injEq,
      eq_comm (a := i)]
  | fill own free => simp only [reduceCtorEq, or_false]
  | refuse own filled => simp only [reduceCtorEq, or_false]
  | keep made unset => exact (or_iff_left (made i)).symm

def held? (h : Handles) (s : Nat) : Option Tenancy := h.slots[s]?.bind Slot.tenancy?

def Aims (h : Handles) (act : Act) (s : Nat) (tenancy : Tenancy) : Prop :=
  ∃ i, act = .set i tenancy ∧ h.slotOf[i]? = some s

theorem Step.held (step : Step h act a h') (s : Nat) :
    h'.held? s = h.held? s ∧ (∀ tenancy, h.Aims act s tenancy → h.held? s ≠ none) ∨
      ∃ tenancy, h.Aims act s tenancy ∧ h.held? s = none ∧ h'.held? s = some tenancy := by
  cases step with
  | create =>
    refine .inl ⟨?_, nofun⟩
    simp only [held?, List.getElem?_append]
    split
    · rfl
    · rename_i beyond
      rw [List.getElem?_eq_none (Nat.not_lt.mp beyond), List.getElem?_singleton]
      split <;> rfl
  | clone own => exact .inl ⟨rfl, nofun⟩
  | @fill i t tenancy own free =>
    obtain ⟨within, -⟩ := List.getElem?_eq_some_iff.mp free
    by_cases same : t = s
    · subst same
      refine .inr ⟨tenancy, ⟨i, rfl, own⟩, ?_, ?_⟩
      · rw [held?, free]
        rfl
      · rw [held?, List.getElem?_set_self within]
        rfl
    · refine .inl ⟨?_, ?_⟩
      · rw [held?, List.getElem?_set_ne same, held?]
      · rintro other ⟨k, aimed, own'⟩
        obtain ⟨rfl, -⟩ := Act.set.inj aimed
        exact absurd (Option.some.inj (own.symm.trans own')) same
  | @refuse i t tenancy held own filled =>
    refine .inl ⟨rfl, ?_⟩
    rintro other ⟨k, aimed, own'⟩
    obtain ⟨rfl, -⟩ := Act.set.inj aimed
    obtain rfl := Option.some.inj (own.symm.trans own')
    rw [held?, filled]
    exact nofun
  | keep made unset =>
    refine .inl ⟨rfl, ?_⟩
    rintro tenancy ⟨i, same, own⟩
    exact absurd ((unset i tenancy same).symm.trans own) nofun

end Steps

section Runs

variable {acts before : List Act} {act last : Act} {i j s : Nat} {tenancy : Tenancy}

theorem after_concat (acts : List Act) (act : Act) :
    after (acts ++ [act]) = ((after acts).perform act).2 :=
  List.foldl_concat _ _ _ _

theorem sound_after (acts : List Act) : (after acts).Sound := by
  induction acts using List.reverseRecOn with
  | nil => exact nofun
  | append_singleton acts act ih =>
    rw [after_concat]
    exact (step_perform ih act).sound ih

theorem step_after (acts : List Act) (act : Act) :
    Step (after acts) act (answer acts act) (after (acts ++ [act])) := by
  rw [after_concat]
  exact step_perform (sound_after acts) act

theorem done_concat_iff :
    Done (acts ++ [last]) before act ↔ before = acts ∧ act = last ∨ Done acts before act := by
  rw [Done, List.prefix_concat_iff, List.append_singleton_inj, Done]

theorem slotOf_prefix (done : before <+: acts) : (after before).slotOf <+: (after acts).slotOf := by
  induction acts using List.reverseRecOn with
  | nil =>
    obtain rfl := List.prefix_nil.mp done
    exact List.prefix_rfl
  | append_singleton acts act ih =>
    rcases List.prefix_concat_iff.mp done with rfl | earlier
    · exact List.prefix_rfl
    · exact (ih earlier).trans (step_after acts act).slotOf

theorem slotOf_stays (done : before <+: acts) (own : (after before).slotOf[i]? = some s) :
    (after acts).slotOf[i]? = some s := by
  obtain ⟨more, same⟩ := slotOf_prefix done
  rw [← same, List.getElem?_append_left (List.getElem?_eq_some_iff.mp own).1]
  exact own

theorem made_iff : Made acts i ↔ i < (after acts).slotOf.length := by
  induction acts using List.reverseRecOn with
  | nil => exact ⟨fun ⟨_, _, done, _⟩ => by simp [Done] at done, nofun⟩
  | append_singleton acts act ih =>
    rw [(step_after acts act).made_iff, ← ih]
    constructor
    · rintro ⟨before, made, done, answered⟩
      rcases done_concat_iff.mp done with ⟨rfl, rfl⟩ | earlier
      · exact .inr answered
      · exact .inl ⟨before, made, earlier, answered⟩
    · rintro (⟨before, made, done, answered⟩ | answered)
      · exact ⟨before, made, done_concat_iff.mpr (.inr done), answered⟩
      · exact ⟨acts, act, done_concat_iff.mpr (.inl ⟨rfl, rfl⟩), answered⟩

theorem slot_of_made (made : Made acts i) : ∃ s, (after acts).slotOf[i]? = some s :=
  ⟨_, List.getElem?_eq_getElem (made_iff.mp made)⟩

theorem made_of_slot (own : (after acts).slotOf[i]? = some s) : Made acts i :=
  made_iff.mpr (List.getElem?_eq_some_iff.mp own).1

end Runs

section Classes

variable {acts before : List Act} {act : Act} {i j s t : Nat} {tenancy : Tenancy}

theorem slot_concat {slots : List Nat} (own : (slots ++ [t])[i]? = some s) :
    slots[i]? = some s ∨ i = slots.length ∧ s = t := by
  rw [List.getElem?_append] at own
  split at own
  · exact .inl own
  · rename_i beyond
    rw [List.getElem?_singleton] at own
    split at own
    · exact .inr ⟨by omega, (Option.some.inj own).symm⟩
    · exact absurd own nofun

/-- A handle that was not there before has a slot of its own or that of the handle it was cloned
from. -/
theorem Step.origin {h h' : Handles} {a : Answer} (step : Step h act a h')
    (own : h'.slotOf[i]? = some s) :
    h.slotOf[i]? = some s ∨ i = h.slotOf.length ∧ s = h.slots.length ∨
      ∃ p, act = .clone p ∧ a = .handle i ∧ h.slotOf[p]? = some s := by
  cases step with
  | create => exact (slot_concat own).imp_right .inl
  | @clone p t origin =>
    refine (slot_concat own).imp_right ?_
    rintro ⟨rfl, rfl⟩
    exact .inr ⟨p, rfl, rfl, origin⟩
  | fill _ _ => exact .inl own
  | refuse _ _ => exact .inl own
  | keep _ _ => exact .inl own

theorem Step.cloned {h h' : Handles} (step : Step h (.clone i) (.handle j) h') :
    ∃ s, h.slotOf[i]? = some s ∧ h'.slotOf[i]? = some s ∧ h'.slotOf[j]? = some s := by
  cases step with
  | @clone _ s own =>
    refine ⟨s, own, ?_, List.getElem?_concat_length⟩
    rw [List.getElem?_append_left (List.getElem?_eq_some_iff.mp own).1]
    exact own
  | keep made _ => exact absurd rfl (made j)

theorem Cloned.slots (cloned : Cloned acts i j) :
    ∃ s, (after acts).slotOf[i]? = some s ∧ (after acts).slotOf[j]? = some s := by
  obtain ⟨before, done, answered⟩ := cloned
  obtain ⟨s, -, first, second⟩ := (answered ▸ step_after before (.clone i)).cloned
  exact ⟨s, slotOf_stays done first, slotOf_stays done second⟩

theorem Cloned.append (cloned : Cloned acts i j) (more : List Act) : Cloned (acts ++ more) i j := by
  obtain ⟨before, done, answered⟩ := cloned
  exact ⟨before, done.trans (List.prefix_append _ _), answered⟩

theorem SameClass.append (same : SameClass acts i j) (more : List Act) :
    SameClass (acts ++ more) i j :=
  Relation.EqvGen.mono (fun _ _ cloned => cloned.append more) _ _ same

theorem SameClass.slot (same : SameClass acts i j) :
    (after acts).slotOf[i]? = (after acts).slotOf[j]? := by
  induction same with
  | rel i j cloned =>
    obtain ⟨s, first, second⟩ := cloned.slots
    exact first.trans second.symm
  | refl i => rfl
  | symm i j _ ih => exact ih.symm
  | trans i j k _ _ first second => exact first.trans second

theorem sameClass_of_slot (own : (after acts).slotOf[i]? = some s)
    (own' : (after acts).slotOf[j]? = some s) : SameClass acts i j := by
  induction acts using List.reverseRecOn generalizing i j with
  | nil => exact absurd own nofun
  | append_singleton acts act ih =>
    have step := step_after acts act
    -- a handle with an old slot is in the class of a handle that was there before
    have origin {k : Nat} (own : (after (acts ++ [act])).slotOf[k]? = some s) :
        (∃ p, (after acts).slotOf[p]? = some s ∧ SameClass (acts ++ [act]) p k) ∨
          k = (after acts).slotOf.length ∧ s = (after acts).slots.length := by
      rcases step.origin own with old | new | ⟨p, rfl, answered, old⟩
      · exact .inl ⟨k, old, .refl k⟩
      · exact .inr new
      · exact .inl ⟨p, old, .rel p k ⟨acts, List.prefix_rfl, answered⟩⟩
    have fresh {p : Nat} (old : (after acts).slotOf[p]? = some s) :
        s ≠ (after acts).slots.length :=
      Nat.ne_of_lt (sound_after acts s (List.mem_of_getElem? old))
    rcases origin own with ⟨p, old, first⟩ | ⟨rfl, new⟩
    · rcases origin own' with ⟨q, old', second⟩ | ⟨-, new⟩
      · exact (first.symm.trans _ _ _ ((ih old old').append [act])).trans _ _ _ second
      · exact absurd new (fresh old)
    · rcases origin own' with ⟨q, old', -⟩ | ⟨rfl, -⟩
      · exact absurd new (fresh old')
      · exact .refl _

theorem sameClass_iff (own : (after acts).slotOf[i]? = some s) :
    SameClass acts i j ↔ (after acts).slotOf[j]? = some s :=
  ⟨fun same => same.slot.symm.trans own, sameClass_of_slot own⟩

end Classes

section Contents

variable {acts before : List Act} {act : Act} {i j s : Nat} {tenancy : Tenancy}

def Free (acts : List Act) (s : Nat) : Prop :=
  ∀ i tenancy, Tried acts i tenancy → (after acts).slotOf[i]? ≠ some s

def FirstIn (acts : List Act) (s : Nat) (tenancy : Tenancy) : Prop :=
  ∃ before i, Done acts before (.set i tenancy) ∧ (after before).slotOf[i]? = some s ∧
    Free before s

theorem Tried.made (tried : Tried acts i tenancy) : Made acts i := by
  obtain ⟨before, done, made⟩ := tried
  obtain ⟨s, own⟩ := slot_of_made made
  exact made_of_slot (slotOf_stays ((List.prefix_append _ _).trans done) own)

theorem tried_concat_iff :
    Tried (acts ++ [act]) i tenancy ↔ Tried acts i tenancy ∨ act = .set i tenancy ∧ Made acts i := by
  constructor
  · rintro ⟨before, done, made⟩
    rcases done_concat_iff.mp done with ⟨rfl, rfl⟩ | earlier
    · exact .inr ⟨rfl, made⟩
    · exact .inl ⟨before, earlier, made⟩
  · rintro (⟨before, done, made⟩ | ⟨rfl, made⟩)
    · exact ⟨before, done_concat_iff.mpr (.inr done), made⟩
    · exact ⟨acts, done_concat_iff.mpr (.inl ⟨rfl, rfl⟩), made⟩

theorem free_concat_iff :
    Free (acts ++ [act]) s ↔ Free acts s ∧ ∀ tenancy, ¬ (after acts).Aims act s tenancy := by
  have stays {i : Nat} (made : Made acts i) :
      (after (acts ++ [act])).slotOf[i]? = (after acts).slotOf[i]? := by
    obtain ⟨t, own⟩ := slot_of_made made
    exact (slotOf_stays (List.prefix_append _ _) own).trans own.symm
  constructor
  · intro free
    refine ⟨fun i tenancy tried => ?_, ?_⟩
    · rw [← stays tried.made]
      exact free i tenancy (tried_concat_iff.mpr (.inl tried))
    · rintro tenancy ⟨i, aimed, own⟩
      have made := made_of_slot own
      refine free i tenancy (tried_concat_iff.mpr (.inr ⟨aimed, made⟩)) ?_
      rw [stays made]
      exact own
  · rintro ⟨free, unaimed⟩ i tenancy tried
    rcases tried_concat_iff.mp tried with earlier | ⟨aimed, made⟩
    · rw [stays earlier.made]
      exact free i tenancy earlier
    · rw [stays made]
      exact fun own => unaimed tenancy ⟨i, aimed, own⟩

theorem firstIn_concat_iff :
    FirstIn (acts ++ [act]) s tenancy ↔
      FirstIn acts s tenancy ∨ (after acts).Aims act s tenancy ∧ Free acts s := by
  constructor
  · rintro ⟨before, i, done, own, free⟩
    rcases done_concat_iff.mp done with ⟨rfl, rfl⟩ | earlier
    · exact .inr ⟨⟨i, rfl, own⟩, free⟩
    · exact .inl ⟨before, i, earlier, own, free⟩
  · rintro (⟨before, i, done, own, free⟩ | ⟨⟨i, rfl, own⟩, free⟩)
    · exact ⟨before, i, done_concat_iff.mpr (.inr done), own, free⟩
    · exact ⟨acts, i, done_concat_iff.mpr (.inl ⟨rfl, rfl⟩), own, free⟩

theorem held_iff (acts : List Act) (s : Nat) :
    ((after acts).held? s = none ↔ Free acts s) ∧
      ∀ tenancy, (after acts).held? s = some tenancy ↔ FirstIn acts s tenancy := by
  induction acts using List.reverseRecOn with
  | nil =>
    have undone {before : List Act} {act : Act} : ¬ Done [] before act := by simp [Done]
    refine ⟨⟨fun _ i tenancy ⟨_, done, _⟩ => absurd done undone, fun _ => rfl⟩, fun tenancy => ?_⟩
    exact ⟨nofun, fun ⟨_, _, done, _⟩ => absurd done undone⟩
  | append_singleton acts act ih =>
    -- what the slot held so far says whether it was free, and the step whether it was filled
    obtain ⟨free, first⟩ := ih
    simp only [free_concat_iff, firstIn_concat_iff, ← free, ← first]
    rcases (step_after acts act).held s with ⟨same, full⟩ | ⟨new, aims, empty, filled⟩
    · rw [same]
      refine ⟨⟨fun empty => ⟨empty, fun tenancy aims => full tenancy aims empty⟩, And.left⟩,
        fun tenancy => ⟨.inl, ?_⟩⟩
      rintro (held | ⟨aims, empty⟩)
      · exact held
      · exact absurd empty (full tenancy aims)
    · rw [filled, empty]
      refine ⟨⟨nofun, fun unaimed => absurd aims (unaimed.2 new)⟩, fun tenancy => ?_⟩
      constructor
      · rintro same
        obtain rfl := Option.some.inj same
        exact .inr ⟨aims, rfl⟩
      · rintro (other | ⟨⟨i, rfl, own⟩, -⟩)
        · exact absurd other nofun
        · obtain ⟨k, same, -⟩ := aims
          obtain ⟨-, rfl⟩ := Act.set.inj same
          rfl

theorem untouched_iff (own : (after acts).slotOf[i]? = some s) : Untouched acts i ↔ Free acts s := by
  simp only [Untouched, Free, sameClass_iff own, ne_eq]

theorem first_iff (own : (after acts).slotOf[i]? = some s) :
    First acts i tenancy ↔ FirstIn acts s tenancy := by
  have stays {before : List Act} {act : Act} (done : Done acts before act) {k : Nat}
      (made : Made before k) : SameClass acts i k ↔ (after before).slotOf[k]? = some s := by
    obtain ⟨t, own'⟩ := slot_of_made made
    rw [sameClass_iff own, slotOf_stays ((List.prefix_append _ _).trans done) own', own']
  constructor
  · rintro ⟨before, j, done, made, same, none⟩
    exact ⟨before, j, done, (stays done made).mp same,
      fun k other tried => mt (stays done tried.made).mpr (none k other tried)⟩
  · rintro ⟨before, j, done, own', free⟩
    have made := made_of_slot own'
    exact ⟨before, j, done, made, (stays done made).mpr own',
      fun k other tried => mt (stays done tried.made).mp (free k other tried)⟩

end Contents

section Laws

variable {acts : List Act} {act : Act} {i j s : Nat} {tenancy held : Tenancy}

theorem Step.filled {h h' : Handles} {a : Answer} (step : Step h (.set i tenancy) a h')
    (own : h.slotOf[i]? = some s) (empty : h.held? s = none) : a = .done := by
  cases step with
  | fill _ _ => rfl
  | refuse own' full =>
    obtain rfl := Option.some.inj (own.symm.trans own')
    rw [held?, full] at empty
    exact absurd empty nofun
  | keep _ unset => exact absurd (own.symm.trans (unset i tenancy rfl)) nofun

theorem Step.refused {h h' : Handles} {a : Answer} (step : Step h (.set i tenancy) a h')
    (own : h.slotOf[i]? = some s) (full : h.held? s = some held) :
    a = .refused (clash held tenancy) ∧ h' = h := by
  cases step with
  | fill own' free =>
    obtain rfl := Option.some.inj (own.symm.trans own')
    rw [held?, free] at full
    exact absurd full nofun
  | @refuse _ _ _ held' own' full' =>
    obtain rfl := Option.some.inj (own.symm.trans own')
    rw [held?, full'] at full
    obtain rfl : held' = held := Option.some.inj full
    exact ⟨rfl, rfl⟩
  | keep _ unset => exact absurd (own.symm.trans (unset i tenancy rfl)) nofun

theorem sees_of_slot (own : (after acts).slotOf[i]? = some s) :
    Sees acts i ((after acts).held? s) := by
  obtain ⟨slot, there⟩ := (sound_after acts).slot own
  have held : (after acts).held? s = slot.tenancy? := by
    rw [held?, there]
    rfl
  rw [held]
  exact ⟨look_made own there _, look_made own there _, look_made own there _⟩

theorem sees_iff {held? : Option Tenancy} :
    Sees acts i held? ↔ ∃ s, (after acts).slotOf[i]? = some s ∧ (after acts).held? s = held? := by
  constructor
  · intro sees
    cases own : (after acts).slotOf[i]? with
    | none =>
      have get := sees.get
      simp only [answer, perform, look, slot?, own, Option.bind_none] at get
      exact absurd get nofun
    | some s => exact ⟨s, rfl, Answer.tenancy.inj ((sees_of_slot own).get.symm.trans sees.get)⟩
  · rintro ⟨s, own, rfl⟩
    exact sees_of_slot own

theorem slot_of_first (first : First acts i tenancy) :
    ∃ s, (after acts).slotOf[i]? = some s ∧ (after acts).held? s = some tenancy := by
  have whole := first
  obtain ⟨before, j, done, made, same, _⟩ := first
  obtain ⟨s, own⟩ := slot_of_made made
  have own := same.slot.trans (slotOf_stays ((List.prefix_append _ _).trans done) own)
  exact ⟨s, own, ((held_iff acts s).2 tenancy).mpr ((first_iff own).mp whole)⟩

structure WriteOnce (acts : List Act) : Prop where
  unset : ∀ i, Made acts i → Untouched acts i → Sees acts i none
  kept : ∀ i tenancy, First acts i tenancy → Sees acts i (some tenancy)
  total : ∀ i, Made acts i → Untouched acts i ∨ ∃ tenancy, First acts i tenancy
  /-- The first tenancy is taken, and seen through all handles of the class from then on. -/
  first_set : ∀ i tenancy, Made acts i → Untouched acts i →
    answer acts (.set i tenancy) = .done ∧ ∀ later j,
      SameClass (acts ++ .set i tenancy :: later) i j →
        Sees (acts ++ .set i tenancy :: later) j (some tenancy)
  /-- Every later one is refused, and everything stays as it is. -/
  later_set : ∀ i held tenancy, First acts i held →
    answer acts (.set i tenancy) = .refused (clash held tenancy) ∧
      after (acts ++ [.set i tenancy]) = after acts
  /-- Only what is set through a handle of the class may be seen through a handle. -/
  apart : ∀ act j held?, Sees acts j held? →
    (∀ i tenancy, act = .set i tenancy → ¬ SameClass acts i j) → Sees (acts ++ [act]) j held?
  created : ∃ j, answer acts .create = .handle j ∧
    ∀ i, Made acts i → ¬ SameClass (acts ++ [.create]) i j
  cloned : ∀ i, Made acts i → ∃ j, answer acts (.clone i) = .handle j ∧ ¬ Made acts j ∧
    SameClass (acts ++ [.clone i]) i j
  /-- Handles that are there do not come into one class later. -/
  classes : ∀ i j later, Made acts i → Made acts j →
    (SameClass (acts ++ later) i j ↔ SameClass acts i j)

/-- Slots are written once and shared by exactly the handles of a class, whatever is done. -/
theorem slots_are_written_once (acts : List Act) : WriteOnce acts where
  unset i made untouched := by
    obtain ⟨s, own⟩ := slot_of_made made
    exact sees_iff.mpr ⟨s, own, (held_iff acts s).1.mpr ((untouched_iff own).mp untouched)⟩
  kept i tenancy first := sees_iff.mpr (slot_of_first first)
  total i made := by
    obtain ⟨s, own⟩ := slot_of_made made
    obtain ⟨free, first⟩ := held_iff acts s
    rw [untouched_iff own, ← free]
    cases held : (after acts).held? s with
    | none => exact .inl rfl
    | some tenancy => exact .inr ⟨tenancy, (first_iff own).mpr ((first tenancy).mp held)⟩
  first_set i tenancy made untouched := by
    obtain ⟨s, own⟩ := slot_of_made made
    have free := (untouched_iff own).mp untouched
    refine ⟨(step_after acts _).filled own ((held_iff acts s).1.mpr free), fun later j same => ?_⟩
    have done : Done (acts ++ .set i tenancy :: later) acts (.set i tenancy) :=
      ⟨later, by rw [List.append_assoc, List.singleton_append]⟩
    refine sees_iff.mpr ⟨s, ?_, ((held_iff _ s).2 tenancy).mpr ⟨acts, i, done, own, free⟩⟩
    exact same.slot.symm.trans (slotOf_stays (List.prefix_append _ _) own)
  later_set i held tenancy first := by
    obtain ⟨s, own, full⟩ := slot_of_first first
    exact (step_after acts _).refused own full
  apart act j held? sees elsewhere := by
    obtain ⟨s, own, rfl⟩ := sees_iff.mp sees
    have own' := slotOf_stays (List.prefix_append acts [act]) own
    rcases (step_after acts act).held s with ⟨same, -⟩ | ⟨tenancy, ⟨i, aimed, aims⟩, -, -⟩
    · exact sees_iff.mpr ⟨s, own', same⟩
    · exact absurd ((sameClass_iff aims).mpr own) (elsewhere i tenancy aimed)
  created := by
    refine ⟨_, rfl, fun i made same => ?_⟩
    obtain ⟨s, own⟩ := slot_of_made made
    have below := sound_after acts s (List.mem_of_getElem? own)
    have new : (after (acts ++ [.create])).slotOf[(after acts).slotOf.length]? =
        some (after acts).slots.length := by
      rw [after_concat]
      exact List.getElem?_concat_length
    have shared := (slotOf_stays (List.prefix_append _ _) own).symm.trans (same.slot.trans new)
    exact Nat.ne_of_lt below (Option.some.inj shared)
  cloned i made := by
    obtain ⟨s, own⟩ := slot_of_made made
    have answered : answer acts (.clone i) = .handle (after acts).slotOf.length := by
      simp only [answer, perform, share, own, Option.map_some]
    refine ⟨_, answered, fun made => Nat.lt_irrefl _ (made_iff.mp made), ?_⟩
    exact .rel _ _ ⟨acts, List.prefix_rfl, answered⟩
  classes i j later first second := by
    obtain ⟨s, own⟩ := slot_of_made first
    obtain ⟨t, own'⟩ := slot_of_made second
    rw [sameClass_iff own, own', sameClass_iff (slotOf_stays (List.prefix_append _ _) own),
      slotOf_stays (List.prefix_append _ _) own']

/-- A clone made after the tenancy was set through another clone reads it, and keeps reading it. -/
example (first second : Tenancy) :
    answer [.create, .clone 0, .set 1 first, .clone 0, .set 2 second] (.get 2) =
      .tenancy (some first) := rfl

end Laws

end TenantGate.Handles
