import Mathlib.Data.List.Basic
import Mathlib.Data.List.Forall2
import Mathlib.Data.List.Induction
import TenantGate.Proofs.IdentifierGrammar
import TenantGate.Tenant.Directory

/-!
The directory over whole histories of acts. A user has exactly the memberships that were added for
that user, and an organization has the settings that it was given last; no lookup changes an answer,
whatever becomes of it, and acts for different users or organizations may be swapped.
-/
namespace TenantGate.Directory

inductive Act where
  | addMembership (random : Vector UInt8 16) (userId organizationId : String) (isDefault : Bool)
  | setSettings (organizationId : String) (settings : Settings)
  | getMemberships (userId : String) (cancelled : Bool)
  | getSettings (organizationId : String) (cancelled : Bool)

inductive Answer where
  | done
  | memberships (result : Except Failure User)
  | settings (result : Except Failure Settings)

def perform (d : Directory) : Act → Answer × Directory
  | .addMembership random userId organizationId isDefault =>
    (.done, d.addMembership random.toList userId organizationId isDefault)
  | .setSettings organizationId settings => (.done, d.setSettings organizationId settings)
  | .getMemberships userId cancelled =>
    let (result, looked) := lookupMemberships userId cancelled d
    (.memberships result, looked)
  | .getSettings organizationId cancelled =>
    let (result, looked) := lookupSettings organizationId cancelled d
    (.settings result, looked)

def after (acts : List Act) : Directory := acts.foldl (fun d act => (d.perform act).2) empty

def answer (acts : List Act) (act : Act) : Answer := ((after acts).perform act).1

def Alike (acts acts' : List Act) : Prop := ∀ act, answer acts act = answer acts' act

structure Addition where
  random : Vector UInt8 16
  organizationId : String
  isDefault : Bool

namespace Act

def adds (userId : String) : Act → Option Addition
  | addMembership random other organizationId isDefault =>
    if other = userId then some ⟨random, organizationId, isDefault⟩ else none
  | _ => none

def gives (organizationId : String) : Act → Option Settings
  | setSettings other settings => if other = organizationId then some settings else none
  | _ => none

def asksMemberships : Act → Bool
  | getMemberships _ _ => true
  | _ => false

def asksSettings : Act → Bool
  | getSettings _ _ => true
  | _ => false

def isLookup (act : Act) : Bool := act.asksMemberships || act.asksSettings

inductive Independent : Act → Act → Prop where
  | users (random random' : Vector UInt8 16) {userId userId' : String} (o o' : String)
      (isDefault isDefault' : Bool) (different : userId ≠ userId') :
      Independent (addMembership random userId o isDefault)
        (addMembership random' userId' o' isDefault')
  | organizations {organizationId organizationId' : String} (settings settings' : Settings)
      (different : organizationId ≠ organizationId') :
      Independent (setSettings organizationId settings) (setSettings organizationId' settings')
  | stores (random : Vector UInt8 16) (userId o : String) (isDefault : Bool)
      (organizationId : String) (settings : Settings) :
      Independent (addMembership random userId o isDefault) (setSettings organizationId settings)

end Act

def additions (userId : String) (acts : List Act) : List Addition := acts.filterMap (Act.adds userId)

def settingsGiven (organizationId : String) (acts : List Act) : List Settings :=
  acts.filterMap (Act.gives organizationId)

def Addition.membership (userId : String) (given : Addition) : Membership :=
  ⟨Identifier.mint Identifier.membershipPrefix given.random.toList, userId, given.organizationId,
    given.isDefault⟩

/-- The membership stands for what was given with it, and its identifier is a valid one. -/
structure StandsFor (userId : String) (given : Addition) (m : Membership) : Prop where
  userId : m.userId = userId
  organizationId : m.organizationId = given.organizationId
  isDefault : m.isDefault = given.isDefault
  id : m.id = Identifier.mint Identifier.membershipPrefix given.random.toList
  valid : Identifier.isValid m.id = true
  kind : ∃ token, Identifier.Splits m.id "mbr" token

section Picking

variable {α β : Type} (f : α → Option β) {a b : α} (before behind : List α)

theorem filterMap_concat (a : α) :
    (before ++ [a]).filterMap f = before.filterMap f ++ (f a).toList := by
  rw [List.filterMap_append, List.filterMap_cons]
  cases f a <;> rfl

theorem filterMap_without (nothing : f a = none) :
    (before ++ a :: behind).filterMap f = (before ++ behind).filterMap f := by
  rw [List.filterMap_append, List.filterMap_cons_none nothing, List.filterMap_append]

theorem filterMap_swap (apart : f a = none ∨ f b = none) :
    (before ++ a :: b :: behind).filterMap f = (before ++ b :: a :: behind).filterMap f := by
  rw [List.filterMap_append, List.filterMap_append]
  rcases apart with nothing | nothing
  · rw [List.filterMap_cons_none nothing, List.filterMap_cons, List.filterMap_cons,
      List.filterMap_cons_none nothing]
  · rw [List.filterMap_cons_none nothing, List.filterMap_cons, List.filterMap_cons_none nothing,
      List.filterMap_cons]

end Picking

section Steps

variable (d : Directory) (act : Act) (userId organizationId : String) (cancelled : Bool)

theorem perform_getMemberships :
    (d.perform (.getMemberships userId cancelled)).2 =
      { d with membershipLookups := d.membershipLookups + 1 } := by
  cases cancelled <;> rfl

theorem perform_getSettings :
    (d.perform (.getSettings organizationId cancelled)).2 =
      { d with settingsLookups := d.settingsLookups + 1 } := by
  simp only [perform, lookupSettings]
  cases cancelled with
  | true => rfl
  | false => cases d.settings.lookup organizationId <;> rfl

theorem membershipsOf_perform :
    (d.perform act).2.membershipsOf userId =
      d.membershipsOf userId ++ (act.adds userId).toList.map (Addition.membership userId) := by
  cases act with
  | addMembership random other organizationId isDefault =>
    simp only [perform, addMembership, membershipsOf, List.filter_append, Act.adds]
    by_cases same : other = userId
    · subst same
      rw [if_pos rfl, List.filter_singleton, beq_self_eq_true]
      rfl
    · rw [if_neg same, List.filter_singleton, beq_eq_false_iff_ne.mpr same]
      rfl
  | setSettings other settings => exact (List.append_nil _).symm
  | getMemberships other cancelled =>
    rw [perform_getMemberships]
    exact (List.append_nil _).symm
  | getSettings other cancelled =>
    rw [perform_getSettings]
    exact (List.append_nil _).symm

theorem settings_perform :
    (d.perform act).2.settings.lookup organizationId =
      (act.gives organizationId).or (d.settings.lookup organizationId) := by
  cases act with
  | addMembership random userId other isDefault => rfl
  | setSettings other settings =>
    simp only [perform, setSettings, lookup_insertEntry, Act.gives]
    by_cases same : other = organizationId
    · rw [if_pos same, if_pos same.symm, Option.some_or]
    · rw [if_neg same, if_neg (Ne.symm same), Option.none_or]
  | getMemberships userId cancelled =>
    rw [perform_getMemberships]
    rfl
  | getSettings other cancelled =>
    rw [perform_getSettings]
    rfl

end Steps

section Runs

variable (acts : List Act) (act : Act) (userId organizationId : String) (cancelled : Bool)

theorem after_concat : after (acts ++ [act]) = ((after acts).perform act).2 :=
  List.foldl_concat _ _ _ _

theorem additions_concat :
    additions userId (acts ++ [act]) = additions userId acts ++ (act.adds userId).toList :=
  filterMap_concat _ acts act

theorem settingsGiven_concat :
    settingsGiven organizationId (acts ++ [act]) =
      settingsGiven organizationId acts ++ (act.gives organizationId).toList :=
  filterMap_concat _ acts act

theorem membershipsOf_after :
    (after acts).membershipsOf userId =
      (additions userId acts).map (Addition.membership userId) := by
  induction acts using List.reverseRecOn with
  | nil => rfl
  | append_singleton acts act ih =>
    rw [after_concat, membershipsOf_perform, ih, additions_concat, List.map_append]

theorem settings_after :
    (after acts).settings.lookup organizationId = (settingsGiven organizationId acts).getLast? := by
  induction acts using List.reverseRecOn with
  | nil => rfl
  | append_singleton acts act ih =>
    rw [after_concat, settings_perform, ih, settingsGiven_concat, List.getLast?_append]
    cases act.gives organizationId <;> rfl

theorem lookups_after :
    (after acts).membershipLookups = UInt64.ofNat (acts.countP Act.asksMemberships) ∧
      (after acts).settingsLookups = UInt64.ofNat (acts.countP Act.asksSettings) := by
  induction acts using List.reverseRecOn with
  | nil => exact ⟨rfl, rfl⟩
  | append_singleton acts act ih =>
    rw [after_concat, List.countP_append, List.countP_append, UInt64.ofNat_add, UInt64.ofNat_add,
      ← ih.1, ← ih.2]
    cases act with
    | addMembership random userId organizationId isDefault =>
      exact ⟨(UInt64.add_zero _).symm, (UInt64.add_zero _).symm⟩
    | setSettings organizationId settings =>
      exact ⟨(UInt64.add_zero _).symm, (UInt64.add_zero _).symm⟩
    | getMemberships userId cancelled =>
      rw [perform_getMemberships]
      exact ⟨rfl, (UInt64.add_zero _).symm⟩
    | getSettings organizationId cancelled =>
      rw [perform_getSettings]
      exact ⟨(UInt64.add_zero _).symm, rfl⟩

theorem answer_getMemberships :
    answer acts (.getMemberships userId cancelled) = .memberships (if cancelled then
      .error .cancelled else .ok ⟨userId, (additions userId acts).map (·.membership userId)⟩) := by
  rw [← membershipsOf_after]
  cases cancelled <;> rfl

theorem answer_getSettings :
    answer acts (.getSettings organizationId cancelled) = .settings (if cancelled then
      .error .cancelled else match (settingsGiven organizationId acts).getLast? with
        | some settings => .ok settings
        | none => .error (.notFound ("organization '" ++ organizationId ++ "'"))) := by
  rw [← settings_after, answer, perform, lookupSettings]
  cases cancelled with
  | true => rfl
  | false => cases (after acts).settings.lookup organizationId <;> rfl

end Runs

section Laws

variable {acts acts' later : List Act} {act first second : Act}

/-- The answers depend on nothing but what was added for each user and given to each organization
last. -/
theorem alike_of_same (added : ∀ userId, additions userId acts = additions userId acts')
    (given : ∀ organizationId,
      (settingsGiven organizationId acts).getLast? = (settingsGiven organizationId acts').getLast?) :
    Alike acts acts' := by
  intro act
  cases act with
  | addMembership random userId organizationId isDefault => rfl
  | setSettings organizationId settings => rfl
  | getMemberships userId cancelled =>
    rw [answer_getMemberships, answer_getMemberships, added]
  | getSettings organizationId cancelled =>
    rw [answer_getSettings, answer_getSettings, given]

theorem alike_without_lookup (lookup : act.isLookup = true) :
    Alike (acts ++ act :: later) (acts ++ later) := by
  have nothing (userId organizationId : String) :
      act.adds userId = none ∧ act.gives organizationId = none := by
    cases act <;> first | exact ⟨rfl, rfl⟩ | exact absurd lookup nofun
  refine alike_of_same (fun userId => ?_) (fun organizationId => ?_)
  · exact filterMap_without _ acts later (nothing userId "").1
  · rw [settingsGiven, filterMap_without _ acts later (nothing "" organizationId).2, settingsGiven]

theorem Act.Independent.adds (independent : Independent first second) (userId : String) :
    first.adds userId = none ∨ second.adds userId = none := by
  cases independent with
  | @users random random' one other o o' isDefault isDefault' different =>
    by_cases same : one = userId
    · exact .inr (if_neg fun same' => different (same.trans same'.symm))
    · exact .inl (if_neg same)
  | organizations settings settings' different => exact .inl rfl
  | stores random userId o isDefault organizationId settings => exact .inr rfl

theorem Act.Independent.gives (independent : Independent first second) (organizationId : String) :
    first.gives organizationId = none ∨ second.gives organizationId = none := by
  cases independent with
  | users random random' o o' isDefault isDefault' different => exact .inl rfl
  | @organizations one other settings settings' different =>
    by_cases same : one = organizationId
    · exact .inr (if_neg fun same' => different (same.trans same'.symm))
    · exact .inl (if_neg same)
  | stores random userId o isDefault organizationId settings => exact .inl rfl

theorem Act.Independent.alike (independent : Independent first second) :
    Alike (acts ++ first :: second :: later) (acts ++ second :: first :: later) := by
  refine alike_of_same (fun userId => ?_) (fun organizationId => ?_)
  · exact filterMap_swap _ acts later (independent.adds userId)
  · rw [settingsGiven, filterMap_swap _ acts later (independent.gives organizationId),
      settingsGiven]

theorem isKind_membershipPrefix : Identifier.IsKind Identifier.membershipPrefix :=
  ⟨List.all_eq_true.mp (by decide), by decide, by decide⟩

theorem membership_stands (userId : String) (given : Addition) :
    StandsFor userId given (given.membership userId) where
  userId := rfl
  organizationId := rfl
  isDefault := rfl
  id := rfl
  valid := (Identifier.isValid_mint_iff _ given.random.length_toList).mpr isKind_membershipPrefix
  kind := ⟨_, isKind_membershipPrefix, Identifier.isToken_uuid given.random.length_toList, rfl⟩

structure FromHistory (acts : List Act) : Prop where
  /-- A user has one membership for each addition, in their order, and no other. -/
  memberships : ∀ userId, ∃ ms,
    answer acts (.getMemberships userId false) = .memberships (.ok ⟨userId, ms⟩) ∧
      List.Forall₂ (StandsFor userId) (additions userId acts) ms
  last_settings : ∀ organizationId settings,
    (settingsGiven organizationId acts).getLast? = some settings →
      answer acts (.getSettings organizationId false) = .settings (.ok settings)
  no_settings : ∀ organizationId, settingsGiven organizationId acts = [] →
    answer acts (.getSettings organizationId false) =
      .settings (.error (.notFound ("organization '" ++ organizationId ++ "'")))
  cancelled_memberships : ∀ userId,
    answer acts (.getMemberships userId true) = .memberships (.error .cancelled)
  cancelled_settings : ∀ organizationId,
    answer acts (.getSettings organizationId true) = .settings (.error .cancelled)
  /-- A lookup changes nothing but its own counter, whatever its answer is. -/
  membership_lookup : ∀ userId cancelled, after (acts ++ [.getMemberships userId cancelled]) =
    { after acts with membershipLookups := (after acts).membershipLookups + 1 }
  settings_lookup : ∀ organizationId cancelled,
    after (acts ++ [.getSettings organizationId cancelled]) =
      { after acts with settingsLookups := (after acts).settingsLookups + 1 }
  /-- Every lookup is counted, up to the number that a counter wraps at. -/
  counted : (after acts).membershipLookups.toNat = acts.countP Act.asksMemberships % UInt64.size ∧
    (after acts).settingsLookups.toNat = acts.countP Act.asksSettings % UInt64.size
  /-- No answer that is given later depends on a lookup. -/
  unseen : ∀ (act : Act) later, act.isLookup = true → Alike (acts ++ act :: later) (acts ++ later)
  commute : ∀ (first second : Act) later, first.Independent second →
    Alike (acts ++ first :: second :: later) (acts ++ second :: first :: later)

/-- The directory answers from what was done to it before. -/
theorem directory_answers_from_history (acts : List Act) : FromHistory acts where
  memberships userId := by
    refine ⟨_, answer_getMemberships acts userId false, ?_⟩
    rw [List.forall₂_map_right_iff]
    exact List.forall₂_same.mpr fun given _ => membership_stands userId given
  last_settings organizationId settings last := by
    rw [answer_getSettings, last]
    rfl
  no_settings organizationId unset := by
    rw [answer_getSettings, unset]
    rfl
  cancelled_memberships userId := answer_getMemberships acts userId true
  cancelled_settings organizationId := answer_getSettings acts organizationId true
  membership_lookup userId cancelled := by rw [after_concat, perform_getMemberships]
  settings_lookup organizationId cancelled := by rw [after_concat, perform_getSettings]
  counted := by
    rw [(lookups_after acts).1, (lookups_after acts).2]
    exact ⟨UInt64.toNat_ofNat', UInt64.toNat_ofNat'⟩
  unseen act later lookup := alike_without_lookup lookup
  commute first second later independent := independent.alike

end Laws

end TenantGate.Directory
