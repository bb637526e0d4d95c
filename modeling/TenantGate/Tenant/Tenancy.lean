import TenantGate.Failure
import TenantGate.Json.Format

/-!
Users and their memberships in organizations.
-/
namespace TenantGate

structure Membership where
  id : String
  userId : String
  organizationId : String
  isDefault : Bool
deriving Repr, DecidableEq

def Membership.format : Json.Format Membership :=
  (Json.Format.record "Membership"
    (.field "id" .required (fun _ => false) .string <|
      .field "userId" .required (fun _ => false) .string <|
      .field "organizationId" .required (fun _ => false) .string <|
      .field "isDefault" (.defaulted false) (fun _ => false) .boolean .none)).map
    (fun (id, userId, organizationId, isDefault, ()) => ⟨id, userId, organizationId, isDefault⟩)
    (fun m => (m.id, m.userId, m.organizationId, m.isDefault, ()))

structure User where
  id : String
  memberships : List Membership
deriving Repr, DecidableEq

namespace User

def membershipOf (user : User) (organizationId : String) : Option Membership :=
  user.memberships.find? fun m => m.organizationId == organizationId

def defaultMemberships (user : User) : List Membership := user.memberships.filter (·.isDefault)

def format : Json.Format User :=
  (Json.Format.record "EndUserWithMemberships"
    (.field "id" .required (fun _ => false) .string <|
      .field "memberships" (.defaulted []) (fun _ => false) (.list Membership.format) .none)).map
    (fun (id, memberships, ()) => ⟨id, memberships⟩)
    (fun u => (u.id, u.memberships, ()))

end User

/-!
The settings of a tenant: a map from names, kept in the order of the names, which is the order of
their UTF-8 bytes. One mapping has one list of entries, so it has one text.
-/

structure Setting where
  value : String
  isEncrypted : Bool
deriving Repr, DecidableEq

def Setting.format : Json.Format Setting :=
  (Json.Format.record "TenantSetting"
    (.field "value" .required (fun _ => false) .string <|
      .field "isEncrypted" (.defaulted false) (fun _ => false) .boolean .none)).map
    (fun (value, isEncrypted, ()) => ⟨value, isEncrypted⟩)
    (fun s => (s.value, s.isEncrypted, ()))

def insertEntry {α : Type} (name : String) (value : α) :
    List (String × α) → List (String × α)
  | [] => [(name, value)]
  | (other, old) :: more =>
    if name == other then (name, value) :: more
    else if name < other then (name, value) :: (other, old) :: more
    else (other, old) :: insertEntry name value more

theorem lookup_insertEntry {α : Type} (name other : String) (value : α)
    (entries : List (String × α)) :
    (insertEntry name value entries).lookup other =
      if other = name then some value else entries.lookup other := by
  have front (key : String) (held : α) (more : List (String × α)) :
      ((key, held) :: more).lookup other = if other = key then some held else more.lookup other := by
    by_cases same : other = key
    · subst same
      simp only [List.lookup_cons_self, ↓reduceIte]
    · simp only [List.lookup_cons, beq_eq_false_iff_ne.mpr same, if_neg same]
  induction entries with
  | nil => exact front name value []
  | cons entry more ih =>
    obtain ⟨key, old⟩ := entry
    simp only [insertEntry]
    split
    · rename_i same
      rw [front, front, beq_iff_eq.mp same]
      split <;> rfl
    · split
      · exact front name value _
      · rename_i different _
        rw [front, front, ih]
        split
        · rename_i found
          subst found
          rw [if_neg (fun same => different (beq_iff_eq.mpr same.symm))]
        · rfl

structure Settings where
  entries : List (String × Setting)
deriving Repr, DecidableEq

namespace Settings

def empty : Settings := ⟨[]⟩

def insert (settings : Settings) (name : String) (setting : Setting) : Settings :=
  ⟨insertEntry name setting settings.entries⟩

def addPlain (settings : Settings) (name value : String) : Settings :=
  settings.insert name ⟨value, false⟩

def addEncrypted (settings : Settings) (name value : String) : Settings :=
  settings.insert name ⟨value, true⟩

def get? (settings : Settings) (name : String) : Option Setting := settings.entries.lookup name

def length (settings : Settings) : Nat := settings.entries.length

def isEmpty (settings : Settings) : Bool := settings.entries.isEmpty

/-- The map of some entries, the later ones over the earlier ones. -/
def ofEntries (entries : List (String × Setting)) : Settings :=
  entries.foldl (fun settings (name, setting) => settings.insert name setting) empty

def format : Json.Format Settings :=
  (Json.Format.members Setting.format).map ofEntries entries

end Settings

/-!
The tenancy of a request, and the slot in which the pipeline leaves it for the handler. A slot is
written once. Several handles may share a slot; a store of handles says which do.
-/

structure Tenancy where
  tenantId : String
  settings : Settings
deriving Repr, DecidableEq

def Tenancy.format : Json.Format Tenancy :=
  (Json.Format.record "ResolvedTenancy"
    (.field "tenantId" .required (fun _ => false) .string <|
      .field "settings" .required (fun _ => false) Settings.format .none)).map
    (fun (tenantId, settings, ()) => ⟨tenantId, settings⟩)
    (fun t => (t.tenantId, t.settings, ()))

structure Slot where
  tenancy? : Option Tenancy
deriving Repr, DecidableEq

namespace Slot

def empty : Slot := ⟨none⟩

def tenantId? (slot : Slot) : Option String := slot.tenancy?.map (·.tenantId)

def isSet (slot : Slot) : Bool := slot.tenancy?.isSome

/-- Fills an empty slot; a filled one refuses and names both tenants. -/
def set (slot : Slot) (tenancy : Tenancy) : Except Failure Slot :=
  match slot.tenancy? with
  | none => .ok ⟨some tenancy⟩
  | some held =>
    .error (.internal ("tenancy already set to '" ++ held.tenantId ++ "', refusing '" ++
      tenancy.tenantId ++ "'"))

end Slot

structure Handles where
  slotOf : List Nat
  slots : List Slot
deriving Repr, DecidableEq

namespace Handles

def one : Handles := ⟨[0], [.empty]⟩

def slot? (h : Handles) (handle : Nat) : Option Slot :=
  h.slotOf[handle]?.bind fun i => h.slots[i]?

def create (h : Handles) : Handles × Nat :=
  (⟨h.slotOf ++ [h.slots.length], h.slots ++ [.empty]⟩, h.slotOf.length)

def share (h : Handles) (handle : Nat) : Option (Handles × Nat) :=
  h.slotOf[handle]?.map fun i => (⟨h.slotOf ++ [i], h.slots⟩, h.slotOf.length)

def set (h : Handles) (handle : Nat) (tenancy : Tenancy) : Option (Except Failure Handles) :=
  h.slotOf[handle]?.bind fun i =>
    h.slots[i]?.map fun slot =>
      (slot.set tenancy).map fun filled => ⟨h.slotOf, h.slots.set i filled⟩

end Handles

end TenantGate
