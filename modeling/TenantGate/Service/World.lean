import TenantGate.Gate.Site
import TenantGate.Service.Client
import TenantGate.Tenant.Directory

/-!
The services of a host put together: the directory in memory or clients for the two collaborators,
and the client of the identity service. A collaborator may also be out of order, so that every
call fails alike. The world is all that these services remember.
-/
namespace TenantGate.Service

open Gate Net

structure World (ν : Type) where
  directory : Directory
  verdicts : Cache Auth.Introspection
  settings : Cache Settings
  failedCalls : UInt64
  network : ν

namespace World

variable {ν : Type}

def start (network : ν) : World ν := ⟨.empty, [], [], 0, network⟩

end World

inductive Backing where
  | directory
  | client (c : Client)
  | outOfOrder (f : Failure)
deriving Repr, DecidableEq

namespace Backing

variable {ν α : Type}

def onDirectory (call : Call Directory α) : Call (World ν) α :=
  call.onPart World.directory fun directory w => { w with directory }

def onNetwork (call : Call ν α) : Call (World ν) α :=
  call.onPart World.network fun network w => { w with network }

def onVerdicts (call : Call (Cache Auth.Introspection × ν) α) : Call (World ν) α :=
  call.onPart (fun w => (w.verdicts, w.network)) fun (verdicts, network) w =>
    { w with verdicts, network }

def onSettings (call : Call (Cache Settings × ν) α) : Call (World ν) α :=
  call.onPart (fun w => (w.settings, w.network)) fun (settings, network) w =>
    { w with settings, network }

def failing (f : Failure) : Call (World ν) α := fun w =>
  (.error f, { w with failedCalls := w.failedCalls + 1 })

def memberships (network : Network ν) (b : Backing) (caller : Caller) (userId : String)
    (cancelled : Bool) : Call (World ν) User :=
  match b with
  | .directory => onDirectory (Directory.lookupMemberships userId cancelled)
  | .client c => onNetwork (fetchMemberships network c caller userId cancelled)
  | .outOfOrder f => failing f

def settings (network : Network ν) (b : Backing) (caller : Caller) (tenantId : String)
    (cancelled : Bool) : Call (World ν) Settings :=
  match b with
  | .directory => onDirectory (Directory.lookupSettings tenantId cancelled)
  | .client c => onSettings (fetchSettings network c caller tenantId cancelled)
  | .outOfOrder f => failing f

end Backing

def servicesOf {ν : Type} (network : Network ν) (isValid : String → Bool)
    (endUsers organizations : Backing) (identity : Identity) : Services (World ν) where
  memberships := endUsers.memberships network
  settings := organizations.settings network
  introspect token := Backing.onVerdicts (identity.introspect network token)
  isValid := isValid

end TenantGate.Service
