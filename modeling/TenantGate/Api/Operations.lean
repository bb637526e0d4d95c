import TenantGate.Api.Problem
import TenantGate.Api.RouteTable
import TenantGate.Auth.Bearer
import TenantGate.Tenant.Tenancy

/-!
The operations: their contracts, what they take and what they answer.
-/
namespace TenantGate.Api

namespace Contracts

def recordCrash : Contract :=
  ⟨"RecordCrashRequest", .post, "/record/crash", .anonymous, false⟩

def organizationSettings : Contract :=
  ⟨"GetOrganizationSettingsRequest", .get, "/organizations/:organization_id/settings", .token,
    false⟩

def authorizeByNothing : Contract :=
  ⟨"AuthorizeByNothingTestingOnlyRequest", .get, "/testingonly/authz/none/get", .anonymous, true⟩

def tenancyReport : Contract :=
  ⟨"GetTenancyTestingOnlyRequest", .get, "/testingonly/multitenancy/get", .anonymous, true⟩

end Contracts

def settingsOrganization (pathValue : String) : Option String := some pathValue

def reportOrganization (queryValue : Option String) : Option String := queryValue

structure CrashReport where
  message : String
deriving Repr, DecidableEq

namespace CrashReport

def format : Json.Format CrashReport :=
  (Json.Format.record "RecordCrashRequest"
    (.field "message" .required (fun _ => false) .string .none)).map
    (fun (message, ()) => ⟨message⟩) (fun r => (r.message, ()))

def greatestMessage : Nat := 2000

def rule : LengthRule :=
  ⟨"message", 1, greatestMessage, some "Message must be 1-2000 characters"⟩

def read (headers : List Http.Header) (body : List UInt8) : Except Problem CrashReport :=
  readChecked format rule message headers body

end CrashReport

def maskedValue : String := "********"

def shownValue (s : Setting) : String := if s.isEncrypted then maskedValue else s.value

structure OrganizationSettings where
  organizationId : String
  settings : List (String × String)
deriving Repr, DecidableEq

namespace OrganizationSettings

def format : Json.Format OrganizationSettings :=
  (Json.Format.record "GetOrganizationSettingsResponse"
    (.field "organizationId" .required (fun _ => false) .string <|
      .field "settings" .required (fun _ => false)
        ((Json.Format.members .string).map
          (fun members => members.foldl (fun read (name, value) => insertEntry name value read) [])
          id) .none)).map
    (fun (organizationId, settings, ()) => ⟨organizationId, settings⟩)
    (fun r => (r.organizationId, r.settings, ()))

/-- What is shown of a tenancy: every name, and every value that is not encrypted. -/
def ofTenancy (t : Tenancy) : OrganizationSettings :=
  ⟨t.tenantId, t.settings.entries.map fun (name, setting) => (name, shownValue setting)⟩

end OrganizationSettings

structure CallReport where
  callerId : Option String
  tenantId : Option String
  settings : Nat
deriving Repr, DecidableEq

namespace CallReport

def format : Json.Format CallReport :=
  (Json.Format.record "TestingOnlyResponse"
    (.field "callerId" (.nullable none) (fun _ => false) (.optional .string) <|
      .field "tenantId" (.nullable none) (fun _ => false) (.optional .string) <|
      .field "settings" (.defaulted 0) (fun _ => false) (.natural "usize" 0xFFFFFFFFFFFFFFFF) .none)).map
    (fun (callerId, tenantId, settings, ()) => ⟨callerId, tenantId, settings⟩)
    (fun r => (r.callerId, r.tenantId, r.settings, ()))

def ofCall (caller : Caller) (tenancy : Option Tenancy) : CallReport :=
  ⟨caller.id?, tenancy.map (·.tenantId), (tenancy.map (·.settings.length)).getD 0⟩

end CallReport

end TenantGate.Api
