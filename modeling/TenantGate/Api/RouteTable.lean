import TenantGate.Failure
import TenantGate.Http.Message

/-!
Contracts of operations: under which method and path an operation is found, who may call it and
whether it is there for tests only. Registering a contract adds whether it requires a tenant.
-/
namespace TenantGate.Api

inductive OperationMethod where
  | get
  | post
  | put
  | patch
  | delete
deriving Repr, DecidableEq

namespace OperationMethod

def all : List OperationMethod := [.get, .post, .put, .patch, .delete]

def name : OperationMethod → String
  | .get => "Get"
  | .post => "Post"
  | .put => "Put"
  | .patch => "Patch"
  | .delete => "Delete"

def toMethod : OperationMethod → Http.Method
  | .get => .get
  | .post => .post
  | .put => .put
  | .patch => .patch
  | .delete => .delete

end OperationMethod

inductive Access where
  | anonymous
  | token
deriving Repr, DecidableEq

namespace Access

def name : Access → String
  | .anonymous => "Anonymous"
  | .token => "Token"

end Access

structure Contract where
  operation : String
  method : OperationMethod
  path : String
  access : Access
  testingOnly : Bool
deriving Repr, DecidableEq

structure Descriptor where
  operation : String
  method : Http.Method
  path : String
  access : Access
  requiresTenant : Bool
  testingOnly : Bool
deriving Repr, DecidableEq

def Contract.describe (c : Contract) (requiresTenant : Bool) : Descriptor :=
  ⟨c.operation, c.method.toMethod, c.path, c.access, requiresTenant, c.testingOnly⟩

/-!
The table of served operations, found by method and path. `HEAD` finds what `GET` finds.
-/

structure RouteTable where
  routes : List Descriptor
deriving Repr, DecidableEq

namespace RouteTable

def empty : RouteTable := ⟨[]⟩

def lookupMethod (m : Http.Method) : Http.Method := if m = .head then .get else m

def find? (table : RouteTable) (method : Http.Method) (path : String) : Option Descriptor :=
  table.routes.find? fun d => d.method == lookupMethod method && d.path == path

def insert (table : RouteTable) (d : Descriptor) : Except Failure RouteTable :=
  if (table.find? d.method d.path).isSome then
    .error (.internal ("route " ++ d.method.name ++ " " ++ d.path ++ " is already registered"))
  else .ok ⟨table.routes ++ [d]⟩

def length (table : RouteTable) : Nat := table.routes.length

def isEmpty (table : RouteTable) : Bool := table.routes.isEmpty

end RouteTable

/-!
Registration of operations. An operation goes into the route table, which says what it requires,
and its handler goes to the router, which is filed by path and method. Operations for tests only are
left out of a host for production.
-/

def methodFilter : OperationMethod → Http.Method
  | .get => .get
  | .post => .post
  | .put => .put
  | .patch => .patch
  | .delete => .delete

structure Mount (η : Type) where
  path : String
  method : Http.Method
  handler : η

/-- The table of the registered operations and what the router has been given, with handlers of any
type `η`. -/
structure Registry (η : Type) where
  table : RouteTable
  handlers : List (Mount η)

structure Entry (η : Type) where
  contract : Contract
  requiresTenant : Bool
  handler : η

namespace Entry

variable {η : Type}

def descriptor (e : Entry η) : Descriptor := e.contract.describe e.requiresTenant

def mount (e : Entry η) : Mount η :=
  ⟨e.contract.path, methodFilter e.contract.method, e.handler⟩

def isKept (testing : Bool) (e : Entry η) : Bool := !e.contract.testingOnly || testing

end Entry

namespace Registry

variable {η : Type}

def empty : Registry η := ⟨.empty, []⟩

/-- Registers an operation, or passes over it when it is for tests only and tests are off. -/
def register (testing : Bool) (r : Registry η) (e : Entry η) : Except Failure (Registry η) :=
  if e.isKept testing then
    (r.table.insert e.descriptor).map fun table => ⟨table, r.handlers ++ [e.mount]⟩
  else .ok r

def registerAll (testing : Bool) (r : Registry η) : List (Entry η) → Except Failure (Registry η)
  | [] => .ok r
  | e :: more =>
    match r.register testing e with
    | .ok r => registerAll testing r more
    | .error f => .error f

end Registry

end TenantGate.Api
