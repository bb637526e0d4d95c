/-!
Messages with numbered placeholders. The arguments are put in one after the other, each over the
text that the earlier ones left behind, so a placeholder inside an argument is filled as well.
-/
namespace TenantGate.Text

def placeholder (i : Nat) : String := "\x7b" ++ toString i ++ "\x7d"

def dropLeading? : List Char → List Char → Option (List Char)
  | [], cs => some cs
  | p :: pat, c :: cs => if p == c then dropLeading? pat cs else none
  | _ :: _, [] => none

theorem dropLeading?_eq_some_iff {pat cs rest : List Char} :
    dropLeading? pat cs = some rest ↔ cs = pat ++ rest := by
  induction pat generalizing cs with
  | nil => rw [dropLeading?, Option.some.injEq, List.nil_append]
  | cons p pat ih =>
    cases cs with
    | nil => exact iff_of_false (by simp [dropLeading?]) (by simp)
    | cons c cs =>
      rw [dropLeading?, List.cons_append, List.cons.injEq]
      by_cases same : p = c
      · rw [if_pos (beq_iff_eq.mpr same), ih, and_iff_right same.symm]
      · rw [if_neg (mt beq_iff_eq.mp same)]
        exact iff_of_false (by simp) fun both => same both.1.symm

theorem dropLeading_length (pat cs rest : List Char) (dropped : dropLeading? pat cs = some rest) :
    rest.length + pat.length = cs.length := by
  rw [dropLeading?_eq_some_iff.mp dropped, List.length_append, Nat.add_comm]

/-- Every occurrence of `p :: pat`, found from the left without overlap, becomes `new`. -/
def replaceChars (p : Char) (pat new : List Char) : List Char → List Char
  | [] => []
  | c :: cs =>
    match _h : dropLeading? (p :: pat) (c :: cs) with
    | some rest => new ++ replaceChars p pat new rest
    | none => c :: replaceChars p pat new cs
termination_by cs => cs.length
decreasing_by
  all_goals simp only [List.length_cons]
  · have := dropLeading_length _ _ _ _h
    simp only [List.length_cons] at this; omega
  · omega

def fillOne (i : Nat) (arg message : List Char) : List Char :=
  replaceChars '\x7b' ((toString i).toList ++ ['\x7d']) arg message

def fillFrom (i : Nat) (message : List Char) : List String → List Char
  | [] => message
  | arg :: args => fillFrom (i + 1) (fillOne i arg.toList message) args

def fill (template : String) (args : List String) : String :=
  String.ofList (fillFrom 0 template.toList args)

end TenantGate.Text

/-!
What can go wrong while a request is served. A failure has a stable code, an HTTP status and a
text; the tenancy failures carry their own code and status, the others derive them.
-/
namespace TenantGate

inductive TenancyCode where
  | missingTenantId
  | invalidTenantId
  | userNotAMember
deriving Repr, DecidableEq

def TenancyCode.text : TenancyCode → String
  | .missingTenantId => "MissingTenantId"
  | .invalidTenantId => "InvalidTenantId"
  | .userNotAMember => "UserNotAMember"

def TenancyCode.httpStatus : TenancyCode → UInt16
  | .missingTenantId => 400
  | .invalidTenantId => 400
  | .userNotAMember => 403

inductive Failure where
  | tenancy (code message : String) (httpStatus : UInt16)
  | unauthenticated (message : String)
  | serviceUnavailable (message : String)
  | notFound (message : String)
  | cancelled
  | internal (message : String)
deriving Repr, DecidableEq

namespace Failure

def ofTenancy (code : TenancyCode) (message : String) : Failure :=
  .tenancy code.text message code.httpStatus

def isCancelled : Failure → Bool
  | .cancelled => true
  | _ => false

def httpStatus : Failure → UInt16
  | .tenancy _ _ status => status
  | .unauthenticated _ => 401
  | .notFound _ => 404
  | .cancelled => 499
  | .serviceUnavailable _ => 503
  | .internal _ => 500

def code : Failure → String
  | .tenancy code _ _ => code
  | .unauthenticated _ => "Unauthenticated"
  | .notFound _ => "NotFound"
  | .cancelled => "Cancelled"
  | .serviceUnavailable _ => "ServiceUnavailable"
  | .internal _ => "Internal"

def text : Failure → String
  | .tenancy code message _ => "[" ++ code ++ "] " ++ message
  | .unauthenticated message => "unauthenticated: " ++ message
  | .serviceUnavailable message => "service unavailable: " ++ message
  | .notFound message => "not found: " ++ message
  | .cancelled => "request cancelled"
  | .internal message => "internal error: " ++ message

end Failure

/-!
Why a request is turned away over its tenant.
-/

namespace Messages

def missingTenantId : String :=
  "The request requires a tenant ID, but none was provided and the caller has no default organization"

def invalidTenantId : String := "The tenant ID is not a valid identifier"

def userNotAMember : String := "The caller is not a member of the organization '\x7b0\x7d'"

end Messages

structure Rejection where
  code : TenancyCode
  message : String
deriving Repr, DecidableEq

namespace Rejection

def missingTenantId : Rejection := ⟨.missingTenantId, Messages.missingTenantId⟩

def invalidTenantId : Rejection := ⟨.invalidTenantId, Messages.invalidTenantId⟩

def notAMember (tenantId : String) : Rejection :=
  ⟨.userNotAMember, Text.fill Messages.userNotAMember [tenantId]⟩

end Rejection

end TenantGate
