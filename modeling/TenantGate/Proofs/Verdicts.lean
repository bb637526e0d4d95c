import TenantGate.Proofs.Callers
import TenantGate.Proofs.Exchanges
import TenantGate.Proofs.Interleaving
import TenantGate.Proofs.JsonText
import TenantGate.Service.Client

/-!
Verdicts on tokens while requests are authenticated side by side. The memory of verdicts is shared,
and a request looks a verdict up, asks for it and has it remembered in three steps, between which
others take theirs. Every verdict that is remembered, and every one that a request is let through
with, is what the identity service has answered to a question about that very token.
-/
namespace TenantGate

open Gate Api Net Service Auth

variable {ν : Type}

theorem lookup_filter {α : Type} (kept : String → Bool) (name : String)
    (entries : List (String × α)) :
    (entries.filter fun e => kept e.1).lookup name =
      if kept name then entries.lookup name else none := by
  induction entries with
  | nil => simp
  | cons entry more ih =>
    obtain ⟨key, held⟩ := entry
    rw [List.filter_cons]
    by_cases same : name = key
    · subst same
      cases keeps : kept name with
      | true => simp
      | false => simp [ih, keeps]
    · have other : (name == key) = false := beq_eq_false_iff_ne.mpr same
      cases kept key <;> simp [List.lookup_cons, other, ih]

namespace Auth

end Auth

namespace Service

structure Introspects (identity : Identity) (token : String) (verdict : Introspection)
    (x : Exchange) : Prop where
  method : x.request.method = .post
  address : ∃ url, Url.parse (identity.base ++ "/tokens/introspect") = .ok url ∧
    x.request.url = url.withoutUser
  question : x.request.body = IntrospectionRequest.format.write ⟨token⟩
  answer : ∃ status body, x.delivery = .answered status body ∧ status.isSuccess = true ∧
    Introspection.format.readBytes body = .ok verdict

def question (identity : Identity) (token : String) : Draft :=
  ⟨.post, Url.parse (identity.base ++ "/tokens/introspect"), [("content-type", "application/json")],
    IntrospectionRequest.format.write ⟨token⟩⟩

variable {network : Network ν} {identity : Identity} {token : String} {n : ν}

theorem ask_noting (exchanges : List Exchange) :
    identity.ask network.noting token (n, exchanges) =
      ((identity.ask network token n).1,
        ((identity.ask network token n).2,
          exchanges ++ exchangesFor network (question identity token) n)) := by
  simp only [Identity.ask, send_noting, question]
  rcases network.send _ n with ⟨_ | ⟨_, _⟩, _⟩ <;> rfl

theorem Identity.readAnswer_ok_iff {status : Http.Status} {body : List UInt8}
    {verdict : Introspection} :
    Identity.readAnswer status body = .ok verdict ↔
      status.isSuccess = true ∧ Introspection.format.readBytes body = .ok verdict := by
  simp only [Identity.readAnswer]
  by_cases success : status.isSuccess = true
  · cases Introspection.format.readBytes body <;> simp [success]
  · simp [success]

theorem introspects_of_build {request : Outgoing} {status : Http.Status} {body : List UInt8}
    {verdict : Introspection} (built : (question identity token).build = .ok request)
    (given : Identity.readAnswer status body = .ok verdict) :
    Introspects identity token verdict ⟨request, .answered status body⟩ := by
  obtain ⟨url, parsed, address, method, asked⟩ := url_of_build built
  obtain ⟨success, read⟩ := Identity.readAnswer_ok_iff.mp given
  exact ⟨method, ⟨url, parsed, address⟩, asked, status, body, rfl, success, read⟩

theorem introspects_of_ask {verdict : Introspection}
    (given : (identity.ask network token n).1 = .ok verdict) :
    ∃ x, exchangesFor network (question identity token) n = [x] ∧
      Introspects identity token verdict x := by
  simp only [Identity.ask] at given
  split at given
  · rename_i status body _ sent
    have answered : (network.send (question identity token) n).1 = .ok (status, body) :=
      congrArg Prod.fst sent
    obtain ⟨request, built, single⟩ := exchange_of_answer answered
    exact ⟨_, single, introspects_of_build built given⟩
  · exact absurd given (by simp)

def freshVerdict (network : Network ν) (identity : Identity) (token : String) :
    Call ν Introspection :=
  if identity.isMock then .done (.ofSubject token) else identity.ask network token

theorem introspect_eq : identity.introspect network token =
    remembered token (freshVerdict network identity token) := rfl

theorem freshVerdict_noting (network : Network ν) (identity : Identity) (token : String) (n : ν)
    (exchanges : List Exchange) :
    ∃ more, freshVerdict network.noting identity token (n, exchanges) =
      ((freshVerdict network identity token n).1,
        ((freshVerdict network identity token n).2, exchanges ++ more)) := by
  by_cases trusting : identity.isMock = true
  · simp only [freshVerdict, if_pos trusting]
    exact ⟨[], by rw [List.append_nil]; rfl⟩
  · simp only [freshVerdict, if_neg trusting]
    exact ⟨_, ask_noting exchanges⟩

theorem freshVerdict_real (real : identity.isMock = false) (exchanges : List Exchange) :
    freshVerdict network.noting identity token (n, exchanges) =
      ((identity.ask network token n).1,
        ((identity.ask network token n).2,
          exchanges ++ exchangesFor network (question identity token) n)) := by
  have service : ¬ identity.isMock = true := by
    rw [real]
    decide
  rw [freshVerdict, if_neg service, ask_noting]

theorem unavailable_of_ask {f : Failure} (failed : (identity.ask network token n).1 = .error f) :
    ∃ message, f = .serviceUnavailable message := by
  simp only [Identity.ask] at failed
  split at failed
  · simp only [Identity.readAnswer] at failed
    split at failed
    · exact ⟨_, (Except.error.inj failed).symm⟩
    · split at failed
      · exact absurd failed (by simp)
      · exact ⟨_, (Except.error.inj failed).symm⟩
  · exact ⟨_, (Except.error.inj failed).symm⟩

end Service

namespace Gate

/-- What requests share while they are authenticated: the verdicts that are remembered and the
network, beside what has been exchanged with the identity service so far. -/
structure Desk (ν : Type) where
  verdicts : Cache Introspection
  network : ν
  exchanges : List Exchange

inductive Finding where
  | nobody
  | refused (f : Failure)
  | verdict (token : String) (verdict : Introspection)
  | unanswered (token : String) (f : Failure)

inductive Stage where
  | look (token : String)
  | ask (token : String)
  | keep (token : String) (verdict : Introspection)
  | done (finding : Finding)

structure Admission where
  inbound : Inbound
  stage : Stage

namespace Finding

def caller : Finding → Except Failure Caller
  | nobody => .ok .anonymous
  | refused f => .error f
  | verdict _ v => v.callerId.map .authenticated
  | unanswered _ f => .error f

def outcome (finding : Finding) (inbound : Inbound) : Except Http.Response Inbound :=
  match finding.caller with
  | .ok caller => .ok (inbound.withCaller caller)
  | .error f => .error (Problem.ofFailure f).respond

end Finding

namespace Stage

def start (inbound : Inbound) : Stage :=
  match bearerToken (Http.firstText? inbound.request.headers "authorization") with
  | .error f => .done (.refused f)
  | .ok none => .done .nobody
  | .ok (some token) => .look token

def step (network : Network ν) (identity : Identity) : Stage → Desk ν → Stage × Desk ν
  | .look token, desk =>
    match desk.verdicts.lookup token with
    | some verdict => (.done (.verdict token verdict), desk)
    | none => (.ask token, desk)
  | .ask token, desk =>
    match freshVerdict network.noting identity token (desk.network, desk.exchanges) with
    | (.ok verdict, (n, exchanges)) => (.keep token verdict, ⟨desk.verdicts, n, exchanges⟩)
    | (.error f, (n, exchanges)) => (.done (.unanswered token f), ⟨desk.verdicts, n, exchanges⟩)
  | .keep token verdict, desk =>
    (.done (.verdict token verdict),
      { desk with verdicts := insertEntry token verdict desk.verdicts })
  | .done finding, desk => (.done finding, desk)

end Stage

inductive Aside (ν : Type) where
  | network (change : ν → ν)
  | forget (kept : String → Bool)

/-- Requests that are authenticated side by side. -/
def admissions (network : Network ν) (identity : Identity) :
    Work Inbound Admission (Desk ν) (Aside ν) where
  start inbound := ⟨inbound, .start inbound⟩
  step a desk :=
    let (stage, desk) := a.stage.step network identity desk
    (⟨a.inbound, stage⟩, desk)
  outside
    | .network change, desk => { desk with network := change desk.network }
    | .forget kept, desk => { desk with verdicts := desk.verdicts.filter fun e => kept e.1 }

/-- The requests and what they share after some turns, with nothing remembered at the start. -/
def admitted (network : Network ν) (identity : Identity) (n : ν)
    (turns : List (Turn Inbound (Aside ν))) : Floor Admission (Desk ν) :=
  (admissions network identity).run ⟨[], n, []⟩ turns

def Bears (inbound : Inbound) (token : String) : Prop :=
  ∃ header, Http.firstText? inbound.request.headers "authorization" = some header ∧
    bearerToken (some header) = .ok (some token)

/-- The identity service has given the verdict on the token. -/
def Vouched (identity : Identity) (desk : Desk ν) (token : String) (verdict : Introspection) :
    Prop :=
  ∃ x ∈ desk.exchanges, Introspects identity token verdict x

def VouchedMemory (identity : Identity) (desk : Desk ν) : Prop :=
  ∀ token verdict, desk.verdicts.lookup token = some verdict → Vouched identity desk token verdict

inductive Sound (identity : Identity) (desk : Desk ν) (inbound : Inbound) : Stage → Prop where
  | look {token : String} (bears : Bears inbound token) : Sound identity desk inbound (.look token)
  | ask {token : String} (bears : Bears inbound token) : Sound identity desk inbound (.ask token)
  | keep {token : String} {verdict : Introspection} (bears : Bears inbound token)
      (vouched : Vouched identity desk token verdict) :
      Sound identity desk inbound (.keep token verdict)
  | nobody : Sound identity desk inbound (.done .nobody)
  | refused (f : Failure) : Sound identity desk inbound (.done (.refused f))
  | verdict {token : String} {verdict : Introspection} (bears : Bears inbound token)
      (vouched : Vouched identity desk token verdict) :
      Sound identity desk inbound (.done (.verdict token verdict))
  | unanswered {token : String} (bears : Bears inbound token) (message : String) :
      Sound identity desk inbound (.done (.unanswered token (.serviceUnavailable message)))

section Steps

variable {network : Network ν} {identity : Identity} {desk desk' : Desk ν} {inbound : Inbound}
  {stage : Stage}

theorem Vouched.mono {token : String} {verdict : Introspection}
    (vouched : Vouched identity desk token verdict) (more : desk.exchanges ⊆ desk'.exchanges) :
    Vouched identity desk' token verdict := by
  obtain ⟨x, among, introspects⟩ := vouched
  exact ⟨x, more among, introspects⟩

theorem Sound.mono (sound : Sound identity desk inbound stage)
    (more : desk.exchanges ⊆ desk'.exchanges) : Sound identity desk' inbound stage := by
  cases sound with
  | look bears => exact .look bears
  | ask bears => exact .ask bears
  | keep bears vouched => exact .keep bears (vouched.mono more)
  | nobody => exact .nobody
  | refused f => exact .refused f
  | verdict bears vouched => exact .verdict bears (vouched.mono more)
  | unanswered bears message => exact .unanswered bears message

theorem step_exchanges : desk.exchanges ⊆ (stage.step network identity desk).2.exchanges := by
  cases stage with
  | look token =>
    simp only [Stage.step]
    split <;> exact List.Subset.refl _
  | ask token =>
    obtain ⟨more, called⟩ :=
      freshVerdict_noting network identity token desk.network desk.exchanges
    simp only [Stage.step, called]
    cases (freshVerdict network identity token desk.network).1 <;>
      exact List.subset_append_left _ _
  | keep token verdict => exact List.Subset.refl _
  | done finding => exact List.Subset.refl _

/-- What an asking step ends with: a verdict that was given, or no answer and nothing remembered. -/
theorem step_ask (real : identity.isMock = false) (network : Network ν) (token : String)
    (desk : Desk ν) :
    (∃ verdict, ((Stage.ask token).step network identity desk).1 = .keep token verdict ∧
      Vouched identity ((Stage.ask token).step network identity desk).2 token verdict) ∨
    ∃ message, ((Stage.ask token).step network identity desk).1 =
      .done (.unanswered token (.serviceUnavailable message)) := by
  simp only [Stage.step, freshVerdict_real real]
  cases given : (identity.ask network token desk.network).1 with
  | ok verdict =>
    obtain ⟨x, single, introspects⟩ := introspects_of_ask given
    refine .inl ⟨verdict, rfl, x, ?_, introspects⟩
    rw [single]
    exact List.mem_append_right _ (List.mem_singleton_self x)
  | error f =>
    obtain ⟨message, rfl⟩ := unavailable_of_ask given
    exact .inr ⟨message, rfl⟩

theorem step_ask_verdicts (token : String) :
    ((Stage.ask token).step network identity desk).2.verdicts = desk.verdicts := by
  simp only [Stage.step]
  split <;> rfl

theorem step_sound (real : identity.isMock = false) (memory : VouchedMemory identity desk)
    (sound : Sound identity desk inbound stage) :
    VouchedMemory identity (stage.step network identity desk).2 ∧
      Sound identity (stage.step network identity desk).2 inbound
        (stage.step network identity desk).1 := by
  have grows : desk.exchanges ⊆ (stage.step network identity desk).2.exchanges := step_exchanges
  cases sound with
  | look bears =>
    simp only [Stage.step]
    split
    · rename_i verdict held
      exact ⟨memory, .verdict bears (memory _ verdict held)⟩
    · exact ⟨memory, .ask bears⟩
  | @ask token bears =>
    refine ⟨?_, ?_⟩
    · intro other verdict held
      rw [step_ask_verdicts] at held
      exact (memory other verdict held).mono grows
    · rcases step_ask real network token desk with ⟨verdict, next, vouched⟩ | ⟨message, next⟩
      · rw [next]
        exact .keep bears vouched
      · rw [next]
        exact .unanswered bears message
  | @keep token verdict bears vouched =>
    refine ⟨?_, .verdict bears vouched⟩
    intro other verdict' held
    simp only [Stage.step, lookup_insertEntry] at held
    split at held
    · rename_i same
      rw [same, ← Option.some.inj held]
      exact vouched
    · exact memory other verdict' held
  | nobody => exact ⟨memory, .nobody⟩
  | refused f => exact ⟨memory, .refused f⟩
  | verdict bears vouched => exact ⟨memory, .verdict bears vouched⟩
  | unanswered bears message => exact ⟨memory, .unanswered bears message⟩

end Steps

def localIdentity : Identity := ⟨"http://identity.local", false⟩

end Gate

end TenantGate
