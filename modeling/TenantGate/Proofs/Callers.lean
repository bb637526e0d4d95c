import TenantGate.Proofs.Serving

/-!
From the header of a request to its caller. A header that counts as text either carries a token,
whose verdict decides about the caller, or is refused. Only a header that is absent or does not
count as text leaves the request to an anonymous caller.
-/
namespace TenantGate

open Gate Api

variable {σ : Type}

namespace Auth

/-- The header is the scheme and a text around the token, which is not empty. -/
def Carries (header token : String) : Prop :=
  (∃ rest, header = scheme ++ rest ∧ Text.trim rest = token) ∧ token ≠ ""

theorem bearerToken_cases (header : String) :
    (∃ message, bearerToken (some header) = .error (.unauthenticated message)) ∨
      ∃ token, bearerToken (some header) = .ok (some token) ∧ Carries header token := by
  simp only [bearerToken]
  cases dropped : Text.dropLeading? scheme.toList header.toList with
  | none => exact .inl ⟨_, rfl⟩
  | some rest =>
    by_cases empty : (Text.trimChars rest).isEmpty = true
    · exact .inl ⟨_, if_pos empty⟩
    · refine .inr ⟨_, if_neg empty, ⟨String.ofList rest, ?_, ?_⟩, ?_⟩
      · apply String.ext
        rw [Text.dropLeading?_eq_some_iff.mp dropped, String.toList_append, String.toList_ofList]
      · rw [Text.trim, String.toList_ofList]
      · intro none
        have same := congrArg String.toList none
        rw [String.toList_ofList] at same
        exact empty (by rw [same]; rfl)

namespace Introspection

/-- The verdict accepts a token of `c`. -/
def Accepts (verdict : Introspection) (c : String) : Prop := verdict = ⟨true, some c⟩ ∧ c ≠ ""

theorem callerId_ok_iff (verdict : Introspection) (c : String) :
    verdict.callerId = .ok c ↔ verdict.Accepts c := by
  obtain ⟨active, subject⟩ := verdict
  cases active with
  | false => simp [callerId, Accepts]
  | true =>
    cases subject with
    | none => simp [callerId, Accepts]
    | some s =>
      by_cases empty : s = ""
      · subst empty
        simp [callerId, Accepts]
      · have named : (s = c ∧ c ≠ "") ↔ s = c := and_iff_left_of_imp fun same => same ▸ empty
        simpa [callerId, Accepts, empty] using named.symm

theorem unauthenticated_of_callerId {verdict : Introspection} {f : Failure}
    (refused : verdict.callerId = .error f) : ∃ message, f = .unauthenticated message := by
  simp only [callerId] at refused
  split at refused
  · split at refused
    · split at refused
      · exact ⟨_, (Except.error.inj refused).symm⟩
      · exact absurd refused (by simp)
    · exact ⟨_, (Except.error.inj refused).symm⟩
  · exact ⟨_, (Except.error.inj refused).symm⟩

end Introspection

end Auth

namespace Gate

variable (introspect : String → Call σ Auth.Introspection) {headers : List Http.Header}
  (site : Site σ)

theorem callerOf_absent (absent : Http.firstText? headers "authorization" = none) :
    callerOf introspect headers site = (.ok .anonymous, site) := by
  simp only [callerOf, absent]
  rfl

theorem callerOf_refused {header : String} {f : Failure}
    (present : Http.firstText? headers "authorization" = some header)
    (refused : Auth.bearerToken (some header) = .error f) :
    callerOf introspect headers site = (.error f, site) := by
  simp only [callerOf, present, refused]
  rfl

theorem callerOf_token {header token : String}
    (present : Http.firstText? headers "authorization" = some header)
    (read : Auth.bearerToken (some header) = .ok (some token)) :
    callerOf introspect headers site =
      ((introspect token site.services).1.bind fun verdict =>
          verdict.callerId.map Caller.authenticated,
        site.putServices (introspect token site.services).2) := by
  simp only [callerOf, present, read]
  rcases asked : introspect token site.services with ⟨f | verdict, s⟩
  · simp only [Call.bind_eq, Call.andThen, Call.ofExcept, Call.done, Call.onPart, asked]
    rfl
  · simp only [Call.bind_eq, Call.andThen, Call.ofExcept, Call.done, Call.onPart, asked,
      Except.bind]
    cases verdict.callerId <;> rfl

variable {introspect site}

theorem handsOn_of_callerOf {inbound : Inbound} {caller : Caller} {site' : Site σ}
    (known : callerOf introspect inbound.request.headers site = (.ok caller, site')) :
    HandsOn (authenticate introspect) inbound site (inbound.withCaller caller) site' := by
  rw [Step.authenticate_eq, Step.handsOn_iff]
  simp only [Step.identify, known]

theorem answersItself_of_callerOf {inbound : Inbound} {f : Failure} {site' : Site σ}
    (unknown : callerOf introspect inbound.request.headers site = (.error f, site')) :
    AnswersItself (authenticate introspect) inbound site (Problem.ofFailure f).respond site' := by
  rw [Step.authenticate_eq, Step.answersItself_iff]
  simp only [Step.identify, unknown]

inductive Identified (introspect : String → Call σ Auth.Introspection) (inbound : Inbound)
    (site : Site σ) : Prop where
  | authenticated (c : String) (site' : Site σ) (named : c ≠ "")
      (handed : HandsOn (authenticate introspect) inbound site
        (inbound.withCaller (.authenticated c)) site')
  | turnedAway (message : String) (site' : Site σ)
      (answered : AnswersItself (authenticate introspect) inbound site
        (Problem.unauthenticated message).respond site')
  | unanswered (token : String) (f : Failure) (site' : Site σ)
      (failed : (introspect token site.services).1 = .error f)
      (answered : AnswersItself (authenticate introspect) inbound site
        (Problem.ofFailure f).respond site')

theorem identified_of_header {inbound : Inbound} {header : String}
    (present : Http.firstText? inbound.request.headers "authorization" = some header) :
    Identified introspect inbound site := by
  rcases Auth.bearerToken_cases header with ⟨message, refused⟩ | ⟨token, read, _⟩
  · exact .turnedAway message site
      (answersItself_of_callerOf (callerOf_refused introspect site present refused))
  · have asked := callerOf_token introspect site present read
    cases verdict? : (introspect token site.services).1 with
    | error f =>
      rw [verdict?] at asked
      exact .unanswered token f _ verdict? (answersItself_of_callerOf asked)
    | ok verdict =>
      rw [verdict?] at asked
      cases decided : verdict.callerId with
      | ok c =>
        simp only [Except.bind, decided] at asked
        have accepted := (Auth.Introspection.callerId_ok_iff verdict c).mp decided
        exact .authenticated c _ accepted.2 (handsOn_of_callerOf asked)
      | error f =>
        obtain ⟨message, rfl⟩ := Auth.Introspection.unauthenticated_of_callerId decided
        simp only [Except.bind, decided] at asked
        exact .turnedAway message _ (answersItself_of_callerOf asked)

theorem Identified.not_anonymous {inbound inbound' : Inbound} {site' : Site σ}
    (identified : Identified introspect inbound site)
    (handed : HandsOn (authenticate introspect) inbound site inbound' site') :
    inbound'.extensions.caller ≠ some .anonymous := by
  rw [Step.authenticate_eq] at handed
  cases identified with
  | authenticated c site'' named handed' =>
    rw [Step.authenticate_eq] at handed'
    rw [Step.handsOn_iff] at handed handed'
    rw [handed, Prod.mk.injEq, Except.ok.injEq] at handed'
    rw [handed'.1]
    intro anonymous
    cases anonymous
  | turnedAway message site'' answered =>
    rw [Step.authenticate_eq] at answered
    exact absurd answered (Step.not_both _ _ _ handed)
  | unanswered token f site'' failed answered =>
    rw [Step.authenticate_eq] at answered
    exact absurd answered (Step.not_both _ _ _ handed)

/-- A request with a header is handed on as that of an anonymous caller exactly if the first such
header has bytes that do not count as text. With any other one it is handed on as that of a known
caller, or it is answered. -/
theorem anonymous_with_header_iff_unreadable (introspect : String → Call σ Auth.Introspection)
    (inbound : Inbound) (site : Site σ) {value : List UInt8}
    (present : Http.firstValue? inbound.request.headers "authorization" = some value) :
    ((∃ inbound' site', HandsOn (authenticate introspect) inbound site inbound' site' ∧
        inbound'.extensions.caller = some .anonymous) ↔
      ∃ b ∈ value, Http.Header.isVisibleByte b = false) ∧
    ((∀ b ∈ value, Http.Header.isVisibleByte b = true) → Identified introspect inbound site) := by
  have identified (visible : ∀ b ∈ value, Http.Header.isVisibleByte b = true) :
      Identified introspect inbound site := by
    have readable : Http.firstText? inbound.request.headers "authorization" =
        some (Http.Header.asciiText value) := by
      rw [Http.firstText?, present, Option.bind_some, Http.Header.text?,
        if_pos (List.all_eq_true.mpr visible)]
    exact identified_of_header readable
  refine ⟨⟨?_, ?_⟩, identified⟩
  · rintro ⟨inbound', site', handed, anonymous⟩
    by_contra visible
    simp only [not_exists, not_and, Bool.not_eq_false] at visible
    exact (identified visible).not_anonymous handed anonymous
  · rintro ⟨b, among, hidden⟩
    have unreadable : ¬ value.all Http.Header.isVisibleByte = true := by
      intro visible
      have shown := List.all_eq_true.mp visible b among
      rw [hidden] at shown
      exact absurd shown (by decide)
    have absent : Http.firstText? inbound.request.headers "authorization" = none := by
      rw [Http.firstText?, present, Option.bind_some, Http.Header.text?, if_neg unreadable]
    exact ⟨_, site, handsOn_of_callerOf (callerOf_absent introspect site absent), rfl⟩

def requestWith (authorization : String) : Inbound :=
  ⟨⟨.get, ⟨[], none⟩, [.ofText "authorization" authorization], []⟩, "/whoami", .ok [], .none⟩

def everyToken : String → Call Unit Auth.Introspection := fun token => .done (.ofSubject token)

/-- Another scheme is none that an anonymous caller gets on with. -/
theorem other_scheme_is_not_anonymous :
    Http.firstValue? (requestWith "Basic x").request.headers "authorization" =
        some (Utf8.encode "Basic x") ∧
      Identified everyToken (requestWith "Basic x") freshSite ∧
      ¬ ∃ inbound' site', HandsOn (authenticate everyToken) (requestWith "Basic x") freshSite
        inbound' site' ∧ inbound'.extensions.caller = some .anonymous := by
  have present : Http.firstValue? (requestWith "Basic x").request.headers "authorization" =
    some (Utf8.encode "Basic x") := rfl
  have visible : (Utf8.encode "Basic x").all Http.Header.isVisibleByte = true := by
    decide +kernel
  rw [List.all_eq_true] at visible
  obtain ⟨anonymous, identified⟩ :=
    anonymous_with_header_iff_unreadable everyToken (requestWith "Basic x") freshSite present
  refine ⟨present, identified visible, ?_⟩
  rw [anonymous]
  rintro ⟨b, among, hidden⟩
  rw [visible b among] at hidden
  exact absurd hidden (by decide)

/-- A token beyond ASCII is taken for no token. -/
theorem unreadable_token_is_anonymous :
    (Http.firstValue? (requestWith "Bearer é").request.headers "authorization").isSome = true ∧
      HandsOn (authenticate everyToken) (requestWith "Bearer é") freshSite
        ((requestWith "Bearer é").withCaller .anonymous) freshSite :=
  ⟨by decide +kernel, handsOn_of_callerOf (callerOf_absent _ _ (by decide +kernel))⟩

end Gate

end TenantGate
