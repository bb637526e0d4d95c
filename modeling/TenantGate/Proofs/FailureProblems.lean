import TenantGate.Proofs.ErrorAnswers

/-!
Failures as problems. Whatever fails, the problem keeps the failure's code and its status, if that is
one; the title and the type follow from the status as they do for every other problem, and what a
collaborator said is not told.
-/
namespace TenantGate.Api.Problem

open Http

def told : Failure → String
  | .tenancy _ message _ => message
  | .unauthenticated message => message
  | .serviceUnavailable _ => unavailableDetail
  | f => f.text

def referenced : List UInt16 := [400, 401, 403, 404, 500, 503]

theorem ofCode?_eq_some_iff {code : UInt16} {status : Status} :
    Status.ofCode? code = some status ↔ status.code = code := by
  constructor
  · intro found
    unfold Status.ofCode? at found
    split_ifs at found
    rw [← Option.some.inj found]
  · rintro rfl
    rw [Status.ofCode?, dif_pos status.least, dif_pos status.greatest]

theorem ofCode?_eq_none_iff {code : UInt16} :
    Status.ofCode? code = none ↔ ¬ (100 ≤ code ∧ code ≤ 999) := by
  unfold Status.ofCode?
  split_ifs with least greatest
  · exact ⟨nofun, fun outside => absurd ⟨least, greatest⟩ outside⟩
  · exact ⟨fun _ both => greatest both.2, fun _ => rfl⟩
  · exact ⟨fun _ both => least both.1, fun _ => rfl⟩

theorem ofFailure_eq (f : Failure) :
    ofFailure f =
      ofCode ((Status.ofCode? f.httpStatus).getD .internalError) f.code (told f) := by
  cases f with
  | tenancy code message status => rfl
  | unauthenticated message => rfl
  | serviceUnavailable message => rfl
  | notFound message => rfl
  | cancelled => rfl
  | internal message => rfl

theorem ofFailure_status (f : Failure) :
    (ofFailure f).status.code =
      if 100 ≤ f.httpStatus ∧ f.httpStatus ≤ 999 then f.httpStatus else 500 := by
  rw [ofFailure_eq]
  cases found : Status.ofCode? f.httpStatus with
  | none =>
    rw [if_neg (ofCode?_eq_none_iff.mp found)]
    rfl
  | some status =>
    have same := ofCode?_eq_some_iff.mp found
    rw [if_pos ⟨same ▸ status.least, same ▸ status.greatest⟩]
    exact same

theorem referenced_of_toNat {code : UInt16} {n : Nat} (same : code.toNat = n)
    (among : UInt16.ofNat n ∈ referenced) : code ∈ referenced := by
  rw [← same, UInt16.ofNat_toNat] at among
  exact among

theorem typeOf_eq_blank_iff (status : Status) :
    typeOf status = "about:blank" ↔ status.code ∉ referenced := by
  constructor
  · intro blank among
    simp only [referenced, List.mem_cons, List.not_mem_nil, or_false] at among
    rcases among with same | same | same | same | same | same
    all_goals
      rw [typeOf, same] at blank
      exact absurd blank (by decide)
  · intro other
    unfold typeOf
    split
    case h_7 => rfl
    all_goals
      rename_i same
      exact absurd (referenced_of_toNat same (by decide)) other

theorem text_eq (p : Problem) (plain : p.errors = none) :
    p.text = Json.objectText [("type", Json.stringText (typeOf p.status)),
      ("title", Json.stringText (p.status.reason?.getD "Unknown Error")),
      ("status", toString p.status.code.toNat), ("detail", Json.stringText p.detail),
      ("code", Json.stringText p.code)] := by
  obtain ⟨status, code, detail, errors⟩ := p
  subst plain
  rfl

structure Presents (f : Failure) (r : Response) : Prop where
  status : r.status.code =
    if 100 ≤ f.httpStatus ∧ f.httpStatus ≤ 999 then f.httpStatus else 500
  mediaType : firstText? r.headers "content-type" = some mediaType
  document : ProblemDocument.format.readWhole r.body =
    .ok { type := typeOf r.status, title := r.status.reason?.getD "Unknown Error",
          status := r.status.code.toNat, detail := told f, code := f.code, errors := none }
  /-- No list of errors is written, not even an empty one. -/
  written : r.body = Json.objectText [("type", Json.stringText (typeOf r.status)),
    ("title", Json.stringText (r.status.reason?.getD "Unknown Error")),
    ("status", toString r.status.code.toNat), ("detail", Json.stringText (told f)),
    ("code", Json.stringText f.code)]

theorem presents_ofFailure (f : Failure) : Presents f (ofFailure f).respond where
  status := ofFailure_status f
  mediaType := Gate.firstText?_contentType _ [] (by decide +kernel)
  document := by
    refine ((ofFailure f).readWhole_text).trans ?_
    rw [ofFailure_eq]
    rfl
  written := by
    refine (text_eq (ofFailure f) ?_).trans ?_
    · rw [ofFailure_eq]
      rfl
    · rw [ofFailure_eq]
      rfl

theorem httpStatus_of_tenancyCode (code : TenancyCode) :
    100 ≤ code.httpStatus ∧ code.httpStatus ≤ 999 := by
  cases code <;> decide

/-- A rejection becomes the problem that the failure with its code becomes. The fallbacks for a code
that is no status differ, but no tenancy code needs one. -/
theorem ofRejection_eq (code : TenancyCode) (message : String) :
    ofRejection ⟨code, message⟩ = ofFailure (.ofTenancy code message) := by
  rw [ofFailure_eq, ofRejection, ofTenancy, Failure.ofTenancy]
  cases found : Status.ofCode? code.httpStatus with
  | none => exact absurd (httpStatus_of_tenancyCode code) (ofCode?_eq_none_iff.mp found)
  | some status =>
    simp only [Failure.httpStatus, found, Option.getD_some, Failure.code, told]

/-- Every failure is presented as what it is, with the title and the type that any problem of its
status has, and a rejection is the same problem as the failure that stands for it. -/
theorem failures_are_presented :
    (∀ f, Presents f (ofFailure f).respond) ∧
    (∀ f (p : Problem), p.status = (ofFailure f).status →
      p.document.title = (ofFailure f).document.title ∧
      p.document.type = (ofFailure f).document.type) ∧
    (∀ status : Status, typeOf status = "about:blank" ↔ status.code ∉ referenced) ∧
    (∀ said other, ofFailure (.serviceUnavailable said) = ofFailure (.serviceUnavailable other)) ∧
    (∀ code message, ofRejection ⟨code, message⟩ = ofFailure (.ofTenancy code message)) := by
  refine ⟨presents_ofFailure, fun f p same => ?_, typeOf_eq_blank_iff, fun _ _ => rfl,
    ofRejection_eq⟩
  rw [document, document, same]
  exact ⟨rfl, rfl⟩

end TenantGate.Api.Problem
