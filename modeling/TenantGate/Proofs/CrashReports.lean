import TenantGate.Api.Operations
import TenantGate.Proofs.JsonSoleField
import TenantGate.Proofs.MediaTypes

/-!
What becomes of a crash report. The faults of a request are looked for in a fixed order, and the
first one decides: the body is not declared as JSON, it is too long, its text goes wrong from left
to right, or the message is too short or too long. A text that starts with a report is taken for it
whatever follows; a text that shows another shape is a misfit whatever follows; every other text is
broken or cut short.
-/
namespace TenantGate.Api

open Http Json

/-- The request is refused with the status, the code of invalid requests and the list of errors. -/
def Refused {α : Type} (r : Except Problem α) (status : Nat) (errors : Option (List String)) :
    Prop :=
  ∃ p, r = .error p ∧ p.status.code.toNat = status ∧ p.code = "Validation" ∧ p.errors = errors

section Bodies

variable {α : Type} {format : Format α} {headers : List Header} {body : List UInt8}

theorem readBody_undeclared (undeclared : ¬ DeclaresJson headers) :
    Refused (readBody format headers body) 415 none := by
  rw [← bodyIsJson_iff, Bool.not_eq_true] at undeclared
  rw [readBody, undeclared]
  exact ⟨_, rfl, rfl, rfl, rfl⟩

theorem readBody_long (declared : DeclaresJson headers) (long : greatestBody < body.length) :
    Refused (readBody format headers body) 413 none := by
  rw [readBody, (bodyIsJson_iff headers).mpr declared, if_neg (by decide), if_pos long]
  exact ⟨_, rfl, rfl, rfl, rfl⟩

theorem readBody_read (declared : DeclaresJson headers) (short : body.length ≤ greatestBody) :
    readBody format headers body = (format.readLeading body).mapError faultProblem := by
  rw [readBody, (bodyIsJson_iff headers).mpr declared, if_neg (by decide),
    if_neg (Nat.not_lt_of_le short)]
  cases format.readLeading body <;> rfl

theorem readBody_ok_iff (format : Format α) (headers : List Header) (body : List UInt8) (a : α) :
    readBody format headers body = .ok a ↔ DeclaresJson headers ∧ body.length ≤ greatestBody ∧
      format.readLeading body = .ok a := by
  by_cases declared : DeclaresJson headers
  · by_cases short : body.length ≤ greatestBody
    · rw [readBody_read declared short]
      cases format.readLeading body <;> simp [declared, short, Except.mapError]
    · have refused : Refused (readBody format headers body) 413 none :=
        readBody_long declared (Nat.lt_of_not_le short)
      obtain ⟨p, refused, _⟩ := refused
      simp [refused, short]
  · have refused : Refused (readBody format headers body) 415 none :=
      readBody_undeclared declared
    obtain ⟨p, refused, _⟩ := refused
    simp [refused, declared]

theorem readBody_fault (declared : DeclaresJson headers) (short : body.length ≤ greatestBody)
    {fault : Fault} (failed : format.readLeading body = .error fault) :
    Refused (readBody format headers body)
      (if fault.cause.kind = .misfit then 422 else 400) none := by
  rw [readBody_read declared short, failed]
  refine ⟨_, rfl, ?_⟩
  rw [faultProblem]
  cases fault.cause.kind <;> exact ⟨rfl, rfl, rfl⟩

end Bodies

namespace CrashReport

section Texts

theorem readLeading_eq (body : List UInt8) :
    format.readLeading body =
      ((soleText "RecordCrashRequest" "message").read (.ofBytes body)).map fun r => ⟨r.1.1⟩ := by
  rw [Format.readLeading, format, Format.map, soleText]
  dsimp only
  cases (Format.record "RecordCrashRequest"
    (.field "message" .required (fun _ => false) .string .none)).read (.ofBytes body) <;> rfl

theorem readLeading_ok_iff (body : List UInt8) (m : CrashReport) :
    format.readLeading body = .ok m ↔ ∃ rest, Holds "message" m.message body rest := by
  have exact := soleText_iff "RecordCrashRequest" "message" body .start m.message
  rw [readLeading_eq]
  constructor
  · intro result
    cases read : (soleText "RecordCrashRequest" "message").read (.ofBytes body) with
    | error fault =>
      rw [read] at result
      exact absurd result (by simp [Except.map])
    | ok found =>
      obtain ⟨⟨s, ⟨⟩⟩, c⟩ := found
      rw [read] at result
      obtain rfl := Except.ok.inj result
      exact ⟨c.rest, (exact c.rest).mp ⟨c.place, read⟩⟩
  · rintro ⟨rest, holds⟩
    obtain ⟨place, read⟩ := (exact rest).mpr holds
    rw [Cursor.ofBytes, read]
    rfl

theorem readLeading_misfit_iff (body : List UInt8) :
    Misfit (format.readLeading body) ↔ Misses "message" body := by
  rw [← soleText_misfit_iff "RecordCrashRequest" "message" body .start, readLeading_eq,
    Cursor.ofBytes]
  cases (soleText "RecordCrashRequest" "message").read ⟨body, .start⟩ <;> simp [Except.map]

end Texts

def Fits (message : String) : Prop := 1 ≤ message.length ∧ message.length ≤ 2000

section Requests

variable {headers : List Header} {body : List UInt8}

theorem keeps_iff (message : String) : rule.keeps message = true ↔ Fits message := by
  rw [LengthRule.keeps, Bool.and_eq_true, decide_eq_true_eq, decide_eq_true_eq]
  rfl

theorem read_refused {status : Nat} {errors : Option (List String)}
    (refused : Refused (readBody format headers body) status errors) :
    Refused (read headers body) status errors := by
  obtain ⟨p, failed, shown⟩ := refused
  exact ⟨p, by rw [read, readChecked, failed]; rfl, shown⟩

theorem read_taken {m : CrashReport} (taken : readBody format headers body = .ok m) :
    read headers body =
      if rule.keeps m.message then .ok m else .error (.validation [rule.complaint]) := by
  rw [read, readChecked, taken]
  rfl

theorem read_ok_iff (headers : List Header) (body : List UInt8) (m : CrashReport) :
    read headers body = .ok m ↔ DeclaresJson headers ∧ body.length ≤ 2097152 ∧
      (∃ rest, Holds "message" m.message body rest) ∧ Fits m.message := by
  have taken := readBody_ok_iff format headers body m
  rw [readLeading_ok_iff] at taken
  rw [← keeps_iff]
  constructor
  · intro result
    cases found : readBody format headers body with
    | error p =>
      rw [read, readChecked, found] at result
      exact absurd result (by simp [bind, Except.bind])
    | ok n =>
      rw [read_taken found] at result
      split at result
      · rename_i kept
        obtain rfl := Except.ok.inj result
        obtain ⟨declared, short, holds⟩ := taken.mp found
        exact ⟨declared, short, holds, kept⟩
      · exact absurd result (by simp)
  · rintro ⟨declared, short, holds, kept⟩
    rw [read_taken (taken.mpr ⟨declared, short, holds⟩), if_pos kept]

theorem read_fault (declared : DeclaresJson headers) (short : body.length ≤ 2097152)
    (unread : ¬ ∃ s rest, Holds "message" s body rest) :
    ∃ fault : Fault, (fault.cause.kind = .misfit ↔ Misses "message" body) ∧
      Refused (read headers body) (if fault.cause.kind = .misfit then 422 else 400) none := by
  cases failed : format.readLeading body with
  | ok m =>
    obtain ⟨rest, holds⟩ := (readLeading_ok_iff body m).mp failed
    exact absurd ⟨m.message, rest, holds⟩ unread
  | error fault =>
    refine ⟨fault, ?_, read_refused (readBody_fault declared short failed)⟩
    rw [← readLeading_misfit_iff, failed, misfit_error_iff]

theorem read_unfit (declared : DeclaresJson headers) (short : body.length ≤ 2097152) {s : String}
    {rest : List UInt8} (holds : Holds "message" s body rest) (unfit : ¬ Fits s) :
    Refused (read headers body) 400 (some ["message: Message must be 1-2000 characters"]) := by
  have taken := (readBody_ok_iff format headers body ⟨s⟩).mpr
    ⟨declared, short, (readLeading_ok_iff body ⟨s⟩).mpr ⟨rest, holds⟩⟩
  rw [← keeps_iff] at unfit
  rw [read_taken taken, if_neg unfit]
  exact ⟨_, rfl, rfl, rfl, rfl⟩

theorem read_append {s : String} {rest : List UInt8} (holds : Holds "message" s body rest)
    {more : List UInt8} (short : (body ++ more).length ≤ 2097152) :
    read headers (body ++ more) = read headers body := by
  have same : format.readLeading (body ++ more) = format.readLeading body := by
    rw [(readLeading_ok_iff body ⟨s⟩).mpr ⟨rest, holds⟩]
    exact (readLeading_ok_iff (body ++ more) ⟨s⟩).mpr ⟨rest ++ more, holds.append more⟩
  have within : body.length ≤ greatestBody := by
    rw [List.length_append] at short
    exact Nat.le_trans (Nat.le_add_right _ _) short
  have short : (body ++ more).length ≤ greatestBody := short
  simp only [read, readChecked, readBody, Nat.not_lt_of_le within, Nat.not_lt_of_le short, same]

end Requests

structure Classified (headers : List Header) (body : List UInt8) : Prop where
  accepted : ∀ m, read headers body = .ok m ↔ DeclaresJson headers ∧ body.length ≤ 2097152 ∧
    (∃ rest, Holds "message" m.message body rest) ∧ Fits m.message
  undeclared : ¬ DeclaresJson headers → Refused (read headers body) 415 none
  long : DeclaresJson headers → 2097152 < body.length → Refused (read headers body) 413 none
  misfit : DeclaresJson headers → body.length ≤ 2097152 → Misses "message" body →
    Refused (read headers body) 422 none
  broken : DeclaresJson headers → body.length ≤ 2097152 → ¬ Misses "message" body →
    (¬ ∃ s rest, Holds "message" s body rest) → Refused (read headers body) 400 none
  unfit : DeclaresJson headers → body.length ≤ 2097152 → ∀ s rest, Holds "message" s body rest →
    ¬ Fits s →
    Refused (read headers body) 400 (some ["message: Message must be 1-2000 characters"])
  appended : ∀ s rest more, Holds "message" s body rest → (body ++ more).length ≤ 2097152 →
    read headers (body ++ more) = read headers body

theorem read_classified (headers : List Header) (body : List UInt8) : Classified headers body where
  accepted := read_ok_iff headers body
  undeclared undeclared := read_refused (readBody_undeclared undeclared)
  long declared long := read_refused (readBody_long declared long)
  misfit declared short misses := by
    have unread : ¬ ∃ s rest, Holds "message" s body rest := by
      rintro ⟨s, rest, holds⟩
      exact holds.not_misses misses
    obtain ⟨fault, kind, refused⟩ := read_fault declared short unread
    rwa [if_pos (kind.mpr misses)] at refused
  broken declared short fits unread := by
    obtain ⟨fault, kind, refused⟩ := read_fault declared short unread
    rwa [if_neg (mt kind.mp fits)] at refused
  unfit declared short s rest holds := read_unfit declared short holds
  appended s rest more holds := read_append holds

theorem other_suffix (front : String) :
    "application/json+xml" ≠ "application/" ++ front ++ "+json" := by
  intro same
  have last := congrArg (fun s => s.toList.getLast?) same
  have own : "application/json+xml".toList.getLast? = some 'l' := by decide
  have other : "+json".toList.getLast? = some 'n' := by decide
  simp only [String.toList_append, List.getLast?_append, own, other] at last
  exact absurd last (by simp)

/-- Behind `json` any suffix will do, and nothing but a semicolon. A number beyond the range of
floats breaks the text, though its shape is certain. -/
theorem read_beyond_types :
    (∀ front, "application/json+xml" ≠ "application/" ++ front ++ "+json") ∧
    read [.ofText "content-type" "application/json+xml"]
      (Utf8.encode "\x7b\"message\":\"m\"\x7d") = .ok ⟨"m"⟩ ∧
    Refused (read [.ofText "content-type" "application/json ; charset=utf-8"]
      (Utf8.encode "\x7b\"message\":\"m\"\x7d")) 415 none ∧
    Refused (read [.ofText "content-type" "application/json"]
      (Utf8.encode "\x7b\"message\":1e999\x7d")) 400 none := by
  refine ⟨other_suffix, by decide +kernel, ?_, ?_⟩
  · refine read_refused (readBody_undeclared ?_)
    rw [← bodyIsJson_iff]
    decide +kernel
  · have broken : read [.ofText "content-type" "application/json"]
        (Utf8.encode "\x7b\"message\":1e999\x7d") = .error (refuseBody .badRequest
          ("Failed to parse the request body as JSON: " ++
            "message: number out of range at line 1 column 16")) := by
      decide +kernel
    exact ⟨_, broken, rfl, rfl, rfl⟩

end CrashReport

end TenantGate.Api
