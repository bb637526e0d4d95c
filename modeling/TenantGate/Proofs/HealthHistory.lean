import Mathlib.Data.List.Induction
import TenantGate.Proofs.Probes
import TenantGate.Proofs.WireFormats

/-!
The health of the two collaborators over whole histories of what is noted about them. The last note
about a component counts, and nothing else is left of those before it. The report, the readiness and
the body of the health check are views of that, and none of them says anything else than the others.
-/
namespace TenantGate.Telemetry

open Gate

namespace HealthStatus

theorem wireName_eq (s : HealthStatus) : s.wireName = s.name.toLower := by
  cases s <;> decide +kernel

theorem readWhole_name (s : HealthStatus) :
    format.readWhole (Json.stringText s.name.toLower) = .ok s := by
  rw [← wireName_eq]
  exact lawful.carries.returns s trivial

end HealthStatus

namespace Health

inductive Note where
  | sound
  | broken (message : String)
deriving DecidableEq

def Note.state : Note → ComponentHealth
  | sound => .sound
  | broken message => .broken message

def after (notes : List (Component × Note)) : Health :=
  notes.foldl (fun h (c, note) => h.set c note.state) start

def lastNote (c : Component) (notes : List (Component × Note)) : Option Note :=
  notes.reverse.lookup c

section Steps

variable {h : Health} {c d : Component} {note : Note} {notes : List (Component × Note)}

theorem component_set (h : Health) (c d : Component) (state : ComponentHealth) :
    (h.set c state).component d = if d = c then state else h.component d := by
  cases c <;> cases d <;> rfl

theorem after_concat (notes : List (Component × Note)) (c : Component) (note : Note) :
    after (notes ++ [(c, note)]) = (after notes).set c note.state :=
  List.foldl_concat _ _ _ _

theorem lastNote_concat (notes : List (Component × Note)) (c d : Component) (note : Note) :
    lastNote d (notes ++ [(c, note)]) = if d = c then some note else lastNote d notes := by
  rw [lastNote, List.reverse_append, List.reverse_singleton, List.singleton_append]
  by_cases same : d = c
  · subst same
    rw [List.lookup_cons_self, if_pos rfl]
  · rw [List.lookup_cons, beq_eq_false_iff_ne.mpr same, if_neg same, lastNote]

theorem component_after (notes : List (Component × Note)) (c : Component) :
    (after notes).component c = (lastNote c notes).elim .start Note.state := by
  induction notes using List.reverseRecOn with
  | nil => cases c <;> rfl
  | append_singleton notes last ih =>
    obtain ⟨about, note⟩ := last
    rw [after_concat, component_set, lastNote_concat]
    by_cases same : c = about
    · rw [if_pos same, if_pos same, Option.elim_some]
    · rw [if_neg same, if_neg same, ih]

theorem healthy_iff : ((lastNote c notes).elim .start Note.state).healthy = true ↔
    lastNote c notes = some .sound := by
  rcases lastNote c notes with _ | _ | message
  · exact ⟨nofun, nofun⟩
  · exact ⟨fun _ => rfl, fun _ => rfl⟩
  · exact ⟨nofun, nofun⟩

theorem message_iff (message : String) :
    ((lastNote c notes).elim .start Note.state).message = some message ↔
      lastNote c notes = some (.broken message) := by
  rcases lastNote c notes with _ | _ | held
  · exact ⟨nofun, nofun⟩
  · exact ⟨nofun, nofun⟩
  · simp only [Option.elim_some, Note.state, ComponentHealth.broken, Option.some.injEq,
      Note.broken.injEq]

end Steps

section Views

variable (h : Health)

theorem report_status_healthy_iff : h.report.status = .healthy ↔ h.isReady = true := by
  cases one : h.endUsers.healthy <;> cases other : h.organizations.healthy <;>
    simp [report, HealthStatus.ofComponents, reportOn, component, isReady, one, other]

theorem report_status_serving_iff :
    h.report.status.isServing = true ↔ ∃ c, (h.component c).healthy = true := by
  have any : (∃ c, (h.component c).healthy = true) ↔
      h.endUsers.healthy = true ∨ h.organizations.healthy = true :=
    ⟨fun ⟨c, healthy⟩ => by cases c; exacts [.inl healthy, .inr healthy],
      fun either => either.elim (⟨.endUsers, ·⟩) (⟨.organizations, ·⟩)⟩
  rw [any]
  cases one : h.endUsers.healthy <;> cases other : h.organizations.healthy <;>
    simp [report, HealthStatus.ofComponents, reportOn, component, HealthStatus.isServing, one,
      other]

end Views

end Health

structure HealthBody.Tells (body : HealthBody) (h : Health) : Prop where
  status : HealthStatus.format.readWhole (Json.stringText body.status) = .ok h.report.status
  components : body.components = h.report.components
  endUsers : body.endUsersConnected = (h.component .endUsers).healthy
  organizations : body.organizationsConnected = (h.component .organizations).healthy

theorem HealthBody.ofState_tells (h : Health) (m : Metrics) : (ofState h m).Tells h :=
  ⟨HealthStatus.readWhole_name h.report.status, rfl, rfl, rfl⟩

theorem HealthBody.readWhole_ofState (h : Health) (m : Metrics) :
    format.readWhole (format.write (ofState h m)) = .ok (ofState h m) := by
  apply lawful.carries.returns
  exact Nat.le_of_lt_succ (UInt64.toNat_lt (m.get .tenanciesResolved))

namespace Health

/-- The laws of the health behind a history of notes, and of what a host shows of it. -/
structure Consistent (notes : List (Component × Note)) : Prop where
  healthy : ∀ c, ((after notes).component c).healthy = true ↔ lastNote c notes = some .sound
  message : ∀ c message, ((after notes).component c).message = some message ↔
    lastNote c notes = some (.broken message)
  apart : ∀ c d note, d ≠ c →
    (after (notes ++ [(c, note)])).component d = (after notes).component d
  ready : (after notes).isReady = true ↔ (after notes).report.status = .healthy
  serving : (after notes).report.status.isServing = true ↔
    ∃ c, ((after notes).component c).healthy = true
  components : (after notes).report.components =
    [⟨"end_users", (after notes).endUsers.healthy, (after notes).endUsers.message⟩,
      ⟨"organizations", (after notes).organizations.healthy, (after notes).organizations.message⟩]
  /-- The answer to the health check tells the report, whatever operations there are. -/
  told : ∀ (σ : Type) (testing : Bool) (registry : Api.Registry (Handler σ)),
    registeredOperations testing = .ok registry → ∀ services took (site : Site σ) request,
      site.health = after notes → request.method = .get →
        request.uri.path = Utf8.encode "/health" →
          ∃ body : HealthBody, body.Tells (after notes) ∧ HealthBody.format.readWhole
            (Host.serve registry services took request site).1.body = .ok body
  probed : ∀ (σ : Type) (testing : Bool) (registry : Api.Registry (Handler σ)),
    registeredOperations testing = .ok registry → ∀ services took (site : Site σ) request,
      site.health = after notes → request.method = .get →
        request.uri.path = Utf8.encode "/health/ready" →
          ((Host.serve registry services took request site).1.status = .ok ↔
            (after notes).report.status = .healthy)

/-- Whatever is noted, the last note about a component counts, and all views of the health agree. -/
theorem health_follows_last_notes (notes : List (Component × Note)) : Consistent notes where
  healthy c := by rw [component_after, healthy_iff]
  message c message := by rw [component_after, message_iff]
  apart c d note other := by rw [after_concat, component_set, if_neg other]
  ready := (report_status_healthy_iff _).symm
  serving := report_status_serving_iff _
  components := rfl
  told σ testing registry registered services took site request known asks path := by
    refine ⟨.ofState site.health site.metrics, known ▸ HealthBody.ofState_tells _ _, ?_⟩
    rw [(Host.health_answer registered asks path services took site).2]
    exact HealthBody.readWhole_ofState _ _
  probed σ testing registry registered services took site request known asks path := by
    rw [Host.ready_status registered asks path services took site, known,
      report_status_healthy_iff]
    cases (after notes).isReady <;> decide

/-- A message does not outlive the note it came with. -/
example : (after [(.endUsers, .broken "refused"), (.organizations, .sound),
    (.endUsers, .sound)]).report = ⟨.healthy,
      [⟨"end_users", true, none⟩, ⟨"organizations", true, none⟩]⟩ := by decide

end Health

end TenantGate.Telemetry
