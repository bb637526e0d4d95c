import TenantGate.Proofs.Alike

/-!
What happens while requests are served: which service is asked what and how it answers, and which
requests reach a handler. Services and handlers can be made to note this beside the state of the
services, and a host with such services and handlers answers as it does without the notes.
-/
namespace TenantGate

open Gate Api

variable {σ α : Type}

namespace Gate

inductive Event where
  | introspection (token : String) (answer : Except Failure Auth.Introspection)
  | memberships (caller : Caller) (userId : String) (answer : Except Failure User)
  | settings (caller : Caller) (tenantId : String) (answer : Except Failure Settings)
  | handling (inbound : Inbound)

namespace Event

def isMemberships : Event → Bool
  | .memberships .. => true
  | _ => false

def isHandling : Event → Bool
  | .handling _ => true
  | _ => false

def inbound? : Event → Option Inbound
  | .handling inbound => some inbound
  | _ => none

end Event

structure Noted (σ : Type) where
  state : σ
  events : List Event

end Gate

def Call.noting (note : Except Failure α → Event) (call : Call σ α) : Call (Noted σ) α := fun n =>
  ((call n.state).1, ⟨(call n.state).2, n.events ++ [note (call n.state).1]⟩)

namespace Gate

def Site.withServices {τ : Type} (services : τ) (site : Site σ) : Site τ :=
  ⟨site.metrics, site.health, site.now, services⟩

def Site.noting (site : Site σ) : Site (Noted σ) := site.withServices ⟨site.services, []⟩

def Site.forget (site : Site (Noted σ)) : Site σ := site.withServices site.services.state

def Collaborators.noting (services : Collaborators σ) : Collaborators (Noted σ) where
  memberships caller id cancelled :=
    (services.memberships caller id cancelled).noting (.memberships caller id)
  settings caller id cancelled :=
    (services.settings caller id cancelled).noting (.settings caller id)

def Services.noting (services : Services σ) : Services (Noted σ) where
  toCollaborators := services.toCollaborators.noting
  introspect token := (services.introspect token).noting (.introspection token)
  isValid := services.isValid

def notingHandler (handler : Handler σ) : Handler (Noted σ) := fun inbound site =>
  let (response, after) := handler inbound site.forget
  (response, after.withServices ⟨after.services, site.services.events ++ [.handling inbound]⟩)

def notingMount (m : Mount (Handler σ)) : Mount (Handler (Noted σ)) :=
  ⟨m.path, m.method, notingHandler m.handler⟩

def notingRegistry (registry : Registry (Handler σ)) : Registry (Handler (Noted σ)) :=
  ⟨registry.table, registry.handlers.map notingMount⟩

def Forgets (noted : Noted σ) (state : σ) : Prop := noted.state = state

theorem noting_alike (note : Except Failure α → Event) (call : Call σ α) :
    Call.Alike Forgets (call.noting note) call := by
  intro n s same
  subst same
  exact ⟨rfl, rfl⟩

theorem noting_collaborators_alike (services : Collaborators σ) :
    Collaborators.Alike Forgets services.noting services :=
  ⟨fun _ _ _ => noting_alike _ _, fun _ _ _ => noting_alike _ _⟩

theorem noting_services_alike (services : Services σ) :
    Services.Alike Forgets services.noting services :=
  ⟨noting_collaborators_alike services.toCollaborators, fun _ => noting_alike _ _, rfl⟩

theorem noting_site_alike (site : Site σ) : Site.Alike Forgets site.noting site :=
  ⟨rfl, rfl, rfl, rfl⟩

theorem forget_of_alike {noted : Site (Noted σ)} {site : Site σ}
    (same : Site.Alike Forgets noted site) : noted.forget = site := by
  obtain ⟨metrics, health, now, services⟩ := same
  cases site
  simp_all [Site.forget, Site.withServices, Forgets]

theorem noting_handler_alike (handler : Handler σ) :
    HandlersAlike Forgets (notingHandler handler) handler := by
  intro inbound noted site same
  have same := forget_of_alike same
  subst same
  exact ⟨rfl, rfl, rfl, rfl, rfl⟩

theorem noting_registry_alike (registry : Registry (Handler σ)) :
    RegistriesAlike Forgets (notingRegistry registry) registry := by
  refine ⟨rfl, ?_⟩
  simp only [notingRegistry]
  induction registry.handlers with
  | nil => exact .nil
  | cons m rest ih => exact .cons ⟨rfl, rfl, noting_handler_alike m.handler⟩ ih

theorem noting_serve (registry : Registry (Handler σ)) (services : Services σ) (took : Durations)
    (request : Http.Request) (site : Site σ) :
    (Host.serve (notingRegistry registry) services.noting took request site.noting).1 =
        (Host.serve registry services took request site).1 ∧
      (Host.serve (notingRegistry registry) services.noting took request site.noting).2.forget =
        (Host.serve registry services took request site).2 := by
  obtain ⟨response, left⟩ := Host.alike_serve (noting_registry_alike registry)
    (noting_services_alike services) took request (noting_site_alike site)
  exact ⟨response, forget_of_alike left⟩

end Gate

end TenantGate
