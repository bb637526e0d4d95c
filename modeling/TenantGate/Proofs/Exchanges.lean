import TenantGate.Net.Network

/-!
Requests to other services with what became of them, noted beside the state of the network. At most
one request is made of a draft, and none of a draft that cannot be put together.
-/
namespace TenantGate.Net

variable {ν : Type}

structure Exchange where
  request : Outgoing
  delivery : Delivery
deriving Repr

def Network.noting (network : Network ν) : Network (ν × List Exchange) :=
  fun request (n, exchanges) =>
    ((network request n).1,
      ((network request n).2, exchanges ++ [⟨request, (network request n).1⟩]))

def Network.answering (body : String) : Network Unit :=
  fun _ n => (.answered .ok (Utf8.encode body), n)

def exchangesFor (network : Network ν) (draft : Draft) (n : ν) : List Exchange :=
  match draft.build with
  | .error _ => []
  | .ok request => [⟨request, (network request n).1⟩]

theorem send_noting (network : Network ν) (draft : Draft) (n : ν) (exchanges : List Exchange) :
    network.noting.send draft (n, exchanges) =
      ((network.send draft n).1,
        ((network.send draft n).2, exchanges ++ exchangesFor network draft n)) := by
  simp only [Network.send, exchangesFor]
  cases draft.build with
  | error f => simp only [List.append_nil]
  | ok request =>
    simp only [Network.noting]
    rcases network request n with ⟨_ | _, _⟩ <;> rfl

theorem url_of_build {draft : Draft} {request : Outgoing} (built : draft.build = .ok request) :
    ∃ url, draft.url = .ok url ∧ request.url = url.withoutUser ∧
      request.method = draft.method ∧ request.body = draft.body := by
  simp only [Draft.build] at built
  split at built
  · exact absurd built (by simp)
  · rename_i url parsed
    split at built
    · exact absurd built (by simp)
    · split at built
      · exact absurd built (by simp)
      · split at built
        · rw [← Except.ok.inj built]
          exact ⟨url, parsed, rfl, rfl, rfl⟩
        · exact absurd built (by simp)

theorem built_of_exchange {network : Network ν} {draft : Draft} {n : ν} {x : Exchange}
    (sent : x ∈ exchangesFor network draft n) : draft.build = .ok x.request := by
  simp only [exchangesFor] at sent
  split at sent
  · exact absurd sent List.not_mem_nil
  · rename_i built
    rw [List.mem_singleton.mp sent]
    exact built

theorem exchange_of_answer {network : Network ν} {draft : Draft} {n : ν} {status : Http.Status}
    {body : List UInt8} (answered : (network.send draft n).1 = .ok (status, body)) :
    ∃ request, draft.build = .ok request ∧
      exchangesFor network draft n = [⟨request, .answered status body⟩] := by
  simp only [Network.send] at answered
  cases built : draft.build with
  | error f =>
    rw [built] at answered
    exact absurd answered (by simp)
  | ok request =>
    rw [built] at answered
    refine ⟨request, rfl, ?_⟩
    simp only [exchangesFor, built]
    simp only at answered
    rcases delivered : network request n with ⟨_ | ⟨_, _⟩, _⟩
    · rw [delivered] at answered
      exact absurd answered (by simp)
    · rw [delivered] at answered
      simp only [Except.ok.injEq, Prod.mk.injEq] at answered
      rw [answered.1, answered.2]

end TenantGate.Net
