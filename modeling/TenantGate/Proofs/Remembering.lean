import TenantGate.Proofs.Asking

/-!
Answers that are remembered, on their way in steps: an answer is looked up, asked for and kept, and
in between others use the same memory. Every answer that is kept was told in one of the requests
that have been sent, for the key under which it is found.
-/
namespace TenantGate

open Gate Api Net Auth Service

variable {ν σ τ α γ : Type}

namespace Service

/-- The request was made of the draft, and what came of it reads so. -/
def Tells (draft : Draft)
    (received : Except SendFault (Http.Status × List UInt8) → Except Failure α) (a : α)
    (x : Exchange) : Prop :=
  draft.build = .ok x.request ∧ received (x.delivery.sent x.request) = .ok a

/-- An answer comes from one of the requests that were sent, which are those from before and
more. -/
def Honest (tells : α → Exchange → Prop) (call : Call (ν × List Exchange) α) : Prop :=
  ∀ n, n.2 ⊆ (call n).2.2 ∧ ∀ a, (call n).1 = .ok a → ∃ x ∈ (call n).2.2, tells a x

theorem Honest.imp {tells tells' : α → Exchange → Prop} {call : Call (ν × List Exchange) α}
    (honest : Honest tells call) (weaker : ∀ a x, tells a x → tells' a x) : Honest tells' call := by
  intro n
  obtain ⟨grows, told⟩ := honest n
  refine ⟨grows, fun a answered => ?_⟩
  obtain ⟨x, among, tells⟩ := told a answered
  exact ⟨x, among, weaker a x tells⟩

theorem honest_send {network : Network ν} {draft : Draft}
    {received : Except SendFault (Http.Status × List UInt8) → Except Failure α}
    (fails : ∀ f a, received (.error f) ≠ .ok a) :
    Honest (Tells draft received) fun n =>
      (received (network.noting.send draft n).1, (network.noting.send draft n).2) := by
  rintro ⟨n, exchanges⟩
  cases built : draft.build with
  | error f =>
    simp only [send_unbuilt built]
    exact ⟨List.Subset.refl _, fun a told => absurd told (fails f a)⟩
  | ok request =>
    simp only [send_built built, Network.noting]
    refine ⟨List.subset_append_left _ _, fun a told => ?_⟩
    exact ⟨_, List.mem_append_right _ (List.mem_singleton_self _), built, told⟩

theorem honest_ask (network : Network ν) (identity : Identity) (token : String) :
    Honest (Tells (question identity token) Identity.received)
      (identity.ask network.noting token) := by
  have sent : identity.ask network.noting token = fun n =>
      (Identity.received (network.noting.send (question identity token) n).1,
        (network.noting.send (question identity token) n).2) :=
    funext fun n => Identity.ask_eq network.noting identity token n
  rw [sent]
  exact honest_send fun f a told => absurd told (by simp [Identity.received])

theorem honest_getJson (network : Network ν) (c : Client) (format : Json.Format α)
    (caller : Caller) (segments : List String) (cancelled : Bool) :
    Honest (Tells (c.draft caller segments) (c.received format segments))
      (c.getJson network.noting format caller segments cancelled) := by
  cases cancelled with
  | true =>
    rw [Client.getJson_cancelled]
    exact fun n => ⟨List.Subset.refl _, fun a told => absurd told (by simp [Call.fail])⟩
  | false =>
    have sent : c.getJson network.noting format caller segments false = fun n =>
        (c.received format segments (network.noting.send (c.draft caller segments) n).1,
          (network.noting.send (c.draft caller segments) n).2) :=
      funext fun n => Client.getJson_going network.noting c format caller segments n
    rw [sent]
    exact honest_send fun f a told => absurd told (by simp [Client.received])

inductive Recall (α : Type) where
  | look
  | ask
  | keep (a : α)
  | known (a : α)

namespace Recall

def step (key : String) (call : Call σ α) : Recall α → Call (Cache α × σ) (Recall α)
  | look => fun (cache, s) =>
    match cache.lookup key with
    | some a => (.ok (known a), (cache, s))
    | none => (.ok ask, (cache, s))
  | ask => fun (cache, s) =>
    match call s with
    | (.ok a, s) => (.ok (keep a), (cache, s))
    | (.error f, s) => (.error f, (cache, s))
  | keep a => fun (cache, s) => (.ok (known a), (insertEntry key a cache, s))
  | known a => Call.done (known a)

def advance (call : Call τ (Recall α)) (wait : Recall α → γ) (told : Except Failure α → γ) (t : τ) :
    γ × τ :=
  match call t with
  | (.ok (known a), t) => (told (.ok a), t)
  | (.ok stage, t) => (wait stage, t)
  | (.error f, t) => (told (.error f), t)

theorem advance_map {δ : Type} (f : γ → δ) (call : Call τ (Recall α)) (wait : Recall α → γ)
    (told : Except Failure α → γ) (t : τ) :
    (f (advance call wait told t).1, (advance call wait told t).2) =
      advance call (fun stage => f (wait stage)) (fun answer => f (told answer)) t := by
  simp only [advance]
  rcases call t with ⟨_ | stage, _⟩
  · rfl
  · cases stage <;> rfl

theorem reaches_remembered {ι ε : Type} (work : Work ι γ τ ε) (get : τ → Cache α × σ)
    (put : Cache α × σ → τ → τ) (put_get : ∀ t, put (get t) t = t)
    (get_put : ∀ s t, get (put s t) = s) (put_put : ∀ s s' t, put s (put s' t) = put s t)
    (key : String) (call : Call σ α) {wait : Recall α → γ} {told : Except Failure α → γ}
    (steps : ∀ stage t, work.step (wait stage) t =
      advance ((stage.step key call).onPart get put) wait told t) (t : τ) :
    work.Reaches (wait look, t)
      (told ((remembered key call).onPart get put t).1,
        ((remembered key call).onPart get put t).2) := by
  apply Work.Reaches.step
  rw [steps]
  simp only [advance, Call.onPart, step, remembered]
  cases held : (get t).1.lookup key with
  | some a => exact .here _
  | none =>
    simp only
    rw [put_get]
    apply Work.Reaches.step
    rw [steps]
    simp only [advance, Call.onPart, step]
    rcases called : call (get t).2 with ⟨f | a, s⟩
    · exact .here _
    · apply Work.Reaches.step
      rw [steps]
      simp only [advance, Call.onPart, step, get_put, put_put]
      exact .here _

theorem endsIn_look {ι ε : Type} {work : Work ι γ τ ε} {finished : γ → Prop}
    (stays : ∀ piece s, finished piece → finished (work.step piece s).1) {get : τ → Cache α × σ}
    {put : Cache α × σ → τ → τ} {key : String} {call : Call σ α} {wait : Recall α → γ}
    {told : Except Failure α → γ}
    (steps : ∀ stage t, work.step (wait stage) t =
      advance ((stage.step key call).onPart get put) wait told t) {m : Nat}
    (ends : ∀ answer, work.EndsIn finished m (told answer)) :
    work.EndsIn finished (m + 3) (wait look) := by
  have keeps (a : α) : work.EndsIn finished (m + 1) (wait (keep a)) := by
    intro t
    rw [steps]
    exact ends _
  have asks : work.EndsIn finished (m + 2) (wait ask) := by
    intro t
    rw [steps]
    simp only [advance, Call.onPart, step]
    rcases call (get t).2 with ⟨f | a, s⟩
    · exact (ends _).succ stays
    · exact keeps a
  intro t
  rw [steps]
  simp only [advance, Call.onPart, step]
  cases (get t).1.lookup key with
  | some a => exact ((ends _).succ stays).succ stays
  | none => exact asks

/-- What is going to be kept was told, too. -/
def Sound (tells : α → Exchange → Prop) (exchanges : List Exchange) : Recall α → Prop
  | keep a | known a => ∃ x ∈ exchanges, tells a x
  | _ => True

/-- Every answer that is remembered was told for its key. -/
def Sourced (tells : String → α → Exchange → Prop) (cache : Cache α) (exchanges : List Exchange) :
    Prop :=
  ∀ key a, cache.lookup key = some a → ∃ x ∈ exchanges, tells key a x

theorem Sound.mono {tells : α → Exchange → Prop} {exchanges more : List Exchange}
    {stage : Recall α} (sound : stage.Sound tells exchanges) (within : exchanges ⊆ more) :
    stage.Sound tells more := by
  cases stage with
  | look => trivial
  | ask => trivial
  | keep a | known a =>
    obtain ⟨x, among, told⟩ := sound
    exact ⟨x, within among, told⟩

theorem Sourced.mono {tells : String → α → Exchange → Prop} {cache : Cache α}
    {exchanges more : List Exchange} (sourced : Sourced tells cache exchanges)
    (within : exchanges ⊆ more) : Sourced tells cache more := by
  intro key a held
  obtain ⟨x, among, told⟩ := sourced key a held
  exact ⟨x, within among, told⟩

theorem Sourced.forget {tells : String → α → Exchange → Prop} {cache : Cache α}
    {exchanges : List Exchange} (sourced : Sourced tells cache exchanges) (kept : String → Bool) :
    Sourced tells (cache.filter fun e => kept e.1) exchanges := by
  intro key a held
  rw [lookup_filter] at held
  split at held
  · exact sourced key a held
  · exact absurd held (by simp)

theorem step_sound {tells : String → α → Exchange → Prop} {key : String}
    {call : Call (ν × List Exchange) α} (honest : Honest (tells key) call) {cache : Cache α}
    {n : ν × List Exchange} (sourced : Sourced tells cache n.2) {stage : Recall α}
    (sound : stage.Sound (tells key) n.2) :
    n.2 ⊆ (stage.step key call (cache, n)).2.2.2 ∧
      Sourced tells (stage.step key call (cache, n)).2.1
        (stage.step key call (cache, n)).2.2.2 ∧
      ∀ next, (stage.step key call (cache, n)).1 = .ok next →
        next.Sound (tells key) (stage.step key call (cache, n)).2.2.2 := by
  cases stage with
  | look =>
    simp only [step]
    cases held : cache.lookup key with
    | some a =>
      refine ⟨List.Subset.refl _, sourced, ?_⟩
      rintro next ⟨⟩
      exact sourced key a held
    | none =>
      refine ⟨List.Subset.refl _, sourced, ?_⟩
      rintro next ⟨⟩
      trivial
  | ask =>
    obtain ⟨grows, told⟩ := honest n
    simp only [step]
    rcases called : call n with ⟨f | a, n'⟩
    · rw [called] at grows
      refine ⟨grows, sourced.mono grows, ?_⟩
      rintro next ⟨⟩
    · rw [called] at grows told
      refine ⟨grows, sourced.mono grows, ?_⟩
      rintro next ⟨⟩
      exact told a rfl
  | keep a =>
    refine ⟨List.Subset.refl _, ?_, ?_⟩
    -- Another request may have kept an answer for this key by now. The one that takes its place was
    -- told for the same key, which is all that is said of either.
    · intro other b held
      simp only [step, lookup_insertEntry] at held
      split at held
      · rename_i same
        rw [same, ← Option.some.inj held]
        exact sound
      · exact sourced other b held
    · rintro next ⟨⟩
      exact sound
  | known a =>
    refine ⟨List.Subset.refl _, sourced, ?_⟩
    rintro next ⟨⟩
    exact sound

end Recall

end Service

end TenantGate
