import TenantGate.Failure

/-!
Calls: steps that may fail and that change a state of type `σ` either way. What a failing step has
done to the state stays done.
-/
namespace TenantGate

def Call (σ α : Type) : Type := σ → Except Failure α × σ

namespace Call

variable {σ τ α β : Type}

def done (a : α) : Call σ α := fun s => (.ok a, s)

def fail (f : Failure) : Call σ α := fun s => (.error f, s)

def andThen (first : Call σ α) (second : α → Call σ β) : Call σ β := fun s =>
  match first s with
  | (.ok a, s) => second a s
  | (.error f, s) => (.error f, s)

instance : Monad (Call σ) where
  pure := done
  bind := andThen

def change (f : σ → σ) : Call σ Unit := fun s => (.ok (), f s)

def ofExcept : Except Failure α → Call σ α
  | .ok a => done a
  | .error f => fail f

def onPart (part : τ → σ) (put : σ → τ → τ) (call : Call σ α) : Call τ α := fun t =>
  let (result, s) := call (part t)
  (result, put s t)

theorem bind_eq (first : Call σ α) (second : α → Call σ β) :
    (first >>= second) = first.andThen second := rfl

theorem bind_of_ok {first : Call σ α} {s : σ} {a : α} (second : α → Call σ β)
    (answer : (first s).1 = .ok a) : (first >>= second) s = second a (first s).2 := by
  simp only [bind_eq, andThen]
  split
  · rename_i same
    simp only [same, Except.ok.injEq] at answer
    simp only [same, answer]
  · rename_i same
    simp [same] at answer

theorem bind_of_error {first : Call σ α} {s : σ} {f : Failure} (second : α → Call σ β)
    (answer : (first s).1 = .error f) : (first >>= second) s = (.error f, (first s).2) := by
  simp only [bind_eq, andThen]
  split
  · rename_i same
    simp [same] at answer
  · rename_i same
    simp only [same, Except.error.injEq] at answer
    simp only [same, answer]

theorem bind_pure_apply (first : Call σ α) (f : α → β) (s : σ) :
    (first >>= fun a => pure (f a)) s = ((first s).1.map f, (first s).2) := by
  cases answer : (first s).1 with
  | ok a => rw [bind_of_ok _ answer]; rfl
  | error failure => rw [bind_of_error _ answer]; rfl

end Call

end TenantGate
