import Mathlib.Algebra.GroupWithZero.Nat

/-!
Work in turns. Pieces of work arrive at any time and take their steps in any order on something that
they share, and between the steps other things happen to it. What no step and nothing else breaks
holds after every run.
-/
namespace TenantGate

variable {α κ σ ε : Type}

structure Work (α κ σ ε : Type) where
  start : α → κ
  step : κ → σ → κ × σ
  outside : ε → σ → σ

inductive Turn (α ε : Type) where
  | arrival (a : α)
  | step (number : Nat)
  | outside (e : ε)

structure Floor (κ σ : Type) where
  pieces : List κ
  shared : σ

def Turn.isStep (number : Nat) : Turn α ε → Bool
  | .step other => other == number
  | _ => false

def Turn.arrival? : Turn α ε → Option α
  | .arrival a => some a
  | _ => none

namespace Work

def turn (work : Work α κ σ ε) (floor : Floor κ σ) : Turn α ε → Floor κ σ
  | .arrival a => ⟨floor.pieces ++ [work.start a], floor.shared⟩
  | .step number =>
    match floor.pieces[number]? with
    | none => floor
    | some piece =>
      let (piece, shared) := work.step piece floor.shared
      ⟨floor.pieces.set number piece, shared⟩
  | .outside e => ⟨floor.pieces, work.outside e floor.shared⟩

def run (work : Work α κ σ ε) (shared : σ) (turns : List (Turn α ε)) : Floor κ σ :=
  turns.foldl work.turn ⟨[], shared⟩

/-- What a piece of work and all others keep true of what is shared, and of each piece beside it. -/
structure Keeps (work : Work α κ σ ε) (common : σ → Prop) (own : σ → κ → Prop) : Prop where
  starts : ∀ a s, common s → own s (work.start a)
  steps : ∀ piece s, common s → own s piece →
    common (work.step piece s).2 ∧ own (work.step piece s).2 (work.step piece s).1
  others : ∀ piece other s, common s → own s piece → own s other →
    own (work.step piece s).2 other
  outside : ∀ e s, common s →
    common (work.outside e s) ∧ ∀ piece, own s piece → own (work.outside e s) piece

def Holds (common : σ → Prop) (own : σ → κ → Prop) (floor : Floor κ σ) : Prop :=
  common floor.shared ∧ ∀ piece ∈ floor.pieces, own floor.shared piece

variable {work : Work α κ σ ε} {common : σ → Prop} {own : σ → κ → Prop}

theorem Keeps.turn (keeps : work.Keeps common own) {floor : Floor κ σ}
    (holds : Holds common own floor) (turn : Turn α ε) :
    Holds common own (work.turn floor turn) := by
  obtain ⟨together, each⟩ := holds
  cases turn with
  | arrival a =>
    refine ⟨together, ?_⟩
    intro piece among
    rcases List.mem_append.mp among with before | last
    · exact each piece before
    · rw [List.mem_singleton.mp last]
      exact keeps.starts a _ together
  | step number =>
    simp only [Work.turn]
    split
    · exact ⟨together, each⟩
    · rename_i piece found
      have mine := each piece (List.mem_of_getElem? found)
      have after := keeps.steps piece floor.shared together mine
      refine ⟨after.1, ?_⟩
      intro other among
      rcases List.mem_or_eq_of_mem_set among with before | rfl
      · exact keeps.others piece other _ together mine (each other before)
      · exact after.2
  | outside e =>
    have after := keeps.outside e floor.shared together
    exact ⟨after.1, fun piece among => after.2 piece (each piece among)⟩

theorem Keeps.run (keeps : work.Keeps common own) {shared : σ} (start : common shared)
    (turns : List (Turn α ε)) : Holds common own (work.run shared turns) := by
  have from_any (floor : Floor κ σ) (holds : Holds common own floor) :
      Holds common own (turns.foldl work.turn floor) := by
    induction turns generalizing floor with
    | nil => exact holds
    | cons turn turns ih => exact ih _ (keeps.turn holds turn)
  exact from_any _ ⟨start, fun _ among => absurd among List.not_mem_nil⟩

theorem sum_map_set {measure : κ → Nat} {pieces : List κ} {number : Nat} {old new : κ} {k : Nat}
    (here : pieces[number]? = some old) (grown : measure new = measure old + k) :
    ((pieces.set number new).map measure).sum = (pieces.map measure).sum + k := by
  induction pieces generalizing number with
  | nil => exact absurd here (by simp)
  | cons piece pieces ih =>
    cases number with
    | zero =>
      obtain rfl : piece = old := by simpa using here
      simp only [List.set_cons_zero, List.map_cons, List.sum_cons, grown]
      omega
    | succ number =>
      simp only [List.set_cons_succ, List.map_cons, List.sum_cons]
      rw [ih (by simpa using here)]
      omega

/-- What each step adds to its piece of work and to what is shared adds up: the number that is
shared is that of all pieces together, as far as it does not wrap. -/
theorem Keeps.total (keeps : work.Keeps common own) (measure : κ → Nat) (shown : σ → UInt64)
    (starts : ∀ a, measure (work.start a) = 0)
    (steps : ∀ piece s, common s → own s piece → ∃ k,
      measure (work.step piece s).1 = measure piece + k ∧
        shown (work.step piece s).2 = shown s + UInt64.ofNat k)
    (outside : ∀ e s, shown (work.outside e s) = shown s) {shared : σ} (start : common shared)
    (turns : List (Turn α ε)) :
    shown (work.run shared turns).shared =
      shown shared + UInt64.ofNat (((work.run shared turns).pieces.map measure).sum) := by
  have from_any (floor : Floor κ σ) (holds : Holds common own floor)
      (total : shown floor.shared = shown shared + UInt64.ofNat ((floor.pieces.map measure).sum)) :
      shown (turns.foldl work.turn floor).shared =
        shown shared +
          UInt64.ofNat (((turns.foldl work.turn floor).pieces.map measure).sum) := by
    induction turns generalizing floor with
    | nil => exact total
    | cons turn turns ih =>
      refine ih _ (keeps.turn holds turn) ?_
      cases turn with
      | arrival a => simpa [Work.turn, starts] using total
      | outside e => exact (outside e floor.shared).trans total
      | step number =>
        cases here : floor.pieces[number]? with
        | none => simpa only [Work.turn, here] using total
        | some piece =>
          obtain ⟨k, grown, added⟩ := steps piece floor.shared holds.1
            (holds.2 piece (List.mem_of_getElem? here))
          simp only [Work.turn, here]
          rw [added, total, sum_map_set here grown, UInt64.ofNat_add, UInt64.add_assoc]
  exact from_any ⟨[], shared⟩ ⟨start, fun _ among => absurd among List.not_mem_nil⟩
    (UInt64.add_zero _).symm

/-- What no step changes of a piece of work shows which arrival it is: none is lost, and none is
there twice. -/
theorem pieces_of_run {β : Type} {seen : κ → β} {given : α → β}
    (starts : ∀ a, seen (work.start a) = given a)
    (steps : ∀ piece s, seen (work.step piece s).1 = seen piece) (shared : σ)
    (turns : List (Turn α ε)) :
    (work.run shared turns).pieces.map seen = (turns.filterMap Turn.arrival?).map given := by
  have from_any (floor : Floor κ σ) : (turns.foldl work.turn floor).pieces.map seen =
      floor.pieces.map seen ++ (turns.filterMap Turn.arrival?).map given := by
    induction turns generalizing floor with
    | nil => exact (List.append_nil _).symm
    | cons turn turns ih =>
      rw [List.foldl_cons, ih]
      cases turn with
      | arrival a =>
        simp only [Work.turn, List.map_append, List.map_cons, List.map_nil, starts,
          List.filterMap_cons, Turn.arrival?, List.append_assoc, List.singleton_append]
      | outside e => rfl
      | step number =>
        have kept : (work.turn floor (.step number)).pieces.map seen = floor.pieces.map seen := by
          simp only [Work.turn]
          split
          · rfl
          · rename_i piece found
            obtain ⟨bound, rfl⟩ := List.getElem?_eq_some_iff.mp found
            have there : number < (floor.pieces.map seen).length := by
              rw [List.length_map]
              exact bound
            have same := List.set_getElem_self there
            rw [List.getElem_map] at same
            rw [List.map_set, steps, same]
        rw [kept]
        rfl
  exact from_any ⟨[], shared⟩

inductive Reaches (work : Work α κ σ ε) : κ × σ → κ × σ → Prop where
  | here (k : κ × σ) : Reaches work k k
  | step {piece : κ} {s : σ} {there : κ × σ} (rest : Reaches work (work.step piece s) there) :
      Reaches work (piece, s) there

theorem Reaches.trans {first second third : κ × σ} (reaches : work.Reaches first second)
    (rest : work.Reaches second third) : work.Reaches first third := by
  induction reaches with
  | here k => exact rest
  | step _ ih => exact .step (ih rest)

theorem Reaches.run {a : α} {shared shared' : σ} {piece : κ}
    (reaches : work.Reaches (work.start a, shared) (piece, shared')) :
    ∃ steps, work.run shared (.arrival a :: List.replicate steps (.step 0)) =
      ⟨[piece], shared'⟩ := by
  have from_any {here there : κ × σ} (reaches : work.Reaches here there) :
      ∃ steps, (List.replicate steps (.step 0)).foldl work.turn ⟨[here.1], here.2⟩ =
        ⟨[there.1], there.2⟩ := by
    induction reaches with
    | here k => exact ⟨0, rfl⟩
    | step _ ih =>
      obtain ⟨steps, there⟩ := ih
      exact ⟨steps + 1, there⟩
  exact from_any reaches

/-- Whatever it finds, a piece of work is finished after so many of its own steps. -/
def EndsIn (work : Work α κ σ ε) (finished : κ → Prop) : Nat → κ → Prop
  | 0, piece => finished piece
  | m + 1, piece => ∀ s, work.EndsIn finished m (work.step piece s).1

section Ends

variable {finished : κ → Prop} (stays : ∀ piece s, finished piece → finished (work.step piece s).1)
include stays

theorem EndsIn.succ {m : Nat} {piece : κ} (ends : work.EndsIn finished m piece) :
    work.EndsIn finished (m + 1) piece := by
  induction m generalizing piece with
  | zero => exact fun s => stays piece s ends
  | succ m ih => exact fun s => ih (ends s)

theorem EndsIn.mono {m m' : Nat} {piece : κ} (ends : work.EndsIn finished m piece) (le : m ≤ m') :
    work.EndsIn finished m' piece := by
  induction le with
  | refl => exact ends
  | step _ ih => exact ih.succ stays

theorem EndsIn.turns {m number : Nat} {floor : Floor κ σ} {piece : κ}
    (here : floor.pieces[number]? = some piece) (ends : work.EndsIn finished m piece)
    (turns : List (Turn α ε)) (enough : m ≤ turns.countP (Turn.isStep number)) :
    ∃ piece', (turns.foldl work.turn floor).pieces[number]? = some piece' ∧ finished piece' := by
  induction turns generalizing floor piece m with
  | nil =>
    obtain rfl : m = 0 := Nat.le_zero.mp enough
    exact ⟨piece, here, ends⟩
  | cons turn turns ih =>
    rw [List.foldl_cons]
    cases turn with
    | arrival a =>
      refine ih ?_ ends (by simpa [Turn.isStep] using enough)
      exact (List.getElem?_append_left (List.getElem?_eq_some_iff.mp here).1).trans here
    | outside e => exact ih here ends (by simpa [Turn.isStep] using enough)
    | step other =>
      by_cases own : other = number
      · subst own
        have after : (work.turn floor (.step other)).pieces[other]? =
            some (work.step piece floor.shared).1 := by
          simp only [Work.turn, here]
          exact List.getElem?_set_self (List.getElem?_eq_some_iff.mp here).1
        have enough : m ≤ turns.countP (Turn.isStep other) + 1 := by
          simpa [Turn.isStep] using enough
        refine ih (m := m - 1) after ?_ (by omega)
        cases m with
        | zero => exact stays piece _ ends
        | succ m => exact ends _
      · have untouched : (work.turn floor (.step other)).pieces[number]? = some piece := by
          simp only [Work.turn]
          split
          · exact here
          · exact (List.getElem?_set_ne own).trans here
        exact ih untouched ends (by simpa [Turn.isStep, own] using enough)

end Ends

end Work

end TenantGate
