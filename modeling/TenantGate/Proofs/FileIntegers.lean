import TenantGate.Proofs.Numerals
import TenantGate.Startup.Toml

/-!
Every integer that a configuration file gives a top-level key has 64 bits: the reader of words lets
no other pass, and whatever else is done to the entries of a file keeps the values there are.
-/
namespace TenantGate.Startup.Toml

open Decimal (IsInt64)

def Fits (v : Value) : Prop := ∀ i, v = .integer i → IsInt64 i

/-- Of tables and lists nothing is said; what they hold is not looked at. -/
def Node.Fits (node : Node) : Prop := ∀ v, node = .value v → Toml.Fits v

def AllFit (entries : Entries) : Prop := ∀ entry ∈ entries, entry.2.Fits

theorem integer?_fits {cs : List Char} {i : Int} (read : integer? cs = some i) : IsInt64 i := by
  have within {ds? : Option (List Nat)} {number : List Nat → Int}
      (read : (ds?.bind fun ds => if -0x8000000000000000 ≤ number ds &&
        number ds < 0x8000000000000000 then some (number ds) else none) = some i) : IsInt64 i := by
    obtain ⟨ds, -, fit⟩ := Option.bind_eq_some_iff.mp read
    split at fit
    · rename_i inside
      cases fit
      simp only [Bool.and_eq_true, decide_eq_true_eq] at inside
      exact ⟨inside.1, by omega⟩
    · cases fit
  unfold integer? at read
  simp only at read
  split at read
  · exact within read
  · exact within read
  · exact within read
  · split at read
    · cases read
    · exact within read

theorem word?_fits {word : List Char} {v : Value} (read : word? word = some v) : Fits v := by
  unfold word? at read
  split at read
  · cases read
    exact nofun
  · split at read
    · cases read
      exact nofun
    · split at read
      · rename_i i integer
        cases read
        rintro _ ⟨rfl⟩
        exact integer?_fits integer
      · split at read
        · cases read
          exact nofun
        · split at read
          · cases read
            exact nofun
          · cases read

theorem value?_fits {fuel : Nat} {cs rest : List Char} {v : Value}
    (read : value? fuel cs = some (v, rest)) : Fits v := by
  cases fuel with
  | zero => cases read
  | succ fuel =>
    rw [value?.eq_def] at read
    simp only at read
    split at read
    · obtain ⟨_, -, same⟩ := Option.map_eq_some_iff.mp read
      cases same
      exact nofun
    · split at read
      · cases read
        exact nofun
      · obtain ⟨_, -, same⟩ := Option.map_eq_some_iff.mp read
        cases same
        exact nofun
    · split at read
      · cases read
        exact nofun
      · obtain ⟨_, word, same⟩ := Option.map_eq_some_iff.mp read
        cases same
        exact word?_fits word

theorem AllFit.put {entries : Entries} (fit : AllFit entries) (key : String) {node : Node}
    (fits : node.Fits) : AllFit (put key node entries) := by
  induction entries with
  | nil => exact List.forall_mem_singleton.mpr fits
  | cons entry more ih =>
    obtain ⟨first, rest⟩ := List.forall_mem_cons.mp fit
    rw [Toml.put]
    split
    · exact List.forall_mem_cons.mpr ⟨fits, rest⟩
    · exact List.forall_mem_cons.mpr ⟨first, ih rest⟩

def Keeps (change : Entries → Option Entries) : Prop :=
  ∀ entries entries', AllFit entries → change entries = some entries' → AllFit entries'

theorem assign?_keeps {v : Value} (fits : Fits v) (keys : List String) : Keeps (assign? v keys) := by
  intro entries entries' fit changed
  unfold assign? at changed
  split at changed
  · cases changed
  · split at changed
    · cases changed
      exact fit.put _ fun | _, rfl => fits
    · cases changed
  · split at changed
    · obtain ⟨_, -, rfl⟩ := Option.map_eq_some_iff.mp changed
      exact fit.put _ nofun
    · split at changed
      · cases changed
      · obtain ⟨_, -, rfl⟩ := Option.map_eq_some_iff.mp changed
        exact fit.put _ nofun
    · obtain ⟨_, -, rfl⟩ := Option.map_eq_some_iff.mp changed
      exact fit.put _ nofun
    · cases changed

theorem openTable?_keeps (key : String) : Keeps (openTable? key) := by
  intro entries entries' fit changed
  unfold openTable? at changed
  split at changed
  · cases changed
    exact fit.put _ nofun
  · cases changed
    exact fit.put _ nofun
  · cases changed

theorem openInList?_keeps (key : String) : Keeps (openInList? key) := by
  intro entries entries' fit changed
  unfold openInList? at changed
  split at changed
  · cases changed
    exact fit.put _ nofun
  · cases changed
    exact fit.put _ nofun
  · cases changed

theorem within?_keeps {change : Entries → Option Entries} (keeps : Keeps change)
    (path : List String) : Keeps (within? change path) := by
  intro entries entries' fit changed
  unfold within? at changed
  split at changed
  · exact keeps entries entries' fit changed
  · split at changed
    · obtain ⟨_, -, rfl⟩ := Option.map_eq_some_iff.mp changed
      exact fit.put _ nofun
    · obtain ⟨_, -, rfl⟩ := Option.map_eq_some_iff.mp changed
      exact fit.put _ nofun
    · obtain ⟨_, -, rfl⟩ := Option.map_eq_some_iff.mp changed
      exact fit.put _ nofun
    · cases changed

theorem statement?_fits {p p' : Progress} {cs rest : List Char} (fit : AllFit p.root)
    (read : statement? p cs = some (p', rest)) : AllFit p'.root := by
  unfold statement? at read
  split at read
  · simp only [Option.bind_eq_bind, Option.bind_eq_some_iff] at read
    obtain ⟨_, -, _, -, read⟩ := read
    split at read
    · obtain ⟨root, changed, same⟩ := Option.bind_eq_some_iff.mp read
      cases same
      exact within?_keeps (openInList?_keeps _) _ _ _ fit changed
    · cases read
  · simp only [Option.bind_eq_bind, Option.bind_eq_some_iff] at read
    obtain ⟨_, -, _, -, read⟩ := read
    split at read
    · obtain ⟨root, changed, same⟩ := Option.bind_eq_some_iff.mp read
      cases same
      exact within?_keeps (openTable?_keeps _) _ _ _ fit changed
    · cases read
  · simp only [Option.bind_eq_bind, Option.bind_eq_some_iff] at read
    obtain ⟨_, -, read⟩ := read
    split at read
    · obtain ⟨⟨v, behind⟩, value, read⟩ := Option.bind_eq_some_iff.mp read
      obtain ⟨root, changed, same⟩ := Option.bind_eq_some_iff.mp read
      cases same
      exact within?_keeps (assign?_keeps (value?_fits value) _) _ _ _ fit changed
    · cases read

theorem statements?_fits {p : Progress} {fuel : Nat} {cs : List Char} {entries : Entries}
    (fit : AllFit p.root) (read : statements? p fuel cs = some entries) : AllFit entries := by
  induction fuel generalizing p cs with
  | zero => cases read
  | succ fuel ih =>
    simp only [statements?, Option.bind_eq_bind, Option.bind_eq_some_iff] at read
    obtain ⟨cs, -, read⟩ := read
    split at read
    · cases read
      exact fit
    · simp only [Option.bind_eq_some_iff] at read
      obtain ⟨⟨p', rest⟩, statement, _, -, read⟩ := read
      exact ih (statement?_fits fit statement) read

theorem parse?_integer {text key : String} {entries : List (String × Value)} {i : Int}
    (read : parse? text = some entries) (given : (key, .integer i) ∈ entries) : IsInt64 i := by
  obtain ⟨root, parsed, rfl⟩ := Option.map_eq_some_iff.mp read
  have fit := statements?_fits (p := ⟨[], []⟩) (List.forall_mem_nil _) parsed
  obtain ⟨⟨k, node⟩, member, same⟩ := List.mem_map.mp given
  cases node with
  | value v =>
    cases same
    exact fit _ member _ rfl _ rfl
  | table kind inner => cases same
  | tables n last => cases same

end TenantGate.Startup.Toml
