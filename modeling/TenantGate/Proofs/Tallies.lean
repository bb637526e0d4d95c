import Mathlib.Algebra.BigOperators.Fin
import Mathlib.Data.Fintype.Basic
import Mathlib.Data.List.FinRange
import TenantGate.Telemetry.Metrics

/-!
What a histogram says about the values that it was shown. The buckets divide the values among them:
each value belongs to exactly one, which is the one it is counted in. So the tallies are functions
of how often each value occurs, and neither the order of the values nor their division into parts is
seen.
-/
namespace TenantGate.Telemetry.Histogram

def ofValues (values : List UInt64) : Histogram := values.foldl observe empty

/-- The values of a bucket exceed the bound before it, if there is one, and not its own. Those of
the last bucket may also exceed its bound. -/
def Belongs (i : Fin bounds.length) (value : UInt64) : Prop :=
  (0 < i.val → bounds[i.val - 1] < value) ∧
    (value ≤ bounds[i] ∨ i.val + 1 = bounds.length ∧ bounds[i] < value)

instance (i : Fin bounds.length) : DecidablePred (Belongs i) := fun value =>
  inferInstanceAs (Decidable ((0 < i.val → bounds[i.val - 1] < value) ∧
    (value ≤ bounds[i] ∨ i.val + 1 = bounds.length ∧ bounds[i] < value)))

def merge (h h' : Histogram) : Histogram :=
  ⟨List.zipWith (· + ·) h.buckets h'.buckets, h.sum + h'.sum, h.count + h'.count⟩

section Buckets

variable {i j : Fin bounds.length} {value : UInt64}

theorem bounds_mono : ∀ i j : Fin bounds.length, i ≤ j → bounds[i] ≤ bounds[j] := by decide

theorem bucketOf_lt (value : UInt64) : bucketOf value < bounds.length :=
  Nat.lt_of_le_of_lt (Nat.min_le_right _ _) (by decide)

def home (value : UInt64) : Fin bounds.length := ⟨bucketOf value, bucketOf_lt value⟩

theorem belongs_home (value : UInt64) : Belongs (home value) value := by
  have below (k : Nat) (before : k < bounds.findIdx fun bound => value ≤ bound)
      (inside : k < bounds.length) : bounds[k] < value := by
    have exceeded := List.not_of_lt_findIdx before
    simpa only [decide_eq_false_iff_not, UInt64.not_le] using exceeded
  by_cases found : (bounds.findIdx fun bound => value ≤ bound) < bounds.length
  · have here : bucketOf value = bounds.findIdx fun bound => value ≤ bound :=
      Nat.min_eq_left (Nat.le_sub_one_of_lt found)
    have reached := List.findIdx_getElem (w := found)
    refine ⟨fun positive => ?_, .inl ?_⟩
    · exact below _ (by simp only [home] at positive ⊢; omega) _
    · simpa only [home, Fin.getElem_fin, here, decide_eq_true_eq] using reached
  · have last : bucketOf value = bounds.length - 1 := Nat.min_eq_right (by omega)
    have most : 0 < bounds.length := by decide
    refine ⟨fun positive => ?_, .inr ⟨?_, ?_⟩⟩
    · exact below _ (by simp only [home] at positive ⊢; omega) _
    · simp only [home]
      omega
    · exact below _ (by simp only [home]; omega) _

theorem Belongs.not_lt (first : Belongs i value) (second : Belongs j value) : ¬ i < j := by
  intro before
  have above : bounds[j.val - 1] < value := second.1 (by omega)
  have within : value ≤ bounds[i] := by
    rcases first.2 with within | ⟨last, _⟩
    · exact within
    · exact absurd j.isLt (by omega)
  have ordered := bounds_mono i ⟨j.val - 1, by omega⟩ (Nat.le_sub_one_of_lt before)
  exact UInt64.lt_irrefl _
    (UInt64.lt_of_lt_of_le above (UInt64.le_trans within ordered))

theorem belongs_iff : Belongs i value ↔ i = home value := by
  constructor
  · intro belongs
    have home := belongs_home value
    exact Fin.le_antisymm (Fin.not_lt.mp (home.not_lt belongs))
      (Fin.not_lt.mp (belongs.not_lt home))
  · rintro rfl
    exact belongs_home value

end Buckets

section Runs

variable {values values' : List UInt64}

/-- How many of the values belong to a bucket. -/
def occupancy (values : List UInt64) (i : Fin bounds.length) : Nat :=
  values.countP fun value => Belongs i value

/-- What a histogram is to say about some values. -/
def tally (values : List UInt64) : Histogram where
  buckets := (List.finRange bounds.length).map fun i => UInt64.ofNat (occupancy values i)
  sum := UInt64.ofNat (values.map UInt64.toNat).sum
  count := UInt64.ofNat values.length

theorem occupancy_concat (values : List UInt64) (value : UInt64) (i : Fin bounds.length) :
    occupancy (values ++ [value]) i = occupancy values i + if i = home value then 1 else 0 := by
  rw [occupancy, List.countP_append, List.countP_singleton, occupancy]
  simp only [decide_eq_true_eq, belongs_iff]

theorem observe_tally (values : List UInt64) (value : UInt64) :
    (tally values).observe value = tally (values ++ [value]) := by
  have buckets : (tally values).buckets.modify (bucketOf value) (· + 1) =
      (tally (values ++ [value])).buckets := by
    apply List.ext_getElem
    · simp only [tally, List.length_modify, List.length_map]
    · intro k inside inside'
      simp only [tally, List.getElem_modify, List.getElem_map, List.getElem_finRange,
        occupancy_concat, Fin.ext_iff, home, Fin.val_cast]
      by_cases here : bucketOf value = k
      · rw [if_pos here, if_pos here.symm, UInt64.ofNat_add]
        rfl
      · rw [if_neg here, if_neg (Ne.symm here), Nat.add_zero]
  have sum : (tally values).sum + value = (tally (values ++ [value])).sum := by
    simp only [tally, List.map_append, List.sum_append, List.map_cons, List.map_nil,
      List.sum_singleton, UInt64.ofNat_add, UInt64.ofNat_toNat]
  have count : (tally values).count + 1 = (tally (values ++ [value])).count := by
    simp only [tally, List.length_append, List.length_singleton, UInt64.ofNat_add]
    rfl
  rw [observe, buckets, sum, count]

theorem foldl_observe (seen values : List UInt64) :
    values.foldl observe (tally seen) = tally (seen ++ values) := by
  induction values generalizing seen with
  | nil => rw [List.foldl_nil, List.append_nil]
  | cons value values ih =>
    rw [List.foldl_cons, observe_tally, ih, List.append_assoc, List.singleton_append]

theorem ofValues_eq (values : List UInt64) : ofValues values = tally values := by
  have start : empty = tally [] := by decide
  rw [ofValues, start, foldl_observe, List.nil_append]

theorem tally_perm (perm : values.Perm values') : tally values = tally values' := by
  have occupied (i : Fin bounds.length) : occupancy values i = occupancy values' i :=
    perm.countP_eq _
  simp only [tally, occupied, (perm.map UInt64.toNat).sum_eq, perm.length_eq]

theorem tally_append (values values' : List UInt64) :
    tally (values ++ values') = (tally values).merge (tally values') := by
  simp only [tally, merge, occupancy, List.countP_append, UInt64.ofNat_add, List.map_append,
    List.sum_append, List.length_append, List.zipWith_map, List.zipWith_self]

theorem sum_occupancy (values : List UInt64) : ∑ i, occupancy values i = values.length := by
  induction values using List.reverseRecOn with
  | nil => rfl
  | append_singleton values value ih =>
    simp only [occupancy_concat, Finset.sum_add_distrib, ih, Finset.sum_ite_eq', Finset.mem_univ,
      if_pos, List.length_append, List.length_singleton]

theorem sum_buckets (values : List UInt64) :
    ((tally values).buckets.map UInt64.toNat).sum % UInt64.size = (tally values).count.toNat := by
  have wrapped : ((tally values).buckets.map UInt64.toNat).sum =
      ∑ i, occupancy values i % UInt64.size := by
    simp only [tally, List.map_map, Fin.sum_univ_def]
    rfl
  rw [wrapped, ← Finset.sum_nat_mod, sum_occupancy]
  rfl

structure Exact (values : List UInt64) : Prop where
  count : (ofValues values).count.toNat = values.length % UInt64.size
  sum : (ofValues values).sum.toNat = (values.map UInt64.toNat).sum % UInt64.size
  /-- There is a bucket for each bound, and no other. -/
  buckets : (ofValues values).table.map Prod.fst = bounds
  bucket : ∀ i : Fin bounds.length, ∃ n, (ofValues values).table[i.val]? = some (bounds[i], n) ∧
    n.toNat = values.countP (fun value => Belongs i value) % UInt64.size
  /-- The next value is counted in the bucket that it belongs to, which is there. -/
  inRange : ∀ value, bucketOf value < (ofValues values).buckets.length
  divided : ∀ value, ∃! i, Belongs i value
  own : ∀ value (i : Fin bounds.length), Belongs i value ↔ i.val = bucketOf value
  total : ((ofValues values).buckets.map UInt64.toNat).sum % UInt64.size =
    (ofValues values).count.toNat
  order : ∀ values', values.Perm values' → ofValues values = ofValues values'
  parts : ∀ values', ofValues (values ++ values') = (ofValues values).merge (ofValues values')

theorem length_buckets (values : List UInt64) :
    (ofValues values).buckets.length = bounds.length := by
  rw [ofValues_eq, tally, List.length_map, List.length_finRange]

/-- A histogram counts exactly what it is shown, in whatever order. -/
theorem histogram_is_exact (values : List UInt64) : Exact values where
  count := by
    rw [ofValues_eq]
    rfl
  sum := by
    rw [ofValues_eq]
    rfl
  buckets := List.map_fst_zip (Nat.le_of_eq (length_buckets values).symm)
  bucket i := by
    refine ⟨UInt64.ofNat (occupancy values i), ?_, rfl⟩
    rw [table, List.getElem?_zip_eq_some, ofValues_eq]
    refine ⟨List.getElem?_eq_getElem i.isLt, ?_⟩
    simp [tally]
  inRange value := by
    rw [length_buckets]
    exact bucketOf_lt value
  divided value := ⟨home value, belongs_home value, fun _ => belongs_iff.mp⟩
  own value i := belongs_iff.trans Fin.ext_iff
  total := by
    rw [ofValues_eq]
    exact sum_buckets values
  order values' perm := by rw [ofValues_eq, ofValues_eq, tally_perm perm]
  parts values' := by rw [ofValues_eq, ofValues_eq, ofValues_eq, tally_append]

/-- A bound is a value of its own bucket, and what is above all bounds is one of the last. -/
example : (ofValues [1, 5, 6, 10001, 10000]).table.map Prod.snd =
    [1, 1, 1, 0, 0, 0, 0, 0, 0, 0, 2] := by decide

end Runs

end TenantGate.Telemetry.Histogram
