import Mathlib.Data.List.Dedup
import Mathlib.Data.List.Sort
import Mathlib.Data.String.Basic
import YawnApp.SessionCore.Recorded

set_option autoImplicit false

/-!
# What the worker takes from Python's `json`

A text that `serde_json` reads is read by `json.loads` as well, which keeps the last of
the fields of one name.  `json.loads` reads more: nothing is said about a text that
`serde_json` does not read.
-/

namespace YawnApp.Worker

open YawnApp.Foundation YawnApp.SessionCore

class PythonText (B : Type) extends Platform B where
  /-- `json.loads` -/
  loads : B → Option Value
  loads_of_readText : ∀ bytes v, JsonText.readText bytes = some v → loads bytes = some v.collapse

instance {known : List (Document × String)} : PythonText (Recorded known) where
  loads := valueFromSlice
  loads_of_readText _ _ h := congrArg (Option.map Value.collapse) h

/-- The keys of a `dict` are exactly the given ones. -/
def keysAre (fields : List (String × Value)) (names : List String) : Bool :=
  (fields.all fun f => f.1 ∈ names) && names.all fun name => name ∈ fields.map Prod.fst

/-- `sorted(set(values))` -/
def sortedSet (values : List String) : List String := values.dedup.insertionSort (· ≤ ·)

theorem mem_sortedSet {values : List String} {value : String} :
    value ∈ sortedSet values ↔ value ∈ values := by
  unfold sortedSet
  rw [List.mem_insertionSort, List.mem_dedup]

theorem nodup_sortedSet (values : List String) : (sortedSet values).Nodup :=
  (List.perm_insertionSort _ _).nodup_iff.mpr (List.nodup_dedup values)

theorem sorted_sortedSet (values : List String) : (sortedSet values).Pairwise (· ≤ ·) :=
  List.pairwise_insertionSort _ _

theorem sortedSet_congr {first second : List String} (h : ∀ value, value ∈ first ↔ value ∈ second) :
    sortedSet first = sortedSet second := by
  have hperm : (sortedSet first).Perm (sortedSet second) :=
    (List.perm_ext_iff_of_nodup (nodup_sortedSet first) (nodup_sortedSet second)).mpr
      fun value => by rw [mem_sortedSet, mem_sortedSet, h]
  exact hperm.eq_of_pairwise' (sorted_sortedSet first) (sorted_sortedSet second)

end YawnApp.Worker
