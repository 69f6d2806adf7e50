/-
  Foundation/Keyed.lean --- lists of records in the order of a key.

  A table that is kept as a list is read by looking a key up, and edited by
  inserting a record at its place, changing the first record of a key and
  dropping the records that fail a test.  The lemmas say what a lookup sees
  after each edit.  Only dropping by a test other than the key needs to know
  that no key is there twice.
-/
import Mathlib.Data.List.Nodup
import Mathlib.Data.List.TakeWhile
import Mathlib.Order.Lattice

set_option autoImplicit false

namespace YawnApp.Foundation

open List

section Keyed

variable {κ α : Type} [DecidableEq κ]

/-- The first record of a key. -/
def lookupKey (key : α → κ) (k : κ) (l : List α) : Option α := l.find? fun a => key a = k

/-- Change the first record of a key. -/
def modifyKey (key : α → κ) (k : κ) (f : α → α) : List α → List α
  | [] => []
  | a :: rest => if key a = k then f a :: rest else a :: modifyKey key k f rest

/-- Put a record before the first one whose key is not below its own. -/
def insertKey [LinearOrder κ] (key : α → κ) (a : α) (l : List α) : List α :=
  l.takeWhile (fun b => key b < key a) ++ a :: l.dropWhile fun b => key b < key a

variable {key : α → κ} {l : List α} {f : α → α}

theorem lookupKey_cons (k : κ) (a : α) (rest : List α) :
    lookupKey key k (a :: rest) = if key a = k then some a else lookupKey key k rest := by
  unfold lookupKey
  rw [List.find?_cons]
  by_cases h : key a = k <;> simp [h]

theorem lookupKey_some {k : κ} {a : α} (h : lookupKey key k l = some a) : a ∈ l ∧ key a = k := by
  refine ⟨mem_of_find?_eq_some h, ?_⟩
  have := List.find?_some h
  simpa using this

theorem lookupKey_eq_none {k : κ} : lookupKey key k l = none ↔ ∀ a ∈ l, key a ≠ k := by
  simp [lookupKey]

theorem lookupKey_append (k : κ) (first second : List α) :
    lookupKey key k (first ++ second) = (lookupKey key k first).or (lookupKey key k second) := by
  simp [lookupKey, List.find?_append]

theorem lookupKey_modifyKey (hf : ∀ a, key (f a) = key a) (k j : κ) (l : List α) :
    lookupKey key j (modifyKey key k f l) =
      if j = k then (lookupKey key k l).map f else lookupKey key j l := by
  induction l with
  | nil => simp [modifyKey, lookupKey]
  | cons a rest ih =>
    rw [modifyKey]
    by_cases ha : key a = k
    · rw [if_pos ha, lookupKey_cons, lookupKey_cons, lookupKey_cons, hf, ha]
      by_cases hj : k = j
      · simp [hj]
      · simp [hj, Ne.symm hj]
    · rw [if_neg ha, lookupKey_cons, lookupKey_cons, lookupKey_cons, if_neg ha, ih]
      by_cases hj : key a = j
      · have hne : j ≠ k := fun h => ha (hj.trans h)
        simp [hj, hne]
      · simp [hj]

/-- A change that one reading of a record does not see is not seen. -/
theorem map_modifyKey {β : Type} {g : α → β} (hg : ∀ a, g (f a) = g a) (k : κ) (l : List α) :
    (modifyKey key k f l).map g = l.map g := by
  induction l with
  | nil => rfl
  | cons a rest ih =>
    rw [modifyKey]
    split
    · rw [map_cons, map_cons, hg]
    · rw [map_cons, map_cons, ih]

theorem lookupKey_filter_key (k j : κ) (l : List α) :
    lookupKey key j (l.filter fun a => key a ≠ k) =
      if j = k then none else lookupKey key j l := by
  induction l with
  | nil => simp [lookupKey]
  | cons a rest ih =>
    by_cases ha : key a = k
    · rw [filter_cons_of_neg (by simpa using ha), ih, lookupKey_cons]
      by_cases hj : j = k
      · simp [hj]
      · have hne : key a ≠ j := fun h => hj (h.symm.trans ha)
        simp [hj, hne]
    · rw [filter_cons_of_pos (by simpa using ha), lookupKey_cons, lookupKey_cons, ih]
      by_cases hj : key a = j
      · have hne : j ≠ k := fun h => ha (hj.trans h)
        simp [hj, hne]
      · simp [hj]

theorem lookupKey_map (hf : ∀ a, key (f a) = key a) (j : κ) (l : List α) :
    lookupKey key j (l.map f) = (lookupKey key j l).map f := by
  induction l with
  | nil => rfl
  | cons a rest ih =>
    rw [map_cons, lookupKey_cons, lookupKey_cons, hf, ih]
    by_cases hj : key a = j <;> simp [hj]

/-- Where no key is twice, the order does not matter. -/
theorem lookupKey_perm {l' : List α} (h : l.Perm l') (hnodup : (l.map key).Nodup) (k : κ) :
    lookupKey key k l = lookupKey key k l' := by
  cases hl : lookupKey key k l with
  | none =>
    rw [lookupKey_eq_none] at hl
    exact (lookupKey_eq_none.mpr fun a ha => hl a (h.mem_iff.mpr ha)).symm
  | some a =>
    obtain ⟨ha, hkey⟩ := lookupKey_some hl
    cases hl' : lookupKey key k l' with
    | none => exact absurd hkey (lookupKey_eq_none.mp hl' a (h.mem_iff.mp ha))
    | some =>
      obtain ⟨hb, hkey'⟩ := lookupKey_some hl'
      exact congrArg some (inj_on_of_nodup_map hnodup ha (h.mem_iff.mpr hb)
        (hkey.trans hkey'.symm))

/-- Where no key is twice, a lookup sees the record that passed the test. -/
theorem lookupKey_filter {p : α → Bool} (h : (l.map key).Nodup) (j : κ) :
    lookupKey key j (l.filter p) = (lookupKey key j l).filter p := by
  induction l with
  | nil => rfl
  | cons a rest ih =>
    rw [map_cons, nodup_cons] at h
    rw [lookupKey_cons]
    by_cases hp : p a
    · rw [filter_cons_of_pos hp, lookupKey_cons, ih h.2]
      by_cases hj : key a = j <;> simp [hj, hp, Option.filter]
    · rw [filter_cons_of_neg hp, ih h.2]
      by_cases hj : key a = j
      · have hnone : lookupKey key j rest = none := by
          rw [lookupKey_eq_none]
          rintro b hb hkey
          exact h.1 (mem_map.mpr ⟨b, hb, hkey.trans hj.symm⟩)
        simp [hj, hp, hnone, Option.filter]
      · simp [hj]

theorem lookupKey_insertKey [LinearOrder κ] (a : α) (j : κ) (l : List α) :
    lookupKey key j (insertKey key a l) =
      if j = key a then some a else lookupKey key j l := by
  unfold insertKey
  rw [lookupKey_append, lookupKey_cons]
  by_cases hj : j = key a
  · have hnone : lookupKey key j (l.takeWhile fun b => key b < key a) = none := by
      rw [lookupKey_eq_none]
      intro b hb heq
      have hlt := mem_takeWhile_imp hb
      rw [decide_eq_true_eq, heq, hj] at hlt
      exact lt_irrefl _ hlt
    rw [hnone]
    simp [hj]
  · rw [if_neg (Ne.symm hj), if_neg hj, ← lookupKey_append, takeWhile_append_dropWhile]

/-! ## Keys that are not repeated -/

theorem nodup_insertKey [LinearOrder κ] {a : α} (h : (l.map key).Nodup)
    (hnew : lookupKey key (key a) l = none) : ((insertKey key a l).map key).Nodup := by
  have hperm : (insertKey key a l).Perm (a :: l) := by
    unfold insertKey
    refine perm_middle.trans (List.Perm.cons a ?_)
    rw [takeWhile_append_dropWhile]
  rw [(hperm.map key).nodup_iff, map_cons, nodup_cons]
  refine ⟨?_, h⟩
  intro hmem
  obtain ⟨b, hb, hkey⟩ := mem_map.mp hmem
  exact lookupKey_eq_none.mp hnew b hb hkey

end Keyed

/-- Keys in order are not repeated. -/
theorem nodup_map_of_sorted {κ α : Type} [LinearOrder κ] {key : α → κ} {l : List α}
    (h : l.Pairwise fun a b => key a < key b) : (l.map key).Nodup := by
  rw [List.Nodup, pairwise_map]
  exact h.imp fun hlt => ne_of_lt hlt

end YawnApp.Foundation
