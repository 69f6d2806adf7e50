/-
  Foundation/Strides.lean --- a row of items in windows that overlap.

  Windows of one size advance by a step that is no larger than they are.  What is left
  after the last of them is added to it when it is short and gets a window of its own
  when it is not.  Whatever the number of items, the windows are then `k * step` items
  apart, and all but the last have the size (`windows_eq`).
-/
import Mathlib.Data.List.Chain
import Mathlib.Data.List.Range

set_option autoImplicit false

namespace YawnApp.Foundation

/-- How windows are laid over items; a rest of fewer than `floor` items is short. -/
structure Strides where
  size : Nat
  step : Nat
  floor : Nat
  step_pos : 0 < step
  step_le : step ≤ size
  floor_pos : 0 < floor
  floor_le : floor ≤ step

namespace Strides

open List

variable (s : Strides)

/-- How many items a window shares with the next. -/
def overlap : Nat := s.size - s.step

/-- The windows of full size from `start` on. -/
def fullFrom (count start : Nat) : List (Nat × Nat) :=
  if start + s.size ≤ count then (start, start + s.size) :: fullFrom count (start + s.step) else []
termination_by count - start
decreasing_by
  have := s.step_pos
  have := s.step_le
  omega

/-- The windows over `count` items, each from its first item to behind its last. -/
def windows (count : Nat) : List (Nat × Nat) :=
  let full := s.fullFrom count 0
  match full.getLast? with
  | none => [(0, count)]
  | some last =>
    let uncovered := count - last.2
    if uncovered = 0 then full
    else if uncovered < s.floor then full.dropLast ++ [(last.1, count)]
    else full ++ [(last.1 + s.step, count)]

/-! ## The layout -/

/-- The `k`-th of `m` windows. -/
def window (count m k : Nat) : Nat × Nat :=
  (k * s.step, if k + 1 = m then count else k * s.step + s.size)

/-- `m` is the right number of windows. -/
structure Lays (count m : Nat) : Prop where
  pos : 0 < m
  short : count ≤ (m - 1) * s.step + s.size + (s.floor - 1)
  long : 1 < m → (m - 1) * s.step + s.overlap + s.floor ≤ count

theorem fullFrom_eq (count start : Nat) :
    ∃ n, s.fullFrom count start =
        (List.range n).map (fun k => (start + k * s.step, start + k * s.step + s.size)) ∧
      count < start + n * s.step + s.size ∧
      (0 < n → start + (n - 1) * s.step + s.size ≤ count) := by
  induction start using fullFrom.induct s count with
  | case1 start hfits ih =>
    obtain ⟨n, hfull, hlast, hfirst⟩ := ih
    refine ⟨n + 1, ?_, ?_, fun _ => ?_⟩
    · rw [fullFrom, if_pos hfits, hfull, range_succ_eq_map, map_cons, map_map]
      congr 1
      · simp
      · apply map_congr_left
        intro k _
        rw [Function.comp_apply, Nat.succ_mul]
        refine Prod.ext ?_ ?_ <;> simp only [] <;> omega
    · rw [Nat.succ_mul]
      omega
    · rcases Nat.eq_zero_or_pos n with rfl | hpos
      · simpa using hfits
      · have := hfirst hpos
        rw [show n + 1 - 1 = n - 1 + 1 by omega, Nat.succ_mul]
        omega
  | case2 start hfits =>
    refine ⟨0, ?_, by omega, fun h => absurd h (Nat.lt_irrefl 0)⟩
    rw [fullFrom, if_neg hfits]
    rfl

theorem getLast?_map_range {α : Type} (f : Nat → α) (n : Nat) :
    ((List.range (n + 1)).map f).getLast? = some (f n) := by
  rw [range_succ, map_append]
  simp

theorem map_window_succ (count n : Nat) :
    (List.range (n + 1)).map (s.window count (n + 1)) =
      (List.range n).map (fun k => (k * s.step, k * s.step + s.size)) ++ [(n * s.step, count)] := by
  rw [range_succ, map_append, map_singleton]
  congr 1
  · apply map_congr_left
    intro k hk
    rw [mem_range] at hk
    rw [window, if_neg (by omega)]
  · rw [window, if_pos rfl]

/-- All windows but the last are of full size, and each is a step behind the one before. -/
theorem windows_eq (count : Nat) :
    ∃ m, s.Lays count m ∧ s.windows count = (List.range m).map (s.window count m) := by
  obtain ⟨n, hfull, hlast, hfirst⟩ := s.fullFrom_eq count 0
  simp only [Nat.zero_add] at hfull hlast hfirst
  have hstep := s.step_le
  have hfloor := s.floor_le
  unfold windows
  cases n with
  | zero =>
    refine ⟨1, ⟨Nat.one_pos, by omega, fun h => absurd h (Nat.lt_irrefl 1)⟩, ?_⟩
    rw [hfull]
    simp [window]
  | succ n =>
    have hfits := hfirst (Nat.succ_pos n)
    rw [Nat.add_sub_cancel] at hfits
    rw [Nat.succ_mul] at hlast
    rw [hfull]
    simp only [getLast?_map_range]
    split
    · rename_i huncovered
      have hcount : count = n * s.step + s.size := by omega
      refine ⟨n + 1, ⟨Nat.succ_pos n, ?_, fun _ => ?_⟩, ?_⟩
      · rw [Nat.add_sub_cancel]
        omega
      · rw [Nat.add_sub_cancel, overlap]
        omega
      · rw [map_window_succ, range_succ, map_append, map_singleton, hcount]
    · split
      · refine ⟨n + 1, ⟨Nat.succ_pos n, ?_, fun _ => ?_⟩, ?_⟩
        · rw [Nat.add_sub_cancel]
          omega
        · rw [Nat.add_sub_cancel, overlap]
          omega
        · rw [map_window_succ, range_succ, map_append, map_singleton,
            dropLast_concat]
      · refine ⟨n + 2, ⟨Nat.succ_pos _, ?_, fun _ => ?_⟩, ?_⟩
        · rw [Nat.add_sub_cancel (n := n + 1) (m := 1), Nat.succ_mul]
          omega
        · rw [Nat.add_sub_cancel (n := n + 1) (m := 1), Nat.succ_mul, overlap]
          omega
        · rw [map_window_succ, Nat.succ_mul]

/-! ## What the windows do -/

variable {count : Nat}

/-- Too few items for a window of full size stand in one. -/
theorem windows_of_lt (h : count < s.size) : s.windows count = [(0, count)] := by
  have hnone : s.fullFrom count 0 = [] := by
    rw [fullFrom, if_neg (by omega)]
  rw [windows, hnone]
  rfl

theorem mem_windows {w : Nat × Nat} (h : w ∈ s.windows count) :
    w.2 ≤ count ∧ (0 < count → w.1 < w.2) ∧ w.2 - w.1 ≤ s.size + (s.floor - 1) ∧
      (1 < (s.windows count).length → s.overlap + s.floor ≤ w.2 - w.1) := by
  obtain ⟨m, ⟨hpos, hshort, hlong⟩, heq⟩ := s.windows_eq count
  have hstep := s.step_le
  have hstepPos := s.step_pos
  have hfloor := s.floor_le
  have hfloorPos := s.floor_pos
  rw [heq] at h ⊢
  rw [length_map, length_range]
  obtain ⟨k, hk, rfl⟩ := mem_map.mp h
  rw [mem_range] at hk
  unfold overlap at *
  by_cases hm : k + 1 = m
  · -- the last window
    subst hm
    rw [Nat.add_sub_cancel] at hshort hlong
    rw [window, if_pos rfl]
    refine ⟨Nat.le_refl _, fun hcount => ?_, by simp only []; omega, fun hmore => ?_⟩
    · rcases Nat.eq_zero_or_pos k with rfl | hkpos
      · simpa using hcount
      · have := hlong (by omega)
        simp only []
        omega
    · have := hlong hmore
      simp only []
      omega
  · have hle : (k + 1) * s.step ≤ (m - 1) * s.step := Nat.mul_le_mul_right _ (by omega)
    rw [Nat.succ_mul] at hle
    have := hlong (by omega)
    rw [window, if_neg hm]
    refine ⟨?_, fun _ => ?_, ?_, fun _ => ?_⟩ <;> simp only [] <;> omega

/-- A window and the next share exactly the overlap. -/
theorem isChain_windows (count : Nat) :
    (s.windows count).IsChain fun a b => a.1 < b.1 ∧ a.2 < b.2 ∧ a.2 = b.1 + s.overlap := by
  obtain ⟨m, ⟨hpos, hshort, hlong⟩, heq⟩ := s.windows_eq count
  have hstep := s.step_le
  have hstepPos := s.step_pos
  have hfloorPos := s.floor_pos
  rw [heq, isChain_iff_getElem]
  intro k hk
  rw [length_map, length_range] at hk
  rw [getElem_map, getElem_map, getElem_range, getElem_range]
  have hlong := hlong (by omega)
  have hle : (k + 1) * s.step ≤ (m - 1) * s.step := Nat.mul_le_mul_right _ (by omega)
  have hsucc : (k + 1) * s.step = k * s.step + s.step := Nat.succ_mul k s.step
  unfold overlap at *
  rw [window, if_neg (by omega), window]
  refine ⟨by simp only []; omega, ?_, by simp only []; omega⟩
  simp only []
  split <;> omega

/-- Of two windows the later one starts and ends later. -/
theorem pairwise_windows (count : Nat) :
    (s.windows count).Pairwise fun a b => a.1 < b.1 ∧ a.2 < b.2 := by
  have htrans : Trans (fun a b : Nat × Nat => a.1 < b.1 ∧ a.2 < b.2)
      (fun a b : Nat × Nat => a.1 < b.1 ∧ a.2 < b.2) fun a b => a.1 < b.1 ∧ a.2 < b.2 :=
    ⟨fun hab hbc => ⟨hab.1.trans hbc.1, hab.2.trans hbc.2⟩⟩
  exact ((s.isChain_windows count).imp fun a b h => ⟨h.1, h.2.1⟩).pairwise

/-- Every item is in a window. -/
theorem exists_mem_windows {i : Nat} (hi : i < count) : ∃ w ∈ s.windows count, w.1 ≤ i ∧ i < w.2 := by
  obtain ⟨m, ⟨hpos, hshort, hlong⟩, heq⟩ := s.windows_eq count
  have hstep := s.step_le
  have hstepPos := s.step_pos
  rw [heq]
  by_cases hlast : (m - 1) * s.step ≤ i
  · refine ⟨s.window count m (m - 1), mem_map_of_mem (mem_range.mpr (by omega)), hlast, ?_⟩
    rw [window, if_pos (by omega)]
    exact hi
  · have hdiv := Nat.div_add_mod i s.step
    have hmod := Nat.mod_lt i hstepPos
    have hk : i / s.step < m - 1 := by
      rw [Nat.div_lt_iff_lt_mul hstepPos]
      omega
    refine ⟨s.window count m (i / s.step), mem_map_of_mem (mem_range.mpr (by omega)), ?_, ?_⟩
    · exact Nat.div_mul_le_self i s.step
    · rw [window, if_neg (by omega), Nat.mul_comm]
      simp only []
      omega

end Strides

end YawnApp.Foundation
