import YawnApp.Foundation.EditScript

set_option autoImplicit false

/-!
# The edit grid

The cells of the grid are the pairs of prefixes of two lists.  Deletions and insertions
may run past the ends of the lists, as they do in the greedy search, which keeps for
each diagonal only the furthest row that a given cost reaches.

The furthest row of a diagonal is entered from the furthest rows of its two neighbours
one cost earlier, and lies as many tokens further as can be kept from there.
-/

namespace YawnApp.Foundation

namespace EditScript

open List

variable {α : Type}

/-! ## Cells -/

section Cells

variable (same : α → α → Bool) (a b : List α)

/-- The cell `(x, y)` is reached with `d` deletions and insertions. -/
inductive Reach : Nat → Nat → Nat → Prop
  | start : Reach 0 0 0
  | keep {d x y} : Reach d x y → Matches same a b x y → Reach d (x + 1) (y + 1)
  | delete {d x y} : Reach d x y → Reach (d + 1) (x + 1) y
  | insert {d x y} : Reach d x y → Reach (d + 1) x (y + 1)

variable {same a b} {k : Int} {s : List Edit} {d x y : Nat} {l : List α}

/-- What was done past the ends was not needed to get there. -/
theorem Reach.within (h : Reach same a b d x y) : ∃ e, e + (x - a.length) + (y - b.length) = d ∧
      Reach same a b e (min x a.length) (min y b.length) := by
  induction h with
  | start => exact ⟨0, by omega, by simpa using Reach.start⟩
  | @keep d x y _ hmatch ih =>
    obtain ⟨e, he, hreach⟩ := ih
    have hlt := hmatch.lt
    rw [Nat.min_eq_left (by omega), Nat.min_eq_left (by omega)] at hreach
    refine ⟨e, by omega, ?_⟩
    rw [Nat.min_eq_left (by omega), Nat.min_eq_left (by omega)]
    exact hreach.keep hmatch
  | @delete d x y _ ih =>
    obtain ⟨e, he, hreach⟩ := ih
    by_cases hx : x < a.length
    · rw [Nat.min_eq_left (by omega)] at hreach
      refine ⟨e + 1, by omega, ?_⟩
      rw [Nat.min_eq_left (by omega)]
      exact hreach.delete
    · rw [Nat.min_eq_right (by omega)] at hreach
      refine ⟨e, by omega, ?_⟩
      rw [Nat.min_eq_right (by omega)]
      exact hreach
  | @insert d x y _ ih =>
    obtain ⟨e, he, hreach⟩ := ih
    by_cases hy : y < b.length
    · rw [Nat.min_eq_left (b := b.length) (by omega)] at hreach
      refine ⟨e + 1, by omega, ?_⟩
      rw [Nat.min_eq_left (b := b.length) (by omega)]
      exact hreach.insert
    · rw [Nat.min_eq_right (b := b.length) (by omega)] at hreach
      refine ⟨e, by omega, ?_⟩
      rw [Nat.min_eq_right (b := b.length) (by omega)]
      exact hreach

theorem take_succ_of_getElem? {p : α} (h : l[x]? = some p) : l.take (x + 1) = l.take x ++ [p] := by
  rw [take_add_one, h]
  rfl

theorem getElem?_of_drop {r : List α} {p : α} (h : l.drop x = p :: r) :
    l[x]? = some p ∧ l.drop (x + 1) = r := by
  constructor
  · rw [← Nat.add_zero x, ← List.getElem?_drop, h, List.getElem?_cons_zero]
  · rw [← drop_drop, h, drop_succ_cons, drop_zero]

theorem Turns.snoc_keep (h : Turns same s (a.take x) (b.take y)) (hmatch : Matches same a b x y) :
    Turns same (s ++ [.keep]) (a.take (x + 1)) (b.take (y + 1)) := by
  obtain ⟨p, q, hp, hq, hsame⟩ := hmatch
  rw [take_succ_of_getElem? hp, take_succ_of_getElem? hq]
  exact h.append (.keep hsame .nil)

theorem Turns.snoc_delete (h : Turns same s (a.take x) (b.take y)) (hx : x < a.length) :
    Turns same (s ++ [.delete]) (a.take (x + 1)) (b.take y) := by
  rw [take_succ_of_getElem? (List.getElem?_eq_getElem hx), ← append_nil (b.take y)]
  exact h.append (.delete .nil)

theorem Turns.snoc_insert (h : Turns same s (a.take x) (b.take y)) (hy : y < b.length) :
    Turns same (s ++ [.insert]) (a.take x) (b.take (y + 1)) := by
  rw [take_succ_of_getElem? (List.getElem?_eq_getElem hy), ← append_nil (a.take x)]
  exact h.append (.insert .nil)

theorem Turns.snoc_run (h : Turns same s (a.take x) (b.take y)) :
    ∀ e, (∀ i < e, Matches same a b (x + i) (y + i)) →
      Turns same (s ++ List.replicate e .keep) (a.take (x + e)) (b.take (y + e)) := by
  intro e
  induction e with
  | zero =>
    intro _
    rwa [replicate_zero, append_nil]
  | succ e ih =>
    intro hkept
    rw [replicate_succ', ← append_assoc]
    exact (ih fun i hi => hkept i (Nat.lt_succ_of_lt hi)).snoc_keep (hkept e (Nat.lt_succ_self e))

/-- A cell inside the grid is a pair of prefixes that a script of that cost links. -/
theorem Reach.script (h : Reach same a b d x y) : x ≤ a.length → y ≤ b.length →
      ∃ s, Turns same s (a.take x) (b.take y) ∧ cost s = d := by
  induction h with
  | start => exact fun _ _ => ⟨[], .nil, rfl⟩
  | keep _ hmatch ih =>
    intro hx hy
    obtain ⟨s, hs, rfl⟩ := ih (Nat.le_of_succ_le hx) (Nat.le_of_succ_le hy)
    exact ⟨s ++ [.keep], hs.snoc_keep hmatch, cost_append s [.keep]⟩
  | delete _ ih =>
    intro hx hy
    obtain ⟨s, hs, rfl⟩ := ih (Nat.le_of_succ_le hx) hy
    exact ⟨s ++ [.delete], hs.snoc_delete hx, cost_append s [.delete]⟩
  | insert _ ih =>
    intro hx hy
    obtain ⟨s, hs, rfl⟩ := ih hx (Nat.le_of_succ_le hy)
    exact ⟨s ++ [.insert], hs.snoc_insert hy, cost_append s [.insert]⟩

/-- From a cell, a script for what is left of both lists leads to the end. -/
theorem Reach.turns {r : List α} (h : Turns same s l r) :
    ∀ {d x y}, Reach same a b d x y → a.drop x = l → b.drop y = r →
      Reach same a b (d + cost s) (x + l.length) (y + r.length) := by
  induction h with
  | nil => exact fun hreach _ _ => hreach
  | @keep s l r p q hsame _ ih =>
    intro d x y hreach ha hb
    obtain ⟨hp, ha⟩ := getElem?_of_drop ha
    obtain ⟨hq, hb⟩ := getElem?_of_drop hb
    have hend := ih (hreach.keep ⟨p, q, hp, hq, hsame⟩) ha hb
    rwa [length_cons, length_cons, Nat.add_comm l.length, Nat.add_comm r.length,
      ← Nat.add_assoc, ← Nat.add_assoc]
  | @delete s l r p _ ih =>
    intro d x y hreach ha hb
    have hend := ih hreach.delete (getElem?_of_drop ha).2 hb
    rwa [length_cons, Nat.add_comm l.length, ← Nat.add_assoc, cost, Nat.add_comm (cost s),
      ← Nat.add_assoc]
  | @insert s l r q _ ih =>
    intro d x y hreach ha hb
    have hend := ih hreach.insert ha (getElem?_of_drop hb).2
    rwa [length_cons, Nat.add_comm r.length, ← Nat.add_assoc, cost, Nat.add_comm (cost s),
      ← Nat.add_assoc]

/-- The scripts from `a` to `b` are the ways to the last cell. -/
theorem mem_costs_iff : d ∈ costs same a b ↔ Reach same a b d a.length b.length := by
  constructor
  · intro h
    obtain ⟨s, hs, rfl⟩ := h
    have hend := Reach.turns hs (a := a) (b := b) .start drop_zero drop_zero
    rwa [Nat.zero_add, Nat.zero_add, Nat.zero_add] at hend
  · intro h
    obtain ⟨s, hs, hcost⟩ := h.script (Nat.le_refl _) (Nat.le_refl _)
    rw [take_length, take_length] at hs
    exact ⟨s, hs, hcost⟩

/-! ## Diagonals -/

/-- The diagonals `-d`, `-d + 2`, ..., `d`. -/
def OnRound (d : Nat) (k : Int) : Prop := ∃ j : Nat, j ≤ d ∧ k = 2 * j - d

theorem Reach.onRound (h : Reach same a b d x y) : OnRound d ((x : Int) - y) := by
  induction h with
  | start => exact ⟨0, Nat.le_refl 0, rfl⟩
  | keep _ _ ih =>
    obtain ⟨j, hj, hk⟩ := ih
    exact ⟨j, hj, by omega⟩
  | delete _ ih =>
    obtain ⟨j, hj, hk⟩ := ih
    exact ⟨j + 1, by omega, by omega⟩
  | insert _ ih =>
    obtain ⟨j, hj, hk⟩ := ih
    exact ⟨j, by omega, by omega⟩

theorem Reach.row_le (h : Reach same a b d x y) : x ≤ a.length + d := by
  induction h with
  | start => exact Nat.zero_le _
  | keep _ hmatch _ =>
    have := hmatch.lt
    omega
  | delete | insert => omega

theorem reach_deletes (j : Nat) : Reach same a b j j 0 := by
  induction j with
  | zero => exact .start
  | succ j ih => exact ih.delete

theorem reach_of_onRound (same : α → α → Bool) (a b : List α) (h : OnRound d k) :
    ∃ x y : Nat, Reach same a b d x y ∧ (x : Int) - y = k := by
  obtain ⟨j, hj, hk⟩ := h
  have hinserts : ∀ n, Reach same a b (j + n) j n := by
    intro n
    induction n with
    | zero => exact reach_deletes j
    | succ n ih => exact ih.insert
  refine ⟨j, d - j, ?_, by omega⟩
  rw [← Nat.add_sub_of_le hj]
  simpa using hinserts (d - j)

/-! ## Furthest rows -/

/-- The row `x` is the furthest that `d` deletions and insertions reach on the
diagonal `k`. -/
structure Furthest (same : α → α → Bool) (a b : List α) (d : Nat) (k : Int) (x : Nat) : Prop where
  reached : ∃ y : Nat, Reach same a b d x y ∧ (x : Int) - y = k
  le : ∀ u v : Nat, Reach same a b d u v → (u : Int) - v = k → u ≤ x

theorem Furthest.unique (hx : Furthest same a b d k x) (hy : Furthest same a b d k y) : x = y := by
  obtain ⟨u, hu, huk⟩ := hx.reached
  obtain ⟨v, hv, hvk⟩ := hy.reached
  exact Nat.le_antisymm (hy.le x u hu huk) (hx.le y v hv hvk)

theorem Furthest.onRound (h : Furthest same a b d k x) : OnRound d k := by
  obtain ⟨y, hreach, rfl⟩ := h.reached
  exact hreach.onRound

/-- Every diagonal of a round has a furthest row: the rows are bounded. -/
theorem exists_furthest (same : α → α → Bool) (a b : List α) (h : OnRound d k) :
    ∃ x, Furthest same a b d k x := by
  let rows : Set Nat := {x | ∃ y : Nat, Reach same a b d x y ∧ (x : Int) - y = k}
  have hnonempty : rows.Nonempty := by
    obtain ⟨x, y, hreach, hk⟩ := reach_of_onRound same a b h
    exact ⟨x, y, hreach, hk⟩
  have hbounded : BddAbove rows := ⟨a.length + d, fun x hx => by
    obtain ⟨y, hreach, -⟩ := hx
    exact hreach.row_le⟩
  exact ⟨sSup rows, Nat.sSup_mem hnonempty hbounded,
    fun u v hreach hk => le_csSup hbounded ⟨v, hreach, hk⟩⟩

/-! ## Runs -/

/-- From a cell, `e` tokens in a row can be kept and no more. -/
structure Run (same : α → α → Bool) (a b : List α) (x y e : Nat) : Prop where
  kept : ∀ i < e, Matches same a b (x + i) (y + i)
  stop : ¬ Matches same a b (x + e) (y + e)

theorem exists_run (same : α → α → Bool) (a b : List α) (x y : Nat) : ∃ e, Run same a b x y e := by
  classical
  have hstops : ∃ e, ¬ Matches same a b (x + e) (y + e) :=
    ⟨a.length, fun h => by have := h.lt; omega⟩
  exact ⟨Nat.find hstops, fun i hi => not_not.mp (Nat.find_min hstops hi), Nat.find_spec hstops⟩

theorem Run.none (h : ¬ Matches same a b x y) : Run same a b x y 0 :=
  ⟨fun i hi => absurd hi (Nat.not_lt_zero i), h⟩

theorem Run.cons {x y e : Nat} (h : Matches same a b x y)
    (hrun : Run same a b (x + 1) (y + 1) e) : Run same a b x y (e + 1) := by
  constructor
  · intro i hi
    cases i with
    | zero => exact h
    | succ i =>
      rw [← Nat.succ_add_eq_add_succ x, ← Nat.succ_add_eq_add_succ y]
      exact hrun.kept i (Nat.lt_of_succ_lt_succ hi)
  · rw [← Nat.succ_add_eq_add_succ x, ← Nat.succ_add_eq_add_succ y]
    exact hrun.stop

theorem Reach.run {d x y : Nat} (h : Reach same a b d x y) :
    ∀ e, (∀ i < e, Matches same a b (x + i) (y + i)) → Reach same a b d (x + e) (y + e) := by
  intro e
  induction e with
  | zero => exact fun _ => h
  | succ e ih =>
    intro hkept
    exact (ih fun i hi => hkept i (Nat.lt_succ_of_lt hi)).keep (hkept e (Nat.lt_succ_self e))

/-! ## Where a diagonal is entered -/

/-- The cell `(x, y)` is where the diagonal `k` is entered: no cell of a neighbour one
cost earlier leads further. -/
structure Entered (same : α → α → Bool) (a b : List α) (d : Nat) (k : Int) (x y : Nat) :
    Prop where
  reached : Reach same a b d x y
  diagonal : (x : Int) - y = k
  deleted : ∀ e u v, d = e + 1 → Reach same a b e u v → (u : Int) - v = k - 1 → u + 1 ≤ x
  inserted : ∀ e u v, d = e + 1 → Reach same a b e u v → (u : Int) - v = k + 1 → u ≤ x

theorem entered_origin : Entered same a b 0 0 0 0 :=
  ⟨.start, rfl, fun _ _ _ h => absurd h (Nat.succ_ne_zero _).symm,
    fun _ _ _ h => absurd h (Nat.succ_ne_zero _).symm⟩

/-- The furthest row lies where the run from the cell entered ends. -/
theorem Entered.furthest {e : Nat} (h : Entered same a b d k x y) (hrun : Run same a b x y e) :
    Furthest same a b d k (x + e) := by
  have hdiagonal := h.diagonal
  refine ⟨⟨y + e, h.reached.run e hrun.kept, by omega⟩, ?_⟩
  have hle : ∀ c u v, Reach same a b c u v → c = d → (u : Int) - v = k → u ≤ x + e := by
    intro c u v hreach
    induction hreach with
    | start => exact fun _ _ => Nat.zero_le _
    | @keep c u v _ hmatch ih =>
      intro hc hk
      have hu := ih hc (by omega)
      rcases Nat.eq_or_lt_of_le hu with rfl | hu
      · -- the last cell of the run, where nothing more can be kept
        have hv : v = y + e := by omega
        exact absurd (hv ▸ hmatch) hrun.stop
      · exact hu
    | delete hreach _ =>
      intro hc hk
      have := h.deleted _ _ _ hc.symm hreach (by omega)
      omega
    | insert hreach _ =>
      intro hc hk
      have := h.inserted _ _ _ hc.symm hreach (by omega)
      omega
  exact fun u v hreach => hle d u v hreach rfl

/-- The furthest row of a diagonal ends a run from the cell entered. -/
theorem Entered.run {d : Nat} {k : Int} {x y z : Nat} (h : Entered same a b d k x y)
    (hz : Furthest same a b d k z) : ∃ e, z = x + e ∧ Run same a b x y e := by
  obtain ⟨e, hrun⟩ := exists_run same a b x y
  exact ⟨e, hz.unique (h.furthest hrun), hrun⟩

/-- Entered from the diagonal above: its row is ahead of the one below. -/
theorem Furthest.entered_above (h : Furthest same a b d (k + 1) x)
    (hbelow : ∀ u, Furthest same a b d (k - 1) u → u + 1 ≤ x) :
    ∃ y : Nat, Reach same a b d x y ∧ (x : Int) - y = k + 1 ∧
      Entered same a b (d + 1) k x (y + 1) := by
  obtain ⟨y, hreach, hy⟩ := h.reached
  refine ⟨y, hreach, hy, hreach.insert, by omega, ?_, ?_⟩
  · intro e u v he hu hk
    obtain rfl := Nat.succ.inj he
    obtain ⟨z, hz⟩ := exists_furthest same a b (hk ▸ hu.onRound)
    have hle := hz.le u v hu hk
    have := hbelow z hz
    omega
  · intro e u v he hu hk
    obtain rfl := Nat.succ.inj he
    exact h.le u v hu hk

/-- Entered from the diagonal below: its row is not behind the one above. -/
theorem Furthest.entered_below (h : Furthest same a b d (k - 1) x)
    (habove : ∀ u, Furthest same a b d (k + 1) u → u ≤ x + 1) :
    ∃ y : Nat, Reach same a b d x y ∧ (x : Int) - y = k - 1 ∧
      Entered same a b (d + 1) k (x + 1) y := by
  obtain ⟨y, hreach, hy⟩ := h.reached
  refine ⟨y, hreach, hy, hreach.delete, by omega, ?_, ?_⟩
  · intro e u v he hu hk
    obtain rfl := Nat.succ.inj he
    exact Nat.succ_le_succ (h.le u v hu hk)
  · intro e u v he hu hk
    obtain rfl := Nat.succ.inj he
    obtain ⟨z, hz⟩ := exists_furthest same a b (hk ▸ hu.onRound)
    exact Nat.le_trans (hz.le u v hu hk) (habove z hz)

/-! ## The end of both lists -/

/-- A furthest row past the end of both lists: some cost, at most that of the row,
reaches the end, and the row is the end where none is lower. -/
theorem Furthest.ended (h : Furthest same a b d k x) (hx : a.length ≤ x)
    (hy : (b.length : Int) ≤ x - k) : ∃ e ∈ costs same a b, e ≤ d ∧
      (e = d → x = a.length ∧ (x : Int) - k = b.length) := by
  obtain ⟨y, hreach, hk⟩ := h.reached
  obtain ⟨e, he, hend⟩ := hreach.within
  rw [Nat.min_eq_right hx, Nat.min_eq_right (by omega)] at hend
  exact ⟨e, mem_costs_iff.mpr hend, by omega, fun _ => by omega⟩

/-- A cost that reaches the end does so on the diagonal of the end. -/
theorem Furthest.past_end (h : Furthest same a b d ((a.length : Int) - b.length) x)
    (hd : d ∈ costs same a b) : a.length ≤ x :=
  h.le _ _ (mem_costs_iff.mp hd) rfl

end Cells

end EditScript

end YawnApp.Foundation
