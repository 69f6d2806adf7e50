import YawnApp.Foundation.EditGrid
import YawnApp.SessionCore.RetryDiff

set_option autoImplicit false

/-!
# The search of the word diff

`myers_trace` keeps one array of rows, indexed by diagonal, and pushes a copy of it
before each round.  A round reads the diagonals of one parity and writes those of the
other, so the copies hold the furthest rows of the round before.

The search never indexes past the array, ends in the round whose number is the length
of a shortest script, and gives up where that length is over the budget.
-/

namespace YawnApp.SessionCore.RetryDiff

open YawnApp.Foundation
open YawnApp.Foundation.EditScript

/-! ## The array -/

theorem read_ofNat {α : Type} (v : List α) (i : Nat) : read v (i : Int) = v[i]? := by
  unfold read
  rw [if_pos (Int.natCast_nonneg i), Int.toNat_natCast]

theorem read_set_self {v : List Int} {i x : Int} (hi : 0 ≤ i) (hlt : i < v.length) :
    read (v.set i.toNat x) i = some x := by
  unfold read
  rw [if_pos hi, List.getElem?_set_self (by omega)]

theorem read_set_ne {v : List Int} {i j x : Int} (hi : 0 ≤ i) (hne : i ≠ j) :
    read (v.set i.toNat x) j = read v j := by
  unfold read
  split
  · exact List.getElem?_set_ne (by omega)
  · rfl

section Search

variable {a b : List Token} {offset : Int}

/-- The array as round `d` finds it: the furthest rows of the round before. -/
structure Ready (a b : List Token) (offset : Int) (d : Nat) (v : List Int) : Prop where
  length : (v.length : Int) = 2 * offset + 1
  origin : d = 0 → read v (offset + 1) = some 0
  rows : ∀ e k x, d = e + 1 → Furthest Token.same a b e k x →
    read v (k + offset) = some (x : Int)

theorem ready_zeros (hoffset : 0 < offset) :
    Ready a b offset 0 (List.replicate (2 * offset + 1).toNat 0) := by
  refine ⟨?_, fun _ => ?_, fun e k x h => absurd h (Nat.succ_ne_zero e).symm⟩
  · rw [List.length_replicate]
    omega
  · unfold read
    rw [if_pos (by omega), List.getElem?_replicate, if_pos (by omega)]

/-- The neighbour a diagonal is entered from is the one that leads further. -/
theorem fromAbove_spec {d : Nat} {k : Int} {v : List Int} (h : Ready a b offset (d + 1) v)
    (hk : OnRound (d + 1) k) :
    (fromAbove v offset (d + 1 : Nat) k = some true ∧
      ∃ x, Furthest Token.same a b d (k + 1) x ∧
        ∀ u, Furthest Token.same a b d (k - 1) u → u + 1 ≤ x) ∨
    (fromAbove v offset (d + 1 : Nat) k = some false ∧
      ∃ x, Furthest Token.same a b d (k - 1) x ∧
        ∀ u, Furthest Token.same a b d (k + 1) u → u ≤ x + 1) := by
  obtain ⟨j, hj, hkj⟩ := hk
  unfold fromAbove
  by_cases hlow : k = -((d + 1 : Nat) : Int)
  · -- no diagonal below
    left
    obtain ⟨x, hx⟩ := exists_furthest Token.same a b
      (show OnRound d (k + 1) from ⟨0, Nat.zero_le d, by omega⟩)
    refine ⟨if_pos hlow, x, hx, fun u hu => ?_⟩
    obtain ⟨i, hi, hki⟩ := hu.onRound
    omega
  · by_cases hhigh : k = ((d + 1 : Nat) : Int)
    · -- no diagonal above
      right
      obtain ⟨x, hx⟩ := exists_furthest Token.same a b
        (show OnRound d (k - 1) from ⟨d, Nat.le_refl d, by omega⟩)
      refine ⟨by rw [if_neg hlow, if_pos hhigh], x, hx, fun u hu => ?_⟩
      obtain ⟨i, hi, hki⟩ := hu.onRound
      omega
    · obtain ⟨below, hbelow⟩ := exists_furthest Token.same a b
        (show OnRound d (k - 1) from ⟨j - 1, by omega, by omega⟩)
      obtain ⟨above, habove⟩ := exists_furthest Token.same a b
        (show OnRound d (k + 1) from ⟨j, by omega, by omega⟩)
      have hreadBelow := h.rows d (k - 1) below rfl hbelow
      have hreadAbove := h.rows d (k + 1) above rfl habove
      rw [show k - 1 + offset = k + offset - 1 by omega] at hreadBelow
      rw [show k + 1 + offset = k + offset + 1 by omega] at hreadAbove
      rw [if_neg hlow, if_neg hhigh, hreadBelow, hreadAbove]
      by_cases hlt : below < above
      · left
        refine ⟨congrArg some (decide_eq_true (Int.ofNat_lt.mpr hlt)), above, habove,
          fun u hu => ?_⟩
        rw [hu.unique hbelow]
        exact hlt
      · right
        refine ⟨congrArg some (decide_eq_false fun h => hlt (Int.ofNat_lt.mp h)), below, hbelow,
          fun u hu => ?_⟩
        rw [hu.unique habove]
        omega

/-- A diagonal is entered at the cell the furthest rows of its neighbours lead to. -/
theorem enter_spec {d : Nat} {k : Int} {v : List Int} (h : Ready a b offset d v)
    (hk : OnRound d k) :
    ∃ x y : Nat, enter v offset d k = some (x : Int) ∧ Entered Token.same a b d k x y := by
  cases d with
  | zero =>
    obtain ⟨j, hj, hk⟩ := hk
    obtain rfl : k = 0 := by omega
    refine ⟨0, 0, ?_, entered_origin⟩
    have horigin := h.origin rfl
    rw [show offset + 1 = 0 + offset + 1 by omega] at horigin
    simp only [enter, fromAbove, Nat.cast_zero, neg_zero, if_true, Option.bind_eq_bind,
      Option.bind_some, horigin]
  | succ d =>
    unfold enter
    rcases fromAbove_spec h hk with ⟨habove, x, hx, hbelow⟩ | ⟨hbelow, x, hx, habove⟩
    · obtain ⟨y, -, -, hentered⟩ := hx.entered_above hbelow
      have hread := h.rows d (k + 1) x rfl hx
      rw [show k + 1 + offset = k + offset + 1 by omega] at hread
      refine ⟨x, y + 1, ?_, hentered⟩
      rw [habove]
      exact hread
    · obtain ⟨y, -, -, hentered⟩ := hx.entered_below habove
      have hread := h.rows d (k - 1) x rfl hx
      rw [show k - 1 + offset = k + offset - 1 by omega] at hread
      refine ⟨x + 1, y, ?_, hentered⟩
      rw [hbelow, Option.bind_eq_bind, Option.bind_some, if_neg Bool.false_ne_true, hread]
      rfl

/-- The `while` follows the run from a cell to its end. -/
theorem snake_spec (left : Nat) : ∀ x y : Nat, a.length - x ≤ left →
    ∃ e : Nat, snake a b left x y = some ((x : Int) + e, (y : Int) + e) ∧
      Run Token.same a b x y e := by
  induction left with
  | zero =>
    intro x y hleft
    refine ⟨0, rfl, .none fun h => ?_⟩
    have := h.lt
    omega
  | succ left ih =>
    intro x y hleft
    unfold snake
    by_cases hin : x < a.length ∧ y < b.length
    · rw [if_pos (by omega), read_ofNat, read_ofNat, List.getElem?_eq_getElem hin.1,
        List.getElem?_eq_getElem hin.2]
      simp only [Option.bind_eq_bind, Option.bind_some]
      have hx := hin.1
      have hy := hin.2
      by_cases hsame : a[x].same b[y] = true
      · obtain ⟨e, hsnake, hrun⟩ := ih (x + 1) (y + 1) (by omega)
        rw [Nat.cast_add, Nat.cast_add, Nat.cast_one] at hsnake
        refine ⟨e + 1, ?_, .cons ⟨_, _, List.getElem?_eq_getElem hin.1,
          List.getElem?_eq_getElem hin.2, hsame⟩ hrun⟩
        rw [if_pos hsame, hsnake, Nat.cast_add, Nat.cast_one, Int.add_assoc, Int.add_assoc,
          Int.add_comm 1]
      · refine ⟨0, ?_, .none fun h => ?_⟩
        · rw [if_neg hsame, Nat.cast_zero, Int.add_zero, Int.add_zero]
          rfl
        · obtain ⟨p, q, hp, hq, hpq⟩ := h
          rw [List.getElem?_eq_getElem hin.1] at hp
          rw [List.getElem?_eq_getElem hin.2] at hq
          cases hp
          cases hq
          exact hsame hpq
    · rw [if_neg (by omega)]
      exact ⟨0, rfl, .none fun h => hin h.lt⟩

/-! ## Rounds -/

/-- A row past the end of both lists. -/
def PastEnd (a b : List Token) (k : Int) (x : Nat) : Prop :=
  a.length ≤ x ∧ (b.length : Int) ≤ x - k

instance (k : Int) (x : Nat) : Decidable (PastEnd a b k x) :=
  inferInstanceAs (Decidable (a.length ≤ x ∧ (b.length : Int) ≤ x - k))

/-- A round from its diagonal `k` on, where those before `k` hold their furthest rows
and none of these is past the end: it stops at a row past the end, or leaves the array
as the next round finds it. -/
theorem diagonals_spec {d : Nat} (hoffset : (d : Int) < offset) (left : Nat) :
    ∀ (k : Int) (v : List Int), -d ≤ k → k + 2 * left = d + 2 → Ready a b offset d v →
      (∀ i x, i < k → Furthest Token.same a b d i x →
        read v (i + offset) = some (x : Int) ∧ ¬ PastEnd a b i x) →
      (∃ w, diagonals a b offset d left k v = some (w, true) ∧
        ∃ i x, Furthest Token.same a b d i x ∧ PastEnd a b i x) ∨
      (∃ w, diagonals a b offset d left k v = some (w, false) ∧ Ready a b offset (d + 1) w ∧
        ∀ i x, Furthest Token.same a b d i x → ¬ PastEnd a b i x) := by
  induction left with
  | zero =>
    intro k v _ hleft h hbefore
    have hall : ∀ i x, Furthest Token.same a b d i x →
        read v (i + offset) = some (x : Int) ∧ ¬ PastEnd a b i x := by
      intro i x hx
      obtain ⟨j, hj, hij⟩ := hx.onRound
      exact hbefore i x (by omega) hx
    refine .inr ⟨v, rfl, ⟨h.length, fun h => absurd h (Nat.succ_ne_zero d), ?_⟩,
      fun i x hx => (hall i x hx).2⟩
    intro e i x he hx
    cases he
    exact (hall i x hx).1
  | succ left ih =>
    intro k v hlow hleft h hbefore
    obtain ⟨x, y, henter, hentered⟩ := enter_spec h
      (show OnRound d k from ⟨d - left, by omega, by omega⟩)
    obtain ⟨e, hsnake, hrun⟩ := snake_spec (a := a) (b := b) (a.length - (x : Int)).toNat x y
      (by omega)
    have hfurthest := hentered.furthest hrun
    have hdiagonal := hentered.diagonal
    obtain ⟨hlength, horigin, hrows⟩ := h
    let w := v.set (k + offset).toNat ((x + e : Nat) : Int)
    have hstep : diagonals a b offset d (left + 1) k v =
        if PastEnd a b k (x + e) then some (w, true) else diagonals a b offset d left (k + 2) w := by
      have hend : ((x : Int) + e ≥ a.length ∧ (y : Int) + e ≥ b.length) ↔ PastEnd a b k (x + e) := by
        unfold PastEnd
        omega
      rw [diagonals, henter]
      simp only [Option.bind_eq_bind, Option.bind_some, show (x : Int) - k = y by omega, hsnake]
      split
      · rw [if_pos (hend.mp (by assumption))]
        rfl
      · rw [if_neg fun h => absurd (hend.mpr h) (by assumption)]
        rfl
    have hother : ∀ i, i ≠ k → read w (i + offset) = read v (i + offset) := by
      intro i hi
      exact read_set_ne (by omega) (by omega)
    by_cases hpast : PastEnd a b k (x + e)
    · exact .inl ⟨w, by rw [hstep, if_pos hpast], k, x + e, hfurthest, hpast⟩
    · rw [hstep, if_neg hpast]
      apply ih (k + 2) w (by omega) (by omega)
      · refine ⟨by rw [List.length_set]; exact hlength, fun hd => ?_, fun c i u hc hu => ?_⟩
        · have := hother 1 (by omega)
          rw [Int.add_comm offset, this, Int.add_comm, horigin hd]
        · -- the diagonals of the round before have the other parity
          obtain ⟨j, hj, hij⟩ := hu.onRound
          rw [hother i (by omega)]
          exact hrows c i u hc hu
      · intro i u hi hu
        rcases eq_or_ne i k with rfl | hne
        · rw [hu.unique hfurthest]
          exact ⟨read_set_self (by omega) (by omega), hpast⟩
        · obtain ⟨j, hj, hij⟩ := hu.onRound
          rw [hother i hne]
          exact hbefore i u (by omega) hu

/-- The rounds from `d` on, where no script is shorter than `d`: they stop in the round
of the shortest script, or no script is within the bound. -/
theorem rounds_spec {bound : Nat} (hoffset : (bound : Int) < offset) (left : Nat) :
    ∀ (d : Nat) (v : List Int) (trace : List (List Int)), d + left = bound + 1 →
      Ready a b offset d v → trace.length = d →
      (∀ i w, (trace)[i]? = some w → Ready a b offset i w) →
      (∀ e < d, e ∉ costs Token.same a b) →
      (∃ t, rounds a b offset left d v trace = some (some t) ∧
        t.length = distance Token.same a b + 1 ∧ distance Token.same a b ≤ bound ∧
        ∀ i w, t[i]? = some w → Ready a b offset i w) ∨
      (rounds a b offset left d v trace = some none ∧
        ∀ e ≤ bound, e ∉ costs Token.same a b) := by
  induction left with
  | zero =>
    intro d v trace hd _ _ _ hleast
    exact .inr ⟨rfl, fun e he => hleast e (by omega)⟩
  | succ left ih =>
    intro d v trace hd h hlength htrace hleast
    have hpushed : ∀ i w, (trace ++ [v])[i]? = some w → Ready a b offset i w := by
      intro i w hw
      rcases Nat.lt_or_ge i trace.length with hi | hi
      · rw [List.getElem?_append_left hi] at hw
        exact htrace i w hw
      · rw [List.getElem?_append_right hi, List.getElem?_singleton] at hw
        split at hw
        · obtain rfl : i = d := by omega
          exact Option.some.inj hw ▸ h
        · cases hw
    have hround := @diagonals_spec a b offset d (by omega) (d + 1) (-d) v (Int.le_refl _) (by omega) h fun i x hi hx => by
        obtain ⟨j, hj, hij⟩ := hx.onRound
        omega
    unfold rounds
    rcases hround with ⟨w, hw, k, x, hx, hpast⟩ | ⟨w, hw, hready, hnone⟩
    · left
      obtain ⟨e, hmem, hle, -⟩ := hx.ended hpast.1 hpast.2
      obtain rfl : e = d := by
        rcases Nat.eq_or_lt_of_le hle with he | he
        · exact he
        · exact absurd hmem (hleast e he)
      have hdistance := distance_eq hmem hleast
      refine ⟨trace ++ [v], by simp only [hw, Option.bind_eq_bind, Option.bind_some]; rfl, ?_, ?_,
        hpushed⟩
      · rw [hdistance, List.length_append, hlength]
        rfl
      · omega
    · have hmem : d ∉ costs Token.same a b := by
        intro hmem
        have honRound := (mem_costs_iff.mp hmem).onRound
        obtain ⟨x, hx⟩ := exists_furthest Token.same a b honRound
        have hle := hx.past_end hmem
        exact hnone _ x hx ⟨hle, by omega⟩
      simp only [hw, Option.bind_eq_bind, Option.bind_some, Bool.false_eq_true, if_false]
      apply ih (d + 1) w (trace ++ [v]) (by omega) hready
      · rw [List.length_append, hlength]
        rfl
      · exact hpushed
      · intro e he
        rcases Nat.eq_or_lt_of_le (Nat.le_of_lt_succ he) with rfl | he
        · exact hmem
        · exact hleast e he

/-- The search gives the arrays of the rounds up to the shortest script, or gives up
where that is longer than the budget. -/
theorem myersTrace_spec (a b : List Token) (maxD : Nat) :
    (∃ t, myersTrace a b maxD (diffOffset a.length b.length maxD) = some (some t) ∧
      t.length = distance Token.same a b + 1 ∧ distance Token.same a b ≤ maxD ∧
      ∀ i w, t[i]? = some w → Ready a b (diffOffset a.length b.length maxD) i w) ∨
    (myersTrace a b maxD (diffOffset a.length b.length maxD) = some none ∧
      maxD < distance Token.same a b) := by
  have hoffset : ((min maxD (a.length + b.length) : Nat) : Int) <
      diffOffset a.length b.length maxD := by
    unfold diffOffset
    omega
  have hrounds := rounds_spec (a := a) (b := b) hoffset (min maxD (a.length + b.length) + 1) 0
    _ [] (Nat.zero_add _) (ready_zeros (by omega)) rfl (fun i w h => by cases h)
    fun e he => absurd he (Nat.not_lt_zero e)
  unfold myersTrace
  rcases hrounds with ⟨t, ht, hlength, hle, hready⟩ | ⟨hnone, hall⟩
  · exact .inl ⟨t, ht, hlength, by omega, hready⟩
  · refine .inr ⟨hnone, Nat.lt_of_not_ge fun hle => ?_⟩
    obtain ⟨hmem, hleast⟩ := distance_isLeast Token.same a b
    have hsum := hleast (length_add_length_mem_costs Token.same a b)
    exact hall _ (by omega) hmem

end Search

end YawnApp.SessionCore.RetryDiff
