import Mathlib.Data.List.GetD
import Mathlib.Data.List.Infix
import Mathlib.Order.Lattice

set_option autoImplicit false

/-!
# Walking a longest common subsequence

The table of the lengths of common subsequences of all suffixes of two lists, and the walk
through it that pairs equal heads at once and otherwise drops the head whose loss costs
nothing, the first list's when neither does.
-/

namespace YawnApp.Foundation

namespace CommonLines

open List

variable {α : Type} [DecidableEq α]

/-! ## The table -/

/-- A row of the table from the one below it: the entries for a line and the suffixes of the
second list. -/
def tableRow (line : α) : List α → List Nat → List Nat
  | [], _ => [0]
  | text :: rest, below =>
    let row := tableRow line rest below.tail
    (if line = text then below.tail.headD 0 + 1 else max (below.headD 0) (row.headD 0)) :: row

/-- The rows for the suffixes of the first list. -/
def table : List α → List α → List (List Nat)
  | [], next => [List.replicate (next.length + 1) 0]
  | line :: rest, next =>
    let below := table rest next
    tableRow line next (below.headD []) :: below

def entry (rows : List (List Nat)) (i j : Nat) : Nat := (rows.getD i []).getD j 0

/-- The length of a longest common subsequence. -/
def common : List α → List α → Nat
  | [], _ => 0
  | _ :: _, [] => 0
  | a :: l, b :: r => if a = b then common l r + 1 else max (common l (b :: r)) (common (a :: l) r)
termination_by l r => l.length + r.length

@[simp] theorem common_nil_left (r : List α) : common [] r = 0 := by rw [common]

@[simp] theorem common_nil_right (l : List α) : common l [] = 0 := by
  cases l with
  | nil | cons => rw [common]

theorem common_cons (a b : α) (l r : List α) : common (a :: l) (b :: r) =
    if a = b then common l r + 1 else max (common l (b :: r)) (common (a :: l) r) := by
  rw [common]

theorem tableRow_eq (line : α) (rest : List α) : ∀ next : List α,
    tableRow line next (next.tails.map (common rest)) = next.tails.map (common (line :: rest)) := by
  intro next
  induction next with
  | nil =>
    rw [tableRow, List.tails, map_singleton, common_nil_right]
  | cons text next ih =>
    have hhead : ∀ l : List α, (next.tails.map (common l)).headD 0 = common l next := by
      intro l
      cases next <;> rfl
    rw [tableRow, tails_cons, map_cons, map_cons, tail_cons, headD_cons,
      ih, hhead, hhead, common_cons]

theorem table_eq (l : List α) : ∀ next : List α,
    table l next = l.tails.map fun rest => next.tails.map (common rest) := by
  intro next
  induction l with
  | nil =>
    rw [table, List.tails, map_singleton]
    congr 1
    refine (eq_replicate_iff.mpr ⟨?_, ?_⟩).symm
    · rw [length_map, length_tails]
    · intro n hn
      obtain ⟨suffix, -, rfl⟩ := mem_map.mp hn
      exact common_nil_left suffix
  | cons line rest ih =>
    have hhead : (rest.tails.map fun rest => next.tails.map (common rest)).headD [] =
        next.tails.map (common rest) := by
      cases rest <;> rfl
    rw [table, ih, hhead, tableRow_eq, tails_cons, map_cons]

/-- The entry of two positions is about what comes after them. -/
theorem entry_table {before rest before' rest' : List α} :
    entry (table (before ++ rest) (before' ++ rest')) before.length before'.length =
      common rest rest' := by
  have htails : ∀ p s : List α, (p ++ s).tails[p.length]? = some s := by
    intro p s
    rw [List.getElem?_eq_getElem (by rw [length_tails, length_append]; omega),
      getElem_tails, drop_left]
  unfold entry
  simp only [table_eq, getD_eq_getElem?_getD, List.getElem?_map, htails, Option.map_some,
    Option.getD_some]

/-! ## Bounds -/

theorem common_le_left (l : List α) : ∀ r : List α, common l r ≤ l.length := by
  induction l with
  | nil => exact fun r => (common_nil_left r).le
  | cons a l ih =>
    intro r
    induction r with
    | nil => exact (common_nil_right _).le.trans (Nat.zero_le _)
    | cons b r ihr =>
      rw [common_cons, length_cons]
      split
      · exact Nat.succ_le_succ (ih r)
      · exact max_le ((ih _).trans (Nat.le_succ _)) ihr

theorem common_comm (l : List α) : ∀ r : List α, common l r = common r l := by
  induction l with
  | nil => exact fun r => (common_nil_left r).trans (common_nil_right r).symm
  | cons a l ih =>
    intro r
    induction r with
    | nil => exact (common_nil_right _).trans (common_nil_left _).symm
    | cons b r ihr =>
      rw [common_cons, common_cons, ih, ih, ihr, max_comm]
      simp only [eq_comm]

theorem common_le_right (l r : List α) : common l r ≤ r.length := by
  rw [common_comm]
  exact common_le_left r l

/-- A list that is a sublist of the other is all common. -/
theorem common_of_sublist : ∀ {r l : List α}, l.Sublist r → common l r = l.length := by
  intro r
  induction r with
  | nil =>
    intro l h
    rw [sublist_nil.mp h, common_nil_left, length_nil]
  | cons b r ih =>
    intro l h
    apply le_antisymm (common_le_left _ _)
    cases l with
    | nil => exact Nat.zero_le _
    | cons a l =>
      rw [common_cons]
      split
      · rename_i heq
        subst heq
        rw [length_cons, ih (cons_sublist_cons.mp h)]
      · rename_i hne
        have hrest : (a :: l).Sublist r := by
          cases h with
          | cons _ h => exact h
          | cons_cons => exact absurd rfl hne
        exact (ih hrest).ge.trans (le_max_right _ _)

theorem common_of_sublist_right {l r : List α} (h : r.Sublist l) : common l r = r.length := by
  rw [common_comm, common_of_sublist h]

/-! ## The walk -/

/-- The walk from two positions: the pairs of positions of equal lines, that of the second list
first. -/
def walk (prev next : List α) (rows : List (List Nat)) : Nat → Nat → Nat → List (Nat × Nat)
  | 0, _, _ => []
  | fuel + 1, i, j =>
    match prev[i]?, next[j]? with
    | some line, some text =>
      if line = text then (j, i) :: walk prev next rows fuel (i + 1) (j + 1)
      else if entry rows i (j + 1) ≤ entry rows (i + 1) j then walk prev next rows fuel (i + 1) j
      else walk prev next rows fuel i (j + 1)
    | _, _ => []

/-- The walk of the two lists. -/
def alignment (prev next : List α) : List (Nat × Nat) :=
  walk prev next (table prev next) (prev.length + next.length) 0 0

/-- Consecutive pairs. -/
def diagonal (i j count : Nat) : List (Nat × Nat) :=
  (List.range count).map fun offset => (j + offset, i + offset)

theorem diagonal_succ (i j count : Nat) :
    diagonal i j (count + 1) = (j, i) :: diagonal (i + 1) (j + 1) count := by
  unfold diagonal
  rw [range_succ_eq_map, map_cons, map_map]
  refine congrArg₂ _ rfl (map_congr_left fun offset _ => ?_)
  rw [Function.comp_apply, Nat.succ_eq_add_one, Prod.mk.injEq]
  omega

section Walk

variable {prev next rest rest' : List α} {rows : List (List Nat)} {fuel i j : Nat} {line text : α}
  {before before' : List α}

theorem walk_pair (hprev : prev[i]? = some line) (hnext : next[j]? = some line) :
    walk prev next rows (fuel + 1) i j = (j, i) :: walk prev next rows fuel (i + 1) (j + 1) := by
  rw [walk, hprev, hnext]
  exact if_pos rfl

theorem walk_left (hprev : prev[i]? = some line) (hnext : next[j]? = some text)
    (hne : line ≠ text) (hle : entry rows i (j + 1) ≤ entry rows (i + 1) j) :
    walk prev next rows (fuel + 1) i j = walk prev next rows fuel (i + 1) j := by
  rw [walk, hprev, hnext]
  exact (if_neg hne).trans (if_pos hle)

theorem walk_right (hprev : prev[i]? = some line) (hnext : next[j]? = some text)
    (hne : line ≠ text) (hlt : entry rows (i + 1) j < entry rows i (j + 1)) :
    walk prev next rows (fuel + 1) i j = walk prev next rows fuel i (j + 1) := by
  rw [walk, hprev, hnext]
  exact (if_neg hne).trans (if_neg (Nat.not_le.mpr hlt))

/-- Where either list ends the walk ends. -/
theorem walk_end (h : prev[i]? = none ∨ next[j]? = none) :
    walk prev next rows fuel i j = [] := by
  cases fuel with
  | zero => rfl
  | succ =>
    rw [walk]
    rcases h with h | h
    · rw [h]
    · rw [h]
      cases prev[i]? <;> rfl

section

omit [DecidableEq α]

theorem getElem?_after (before : List α) : (before ++ line :: rest)[before.length]? = some line := by
  rw [List.getElem?_append_right (le_refl _), Nat.sub_self, List.getElem?_cons_zero]

theorem getElem?_all (before : List α) : before[before.length]? = none :=
  List.getElem?_eq_none (le_refl _)

theorem length_after (before : List α) (line : α) :
    (before ++ [line]).length = before.length + 1 := by
  rw [length_append, length_singleton]

theorem append_after (before rest : List α) (line : α) :
    before ++ line :: rest = (before ++ [line]) ++ rest := by
  rw [append_assoc]
  rfl

end

/-- The entries beside two positions. -/
theorem entry_left (hprev : prev = before ++ line :: rest) (hnext : next = before' ++ rest') :
    entry (table prev next) (before.length + 1) before'.length = common rest rest' := by
  rw [hprev, hnext, append_after, ← length_after before line]
  exact entry_table

theorem entry_right (hprev : prev = before ++ rest) (hnext : next = before' ++ text :: rest') :
    entry (table prev next) before.length (before'.length + 1) = common rest rest' := by
  rw [hprev, hnext, append_after, ← length_after before' text]
  exact entry_table

/-- Lines that both lists go on with are paired. -/
theorem walk_common (shared : List α) : ∀ {before before' : List α},
    prev = before ++ (shared ++ rest) → next = before' ++ (shared ++ rest') →
    walk prev next rows (shared.length + fuel) before.length before'.length =
      diagonal before.length before'.length shared.length ++ walk prev next rows fuel
        (before.length + shared.length) (before'.length + shared.length) := by
  induction shared with
  | nil => exact fun _ _ => by rw [length_nil, Nat.zero_add]; rfl
  | cons line shared ih =>
    intro before before' hprev hnext
    have hrest := @ih (before ++ [line]) (before' ++ [line]) (hprev.trans (append_after _ _ _))
      (hnext.trans (append_after _ _ _))
    rw [length_after, length_after] at hrest
    rw [length_cons, Nat.add_right_comm, diagonal_succ,
      walk_pair (hprev ▸ getElem?_after before) (hnext ▸ getElem?_after before'), hrest,
      cons_append, Nat.add_right_comm, Nat.add_right_comm before'.length, Nat.add_assoc,
      Nat.add_assoc before'.length]

/-- Lines that only the first list has are dropped. -/
theorem walk_dropped {first : α} (dropped : List α) : ∀ {before before' : List α},
    prev = before ++ (dropped ++ first :: rest) → next = before' ++ first :: rest →
    first ∉ dropped →
    walk prev next (table prev next) (dropped.length + fuel) before.length before'.length =
      walk prev next (table prev next) fuel (before.length + dropped.length) before'.length := by
  induction dropped with
  | nil => exact fun _ _ _ => by rw [length_nil, Nat.zero_add, Nat.add_zero]
  | cons line dropped ih =>
    intro before before' hprev hnext hnot
    rw [mem_cons, not_or] at hnot
    rw [cons_append] at hprev
    have hrest := @ih (before ++ [line]) before' (hprev.trans (append_after _ _ _)) hnext hnot.2
    rw [length_after] at hrest
    have hle : entry (table prev next) before.length (before'.length + 1) ≤
        entry (table prev next) (before.length + 1) before'.length := by
      rw [entry_left hprev hnext, entry_right hprev hnext,
        common_of_sublist_right (sublist_append_right _ _), length_cons]
      exact (common_le_right _ _).trans (Nat.le_succ _)
    rw [length_cons, Nat.add_right_comm,
      walk_left (hprev ▸ getElem?_after before) (hnext ▸ getElem?_after before')
        (fun heq => hnot.1 heq.symm) hle, hrest, Nat.add_right_comm, Nat.add_assoc]

/-- Lines that only the second list has are passed over. -/
theorem walk_added {first : α} (added : List α) : ∀ {before before' : List α},
    prev = before ++ first :: rest → next = before' ++ (added ++ first :: rest) →
    first ∉ added →
    walk prev next (table prev next) (added.length + fuel) before.length before'.length =
      walk prev next (table prev next) fuel before.length (before'.length + added.length) := by
  induction added with
  | nil => exact fun _ _ _ => by rw [length_nil, Nat.zero_add, Nat.add_zero]
  | cons text added ih =>
    intro before before' hprev hnext hnot
    rw [mem_cons, not_or] at hnot
    rw [cons_append] at hnext
    have hrest := @ih before (before' ++ [text]) hprev (hnext.trans (append_after _ _ _)) hnot.2
    rw [length_after] at hrest
    have hlt : entry (table prev next) (before.length + 1) before'.length <
        entry (table prev next) before.length (before'.length + 1) := by
      rw [entry_left hprev hnext, entry_right hprev hnext,
        common_of_sublist (sublist_append_right _ _), length_cons]
      exact Nat.lt_succ_of_le (common_le_left _ _)
    rw [length_cons, Nat.add_right_comm,
      walk_right (hprev ▸ getElem?_after before) (hnext ▸ getElem?_after before') hnot.1 hlt,
      hrest, Nat.add_right_comm, Nat.add_assoc]

/-- Of two lines at one place the first list's is dropped. -/
theorem walk_changed (hprev : prev = before ++ line :: rest)
    (hnext : next = before' ++ text :: rest) (hne : line ≠ text) :
    walk prev next (table prev next) (fuel + 1) before.length before'.length =
      walk prev next (table prev next) fuel (before.length + 1) before'.length := by
  refine walk_left (hprev ▸ getElem?_after before) (hnext ▸ getElem?_after before') hne ?_
  rw [entry_left hprev hnext, entry_right hprev hnext,
    common_of_sublist (sublist_cons_self _ _)]
  exact common_le_right _ _

end Walk

/-! ## Alignments -/

section Alignments

variable {before after : List α}

/-- What both lists end with is paired to the end. -/
theorem walk_last {prev next shared before before' : List α} {fuel : Nat}
    (hprev : prev = before ++ shared) (hnext : next = before' ++ shared) {rows : List (List Nat)}
    (hfuel : shared.length ≤ fuel) :
    walk prev next rows fuel before.length before'.length =
      diagonal before.length before'.length shared.length := by
  obtain ⟨more, rfl⟩ := Nat.exists_eq_add_of_le hfuel
  have hend : prev[before.length + shared.length]? = none := by
    rw [hprev, ← length_append]
    exact getElem?_all _
  have hwalk := @walk_common _ _ prev next [] [] rows more shared before before'
    (by rw [append_nil, hprev]) (by rw [append_nil, hnext])
  rw [hwalk, walk_end (.inl hend), append_nil]

/-- The lists start alike. -/
theorem alignment_shared (shared l r : List α) :
    alignment (shared ++ l) (shared ++ r) = diagonal 0 0 shared.length ++
      walk (shared ++ l) (shared ++ r) (table (shared ++ l) (shared ++ r))
        (shared.length + l.length + r.length) shared.length shared.length := by
  have hfuel : (shared ++ l).length + (shared ++ r).length =
      shared.length + (shared.length + l.length + r.length) := by
    rw [length_append, length_append]
    omega
  have hwalk := @walk_common _ _ (shared ++ l) (shared ++ r) l r
    (table (shared ++ l) (shared ++ r)) (shared.length + l.length + r.length) shared [] [] rfl rfl
  rw [length_nil, Nat.zero_add] at hwalk
  rw [alignment, hfuel, hwalk]

/-- One line is changed, not to the line below it. -/
theorem alignment_changed {line text : α} (hne : line ≠ text)
    (hbelow : ∀ first ∈ after.head?, first ≠ text) :
    alignment (before ++ line :: after) (before ++ text :: after) =
      diagonal 0 0 before.length ++
        diagonal (before.length + 1) (before.length + 1) after.length := by
  have hfuel : before.length + (line :: after).length + (text :: after).length =
      [text].length + (before.length + after.length + after.length) + 1 := by
    rw [length_cons, length_cons, length_singleton]
    omega
  rw [alignment_shared, hfuel, walk_changed rfl rfl hne]
  congr 1
  cases after with
  | nil =>
    rw [← length_after before line]
    exact walk_end (.inl (getElem?_all _))
  | cons first rest =>
    have hadded := @walk_added _ _ (before ++ line :: first :: rest) (before ++ text :: first :: rest)
      rest (before.length + (first :: rest).length + (first :: rest).length) first [text]
      (before ++ [line]) before (append_after _ _ _) rfl
      (by rw [mem_singleton]; exact hbelow first rfl)
    have hlast := @walk_last _ _ (before ++ line :: first :: rest) (before ++ text :: first :: rest)
      (first :: rest) (before ++ [line]) (before ++ [text])
      (before.length + (first :: rest).length + (first :: rest).length) (append_after _ _ _)
      (append_after _ _ _) (table (before ++ line :: first :: rest) (before ++ text :: first :: rest))
      (by omega)
    rw [length_after] at hadded
    rw [length_after, length_after] at hlast
    rw [hadded, length_singleton, hlast]

/-- Lines that are nowhere else come between. -/
theorem alignment_inserted {added : List α} (hnew : ∀ text ∈ added, text ∉ after) :
    alignment (before ++ after) (before ++ (added ++ after)) =
      diagonal 0 0 before.length ++
        diagonal before.length (before.length + added.length) after.length := by
  rw [alignment_shared]
  congr 1
  cases after with
  | nil =>
    simp only [append_nil]
    exact walk_end (.inl (getElem?_all _))
  | cons first rest =>
    have hfuel : before.length + (first :: rest).length + (added ++ first :: rest).length =
        added.length + (before.length + (first :: rest).length + (first :: rest).length) := by
      rw [length_append]
      omega
    have hlength : before.length + added.length = (before ++ added).length :=
      length_append.symm
    rw [hfuel, walk_added added rfl rfl (fun hmem => hnew first hmem mem_cons_self), hlength]
    apply walk_last rfl (append_assoc _ _ _).symm
    omega

/-- Lines that are nowhere else are taken away. -/
theorem alignment_removed {removed : List α} (hgone : ∀ line ∈ removed, line ∉ after) :
    alignment (before ++ (removed ++ after)) (before ++ after) =
      diagonal 0 0 before.length ++
        diagonal (before.length + removed.length) before.length after.length := by
  rw [alignment_shared]
  congr 1
  cases after with
  | nil =>
    simp only [append_nil]
    exact walk_end (.inr (getElem?_all _))
  | cons first rest =>
    have hfuel : before.length + (removed ++ first :: rest).length + (first :: rest).length =
        removed.length + (before.length + (first :: rest).length + (first :: rest).length) := by
      rw [length_append]
      omega
    have hlength : before.length + removed.length = (before ++ removed).length :=
      length_append.symm
    rw [hfuel, walk_dropped removed rfl rfl (fun hmem => hgone first hmem mem_cons_self),
      hlength]
    apply walk_last (append_assoc _ _ _).symm rfl
    omega

end Alignments

end CommonLines

end YawnApp.Foundation
