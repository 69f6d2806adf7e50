import YawnApp.SessionCore.RetryDiffSearch

set_option autoImplicit false

/-!
# The script of the word diff

`backtrack` walks the arrays of the search from the last back to the first and reads a
script off them.  It repeats at each array the choice that the search made there, and so
goes back through the furthest rows the search went through.

The script is a shortest one, and what it keeps are words: a boundary is the same as
nothing.
-/

namespace YawnApp.SessionCore.RetryDiff

open YawnApp.Foundation List
open YawnApp.Foundation.EditScript

/-! ## Ops and scripts -/

/-- The ops of a script, with the positions they stand at. -/
def located : List Edit → Nat → Nat → List Op
  | [], _, _ => []
  | .keep :: s, x, y => .keep :: located s (x + 1) (y + 1)
  | .delete :: s, x, y => .delete x :: located s (x + 1) y
  | .insert :: s, x, y => .insert y :: located s x (y + 1)

theorem located_append {a b : List Token} {s : List Edit} (t : List Edit)
    (h : Turns Token.same s a b) :
    ∀ x y, located (s ++ t) x y = located s x y ++ located t (x + a.length) (y + b.length) := by
  induction h with
  | nil => intro x y; rfl
  | keep _ _ ih =>
    intro x y
    rw [cons_append, located, ih (x + 1) (y + 1), length_cons, length_cons,
      Nat.add_assoc, Nat.add_assoc, Nat.add_comm 1, Nat.add_comm 1]
    rfl
  | delete _ ih =>
    intro x y
    rw [cons_append, located, ih (x + 1) y, length_cons, Nat.add_assoc, Nat.add_comm 1]
    rfl
  | insert _ ih =>
    intro x y
    rw [cons_append, located, ih x (y + 1), length_cons, Nat.add_assoc, Nat.add_comm 1]
    rfl

theorem located_keeps (e : Nat) :
    ∀ x y, located (List.replicate e .keep) x y = List.replicate e .keep := by
  induction e with
  | zero => intro x y; rfl
  | succ e ih =>
    intro x y
    rw [replicate_succ, located, ih, replicate_succ]

theorem cost_keeps (e : Nat) : cost (List.replicate e .keep) = 0 := by
  induction e with
  | zero => rfl
  | succ e ih => rw [replicate_succ, cost, ih]

theorem deleted_located (s : List Edit) :
    ∀ x y, (located s x y).filterMap Op.deleted = deletions s x := by
  induction s with
  | nil => intro x y; rfl
  | cons e s ih =>
    intro x y
    cases e with
    | keep => exact ih (x + 1) (y + 1)
    | delete => exact congrArg (x :: ·) (ih (x + 1) y)
    | insert => exact ih x (y + 1)

theorem inserted_located (s : List Edit) :
    ∀ x y, (located s x y).filterMap Op.inserted = insertions s y := by
  induction s with
  | nil => intro x y; rfl
  | cons e s ih =>
    intro x y
    cases e with
    | keep => exact ih (x + 1) (y + 1)
    | delete => exact ih (x + 1) y
    | insert => exact congrArg (y :: ·) (ih x (y + 1))

/-- The pairs of positions that ops keep, where the first op stands at `x` and `y`. -/
def keptPairs : List Op → Nat → Nat → List (Nat × Nat)
  | [], _, _ => []
  | .keep :: ops, x, y => (x, y) :: keptPairs ops (x + 1) (y + 1)
  | .delete _ :: ops, x, y => keptPairs ops (x + 1) y
  | .insert _ :: ops, x, y => keptPairs ops x (y + 1)

theorem keptPairs_located (s : List Edit) :
    ∀ x y, keptPairs (located s x y) x y = pairs s x y := by
  induction s with
  | nil => intro x y; rfl
  | cons e s ih =>
    intro x y
    cases e with
    | keep => exact congrArg ((x, y) :: ·) (ih (x + 1) (y + 1))
    | delete => exact ih (x + 1) y
    | insert => exact ih x (y + 1)

/-! ## The way back -/

section Back

variable {a b : List Token} {offset : Int} {copies : List (List Int)}

/-- From the furthest row of a round, if it lies within both lists, the way back gives
the ops of a script of the round's cost, the last first. -/
theorem backtrackFrom_spec (hsize : a.length ≤ 2 ^ 64 ∧ b.length ≤ 2 ^ 64)
    (hready : ∀ i w, copies[i]? = some w → Ready a b offset i w) (d : Nat) :
    ∀ x y : Nat, d < copies.length → x ≤ a.length → y ≤ b.length →
      Furthest Token.same a b d ((x : Int) - y) x →
      ∃ ops s, backtrackFrom copies offset (d + 1) x y = some ops ∧
        Turns Token.same s (a.take x) (b.take y) ∧ cost s = d ∧
        ops.reverse = located s 0 0 := by
  induction d with
  | zero =>
    intro x y hd hx hy hfurthest
    have hw := List.getElem?_eq_getElem hd
    have h := hready 0 _ hw
    obtain ⟨j, hj, hk⟩ := hfurthest.onRound
    obtain rfl : x = y := by omega
    rw [Int.sub_self] at hfurthest
    obtain ⟨e, hxe, hrun⟩ := entered_origin.run hfurthest
    rw [Nat.zero_add] at hxe
    subst hxe
    have hstart : Turns Token.same [] (a.take 0) (b.take 0) := .nil
    have hturns := hstart.snoc_run x hrun.kept
    rw [Nat.zero_add, nil_append] at hturns
    refine ⟨List.replicate x .keep, List.replicate x .keep, ?_, hturns, cost_keeps x, ?_⟩
    · have habove : fromAbove copies[0] offset ((0 : Nat) : Int) ((x : Int) - x) =
          some true := by
        unfold fromAbove
        rw [if_pos (by omega)]
      have hread : read copies[0] ((x : Int) - x + 1 + offset) = some 0 := by
        rw [show (x : Int) - x + 1 + offset = offset + 1 by omega]
        exact h.origin rfl
      simp only [backtrackFrom, hw, Option.bind_eq_bind, Option.bind_some, habove, if_true, hread,
        append_nil]
      congr 2
      omega
    · rw [located_keeps, reverse_replicate]
  | succ d ih =>
    intro x y hd hx hy hfurthest
    have hw := List.getElem?_eq_getElem hd
    have h := hready (d + 1) _ hw
    rcases fromAbove_spec h hfurthest.onRound with
      ⟨habove, u, hu, hbelow⟩ | ⟨hbelow, u, hu, habove⟩
    · -- back to the diagonal above: an insertion
      obtain ⟨v, hreach, hv, hentered⟩ := hu.entered_above hbelow
      obtain ⟨e, rfl, hrun⟩ := hentered.run hfurthest
      obtain rfl : y = v + 1 + e := by omega
      have hread := h.rows d _ u rfl hu
      rw [← hv] at hu
      obtain ⟨ops, s, hops, hs, rfl, hreverse⟩ := ih u v (by omega) (by omega) (by omega) hu
      have hinserted := hs.snoc_insert (b := b) (y := v) (by omega)
      refine ⟨List.replicate e .keep ++ [.insert v] ++ ops,
        s ++ [.insert] ++ List.replicate e .keep, ?_, hinserted.snoc_run e hrun.kept, ?_, ?_⟩
      · have hprevY : (u : Int) - (((u + e : Nat) : Int) - (v + 1 + e : Nat) + 1) = v := by omega
        have hkept : (min (((u + e : Nat) : Int) - u) (((v + 1 + e : Nat) : Int) - v)).toNat = e := by
          omega
        have hstands : ((u + e : Nat) : Int) - e = u := by omega
        have hindex : asUsize (((v + 1 + e : Nat) : Int) - e - 1) = v := by
          unfold asUsize
          omega
        rw [backtrackFrom]
        simp only [hw, Option.bind_eq_bind, Option.bind_some, habove, if_true, hread, hprevY,
          hkept, hops, Nat.succ_ne_zero, if_false, hstands, hindex]
        rfl
      · rw [cost_append, cost_append, cost_keeps]
        rfl
      · rw [located_append _ hinserted, located_append _ hs, located_keeps, reverse_append,
          reverse_append, reverse_replicate, hreverse, length_take,
          length_take, Nat.min_eq_left (by omega), Nat.min_eq_left (b := b.length) (by omega),
          ← append_assoc, Nat.zero_add, Nat.zero_add]
        rfl
    · -- back to the diagonal below: a deletion
      obtain ⟨v, hreach, hv, hentered⟩ := hu.entered_below habove
      obtain ⟨e, rfl, hrun⟩ := hentered.run hfurthest
      obtain rfl : y = v + e := by omega
      have hread := h.rows d _ u rfl hu
      rw [← hv] at hu
      obtain ⟨ops, s, hops, hs, rfl, hreverse⟩ := ih u v (by omega) (by omega) (by omega) hu
      have hdeleted := hs.snoc_delete (a := a) (x := u) (by omega)
      refine ⟨List.replicate e .keep ++ [.delete u] ++ ops,
        s ++ [.delete] ++ List.replicate e .keep, ?_, hdeleted.snoc_run e hrun.kept, ?_, ?_⟩
      · have hprevY : (u : Int) - (((u + 1 + e : Nat) : Int) - (v + e : Nat) - 1) = v := by omega
        have hkept : (min (((u + 1 + e : Nat) : Int) - u) (((v + e : Nat) : Int) - v)).toNat = e := by
          omega
        have hstands : ((u + 1 + e : Nat) : Int) - e ≠ u := by omega
        have hindex : asUsize (((u + 1 + e : Nat) : Int) - e - 1) = u := by
          unfold asUsize
          omega
        rw [backtrackFrom]
        simp only [hw, Option.bind_eq_bind, Option.bind_some, hbelow, Bool.false_eq_true,
          if_false, hread, hprevY, hkept, hops, Nat.succ_ne_zero, hstands,
          hindex]
        rfl
      · rw [cost_append, cost_append, cost_keeps]
        rfl
      · rw [located_append _ hdeleted, located_append _ hs, located_keeps, reverse_append,
          reverse_append, reverse_replicate, hreverse, length_take,
          length_take, Nat.min_eq_left (by omega), Nat.min_eq_left (b := b.length) (by omega),
          ← append_assoc, Nat.zero_add, Nat.zero_add]
        rfl

end Back

/-- `backtrack` gives the ops of a shortest script. -/
theorem backtrack_spec {a b : List Token} {offset : Int} {copies : List (List Int)}
    (hsize : a.length ≤ 2 ^ 64 ∧ b.length ≤ 2 ^ 64)
    (hlength : copies.length = distance Token.same a b + 1)
    (hready : ∀ i w, copies[i]? = some w → Ready a b offset i w) :
    ∃ s, backtrack a.length b.length copies offset = some (located s 0 0) ∧
      Turns Token.same s a b ∧ cost s = distance Token.same a b := by
  obtain ⟨hmem, hleast⟩ := distance_isLeast Token.same a b
  have hfurthest : Furthest Token.same a b (distance Token.same a b)
      ((a.length : Int) - b.length) a.length := by
    obtain ⟨x, hx⟩ := exists_furthest Token.same a b
      (mem_costs_iff.mp hmem).onRound
    have hle := hx.past_end hmem
    obtain ⟨e, he, hed, hend⟩ := hx.ended hle (by omega)
    obtain ⟨rfl, -⟩ := hend (Nat.le_antisymm hed (hleast he))
    exact hx
  obtain ⟨ops, s, hops, hs, hcost, hreverse⟩ := backtrackFrom_spec hsize hready
    (distance Token.same a b) a.length b.length (by omega) (Nat.le_refl _) (Nat.le_refl _) hfurthest
  rw [take_length, take_length] at hs
  refine ⟨s, ?_, hs, hcost⟩
  rw [backtrack, hlength, hops, ← hreverse]
  rfl

/-! ## The comparison -/

theorem turnPositions_length (i : Nat) (turn : DiffTurnInput) :
    (turnPositions i turn).length = (turnTokens turn).length := by
  unfold turnPositions turnTokens
  split
  · rfl
  · rw [length_map, length_map, length_zipIdx]

/-- A token has its position. -/
theorem positions_length (turns : List DiffTurnInput) :
    (buildSequence turns).2.length = (buildSequence turns).1.length := by
  have hfrom : ∀ i, ((turns.zipIdx i).flatMap fun turn => turnPositions turn.2 turn.1).length =
      (turns.flatMap turnTokens).length := by
    induction turns with
    | nil => intro i; rfl
    | cons turn turns ih =>
      intro i
      rw [zipIdx_cons, flatMap_cons, flatMap_cons, length_append,
        length_append, ih (i + 1), turnPositions_length]
  exact hfrom 0

theorem spansFrom_isSome {positions : List Position} {flagged : List Nat} :
    ∀ (result : SpansByTurn) (opened : Option (Nat × Nat × Nat)),
      (∀ i ∈ flagged, i < positions.length) →
      ∃ spans, spansFrom positions flagged result opened = some spans := by
  induction flagged with
  | nil => exact fun result opened _ => ⟨_, rfl⟩
  | cons i flagged ih =>
    intro result opened hrange
    have hrest : ∀ j ∈ flagged, j < positions.length :=
      fun j hj => hrange j (mem_cons_of_mem i hj)
    have hi := List.getElem?_eq_getElem (hrange i mem_cons_self)
    rw [spansFrom, hi, Option.bind_eq_bind, Option.bind_some]
    split
    · exact ih _ _ hrest
    · split
      · split
        · exact ih _ _ hrest
        · exact ih _ _ hrest
      · exact ih _ _ hrest

theorem turnDiffEntries_isSome {turns : List DiffTurnInput} {flagged : List Nat}
    (h : ∀ i ∈ flagged, i < (buildSequence turns).1.length) :
    ∃ entries, turnDiffEntries turns (buildSequence turns).2 flagged = some entries := by
  have hrange : ∀ i ∈ flagged, i < (buildSequence turns).2.length := by
    rw [positions_length]
    exact h
  obtain ⟨spans, hspans⟩ := spansFrom_isSome ∅ none hrange
  unfold turnDiffEntries spansMapFromFlags
  rw [hspans]
  exact ⟨_, rfl⟩

/-- A limit of the comparison is exceeded. -/
def OverLimit (current candidate : List DiffTurnInput) : Prop :=
  maxDiffableWords < (buildSequence current).1.length ∨
    maxDiffableWords < (buildSequence candidate).1.length ∨
    maxEditBudget < distance Token.same (buildSequence current).1 (buildSequence candidate).1

/-- The comparison reads its spans off the ops of that script. -/
structure ComparedBy (current candidate : List DiffTurnInput) (ops : List Op)
    (diff : TranscriptRetryDiff) : Prop where
  state : diff.state = .computed
  searched : ∃ copies,
    myersTrace (buildSequence current).1 (buildSequence candidate).1 maxEditBudget
      (diffOffset (buildSequence current).1.length (buildSequence candidate).1.length
        maxEditBudget) = some (some copies) ∧
    backtrack (buildSequence current).1.length (buildSequence candidate).1.length copies
      (diffOffset (buildSequence current).1.length (buildSequence candidate).1.length
        maxEditBudget) = some ops
  current : turnDiffEntries current (buildSequence current).2 (ops.filterMap Op.deleted) =
    some diff.current
  candidate : turnDiffEntries candidate (buildSequence candidate).2 (ops.filterMap Op.inserted) =
    some diff.candidate

/-- The comparison is skipped over a limit, and read off a shortest script else. -/
theorem diffTranscriptTurns_spec (current candidate : List DiffTurnInput) :
    (OverLimit current candidate ∧
      diffTranscriptTurns current candidate = some TranscriptRetryDiff.skipped) ∨
    (¬ OverLimit current candidate ∧
      ∃ diff s, diffTranscriptTurns current candidate = some diff ∧
        ComparedBy current candidate (located s 0 0) diff ∧
        Turns Token.same s (buildSequence current).1 (buildSequence candidate).1 ∧
        cost s = distance Token.same (buildSequence current).1 (buildSequence candidate).1) := by
  by_cases hsize : maxDiffableWords < (buildSequence current).1.length ∨
      maxDiffableWords < (buildSequence candidate).1.length
  · left
    refine ⟨hsize.elim .inl fun h => .inr (.inl h), ?_⟩
    unfold diffTranscriptTurns
    exact if_pos hsize
  · have hsmall : (buildSequence current).1.length ≤ 2 ^ 64 ∧
        (buildSequence candidate).1.length ≤ 2 ^ 64 := by
      unfold maxDiffableWords at hsize
      omega
    rcases myersTrace_spec (buildSequence current).1 (buildSequence candidate).1 maxEditBudget with
      ⟨copies, htrace, hlength, hle, hready⟩ | ⟨htrace, hlt⟩
    · right
      obtain ⟨s, hback, hs, hcost⟩ := backtrack_spec hsmall hlength hready
      have hdeletions : ∀ i ∈ deletions s 0, i < (buildSequence current).1.length :=
        fun i hi => by simpa using hs.deletions_lt 0 i hi
      have hinsertions : ∀ i ∈ insertions s 0, i < (buildSequence candidate).1.length :=
        fun i hi => by simpa using hs.insertions_lt 0 i hi
      obtain ⟨currentEntries, hcurrent⟩ := turnDiffEntries_isSome hdeletions
      obtain ⟨candidateEntries, hcandidate⟩ := turnDiffEntries_isSome hinsertions
      rw [← deleted_located s 0 0] at hcurrent
      rw [← inserted_located s 0 0] at hcandidate
      refine ⟨?_, ⟨.computed, currentEntries, candidateEntries⟩, s, ?_,
        ⟨rfl, ⟨copies, htrace, hback⟩, hcurrent, hcandidate⟩, hs, hcost⟩
      · rintro (h | h | h)
        · exact hsize (.inl h)
        · exact hsize (.inr h)
        · exact absurd hle (Nat.not_le.mpr h)
      · unfold diffTranscriptTurns
        simp only [gt_iff_lt, hsize, if_false, htrace, hback, hcurrent, hcandidate,
          Option.bind_eq_bind, Option.bind_some, Option.pure_def]
    · left
      refine ⟨.inr (.inr hlt), ?_⟩
      unfold diffTranscriptTurns
      simp only [gt_iff_lt, hsize, if_false, htrace, Option.bind_eq_bind, Option.bind_some,
        Option.pure_def]

/-- The comparison is skipped exactly over a limit, and computed in every other case. -/
theorem diffTranscriptTurns_skipped_iff (current candidate : List DiffTurnInput) :
    ∃ diff, diffTranscriptTurns current candidate = some diff ∧
      (diff.state = .skipped ↔
        maxDiffableWords < (buildSequence current).1.length ∨
          maxDiffableWords < (buildSequence candidate).1.length ∨
          maxEditBudget <
            distance Token.same (buildSequence current).1 (buildSequence candidate).1) ∧
      (diff.state = .computed ↔
        ¬ (maxDiffableWords < (buildSequence current).1.length ∨
          maxDiffableWords < (buildSequence candidate).1.length ∨
          maxEditBudget <
            distance Token.same (buildSequence current).1 (buildSequence candidate).1)) := by
  rcases diffTranscriptTurns_spec current candidate with
    ⟨hover, hdiff⟩ | ⟨hwithin, diff, s, hdiff, hcompared, -, -⟩
  · refine ⟨_, hdiff, ⟨fun _ => hover, fun _ => rfl⟩, ?_, fun hwithin => absurd hover hwithin⟩
    intro hstate
    cases hstate
  · refine ⟨diff, hdiff, ⟨?_, fun hover => absurd hover hwithin⟩, fun _ => hwithin,
      fun _ => hcompared.state⟩
    intro hstate
    rw [hcompared.state] at hstate
    cases hstate

/-! ## What the flags leave -/

/-- The letters of a word token. -/
def Token.letters : Token → Option (List Char)
  | .word letters => some letters
  | .boundary => none

/-- The visible words of a side, without those at flagged positions. -/
def wordsLeft (turns : List DiffTurnInput) (flagged : List Nat) : List (List Char) :=
  (without flagged 0 (buildSequence turns).1).filterMap Token.letters

theorem Token.same_letters {p q : Token} (h : p.same q = true) :
    ∃ letters, p = .word letters ∧ q = .word letters := by
  unfold Token.same at h
  split at h
  · rw [beq_iff_eq] at h
    exact ⟨_, rfl, congrArg Token.word h.symm⟩
  · cases h

theorem filterMap_letters_eq {a b : List Token}
    (h : List.Forall₂ (fun p q => p.same q = true) a b) :
    a.filterMap Token.letters = b.filterMap Token.letters := by
  induction h with
  | nil => rfl
  | cons hsame _ ih =>
    obtain ⟨letters, rfl, rfl⟩ := Token.same_letters hsame
    exact congrArg (letters :: ·) ih

/-- A comparison that is computed is read off ops that flag the fewest tokens.  Without
the words they flag both sides have the same words, in the same order; what they keep
are pairs of equal words that do not cross, and they flag every boundary.  No index is
out of range: the comparison has a result. -/
theorem diffTranscriptTurns_shortest (current candidate : List DiffTurnInput) :
    ∃ diff, diffTranscriptTurns current candidate = some diff ∧
      (diff.state = .computed → ∃ ops, ComparedBy current candidate ops diff ∧
        wordsLeft current (ops.filterMap Op.deleted) =
          wordsLeft candidate (ops.filterMap Op.inserted) ∧
        (∀ pair ∈ keptPairs ops 0 0, ∃ letters,
          (buildSequence current).1[pair.1]? = some (.word letters) ∧
          (buildSequence candidate).1[pair.2]? = some (.word letters)) ∧
        ((keptPairs ops 0 0).Pairwise fun p q => p.1 < q.1 ∧ p.2 < q.2) ∧
        (∀ i, (buildSequence current).1[i]? = some .boundary → i ∈ ops.filterMap Op.deleted) ∧
        (∀ i, (buildSequence candidate).1[i]? = some .boundary →
          i ∈ ops.filterMap Op.inserted) ∧
        IsLeast (costs Token.same (buildSequence current).1 (buildSequence candidate).1)
          ((ops.filterMap Op.deleted).length + (ops.filterMap Op.inserted).length)) := by
  rcases diffTranscriptTurns_spec current candidate with
    ⟨-, hdiff⟩ | ⟨-, diff, s, hdiff, hcompared, hs, hcost⟩
  · refine ⟨_, hdiff, fun hstate => ?_⟩
    cases hstate
  · have hpairs := hs.pairs_match 0 0
    have hword : ∀ pair ∈ pairs s 0 0, ∃ letters,
        (buildSequence current).1[pair.1]? = some (.word letters) ∧
        (buildSequence candidate).1[pair.2]? = some (.word letters) := by
      intro pair hpair
      obtain ⟨p, q, hp, hq, hsame⟩ := hpairs pair hpair
      obtain ⟨letters, rfl, rfl⟩ := Token.same_letters hsame
      exact ⟨letters, hp, hq⟩
    refine ⟨diff, hdiff, fun _ => ⟨located s 0 0, hcompared, ?_⟩⟩
    rw [deleted_located, inserted_located, keptPairs_located, ← cost_eq, hcost]
    refine ⟨filterMap_letters_eq (hs.kept 0 0), hword, pairs_sorted s 0 0, ?_, ?_,
      distance_isLeast _ _ _⟩
    · intro i hi
      have hlt := (List.getElem?_eq_some_iff.mp hi).1
      rcases hs.deleted_or_paired 0 0 i (Nat.zero_le i) (by omega) with h | ⟨j, h⟩
      · exact h
      · obtain ⟨letters, hletters, -⟩ := hword _ h
        rw [hi] at hletters
        cases hletters
    · intro j hj
      have hlt := (List.getElem?_eq_some_iff.mp hj).1
      rcases hs.inserted_or_paired 0 0 j (Nat.zero_le j) (by omega) with h | ⟨i, h⟩
      · exact h
      · obtain ⟨letters, -, hletters⟩ := hword _ h
        rw [hj] at hletters
        cases hletters

end YawnApp.SessionCore.RetryDiff
