import YawnApp.SessionCore.RetryDiffScript

set_option autoImplicit false

/-!
# The spans of the word diff

The flags of a side are positions in one sequence of tokens, where a withheld turn
stands as a boundary.  They are folded into spans of words by turn: a span ends where
the next flag is not the next word of its turn, and at a boundary.

The positions of a side are in the order of its turns and words.  This is what keeps
the spans of a turn apart: after a boundary no flag lies in an earlier turn.
-/

namespace YawnApp.SessionCore.RetryDiff

open YawnApp.Foundation List
open YawnApp.Foundation.EditScript

/-! ## Places -/

/-- Where a token stands: its turn, and its word in the turn unless it is a boundary. -/
abbrev Place := Nat × Option Nat

def turnPlaces (i : Nat) (turn : DiffTurnInput) : List Place :=
  if turn.withheld then [(i, none)]
  else (List.range (splitWhitespace turn.text).length).map fun w => (i, some w)

/-- The places of the tokens of turns, the first of which is the `i`-th. -/
def placesFrom : Nat → List DiffTurnInput → List Place
  | _, [] => []
  | i, turn :: turns => turnPlaces i turn ++ placesFrom (i + 1) turns

def Place.position : Place → Position
  | (t, some w) => .word t w
  | (_, none) => .boundary

/-- The order of places. -/
def Precedes (p q : Place) : Prop :=
  p.1 < q.1 ∨ p.1 = q.1 ∧ ∃ w u, p.2 = some w ∧ q.2 = some u ∧ w < u

theorem Precedes.irrefl (p : Place) : ¬ Precedes p p := by
  rintro (h | ⟨-, w, u, hw, hu, h⟩)
  · exact Nat.lt_irrefl _ h
  · rw [hw] at hu
    cases hu
    exact Nat.lt_irrefl w h

theorem turnPlaces_fst {i : Nat} {turn : DiffTurnInput} {p : Place} (h : p ∈ turnPlaces i turn) :
    p.1 = i := by
  unfold turnPlaces at h
  split at h
  · rw [mem_singleton.mp h]
  · obtain ⟨w, -, rfl⟩ := mem_map.mp h
    rfl

theorem placesFrom_fst_ge {turns : List DiffTurnInput} :
    ∀ {i : Nat} {p : Place}, p ∈ placesFrom i turns → i ≤ p.1 := by
  induction turns with
  | nil => intro i p h; cases h
  | cons turn turns ih =>
    intro i p h
    rcases mem_append.mp h with h | h
    · exact Nat.le_of_eq (turnPlaces_fst h).symm
    · exact Nat.le_of_succ_le (ih h)

theorem turnPlaces_sorted (i : Nat) (turn : DiffTurnInput) :
    (turnPlaces i turn).Pairwise Precedes := by
  unfold turnPlaces
  split
  · exact pairwise_singleton _ _
  · rw [pairwise_map]
    exact pairwise_lt_range.imp fun hlt => .inr ⟨rfl, _, _, rfl, rfl, hlt⟩

theorem placesFrom_sorted (turns : List DiffTurnInput) :
    ∀ i, (placesFrom i turns).Pairwise Precedes := by
  induction turns with
  | nil => intro i; exact .nil
  | cons turn turns ih =>
    intro i
    refine pairwise_append.mpr ⟨turnPlaces_sorted i turn, ih (i + 1), ?_⟩
    intro p hp q hq
    exact .inl (turnPlaces_fst hp ▸ placesFrom_fst_ge hq)

theorem turnPositions_eq {i : Nat} {turn : DiffTurnInput} (hi : i < 2 ^ 32)
    (hwords : turn.withheld = false → (splitWhitespace turn.text).length ≤ 2 ^ 32) :
    turnPositions i turn = (turnPlaces i turn).map Place.position := by
  unfold turnPositions turnPlaces
  cases hwithheld : turn.withheld with
  | true => rfl
  | false =>
    have hcount := hwords hwithheld
    rw [if_neg Bool.false_ne_true, if_neg Bool.false_ne_true, map_map]
    apply ext_getElem
    · simp
    · intro w hw _
      simp only [length_map, length_zipIdx] at hw
      simp only [getElem_map, getElem_zipIdx, getElem_range, Function.comp_apply,
        Place.position, Nat.zero_add]
      rw [asU32, asU32, Nat.mod_eq_of_lt hi, Nat.mod_eq_of_lt (by omega)]

/-- Where the turns and words of a side fit `u32`, its positions are its places. -/
theorem positions_eq {turns : List DiffTurnInput} :
    ∀ i, i + turns.length ≤ 2 ^ 32 →
      (∀ turn ∈ turns, turn.withheld = false → (splitWhitespace turn.text).length ≤ 2 ^ 32) →
      ((turns.zipIdx i).flatMap fun turn => turnPositions turn.2 turn.1) =
        (placesFrom i turns).map Place.position := by
  induction turns with
  | nil => intro i _ _; rfl
  | cons turn turns ih =>
    intro i hturns hwords
    rw [length_cons] at hturns
    rw [zipIdx_cons, flatMap_cons, placesFrom, map_append,
      ih (i + 1) (by omega) fun t ht => hwords t (mem_cons_of_mem _ ht),
      ← turnPositions_eq (by omega) (hwords turn mem_cons_self)]

/-! ## The fold over places -/

/-- The spans of a turn. -/
def spansOf (spans : SpansByTurn) (t : Nat) : List WordSpan := (spans.lookup t).getD []

theorem spansOf_pushSpan_self (result : SpansByTurn) (t s e : Nat) :
    spansOf (pushSpan result t s e) t = spansOf result t ++ [⟨s, e⟩] := by
  unfold spansOf pushSpan
  rw [AList.lookup_insert, Option.getD_some]

variable {result : SpansByTurn}

theorem spansOf_pushSpan_ne {t u : Nat} (s e : Nat) (h : u ≠ t) :
    spansOf (pushSpan result t s e) u = spansOf result u := by
  unfold spansOf pushSpan
  rw [AList.lookup_insert_ne h]

/-- The loop of `spans_map_from_flags` over the places of the flags. -/
def spansOver : List Place → SpansByTurn → Option (Nat × Nat × Nat) → SpansByTurn
  | [], result, opened => closeSpan result opened
  | (_, none) :: places, result, opened => spansOver places (closeSpan result opened) none
  | (t, some w) :: places, result, some (turn, start, stop) =>
    if turn = t ∧ stop = w then spansOver places result (some (turn, start, w + 1))
    else spansOver places (closeSpan result (some (turn, start, stop))) (some (t, w, w + 1))
  | (t, some w) :: places, result, none => spansOver places result (some (t, w, w + 1))

variable {places : List Place}

theorem spansFrom_eq (flagged : List Nat) : ∀ result opened, (∀ i ∈ flagged, i < places.length) →
      spansFrom (places.map Place.position) flagged result opened =
        some (spansOver (flagged.filterMap fun i => places[i]?) result opened) := by
  induction flagged with
  | nil => intro result opened _; rfl
  | cons i flagged ih =>
    intro result opened hrange
    have hrest : ∀ j ∈ flagged, j < places.length :=
      fun j hj => hrange j (mem_cons_of_mem i hj)
    have hi : places[i]? = some (places.get ⟨i, hrange i mem_cons_self⟩) :=
      List.getElem?_eq_getElem (hrange i mem_cons_self)
    rw [spansFrom, List.getElem?_map, hi, Option.map_some, Option.bind_eq_bind, Option.bind_some,
      filterMap_cons_some hi]
    obtain ⟨t, o⟩ := places.get ⟨i, hrange i mem_cons_self⟩
    cases o with
    | none => exact ih _ _ hrest
    | some =>
      cases opened with
      | none => exact ih _ _ hrest
      | some opened =>
        obtain ⟨turn, start, stop⟩ := opened
        simp only [Place.position, spansOver]
        split
        · exact ih _ _ hrest
        · exact ih _ _ hrest

/-- The flags of a side are in the order of their places. -/
theorem flagged_sorted (h : places.Pairwise Precedes) {flagged : List Nat}
    (hflagged : flagged.Pairwise (· < ·)) :
    (flagged.filterMap fun i => places[i]?).Pairwise Precedes := by
  rw [pairwise_filterMap]
  refine hflagged.imp fun {i j} hlt p hp q hq => ?_
  obtain ⟨hi, rfl⟩ := List.getElem?_eq_some_iff.mp hp
  obtain ⟨hj, rfl⟩ := List.getElem?_eq_some_iff.mp hq
  exact pairwise_iff_getElem.mp h i j hi hj hlt

/-! ## What the fold keeps -/

/-- The spans read so far, and the one that is open, lie before all flags that follow. -/
def Ahead (result : SpansByTurn) (places : List Place) : Option (Nat × Nat × Nat) → Prop
  | none => ∀ u, spansOf result u ≠ [] → ∀ p ∈ places, u < p.1
  | some (t, start, stop) =>
    start < stop ∧ (∀ span ∈ spansOf result t, span.endWord < start) ∧
      (∀ u, spansOf result u ≠ [] → u ≤ t) ∧ ∀ p ∈ places, Precedes (t, some (stop - 1)) p

/-- The spans of every turn are not empty, and no two of them touch. -/
structure Apart (result : SpansByTurn) : Prop where
  nonempty : ∀ t, ∀ span ∈ spansOf result t, span.startWord < span.endWord
  apart : ∀ t, (spansOf result t).Pairwise fun s u => s.endWord < u.startWord

/-- A word is in a span of its turn. -/
def Covers (result : SpansByTurn) (t w : Nat) : Prop :=
  ∃ span ∈ spansOf result t, span.startWord ≤ w ∧ w < span.endWord

/-- A word is in the open span. -/
def InOpened (opened : Option (Nat × Nat × Nat)) (t w : Nat) : Prop :=
  ∃ start stop, opened = some (t, start, stop) ∧ start ≤ w ∧ w < stop

theorem inOpened_word (t w u x : Nat) : InOpened (some (t, w, w + 1)) u x ↔ u = t ∧ x = w := by
  unfold InOpened
  constructor
  · intro h
    obtain ⟨start, stop, h, hle, hlt⟩ := h
    cases h
    exact ⟨rfl, by omega⟩
  · intro h
    obtain ⟨rfl, rfl⟩ := h
    exact ⟨x, x + 1, rfl, Nat.le_refl x, Nat.lt_succ_self x⟩

theorem inOpened_succ {t start stop : Nat} (h : start ≤ stop) (u x : Nat) :
    InOpened (some (t, start, stop + 1)) u x ↔
      InOpened (some (t, start, stop)) u x ∨ (u = t ∧ x = stop) := by
  unfold InOpened
  constructor
  · intro hin
    obtain ⟨s, e, heq, hle, hlt⟩ := hin
    cases heq
    rcases Nat.eq_or_lt_of_le (Nat.le_of_lt_succ hlt) with hx | hx
    · exact .inr ⟨rfl, hx⟩
    · exact .inl ⟨start, stop, rfl, hle, hx⟩
  · rintro (⟨s, e, heq, hle, hlt⟩ | ⟨rfl, rfl⟩)
    · cases heq
      exact ⟨start, stop + 1, rfl, hle, Nat.lt_succ_of_lt hlt⟩
    · exact ⟨start, x + 1, rfl, h, Nat.lt_succ_self x⟩

theorem Apart.closed {opened : Option (Nat × Nat × Nat)} (h : Apart result)
    (hahead : Ahead result places opened) : Apart (closeSpan result opened) := by
  cases opened with
  | none => exact h
  | some opened =>
    obtain ⟨t, start, stop⟩ := opened
    obtain ⟨hlt, hbefore, -, -⟩ := hahead
    constructor
    · intro u span hspan
      rcases eq_or_ne u t with rfl | hne
      · rw [closeSpan, spansOf_pushSpan_self] at hspan
        rcases mem_append.mp hspan with hspan | hspan
        · exact h.nonempty u span hspan
        · rw [mem_singleton.mp hspan]
          exact hlt
      · rw [closeSpan, spansOf_pushSpan_ne _ _ hne] at hspan
        exact h.nonempty u span hspan
    · intro u
      rcases eq_or_ne u t with rfl | hne
      · rw [closeSpan, spansOf_pushSpan_self]
        refine pairwise_append.mpr ⟨h.apart u, pairwise_singleton _ _, ?_⟩
        intro span hspan last hlast
        rw [mem_singleton.mp hlast]
        exact hbefore span hspan
      · rw [closeSpan, spansOf_pushSpan_ne _ _ hne]
        exact h.apart u

theorem covers_closed (result : SpansByTurn) (opened : Option (Nat × Nat × Nat)) (t w : Nat) :
    Covers (closeSpan result opened) t w ↔ Covers result t w ∨ InOpened opened t w := by
  unfold Covers InOpened
  cases opened with
  | none => simp [closeSpan]
  | some opened =>
    obtain ⟨turn, start, stop⟩ := opened
    rcases eq_or_ne t turn with rfl | hne
    · simp [closeSpan, spansOf_pushSpan_self, or_and_right, exists_or]
    · have hne' : ¬ turn = t := fun h => hne h.symm
      simp [closeSpan, spansOf_pushSpan_ne _ _ hne, hne']

/-- The turns that have spans after the open one is closed. -/
theorem le_of_closed {t start stop u : Nat} (hahead : Ahead result places (some (t, start, stop)))
    (h : spansOf (closeSpan result (some (t, start, stop))) u ≠ []) : u ≤ t := by
  rcases eq_or_ne u t with rfl | hne
  · exact Nat.le_refl u
  · rw [closeSpan, spansOf_pushSpan_ne _ _ hne] at h
    exact hahead.2.2.1 u h

/-- The fold keeps the spans of every turn apart, and covers the words of the places it
reads and no others. -/
theorem spansOver_spec (places : List Place) :
    ∀ (result : SpansByTurn) (opened : Option (Nat × Nat × Nat)), places.Pairwise Precedes →
      Apart result → Ahead result places opened →
      Apart (spansOver places result opened) ∧
        ∀ t w, Covers (spansOver places result opened) t w ↔
          Covers result t w ∨ InOpened opened t w ∨ (t, some w) ∈ places := by
  induction places with
  | nil =>
    intro result opened _ hapart hahead
    refine ⟨hapart.closed hahead, fun t w => ?_⟩
    rw [spansOver, covers_closed]
    simp
  | cons p places ih =>
    intro result opened hsorted hapart hahead
    obtain ⟨hfirst, hrest⟩ := pairwise_cons.mp hsorted
    obtain ⟨t, o⟩ := p
    cases o with
    | none =>
      -- a boundary: the turns that follow are later ones
      have hlater : ∀ q ∈ places, t < q.1 := by
        intro q hq
        rcases hfirst q hq with h | ⟨-, w, u, hw, -⟩
        · exact h
        · cases hw
      have hnext : Ahead (closeSpan result opened) places none := by
        intro u hu q hq
        cases opened with
        | none => exact Nat.lt_trans (hahead u hu _ mem_cons_self) (hlater q hq)
        | some opened =>
          obtain ⟨turn, start, stop⟩ := opened
          have hle := le_of_closed hahead hu
          have hturn : turn ≤ t := by
            rcases hahead.2.2.2 _ mem_cons_self with h | ⟨h, -⟩
            · exact Nat.le_of_lt h
            · exact Nat.le_of_eq h
          exact Nat.lt_of_le_of_lt (Nat.le_trans hle hturn) (hlater q hq)
      obtain ⟨hdone, hcovers⟩ := ih _ none hrest (hapart.closed hahead) hnext
      refine ⟨hdone, fun u w => ?_⟩
      rw [spansOver, hcovers, covers_closed]
      simp [InOpened, or_assoc]
    | some w =>
      cases opened with
      | none =>
        have hempty : spansOf result t = [] := by
          by_contra hne
          exact Nat.lt_irrefl t (hahead t hne _ mem_cons_self)
        have hahead' : Ahead result places (some (t, w, w + 1)) := by
          refine ⟨Nat.lt_succ_self w, fun span hspan => ?_, fun u hu => ?_, hfirst⟩
          · rw [hempty] at hspan
            cases hspan
          · exact Nat.le_of_lt (hahead u hu _ mem_cons_self)
        obtain ⟨hdone, hcovers⟩ := ih result (some (t, w, w + 1)) hrest hapart hahead'
        refine ⟨hdone, fun u x => ?_⟩
        rw [spansOver, hcovers, inOpened_word, mem_cons]
        simp [InOpened]
      | some opened =>
        obtain ⟨turn, start, stop⟩ := opened
        have hnext := hahead.2.2.2 _ mem_cons_self
        rw [spansOver]
        split
        · -- the next word of the open span
          rename_i hsame
          obtain ⟨rfl, rfl⟩ := hsame
          obtain ⟨hlt, hbefore, hturns, -⟩ := hahead
          obtain ⟨hdone, hcovers⟩ := ih result (some (turn, start, stop + 1)) hrest hapart
            ⟨Nat.lt_succ_of_lt hlt, hbefore, hturns, hfirst⟩
          refine ⟨hdone, fun u x => ?_⟩
          rw [hcovers, inOpened_succ (Nat.le_of_lt hlt), mem_cons, or_assoc]
          simp
        · rename_i hother
          have hahead' : Ahead (closeSpan result (some (turn, start, stop))) places
              (some (t, w, w + 1)) := by
            have hturn : turn ≤ t := by
              rcases hnext with h | ⟨h, -⟩
              · exact Nat.le_of_lt h
              · exact Nat.le_of_eq h
            refine ⟨Nat.lt_succ_self w, fun span hspan => ?_,
              fun u hu => Nat.le_trans (le_of_closed hahead hu) hturn, hfirst⟩
            obtain ⟨hlt, hbefore, hturns, -⟩ := hahead
            rcases eq_or_ne t turn with rfl | hne
            · have hstop : stop < w := by
                rcases hnext with h | ⟨-, v, x, hv, hx, h⟩
                · exact absurd h (Nat.lt_irrefl t)
                · cases hv
                  cases hx
                  have : stop ≠ w := fun h => hother ⟨rfl, h⟩
                  omega
              rw [closeSpan, spansOf_pushSpan_self] at hspan
              rcases mem_append.mp hspan with hspan | hspan
              · have := hbefore span hspan
                omega
              · rw [mem_singleton.mp hspan]
                exact hstop
            · rw [closeSpan, spansOf_pushSpan_ne _ _ hne] at hspan
              have := hturns t (ne_nil_of_mem hspan)
              omega
          obtain ⟨hdone, hcovers⟩ := ih _ (some (t, w, w + 1)) hrest (hapart.closed hahead) hahead'
          refine ⟨hdone, fun u x => ?_⟩
          rw [hcovers, covers_closed, inOpened_word, mem_cons, or_assoc]
          simp

/-! ## Entries -/

/-- The tokens of a side before the turn `t`. -/
def tokensBefore (turns : List DiffTurnInput) (t : Nat) : Nat :=
  (buildSequence (turns.take t)).1.length

/-- The indices of the visible turns. -/
def visibleIndices (turns : List DiffTurnInput) : List Nat :=
  (turns.zipIdx.filter fun turn => !turn.1.withheld).map Prod.snd

theorem turnPlaces_length (i : Nat) (turn : DiffTurnInput) :
    (turnPlaces i turn).length = (turnTokens turn).length := by
  unfold turnPlaces turnTokens
  split
  · rfl
  · rw [length_map, length_map, length_range]

/-- A word of a visible turn stands after the tokens before the turn. -/
theorem placesFrom_getElem? {turns : List DiffTurnInput} :
    ∀ {i t w : Nat} {turn : DiffTurnInput}, turns[t]? = some turn → turn.withheld = false →
      w < (splitWhitespace turn.text).length →
      (placesFrom i turns)[((turns.take t).flatMap turnTokens).length + w]? =
        some (i + t, some w) := by
  induction turns with
  | nil => intro i t w turn hturn; cases hturn
  | cons first turns ih =>
    intro i t w turn hturn hvisible hw
    rw [placesFrom]
    cases t with
    | zero =>
      rw [List.getElem?_cons_zero] at hturn
      cases hturn
      rw [take_zero, flatMap_nil, length_nil, Nat.zero_add, turnPlaces, hvisible,
        if_neg Bool.false_ne_true, List.getElem?_append_left (by simpa using hw),
        List.getElem?_map, List.getElem?_range hw]
      rfl
    | succ =>
      rw [List.getElem?_cons_succ] at hturn
      rw [take_succ_cons, flatMap_cons, length_append, ← turnPlaces_length i,
        List.getElem?_append_right (by omega), Nat.add_assoc, Nat.add_sub_cancel_left,
        ih hturn hvisible hw, Nat.add_right_comm, Nat.add_assoc]

/-- A place of a word is in a visible turn that has the word. -/
theorem placesFrom_word {turns : List DiffTurnInput} :
    ∀ {i u w : Nat}, (u, some w) ∈ placesFrom i turns →
      ∃ t turn, u = i + t ∧ turns[t]? = some turn ∧ turn.withheld = false ∧
        w < (splitWhitespace turn.text).length := by
  induction turns with
  | nil => intro i u w h; cases h
  | cons first turns ih =>
    intro i u w h
    rcases mem_append.mp h with h | h
    · unfold turnPlaces at h
      split at h
      · cases mem_singleton.mp h
      · rename_i hvisible
        obtain ⟨x, hx, hxw⟩ := mem_map.mp h
        cases hxw
        exact ⟨0, first, rfl, rfl, Bool.eq_false_iff.mpr hvisible, mem_range.mp hx⟩
    · obtain ⟨t, turn, rfl, hturn, hrest⟩ := ih h
      exact ⟨t + 1, turn, by omega, hturn, hrest⟩

/-- Each visible turn has the spans of its own index: no other turn takes them. -/
theorem entriesFrom_eq {turns : List DiffTurnInput} {spans : SpansByTurn} :
    ∀ (i : Nat) (left : SpansByTurn), i + turns.length ≤ 2 ^ 32 →
      (∀ turn ∈ turns, turn.withheld = false → (splitWhitespace turn.text).length < 2 ^ 32) →
      (∀ t, i ≤ t → spansOf left t = spansOf spans t) →
      entriesFrom i turns left =
        ((turns.zipIdx i).filter fun turn => !turn.1.withheld).map fun turn =>
          ⟨turn.2, (splitWhitespace turn.1.text).length, spansOf spans turn.2⟩ := by
  induction turns with
  | nil => intro i left _ _ _; rfl
  | cons turn turns ih =>
    intro i left hturns hwords hleft
    rw [length_cons] at hturns
    have hrest : ∀ t ∈ turns, t.withheld = false → (splitWhitespace t.text).length < 2 ^ 32 :=
      fun t ht => hwords t (mem_cons_of_mem _ ht)
    rw [entriesFrom, zipIdx_cons]
    cases hwithheld : turn.withheld with
    | true =>
      rw [if_pos rfl, filter_cons_of_neg (by simp [hwithheld])]
      exact ih (i + 1) left (by omega) hrest fun t ht => hleft t (by omega)
    | false =>
      have hi : asU32 i = i := Nat.mod_eq_of_lt (by omega)
      have hcount : asU32 (splitWhitespace turn.text).length = (splitWhitespace turn.text).length :=
        Nat.mod_eq_of_lt (hwords turn mem_cons_self hwithheld)
      rw [if_neg Bool.false_ne_true, filter_cons_of_pos (by simp [hwithheld]), map_cons,
        hi, hcount]
      have hhead : (left.lookup i).getD [] = spansOf spans i := hleft i (Nat.le_refl i)
      rw [hhead, ih (i + 1) (left.erase i) (by omega) hrest]
      intro t ht
      rw [← hleft t (by omega)]
      unfold spansOf
      rw [AList.lookup_erase_ne (by omega)]

/-- The entries of a side, for the flags of a script: one for each visible turn and none
for a withheld one, with spans that do not touch, lie within the turn, and cover exactly
the words that are flagged. -/
structure SideLayout (turns : List DiffTurnInput) (flagged : List Nat)
    (entries : List TurnDiffSpans) : Prop where
  visible : entries.map TurnDiffSpans.turnIndex = visibleIndices turns
  counts : ∀ entry ∈ entries, ∃ turn, turns[entry.turnIndex]? = some turn ∧
    entry.wordCount = (splitWhitespace turn.text).length
  apart : ∀ entry ∈ entries, entry.spans.Pairwise fun s u => s.endWord < u.startWord
  within : ∀ entry ∈ entries, ∀ span ∈ entry.spans,
    span.startWord < span.endWord ∧ span.endWord ≤ entry.wordCount
  covers : ∀ entry ∈ entries, ∀ w < entry.wordCount,
    (∃ span ∈ entry.spans, span.startWord ≤ w ∧ w < span.endWord) ↔
      tokensBefore turns entry.turnIndex + w ∈ flagged

theorem sideLayout_of_entries {turns : List DiffTurnInput} {flagged : List Nat}
    {entries : List TurnDiffSpans} (hturns : turns.length ≤ 2 ^ 32)
    (hsize : (buildSequence turns).1.length ≤ maxDiffableWords)
    (hsorted : flagged.Pairwise (· < ·)) (hrange : ∀ i ∈ flagged, i < (buildSequence turns).1.length)
    (h : turnDiffEntries turns (buildSequence turns).2 flagged = some entries) :
    SideLayout turns flagged entries := by
  have hwords : ∀ turn ∈ turns, turn.withheld = false →
      (splitWhitespace turn.text).length < 2 ^ 32 := by
    intro turn hturn hvisible
    have := length_le_tokens hturn hvisible
    unfold maxDiffableWords at hsize
    omega
  have hplaces : (buildSequence turns).2 = (placesFrom 0 turns).map Place.position :=
    positions_eq 0 (by omega) fun turn hturn hvisible => Nat.le_of_lt (hwords turn hturn hvisible)
  have hlength : (placesFrom 0 turns).length = (buildSequence turns).1.length := by
    rw [← positions_length, hplaces, length_map]
  have hplacesSorted := placesFrom_sorted turns 0
  unfold turnDiffEntries spansMapFromFlags at h
  rw [hplaces, spansFrom_eq flagged ∅ none fun i hi => hlength ▸ hrange i hi, Option.map_some,
    Option.some.injEq] at h
  have hnone : ∀ t, spansOf (∅ : SpansByTurn) t = [] := fun t => by
    unfold spansOf
    rw [AList.lookup_empty, Option.getD_none]
  have hempty : Apart (∅ : SpansByTurn) := by
    constructor
    · intro t span hspan
      rw [hnone] at hspan
      cases hspan
    · intro t
      rw [hnone]
      exact .nil
  obtain ⟨hapart, hcovers⟩ := spansOver_spec (flagged.filterMap fun i => (placesFrom 0 turns)[i]?)
    (∅ : SpansByTurn) none (flagged_sorted hplacesSorted hsorted) hempty
    fun u hu => absurd (hnone u) hu
  rw [entriesFrom_eq 0 _ (by omega) hwords fun t _ => rfl] at h
  generalize spansOver (flagged.filterMap fun i => (placesFrom 0 turns)[i]?)
    (∅ : SpansByTurn) none = spans at h hapart hcovers
  have hflagged : ∀ t w, Covers spans t w ↔
      ∃ i ∈ flagged, (placesFrom 0 turns)[i]? = some (t, some w) := by
    intro t w
    rw [hcovers, mem_filterMap]
    simp [Covers, InOpened, hnone]
  have hentry : ∀ entry ∈ entries, ∃ turn, turns[entry.turnIndex]? = some turn ∧
      turn.withheld = false ∧ entry.wordCount = (splitWhitespace turn.text).length ∧
      entry.spans = spansOf spans entry.turnIndex := by
    intro entry hmem
    rw [← h] at hmem
    obtain ⟨⟨turn, t⟩, hturn, rfl⟩ := mem_map.mp hmem
    obtain ⟨hmem, hvisible⟩ := mem_filter.mp hturn
    exact ⟨turn, mk_mem_zipIdx_iff_getElem?.mp hmem, by simpa using hvisible, rfl, rfl⟩
  refine ⟨?_, ?_, ?_, ?_, ?_⟩
  · rw [← h, map_map]
    rfl
  · intro entry hmem
    obtain ⟨turn, hturn, -, hcount, -⟩ := hentry entry hmem
    exact ⟨turn, hturn, hcount⟩
  · intro entry hmem
    obtain ⟨turn, -, -, -, hspans⟩ := hentry entry hmem
    rw [hspans]
    exact hapart.apart entry.turnIndex
  · intro entry hmem span hspan
    obtain ⟨turn, hturn, -, hcount, hspans⟩ := hentry entry hmem
    rw [hspans] at hspan
    have hlt := hapart.nonempty entry.turnIndex span hspan
    have hlast : Covers spans entry.turnIndex (span.endWord - 1) :=
      ⟨span, hspan, by omega, by omega⟩
    obtain ⟨i, -, hplace⟩ := (hflagged _ _).mp hlast
    obtain ⟨t, turn', ht, hturn', -, hwithin⟩ := placesFrom_word (mem_of_getElem? hplace)
    rw [Nat.zero_add] at ht
    rw [ht, hturn'] at hturn
    cases hturn
    omega
  · intro entry hmem w hw
    obtain ⟨turn, hturn, hvisible, hcount, hspans⟩ := hentry entry hmem
    have hplace := placesFrom_getElem? (i := 0) hturn hvisible (hcount ▸ hw)
    rw [Nat.zero_add] at hplace
    rw [hspans]
    refine (hflagged entry.turnIndex w).trans ⟨fun hcovered => ?_, fun hmem => ⟨_, hmem, hplace⟩⟩
    obtain ⟨i, hi, hplace'⟩ := hcovered
    -- no two tokens have one place
    obtain ⟨hlt, heq⟩ := List.getElem?_eq_some_iff.mp hplace
    obtain ⟨hlt', heq'⟩ := List.getElem?_eq_some_iff.mp hplace'
    have hsame : i = ((turns.take entry.turnIndex).flatMap turnTokens).length + w := by
      by_contra hne
      rcases Nat.lt_or_gt_of_ne hne with hless | hless
      · have := pairwise_iff_getElem.mp hplacesSorted _ _ hlt' hlt hless
        rw [heq, heq'] at this
        exact Precedes.irrefl _ this
      · have := pairwise_iff_getElem.mp hplacesSorted _ _ hlt hlt' hless
        rw [heq, heq'] at this
        exact Precedes.irrefl _ this
    exact hsame ▸ hi

/-- Each side of a computed comparison has one entry for each visible turn, whose spans
cover the words that the ops flag.  The sides are parsed transcripts, which have no more
than 20000 turns, so that the index of a turn fits `u32`. -/
theorem diffTranscriptTurns_layout {current candidate : List DiffTurnInput}
    (hcurrent : current.length ≤ 2 ^ 32) (hcandidate : candidate.length ≤ 2 ^ 32) :
    ∃ diff, diffTranscriptTurns current candidate = some diff ∧
      (diff.state = .computed → ∃ ops, ComparedBy current candidate ops diff ∧
        SideLayout current (ops.filterMap Op.deleted) diff.current ∧
        SideLayout candidate (ops.filterMap Op.inserted) diff.candidate) := by
  rcases diffTranscriptTurns_spec current candidate with
    ⟨-, hdiff⟩ | ⟨hwithin, diff, s, hdiff, hcompared, hs, -⟩
  · refine ⟨_, hdiff, fun hstate => ?_⟩
    cases hstate
  · rw [OverLimit, not_or, not_or] at hwithin
    refine ⟨diff, hdiff, fun _ => ⟨located s 0 0, hcompared, ?_, ?_⟩⟩
    · apply sideLayout_of_entries hcurrent (Nat.not_lt.mp hwithin.1) _ _ hcompared.current
      · rw [deleted_located]
        exact deletions_sorted s 0
      · intro i hi
        rw [deleted_located] at hi
        simpa using hs.deletions_lt 0 i hi
    · apply sideLayout_of_entries hcandidate (Nat.not_lt.mp hwithin.2.1) _ _ hcompared.candidate
      · rw [inserted_located]
        exact insertions_sorted s 0
      · intro i hi
        rw [inserted_located] at hi
        simpa using hs.insertions_lt 0 i hi

/-- One word changed in one turn. -/
theorem diffTranscriptTurns_layout_sample :
    ∃ diff, diffTranscriptTurns [.visible "the cat sat"] [.visible "the dog sat"] = some diff ∧
      (diff.state = .computed → ∃ ops,
        ComparedBy [.visible "the cat sat"] [.visible "the dog sat"] ops diff ∧
        SideLayout [.visible "the cat sat"] (ops.filterMap Op.deleted) diff.current ∧
        SideLayout [.visible "the dog sat"] (ops.filterMap Op.inserted) diff.candidate) :=
  diffTranscriptTurns_layout (by decide) (by decide)

end YawnApp.SessionCore.RetryDiff
