import YawnApp.Foundation.Words

set_option autoImplicit false

/-!
# Consecutive words of a text

The words of a text stand in order and do not touch.  A range of the text that goes from
the first letter of one word to the last letter of another has exactly the words between
them, whether they are looked up by their places or read from the range anew.
-/

namespace YawnApp.Foundation

open List

variable {α : Type} {sep : α → Bool} {word : Nat × List α}

/-- Where a word ends. -/
def wordStop (word : Nat × List α) : Nat := word.1 + word.2.length

/-! ## Order -/

theorem wordsFrom_bounds (text : List α) :
    ∀ (opened : Option (Nat × List α)) (position : Nat),
      (∀ word, opened = some word → wordStop word = position) →
      ∀ word ∈ wordsFrom sep opened position text,
        opened.elim position Prod.fst ≤ word.1 ∧ wordStop word ≤ position + text.length := by
  induction text with
  | nil =>
    intro opened position hopened word hmem
    cases opened with
    | none => simp [wordsFrom] at hmem
    | some =>
      rw [wordsFrom, Option.toList_some, mem_singleton] at hmem
      subst hmem
      have := hopened word rfl
      exact ⟨Nat.le_refl _, by rw [this]; simp⟩
  | cons c text ih =>
    intro opened position hopened word hmem
    rw [wordsFrom] at hmem
    rw [length_cons]
    split at hmem
    · rcases mem_append.mp hmem with hfirst | hrest
      · cases opened with
        | none => simp at hfirst
        | some =>
          rw [Option.toList_some, mem_singleton] at hfirst
          subst hfirst
          have := hopened word rfl
          exact ⟨Nat.le_refl _, by omega⟩
      · obtain ⟨hlow, hhigh⟩ := ih none (position + 1) (by simp) word hrest
        rw [Option.elim_none] at hlow
        refine ⟨?_, by omega⟩
        cases opened with
        | none => exact Nat.le_of_succ_le hlow
        | some first =>
          have := hopened first rfl
          rw [wordStop] at this
          rw [Option.elim_some]
          omega
    · have hnext := ih _ (position + 1) (fun w hw => by
        cases opened with
        | none =>
          cases hw
          rfl
        | some first =>
          cases hw
          have := hopened first rfl
          rw [wordStop] at this
          rw [wordStop, Option.elim_some, length_append, length_singleton]
          omega) word hmem
      cases opened with
      | none | some => exact ⟨hnext.1, by omega⟩

/-- Words stand in order. -/
theorem wordsFrom_pairwise (text : List α) :
    ∀ (opened : Option (Nat × List α)) (position : Nat),
      (∀ word, opened = some word → wordStop word = position) →
      (wordsFrom sep opened position text).Pairwise fun a b => wordStop a ≤ b.1 := by
  induction text with
  | nil =>
    intro opened position _
    cases opened <;> simp [wordsFrom]
  | cons c text ih =>
    intro opened position hopened
    rw [wordsFrom]
    split
    · cases opened with
      | none => exact ih none (position + 1) (by simp)
      | some first =>
        rw [Option.toList_some, singleton_append, pairwise_cons]
        refine ⟨fun word hword => ?_, ih none (position + 1) (by simp)⟩
        have hlow := (wordsFrom_bounds text none (position + 1) (by simp) word hword).1
        have := hopened first rfl
        rw [Option.elim_none] at hlow
        omega
    · apply ih _ (position + 1)
      intro w hw
      cases opened with
      | none =>
        cases hw
        rfl
      | some first =>
        cases hw
        have := hopened first rfl
        rw [wordStop] at this
        rw [wordStop, Option.elim_some, length_append, length_singleton]
        omega

theorem words_pairwise (text : List α) :
    (words sep text).Pairwise fun a b => wordStop a ≤ b.1 :=
  wordsFrom_pairwise text none 0 (by simp)

theorem stop_le_of_mem_words {text : List α} (h : word ∈ words sep text) :
    wordStop word ≤ text.length := by
  have := (wordsFrom_bounds text none 0 (by simp) word h).2
  omega

theorem ne_nil_of_mem_words {text : List α} (h : word ∈ words sep text) : word.2 ≠ [] := by
  obtain ⟨i, hi⟩ := mem_iff_getElem?.mp h
  exact (words_getElem?_iff.mp hi).1.nonempty

/-! ## The words of a range -/

/-- Words begin where the words before them in the text were read. -/
theorem words_take_of_append {text : List α} {before rest : List (Nat × List α)}
    (h : words sep text = before ++ word :: rest) :
    IsRun sep text word.1 word.2 ∧ words sep (text.take word.1) = before ∧
      words sep (text.take (wordStop word)) = before ++ [word] := by
  have hget : (words sep text)[before.length]? = some (word.1, word.2) := by
    rw [h, List.getElem?_append_right (Nat.le_refl _), Nat.sub_self]
    rfl
  obtain ⟨hrun, hcount⟩ := words_getElem?_iff.mp hget
  have hbound : wordStop word ≤ text.length :=
    stop_le_of_mem_words (h ▸ mem_append_right _ mem_cons_self)
  have hlength : (text.take word.1).length = word.1 := by
    rw [length_take]
    unfold wordStop at hbound
    omega
  have hsplit := words_of_split hrun.starts hrun.nonempty hrun.letters hrun.stops
  have htext : text.take word.1 ++ (word.2 ++ text.drop (word.1 + word.2.length)) = text := by
    rw [← append_assoc]
    exact hrun.split.symm
  rw [htext, hlength, h] at hsplit
  have hbefore : words sep (text.take word.1) = before :=
    ((append_inj hsplit hcount.symm).1).symm
  refine ⟨hrun, hbefore, ?_⟩
  have htake : text.take (wordStop word) = text.take word.1 ++ (word.2 ++ []) := by
    conv_lhs => rw [hrun.split]
    have hprefix : (text.take word.1 ++ word.2).length = wordStop word := by
      rw [length_append, hlength]
      rfl
    rw [← hprefix, take_left, append_nil]
  rw [htake, words_of_split hrun.starts hrun.nonempty hrun.letters (by simp [IsEdge]), hbefore,
    hlength]
  rfl

section Range

variable {text : List α} {before part after : List (Nat × List α)}

/-- The words of a part of the text, as a range of letters. -/
theorem range_le (h : words sep text = before ++ part ++ after) (hne : part ≠ []) :
    (part.head hne).1 < wordStop (part.getLast hne) ∧
      wordStop (part.getLast hne) ≤ text.length := by
  have hmem : ∀ w ∈ part, w ∈ words sep text := fun w hw => by
    rw [h]
    exact mem_append_left _ (mem_append_right _ hw)
  have hlast := hmem _ (getLast_mem hne)
  refine ⟨?_, stop_le_of_mem_words hlast⟩
  have hpos := length_pos_of_ne_nil (ne_nil_of_mem_words hlast)
  have hpair := @words_pairwise _ sep text
  rw [h, pairwise_append, pairwise_append] at hpair
  cases part with
  | nil => exact absurd rfl hne
  | cons =>
    rw [head_cons]
    rcases mem_cons.mp (getLast_mem hne) with heq | hrest
    · rw [heq] at hpos ⊢
      unfold wordStop
      omega
    · have := (pairwise_cons.mp hpair.1.2.1).1 _ hrest
      unfold wordStop at this ⊢
      omega

/-- Looked up by their places, the words of the range are the part. -/
theorem filter_range (h : words sep text = before ++ part ++ after) (hne : part ≠ []) :
    (words sep text).filter (fun w => decide ((part.head hne).1 ≤ w.1) &&
      decide (wordStop w ≤ wordStop (part.getLast hne))) = part := by
  have hpos : ∀ w ∈ words sep text, 0 < w.2.length := fun w hw =>
    length_pos_of_ne_nil (ne_nil_of_mem_words hw)
  have hpair := @words_pairwise _ sep text
  rw [h] at hpos hpair ⊢
  rw [pairwise_append, pairwise_append] at hpair
  obtain ⟨⟨-, hpart, hbefore⟩, -, hafter⟩ := hpair
  rw [filter_append, filter_append]
  have hnone : before.filter (fun w => decide ((part.head hne).1 ≤ w.1) &&
      decide (wordStop w ≤ wordStop (part.getLast hne))) = [] := by
    rw [filter_eq_nil_iff]
    intro w hw
    have hle := hbefore w hw _ (head_mem hne)
    have := hpos w (mem_append_left _ (mem_append_left _ hw))
    unfold wordStop at hle
    simp only [Bool.and_eq_true, decide_eq_true_eq]
    omega
  have hrest : after.filter (fun w => decide ((part.head hne).1 ≤ w.1) &&
      decide (wordStop w ≤ wordStop (part.getLast hne))) = [] := by
    rw [filter_eq_nil_iff]
    intro w hw
    have hle := hafter _ (mem_append_right _ (getLast_mem hne)) w hw
    have := hpos w (mem_append_right _ hw)
    have hstop : wordStop w = w.1 + w.2.length := rfl
    simp only [Bool.and_eq_true, decide_eq_true_eq]
    omega
  have hall : part.filter (fun w => decide ((part.head hne).1 ≤ w.1) &&
      decide (wordStop w ≤ wordStop (part.getLast hne))) = part := by
    rw [filter_eq_self]
    intro w hw
    rw [Bool.and_eq_true, decide_eq_true_eq, decide_eq_true_eq]
    constructor
    · cases part with
      | nil => exact absurd rfl hne
      | cons =>
        rcases mem_cons.mp hw with rfl | hw
        · exact Nat.le_refl _
        · have := (pairwise_cons.mp hpart).1 w hw
          unfold wordStop at this
          rw [head_cons]
          omega
    · rw [← dropLast_append_getLast hne, mem_append, mem_singleton] at hw
      rcases hw with hw | rfl
      · rw [← dropLast_append_getLast hne, pairwise_append] at hpart
        have hle := hpart.2.2 w hw _ (mem_singleton_self _)
        have hstop : wordStop (part.getLast hne) =
          (part.getLast hne).1 + (part.getLast hne).2.length := rfl
        omega
      · exact Nat.le_refl _
  rw [hnone, hall, hrest, nil_append, append_nil]

theorem split_first (h : words sep text = before ++ part ++ after) (hne : part ≠ []) :
    words sep text = before ++ part.head hne :: (part.tail ++ after) := by
  rw [h, append_assoc, ← cons_append, cons_head_tail]

theorem split_last (h : words sep text = before ++ part ++ after) (hne : part ≠ []) :
    words sep text = (before ++ part.dropLast) ++ part.getLast hne :: after := by
  rw [h, append_assoc before, append_assoc before, append_cons part.dropLast,
    dropLast_append_getLast hne]

/-- The range splits no word at its ends. -/
theorem range_edges (h : words sep text = before ++ part ++ after) (hne : part ≠ []) :
    IsEdge sep (text.take (part.head hne).1).getLast? ∧
      IsEdge sep (text.drop (wordStop (part.getLast hne))).head? :=
  ⟨(words_take_of_append (split_first h hne)).1.starts,
    (words_take_of_append (split_last h hne)).1.stops⟩

/-- Read anew, the words of the range are the part. -/
theorem wordsFrom_range (h : words sep text = before ++ part ++ after) (hne : part ≠ []) :
    wordsFrom sep none (part.head hne).1 ((text.drop (part.head hne).1).take
      (wordStop (part.getLast hne) - (part.head hne).1)) = part := by
  have hle := range_le h hne
  obtain ⟨hrun, hbefore, -⟩ := words_take_of_append (split_first h hne)
  obtain ⟨-, -, hthrough⟩ := words_take_of_append (split_last h hne)
  have htake : text.take (wordStop (part.getLast hne)) = text.take (part.head hne).1 ++
      (text.drop (part.head hne).1).take (wordStop (part.getLast hne) - (part.head hne).1) := by
    conv_lhs => rw [show wordStop (part.getLast hne) = (part.head hne).1 +
      (wordStop (part.getLast hne) - (part.head hne).1) by omega]
    exact take_add
  rw [htake, words_append hrun.starts, hbefore, append_assoc,
    dropLast_append_getLast hne, length_take,
    Nat.min_eq_left (by omega)] at hthrough
  exact append_cancel_left hthrough

end Range

/-! ## Splitting at the separators -/

/-- The words of a text are what is left between its separators. -/
theorem wordsFrom_map_snd (text : List α) :
    (∀ position, (wordsFrom sep none position text).map Prod.snd =
      (text.splitOnP sep).filter fun word => !word.isEmpty) ∧
    ∀ (word : Nat × List α) (position : Nat), word.2 ≠ [] →
      (wordsFrom sep (some word) position text).map Prod.snd =
        (text.splitOnPPrepend sep word.2.reverse).filter fun word => !word.isEmpty := by
  induction text with
  | nil =>
    refine ⟨fun position => rfl, fun word position hword => ?_⟩
    rw [splitOnPPrepend_nil, reverse_reverse]
    simp [wordsFrom, hword]
  | cons c text ih =>
    constructor
    · intro position
      rw [wordsFrom, splitOnP_cons_eq_if_splitOnPPrepend]
      split
      · rw [Option.toList_none, nil_append, ih.1]
        rfl
      · rw [Option.elim_none, ih.2 _ _ (cons_ne_nil c [])]
        rfl
    · intro word position hword
      rw [wordsFrom]
      cases hc : sep c with
      | true =>
        rw [if_pos rfl, splitOnPPrepend_cons_pos hc, reverse_reverse, map_append,
          ih.1]
        simp [hword]
      | false =>
        rw [if_neg Bool.false_ne_true, splitOnPPrepend_cons_neg hc, Option.elim_some,
          ih.2 _ _ (append_ne_nil_of_left_ne_nil hword _), reverse_append,
          reverse_singleton]
        rfl

/-- No word is left out: a scan without one has seen separators only. -/
theorem wordsFrom_eq_nil_iff (text : List α) :
    ∀ (opened : Option (Nat × List α)) (position : Nat),
      wordsFrom sep opened position text = [] ↔ opened = none ∧ ∀ c ∈ text, sep c = true := by
  induction text with
  | nil => intro opened position; cases opened <;> simp [wordsFrom]
  | cons c text ih =>
    intro opened position
    rw [wordsFrom]
    cases hc : sep c with
    | true => rw [if_pos rfl, append_eq_nil_iff, ih]; cases opened <;> simp [hc]
    | false => rw [if_neg Bool.false_ne_true, ih]; simp [hc]

theorem words_eq_nil_iff {text : List α} : words sep text = [] ↔ ∀ c ∈ text, sep c = true := by
  unfold words
  rw [wordsFrom_eq_nil_iff]
  simp

/-- A separator at the end adds nothing. -/
theorem wordsFrom_concat {c : α} (hc : sep c = true) (text : List α) :
    ∀ (opened : Option (Nat × List α)) (position : Nat),
      wordsFrom sep opened position (text ++ [c]) = wordsFrom sep opened position text := by
  induction text with
  | nil => intro opened position; simp [wordsFrom, hc]
  | cons d text ih =>
    intro opened position
    rw [cons_append, wordsFrom, wordsFrom, ih, ih]

/-- The words of two texts with a separator between them. -/
theorem words_separated {c : α} (hc : sep c = true) (before after : List α) :
    (words sep (before ++ c :: after)).map Prod.snd =
      (words sep before).map Prod.snd ++ (words sep after).map Prod.snd := by
  have hedge : IsEdge sep (before ++ [c]).getLast? := by
    intro d hd
    rw [List.getLast?_concat] at hd
    cases hd
    exact hc
  have hshift : ∀ position, (wordsFrom sep none position after).map Prod.snd =
      (words sep after).map Prod.snd := fun position =>
    ((wordsFrom_map_snd after).1 position).trans ((wordsFrom_map_snd after).1 0).symm
  rw [append_cons, words_append hedge, map_append, hshift]
  unfold words
  rw [wordsFrom_concat hc]

end YawnApp.Foundation
