import Mathlib.Data.List.Basic

set_option autoImplicit false

/-!
# The words of a text

A word is a maximal run of letters that are no separators.  Which letters
separate is the parameter: two readers of one text with different separators
find different words, and this module says when they find the same one.
-/

namespace YawnApp.Foundation

open List

variable {α : Type}

/-! ## The scan -/

/-- The words of the rest of a text: `opened` is the word that is being read, with
the position it began at. -/
def wordsFrom (sep : α → Bool) : Option (Nat × List α) → Nat → List α → List (Nat × List α)
  | opened, _, [] => opened.toList
  | opened, position, c :: rest =>
    if sep c then opened.toList ++ wordsFrom sep none (position + 1) rest
    else
      wordsFrom sep
        (some (opened.elim (position, [c]) fun word => (word.1, word.2 ++ [c]))) (position + 1) rest

/-- The words of a text, each with its position. -/
def words (sep : α → Bool) (text : List α) : List (Nat × List α) := wordsFrom sep none 0 text

/-- An edge of a word: the letter there, if there is one, separates. -/
def IsEdge (sep : α → Bool) (letter : Option α) : Prop := ∀ c, letter = some c → sep c = true

/-- A run of letters that are no separators, from the position to a separator or
the end. -/
structure IsRun (sep : α → Bool) (text : List α) (position : Nat) (word : List α) : Prop where
  nonempty : word ≠ []
  letters : ∀ c ∈ word, sep c = false
  split : text = text.take position ++ word ++ text.drop (position + word.length)
  starts : IsEdge sep (text.take position).getLast?
  stops : IsEdge sep (text.drop (position + word.length)).head?

variable {sep : α → Bool} {before word : List α}

/-- Letters that do not separate are added to the word. -/
theorem wordsFrom_letters {letters : List α} (hletters : ∀ c ∈ letters, sep c = false) :
    ∀ (word : Nat × List α) (position : Nat) (rest : List α),
      wordsFrom sep (some word) position (letters ++ rest) =
        wordsFrom sep (some (word.1, word.2 ++ letters)) (position + letters.length) rest := by
  induction letters with
  | nil => intro word position rest; simp
  | cons c letters ih =>
    intro word position rest
    have hc : sep c = false := hletters c mem_cons_self
    have hrest : ∀ d ∈ letters, sep d = false := fun d hd => hletters d (mem_cons_of_mem c hd)
    rw [cons_append, wordsFrom, hc, if_neg Bool.false_ne_true, Option.elim_some, ih hrest,
      append_assoc, singleton_append, length_cons]
    congr 1
    omega

/-- A word ends where the rest begins with a separator or is empty. -/
theorem wordsFrom_edge {rest : List α} (hrest : IsEdge sep rest.head?) (word : Nat × List α)
    (position : Nat) :
    wordsFrom sep (some word) position rest = word :: wordsFrom sep none position rest := by
  cases rest with
  | nil => rfl
  | cons c =>
    have hc : sep c = true := hrest c rfl
    simp [wordsFrom, hc]

/-- A text that ends with a separator is read before what follows it. -/
theorem wordsFrom_append (hbefore : before ≠ []) (hedge : IsEdge sep before.getLast?)
    (rest : List α) : ∀ (opened : Option (Nat × List α)) (position : Nat),
      wordsFrom sep opened position (before ++ rest) =
        wordsFrom sep opened position before ++
          wordsFrom sep none (position + before.length) rest := by
  induction before with
  | nil => exact absurd rfl hbefore
  | cons c before ih =>
    intro opened position
    cases before with
    | nil =>
      have hc : sep c = true := hedge c rfl
      simp [wordsFrom, hc]
    | cons d before =>
      have htail : IsEdge sep (d :: before).getLast? := by
        rwa [List.getLast?_cons_cons] at hedge
      have ih := ih (cons_ne_nil d before) htail
      rw [cons_append, wordsFrom, wordsFrom]
      split
      · rw [ih, append_assoc, @length_cons _ _ (d :: before)]
        congr 3
        omega
      · rw [ih, @length_cons _ _ (d :: before)]
        congr 2
        omega

/-- So is one that is empty, when no word is open. -/
theorem words_append (hedge : IsEdge sep before.getLast?) (rest : List α) :
    words sep (before ++ rest) = words sep before ++ wordsFrom sep none before.length rest := by
  cases before with
  | nil => rfl
  | cons c before =>
    unfold words
    rw [wordsFrom_append (cons_ne_nil c before) hedge, Nat.zero_add]

/-- A run between two edges is a word of the text. -/
theorem words_of_split {rest : List α} (hbefore : IsEdge sep before.getLast?) (hword : word ≠ [])
    (hletters : ∀ c ∈ word, sep c = false) (hrest : IsEdge sep rest.head?) :
    words sep (before ++ (word ++ rest)) = words sep before ++
      (before.length, word) :: wordsFrom sep none (before.length + word.length) rest := by
  rw [words_append hbefore]
  cases word with
  | nil => exact absurd rfl hword
  | cons c word =>
    have hc : sep c = false := hletters c mem_cons_self
    have hrun : ∀ d ∈ word, sep d = false := fun d hd => hletters d (mem_cons_of_mem c hd)
    rw [cons_append, wordsFrom, hc, if_neg Bool.false_ne_true, Option.elim_none,
      wordsFrom_letters hrun, wordsFrom_edge hrest]
    simp only [singleton_append, length_cons]
    congr 3
    omega

/-! ## The words are the runs -/

/-- Where a word of a scan comes from: it is the open one with the letters that
follow, or it lies in the rest. -/
theorem wordsFrom_getElem? (text : List α) :
    ∀ (opened : Option (Nat × List α)) (position i start : Nat) (word : List α),
      (wordsFrom sep opened position text)[i]? = some (start, word) →
      (∃ first letters rest, opened = some first ∧ i = 0 ∧ start = first.1 ∧
        word = first.2 ++ letters ∧ text = letters ++ rest ∧ (∀ c ∈ letters, sep c = false) ∧
        IsEdge sep rest.head?) ∨
      (∃ before rest, text = before ++ (word ++ rest) ∧ start = position + before.length ∧
        word ≠ [] ∧ (∀ c ∈ word, sep c = false) ∧ (before = [] → opened = none) ∧
        IsEdge sep before.getLast? ∧ IsEdge sep rest.head? ∧
        (wordsFrom sep opened position before).length = i) := by
  induction text with
  | nil =>
    intro opened position i start word h
    cases opened with
    | none => simp [wordsFrom] at h
    | some =>
      left
      rw [wordsFrom, Option.toList_some, List.getElem?_singleton] at h
      split at h
      · rename_i hi
        cases h
        exact ⟨(start, word), [], [], rfl, hi, rfl, by simp, rfl, by simp, by simp [IsEdge]⟩
      · cases h
  | cons c text ih =>
    intro opened position i start word h
    rw [wordsFrom] at h
    cases hc : sep c with
    | true =>
      rw [hc, if_pos rfl] at h
      have hfirst : (wordsFrom sep opened position [c]).length = opened.toList.length := by
        simp [wordsFrom, hc]
      by_cases hi : i < opened.toList.length
      · rw [List.getElem?_append_left hi] at h
        left
        cases opened with
        | none => cases hi
        | some =>
          have hi : i = 0 := Nat.lt_one_iff.mp hi
          subst hi
          cases h
          exact ⟨(start, word), [], c :: text, rfl, rfl, rfl, by simp, rfl, by simp,
            fun d hd => by cases hd; exact hc⟩
      · rw [List.getElem?_append_right (Nat.not_lt.mp hi)] at h
        right
        rcases ih none (position + 1) _ start word h with
          ⟨first, letters, rest, hopened, -⟩ |
          ⟨before, rest, htext, hstart, hword, hletters, -, hbefore, hrest, hcount⟩
        · cases hopened
        · refine ⟨c :: before, rest, by rw [htext, cons_append], ?_, hword, hletters,
            fun h => absurd h (cons_ne_nil c before), ?_, hrest, ?_⟩
          · rw [hstart, length_cons]
            omega
          · cases before with
            | nil => exact fun d hd => by cases hd; exact hc
            | cons => rwa [List.getLast?_cons_cons]
          · rw [wordsFrom, hc, if_pos rfl, length_append, hcount]
            omega
    | false =>
      rw [hc, if_neg Bool.false_ne_true] at h
      rcases ih _ (position + 1) i start word h with
        ⟨first, letters, rest, hopened, hi, hstart, hword, htext, hletters, hrest⟩ |
        ⟨before, rest, htext, hstart, hword, hletters, hempty, hbefore, hrest, hcount⟩
      · have hrun : ∀ d ∈ c :: letters, sep d = false := by
          intro d hd
          rcases mem_cons.mp hd with rfl | hd
          · exact hc
          · exact hletters d hd
        cases opened with
        | none =>
          right
          cases hopened
          exact ⟨[], rest, by rw [hword, htext]; rfl, hstart, by simp [hword],
            by rw [hword]; exact hrun, fun _ => rfl, by simp [IsEdge], hrest, by rw [hi]; rfl⟩
        | some opened =>
          left
          cases hopened
          exact ⟨opened, c :: letters, rest, rfl, hi, hstart, by rw [hword]; simp,
            by rw [htext, cons_append], hrun, hrest⟩
      · right
        have hne : before ≠ [] := fun h => by cases hempty h
        refine ⟨c :: before, rest, by rw [htext, cons_append], ?_, hword, hletters,
          fun h => absurd h (cons_ne_nil c before), ?_, hrest, ?_⟩
        · rw [hstart, length_cons]
          omega
        · cases before with
          | nil => exact absurd rfl hne
          | cons => rwa [List.getLast?_cons_cons]
        · rw [wordsFrom, hc, if_neg Bool.false_ne_true, hcount]

/-- The `i`-th word of a text is a run with `i` words before it, and every such run
is one. -/
theorem words_getElem?_iff {text : List α} {i start : Nat} :
    (words sep text)[i]? = some (start, word) ↔
      IsRun sep text start word ∧ (words sep (text.take start)).length = i := by
  constructor
  · intro h
    rcases wordsFrom_getElem? text none 0 i start word h with
      ⟨_, _, _, hopened, -⟩ | ⟨before, rest, htext, hstart, hword, hletters, -, hbefore, hrest, hcount⟩
    · cases hopened
    · rw [Nat.zero_add] at hstart
      have htake : text.take start = before := by rw [htext, hstart, take_left]
      have hdrop : text.drop (start + word.length) = rest := by
        rw [htext, hstart, ← append_assoc, ← length_append, drop_left]
      refine ⟨⟨hword, hletters, ?_, ?_, ?_⟩, ?_⟩
      · rw [htake, hdrop, append_assoc]
        exact htext
      · rwa [htake]
      · rwa [hdrop]
      · rw [htake]
        exact hcount
  · rintro ⟨hrun, hcount⟩
    have hle : start ≤ text.length := by
      by_contra hlt
      have hlength := congrArg List.length hrun.split
      have hpos := length_pos_of_ne_nil hrun.nonempty
      simp only [length_append, length_take, length_drop] at hlength
      omega
    have hsplit := words_of_split hrun.starts hrun.nonempty hrun.letters hrun.stops
    rw [← append_assoc, ← hrun.split, length_take, Nat.min_eq_left hle] at hsplit
    rw [hsplit, ← hcount, List.getElem?_append_right (Nat.le_refl _), Nat.sub_self]
    rfl

/-- Two readers find the same `i`-th word where it is a run for both and both find
as many words before it. -/
theorem words_getElem?_eq_iff {other : α → Bool} {text : List α} {i start : Nat}
    (h : (words sep text)[i]? = some (start, word)) : (words other text)[i]? = some (start, word) ↔
      (∀ c ∈ word, other c = false) ∧ IsEdge other (text.take start).getLast? ∧
        IsEdge other (text.drop (start + word.length)).head? ∧
        (words other (text.take start)).length = (words sep (text.take start)).length := by
  obtain ⟨hrun, hcount⟩ := words_getElem?_iff.mp h
  rw [words_getElem?_iff, hcount]
  constructor
  · rintro ⟨hother, hsame⟩
    exact ⟨hother.letters, hother.starts, hother.stops, hsame⟩
  · rintro ⟨hletters, hstarts, hstops, hsame⟩
    exact ⟨⟨hrun.nonempty, hletters, hrun.split, hstarts, hstops⟩, hsame⟩

/-! ## Words under an index -/

/-- The members of a list whose index, counted from `n`, is picked. -/
def pick (picked : Nat → Bool) (n : Nat) (l : List α) : List α :=
  (l.zipIdx n).filterMap fun (a, i) => if picked i then some a else none

variable {picked : Nat → Bool}

theorem pick_cons (n : Nat) (a : α) (l : List α) :
    pick picked n (a :: l) = (if picked n then [a] else []) ++ pick picked (n + 1) l := by
  unfold pick
  rw [zipIdx_cons, filterMap_cons]
  cases hn : picked n <;> simp [hn]

/-- From two lists of one length the same members are picked if they agree under
each index that is. -/
theorem pick_eq_pick_iff {l m : List α} (hlength : l.length = m.length) (n : Nat) :
    pick picked n l = pick picked n m ↔
      ∀ i a, m[i]? = some a → picked (n + i) = true → l[i]? = some a := by
  induction l generalizing m n with
  | nil =>
    cases m with
    | nil => simp
    | cons => cases hlength
  | cons a l ih =>
    cases m with
    | nil => cases hlength
    | cons b m =>
      have ih := ih (Nat.succ.inj hlength) (n + 1)
      have hrest : (∀ i c, (b :: m)[i]? = some c → picked (n + i) = true → (a :: l)[i]? = some c) ↔
          (picked n = true → a = b) ∧
            ∀ i c, m[i]? = some c → picked (n + 1 + i) = true → l[i]? = some c := by
        constructor
        · intro h
          refine ⟨fun hn => Option.some.inj (h 0 b rfl hn), fun i c hc hi => ?_⟩
          exact h (i + 1) c hc (by rwa [show n + (i + 1) = n + 1 + i by omega])
        · rintro ⟨hfirst, h⟩ i c hc hi
          cases i with
          | zero =>
            cases hc
            exact congrArg some (hfirst hi)
          | succ i => exact h i c hc (by rwa [show n + 1 + i = n + (i + 1) by omega])
      rw [hrest, ← ih, pick_cons, pick_cons]
      cases picked n <;> simp

/-- Nothing is picked from two lists of one length, or from neither. -/
theorem pick_eq_nil_of_length {l m : List α} (hlength : l.length = m.length) (n : Nat)
    (h : pick picked n l = []) : pick picked n m = [] := by
  induction l generalizing m n with
  | nil =>
    rw [eq_nil_of_length_eq_zero hlength.symm]
    rfl
  | cons a l ih =>
    cases m with
    | nil => rfl
    | cons =>
      rw [pick_cons, append_eq_nil_iff] at h
      rw [pick_cons, ih (Nat.succ.inj hlength) (n + 1) h.2, append_nil]
      cases hn : picked n with
      | false => rfl
      | true => simp [hn] at h

end YawnApp.Foundation
