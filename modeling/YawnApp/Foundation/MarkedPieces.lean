/-
  Foundation/MarkedPieces.lean --- a text cut after every mark.

  A stream of messages that each end in a mark is cut after every mark.  What
  stands after the last mark is a piece as well, the only one that may not end
  in the mark.  The lemmas say what the first piece is in terms of where the
  mark first stands, which is how a reader that sees only a part of the text at
  a time finds it.
-/
import Mathlib.Data.List.Basic

set_option autoImplicit false

namespace YawnApp.Foundation

open List

variable {α : Type} [DecidableEq α]

/-- The pieces of a text, each up to and with the next mark. -/
def pieces (mark : α) : List α → List (List α)
  | [] => []
  | a :: rest =>
    if a = mark then [a] :: pieces mark rest
    else match pieces mark rest with
      | [] => [[a]]
      | piece :: later => (a :: piece) :: later

/-- The piece ends in the mark. -/
def Ended (mark : α) (piece : List α) : Prop := piece.getLast? = some mark

instance (mark : α) (piece : List α) : Decidable (Ended mark piece) := by
  unfold Ended
  infer_instance

variable {mark : α}

/-- No piece is empty. -/
theorem ne_nil_of_mem_pieces {text piece : List α} (h : piece ∈ pieces mark text) : piece ≠ [] := by
  induction text generalizing piece with
  | nil => cases h
  | cons a rest ih =>
    unfold pieces at h
    split at h
    · rcases mem_cons.mp h with rfl | hlater
      · exact cons_ne_nil a []
      · exact ih hlater
    · split at h
      · rcases mem_cons.mp h with rfl | hlater
        · exact cons_ne_nil a []
        · exact absurd hlater not_mem_nil
      · rename_i first later hpieces
        rcases mem_cons.mp h with rfl | hlater
        · exact cons_ne_nil a first
        · exact ih (hpieces ▸ mem_cons_of_mem first hlater)

/-- A text with a mark in it begins with the piece up to that mark. -/
theorem pieces_of_mark {front : List α} (hfree : mark ∉ front) (rest : List α) :
    pieces mark (front ++ mark :: rest) = (front ++ [mark]) :: pieces mark rest := by
  induction front with
  | nil => simp [pieces]
  | cons a front ih =>
    rw [mem_cons, not_or] at hfree
    rw [cons_append, pieces, if_neg (Ne.symm hfree.1), ih hfree.2]
    rfl

/-- A text without a mark is one piece. -/
theorem pieces_of_free {text : List α} (hfree : mark ∉ text) (hne : text ≠ []) :
    pieces mark text = [text] := by
  induction text with
  | nil => exact absurd rfl hne
  | cons a rest ih =>
    rw [mem_cons, not_or] at hfree
    rw [pieces, if_neg (Ne.symm hfree.1)]
    cases rest with
    | nil => rfl
    | cons b rest => rw [ih hfree.2 (cons_ne_nil b rest)]

/-- What has no mark is the beginning of the first piece. -/
theorem pieces_of_free_append {front : List α} (hfree : mark ∉ front) (hne : front ≠ [])
    (rest : List α) : ∃ piece later, pieces mark (front ++ rest) = (front ++ piece) :: later := by
  by_cases hmark : mark ∈ rest
  · obtain ⟨before, after, rfl, hbefore⟩ := eq_append_cons_of_mem hmark
    refine ⟨before ++ [mark], pieces mark after, ?_⟩
    rw [← append_assoc, pieces_of_mark, append_assoc]
    exact fun h => (mem_append.mp h).elim hfree hbefore
  · refine ⟨rest, [], pieces_of_free ?_ ?_⟩
    · exact fun h => (mem_append.mp h).elim hfree hmark
    · exact fun h => hne (append_eq_nil_iff.mp h).1

end YawnApp.Foundation
