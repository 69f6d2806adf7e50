/-
  Foundation/Pieces.lean --- a text cut into what is kept and what is replaced.

  A rewriting of a text that never looks at its own output cuts the text into
  pieces: a letter that is kept, or a stretch that another text stands for.
  The pieces say at once what was read (`source`), what comes out (`result`)
  and where the replaced stretches lie (`spans`), in whatever unit a letter is
  measured in.  `substitute` puts replacements into a text by position alone,
  and `substitute_spans` is the fact the positions are for: it gives the result
  of the pieces they were taken from.
-/
import Mathlib.Data.List.Basic
import Mathlib.Tactic.Linarith

set_option autoImplicit false

namespace YawnApp.Foundation

/-- A letter that is kept, or a stretch and what replaces it, for a reason `τ`. -/
inductive Piece (τ α : Type) where
  | kept (a : α)
  | replaced (reason : τ) (source replacement : List α)

/-- Where a stretch lies and what stands for it. -/
structure Span (τ : Type) where
  reason : τ
  start : Nat
  stop : Nat
deriving DecidableEq, Repr

section Pieces

variable {τ α : Type} {weight : α → Nat}

/-- The length of a text in the unit that a letter is `weight` of. -/
def width (weight : α → Nat) (text : List α) : Nat := (text.map weight).sum

@[simp] theorem width_nil (weight : α → Nat) : width weight [] = 0 := rfl

@[simp] theorem width_cons (weight : α → Nat) (a : α) (text : List α) :
    width weight (a :: text) = weight a + width weight text := rfl

@[simp] theorem width_append (weight : α → Nat) (a b : List α) :
    width weight (a ++ b) = width weight a + width weight b := by
  simp [width, List.sum_append]

/-- A text is as many letters long as it has letters. -/
@[simp] theorem width_one (text : List α) : width (fun _ => 1) text = text.length := by
  induction text with
  | nil => rfl
  | cons a rest ih =>
    rw [width_cons, ih, List.length_cons]
    omega

theorem length_le_width (hweight : ∀ a, 0 < weight a) (text : List α) :
    text.length ≤ width weight text := by
  induction text with
  | nil => exact Nat.le_refl 0
  | cons a =>
    have ha := hweight a
    rw [width_cons, List.length_cons]
    omega

theorem width_pos (hweight : ∀ a, 0 < weight a) {text : List α} (h : text ≠ []) :
    0 < width weight text :=
  Nat.lt_of_lt_of_le (List.length_pos_iff.mpr h) (length_le_width hweight text)

namespace Piece

/-- What a piece was cut from. -/
def source : Piece τ α → List α
  | .kept a => [a]
  | .replaced _ source _ => source

/-- What a piece turns into. -/
def result : Piece τ α → List α
  | .kept a => [a]
  | .replaced _ _ replacement => replacement

end Piece

/-- The text the pieces were cut from. -/
def sourceOf (pieces : List (Piece τ α)) : List α := pieces.flatMap Piece.source

/-- The text the pieces turn into. -/
def resultOf (pieces : List (Piece τ α)) : List α := pieces.flatMap Piece.result

@[simp] theorem sourceOf_nil : sourceOf ([] : List (Piece τ α)) = [] := rfl

@[simp] theorem sourceOf_cons (p : Piece τ α) (rest : List (Piece τ α)) :
    sourceOf (p :: rest) = p.source ++ sourceOf rest := rfl

@[simp] theorem sourceOf_append (a b : List (Piece τ α)) :
    sourceOf (a ++ b) = sourceOf a ++ sourceOf b := by simp [sourceOf]

@[simp] theorem resultOf_nil : resultOf ([] : List (Piece τ α)) = [] := rfl

@[simp] theorem resultOf_cons (p : Piece τ α) (rest : List (Piece τ α)) :
    resultOf (p :: rest) = p.result ++ resultOf rest := rfl

@[simp] theorem resultOf_append (a b : List (Piece τ α)) :
    resultOf (a ++ b) = resultOf a ++ resultOf b := by simp [resultOf]

/-! ## Where the replaced stretches lie -/

/-- The replaced stretches of pieces that begin at `start`. -/
def spansFrom (weight : α → Nat) : Nat → List (Piece τ α) → List (Span τ × List α × List α)
  | _, [] => []
  | start, .kept a :: rest => spansFrom weight (start + weight a) rest
  | start, .replaced reason source replacement :: rest =>
    (⟨reason, start, start + width weight source⟩, source, replacement) ::
      spansFrom weight (start + width weight source) rest

theorem spansFrom_append (weight : α → Nat) (a b : List (Piece τ α)) (start : Nat) :
    spansFrom weight start (a ++ b) =
      spansFrom weight start a ++ spansFrom weight (start + width weight (sourceOf a)) b := by
  induction a generalizing start with
  | nil => simp [spansFrom]
  | cons p rest ih =>
    cases p with
    | kept | replaced => simp [spansFrom, ih, Piece.source, Nat.add_assoc]

/-- A span says which stretch of the text it covers. -/
theorem split_of_mem_spansFrom {pieces : List (Piece τ α)} {start : Nat} {span : Span τ}
    {source replacement : List α} (h : (span, source, replacement) ∈ spansFrom weight start pieces) :
    ∃ before after, sourceOf pieces = before ++ source ++ after ∧
      span.start = start + width weight before ∧ span.stop = span.start + width weight source ∧
      Piece.replaced span.reason source replacement ∈ pieces := by
  induction pieces generalizing start with
  | nil => cases h
  | cons p rest ih =>
    cases p with
    | kept a =>
      obtain ⟨before, after, htext, hstart, hstop, hmem⟩ := ih h
      refine ⟨a :: before, after, ?_, ?_, hstop, List.mem_cons_of_mem _ hmem⟩
      · rw [sourceOf_cons, htext]
        rfl
      · rw [hstart, width_cons, Nat.add_assoc]
    | replaced reason first other =>
      rcases List.mem_cons.mp h with heq | hrest
      · obtain ⟨rfl, rfl, rfl⟩ : span = _ ∧ source = first ∧ replacement = other := by
          simpa using heq
        exact ⟨[], sourceOf rest, rfl, rfl, rfl, List.mem_cons_self⟩
      · obtain ⟨before, after, htext, hstart, hstop, hmem⟩ := ih hrest
        refine ⟨first ++ before, after, ?_, ?_, hstop, List.mem_cons_of_mem _ hmem⟩
        · rw [sourceOf_cons, htext]
          simp [Piece.source]
        · rw [hstart, width_append, Nat.add_assoc]

/-- The spans come in order and do not overlap. -/
theorem pairwise_spansFrom (weight : α → Nat) (pieces : List (Piece τ α)) (start : Nat) :
    (spansFrom weight start pieces).Pairwise fun a b => a.1.stop ≤ b.1.start := by
  induction pieces generalizing start with
  | nil => exact List.Pairwise.nil
  | cons p rest ih =>
    cases p with
    | kept => exact ih _
    | replaced reason source replacement =>
      apply List.Pairwise.cons
      · intro ⟨span, source', replacement'⟩ hmem
        obtain ⟨before, _, _, hstart, _⟩ := split_of_mem_spansFrom hmem
        change start + width weight source ≤ span.start
        omega
      · exact ih _

/-! ## Putting replacements in by position -/

/-- Copy the text from `cursor` on, each span replaced. -/
def substitute (text : List α) : Nat → List (Nat × Nat × List α) → List α
  | cursor, [] => text.drop cursor
  | cursor, (start, stop, replacement) :: rest =>
    (text.drop cursor).take (start - cursor) ++ replacement ++ substitute text stop rest

/-- The positions and replacements of the pieces, in letters. -/
def edits (start : Nat) (pieces : List (Piece τ α)) : List (Nat × Nat × List α) :=
  (spansFrom (fun _ => 1) start pieces).map fun s => (s.1.start, s.1.stop, s.2.2)

theorem substitute_from (before kept : List α) (pieces : List (Piece τ α)) :
    substitute (before ++ kept ++ sourceOf pieces) before.length
      (edits (before.length + kept.length) pieces) = kept ++ resultOf pieces := by
  induction pieces generalizing before kept with
  | nil => simp [edits, spansFrom, substitute]
  | cons p rest ih =>
    cases p with
    | kept a =>
      -- the letter waits with the others until the next span, or the end
      have h := ih before (kept ++ [a])
      rw [List.length_append, List.length_singleton, ← Nat.add_assoc] at h
      simpa [edits, spansFrom, Piece.source, Piece.result] using h
    | replaced reason source replacement =>
      have h := ih (before ++ kept ++ source) []
      simp only [List.append_nil, List.length_nil, Nat.add_zero, List.nil_append,
        List.length_append] at h
      have hkept : ((before ++ kept ++ (source ++ sourceOf rest)).drop before.length).take
          (before.length + kept.length - before.length) = kept := by
        rw [List.append_assoc, List.drop_left, Nat.add_sub_cancel_left, List.take_left]
      simp only [edits, spansFrom, List.map_cons, sourceOf_cons, resultOf_cons, Piece.source,
        Piece.result, substitute, width_one] at h ⊢
      rw [hkept, ← List.append_assoc, h, List.append_assoc]

/-- The replacements put in by position give the result of the pieces. -/
theorem substitute_spans (pieces : List (Piece τ α)) :
    substitute (sourceOf pieces) 0 (edits 0 pieces) = resultOf pieces :=
  substitute_from [] [] pieces

end Pieces

end YawnApp.Foundation
