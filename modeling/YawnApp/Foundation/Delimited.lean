/-
  Foundation/Delimited.lean --- lists of texts written into one text.

  A digest over several texts needs them in one, and a reader of the digest
  needs to know that nothing else was written the same way.  Two layouts are
  used: every text with a mark before it, and every text with a mark after it.
  Both can be read back when no text contains the mark.
-/
import Mathlib.Data.List.Basic

set_option autoImplicit false

namespace YawnApp.Foundation

open List

variable {α : Type} {mark : α}

/-- The mark is in none of the texts. -/
def FreeOf (mark : α) (texts : List (List α)) : Prop := ∀ text ∈ texts, mark ∉ text

theorem FreeOf.tail {text : List α} {rest : List (List α)} (h : FreeOf mark (text :: rest)) :
    FreeOf mark rest :=
  fun other hother => h other (mem_cons_of_mem _ hother)

/-- Every text with a mark before it. -/
def marked (mark : α) (texts : List (List α)) : List α := texts.flatMap fun text => mark :: text

/-- Every text with a mark after it. -/
def terminated (mark : α) (texts : List (List α)) : List α :=
  texts.flatMap fun text => text ++ [mark]

/-- Up to the first mark two texts agree when they do as a whole. -/
theorem append_mark_inj : ∀ {a b c d : List α}, mark ∉ a → mark ∉ b →
    a ++ mark :: c = b ++ mark :: d → a = b ∧ c = d := by
  intro a
  induction a with
  | nil =>
    intro b c d _ hb h
    cases b with
    | nil =>
      rw [nil_append, nil_append, List.cons.injEq] at h
      exact ⟨rfl, h.2⟩
    | cons =>
      rw [nil_append, cons_append, List.cons.injEq] at h
      exact absurd (h.1 ▸ mem_cons_self) hb
  | cons x a ih =>
    intro b c d ha hb h
    cases b with
    | nil =>
      rw [nil_append, cons_append, List.cons.injEq] at h
      exact absurd (h.1 ▸ mem_cons_self) ha
    | cons =>
      rw [cons_append, cons_append, List.cons.injEq] at h
      rw [mem_cons, not_or] at ha hb
      obtain ⟨hab, hcd⟩ := ih ha.2 hb.2 h.2
      exact ⟨congr (congrArg _ h.1) hab, hcd⟩

/-- Texts with a mark after each can be read back. -/
theorem terminated_inj : ∀ {texts others : List (List α)}, FreeOf mark texts →
    FreeOf mark others → terminated mark texts = terminated mark others → texts = others := by
  intro texts
  induction texts with
  | nil =>
    intro others _ _ h
    cases others with
    | nil => rfl
    | cons => simp [terminated] at h
  | cons text rest ih =>
    intro others htexts hothers h
    cases others with
    | nil => simp [terminated] at h
    | cons other =>
      unfold terminated at h
      rw [flatMap_cons, flatMap_cons, append_assoc, append_assoc,
        singleton_append, singleton_append] at h
      obtain ⟨hfirst, hrest⟩ := append_mark_inj (htexts text mem_cons_self)
        (hothers other mem_cons_self) h
      rw [hfirst, ih htexts.tail hothers.tail hrest]

/-- Texts with a mark before each are texts with a mark after each, moved by one
mark. -/
theorem marked_append_mark (mark : α) (texts : List (List α)) :
    marked mark texts ++ [mark] = mark :: terminated mark texts := by
  induction texts with
  | nil => rfl
  | cons text rest ih =>
    unfold marked terminated at ih ⊢
    rw [flatMap_cons, flatMap_cons, append_assoc, ih]
    simp

/-- Texts with a mark before each can be read back. -/
theorem marked_inj {texts others : List (List α)} (htexts : FreeOf mark texts)
    (hothers : FreeOf mark others) (h : marked mark texts = marked mark others) :
    texts = others := by
  have hmarked := congrArg (· ++ [mark]) h
  simp only [marked_append_mark, List.cons.injEq, true_and] at hmarked
  exact terminated_inj htexts hothers hmarked

/-- What is in a text with marks is a mark or in one of the texts. -/
theorem mem_marked {x : α} {texts : List (List α)} :
    x ∈ marked mark texts → x = mark ∨ ∃ text ∈ texts, x ∈ text := by
  unfold marked
  rw [mem_flatMap]
  rintro ⟨text, htext, hx⟩
  rcases mem_cons.mp hx with rfl | hx
  · exact .inl rfl
  · exact .inr ⟨text, htext, hx⟩

end YawnApp.Foundation
