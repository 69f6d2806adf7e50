import Mathlib.Data.List.Chain
import Mathlib.Data.List.Forall2

set_option autoImplicit false

/-!
# A list in blocks

A rule says, of the block that is being filled and of the next member, whether the member
joins it.  Cutting a list by the rule fills one block after the other.  A cut is known by
four facts: the blocks are the list, none is empty, every member of a block but its first
joined what stands before it, and the first member of a block did not join the block
before.
-/

namespace YawnApp.Foundation

namespace Blocks

open List

variable {α β : Type}

/-- The blocks of the rest of a list: `current` is the block that is being filled. -/
def cutFrom (joins : List α → α → Bool) : List α → List α → List (List α)
  | current, [] => [current]
  | current, a :: rest =>
    if joins current a then cutFrom joins (current ++ [a]) rest
    else current :: cutFrom joins [a] rest

/-- The blocks of a list. -/
def cut (joins : List α → α → Bool) : List α → List (List α)
  | [] => []
  | a :: rest => cutFrom joins [a] rest

/-- Every member of a block but its first joined what stands before it. -/
def Joined (joins : List α → α → Bool) (block : List α) : Prop :=
  ∀ before a after, block = before ++ a :: after → before ≠ [] → joins before a = true

/-- The first member of the next block did not join this one. -/
def Parted (joins : List α → α → Bool) (block next : List α) : Prop :=
  ∀ a ∈ next.head?, joins block a = false

structure IsCut (joins : List α → α → Bool) (l : List α) (blocks : List (List α)) : Prop where
  flatten : blocks.flatten = l
  nonempty : ∀ block ∈ blocks, block ≠ []
  joined : ∀ block ∈ blocks, Joined joins block
  parted : blocks.IsChain (Parted joins)

variable {joins : List α → α → Bool}

theorem joined_singleton (a : α) : Joined joins [a] := by
  intro before b after heq hne
  cases before with
  | nil => exact absurd rfl hne
  | cons => simp at heq

/-- A member more is joined when it joined the block. -/
theorem joined_concat {block : List α} {a : α} :
    Joined joins (block ++ [a]) ↔ Joined joins block ∧ (block ≠ [] → joins block a = true) := by
  constructor
  · intro h
    refine ⟨?_, fun hne => h block a [] rfl hne⟩
    intro before b after heq hne
    exact h before b (after ++ [a]) (by rw [heq, append_assoc, cons_append]) hne
  · rintro ⟨h, ha⟩ before b after heq hne
    rcases append_eq_append_iff.mp heq with ⟨more, hbefore, hmore⟩ | ⟨more, hblock, hmore⟩
    · cases more with
      | nil =>
        rw [append_nil] at hbefore
        cases hmore
        rw [hbefore] at hne ⊢
        exact ha hne
      | cons => simp at hmore
    · cases more with
      | nil =>
        rw [append_nil] at hblock
        cases hmore
        rw [← hblock] at hne ⊢
        exact ha hne
      | cons c more =>
        rw [cons_append, List.cons.injEq] at hmore
        obtain ⟨rfl, -⟩ := hmore
        exact h before b more hblock hne

/-- The first block of a cut begins with the block that was open. -/
theorem head_cutFrom (rest : List α) :
    ∀ (current : List α), current ≠ [] →
      ∃ first blocks, cutFrom joins current rest = first :: blocks ∧ first.head? = current.head? := by
  induction rest with
  | nil => exact fun current _ => ⟨current, [], rfl, rfl⟩
  | cons a rest ih =>
    intro current hcurrent
    rw [cutFrom]
    split
    · obtain ⟨first, blocks, hcut, hhead⟩ := ih (current ++ [a]) (by simp)
      refine ⟨first, blocks, hcut, hhead.trans ?_⟩
      rw [List.head?_append_of_ne_nil _ hcurrent]
    · exact ⟨current, _, rfl, rfl⟩

/-- The induction is on what is left of the list: the open block is joined, and what
closes it is the first member of the next. -/
theorem isCut_cutFrom (rest : List α) :
    ∀ (current : List α), current ≠ [] → Joined joins current →
      IsCut joins (current ++ rest) (cutFrom joins current rest) := by
  induction rest with
  | nil =>
    intro current hcurrent hjoined
    exact ⟨by simp [cutFrom], by simp [cutFrom, hcurrent], by simpa [cutFrom] using hjoined,
      by simp [cutFrom]⟩
  | cons a rest ih =>
    intro current hcurrent hjoined
    rw [cutFrom]
    split
    · rename_i ha
      have ih := ih (current ++ [a]) (by simp) (joined_concat.mpr ⟨hjoined, fun _ => ha⟩)
      rwa [append_assoc, singleton_append] at ih
    · rename_i ha
      have ih := ih [a] (by simp) (joined_singleton a)
      obtain ⟨first, blocks, hcut, hhead⟩ := @head_cutFrom _ joins rest [a] (by simp)
      refine ⟨?_, ?_, ?_, ?_⟩
      · rw [flatten_cons, ih.flatten, singleton_append]
      · exact forall_mem_cons.mpr ⟨hcurrent, ih.nonempty⟩
      · exact forall_mem_cons.mpr ⟨hjoined, ih.joined⟩
      · have hparted := ih.parted
        rw [hcut] at hparted ⊢
        refine isChain_cons_cons.mpr ⟨?_, hparted⟩
        intro b hb
        rw [hhead] at hb
        cases hb
        exact Bool.not_eq_true _ ▸ ha

/-- What `cut` gives is a cut. -/
theorem isCut_cut (l : List α) : IsCut joins l (cut joins l) := by
  cases l with
  | nil => exact ⟨rfl, by simp [cut], by simp [cut], by simp [cut]⟩
  | cons a rest => exact isCut_cutFrom rest [a] (by simp) (joined_singleton a)

/-- A list whose members all join is one block. -/
theorem cutFrom_of_joined (rest : List α) :
    ∀ (current : List α), current ≠ [] → Joined joins (current ++ rest) →
      cutFrom joins current rest = [current ++ rest] := by
  induction rest with
  | nil => exact fun current _ _ => by rw [cutFrom, append_nil]
  | cons a rest ih =>
    intro current hcurrent hjoined
    have ha : joins current a = true := hjoined current a rest rfl hcurrent
    rw [cutFrom, if_pos ha, ih (current ++ [a]) (by simp) (by simpa using hjoined)]
    simp

theorem cut_of_joined {l : List α} (hne : l ≠ []) (hjoined : Joined joins l) : cut joins l = [l] := by
  cases l with
  | nil => exact absurd rfl hne
  | cons a rest => exact cutFrom_of_joined rest [a] (by simp) hjoined

theorem cut_ne_nil {l : List α} (hne : l ≠ []) : cut joins l ≠ [] := by
  intro hcut
  have hflatten := (@isCut_cut _ joins l).flatten
  rw [hcut] at hflatten
  exact hne hflatten.symm

/-- Members taken one from a block stand in the order of the list. -/
theorem filterMap_sublist_flatten {pick : List α → Option α} {blocks : List (List α)}
    (hpick : ∀ block ∈ blocks, ∀ a, pick block = some a → a ∈ block) :
    (blocks.filterMap pick).Sublist blocks.flatten := by
  induction blocks with
  | nil => exact .slnil
  | cons block blocks ih =>
    obtain ⟨hblock, hblocks⟩ := forall_mem_cons.mp hpick
    rw [flatten_cons, filterMap_cons]
    cases hfirst : pick block with
    | none => exact (ih hblocks).trans (sublist_append_right _ _)
    | some a =>
      exact (singleton_sublist.mpr (hblock a hfirst)).append (ih hblocks)

end Blocks

end YawnApp.Foundation
