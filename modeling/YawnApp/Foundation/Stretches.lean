import Mathlib.Data.List.Basic

set_option autoImplicit false

/-!
# A stretch of what a list expands to

Each member of a list expands to several.  A stretch of the expansion begins inside what
one member expands to and ends inside what another one does; the members from the one to
the other are the least part of the list whose expansion has the stretch.
-/

namespace YawnApp.Foundation

open List

variable {α β : Type} {f : α → List β} {l : List α}

/-- The member that a stretch begins in: the induction takes the members before it off. -/
theorem exists_first_of_flatMap :
    ∀ {before rest : List β}, rest ≠ [] → l.flatMap f = before ++ rest →
      ∃ front x back inner more, l = front ++ x :: back ∧ before = front.flatMap f ++ inner ∧
        f x = inner ++ more ∧ more ≠ [] ∧ rest = more ++ back.flatMap f := by
  induction l with
  | nil =>
    intro before rest hrest h
    exact absurd (append_eq_nil_iff.mp h.symm).2 hrest
  | cons y l ih =>
    intro before rest hrest h
    rw [flatMap_cons] at h
    rcases append_eq_append_iff.mp h with ⟨m, hbefore, hl⟩ | ⟨m, hy, hm⟩
    · obtain ⟨front, x, back, inner, more, rfl, rfl, hx, hmore, hrest⟩ := ih hrest hl
      exact ⟨y :: front, x, back, inner, more, rfl, by rw [hbefore, flatMap_cons, append_assoc],
        hx, hmore, hrest⟩
    · by_cases hempty : m = []
      · subst hempty
        obtain ⟨front, x, back, inner, more, rfl, hinner, hx, hmore, hrest⟩ := @ih [] _ hrest hm.symm
        refine ⟨y :: front, x, back, inner, more, rfl, ?_, hx, hmore, hrest⟩
        rw [flatMap_cons, append_assoc, ← hinner, hy, append_nil, append_nil]
      · exact ⟨[], y, l, before, m, rfl, rfl, hy, hempty, hm⟩

/-- The member that it ends in. -/
theorem exists_last_of_flatMap : ∀ {rest after : List β}, rest ≠ [] → l.flatMap f = rest ++ after →
      ∃ front z back more inner, l = front ++ z :: back ∧ f z = more ++ inner ∧ more ≠ [] ∧
        rest = front.flatMap f ++ more ∧ after = inner ++ back.flatMap f := by
  induction l with
  | nil =>
    intro rest after hrest h
    exact absurd (append_eq_nil_iff.mp h.symm).1 hrest
  | cons y l ih =>
    intro rest after hrest h
    rw [flatMap_cons] at h
    rcases append_eq_append_iff.mp h with ⟨m, hm, hl⟩ | ⟨m, hy, hafter⟩
    · by_cases hempty : m = []
      · subst hempty
        rw [append_nil] at hm
        exact ⟨[], y, l, rest, [], rfl, by rw [hm, append_nil], hrest, rfl, hl.symm⟩
      · obtain ⟨front, z, back, more, inner, rfl, hz, hmore, rfl, hafter⟩ := ih hempty hl
        exact ⟨y :: front, z, back, more, inner, rfl, hz, hmore,
          by rw [hm, flatMap_cons, append_assoc], hafter⟩
    · exact ⟨[], y, l, rest, m, rfl, hy, hrest, rfl, hafter⟩

/-- The members whose expansion has a stretch, and what else they expand to. -/
structure Stretch (f : α → List β) (l : List α) (before stretch after : List β)
    (front middle back : List α) : Prop where
  split : l = front ++ middle ++ back
  nonempty : middle ≠ []
  expands : ∃ pre post, middle.flatMap f = pre ++ stretch ++ post ∧
    before = front.flatMap f ++ pre ∧ after = post ++ back.flatMap f
  first : ∀ x ∈ middle.head?, ∀ b ∈ stretch.head?, b ∈ f x
  last : ∀ x ∈ middle.getLast?, ∀ b ∈ stretch.getLast?, b ∈ f x

theorem exists_stretch {before stretch after : List β} (hne : stretch ≠ [])
    (h : l.flatMap f = before ++ stretch ++ after) :
    ∃ front middle back, Stretch f l before stretch after front middle back := by
  have hrest : stretch ++ after ≠ [] := fun hnil => hne (append_eq_nil_iff.mp hnil).1
  rw [append_assoc] at h
  obtain ⟨front, x, back, inner, more, rfl, hbefore, hx, hmore, hstretch⟩ :=
    exists_first_of_flatMap hrest h
  have hinner : inner ++ stretch ≠ [] := fun hnil => hne (append_eq_nil_iff.mp hnil).2
  have hx' : (x :: back).flatMap f = inner ++ stretch ++ after := by
    rw [flatMap_cons, hx, append_assoc, ← hstretch, append_assoc]
  obtain ⟨between, z, back', more', inner', hsplit, hz, hmore', hends, hafter⟩ :=
    exists_last_of_flatMap hinner hx'
  refine ⟨front, between ++ [z], back', ?_, by simp, ⟨inner, inner', ?_, hbefore, hafter⟩, ?_, ?_⟩
  · rw [hsplit, append_assoc, append_assoc, singleton_append]
  · rw [flatMap_append, flatMap_singleton, hz, ← append_assoc, ← hends]
  · intro y hy b hb
    have hhead : (between ++ [z]).head? = some x := by
      cases between with
      | nil | cons => cases hsplit; rfl
    rw [hhead] at hy
    cases hy
    rw [hx]
    refine mem_append_right _ (mem_of_mem_head? ?_)
    have hheads := congrArg List.head? hstretch
    rw [List.head?_append_of_ne_nil _ hne, List.head?_append_of_ne_nil _ hmore] at hheads
    rwa [← hheads]
  · intro y hy b hb
    rw [List.getLast?_concat] at hy
    cases hy
    rw [hz]
    refine mem_append_left _ (mem_of_mem_getLast? ?_)
    have hlasts := congrArg List.getLast? hends
    rw [List.getLast?_append_of_ne_nil _ hne, List.getLast?_append_of_ne_nil _ hmore'] at hlasts
    rwa [← hlasts]

end YawnApp.Foundation
