/-
  Foundation/LogSections.lean --- what a log says since its last opening.

  An append-only log is divided by the entries that open a section: a request
  that begins, a frame that is read.  `lastSection` is the opening entry that
  comes last with what was logged since.  One appended entry opens a section or
  belongs to the last one, so it is computed along the log, and it says where
  the log can be taken apart.

  `Entries` is a promise that every entry makes about the log before it.
-/
import Mathlib.Data.List.Basic
import Mathlib.Data.List.Induction

set_option autoImplicit false

namespace YawnApp.Foundation

open List

variable {α : Type}

section LastSection

variable (opens : α → Prop) [DecidablePred opens]

/-- The entry that opened the last section, and the entries since. -/
def lastSection (log : List α) : Option (α × List α) :=
  log.foldl (fun found e =>
    if opens e then some (e, []) else found.map fun s => (s.1, s.2 ++ [e])) none

variable {opens} {log : List α} {e : α}

theorem lastSection_concat_of_opens (h : opens e) :
    lastSection opens (log ++ [e]) = some (e, []) := by
  unfold lastSection
  rw [foldl_append, foldl_cons, foldl_nil, if_pos h]

theorem lastSection_concat_of_not (h : ¬ opens e) :
    lastSection opens (log ++ [e]) = (lastSection opens log).map fun s => (s.1, s.2 ++ [e]) := by
  unfold lastSection
  rw [foldl_append, foldl_cons, foldl_nil, if_neg h]

/-- An entry that opens nothing belongs to the last section. -/
theorem lastSection_concat_of_some {opening : α} {since : List α}
    (h : lastSection opens log = some (opening, since)) (he : ¬ opens e) :
    lastSection opens (log ++ [e]) = some (opening, since ++ [e]) := by
  rw [lastSection_concat_of_not he, h]
  rfl

/-- The log is taken apart where its last section was opened. -/
theorem lastSection_split : ∀ {log : List α} {opening : α} {since : List α},
    lastSection opens log = some (opening, since) →
      ∃ earlier, log = earlier ++ opening :: since ∧ opens opening ∧ ∀ e ∈ since, ¬ opens e := by
  intro log
  induction log using List.reverseRecOn with
  | nil =>
    intro opening since h
    cases h
  | append_singleton log e ih =>
    intro opening since h
    by_cases he : opens e
    · rw [lastSection_concat_of_opens he] at h
      cases h
      exact ⟨log, rfl, he, fun _ hmem => absurd hmem not_mem_nil⟩
    · rw [lastSection_concat_of_not he, Option.map_eq_some_iff] at h
      obtain ⟨⟨found, before⟩, hlast, heq⟩ := h
      cases heq
      obtain ⟨earlier, rfl, hopens, hsince⟩ := ih hlast
      refine ⟨earlier, by simp, hopens, fun x hx => ?_⟩
      rcases mem_append.mp hx with hold | hnew
      · exact hsince x hold
      · exact mem_singleton.mp hnew ▸ he

end LastSection

section Entries

variable (Promise : List α → α → Prop)

/-- Every entry keeps its promise about the log before it. -/
def Entries (log : List α) : Prop :=
  ∀ earlier e later, log = earlier ++ e :: later → Promise earlier e

variable {Promise} {log : List α} {e : α}

theorem entries_nil : Entries Promise [] := by
  intro earlier e later h
  simp at h

theorem Entries.concat (h : Entries Promise log) (he : Promise log e) :
    Entries Promise (log ++ [e]) := by
  intro earlier found later hsplit
  rcases eq_nil_or_concat later with rfl | ⟨rest, last, rfl⟩
  · obtain ⟨rfl, hfound⟩ := append_inj' hsplit rfl
    cases hfound
    exact he
  · rw [concat_eq_append, ← cons_append, ← append_assoc] at hsplit
    obtain ⟨rfl, -⟩ := append_inj' hsplit rfl
    exact h earlier found rest rfl

end Entries

end YawnApp.Foundation
