/-
  Foundation/EventLog.lean --- Positions in an append-only log.

  A log is a list that entries are appended to, so what is said of a position
  stays true.  `At` says what stands at a position.  `OpenSince` says that
  something was opened at a position and not closed since, which is how a
  request, a lock or a session reads in a log; one appended entry closes it or
  leaves it open, and can open another one at the end.
-/
import Mathlib.Data.List.Basic

set_option autoImplicit false

namespace YawnApp.Foundation

variable {α : Type}

/-- The entry at position `i` is one of `P`. -/
def At (log : List α) (i : Nat) (P : α → Prop) : Prop := ∃ e, log[i]? = some e ∧ P e

/-- At position `i` something was opened, and no later entry closes it. -/
structure OpenSince (opens closes : α → Prop) (log : List α) (i : Nat) : Prop where
  opened : At log i opens
  unclosed : ∀ k, i < k → ¬ At log k closes

variable {log later : List α} {e : α} {i : Nat} {P Q opens closes : α → Prop}

theorem not_at_nil : ¬ At ([] : List α) i P := by
  rintro ⟨e, he, -⟩
  rw [List.getElem?_nil] at he
  cases he

theorem At.lt_length (h : At log i P) : i < log.length := by
  obtain ⟨e, he, -⟩ := h
  exact (List.getElem?_eq_some_iff.mp he).1

theorem At.imp (h : At log i P) (hPQ : ∀ e, P e → Q e) : At log i Q := by
  obtain ⟨e, he, hP⟩ := h
  exact ⟨e, he, hPQ e hP⟩

/-- An entry of a log that has grown stood there before, or is the new one. -/
theorem at_concat : At (log ++ [e]) i P ↔ At log i P ∨ i = log.length ∧ P e := by
  unfold At
  rw [List.getElem?_append]
  constructor
  · rintro ⟨found, hfound, hP⟩
    split at hfound
    · exact .inl ⟨found, hfound, hP⟩
    · rename_i hlt
      obtain ⟨hindex, rfl⟩ := List.getElem?_eq_some_iff.mp hfound
      rw [List.length_singleton] at hindex
      exact .inr ⟨by omega, by simpa using hP⟩
  · rintro (⟨found, hfound, hP⟩ | ⟨rfl, hP⟩)
    · rw [if_pos (List.getElem?_eq_some_iff.mp hfound).1]
      exact ⟨found, hfound, hP⟩
    · rw [if_neg (Nat.lt_irrefl _), Nat.sub_self]
      exact ⟨e, rfl, hP⟩

theorem At.append (h : At log i P) : At (log ++ later) i P := by
  obtain ⟨found, hfound, hP⟩ := h
  exact ⟨found, by rw [List.getElem?_append_left (List.getElem?_eq_some_iff.mp hfound).1, hfound], hP⟩

/-- What stands at a position of the older part was there before. -/
theorem At.of_append (h : At (log ++ later) i P) (hi : i < log.length) : At log i P := by
  obtain ⟨found, hfound, hP⟩ := h
  exact ⟨found, by rwa [List.getElem?_append_left hi] at hfound, hP⟩

/-- A log is taken apart at a position. -/
theorem At.split (h : At log i P) :
    ∃ earlier found later, log = earlier ++ found :: later ∧ earlier.length = i ∧ P found := by
  obtain ⟨found, hfound, hP⟩ := h
  obtain ⟨hi, hget⟩ := List.getElem?_eq_some_iff.mp hfound
  refine ⟨log.take i, found, log.drop (i + 1), ?_, List.length_take_of_le (Nat.le_of_lt hi), hP⟩
  rw [← hget, List.getElem_cons_drop, List.take_append_drop]

/-- What is open after an entry was open before and is not closed by it, or is
opened by it. -/
theorem openSince_concat :
    OpenSince opens closes (log ++ [e]) i ↔
      OpenSince opens closes log i ∧ ¬ closes e ∨ i = log.length ∧ opens e := by
  constructor
  · rintro ⟨hopened, hunclosed⟩
    rcases at_concat.mp hopened with hold | hnew
    · refine .inl ⟨⟨hold, fun k hk hclosed => hunclosed k hk (at_concat.mpr (.inl hclosed))⟩, ?_⟩
      exact fun hcloses => hunclosed log.length hold.lt_length (at_concat.mpr (.inr ⟨rfl, hcloses⟩))
    · exact .inr hnew
  · rintro (⟨hopen, hkeeps⟩ | ⟨rfl, hopens⟩)
    · refine ⟨at_concat.mpr (.inl hopen.opened), fun k hk hclosed => ?_⟩
      rcases at_concat.mp hclosed with hold | ⟨-, hcloses⟩
      · exact hopen.unclosed k hk hold
      · exact hkeeps hcloses
    · refine ⟨at_concat.mpr (.inr ⟨rfl, hopens⟩), fun k hk hclosed => ?_⟩
      have hlength := hclosed.lt_length
      rw [List.length_append, List.length_singleton] at hlength
      omega

end YawnApp.Foundation
