import Mathlib.Data.Rat.Floor
import Mathlib.Data.List.Basic

set_option autoImplicit false

/-!
# The reader of a speech helper

A speech helper writes numbers to its standard output, one a line, and
`_drain_progress` reads them with a bounded `readline`.  A line that is longer than
the bound comes in pieces, and the last piece may look like a number.
-/

namespace YawnApp.Worker

/-- `_MAX_PROGRESS_LINE`. -/
def maxProgressLine : Nat := 65

def newline : UInt8 := 10

/-- `stream.readline(limit)`, and what it leaves. -/
def readline : Nat → List UInt8 → List UInt8 × List UInt8
  | 0, bytes => ([], bytes)
  | _ + 1, [] => ([], [])
  | limit + 1, byte :: bytes =>
    if byte = newline then ([byte], bytes)
    else (byte :: (readline limit bytes).1, (readline limit bytes).2)

theorem readline_length (limit : Nat) (bytes : List UInt8) :
    (readline limit bytes).1.length ≤ limit := by
  induction limit generalizing bytes with
  | zero => exact Nat.le_refl 0
  | succ limit ih =>
    cases bytes with
    | nil => exact Nat.zero_le _
    | cons byte bytes =>
      unfold readline
      split
      · exact Nat.succ_le_succ (Nat.zero_le _)
      · exact Nat.succ_le_succ (ih bytes)

/-- A chunk ends with the first end of a line in it. -/
theorem readline_dropLast (limit : Nat) (bytes : List UInt8) :
    newline ∉ (readline limit bytes).1.dropLast := by
  induction limit generalizing bytes with
  | zero => exact List.not_mem_nil
  | succ limit ih =>
    cases bytes with
    | nil => exact List.not_mem_nil
    | cons byte bytes =>
      unfold readline
      split
      · exact List.not_mem_nil
      · rename_i hbyte
        intro hmem
        cases hchunk : (readline limit bytes).1 with
        | nil =>
          rw [hchunk] at hmem
          cases hmem
        | cons first rest =>
          rw [hchunk, List.dropLast_cons_of_ne_nil (List.cons_ne_nil first rest),
            List.mem_cons] at hmem
          rcases hmem with hmem | hmem
          · exact hbyte hmem.symm
          · have htail := ih bytes
            rw [hchunk] at htail
            exact htail hmem

/-! ## The numbers -/

def isDigit (byte : UInt8) : Bool := 48 ≤ byte && byte ≤ 57

/-- The number that digits write. -/
def digitsValue (digits : List UInt8) : Nat :=
  digits.foldl (fun value digit => 10 * value + (digit.toNat - 48)) 0

/-- `_PROGRESS_NUMBER.fullmatch`, and `float` of the match: at most nine digits and
six behind a point. -/
def progressNumber (text : List UInt8) : Option ℚ :=
  let whole := text.takeWhile isDigit
  if whole.length = 0 ∨ 9 < whole.length then none
  else
    match text.dropWhile isDigit with
    | [] => some (digitsValue whole)
    | point :: fraction =>
      if point = 46 ∧ fraction.all isDigit = true ∧ fraction.length ≠ 0 ∧ fraction.length ≤ 6 then
        some (digitsValue whole + digitsValue fraction / 10 ^ fraction.length)
      else none

/-! ## The loop -/

/-- The loop of `_drain_progress` between two reads. -/
structure Reader where
  consumed : List UInt8
  rest : List UInt8
  best : ℚ
  discarding : Bool

def Reader.start (output : List UInt8) : Reader := ⟨[], output, 0, false⟩

/-- A turn of the loop, and the seconds it goes on to report. -/
def Reader.turn (duration : ℚ) (r : Reader) : Reader × Option ℚ :=
  let chunk := (readline maxProgressLine r.rest).1
  let next := { r with
    consumed := r.consumed ++ chunk, rest := (readline maxProgressLine r.rest).2 }
  let complete := chunk.getLast? == some newline
  -- the rest of an overlong line, or an unterminated last line
  if r.discarding || !complete then ({ next with discarding := !complete }, none)
  else
    match progressNumber chunk.dropLast with
    | none => (next, none)
    | some number =>
      let seconds := min number duration
      if seconds ≤ r.best then (next, none) else ({ next with best := seconds }, some seconds)

/-- What was read stops where a line begins. -/
def LineStart (bytes : List UInt8) : Prop := bytes = [] ∨ bytes.getLast? = some newline

/-- A whole line, not overlong, is a number. -/
def Reported (bytes : List UInt8) (number : ℚ) : Prop :=
  ∃ before line after, bytes = before ++ (line ++ newline :: after) ∧ LineStart before ∧
    newline ∉ line ∧ line.length < maxProgressLine ∧ progressNumber line = some number

theorem Reported.append {bytes : List UInt8} {number : ℚ} (h : Reported bytes number)
    (more : List UInt8) : Reported (bytes ++ more) number := by
  obtain ⟨before, line, after, rfl, hline⟩ := h
  exact ⟨before, line, after ++ more, by simp, hline⟩

theorem not_reported_nil (number : ℚ) : ¬ Reported [] number := by
  intro h
  obtain ⟨before, line, after, hbytes, -⟩ := h
  simp at hbytes

/-- Outside an overlong line the reader is where a line begins. -/
def Reader.Aligned (r : Reader) : Prop := r.discarding = false → LineStart r.consumed

theorem Reader.aligned_start (output : List UInt8) : (Reader.start output).Aligned :=
  fun _ => .inl rfl

theorem lineStart_append {bytes chunk : List UInt8} (h : chunk.getLast? = some newline) :
    LineStart (bytes ++ chunk) := by
  right
  rw [List.getLast?_append, h]
  rfl

/-- A turn only reads on. -/
theorem Reader.turn_consumed (duration : ℚ) (r : Reader) :
    (r.turn duration).1.consumed = r.consumed ++ (readline maxProgressLine r.rest).1 := by
  unfold Reader.turn
  dsimp only
  split
  · rfl
  · split
    · rfl
    · split <;> rfl

/-- A turn stops where a line begins, or discards. -/
theorem Reader.aligned_turn (duration : ℚ) (r : Reader) : (r.turn duration).1.Aligned := by
  unfold Reader.Aligned
  rw [Reader.turn_consumed]
  intro hdiscarding
  apply lineStart_append
  by_contra hchunk
  have hincomplete : ((readline maxProgressLine r.rest).1.getLast? == some newline) = false := by
    rw [beq_eq_false_iff_ne]
    exact hchunk
  unfold Reader.turn at hdiscarding
  simp [hincomplete] at hdiscarding

/-- What a turn goes on to report is the number of a whole line it has read. -/
theorem Reader.Aligned.reported {r : Reader} (h : r.Aligned) {duration seconds : ℚ}
    (hturn : (r.turn duration).2 = some seconds) :
    ∃ number, Reported (r.turn duration).1.consumed number ∧ seconds = min number duration := by
  rw [Reader.turn_consumed]
  unfold Reader.turn at hturn
  dsimp only at hturn
  split at hturn
  · cases hturn
  · rename_i hcomplete
    obtain ⟨hdiscarding, hlast⟩ : r.discarding = false ∧
        (readline maxProgressLine r.rest).1.getLast? = some newline := by
      simpa using hcomplete
    split at hturn
    · cases hturn
    · rename_i number hnumber
      split at hturn
      · cases hturn
      · refine ⟨number, ?_, (Option.some.inj hturn).symm⟩
        refine ⟨r.consumed, (readline maxProgressLine r.rest).1.dropLast, [], ?_, h hdiscarding,
          readline_dropLast _ _, ?_, hnumber⟩
        · rw [List.dropLast_append_getLast? newline hlast]
        · have hne : (readline maxProgressLine r.rest).1 ≠ [] := by
            intro hnil
            rw [hnil] at hlast
            cases hlast
          have hlength := readline_length maxProgressLine r.rest
          have hpositive := List.length_pos_of_ne_nil hne
          rw [List.length_dropLast]
          omega

end YawnApp.Worker
