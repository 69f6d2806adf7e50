import YawnApp.Foundation.MarkedPieces

set_option autoImplicit false

/-!
# Frames from a worker (`supervision.rs`, `read_bounded_frame`)

The worker's standard output arrives in reads that the operating system cuts as
it likes.  `readBoundedFrame` takes one frame from them.  What it takes is a
fact about the bytes alone: the first piece up to a newline, or up to the end of
the output when no newline is left, unless the piece is over the limit.  A
reader that goes on in this way has the results `readsOf`.
-/

namespace YawnApp.SessionCore

open YawnApp.Foundation List

def maxFrameBytes : Nat := 64 * 1024

/-- `b'\n'`. -/
def newline : UInt8 := 10

/-! ## The reader -/

/-- What one read gives.  A read of no bytes is the end of the output. -/
abbrev ReadBytes := { bytes : List UInt8 // bytes ≠ [] }

/-- How the output ends. -/
inductive StreamEnd where
  | eof
  | failed
deriving DecidableEq

/-- `BufReader`: the reads, of which the first is what is left in its buffer. -/
structure FrameReader where
  reads : List ReadBytes
  ends : StreamEnd

/-- The bytes still to be read. -/
def FrameReader.bytes (reader : FrameReader) : List UInt8 := (reader.reads.map Subtype.val).flatten

/-- The refusals of `read_bounded_frame`. -/
inductive ReadError where
  | frameTooLarge
  | failed
deriving DecidableEq

/-- `BufRead::consume` on the first of the reads. -/
def consume (available : ReadBytes) (count : Nat) (later : List ReadBytes) : List ReadBytes :=
  if h : available.val.drop count = [] then later else ⟨available.val.drop count, h⟩ :: later

/-- How many of the available bytes belong to the frame. -/
def consumed (available : List UInt8) : Nat :=
  match available.findIdx? (· == newline) with
  | some position => position + 1
  | none => available.length

/-- The loop of `read_bounded_frame`.  Without a newline all that is available is
consumed. -/
def readLoop (ends : StreamEnd) (frame : List UInt8) :
    List ReadBytes → Except ReadError (List UInt8) × List ReadBytes
  | [] => match ends with
    | .eof => (.ok frame, [])
    | .failed => (.error .failed, [])
  | available :: later =>
    let count := consumed available.val
    if maxFrameBytes < frame.length + count then (.error .frameTooLarge, available :: later)
    else
      let frame := frame ++ available.val.take count
      if frame.getLast? = some newline then (.ok frame, consume available count later)
      else readLoop ends frame later

/-- An empty frame is the end of the output. -/
def readBoundedFrame (reader : FrameReader) : Except ReadError (List UInt8) × FrameReader :=
  ((readLoop reader.ends [] reader.reads).1,
    { reader with reads := (readLoop reader.ends [] reader.reads).2 })

/-! ## What one read takes -/

/-- The frame that a reader takes from the bytes, and the bytes it leaves. -/
inductive TakesFrame (ends : StreamEnd) (bytes : List UInt8) :
    Except ReadError (List UInt8) → List UInt8 → Prop
  | line {front rest : List UInt8} (hfree : newline ∉ front)
      (hbytes : bytes = front ++ newline :: rest) (hlength : front.length + 1 ≤ maxFrameBytes) :
    TakesFrame ends bytes (.ok (front ++ [newline])) rest
  | tail (hfree : newline ∉ bytes) (hlength : bytes.length ≤ maxFrameBytes) (hends : ends = .eof) :
    TakesFrame ends bytes (.ok bytes) []
  | tooLarge {piece : List UInt8} {later : List (List UInt8)} (rest : List UInt8)
      (hpieces : pieces newline bytes = piece :: later) (hlength : maxFrameBytes < piece.length) :
    TakesFrame ends bytes (.error .frameTooLarge) rest
  | failed (hfree : newline ∉ bytes) (hlength : bytes.length ≤ maxFrameBytes)
      (hends : ends = .failed) : TakesFrame ends bytes (.error .failed) []

theorem consume_flatten (available : ReadBytes) (count : Nat) (later : List ReadBytes) :
    ((consume available count later).map Subtype.val).flatten =
      available.val.drop count ++ (later.map Subtype.val).flatten := by
  unfold consume
  split
  · rename_i h
    rw [h, nil_append]
  · rfl

/-- Either a newline is available and the frame ends with it, or none is and all
that is available belongs to the frame. -/
theorem consumed_cases (available : List UInt8) :
    (∃ front rest, newline ∉ front ∧ available = front ++ newline :: rest ∧
        consumed available = front.length + 1) ∨
      newline ∉ available ∧ consumed available = available.length := by
  unfold consumed
  cases hposition : available.findIdx? (· == newline) with
  | none =>
    refine .inr ⟨fun hmem => ?_, rfl⟩
    rw [List.findIdx?_eq_none_iff] at hposition
    simpa using hposition newline hmem
  | some position =>
    rw [List.findIdx?_eq_some_iff_getElem] at hposition
    obtain ⟨hlt, hget, hbefore⟩ := hposition
    rw [beq_iff_eq] at hget
    refine .inl ⟨available.take position, available.drop (position + 1), fun hmem => ?_, ?_, ?_⟩
    · obtain ⟨index, hindex, hnewline⟩ := mem_take_iff_getElem.mp hmem
      have hfalse := hbefore index (by omega)
      rw [hnewline, beq_self_eq_true] at hfalse
      exact hfalse rfl
    · rw [← hget, getElem_cons_drop, take_append_drop]
    · rw [length_take_of_le (Nat.le_of_lt hlt)]

/-- However the bytes are cut into reads, the reader takes the same frame. -/
theorem readLoop_takes (ends : StreamEnd) (reads : List ReadBytes) :
    ∀ frame : List UInt8, newline ∉ frame → frame.length ≤ maxFrameBytes →
      TakesFrame ends (frame ++ (reads.map Subtype.val).flatten) (readLoop ends frame reads).1
        ((readLoop ends frame reads).2.map Subtype.val).flatten := by
  induction reads with
  | nil =>
    intro frame hfree hlength
    cases ends with
    | eof =>
      rw [map_nil, flatten_nil, append_nil]
      exact .tail hfree hlength rfl
    | failed =>
      rw [map_nil, flatten_nil, append_nil]
      exact .failed hfree hlength rfl
  | cons available later ih =>
    intro frame hfree hlength
    rw [map_cons, flatten_cons]
    generalize hbytes : (later.map Subtype.val).flatten = bytes at ih ⊢
    unfold readLoop
    dsimp only
    rcases consumed_cases available.val with
      ⟨front, rest, hfront, havailable, hcount⟩ | ⟨hnone, hcount⟩
    · -- the frame ends in this read
      have hmarked : newline ∉ frame ++ front := fun h => (mem_append.mp h).elim hfree hfront
      have htext : frame ++ (available.val ++ bytes) = (frame ++ front) ++ newline :: (rest ++ bytes) := by
        rw [havailable]
        simp
      have htake : available.val.take (consumed available.val) = front ++ [newline] := by
        rw [hcount, havailable, take_length_add_append]
        rfl
      have hdrop : available.val.drop (consumed available.val) = rest := by
        rw [hcount, havailable, drop_length_add_append]
        rfl
      split
      · rename_i hover
        refine .tooLarge _ (htext ▸ pieces_of_mark hmarked (rest ++ bytes)) ?_
        rw [hcount] at hover
        simp only [length_append, length_singleton]
        omega
      · rename_i hfits
        have hlast : (frame ++ (front ++ [newline])).getLast? = some newline := by
          rw [← append_assoc, List.getLast?_concat]
        rw [htake, if_pos hlast, consume_flatten, hdrop, hbytes, htext, ← append_assoc]
        refine .line hmarked rfl ?_
        rw [hcount] at hfits
        rw [length_append]
        omega
    · have hmarked : newline ∉ frame ++ available.val :=
        fun h => (mem_append.mp h).elim hfree hnone
      split
      · rename_i hover
        have hne : frame ++ available.val ≠ [] :=
          fun h => available.property (append_eq_nil_iff.mp h).2
        obtain ⟨piece, others, hpieces⟩ := pieces_of_free_append hmarked hne bytes
        rw [append_assoc] at hpieces
        refine .tooLarge _ hpieces ?_
        rw [hcount] at hover
        simp only [length_append]
        omega
      · rename_i hfits
        rw [hcount] at hfits
        have hlast : (frame ++ available.val).getLast? ≠ some newline :=
          fun h => hmarked (mem_of_getLast? h)
        rw [hcount, take_length, if_neg hlast, ← append_assoc]
        refine ih (frame ++ available.val) hmarked ?_
        rw [length_append]
        omega

theorem readBoundedFrame_takes (reader : FrameReader) :
    TakesFrame reader.ends reader.bytes (readBoundedFrame reader).1 (readBoundedFrame reader).2.bytes :=
  readLoop_takes reader.ends reader.reads [] not_mem_nil (Nat.zero_le _)

/-! ## What a reader takes one after another -/

/-- The frames of the bytes: the pieces before the first that is over the limit.
A piece without a newline is a frame at the end of the output, not where reading
fails. -/
def framesOf (ends : StreamEnd) (bytes : List UInt8) : List (List UInt8) :=
  let short := (pieces newline bytes).takeWhile fun piece => piece.length ≤ maxFrameBytes
  match ends with
  | .eof => short
  | .failed => short.filter fun piece => Ended newline piece

/-- What the reader gives after the last frame. -/
def lastRead (ends : StreamEnd) (bytes : List UInt8) : Except ReadError (List UInt8) :=
  if (pieces newline bytes).all fun piece => piece.length ≤ maxFrameBytes then
    match ends with
    | .eof => .ok []
    | .failed => .error .failed
  else .error .frameTooLarge

/-- The results of a reader that reads on until it gives no frame. -/
def readsOf (ends : StreamEnd) (bytes : List UInt8) : List (Except ReadError (List UInt8)) :=
  (framesOf ends bytes).map .ok ++ [lastRead ends bytes]

variable {ends : StreamEnd} {bytes rest : List UInt8}

theorem readsOf_line {front : List UInt8} (hfree : newline ∉ front)
    (hlength : front.length + 1 ≤ maxFrameBytes) (rest : List UInt8) :
    readsOf ends (front ++ newline :: rest) = .ok (front ++ [newline]) :: readsOf ends rest := by
  have hended : Ended newline (front ++ [newline]) := List.getLast?_concat
  have hfits : (front ++ [newline]).length ≤ maxFrameBytes := by
    rw [length_append]
    exact hlength
  unfold readsOf framesOf lastRead
  rw [pieces_of_mark hfree, takeWhile_cons_of_pos (by simpa using hfits), all_cons]
  simp only [hfits, decide_true, Bool.true_and]
  cases ends with
  | eof => rfl
  | failed =>
    rw [filter_cons_of_pos (by simpa using hended), map_cons, cons_append]

/-- A frame is read, and the reader goes on after it. -/
theorem TakesFrame.readsOf_frame {frame : List UInt8} (h : TakesFrame ends bytes (.ok frame) rest)
    (hframe : frame ≠ []) : readsOf ends bytes = .ok frame :: readsOf ends rest := by
  cases h with
  | line hfree hbytes hlength => exact hbytes ▸ readsOf_line hfree hlength rest
  | tail hfree hlength hends =>
    subst hends
    unfold readsOf framesOf lastRead
    rw [pieces_of_free hfree hframe]
    simp [pieces, hlength]

/-- What is no frame is the last that the reader gives. -/
theorem TakesFrame.readsOf_last {outcome : Except ReadError (List UInt8)}
    (h : TakesFrame ends bytes outcome rest) (hlast : ∀ frame, outcome = .ok frame → frame = []) :
    readsOf ends bytes = [outcome] := by
  cases h with
  | line =>
    have hnil := hlast _ rfl
    simp at hnil
  | tail hfree hlength hends =>
    subst hends
    rw [hlast _ rfl]
    rfl
  | tooLarge _ hpieces hlength =>
    unfold readsOf framesOf lastRead
    rw [hpieces, takeWhile_cons_of_neg (by simpa using hlength), all_cons]
    simp only [Nat.not_le.mpr hlength, decide_false, Bool.false_and, Bool.false_eq_true, if_false]
    cases ends with
    | eof | failed => rfl
  | failed hfree hlength hends =>
    subst hends
    unfold readsOf framesOf lastRead
    by_cases hempty : bytes = []
    · rw [hempty]
      rfl
    · have hunended : ¬ Ended newline bytes := fun h => hfree (mem_of_getLast? h)
      rw [pieces_of_free hfree hempty]
      simp [hlength, hunended]

end YawnApp.SessionCore
