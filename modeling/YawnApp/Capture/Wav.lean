import Mathlib.Algebra.Group.Nat.Defs
import Mathlib.Data.List.Basic

set_option autoImplicit false

/-!
# The bounded WAV writer

One leg of a capture is written by one `BoundedWAVWriter`: `append` accepts a
block into a bounded queue, the queue writes the accepted blocks one after the
other and patches the sizes in the header after each, and `finish` drains the
queue and reads the file back.

What the system answers to a call (how many bytes a `write` took, whether an
`fsync` worked) is an argument: a statement for all answers is one for every
failure.
-/

namespace YawnApp.Capture

abbrev Bytes := List UInt8

inductive MeetingCaptureLeg where
  | mic
  | system
deriving DecidableEq

/-- The name of a leg in texts. -/
def MeetingCaptureLeg.rawValue : MeetingCaptureLeg → String
  | .mic => "mic"
  | .system => "system"

structure MeetingCaptureFault where
  code : String
  leg : Option MeetingCaptureLeg
  detail : String
deriving DecidableEq

/-! ## Files -/

/-- The names of a capture directory: `mic.wav` and `.mic.wav.partial`, and those of
the other leg. -/
inductive WavName where
  | finalWav (leg : MeetingCaptureLeg)
  | partialWav (leg : MeetingCaptureLeg)
deriving DecidableEq

def WavName.text : WavName → String
  | .finalWav leg => leg.rawValue ++ ".wav"
  | .partialWav leg => "." ++ leg.rawValue ++ ".wav.partial"

/-- The files of a capture directory. -/
abbrev CaptureDirectory := WavName → Option Bytes

/-- The directory with a file under a name, or with none there. -/
def CaptureDirectory.put (directory : CaptureDirectory) (name : WavName) (file : Option Bytes) :
    CaptureDirectory :=
  fun other => if other = name then file else directory other

@[simp] theorem CaptureDirectory.put_self (directory : CaptureDirectory) (name : WavName)
    (file : Option Bytes) : directory.put name file name = file := if_pos rfl

@[simp] theorem CaptureDirectory.put_partial_final (directory : CaptureDirectory)
    (leg other : MeetingCaptureLeg) (file : Option Bytes) :
    directory.put (.partialWav leg) file (.finalWav other) = directory (.finalWav other) :=
  if_neg (by simp)

@[simp] theorem CaptureDirectory.put_final_partial (directory : CaptureDirectory)
    (leg other : MeetingCaptureLeg) (file : Option Bytes) :
    directory.put (.finalWav leg) file (.partialWav other) = directory (.partialWav other) :=
  if_neg (by simp)

/-- The partial file of the other leg. -/
theorem CaptureDirectory.put_partial_of_ne (directory : CaptureDirectory)
    {leg other : MeetingCaptureLeg} (h : other ≠ leg) (file : Option Bytes) :
    directory.put (.partialWav leg) file (.partialWav other) = directory (.partialWav other) :=
  if_neg (by simpa using h)

theorem CaptureDirectory.put_final_of_ne (directory : CaptureDirectory)
    {leg other : MeetingCaptureLeg} (h : other ≠ leg) (file : Option Bytes) :
    directory.put (.finalWav leg) file (.finalWav other) = directory (.finalWav other) :=
  if_neg (by simpa using h)

/-- What `write` answers: the bytes it took (an answer of zero bytes is a failure),
`EINTR`, or another error. -/
inductive WriteAnswer where
  | wrote (count : Nat)
  | interrupted
  | failed

/-- `writeAll`: the file afterwards, and whether everything was written.  A call
without an answer failed. -/
def writeAll : List WriteAnswer → Bytes → Bytes → Bytes × Bool
  | _, file, [] => (file, true)
  | [], file, _ :: _ => (file, false)
  | .wrote count :: answers, file, b :: data =>
    if count = 0 then (file, false)
    else writeAll answers (file ++ (b :: data).take count) ((b :: data).drop count)
  | .interrupted :: answers, file, b :: data => writeAll answers file (b :: data)
  | .failed :: _, file, _ :: _ => (file, false)

/-- `pwrite` that took the first `count` of the bytes. -/
def pwrite (count : Nat) (file : Bytes) (offset : Nat) (bytes : Bytes) : Bytes :=
  file.take offset ++ bytes.take count ++ file.drop (offset + (bytes.take count).length)

/-! ## The header -/

/-- The bytes of a `UInt32`, the low one first. -/
def littleEndian (n : Nat) : Bytes :=
  [UInt8.ofNat n, UInt8.ofNat (n / 256), UInt8.ofNat (n / 65536), UInt8.ofNat (n / 16777216)]

/-- `readUInt32`. -/
def readUInt32 (bytes : Bytes) (offset : Nat) : Nat :=
  (bytes.getD offset 0).toNat + (bytes.getD (offset + 1) 0).toNat * 256 +
    (bytes.getD (offset + 2) 0).toNat * 65536 + (bytes.getD (offset + 3) 0).toNat * 16777216

/-- `"RIFF"` -/
def riff : Bytes := [0x52, 0x49, 0x46, 0x46]

/-- `"WAVE"` -/
def wave : Bytes := [0x57, 0x41, 0x56, 0x45]

/-- The header between the two sizes: PCM, mono, 16 000 frames a second, two bytes a
frame, sixteen bits. -/
def format : Bytes :=
  wave ++ [0x66, 0x6D, 0x74, 0x20] ++ littleEndian 16 ++ [1, 0] ++ [1, 0] ++ littleEndian 16000 ++
    littleEndian 32000 ++ [2, 0] ++ [16, 0] ++ [0x64, 0x61, 0x74, 0x61]

/-- `header(dataBytes:)`. -/
def header (dataBytes : Nat) : Bytes :=
  riff ++ littleEndian (36 + dataBytes) ++ format ++ littleEndian dataBytes

/-! ## The writer -/

structure BoundedWAVWriter where
  leg : MeetingCaptureLeg
  maxPendingBytes : Nat
  pendingBytes : Nat
  frames : Nat
  storedFault : Option MeetingCaptureFault
  closing : Bool
  /-- the accepted blocks that the queue has not written yet -/
  queue : List Bytes

/-- A writer whose file was just created. -/
def BoundedWAVWriter.new (leg : MeetingCaptureLeg) (maxPendingBytes : Nat) : BoundedWAVWriter :=
  ⟨leg, maxPendingBytes, 0, 0, none, false, []⟩

namespace BoundedWAVWriter

/-- `record`: the first fault is kept. -/
def record (w : BoundedWAVWriter) (fault : MeetingCaptureFault) : BoundedWAVWriter :=
  { w with storedFault := w.storedFault.or (some fault) }

def overflow (w : BoundedWAVWriter) : MeetingCaptureFault :=
  ⟨"writer_queue_overflow", some w.leg,
    "bounded WAV queue exceeded " ++ toString w.maxPendingBytes ++ " bytes"⟩

/-- `append`: whether the block was accepted, and the writer. -/
def append (w : BoundedWAVWriter) (data : Bytes) : Bool × BoundedWAVWriter :=
  if data = [] ∨ data.length % 2 ≠ 0 then (false, w)
  else if w.closing ∨ w.storedFault.isSome then (false, w)
  else if w.pendingBytes + data.length > w.maxPendingBytes then
    (false, { w with storedFault := some w.overflow })
  else (true, { w with pendingBytes := w.pendingBytes + data.length, queue := w.queue ++ [data] })

/-- The answers to one block of the queue: those of its writes, and the bytes that
each of the two `pwrite`s of the header took. -/
structure BlockAnswers where
  writes : List WriteAnswer
  riffSize : Nat
  dataSize : Nat

/-- `patchHeader`: the file, and the fault. -/
def patchHeader (leg : MeetingCaptureLeg) (answers : BlockAnswers) (frames : Nat) (file : Bytes) :
    Bytes × Option MeetingCaptureFault :=
  let byteCount := frames * 2
  let failed := MeetingCaptureFault.mk "wav_header_failed" (some leg) "cannot update WAV frame counts"
  if byteCount > 2 ^ 32 - 1 - 36 then
    (file, some ⟨"wav_too_large", some leg, "WAV exceeded the RIFF size limit"⟩)
  else
    let file := pwrite answers.riffSize file 4 (littleEndian (36 + byteCount))
    if answers.riffSize < 4 then (file, some failed)
    else
      let file := pwrite answers.dataSize file 40 (littleEndian byteCount)
      if answers.dataSize < 4 then (file, some failed) else (file, none)

/-- What the queue does with one accepted block. -/
def writeBlock (w : BoundedWAVWriter) (file : Bytes) (answers : BlockAnswers) (data : Bytes) :
    BoundedWAVWriter × Bytes :=
  match writeAll answers.writes file data with
  | (file, false) => (w.record ⟨"wav_write_failed", none, "WAV write failed"⟩, file)
  | (file, true) =>
    let w :=
      { w with frames := w.frames + data.length / 2, pendingBytes := w.pendingBytes - data.length }
    match patchHeader w.leg answers w.frames file with
    | (file, none) => (w, file)
    | (file, some fault) => (w.record fault, file)

/-- The next block of the queue. -/
def runBlock (w : BoundedWAVWriter) (file : Bytes) (answers : BlockAnswers) :
    BoundedWAVWriter × Bytes :=
  match w.queue with
  | [] => (w, file)
  | data :: rest => writeBlock { w with queue := rest } file answers data

/-- The answers of a system that fails. -/
def BlockAnswers.failing : BlockAnswers := ⟨[], 0, 0⟩

/-- `queue.sync {}`: the blocks that are left, with an answer for each.  A block
without an answer fails. -/
def drain : List Bytes → List BlockAnswers → BoundedWAVWriter → Bytes → BoundedWAVWriter × Bytes
  | [], _, w, file => (w, file)
  | _ :: rest, answers, w, file =>
    let (w, file) := w.runBlock file (answers.headD .failing)
    drain rest answers.tail w file

/-- The answers to `finish`: the blocks left, the `fsync`, and of the read-back the
`openat`, the `fstat` and the `pread`. -/
structure CloseAnswers where
  blocks : List BlockAnswers
  sync : Bool
  reopen : Bool
  stat : Bool
  read : Bool

def readbackFault (leg : MeetingCaptureLeg) (detail : String) : MeetingCaptureFault :=
  ⟨"wav_readback_failed", some leg, detail⟩

/-- `verifyReadable`. -/
def verifyReadable (w : BoundedWAVWriter) (answers : CloseAnswers) (file : Bytes) :
    Except MeetingCaptureFault Unit :=
  if ¬ answers.reopen then .error (readbackFault w.leg "final WAV cannot be reopened")
  else if ¬ answers.stat ∨ file.length ≠ 44 + w.frames * 2 then
    .error (readbackFault w.leg "final WAV byte count disagrees with written samples")
  else if ¬ answers.read ∨ (file.take 44).length ≠ 44 then
    .error (readbackFault w.leg "final WAV header is unreadable")
  else if file.take 4 = riff ∧ (file.drop 8).take 4 = wave ∧
      (file.drop 20).take 2 = [1, 0] ∧ (file.drop 22).take 2 = [1, 0] ∧
      readUInt32 file 24 = 16000 ∧ (file.drop 34).take 2 = [16, 0] ∧
      readUInt32 file 40 = w.frames * 2 then .ok ()
  else .error (readbackFault w.leg "final WAV is not mono 16 kHz signed 16-bit PCM")

/-- `finish` of a writer. -/
def finish (w : BoundedWAVWriter) (answers : CloseAnswers) (file : Bytes) :
    Except MeetingCaptureFault Unit × BoundedWAVWriter × Bytes :=
  let (w, file) := drain w.queue answers.blocks { w with closing := true } file
  let w := if ¬ answers.sync ∧ w.storedFault = none then
      w.record ⟨"wav_sync_failed", some w.leg, "WAV could not be synchronized"⟩
    else w
  match w.storedFault with
  | some fault => (.error fault, w, file)
  | none => (w.verifyReadable answers file, w, file)

end BoundedWAVWriter

/-! ## What a healthy writer has written -/

/-- The file of these blocks. -/
def wavFile (blocks : List Bytes) : Bytes := header blocks.flatten.length ++ blocks.flatten

/-- The blocks a writer took are whole frames that fit the header. -/
structure Writable (blocks : List Bytes) : Prop where
  whole : ∀ block ∈ blocks, block.length % 2 = 0
  fits : 36 + blocks.flatten.length < 2 ^ 32

/-- While no fault is stored, the accepted blocks are those in the file and those in
the queue, in this order. -/
structure Sound (accepted : List Bytes) (w : BoundedWAVWriter) (file : Bytes) : Prop where
  written : ∃ blocks, accepted = blocks ++ w.queue ∧ Writable blocks ∧
    file = wavFile blocks ∧ w.frames * 2 = blocks.flatten.length
  queued : ∀ block ∈ w.queue, block.length % 2 = 0

/-- The invariant of a writer and its file. -/
def Healthy (accepted : List Bytes) (w : BoundedWAVWriter) (file : Bytes) : Prop :=
  w.storedFault = none → Sound accepted w file

theorem writeAll_eq_true (answers : List WriteAnswer) :
    ∀ {file data after : Bytes}, writeAll answers file data = (after, true) → after = file ++ data := by
  induction answers with
  | nil =>
    intro file data after h
    cases data with
    | nil => simp [writeAll] at h; simp [h]
    | cons => simp [writeAll] at h
  | cons answer answers ih =>
    intro file data after h
    cases data with
    | nil => simp [writeAll] at h; simp [h]
    | cons =>
      cases answer with
      | wrote =>
        rw [writeAll] at h
        split at h
        · cases h
        · have h := ih h
          rw [h, List.append_assoc, List.take_append_drop]
      | interrupted => exact ih (by rwa [writeAll] at h)
      | failed => simp [writeAll] at h

/-- A whole `pwrite` replaces bytes by as many. -/
theorem pwrite_replace {before old after new : Bytes} {count offset : Nat}
    (hcount : new.length ≤ count) (hoffset : before.length = offset)
    (hlength : old.length = new.length) :
    pwrite count (before ++ old ++ after) offset new = before ++ new ++ after := by
  unfold pwrite
  rw [List.take_of_length_le hcount, ← hoffset, ← hlength, List.append_assoc before old after,
    List.take_left, ← List.append_assoc before old after, ← List.length_append, List.drop_left]

/-- `patchHeader` without a fault leaves the header of the frames counted. -/
theorem patchHeader_eq_none {leg : MeetingCaptureLeg} {answers : BoundedWAVWriter.BlockAnswers}
    {frames n : Nat} {data after : Bytes}
    (h : BoundedWAVWriter.patchHeader leg answers frames (header n ++ data) = (after, none)) :
    after = header (frames * 2) ++ data ∧ 36 + frames * 2 < 2 ^ 32 := by
  unfold BoundedWAVWriter.patchHeader at h
  dsimp only at h
  split at h
  · cases h
  · rename_i hsize
    split at h
    · cases h
    · rename_i hriff
      split at h
      · cases h
      · rename_i hdata
        cases h
        refine ⟨?_, by omega⟩
        have hfirst : pwrite answers.riffSize (header n ++ data) 4 (littleEndian (36 + frames * 2)) =
            riff ++ littleEndian (36 + frames * 2) ++ (format ++ littleEndian n ++ data) := by
          have hsplit : header n ++ data =
              riff ++ littleEndian (36 + n) ++ (format ++ littleEndian n ++ data) := by
            simp only [header, List.append_assoc]
          rw [hsplit]
          exact pwrite_replace (Nat.not_lt.mp hriff) rfl rfl
        have hsplit : riff ++ littleEndian (36 + frames * 2) ++ (format ++ littleEndian n ++ data) =
            (riff ++ littleEndian (36 + frames * 2) ++ format) ++ littleEndian n ++ data := by
          simp only [List.append_assoc]
        rw [hfirst, hsplit]
        exact pwrite_replace (Nat.not_lt.mp hdata) rfl rfl

namespace Healthy

variable {accepted : List Bytes} {w : BoundedWAVWriter} {file : Bytes}

theorem new (leg : MeetingCaptureLeg) (maxPendingBytes : Nat) :
    Healthy [] (BoundedWAVWriter.new leg maxPendingBytes) (header 0) := by
  intro _
  refine ⟨⟨[], rfl, ⟨nofun, by decide⟩, rfl, rfl⟩, nofun⟩

/-- An accepted block is one more in the queue. -/
theorem append (h : Healthy accepted w file) (data : Bytes) :
    Healthy (if (w.append data).1 then accepted ++ [data] else accepted) (w.append data).2 file := by
  unfold BoundedWAVWriter.append
  split
  · exact h
  · rename_i hdata
    split
    · exact h
    · split
      · intro hnone
        cases hnone
      · intro hnone
        obtain ⟨⟨blocks, haccepted, hwritable, hfile, hframes⟩, hqueued⟩ := h hnone
        rw [not_or, not_not] at hdata
        refine ⟨⟨blocks, ?_, hwritable, hfile, hframes⟩, fun block hblock => ?_⟩
        · rw [if_pos rfl, haccepted, List.append_assoc]
        · rcases List.mem_append.mp hblock with hblock | hblock
          · exact hqueued block hblock
          · rw [List.mem_singleton.mp hblock]
            exact hdata.2

/-- A block that the queue writes moves from the queue to the file. -/
theorem writeBlock {data : Bytes} {rest : List Bytes} (h : Healthy accepted w file)
    (hqueue : w.queue = data :: rest) (answers : BoundedWAVWriter.BlockAnswers) :
    Healthy accepted ({ w with queue := rest }.writeBlock file answers data).1
      ({ w with queue := rest }.writeBlock file answers data).2 := by
  unfold BoundedWAVWriter.writeBlock
  split
  · intro hnone
    simp [BoundedWAVWriter.record] at hnone
  · rename_i file' hwritten
    have hfile' := writeAll_eq_true _ hwritten
    dsimp only
    split
    · rename_i after hpatched
      intro hnone
      obtain ⟨⟨blocks, haccepted, hwritable, hfile, hframes⟩, hqueued⟩ := h hnone
      have heven : data.length % 2 = 0 := hqueued data (by rw [hqueue]; exact List.mem_cons_self)
      have hlength : (blocks ++ [data]).flatten.length = blocks.flatten.length + data.length := by
        simp
      have hsize : (w.frames + data.length / 2) * 2 = (blocks ++ [data]).flatten.length := by
        rw [hlength]
        omega
      rw [hfile', hfile, wavFile, List.append_assoc] at hpatched
      obtain ⟨hafter, hfits⟩ := patchHeader_eq_none hpatched
      rw [hsize] at hafter hfits
      refine ⟨⟨blocks ++ [data], ?_, ⟨?_, hfits⟩, ?_, hsize⟩, ?_⟩
      · rw [haccepted, hqueue, List.append_assoc]
        rfl
      · intro block hblock
        rcases List.mem_append.mp hblock with hblock | hblock
        · exact hwritable.whole block hblock
        · rw [List.mem_singleton.mp hblock]
          exact heven
      · rw [hafter, wavFile]
        simp
      · exact fun block hblock => hqueued block (by rw [hqueue]; exact List.mem_cons_of_mem _ hblock)
    · intro hnone
      simp [BoundedWAVWriter.record] at hnone

theorem runBlock (h : Healthy accepted w file) (answers : BoundedWAVWriter.BlockAnswers) :
    Healthy accepted (w.runBlock file answers).1 (w.runBlock file answers).2 := by
  unfold BoundedWAVWriter.runBlock
  split
  · exact h
  · rename_i data rest hqueue
    exact h.writeBlock hqueue answers

end Healthy

namespace BoundedWAVWriter

variable {w : BoundedWAVWriter} {file : Bytes} {accepted : List Bytes}

theorem queue_runBlock (w : BoundedWAVWriter) (file : Bytes) (answers : BlockAnswers) :
    (w.runBlock file answers).1.queue = w.queue.tail := by
  unfold runBlock
  split
  · rename_i hqueue
    rw [hqueue]
    rfl
  · rename_i data rest hqueue
    rw [hqueue]
    unfold writeBlock
    split
    · rfl
    · dsimp only
      split <;> rfl

/-- The queue is empty when `finish` goes on. -/
theorem drain_healthy (blocks : List Bytes) :
    ∀ (answers : List BlockAnswers) {w : BoundedWAVWriter} {file : Bytes}, w.queue = blocks →
      Healthy accepted w file →
      (drain blocks answers w file).1.queue = [] ∧
        Healthy accepted (drain blocks answers w file).1 (drain blocks answers w file).2 := by
  induction blocks with
  | nil =>
    intro answers w file hqueue h
    exact ⟨hqueue, h⟩
  | cons data rest ih =>
    intro answers w file hqueue h
    rw [drain]
    have hrest : (w.runBlock file (answers.headD .failing)).1.queue = rest := by
      rw [queue_runBlock, hqueue]
      rfl
    exact ih answers.tail hrest (h.runBlock _)

theorem healthy_closing (h : Healthy accepted w file) :
    Healthy accepted { w with closing := true } file :=
  fun hnone => ⟨(h hnone).written, (h hnone).queued⟩

/-- `finish` that returns leaves a file of the accepted blocks. -/
theorem finish_eq_ok {after : BoundedWAVWriter} {file' : Bytes} {answers : CloseAnswers}
    (h : Healthy accepted w file) (hfinish : w.finish answers file = (.ok (), after, file')) :
    Writable accepted ∧ file' = wavFile accepted ∧ after.frames * 2 = accepted.flatten.length := by
  obtain ⟨hqueue, hhealthy⟩ := drain_healthy w.queue answers.blocks
    (w := { w with closing := true }) rfl (healthy_closing h)
  unfold finish at hfinish
  dsimp only at hfinish
  split at hfinish
  · cases hfinish
  · rename_i hnone
    simp only [Prod.mk.injEq] at hfinish
    obtain ⟨-, hafter, hfile⟩ := hfinish
    split at hnone
    · simp [record] at hnone
    · rename_i hsync
      rw [if_neg hsync] at hafter
      obtain ⟨⟨blocks, haccepted, hwritable, hwritten, hframes⟩, -⟩ := hhealthy hnone
      rw [hqueue, List.append_nil] at haccepted
      subst haccepted
      rw [← hafter, ← hfile]
      exact ⟨hwritable, hwritten, hframes⟩

end BoundedWAVWriter

end YawnApp.Capture
