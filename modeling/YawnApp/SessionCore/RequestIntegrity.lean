import YawnApp.SessionCore.SupervisionRuns

set_option autoImplicit false

/-!
# What a supervised request gives its caller

Whatever the worker writes, however it is cut into reads and however the threads
are scheduled, a call is given the frames of its own request in the order of the
stream and returns the result among them, and after a call that failed nothing
more comes.  The frames are the pieces of the stream that end in a newline and
its last piece when it ends without one, up to the first that is over the limit.
-/

namespace YawnApp.SessionCore

open YawnApp.Foundation SupervisionEvent List

/-! ## Frames of the reads -/

/-- The frame that a read gave. -/
def frameOf : Except ReadError (List UInt8) → Option (List UInt8)
  | .ok frame => if frame = [] then none else some frame
  | .error _ => none

theorem framesIn_eq (log : SupervisionLog) : framesIn log = (readsIn log).filterMap frameOf := by
  unfold framesIn readsIn
  rw [filterMap_filterMap]
  congr 1
  funext e
  cases e with
  | read outcome =>
    cases outcome with
    | ok | error => rfl
  | _ => rfl

theorem ne_nil_of_mem_framesOf {ends : StreamEnd} {bytes frame : List UInt8}
    (h : frame ∈ framesOf ends bytes) : frame ≠ [] := by
  unfold framesOf at h
  cases ends with
  | eof => exact ne_nil_of_mem_pieces ((takeWhile_sublist _).mem h)
  | failed => exact ne_nil_of_mem_pieces ((takeWhile_sublist _).mem (mem_of_mem_filter h))

theorem frameOf_lastRead (ends : StreamEnd) (bytes : List UInt8) : frameOf (lastRead ends bytes) = none := by
  unfold lastRead
  split
  · cases ends with
    | eof | failed => rfl
  · rfl

theorem filterMap_frameOf_readsOf (ends : StreamEnd) (bytes : List UInt8) :
    (readsOf ends bytes).filterMap frameOf = framesOf ends bytes := by
  have hframes : ∀ frames : List (List UInt8), (∀ frame ∈ frames, frame ≠ []) →
      (frames.map Except.ok).filterMap frameOf = frames := by
    intro frames hne
    induction frames with
    | nil => rfl
    | cons frame rest ih =>
      rw [forall_mem_cons] at hne
      have hframe : frameOf (.ok frame) = some frame := if_neg hne.1
      rw [map_cons, filterMap_cons_some hframe, ih hne.2]
  unfold readsOf
  rw [filterMap_append, hframes _ fun frame h => ne_nil_of_mem_framesOf h,
    filterMap_cons_none (frameOf_lastRead ends bytes)]
  exact append_nil _

/-- Of a reader that has given no frame all the frames were parsed. -/
theorem framesIn_of_last {log : SupervisionLog} {ends : StreamEnd} {bytes : List UInt8}
    (h : readsIn log <+: readsOf ends bytes) {last : Except ReadError (List UInt8)}
    (hmem : last ∈ readsIn log) (hlast : frameOf last = none) : framesIn log = framesOf ends bytes := by
  rw [framesIn_eq, ← filterMap_frameOf_readsOf]
  rcases prefix_concat_iff.mp h with heq | hbefore
  · rw [heq]
    rfl
  · obtain ⟨frame, hframe, rfl⟩ := mem_map.mp (hbefore.mem hmem)
    have hsome : frameOf (.ok frame) = some frame := if_neg (ne_nil_of_mem_framesOf hframe)
    rw [hsome] at hlast
    cases hlast

/-! ## Integrity -/

/-- What holds of a worker whose stream has the `frames`. -/
structure RequestIntegrity (text : WorkerText) (frames : List (List UInt8)) (reader : FrameReader)
    (worker : OwnedChild) : Prop where
  /-- What the reads give is a fact of the bytes alone. -/
  reads : readsIn worker.log <+: readsOf reader.ends reader.bytes
  /-- The frames of the stream are parsed in order. -/
  parsed : framesIn worker.log <+: frames
  /-- All of them are when a read gives no frame: at the end of the stream, where
  it fails, and at the first piece over the limit. -/
  complete : ∀ last ∈ readsIn worker.log, frameOf last = none → framesIn worker.log = frames
  /-- A piece over the limit is a fault. -/
  longer : .error .frameTooLarge ∈ readsIn worker.log →
    worker.dispatcher.pc = .faulting (.protocol .frameTooLarge) ∨ worker.fault.isSome
  /-- Of the frames that were parsed each is accepted once at most, and in order. -/
  accepted : ∀ earlier output dispatched later,
    worker.log = earlier ++ .accepted output dispatched :: later →
      output.Yields dispatched ∧ FromLastFrame text earlier output
  /-- A callback is given the next frame that was accepted for its call. -/
  observed : ∀ earlier id dispatched later,
    worker.log = earlier ++ .observed id dispatched :: later →
      (∀ final, dispatched ≠ .result final) ∧ ∃ since, Under earlier id since ∧ Own id since ∧
        observedIn since ++ [dispatched] <+: (acceptedIn since).map Prod.snd
  /-- A result is that of its call, and all that was accepted before it was given
  to the callbacks. -/
  answered : ∀ earlier id final later,
    worker.log = earlier ++ .returned id (.ok final) :: later →
      final.requestId = id ∧ ∃ since, Under earlier id since ∧ Own id since ∧
        (acceptedIn since).map Prod.snd = observedIn since ++ [.result final]
  /-- No frame of an earlier request is accepted in a later call. -/
  apart : (registeredIn worker.log).Nodup → ∀ earlier id later,
    worker.log = earlier ++ .registered id :: later →
      ∀ a ∈ acceptedIn later, a.1.requestId ∉ registeredIn earlier
  /-- After a call failed whose request was registered, no callback runs and no
  call returns a result. -/
  ended : ∀ earlier id since error later,
    worker.log = earlier ++ .returned id (.error error) :: later → Under earlier id since →
      (∀ other dispatched, .observed other dispatched ∉ later) ∧
        ∀ other final, .returned other (.ok final) ∉ later

/-- The call under way was registered after any that was registered before. -/
theorem Under.mem_after {earlier later since : SupervisionLog} {id other : Uuid}
    (h : Under (earlier ++ .registered id :: later) other since) :
    other = id ∨ other ∈ registeredIn later := by
  obtain ⟨front, hsplit, -, hsince⟩ := lastSection_split h
  rcases append_eq_append_iff.mp hsplit with ⟨rest, rfl, hrest⟩ | ⟨rest, rfl, hrest⟩
  · rcases append_eq_cons_iff.mp hrest.symm with ⟨rfl, heq⟩ | ⟨rest', rfl, heq⟩
    · cases heq
      exact .inl rfl
    · refine .inr ?_
      rw [heq]
      exact mem_filterMap.mpr ⟨.registered other, by simp, rfl⟩
  · rcases append_eq_cons_iff.mp hrest.symm with ⟨rfl, heq⟩ | ⟨rest', rfl, heq⟩
    · cases heq
      exact .inl rfl
    · exact absurd trivial (hsince (.registered id) (by rw [heq]; simp))

section Integrity

variable {text : WorkerText} {reader : FrameReader} {worker : OwnedChild}

/-- An accepted frame is one of a request that was registered with the call or
after. -/
theorem requestId_not_mem_earlier (hentries : Entries (SafeEvent text) worker.log)
    (hids : (registeredIn worker.log).Nodup) {earlier later : SupervisionLog} {id : Uuid}
    (hsplit : worker.log = earlier ++ .registered id :: later) {a : WorkerOutput × Dispatched}
    (ha : a ∈ acceptedIn later) : a.1.requestId ∉ registeredIn earlier := by
  obtain ⟨e, hmem, he⟩ := mem_filterMap.mp ha
  obtain ⟨before, after, rfl⟩ := append_of_mem hmem
  have hpromise := hentries (earlier ++ .registered id :: before) e after (by rw [hsplit]; simp)
  cases e with
  | accepted output dispatched =>
    cases he
    obtain ⟨-, -, since, hunder⟩ := hpromise
    have hafter : output.requestId ∈ registeredIn (.registered id :: before ++
        .accepted output dispatched :: after) := by
      apply mem_filterMap.mpr
      rcases hunder.mem_after with heq | hlater
      · exact ⟨.registered id, by simp, congrArg some heq.symm⟩
      · obtain ⟨found, hfound, hid⟩ := mem_filterMap.mp hlater
        exact ⟨found, by simp [hfound], hid⟩
    rw [hsplit] at hids
    unfold registeredIn at hids hafter ⊢
    rw [filterMap_append, nodup_append] at hids
    exact fun hearlier => hids.2.2 _ hearlier _ hafter rfl
  | _ => cases he

/-- After a failure an entry that promises that there was none cannot stand. -/
theorem not_mem_of_failed (hentries : Entries (SafeEvent text) worker.log)
    {earlier later since : SupervisionLog} {id : Uuid} {error : SupervisionError}
    (hsplit : worker.log = earlier ++ .returned id (.error error) :: later)
    (hunder : Under earlier id since) {e : SupervisionEvent}
    (he : ∀ log, SafeEvent text log e → ¬ Failed log) : e ∉ later := by
  intro hmem
  obtain ⟨before, after, rfl⟩ := append_of_mem hmem
  have hpromise := hentries (earlier ++ .returned id (.error error) :: before) e after
    (by rw [hsplit]; simp)
  exact he _ hpromise ⟨earlier, id, since, error, before, rfl, hunder⟩

/-- Whatever the worker writes and however the threads are scheduled, its calls
are given the frames of their requests and no others. -/
theorem requests_integral (text : WorkerText) (reader : FrameReader) (clock : Nat)
    (moves : List OwnedChild.Move) :
    RequestIntegrity text (framesOf reader.ends reader.bytes) reader
      ((OwnedChild.start reader clock).run text moves) := by
  obtain ⟨hsound, hreading⟩ := (OwnedChild.kept_start text reader clock).run moves
  generalize (OwnedChild.start reader clock).run text moves = worker at hsound hreading
  have hentries := hsound.entries
  refine ⟨hreading.reads, ?_, fun last hmem hlast => framesIn_of_last hreading.reads hmem hlast,
    hreading.large, fun earlier output dispatched later hsplit => ?_,
    fun earlier id dispatched later hsplit => ?_, fun earlier id final later hsplit => ?_,
    fun hids earlier id later hsplit a ha => requestId_not_mem_earlier hentries hids hsplit ha,
    fun earlier id since error later hsplit hunder => ⟨fun _ _ => ?_, fun _ _ => ?_⟩⟩
  · rw [framesIn_eq, ← filterMap_frameOf_readsOf]
    exact hreading.reads.filterMap frameOf
  · obtain ⟨hyields, hfrom, -⟩ := hentries earlier _ later hsplit
    exact ⟨hyields, hfrom⟩
  · exact (hentries earlier _ later hsplit).2
  · exact (hentries earlier _ later hsplit).2
  · exact not_mem_of_failed hentries hsplit hunder fun _ h => h.1
  · exact not_mem_of_failed hentries hsplit hunder fun _ h => h.1

end Integrity

section Sample

def inspectionId : Uuid := ⟨"7e2d9c40-3b5a-4f16-8d21-a0c4e6f81b57", by decide⟩

/-- A text layer with one command, and one frame for its result. -/
def inspectionText : WorkerText where
  read frame := if frame = [49, newline] then some (.result ⟨inspectionId, true, none, none, []⟩) else none
  write _ := some [99]

/-- The result, cut in two. -/
def inspectionStream : FrameReader :=
  ⟨[⟨[49], List.cons_ne_nil _ _⟩, ⟨[newline], List.cons_ne_nil _ _⟩], .eof⟩

def inspectionAnswers : OwnedChild.Answers := ⟨.accepted 2, .writable, .ok (), false⟩

/-- A call writes its command, and its result is read, queued and taken. -/
def inspectionMoves : List OwnedChild.Move :=
  .request ⟨⟨inspectionId, .captureInspect, .object []⟩, 5⟩ ::
    List.replicate 12 (.caller inspectionAnswers) ++ List.replicate 4 .dispatcher ++
      List.replicate 3 (.caller inspectionAnswers)

/-- Whether an entry is the result of the call. -/
def inspected : SupervisionEvent → Bool
  | .returned id (.ok final) => id = inspectionId ∧ final.requestId = inspectionId
  | _ => false

example : ((OwnedChild.start inspectionStream 0).run inspectionText inspectionMoves).log.any inspected := by
  decide +kernel

end Sample

/-! ## A stream that ends without a newline -/

/-- The pieces that end in a newline, up to the first over the limit. -/
def lineFrames (bytes : List UInt8) : List (List UInt8) :=
  ((pieces newline bytes).filter fun piece => Ended newline piece).takeWhile
    fun piece => piece.length ≤ maxFrameBytes

/-- A brace, and the end of the stream. -/
def unendedStream : FrameReader := ⟨[⟨[123], List.cons_ne_nil _ _⟩], .eof⟩

/-- A text layer that reads nothing, as a lone brace is not a document. -/
def noText : WorkerText := ⟨fun _ => none, fun _ => none⟩

/-- The last piece is parsed although no newline ends it. -/
theorem unended_frame_parsed :
    ¬ ∀ (text : WorkerText) (reader : FrameReader) (clock : Nat) (moves : List OwnedChild.Move),
      RequestIntegrity text (lineFrames reader.bytes) reader
        ((OwnedChild.start reader clock).run text moves) := by
  intro h
  have hparsed := (h noText unendedStream 0 [.dispatcher]).parsed
  have hframes : framesIn ((OwnedChild.start unendedStream 0).run noText [.dispatcher]).log = [[123]] := by
    decide
  have hlines : lineFrames unendedStream.bytes = [] := by decide
  rw [hframes, hlines] at hparsed
  exact absurd hparsed (by decide)

end YawnApp.SessionCore
