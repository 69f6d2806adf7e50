import YawnApp.Worker.SpeechRuns

set_option autoImplicit false

/-!
# The progress of a transcription at the desktop

The tracker of the request admits every event that reaches it before the result.  An
event behind the result comes of a reader that outlived a failed leg, and is ignored.
-/

namespace YawnApp.Worker

open YawnApp.SessionCore List

section Hearing

variable {request : Request} {tracker : RequestTracker} {operation : Operation}

/-- A tracker that waits for the transcription, with the last measurement it admitted. -/
structure Awaits (request : Request) (operation : Operation) (last : Option (Nat × Nat))
    (tracker : RequestTracker) : Prop where
  transcribes : operation ∈ [Operation.transcriptCreate, .transcriptRetry]
  pending : tracker.pending = some ⟨request.requestId, operation, some request.meetingId, false,
    last.map fun pair => (UInt32.ofNat pair.1, UInt32.ofNat pair.2)⟩
  open_ : tracker.lastTerminal ≠ some request.requestId

/-- A transcription that registers is waited for. -/
theorem awaits_of_register {registered : RequestTracker} {command : WorkerCommand}
    (hoperation : command.operation ∈ [Operation.transcriptCreate, .transcriptRetry])
    (hid : command.requestId = request.requestId)
    (hmeeting : command.meetingId = .ok (some request.meetingId))
    (hregister : tracker.register command = (.ok (), registered)) :
    Awaits request command.operation none registered := by
  unfold RequestTracker.register at hregister
  split at hregister
  · cases hregister
  · split at hregister
    · cases hregister
    · rename_i hlast
      rw [hmeeting] at hregister
      obtain rfl := (Prod.mk.inj hregister).2
      refine ⟨hoperation, ?_, ?_⟩
      · rw [hid]
        rfl
      · rw [← hid]
        exact hlast

theorem measuredAmount_natural {n : Nat} (h : n < UInt32.size) :
    measuredAmount (.natural n) = some (UInt32.ofNat n) :=
  if_pos h

/-- A measurement above the last one, with the same total, is admitted. -/
theorem Awaits.admits {last : Option (Nat × Nat)} (h : Awaits request operation last tracker)
    {done total : Nat} (htotal : 0 < total ∧ total < UInt32.size) (hdone : done ≤ total)
    (hlast : ∀ pair, last = some pair → pair.2 = total ∧ pair.1 < done) :
    (tracker.transcriptionProgress
        ⟨request.requestId, request.meetingId, .natural done, .natural total⟩).1 =
      some ⟨request.meetingId, UInt32.ofNat done, UInt32.ofNat total⟩ ∧
    Awaits request operation (some (done, total)) (tracker.transcriptionProgress
        ⟨request.requestId, request.meetingId, .natural done, .natural total⟩).2 := by
  have hdone_lt : done < UInt32.size := by omega
  have htotal_nat : (UInt32.ofNat total).toNat = total := UInt32.toNat_ofNat_of_lt' htotal.2
  have hdone_nat : (UInt32.ofNat done).toNat = done := UInt32.toNat_ofNat_of_lt' hdone_lt
  have hbounds : ¬ (UInt32.ofNat total = 0 ∨ UInt32.ofNat total < UInt32.ofNat done) := by
    rw [UInt32.lt_iff_toNat_lt, htotal_nat, hdone_nat]
    rintro (hzero | hlt)
    · rw [hzero] at htotal_nat
      change 0 = total at htotal_nat
      omega
    · omega
  have hrises : ¬ (last.map fun pair => (UInt32.ofNat pair.1, UInt32.ofNat pair.2)).any
      (fun last => UInt32.ofNat total ≠ last.2 ∨ UInt32.ofNat done < last.1) = true := by
    intro hany
    obtain ⟨old, hold, hbad⟩ := (Option.any_eq_true _ _).mp hany
    obtain ⟨pair, hpair, rfl⟩ := Option.map_eq_some_iff.mp hold
    obtain ⟨rfl, hlt⟩ := hlast pair hpair
    have hpair_nat : (UInt32.ofNat pair.1).toNat = pair.1 :=
      UInt32.toNat_ofNat_of_lt' (by omega)
    rcases of_decide_eq_true hbad with hne | hless
    · exact hne rfl
    · rw [UInt32.lt_iff_toNat_lt, hdone_nat, hpair_nat] at hless
      omega
  have hanswer : tracker.transcriptionProgress
      ⟨request.requestId, request.meetingId, .natural done, .natural total⟩ =
        (some ⟨request.meetingId, UInt32.ofNat done, UInt32.ofNat total⟩,
          { tracker with pending := some ⟨request.requestId, operation, some request.meetingId, false,
            some (UInt32.ofNat done, UInt32.ofNat total)⟩ }) := by
    have hmatches : ¬ (request.requestId ≠ request.requestId ∨
        some request.meetingId ≠ some request.meetingId ∨
          operation ∉ [Operation.transcriptCreate, .transcriptRetry]) := by
      simp only [ne_eq, not_true_eq_false, false_or, not_not]
      exact h.transcribes
    unfold RequestTracker.transcriptionProgress
    rw [h.pending]
    dsimp only
    rw [if_neg hmatches, measuredAmount_natural hdone_lt, measuredAmount_natural htotal.2]
    dsimp only
    rw [if_neg hbounds, if_neg hrises]
  rw [hanswer]
  exact ⟨rfl, h.transcribes, rfl, h.open_⟩

/-- Before a result the tracker keeps up with what is measured. -/
theorem Awaits.hear {total : Nat} (h : Awaits request operation none tracker)
    (htotal : 0 < total ∧ total < UInt32.size) (frames : List Frame)
    (hresult : ∀ digests, Frame.result digests ∉ frames)
    (hpairs : ∀ pair ∈ frames.filterMap Frame.pair, pair.2 = total ∧ pair.1 ≤ total)
    (hrising : (frames.filterMap Frame.pair).Pairwise fun a b => a.1 < b.1) :
    Awaits request operation (frames.filterMap Frame.pair).getLast? (hear request tracker frames) := by
  induction frames using List.reverseRecOn with
  | nil => exact h
  | append_singleton frames frame ih =>
    rw [filterMap_append] at hpairs hrising ⊢
    have hbefore := ih (fun digests hmem => hresult digests (mem_append_left _ hmem))
      (fun pair hpair => hpairs pair (mem_append_left _ hpair))
      (pairwise_append.mp hrising).1
    unfold Worker.hear at hbefore ⊢
    rw [foldl_append]
    generalize frames.foldl _ tracker = now at hbefore ⊢
    cases frame with
    | measurement done wholes =>
      obtain ⟨rfl, hdone⟩ := hpairs (done, wholes) (mem_append_right _ (mem_singleton.mpr rfl))
      change Awaits request operation ((frames.filterMap Frame.pair) ++ [(done, wholes)]).getLast? _
      rw [List.getLast?_concat]
      refine (hbefore.admits htotal hdone fun pair hpair => ?_).2
      have hmem := mem_of_getLast? hpair
      exact ⟨(hpairs pair (mem_append_left _ hmem)).1, (pairwise_append.mp hrising).2.2 pair
        hmem (done, wholes) (mem_singleton.mpr rfl)⟩
    | heartbeat =>
      -- a heartbeat is accepted and changes nothing, and so would a refusal
      change Awaits request operation ((frames.filterMap Frame.pair) ++ []).getLast? _
      rw [append_nil]
      have hsame : (now.handle (Frame.heartbeat.call request)).2 = now := by
        change (now.progress _).2 = now
        unfold RequestTracker.progress
        rw [if_neg hbefore.open_, hbefore.pending]
        have htranscribes := hbefore.transcribes
        simp only [mem_cons, not_mem_nil, or_false] at htranscribes
        rcases htranscribes with rfl | rfl <;> simp
      change Awaits request operation _ (now.handle (Frame.heartbeat.call request)).2
      rw [hsame]
      exact hbefore
    | result digests =>
      exact absurd (mem_append_right _ (mem_singleton.mpr rfl)) (hresult digests)

/-- The result of a transcription ends the request. -/
theorem Awaits.finish {last : Option (Nat × Nat)} (h : Awaits request operation last tracker)
    (digests : Option (List (String × String))) :
    (tracker.handle ((Frame.result digests).call request)).2.pending = none := by
  have hoperation : operation ≠ .captureStart := by
    intro hcapture
    have htranscribes := h.transcribes
    rw [hcapture] at htranscribes
    simp at htranscribes
  cases digests with
  | none =>
    change (tracker.terminal _).2.pending = none
    unfold RequestTracker.terminal
    rw [if_neg h.open_, h.pending]
    simp [RequestTracker.WellShaped]
  | some =>
    change (tracker.terminal _).2.pending = none
    unfold RequestTracker.terminal
    rw [if_neg h.open_, h.pending]
    simp [RequestTracker.WellShaped, hoperation]

/-- Behind the result the tracker hears nothing. -/
theorem hear_measured (h : tracker.pending = none) (pairs : List (Nat × Nat)) :
    hear request tracker (Speech.measured pairs) = tracker := by
  induction pairs with
  | nil => rfl
  | cons pair pairs ih =>
    have hsame : (tracker.handle ((Frame.measurement pair.1 pair.2).call request)).2 = tracker := by
      change (tracker.transcriptionProgress _).2 = tracker
      unfold RequestTracker.transcriptionProgress
      rw [h]
    change hear request (tracker.handle ((Frame.measurement pair.1 pair.2).call request)).2
      (Speech.measured pairs) = tracker
    rw [hsame]
    exact ih

/-- The tracker's answer to a measurement that comes behind other frames. -/
def answer (request : Request) (tracker : RequestTracker) (before : List Frame) (done total : Nat) :
    Option TranscriptionProgress :=
  ((hear request tracker before).transcriptionProgress
    ⟨request.requestId, request.meetingId, .natural done, .natural total⟩).1

end Hearing

namespace Speech

/-- A list that goes on behind a result has it in front of what it goes on with. -/
theorem behind_result {before first : List Frame} {digests other : Option (List (String × String))}
    {after : List (Nat × Nat)} {frame : Frame} {rest : List Frame}
    (hwire : before ++ .result digests :: measured after = first ++ frame :: rest)
    (hbefore : ∀ digests, Frame.result digests ∉ before) (hfirst : Frame.result other ∈ first) :
    ∃ pairs, first = before ++ .result digests :: measured pairs ∧ after ≠ [] := by
  rcases append_eq_append_iff.mp hwire with ⟨more, hsplit, hmore⟩ | ⟨more, hsplit, hmore⟩
  · cases more with
    | nil =>
      rw [append_nil] at hsplit
      rw [hsplit] at hfirst
      exact absurd hfirst (hbefore other)
    | cons =>
      rw [cons_append] at hmore
      obtain ⟨rfl, htail⟩ := List.cons.inj hmore
      obtain ⟨pairs, behind, hpairs, hmeasured, hrest⟩ := map_eq_append_iff.mp htail
      refine ⟨pairs, ?_, ?_⟩
      · rw [hsplit, ← hmeasured]
        rfl
      · rintro rfl
        obtain ⟨rfl, rfl⟩ := append_eq_nil_iff.mp hpairs.symm
        cases hrest
  · -- the result would be in front of itself
    rw [hsplit] at hbefore
    exact absurd (mem_append_left more hfirst) (hbefore other)

/-- Every event of a transcription is honest, whatever the helpers write, the clock says
and the threads do.  The tracker of its request admits it if it comes before the result.
It comes behind the result only where a leg failed, and is ignored. -/
theorem events_honest (setup : Setup) (steps : List Step) {command : WorkerCommand}
    {request : Request} {tracker registered : RequestTracker}
    (hoperation : command.operation ∈ [Operation.transcriptCreate, .transcriptRetry])
    (hid : command.requestId = request.requestId)
    (hmeeting : command.meetingId = .ok (some request.meetingId))
    (hregister : tracker.register command = (.ok (), registered)) :
    (∀ pair ∈ (run setup (initial setup) steps).measurements,
      pair.2 = setup.total ∧ pair.1 ≤ setup.total ∧
      Sourced setup (run setup (initial setup) steps).main
        (run setup (initial setup) steps).consumed pair.1 ∧
      Bounded setup (run setup (initial setup) steps).main
        (run setup (initial setup) steps).consumed pair.1) ∧
    (run setup (initial setup) steps).measurements.Pairwise (fun a b => a.1 < b.1) ∧
    (∀ pair, (run setup (initial setup) steps).measurements.head? = some pair → pair.1 = 0) ∧
    (∀ p, (run setup (initial setup) steps).progress = some p → p.off = false →
      Complete (run setup (initial setup) steps).main →
        (run setup (initial setup) steps).measurements.getLast? = some (setup.total, setup.total)) ∧
    ∀ before done total after,
      (run setup (initial setup) steps).wire = before ++ .measurement done total :: after →
      ((∀ digests, Frame.result digests ∉ before) → answer request registered before done total =
        some ⟨request.meetingId, UInt32.ofNat done, UInt32.ofNat total⟩) ∧
      ∀ digests, Frame.result digests ∈ before →
        (∃ leg, (run setup (initial setup) steps).main = .answered (some leg)) ∧
        answer request registered before done total = none := by
  have hhonest := (honest_initial setup).run steps
  have hawaits := awaits_of_register hoperation hid hmeeting hregister
  generalize run setup (initial setup) steps = s at hhonest ⊢
  cases hp : s.progress with
  | none =>
    -- nobody listens, and nothing is measured
    have hsilent := hhonest.silent hp
    rw [hsilent]
    refine ⟨fun pair hpair => ?_, List.Pairwise.nil, fun pair hhead => ?_, fun p hsome => ?_, ?_⟩
    · cases hpair
    · cases hhead
    · cases hsome
    intro before done total after hwire
    unfold measurements at hsilent
    rw [hwire, List.filterMap_append] at hsilent
    cases (List.append_eq_nil_iff.mp hsilent).2
  | some p =>
    have hsends := hhonest.sends p hp
    have hpairs : ∀ pair ∈ s.measurements, pair.2 = setup.total ∧ pair.1 ≤ setup.total :=
      fun pair hpair => ⟨(hsends.pairs pair hpair).1, (hsends.pairs pair hpair).2.1⟩
    refine ⟨fun pair hpair => ?_, hsends.rising, hsends.first, fun q hq hoff hcomplete => ?_, ?_⟩
    · obtain ⟨htotal, hle, hsourced⟩ := hsends.pairs pair hpair
      exact ⟨htotal, hle, hsourced, hsourced.bounded fun leg hleg => (hhonest.unborn leg hleg).2⟩
    · obtain rfl := Option.some.inj hq
      rcases hhonest.complete p hp hcomplete with hon | hsent
      · rw [hoff] at hon
        cases hon
      · rw [hsends.last hoff, hsent]
        rfl
    · intro before done total after hwire
      have hmeasurements : s.measurements =
          before.filterMap Frame.pair ++ (done, total) :: after.filterMap Frame.pair := by
        unfold measurements
        rw [hwire, List.filterMap_append]
        rfl
      have hpositive : 0 < setup.total ∧ setup.total < UInt32.size := by
        have hle := setup.total_le
        refine ⟨Setup.total_pos ?_, ?_⟩
        · rw [← hhonest.listens, hp]
          rfl
        · exact Nat.lt_of_le_of_lt hle (by decide)
      have hmem : ∀ pair ∈ before.filterMap Frame.pair, pair ∈ s.measurements := by
        intro pair hpair
        rw [hmeasurements]
        exact List.mem_append_left _ hpair
      have hrising := hsends.rising
      rw [hmeasurements] at hrising
      obtain ⟨hfirst, -, hbelow⟩ := List.pairwise_append.mp hrising
      refine ⟨fun hresult => ?_, fun digests hdigests => ?_⟩
      · have hheard := hawaits.hear hpositive before hresult (fun pair hpair => hpairs pair (hmem pair hpair))
          hfirst
        obtain ⟨rfl, hdone⟩ := hpairs (done, total) (by rw [hmeasurements]; simp)
        refine (hheard.admits hpositive hdone fun pair hpair => ?_).1
        have hlast := List.mem_of_getLast? hpair
        exact ⟨(hpairs pair (hmem pair hlast)).1,
          hbelow pair hlast (done, setup.total) List.mem_cons_self⟩
      · have hanswered := hhonest.answered
        by_cases hover : ∃ failed, s.main = .answered failed
        · obtain ⟨failed, hmain⟩ := hover
          rw [hmain] at hanswered
          obtain ⟨front, ending, late, hsplit, hfront, hlate⟩ := hanswered
          obtain ⟨pairs, rfl, hne⟩ := behind_result (hsplit.symm.trans hwire) hfront hdigests
          rw [List.filterMap_append] at hmem hfirst
          have hheard := hawaits.hear hpositive front hfront
            (fun pair hpair => hpairs pair (hmem pair (List.mem_append_left _ hpair)))
            (List.pairwise_append.mp hfirst).1
          have hended := hheard.finish ending
          have hsame : hear request registered (front ++ .result ending :: measured pairs) =
              ((hear request registered front).handle ((Frame.result ending).call request)).2 := by
            unfold Worker.hear
            rw [List.foldl_append, List.foldl_cons]
            exact hear_measured hended pairs
          refine ⟨?_, ?_⟩
          · cases failed with
            | none => exact absurd (hlate rfl) hne
            | some leg => exact ⟨leg, hmain⟩
          · unfold answer
            rw [hsame]
            unfold RequestTracker.transcriptionProgress
            rw [hended]
        · have hnone := (answered_iff (fun failed hmain => hover ⟨failed, hmain⟩) s.wire).mp hanswered
          rw [hwire] at hnone
          exact absurd (List.mem_append_left _ hdigests) (hnone digests)

/-! Two legs of ten seconds, where the first helper writes one line. -/

def tenSeconds : Audio := ⟨160000, by decide, by decide⟩

def twoLegs : Setup where
  measured := some fun _ => tenSeconds
  audio _ := tenSeconds
  output
    | .mic => [53, newline]
    | .system => []

def asked : Request where
  requestId := ⟨"0d6b8b8e-3a58-4f6c-8a7f-9c1d2e3f4a5b", by decide +kernel⟩
  meetingId := ⟨"6f1f4c1e-8d5d-4f43-9d54-3b1f2a9c7e10", by decide +kernel⟩

def askedCommand : WorkerCommand where
  requestId := asked.requestId
  operation := .transcriptCreate
  arguments := .object [("meeting_id", .string asked.meetingId.text)]

/-- The tracker that has registered the request. -/
def waiting : RequestTracker := (RequestTracker.empty.register askedCommand).2

def heard : List Step :=
  [.advance 0 .returned, .read .mic false, .report .mic 5 .returned, .endLeg true,
    .advance 6 .returned, .endLeg true, .advance 7 .returned, .finishRequest (some [])]

theorem events_honest_heard :
    (run twoLegs (initial twoLegs) heard).measurements = [(0, 20), (5, 20), (10, 20), (20, 20)] ∧
      answer asked waiting [.measurement 0 20] 5 20 = some ⟨asked.meetingId, 5, 20⟩ := by
  have hregister : (RequestTracker.empty.register askedCommand).1 = .ok () ∧
      askedCommand.meetingId = .ok (some asked.meetingId) ∧
      (run twoLegs (initial twoLegs) heard).wire = [.measurement 0 20, .measurement 5 20,
        .measurement 10 20, .measurement 20 20, .result (some [])] := by
    decide +kernel
  obtain ⟨haccepted, hmeeting, hwire⟩ := hregister
  refine ⟨by unfold measurements; rw [hwire]; rfl, ?_⟩
  have hhonest := @events_honest twoLegs heard askedCommand asked .empty waiting (by decide) rfl
    hmeeting (Prod.ext haccepted rfl)
  have hanswer := hhonest.2.2.2.2 [.measurement 0 20] 5 20 _ hwire
  exact hanswer.1 (by simp)

/-- The reader of the first leg looks at the leg before it ends, and reports behind the
result of the request. -/
def late : List Step :=
  [.advance 0 .returned, .read .mic false, .endLeg false, .finishRequest none,
    .report .mic 5 .returned]

/-- Not every event of a transcription is admitted. -/
theorem late_event_ignored :
    (RequestTracker.empty.register askedCommand).1 = .ok () ∧
      (run twoLegs (initial twoLegs) late).wire =
        [.measurement 0 20, .result none, .measurement 5 20] ∧
      answer asked waiting [.measurement 0 20, .result none] 5 20 = none := by
  decide +kernel

end Speech

end YawnApp.Worker
