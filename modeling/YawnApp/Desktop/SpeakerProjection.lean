import YawnApp.Desktop.SpeakerAgreement

set_option autoImplicit false

/-!
# When a speaker suggestion is projected

The desktop projects what the worker wrote about a transcript exactly when it shows every
turn of the transcript and no speaker is heard in a microphone turn for at most half a
microsecond.  A presence that short is rounded to nothing, which the desktop refuses; a
withheld turn is a microphone turn to the worker alone.
-/

namespace YawnApp.Desktop.SpeakerSuggestion

open YawnApp.Foundation YawnApp.SessionCore YawnApp.Worker YawnApp.Worker.Diarization TranscriptMicTurn List

/-! ## The turns of a transcript -/

section Turns

variable {turns : List TranscriptInputTurn} {restored : Finset UInt32}

/-- A turn of the transcript as it is handed to the reader of suggestions. -/
def micOf (restored : Finset UInt32) (p : TranscriptInputTurn × Nat) : TranscriptMicTurn :=
  ⟨UInt32.ofNat p.2, p.1.start, p.1.stop, (shown restored p.2 p.1).sourceSpeaker == some "Me"⟩

/-- The microphone turns of the worker. -/
def spoken (turns : List TranscriptInputTurn) : List (TranscriptInputTurn × Nat) :=
  turns.zipIdx.filter fun p => p.1.speaker = some "Me"

theorem micTurns_shown :
    micTurns (turns.zipIdx.map fun p => shown restored p.2 p.1) = turns.zipIdx.map (micOf restored) := by
  unfold micTurns
  rw [map_map]
  apply map_congr_left
  intro p _
  unfold micOf shown
  simp only [Function.comp_apply]
  split <;> rfl

/-- The desktop has a microphone turn where it shows one of the worker. -/
theorem isMicrophoneTurn_iff (p : TranscriptInputTurn × Nat) :
    (micOf restored p).isMicrophoneTurn = true ↔
      (shown restored p.2 p.1).withheld = false ∧ p.1.speaker = some "Me" := by
  unfold micOf shown
  split <;> simp

theorem suggestions_eq (intervals : List Interval) (duration : ℚ) :
    (turns.zipIdx.filterMap fun p => suggestionOf intervals duration p.2 p.1) =
      (spoken turns).map fun p =>
        ⟨p.2, presencesOf (turnOverlaps intervals duration p.1.start p.1.stop)⟩ := by
  unfold spoken
  generalize turns.zipIdx = pairs
  induction pairs with
  | nil => rfl
  | cons p pairs ih =>
    rw [filterMap_cons, filter_cons]
    unfold suggestionOf at *
    by_cases hme : p.1.speaker = some "Me"
    · simp [hme, ih]
    · simp [hme, ih]

/-- Two turns of a transcript that is not too long have different indices. -/
theorem indexed_micTurns (hcount : turns.length ≤ maxTranscriptTurns)
    (htimes : ∀ turn ∈ turns, turn.speaker = some "Me" → 0 ≤ turn.start ∧ turn.start < turn.stop) :
    Indexed (turns.zipIdx.map (micOf restored)) := by
  constructor
  · intro turn hturn hmic
    obtain ⟨p, hp, rfl⟩ := mem_map.mp hturn
    exact htimes p.1 (fst_mem_of_mem_zipIdx hp) ((isMicrophoneTurn_iff p).mp hmic).2
  · have hindices : (turns.zipIdx.map (micOf restored)).map sourceTurnIndex =
        (List.range' 0 turns.length).map UInt32.ofNat := by
      rw [← zipIdx_map_snd 0 turns, map_map, map_map]
      rfl
    rw [hindices]
    refine List.Nodup.map_on (fun a ha b hb heq => ?_) nodup_range'
    have hsmall : ∀ {n : Nat}, n ∈ List.range' 0 turns.length → n < UInt32.size := by
      intro n hn
      rw [mem_range'_1, Nat.zero_add] at hn
      exact (hn.2.trans_le hcount).trans (by decide)
    have hnat := congrArg UInt32.toNat heq
    rwa [UInt32.toNat_ofNat_of_lt' (hsmall ha), UInt32.toNat_ofNat_of_lt' (hsmall hb)] at hnat

theorem filter_mics :
    (turns.zipIdx.map (micOf restored)).filter (·.isMicrophoneTurn) =
      ((spoken turns).filter fun p => (micOf restored p).isMicrophoneTurn).map (micOf restored) := by
  unfold spoken
  rw [filter_map, filter_filter]
  refine congrArg (List.map (micOf restored)) (filter_congr fun p _ => ?_)
  rw [Function.comp_apply]
  cases hmic : (micOf restored p).isMicrophoneTurn with
  | false => rfl
  | true =>
    rw [Bool.true_and]
    exact (decide_eq_true ((isMicrophoneTurn_iff p).mp hmic).2).symm

/-- The two programs count the same microphone turns when no turn is withheld. -/
theorem counts_agree_iff (hgated : ∀ turn ∈ turns, turn.gated = some true → turn.speaker = some "Me") :
    ((turns.zipIdx.map (micOf restored)).filter (·.isMicrophoneTurn)).length = (spoken turns).length ↔
      ∀ p ∈ turns.zipIdx, (shown restored p.2 p.1).withheld = false := by
  rw [filter_mics, length_map, length_filter_eq_length_iff]
  constructor
  · intro hall p hp
    by_cases hme : p.1.speaker = some "Me"
    · have hspoken : p ∈ spoken turns := mem_filter.mpr ⟨hp, decide_eq_true hme⟩
      exact ((isMicrophoneTurn_iff p).mp (hall p hspoken)).1
    · have hkept : p.1.gated ≠ some true :=
        fun hwithheld => hme (hgated p.1 (fst_mem_of_mem_zipIdx hp) hwithheld)
      unfold shown
      rw [if_neg fun h => hkept h.1]
  · intro hall p hp
    obtain ⟨hmem, hme⟩ := mem_filter.mp hp
    exact (isMicrophoneTurn_iff p).mpr ⟨hall p hmem, of_decide_eq_true hme⟩

end Turns

/-! ## How long a speaker is heard -/

/-- The times of a turn at which a speaker is heard in the recording. -/
def heard (segments : List Interval) (duration : ℚ) (turn : TranscriptMicTurn) (speaker : String) :
    Set ℝ :=
  {x | ∃ segment ∈ segments, segment.label = speaker ∧ (segment.start : ℝ) < x ∧ x ≤ segment.stop ∧
    x ≤ duration ∧ (turn.start : ℝ) < x ∧ x ≤ turn.stop}

/-- A speaker is heard in the turn, and for at most half a microsecond. -/
def Brief (segments : List Interval) (duration : ℚ) (turn : TranscriptMicTurn) (speaker : String) :
    Prop :=
  0 < MeasureTheory.volume (heard segments duration turn speaker) ∧
    MeasureTheory.volume (heard segments duration turn speaker) ≤ ENNReal.ofReal (1 / 2000000 : ℚ)

section Heard

variable {output : Value} {duration : ℚ} {intervals : List Interval} {turn : TranscriptMicTurn}

theorem mem_expectedRanges {cluster : String} {r : ℚ × ℚ} :
    r ∈ expectedRanges (clipped intervals turn) cluster ↔ ∃ interval ∈ intervals,
      interval.label = cluster ∧ max interval.start turn.start < min interval.stop turn.stop ∧
        r = (max interval.start turn.start, min interval.stop turn.stop) := by
  unfold expectedRanges
  rw [mem_map]
  constructor
  · rintro ⟨s, hs, rfl⟩
    obtain ⟨hclipped, hlabel⟩ := mem_filter.mp hs
    obtain ⟨interval, hinterval, hlt, rfl⟩ := mem_clipped.mp hclipped
    exact ⟨interval, hinterval, of_decide_eq_true hlabel, hlt, rfl⟩
  · rintro ⟨interval, hinterval, hlabel, hlt, rfl⟩
    exact ⟨_, mem_filter.mpr ⟨mem_clipped.mpr ⟨interval, hinterval, hlt, rfl⟩,
      decide_eq_true hlabel⟩, rfl⟩

/-- The ranges of a cluster cover the times at which its speaker is heard. -/
theorem cover_expectedRanges (h : parseDiarizerDocument output duration = .ok intervals)
    {speaker : String} (hspeaker : speaker ∈ speakerKeys output) :
    Spans.cover (expectedRanges (clipped intervals turn) (clusterLabel (speakerKeys output) speaker)) =
      heard (diarized output) duration turn speaker := by
  obtain ⟨hfew, -, rfl, -⟩ := parseDiarizerDocument_eq_ok h
  ext x
  constructor
  · rintro ⟨r, hr, hlow, hhigh⟩
    obtain ⟨interval, hinterval, hlabel, -, rfl⟩ := mem_expectedRanges.mp hr
    obtain ⟨segment, hsegment, rfl⟩ := mem_map.mp hinterval
    have hkey : segment.label ∈ speakerKeys output :=
      mem_sortedSet.mpr (mem_map_of_mem hsegment)
    push_cast at hlow hhigh
    rw [max_lt_iff] at hlow
    rw [le_min_iff] at hhigh
    have hends := hhigh.1
    change x ≤ ((min segment.stop duration : ℚ) : ℝ) at hends
    push_cast at hends
    rw [le_min_iff] at hends
    exact ⟨segment, hsegment, clusterLabel_injective hfew hkey hspeaker hlabel, hlow.1, hends.1,
      hends.2, hlow.2, hhigh.2⟩
  · rintro ⟨segment, hsegment, rfl, hstart, hstop, hend, hfrom, huntil⟩
    have hlow : ((max segment.start turn.start : ℚ) : ℝ) < x := by
      push_cast
      exact max_lt hstart hfrom
    have hhigh : x ≤ ((min (min segment.stop duration) turn.stop : ℚ) : ℝ) := by
      push_cast
      exact le_min (le_min hstop hend) huntil
    refine ⟨_, mem_expectedRanges.mpr ⟨intervalOf output duration segment,
      mem_map_of_mem hsegment, rfl, ?_, rfl⟩, hlow, hhigh⟩
    exact_mod_cast hlow.trans_le hhigh

/-- The seconds of a cluster are how long its speaker is heard. -/
theorem volume_heard (h : parseDiarizerDocument output duration = .ok intervals)
    {speaker : String} (hspeaker : speaker ∈ speakerKeys output) :
    MeasureTheory.volume (heard (diarized output) duration turn speaker) =
      ENNReal.ofReal (clusterSeconds intervals turn (clusterLabel (speakerKeys output) speaker) : ℚ) := by
  rw [← cover_expectedRanges h hspeaker, Spans.volume_cover]
  · rfl
  · intro r hr
    obtain ⟨interval, -, -, hlt, rfl⟩ := mem_expectedRanges.mp hr
    exact hlt.le

theorem clusterSeconds_pos {cluster : String}
    (hcluster : cluster ∈ clustersOf (clipped intervals turn)) :
    0 < clusterSeconds intervals turn cluster := by
  obtain ⟨s, hs, rfl⟩ := mem_clustersOf.mp hcluster
  obtain ⟨interval, hinterval, hlt, rfl⟩ := mem_clipped.mp hs
  have hrange := mem_expectedRanges.mpr ⟨interval, hinterval, rfl, hlt, rfl⟩
  have hwidth : ∀ r ∈ expectedRanges (clipped intervals turn) interval.label, r.1 ≤ r.2 := by
    intro r hr
    obtain ⟨other, -, -, hother, rfl⟩ := mem_expectedRanges.mp hr
    exact hother.le
  have hcover : Set.Ioc ((max interval.start turn.start : ℚ) : ℝ)
      ((min interval.stop turn.stop : ℚ) : ℝ) ⊆
        Spans.cover (expectedRanges (clipped intervals turn) interval.label) :=
    fun x hx => ⟨_, hrange, hx.1, hx.2⟩
  have hvolume : MeasureTheory.volume _ ≤ MeasureTheory.volume _ := MeasureTheory.measure_mono hcover
  rw [Real.volume_Ioc, Spans.volume_cover hwidth] at hvolume
  have hpositive : (0 : ℝ) < ((min interval.stop turn.stop : ℚ) : ℝ) -
      ((max interval.start turn.start : ℚ) : ℝ) := sub_pos.mpr (by exact_mod_cast hlt)
  have hlonger := (ENNReal.ofReal_pos.mpr hpositive).trans_le hvolume
  exact_mod_cast ENNReal.ofReal_pos.mp hlonger

/-- Nothing of a turn is rounded away exactly when no speaker is heard briefly. -/
theorem lasting_iff (h : parseDiarizerDocument output duration = .ok intervals) :
    Lasting intervals turn ↔ ∀ speaker, ¬ Brief (diarized output) duration turn speaker := by
  constructor
  · rintro hlasting speaker ⟨hsome, hbrief⟩
    obtain ⟨x, segment, hsegment, rfl, hstart, hstop, hend, hfrom, huntil⟩ :=
      MeasureTheory.nonempty_of_measure_ne_zero hsome.ne'
    have hspeaker : segment.label ∈ speakerKeys output :=
      mem_sortedSet.mpr (mem_map_of_mem hsegment)
    have hheard : x ∈ heard (diarized output) duration turn segment.label :=
      ⟨segment, hsegment, rfl, hstart, hstop, hend, hfrom, huntil⟩
    rw [← cover_expectedRanges h hspeaker] at hheard
    obtain ⟨r, hr, -, -⟩ := hheard
    obtain ⟨interval, hinterval, hlabel, hlt, -⟩ := mem_expectedRanges.mp hr
    have hcluster : clusterLabel (speakerKeys output) segment.label ∈
        clustersOf (clipped intervals turn) :=
      mem_clustersOf.mpr ⟨_, mem_clipped.mpr ⟨interval, hinterval, hlt, rfl⟩, hlabel⟩
    have hlong := (round6_pos_iff (clusterSeconds_pos hcluster).le).mp (hlasting _ hcluster)
    rw [volume_heard h hspeaker, ENNReal.ofReal_le_ofReal_iff (by norm_num)] at hbrief
    have hshort : clusterSeconds intervals turn (clusterLabel (speakerKeys output) segment.label) ≤
      1 / 2000000 := by exact_mod_cast hbrief
    exact absurd hlong (not_lt.mpr hshort)
  · intro hnone cluster hcluster
    have hpositive := clusterSeconds_pos hcluster
    obtain ⟨s, hs, rfl⟩ := mem_clustersOf.mp hcluster
    obtain ⟨interval, hinterval, -, rfl⟩ := mem_clipped.mp hs
    obtain ⟨-, -, hintervals, -⟩ := parseDiarizerDocument_eq_ok h
    rw [hintervals] at hinterval
    obtain ⟨segment, hsegment, rfl⟩ := mem_map.mp hinterval
    have hspeaker : segment.label ∈ speakerKeys output :=
      mem_sortedSet.mpr (mem_map_of_mem hsegment)
    rw [round6_pos_iff hpositive.le]
    by_contra hshort
    apply hnone segment.label
    unfold Brief
    rw [volume_heard h hspeaker]
    refine ⟨ENNReal.ofReal_pos.mpr (by exact_mod_cast hpositive), ENNReal.ofReal_le_ofReal ?_⟩
    exact_mod_cast not_lt.mp hshort

end Heard

/-! ## The whole document -/

/-- The projection is about the microphone turns, names the clusters that have time of a
turn, and tells whether two of them share time of it. -/
structure Projects (intervals : List StoredInterval) (turns : List TranscriptMicTurn)
    (projected : List SuggestionTurn) : Prop where
  turns_eq : projected.map SuggestionTurn.sourceTurnIndex =
    (turns.filter (·.isMicrophoneTurn)).map TranscriptMicTurn.sourceTurnIndex
  each : ∀ suggestion ∈ projected, ∃ turn ∈ turns, turn.isMicrophoneTurn = true ∧
    turn.sourceTurnIndex = suggestion.sourceTurnIndex ∧
    (∀ cluster, cluster ∈ suggestion.clusters ↔ ∃ interval ∈ intervals,
      interval.label = cluster ∧ max interval.start turn.start < min interval.stop turn.stop) ∧
    (suggestion.hasOverlap = true ↔ ∃ a ∈ intervals, ∃ b ∈ intervals, a.label ≠ b.label ∧
      max (max a.start turn.start) (max b.start turn.start) <
        min (min a.stop turn.stop) (min b.stop turn.stop))

theorem intervalsOverlapInTurn_iff (intervals : List StoredInterval) (turn : TranscriptMicTurn) :
    intervalsOverlapInTurn intervals turn = true ↔ ∃ a ∈ intervals, ∃ b ∈ intervals,
      a.label ≠ b.label ∧ max (max a.start turn.start) (max b.start turn.start) <
        min (min a.stop turn.stop) (min b.stop turn.stop) := by
  have hmem : ∀ s, s ∈ (clipped intervals turn).insertionSort (fun l r => l.start ≤ r.start) ↔
      s ∈ clipped intervals turn := fun s => mem_insertionSort _
  have htotal : Std.Total fun l r : StoredInterval => l.start ≤ r.start :=
    ⟨fun a b => le_total a.start b.start⟩
  have htrans : IsTrans StoredInterval fun l r => l.start ≤ r.start :=
    ⟨fun _ _ _ hab hbc => le_trans hab hbc⟩
  have hwidth : ∀ s ∈ (clipped intervals turn).insertionSort (fun l r => l.start ≤ r.start),
      s.start < s.stop := by
    intro s hs
    obtain ⟨interval, -, hlt, rfl⟩ := mem_clipped.mp ((hmem s).mp hs)
    exact hlt
  unfold intervalsOverlapInTurn
  change Spans.clashFrom [] ((clipped intervals turn).insertionSort _) = true ↔ _
  rw [Spans.clashFrom_iff hwidth (pairwise_insertionSort _ _)]
  constructor
  · rintro ⟨a, ha, b, hb, hlabel, hmeets⟩
    obtain ⟨i, hi, -, rfl⟩ := mem_clipped.mp ((hmem a).mp ha)
    obtain ⟨j, hj, -, rfl⟩ := mem_clipped.mp ((hmem b).mp hb)
    exact ⟨i, hi, j, hj, hlabel, hmeets⟩
  · rintro ⟨i, hi, j, hj, hlabel, hmeets⟩
    have hboth := max_lt_iff.mp hmeets
    have hfirst := (lt_min_iff.mp hboth.1).1
    have hsecond := (lt_min_iff.mp hboth.2).2
    exact ⟨_, (hmem _).mpr (mem_clipped.mpr ⟨i, hi, hfirst, rfl⟩), _,
      (hmem _).mpr (mem_clipped.mpr ⟨j, hj, hsecond, rfl⟩), hlabel, hmeets⟩

theorem projects_projectedOf (intervals : List StoredInterval) (turns : List TranscriptMicTurn) :
    Projects intervals turns
      ((turns.filter (·.isMicrophoneTurn)).map (projectedOf intervals)) := by
  constructor
  · rw [map_map]
    rfl
  · intro suggestion hsuggestion
    obtain ⟨turn, hturn, rfl⟩ := mem_map.mp hsuggestion
    obtain ⟨hmem, hmic⟩ := mem_filter.mp hturn
    refine ⟨turn, hmem, hmic, rfl, fun cluster => ?_, intervalsOverlapInTurn_iff intervals turn⟩
    unfold projectedOf
    rw [mem_clustersOf]
    constructor
    · rintro ⟨s, hs, rfl⟩
      obtain ⟨interval, hinterval, hlt, rfl⟩ := mem_clipped.mp hs
      exact ⟨interval, hinterval, rfl, hlt⟩
    · rintro ⟨interval, hinterval, rfl, hlt⟩
      exact ⟨_, mem_clipped.mpr ⟨interval, hinterval, hlt, rfl⟩, rfl⟩

section Whole

variable {B : Type} [PythonText B] {suggested : Suggested B} {output : Value} {duration : ℚ}
  {intervals : List Interval} {turns : List TranscriptInputTurn} {restored : Finset UInt32}

/-- What the worker writes about the turns of a transcript. -/
def suggestionsOf (intervals : List Interval) (duration : ℚ) (turns : List TranscriptInputTurn) :
    List TurnSuggestion :=
  (spoken turns).map fun p =>
    ⟨p.2, presencesOf (turnOverlaps intervals duration p.1.start p.1.stop)⟩

/-- Where no turn is withheld, the stored suggestions are those of the microphone turns. -/
theorem storedTurns_eq (hinside : ∀ interval ∈ intervals, Inside duration interval)
    (htimes : ∀ turn ∈ turns, turn.speaker = some "Me" → 0 ≤ turn.start ∧ turn.start < turn.stop)
    (hshown : ∀ p ∈ turns.zipIdx, (shown restored p.2 p.1).withheld = false) :
    (suggestionsOf intervals duration turns).map storedTurn =
      ((turns.zipIdx.map (micOf restored)).filter (·.isMicrophoneTurn)).map (storedOf intervals) := by
  have hall : (spoken turns).filter (fun p => (micOf restored p).isMicrophoneTurn) = spoken turns := by
    rw [filter_eq_self]
    intro p hp
    obtain ⟨hmem, hme⟩ := mem_filter.mp hp
    exact (isMicrophoneTurn_iff p).mpr ⟨hshown p hmem, of_decide_eq_true hme⟩
  unfold suggestionsOf
  rw [filter_mics, hall, map_map, map_map]
  apply map_congr_left
  intro p hp
  obtain ⟨hmem, hme⟩ := mem_filter.mp hp
  have hstart := (htimes p.1 (fst_mem_of_mem_zipIdx hmem) (of_decide_eq_true hme)).1
  have hoverlaps := @turnOverlaps_eq intervals duration hinside (micOf restored p) hstart
  change turnOverlaps intervals duration p.1.start p.1.stop = _ at hoverlaps
  simp only [Function.comp_apply, hoverlaps, presencesOf_eq]
  unfold storedTurn storedOf
  rw [map_map]
  rfl

/-- The desktop's answer to the document of the worker. -/
theorem validateAndProject_stored (h : parseDiarizerDocument output duration = .ok intervals)
    (hduration : 0 < duration ∧ duration ≤ maxDurationSeconds)
    (htranscript : validSha256 suggested.sourceTranscriptSha256 = true)
    (hmicrophone : Platform.sha256 suggested.microphone = suggested.microphoneAudioSha256)
    (hcount : turns.length ≤ maxTranscriptTurns)
    (htimes : ∀ turn ∈ turns, turn.speaker = some "Me" → 0 ≤ turn.start ∧ turn.start < turn.stop)
    (hgated : ∀ turn ∈ turns, turn.gated = some true → turn.speaker = some "Me") :
    validateAndProject (storedDocument suggested duration intervals
        (suggestionsOf intervals duration turns)) suggested.sourceTranscriptSha256
        suggested.microphoneAudioSha256 (turns.zipIdx.map (micOf restored)) =
      if (∀ p ∈ turns.zipIdx, (shown restored p.2 p.1).withheld = false) ∧
          ∀ turn ∈ (turns.zipIdx.map (micOf restored)).filter isMicrophoneTurn,
            Lasting intervals turn then
        some ((storedDocument suggested duration intervals
            (suggestionsOf intervals duration turns)).status == "review-required",
          ((turns.zipIdx.map (micOf restored)).filter isMicrophoneTurn).map
            (projectedOf intervals)) else none := by
  obtain ⟨-, -, -, hinside⟩ := parseDiarizerDocument_eq_ok h
  have hindexed : Indexed (turns.zipIdx.map (micOf restored)) := indexed_micTurns hcount htimes
  have hsame : ((turns.zipIdx.map (micOf restored)).filter (·.isMicrophoneTurn)).length =
      (spoken turns).length ↔ ∀ p ∈ turns.zipIdx, (shown restored p.2 p.1).withheld = false :=
    counts_agree_iff hgated
  have hlength : (storedDocument suggested duration intervals
      (suggestionsOf intervals duration turns)).micTurnSuggestions.length = (spoken turns).length := by
    unfold storedDocument suggestionsOf
    rw [length_map, length_map]
  unfold validateAndProject
  rw [headerHolds_stored h hduration htranscript hmicrophone, (clustersHold_stored h).1,
    show (storedDocument suggested duration intervals (suggestionsOf intervals duration
      turns)).intervals.all (intervalHolds (storedDocument suggested duration intervals
        (suggestionsOf intervals duration turns)).durationSeconds) = true from intervals_hold h,
    hindexed.microphoneTurnCount, decide_eq_true rfl, hlength]
  simp only [Bool.true_and, decide_eq_true_eq]
  by_cases hshown : ∀ p ∈ turns.zipIdx, (shown restored p.2 p.1).withheld = false
  · have hstored := storedTurns_eq hinside htimes hshown
    rw [if_pos (hsame.mpr hshown).symm]
    change (projectSuggestions _ _ [] ((suggestionsOf intervals duration turns).map storedTurn) >>=
      fun projected => if (((suggestionsOf intervals duration turns).map storedTurn).map
        (·.sourceTurnIndex)).dedup.length = _ then _ else none) = _
    rw [hstored]
    have hprojected : projectSuggestions (storedDocument suggested duration intervals
        (suggestionsOf intervals duration turns)) (turns.zipIdx.map (micOf restored)) []
        (((turns.zipIdx.map (micOf restored)).filter isMicrophoneTurn).map
          (storedOf intervals)) =
        if ∀ turn ∈ (turns.zipIdx.map (micOf restored)).filter isMicrophoneTurn,
            Lasting intervals turn then
          some (((turns.zipIdx.map (micOf restored)).filter
            isMicrophoneTurn).map (projectedOf intervals)) else none :=
      projectSuggestions_eq (fun turn hturn => hindexed.microphoneTurn hturn) hindexed.nodup_mics
        (fun _ _ hmem => by cases hmem)
    rw [hprojected]
    by_cases hlasting : ∀ turn ∈ (turns.zipIdx.map (micOf restored)).filter isMicrophoneTurn,
        Lasting intervals turn
    · have hnodup : ((((turns.zipIdx.map (micOf restored)).filter isMicrophoneTurn).map
          (storedOf intervals)).map (·.sourceTurnIndex)).dedup.length =
          ((turns.zipIdx.map (micOf restored)).filter isMicrophoneTurn).length := by
        rw [map_map]
        change (List.map sourceTurnIndex _).dedup.length = _
        rw [hindexed.nodup_mics.dedup, length_map]
      rw [if_pos hlasting, if_pos ⟨hshown, hlasting⟩, Option.bind_eq_bind, Option.bind_some,
        if_pos hnodup]
      rfl
    · rw [if_neg hlasting, if_neg fun hboth => hlasting hboth.2]
      rfl
  · rw [if_neg fun hcounts => hshown (hsame.mp hcounts.symm), if_neg fun hboth => hshown hboth.1]

end Whole

section Agreement

variable {B : Type} [PythonText B]

/-- The segments that the diarizer gave. -/
def segmentsOf (output : B) : List Interval := ((PythonText.loads output).map diarized).getD []

theorem TranscriptDocument.fromValue_some {v : Value} {document : TranscriptDocument}
    (h : TranscriptDocument.fromValue v = some document) :
    ∃ fs, v = .object fs ∧ (fs.map Prod.fst).Nodup ∧
      requiredField fs "attribution" = some document.attribution ∧
      listField TranscriptInputTurn.fromValue fs "turns" = some document.turns := by
  unfold TranscriptDocument.fromValue at h
  simp only [Option.bind_eq_bind, Option.bind_eq_some_iff, Option.pure_def] at h
  obtain ⟨fs, hclosed, schema, -, source, -, attribution, hname, h⟩ := h
  obtain ⟨rfl, hnames⟩ := closedFields_some hclosed
  refine ⟨fs, rfl, hnames, ?_⟩
  split at h
  all_goals
    simp only [Option.bind_eq_some_iff] at h
    obtain ⟨voiceprint, -, health, -, turns, hturns, heq⟩ := h
    obtain rfl := Option.some.inj heq
    exact ⟨hname, hturns⟩

/-- The two readings of a transcript: the turns of the desktop are those that the worker
goes through. -/
theorem readTranscript_reads {load : B → Except String Unit} {transcript : B} {digest : String}
    {items : List Value} {restored : Finset UInt32} {presented : List TranscriptTurn}
    (hread : readTranscript load transcript digest = .ok items)
    (hpresented : parseTranscriptProjectionWith transcript restored = .ok presented) :
    ∃ raws turns, items = Value.collapseItems raws ∧
      raws.mapM TranscriptInputTurn.fromValue = some turns ∧ turns.length ≤ maxTranscriptTurns ∧
      projectTurns false restored 0 turns = .ok presented := by
  simp only [parseTranscriptProjectionWith, bind_eq_ok, orRefuse_eq_ok, refuseIf_eq_ok, not_or,
    not_lt, Option.bind_eq_some_iff] at hpresented
  obtain ⟨doc, ⟨raw, hraw, hdoc⟩, _, ⟨-, -, hcount⟩, hturns⟩ := hpresented
  simp only [readTranscript, bind_eq_ok, orRefuse_eq_ok, refuseIf_eq_ok, not_not,
    PythonText.loads_of_readText _ _ hraw, Option.some.injEq] at hread
  obtain ⟨_, -, loaded, rfl, _, -, _, hattribution, read, hitems, _, -, heq⟩ := hread
  obtain rfl := Except.ok.inj heq
  obtain ⟨fs, rfl, hnames, hname, hlist⟩ := TranscriptDocument.fromValue_some hdoc
  rw [string_of_required hnames hname, Option.some.injEq] at hattribution
  rw [hattribution] at hturns
  unfold listField at hlist
  split at hlist
  · rename_i raws hfield
    rw [get_collapse hnames, hfield, Option.map_some, Option.bind_some, Value.collapse] at hitems
    exact ⟨raws, doc.turns, (Option.some.inj hitems).symm, hlist, hcount, hturns⟩
  · cases hlist

/-- The document that the worker builds about a transcript is projected, to the clusters
that have time of each microphone turn and to whether two of them share it, exactly when
the desktop shows every turn and no speaker is heard briefly in a microphone turn.  The
turns restored by views are those the desktop was given, none for the transcript itself. -/
theorem suggestion_projected_iff (load : B → Except String Unit) {suggested : Suggested B}
    {document : Value} {restored : Finset UInt32} {presented : List TranscriptTurn}
    (hbuilt : speakerSuggest load suggested = .ok document)
    (hpresented : parseTranscriptProjectionWith suggested.transcript restored = .ok presented) :
    (∃ stored review projected, StoredSuggestion.fromValue document = some stored ∧
      validateAndProject stored suggested.sourceTranscriptSha256 suggested.microphoneAudioSha256
        (micTurns presented) = some (review, projected) ∧
      Projects stored.intervals (micTurns presented) projected) ↔
    (∀ turn ∈ presented, turn.withheld = false) ∧
      ∀ turn ∈ micTurns presented, turn.isMicrophoneTurn = true →
        ∀ speaker, ¬ Brief (segmentsOf suggested.output) (suggested.frames / 16000) turn speaker := by
  simp only [speakerSuggest, validatedDuration, parseDiarizerOutput, bind_eq_ok, refuseIf_eq_ok,
    orRefuse_eq_ok, not_not, not_lt] at hbuilt
  obtain ⟨_, htranscript, _, -, duration, ⟨_, hframes, _, hlong, hduration⟩, _, hmicrophone, items,
    hread, intervals, ⟨_, -, output, hloads, hparsed⟩, suggestions, hmatched, heq⟩ := hbuilt
  obtain rfl := Except.ok.inj hduration
  obtain rfl := Except.ok.inj heq
  obtain ⟨raws, turns, rfl, hturns, hcount, hprojected⟩ := readTranscript_reads hread hpresented
  obtain ⟨hmatches, htimes⟩ := matchMicTurns_reads hturns hmatched
  obtain ⟨rfl, hgated⟩ := projectTurns_shows hprojected
  rw [suggestions_eq] at hmatches
  subst hmatches
  have hpositive : (0 : ℚ) < (suggested.frames : ℚ) / 16000 := by
    have hsome : (0 : ℚ) < suggested.frames := by exact_mod_cast Nat.pos_of_ne_zero hframes
    linarith
  have hread : StoredSuggestion.fromValue (suggestionValue suggested (suggested.frames / 16000)
      intervals (suggestionsOf intervals (suggested.frames / 16000) turns)) =
      some (storedDocument suggested (suggested.frames / 16000) intervals
        (suggestionsOf intervals (suggested.frames / 16000) turns)) := by
    refine storedDocument_suggestionValue ?_ fun suggestion hsuggestion => ?_
    · exact ((@clustersHold_stored B _ suggested output _ intervals [] hparsed).2).trans_lt (by decide)
    · obtain ⟨p, hp, rfl⟩ := List.mem_map.mp hsuggestion
      have hindex := List.snd_lt_of_mem_zipIdx (List.mem_filter.mp hp).1
      rw [Nat.add_zero] at hindex
      exact (hindex.trans_le hcount).trans (by decide)
  have hanswer := @validateAndProject_stored B _ suggested output _ intervals turns restored hparsed
    ⟨hpositive, hlong⟩ htranscript hmicrophone hcount htimes hgated
  have hsegments : segmentsOf suggested.output = diarized output := by
    unfold segmentsOf
    rw [hloads]
    rfl
  have hcondition : ((∀ p ∈ turns.zipIdx, (shown restored p.2 p.1).withheld = false) ∧
      ∀ turn ∈ (turns.zipIdx.map (micOf restored)).filter TranscriptMicTurn.isMicrophoneTurn,
        Lasting intervals turn) ↔
      (∀ turn ∈ turns.zipIdx.map (fun p => shown restored p.2 p.1), turn.withheld = false) ∧
      ∀ turn ∈ turns.zipIdx.map (micOf restored), turn.isMicrophoneTurn = true →
        ∀ speaker, ¬ Brief (diarized output) (suggested.frames / 16000) turn speaker := by
    refine and_congr (by rw [List.forall_mem_map]) (forall_congr' fun turn => ?_)
    rw [List.mem_filter, and_imp]
    exact forall_congr' fun _ => forall_congr' fun _ => lasting_iff hparsed
  rw [micTurns_shown, hsegments, ← hcondition]
  change (∃ stored review projected, StoredSuggestion.fromValue (suggestionValue suggested
    (suggested.frames / 16000) intervals (suggestionsOf intervals (suggested.frames / 16000) turns)) =
      some stored ∧ _) ↔ _
  rw [hread]
  constructor
  · rintro ⟨stored, review, projected, hstored, hvalid, -⟩
    obtain rfl := Option.some.inj hstored
    rw [hanswer] at hvalid
    split at hvalid
    · assumption
    · cases hvalid
  · intro hholds
    rw [if_pos hholds] at hanswer
    exact ⟨_, _, _, rfl, hanswer, projects_projectedOf intervals _⟩

end Agreement

/-! ## Transcripts to try -/

/-- A turn of a transcript, with further fields. -/
def sampleTurn (speaker : String) (start stop : ℚ) (more : List (String × Value)) : Value :=
  .object ([("start", .decimal start), ("end", .decimal stop), ("speaker", .string speaker),
    ("text", .string "yes")] ++ more)

def sampleTranscript (turns : List Value) : Recorded [] :=
  Document.pretty (.object [("schema", .string "capture-transcript/1"), ("source", .string "capture"),
    ("attribution", .string "channel"), ("capture_health", .object []), ("turns", .array turns)])

/-- The output of the diarizer: when a speaker starts and stops. -/
def sampleOutput (segments : List (ℚ × ℚ × Nat)) : Recorded [] :=
  Document.pretty (.object [("file", .string "mic.wav"),
    ("segments", .array (segments.map fun (start, stop, speaker) =>
      .object [("start", .decimal start), ("end", .decimal stop), ("speaker", .natural speaker)]))])

/-- Ten seconds of a recording. -/
def sampleSuggested (transcript output : Recorded []) : Suggested (Recorded []) :=
  ⟨emptySha256, emptySha256, transcript, Document.empty, 160000, Document.empty, Document.empty,
    output⟩

theorem toOption_eq_some {ε α : Type} {x : Except ε α} {a : α} : x.toOption = some a ↔ x = .ok a := by
  cases x <;> simp [Except.toOption]

/-- What the desktop makes of the document of the worker, if the worker builds one and the
desktop can show the transcript. -/
def answerTo (suggested : Suggested (Recorded [])) :
    Option (Option (Bool × List SuggestionTurn)) := do
  let document ← (speakerSuggest (fun _ => .ok ()) suggested).toOption
  let presented ← (parseTranscriptProjectionWith suggested.transcript ∅).toOption
  let stored ← StoredSuggestion.fromValue document
  return validateAndProject stored suggested.sourceTranscriptSha256
    suggested.microphoneAudioSha256 (micTurns presented)

/-- A speaker starts a tenth of a microsecond before the turn ends. -/
def sampleBrief : Suggested (Recorded []) :=
  sampleSuggested (sampleTranscript [sampleTurn "Me" 0 2 [], sampleTurn "Them" 2 3 []])
    (sampleOutput [(2 - 1 / 10000000, 5 / 2, 1)])

/-- The voice check withheld the first turn. -/
def sampleWithheld : Suggested (Recorded []) :=
  sampleSuggested (sampleTranscript [sampleTurn "Me" 0 2 [("gated", .bool true)],
    sampleTurn "Me" 3 5 []]) (sampleOutput [(4, 5, 1)])

theorem suggestion_projected_brief :
    ∃ presented, parseTranscriptProjectionWith sampleBrief.transcript ∅ = .ok presented ∧
      ∃ turn ∈ micTurns presented, turn.isMicrophoneTurn = true ∧ ∃ speaker,
        Brief (segmentsOf sampleBrief.output) (sampleBrief.frames / 16000) turn speaker := by
  have hanswer : answerTo sampleBrief = some none := by decide +kernel
  unfold answerTo at hanswer
  simp only [Option.bind_eq_bind, Option.bind_eq_some_iff, Option.pure_def, Option.some.injEq]
    at hanswer
  obtain ⟨document, hdocument, presented, hpresented, stored, hstored, hrefused⟩ := hanswer
  have hbuilt := toOption_eq_some.mp hdocument
  have hshown := toOption_eq_some.mp hpresented
  have hall : ((parseTranscriptProjectionWith sampleBrief.transcript ∅).toOption.getD []).all
      (fun turn => !turn.withheld) = true := by
    decide +kernel
  rw [hpresented, Option.getD_some, List.all_eq_true] at hall
  have hiff := suggestion_projected_iff (fun _ => .ok ()) hbuilt hshown
  refine ⟨presented, hshown, ?_⟩
  by_contra hnone
  have hlong : ∀ turn ∈ micTurns presented, turn.isMicrophoneTurn = true → ∀ speaker,
      ¬ Brief (segmentsOf sampleBrief.output) (sampleBrief.frames / 16000) turn speaker :=
    fun turn hturn hmic speaker hbrief => hnone ⟨turn, hturn, hmic, speaker, hbrief⟩
  obtain ⟨read, review, projected, hread, hvalid, -⟩ :=
    hiff.mpr ⟨fun turn hturn => by simpa using hall turn hturn, hlong⟩
  rw [hstored] at hread
  obtain rfl := Option.some.inj hread
  rw [hrefused] at hvalid
  cases hvalid

/-- A document that the worker builds may be refused. -/
theorem brief_presence_refused :
    answerTo sampleBrief = some none ∧ answerTo sampleWithheld = some none := by
  decide +kernel

end YawnApp.Desktop.SpeakerSuggestion
