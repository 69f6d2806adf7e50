import YawnApp.Desktop.SpeakerSuggestion
import YawnApp.Worker.Diarization

set_option autoImplicit false

/-!
# What the worker suggests and what the desktop projects

The worker reads a transcript as `json.loads` does and the desktop reads it into closed
records; here the two readings of a turn are compared, then the presences of a turn, then
the whole document.
-/

namespace YawnApp.Desktop.SpeakerSuggestion

open YawnApp.Foundation YawnApp.SessionCore YawnApp.Worker YawnApp.Worker.Diarization Value List

/-! ## The two readings of a document -/

variable {fs : List (String × Value)}

theorem closedFields_some {names : List String} {v : Value} (h : closedFields names v = some fs) :
    v = .object fs ∧ (fs.map Prod.fst).Nodup := by
  cases v with
  | object =>
    rw [closedFields] at h
    split at h
    · rename_i hclosed
      obtain rfl := Option.some.inj h
      rw [Bool.and_eq_true, decide_eq_true_eq] at hclosed
      exact ⟨rfl, hclosed.2⟩
    · cases h
  | null | bool | natural | decimal | string | array => cases h

theorem collapseFields_cons {k : String} {v : Value} (hfresh : k ∉ fs.map Prod.fst)
    (hnames : (fs.map Prod.fst).Nodup) :
    collapseFields ((k, v) :: fs) = (k, v.collapse) :: collapseFields fs ∧
      (collapseFields fs).map Prod.fst = fs.map Prod.fst := by
  induction fs generalizing k v with
  | nil => simp [collapseFields]
  | cons f fs ih =>
    obtain ⟨l, w⟩ := f
    rw [map_cons, nodup_cons] at hnames
    have hsame := ih hnames.1 hnames.2 (v := w)
    have hkept : (collapseFields ((l, w) :: fs)).map Prod.fst = ((l, w) :: fs).map Prod.fst := by
      rw [hsame.1, map_cons, hsame.2]
      rfl
    refine ⟨?_, hkept⟩
    have hnone : ((collapseFields ((l, w) :: fs)).any fun f => f.1 == k) = false := by
      rw [any_eq_false]
      intro f hf heq
      apply hfresh
      rw [← hkept]
      exact mem_map.mpr ⟨f, hf, by simpa using heq⟩
    rw [collapseFields, hnone]
    rfl

/-- A field of a closed record, read either way. -/
theorem get_collapse (hnames : (fs.map Prod.fst).Nodup) (name : String) :
    (collapse (.object fs)).get name = (fieldOf fs name).map collapse := by
  have hfields : ∀ {fs : List (String × Value)}, (fs.map Prod.fst).Nodup →
      fieldOf (collapseFields fs) name = (fieldOf fs name).map collapse := by
    intro fs hnames
    induction fs with
    | nil => simp [collapseFields, fieldOf]
    | cons f fs ih =>
      obtain ⟨k, v⟩ := f
      rw [map_cons, nodup_cons] at hnames
      rw [(collapseFields_cons hnames.1 hnames.2).1]
      have hrest := ih hnames.2
      unfold fieldOf at *
      by_cases hk : k = name
      · simp [hk]
      · simp [hk, hrest]
  rw [collapse]
  exact hfields hnames

theorem asNumber_collapse (v : Value) : v.collapse.asNumber = v.asNumber := by
  cases v <;> simp [collapse, asNumber]

theorem asStr_collapse (v : Value) : v.collapse.asStr = v.asStr := by
  cases v <;> simp [collapse, asStr]

theorem collapseItems_eq_map (items : List Value) :
    collapseItems items = items.map collapse := by
  induction items with
  | nil => rw [collapseItems, map_nil]
  | cons v vs ih => rw [collapseItems, ih, map_cons]

section Fields

variable {fs : List (String × Value)} {name : String}

theorem number_of_field (hnames : (fs.map Prod.fst).Nodup) {q : ℚ}
    (h : numberField fs name = some q) :
    ((collapse (.object fs)).get name).bind asNumber = some q := by
  rw [get_collapse hnames]
  unfold numberField at h
  rw [Option.bind_eq_some_iff] at h
  obtain ⟨v, hv, hq⟩ := h
  rw [hv, Option.map_some, Option.bind_some, asNumber_collapse, hq]

theorem string_of_required (hnames : (fs.map Prod.fst).Nodup) {s : String}
    (h : requiredField fs name = some s) :
    ((collapse (.object fs)).get name).bind asStr = some s := by
  rw [get_collapse hnames]
  unfold requiredField at h
  rw [Option.bind_eq_some_iff] at h
  obtain ⟨v, hv, hs⟩ := h
  rw [hv, Option.map_some, Option.bind_some, asStr_collapse]
  exact hs

theorem string_of_optional (hnames : (fs.map Prod.fst).Nodup) {o : Option String}
    (h : optionalField fs name = some o) :
    ((collapse (.object fs)).get name).bind asStr = o := by
  rw [get_collapse hnames]
  unfold optionalField at h
  cases hfield : fieldOf fs name with
  | none =>
    rw [hfield] at h
    cases h
    rfl
  | some v =>
    rw [hfield] at h
    rw [Option.map_some, Option.bind_some, asStr_collapse]
    cases v with
    | null | string =>
      cases h
      rfl
    | bool | natural | decimal | array | object => cases h

end Fields

/-! ## The turns -/

/-- What the worker finds of the intervals in a turn. -/
def turnOverlaps (intervals : List Interval) (duration start stop : ℚ) :
    List (String × (ℚ × ℚ)) :=
  if min duration stop > max 0 start then
    intervals.filterMap (overlapOf (max 0 start) (min duration stop))
  else []

/-- What the worker writes about a turn that the desktop has read. -/
def suggestionOf (intervals : List Interval) (duration : ℚ) (index : Nat)
    (turn : TranscriptInputTurn) : Option TurnSuggestion :=
  if turn.speaker = some "Me" then
    some ⟨index, presencesOf (turnOverlaps intervals duration turn.start turn.stop)⟩
  else none

theorem matchMicTurn_reads {intervals : List Interval} {duration : ℚ} {index : Nat} {item : Value}
    {turn : TranscriptInputTurn} {suggestion : Option TurnSuggestion}
    (hturn : TranscriptInputTurn.fromValue item = some turn)
    (h : matchMicTurn intervals duration index item.collapse = .ok suggestion) :
    suggestion = suggestionOf intervals duration index turn ∧
      (turn.speaker = some "Me" → 0 ≤ turn.start ∧ turn.start < turn.stop) := by
  unfold TranscriptInputTurn.fromValue at hturn
  simp only [Option.bind_eq_bind, Option.bind_eq_some_iff, Option.pure_def] at hturn
  obtain ⟨fs, hclosed, start, hstart, stop, hstop, speaker, hspeaker, text, -, gated, -, score, -,
    reason, -, heq⟩ := hturn
  obtain rfl := Option.some.inj heq
  obtain ⟨rfl, hnames⟩ := closedFields_some hclosed
  unfold matchMicTurn finiteNumber at h
  rw [string_of_optional hnames hspeaker, number_of_field hnames hstart,
    number_of_field hnames hstop] at h
  dsimp only at h
  rw [refuseIf_of_not (by simp [collapse, isObject]), ok_bind] at h
  unfold suggestionOf turnOverlaps
  by_cases hme : speaker = some "Me"
  · rw [if_neg (not_not.mpr hme)] at h
    simp only [orRefuse_some, ok_bind, bind_eq_ok, refuseIf_eq_ok, not_or, not_lt, not_le] at h
    obtain ⟨_, htimes, heq⟩ := h
    rw [if_pos hme]
    exact ⟨(Except.ok.inj heq).symm, fun _ => htimes⟩
  · rw [if_pos hme] at h
    rw [if_neg hme]
    exact ⟨(Except.ok.inj h).symm, fun hme' => absurd hme' hme⟩

/-- The suggestions, by the turns that the desktop has read. -/
theorem matchMicTurns_reads {intervals : List Interval} {duration : ℚ} {items : List Value} :
    ∀ {index : Nat} {turns : List TranscriptInputTurn} {suggestions : List TurnSuggestion},
      items.mapM TranscriptInputTurn.fromValue = some turns →
      matchMicTurns intervals duration index (collapseItems items) = .ok suggestions →
      suggestions = (turns.zipIdx index).filterMap (fun p =>
          suggestionOf intervals duration p.2 p.1) ∧
        ∀ turn ∈ turns, turn.speaker = some "Me" → 0 ≤ turn.start ∧ turn.start < turn.stop := by
  induction items with
  | nil =>
    intro index turns suggestions hturns h
    cases hturns
    rw [collapseItems] at h
    cases h
    exact ⟨rfl, by simp⟩
  | cons item items ih =>
    intro index turns suggestions hturns h
    rw [mapM_cons] at hturns
    simp only [Option.bind_eq_bind, Option.bind_eq_some_iff, Option.pure_def] at hturns
    obtain ⟨turn, hturn, rest, hrest, heq⟩ := hturns
    obtain rfl := Option.some.inj heq
    rw [collapseItems] at h
    simp only [matchMicTurns, bind_eq_ok] at h
    obtain ⟨suggestion, hsuggestion, others, hothers, heq⟩ := h
    obtain ⟨rfl, htimes⟩ := matchMicTurn_reads hturn hsuggestion
    obtain ⟨rfl, hall⟩ := ih hrest hothers
    refine ⟨?_, forall_mem_cons.mpr ⟨htimes, hall⟩⟩
    rw [← Except.ok.inj heq, zipIdx_cons, filterMap_cons]
    cases suggestionOf intervals duration index turn <;> rfl

/-- A turn as the projection shows it. -/
def shown (restored : Finset UInt32) (index : Nat) (turn : TranscriptInputTurn) : TranscriptTurn :=
  if turn.gated = some true ∧ UInt32.ofNat index ∉ restored then
    ⟨UInt32.ofNat index, none, none, turn.start, turn.stop, "", true⟩
  else ⟨UInt32.ofNat index, turn.speaker, turn.speaker, turn.start, turn.stop, turn.text, false⟩

/-- The projection of a transcript whose channels are told apart; a withheld turn is a
microphone turn. -/
theorem projectTurns_shows {restored : Finset UInt32} {turns : List TranscriptInputTurn} :
    ∀ {index : Nat} {presented : List TranscriptTurn},
      projectTurns false restored index turns = .ok presented →
      presented = (turns.zipIdx index).map (fun p => shown restored p.2 p.1) ∧
        ∀ turn ∈ turns, turn.gated = some true → turn.speaker = some "Me" := by
  induction turns with
  | nil =>
    intro index presented h
    cases h
    exact ⟨rfl, by simp⟩
  | cons turn turns ih =>
    intro index presented h
    simp only [projectTurns, bind_eq_ok] at h
    obtain ⟨projected, hprojected, others, hothers, heq⟩ := h
    obtain ⟨rfl, hgated⟩ := ih hothers
    simp only [projectTurn, bind_eq_ok, refuseIf_eq_ok] at hprojected
    obtain ⟨_, hvalid, _, -, hshown⟩ := hprojected
    have hfirst : projected = shown restored index turn := by
      unfold shown
      split at hshown
      · rename_i hwithheld
        rw [if_pos hwithheld]
        exact (Except.ok.inj hshown).symm
      · rename_i hwithheld
        rw [if_neg hwithheld]
        exact (Except.ok.inj hshown).symm
    refine ⟨?_, forall_mem_cons.mpr ⟨fun htrue => ?_, hgated⟩⟩
    · rw [← Except.ok.inj heq, zipIdx_cons, map_cons, hfirst]
    · unfold TranscriptInputTurn.invalid at hvalid
      simp only [Bool.or_eq_true, not_or] at hvalid
      have hspeaker := hvalid.2
      simpa [htrue] using hspeaker

/-! ## One turn -/

/-- What the intervals have of a turn. -/
def clipped (intervals : List StoredInterval) (turn : TranscriptMicTurn) : List StoredInterval :=
  intervals.filterMap (clip turn)

/-- The seconds of a cluster in a turn, not rounded. -/
def clusterSeconds (intervals : List StoredInterval) (turn : TranscriptMicTurn) (cluster : String) :
    ℚ :=
  unionSeconds (expectedRanges (clipped intervals turn) cluster)

/-- The suggestion that the worker writes about a turn. -/
def storedOf (intervals : List StoredInterval) (turn : TranscriptMicTurn) : StoredTurnSuggestion :=
  ⟨turn.sourceTurnIndex, (clustersOf (clipped intervals turn)).map fun cluster =>
    ⟨cluster, round6 (clusterSeconds intervals turn cluster)⟩⟩

/-- What a turn is projected to. -/
def projectedOf (intervals : List StoredInterval) (turn : TranscriptMicTurn) : SuggestionTurn :=
  ⟨turn.sourceTurnIndex, clustersOf (clipped intervals turn), intervalsOverlapInTurn intervals turn⟩

theorem mem_clipped {intervals : List StoredInterval} {turn : TranscriptMicTurn}
    {s : StoredInterval} :
    s ∈ clipped intervals turn ↔ ∃ interval ∈ intervals,
      max interval.start turn.start < min interval.stop turn.stop ∧
        s = ⟨max interval.start turn.start, min interval.stop turn.stop, interval.label⟩ := by
  unfold clipped clip
  rw [mem_filterMap]
  constructor
  · rintro ⟨interval, hinterval, hclip⟩
    dsimp only at hclip
    split at hclip
    · rename_i hlt
      exact ⟨interval, hinterval, hlt, (Option.some.inj hclip).symm⟩
    · cases hclip
  · rintro ⟨interval, hinterval, hlt, rfl⟩
    exact ⟨interval, hinterval, if_pos hlt⟩

theorem mem_clustersOf {intervals : List StoredInterval} {cluster : String} :
    cluster ∈ clustersOf intervals ↔ ∃ interval ∈ intervals, interval.label = cluster := by
  unfold clustersOf
  rw [mem_sortedSet, mem_map]

/-- The worker clips to the recording too, in which every interval lies. -/
theorem turnOverlaps_eq {intervals : List Interval} {duration : ℚ}
    (hinside : ∀ interval ∈ intervals, Inside duration interval) {turn : TranscriptMicTurn}
    (hstart : 0 ≤ turn.start) :
    turnOverlaps intervals duration turn.start turn.stop =
      (clipped intervals turn).map fun s => (s.label, (s.start, s.stop)) := by
  unfold turnOverlaps clipped
  rw [max_eq_right hstart, map_filterMap]
  split
  · apply filterMap_congr
    intro interval hinterval
    have hlow : max turn.start interval.start = max interval.start turn.start := max_comm _ _
    have hhigh : min (min duration turn.stop) interval.stop = min interval.stop turn.stop := by
      rw [min_comm, ← min_assoc, min_eq_left (hinside interval hinterval).stop_le]
    unfold overlapOf clip
    rw [hlow, hhigh]
    dsimp only
    split <;> rfl
  · rename_i hnone
    symm
    rw [filterMap_eq_nil_iff]
    intro interval hinterval
    have hle : min interval.stop turn.stop ≤ min duration turn.stop :=
      min_le_min_right _ (hinside interval hinterval).stop_le
    have hempty : ¬ min interval.stop turn.stop > max interval.start turn.start := fun hlt =>
      hnone ((le_max_right _ _).trans_lt (hlt.trans_le hle))
    unfold clip
    dsimp only
    rw [if_neg hempty]
    rfl

theorem presencesOf_eq (spans : List StoredInterval) :
    presencesOf (spans.map fun s => (s.label, (s.start, s.stop))) =
      (clustersOf spans).map fun cluster =>
        ⟨cluster, round6 (unionSeconds (expectedRanges spans cluster))⟩ := by
  unfold presencesOf clustersOf
  rw [map_map]
  apply map_congr_left
  intro cluster _
  have hranges : rangesOf (spans.map fun s => (s.label, (s.start, s.stop))) cluster =
      expectedRanges spans cluster := by
    unfold rangesOf expectedRanges
    rw [filter_map, map_map]
    rfl
  rw [hranges]
  rfl

/-! ### Reading the presences -/

theorem readPresence_eq {clusters : List String} {presences : List StoredPresence} :
    ∀ {actual : List (String × ℚ)}, (∀ p ∈ presences, p.cluster ∈ clusters) →
      (actual.map Prod.fst ++ presences.map StoredPresence.cluster).Nodup →
      readPresence clusters actual presences =
        if ∀ p ∈ presences, 0 < p.seconds then
          some (actual ++ presences.map fun p => (p.cluster, p.seconds)) else none := by
  induction presences with
  | nil =>
    intro actual _ _
    simp [readPresence]
  | cons p rest ih =>
    intro actual hknown hnodup
    have hfresh : p.cluster ∉ actual.map Prod.fst := by
      rw [nodup_append] at hnodup
      exact fun hmem => hnodup.2.2 _ hmem _ mem_cons_self rfl
    have hnext : ((actual ++ [(p.cluster, p.seconds)]).map Prod.fst ++
        rest.map StoredPresence.cluster).Nodup := by
      rw [map_append, append_assoc]
      exact hnodup
    unfold readPresence
    by_cases hpositive : 0 < p.seconds
    · rw [if_neg (by
        rintro (hunknown | hle | hseen)
        · exact hunknown (hknown p mem_cons_self)
        · exact absurd hle (not_le.mpr hpositive)
        · exact hfresh hseen),
        ih (fun q hq => hknown q (mem_cons_of_mem _ hq)) hnext]
      simp [hpositive]
    · rw [if_pos (.inr (.inl (not_lt.mp hpositive))), if_neg]
      intro hall
      exact hpositive (hall p mem_cons_self)

theorem lookup_map_pair {keys : List String} (f : String → ℚ) {key : String} (h : key ∈ keys) :
    (keys.map fun k => (k, f k)).lookup key = some (f key) := by
  induction keys with
  | nil => cases h
  | cons k rest ih =>
    rw [map_cons, lookup_cons]
    by_cases hk : key = k
    · rw [hk]
      simp
    · have hne : (key == k) = false := by simpa using hk
      rw [hne]
      exact ih ((mem_cons.mp h).resolve_left hk)

/-- The rounding of the worker is within the tolerance of the desktop. -/
theorem secondsHold_rounded (intervals : List StoredInterval) (turn : TranscriptMicTurn) :
    secondsHold (clipped intervals turn) ((clustersOf (clipped intervals turn)).map fun cluster =>
      (cluster, round6 (clusterSeconds intervals turn cluster))) = true := by
  unfold secondsHold
  rw [Bool.and_eq_true, decide_eq_true_eq, all_eq_true]
  refine ⟨length_map _, fun cluster hcluster => ?_⟩
  rw [lookup_map_pair _ hcluster]
  exact decide_eq_true (round6_near _)

/-- A turn is projected unless some presence was rounded away. -/
theorem projectSuggestion_eq {document : StoredSuggestion} {turns : List TranscriptMicTurn}
    {seen : List UInt32} {turn : TranscriptMicTurn}
    (hturn : microphoneTurn turns turn.sourceTurnIndex = some turn)
    (hseen : turn.sourceTurnIndex ∉ seen) :
    projectSuggestion document turns seen (storedOf document.intervals turn) =
      if ∀ cluster ∈ clustersOf (clipped document.intervals turn),
          0 < round6 (clusterSeconds document.intervals turn cluster) then
        some (projectedOf document.intervals turn) else none := by
  have hknown : ∀ cluster ∈ clustersOf (clipped document.intervals turn),
      cluster ∈ clustersOf document.intervals := by
    intro cluster hcluster
    obtain ⟨s, hs, rfl⟩ := mem_clustersOf.mp hcluster
    obtain ⟨interval, hinterval, -, rfl⟩ := mem_clipped.mp hs
    exact mem_clustersOf.mpr ⟨interval, hinterval, rfl⟩
  have hnodup : (clustersOf (clipped document.intervals turn)).Nodup := nodup_sortedSet _
  have hfew : ¬ (clustersOf (clipped document.intervals turn)).length >
      (clustersOf document.intervals).length :=
    not_lt.mpr (subperm_of_subset hnodup hknown).length_le
  have hread := @readPresence_eq (clustersOf document.intervals)
    (storedOf document.intervals turn).speakerPresence []
    (by
      intro p hp
      obtain ⟨cluster, hcluster, rfl⟩ := mem_map.mp hp
      exact hknown cluster hcluster)
    (by
      unfold storedOf
      rw [map_map]
      simpa [Function.comp_def] using hnodup)
  unfold projectSuggestion
  change (microphoneTurn turns turn.sourceTurnIndex >>= _) = _
  rw [hturn]
  dsimp only [Option.bind_eq_bind, Option.bind_some]
  rw [if_neg (by
    rintro (hmem | hlong)
    · exact hseen hmem
    · unfold storedOf at hlong
      rw [length_map] at hlong
      exact hfew hlong), hread]
  have hall : (∀ p ∈ (storedOf document.intervals turn).speakerPresence, 0 < p.seconds) ↔
      ∀ cluster ∈ clustersOf (clipped document.intervals turn),
        0 < round6 (clusterSeconds document.intervals turn cluster) := by
    unfold storedOf
    rw [forall_mem_map]
  simp only [hall]
  split
  · have hactual : ([] ++ (storedOf document.intervals turn).speakerPresence.map fun p =>
        (p.cluster, p.seconds)) = (clustersOf (clipped document.intervals turn)).map fun cluster =>
          (cluster, round6 (clusterSeconds document.intervals turn cluster)) := by
      unfold storedOf
      rw [nil_append, map_map]
      rfl
    have hkeys : ((clustersOf (clipped document.intervals turn)).map fun cluster =>
        (cluster, round6 (clusterSeconds document.intervals turn cluster))).map Prod.fst =
          clustersOf (clipped document.intervals turn) := by
      rw [map_map]
      simp [Function.comp_def]
    have hsorted : sortedSet (clustersOf (clipped document.intervals turn)) =
        clustersOf (clipped document.intervals turn) := sortedSet_congr fun _ => mem_sortedSet
    rw [hactual, Option.bind_some]
    change (if secondsHold (clipped document.intervals turn) _ = true then _ else none) = _
    rw [secondsHold_rounded, if_pos rfl, hkeys, hsorted]
    rfl
  · rfl

/-! ## All turns -/

/-- No presence of the turn is rounded away. -/
def Lasting (intervals : List StoredInterval) (turn : TranscriptMicTurn) : Prop :=
  ∀ cluster ∈ clustersOf (clipped intervals turn), 0 < round6 (clusterSeconds intervals turn cluster)

instance (intervals : List StoredInterval) (turn : TranscriptMicTurn) :
    Decidable (Lasting intervals turn) :=
  inferInstanceAs (Decidable (∀ cluster ∈ clustersOf (clipped intervals turn),
    0 < round6 (clusterSeconds intervals turn cluster)))

theorem projectSuggestions_eq {document : StoredSuggestion} {turns : List TranscriptMicTurn}
    {mics : List TranscriptMicTurn} :
    ∀ {seen : List UInt32},
      (∀ turn ∈ mics, microphoneTurn turns turn.sourceTurnIndex = some turn) →
      (mics.map TranscriptMicTurn.sourceTurnIndex).Nodup →
      (∀ turn ∈ mics, turn.sourceTurnIndex ∉ seen) →
      projectSuggestions document turns seen (mics.map (storedOf document.intervals)) =
        if ∀ turn ∈ mics, Lasting document.intervals turn then
          some (mics.map (projectedOf document.intervals)) else none := by
  induction mics with
  | nil =>
    intro seen _ _ _
    simp [projectSuggestions]
  | cons turn rest ih =>
    intro seen hturns hnodup hseen
    rw [map_cons, nodup_cons] at hnodup
    have hfirst := @projectSuggestion_eq document _ _ _ (hturns turn mem_cons_self)
      (hseen turn mem_cons_self)
    have hrest := @ih (turn.sourceTurnIndex :: seen)
      (fun t ht => hturns t (mem_cons_of_mem _ ht)) hnodup.2 (by
        intro t ht hmem
        rcases mem_cons.mp hmem with heq | hmem
        · exact hnodup.1 (mem_map.mpr ⟨t, ht, heq⟩)
        · exact hseen t (mem_cons_of_mem _ ht) hmem)
    rw [map_cons, projectSuggestions, hfirst]
    change ((if Lasting document.intervals turn then _ else none) >>= _) = _
    by_cases hlasting : Lasting document.intervals turn
    · rw [if_pos hlasting, Option.bind_eq_bind, Option.bind_some]
      change (projectSuggestions document turns (turn.sourceTurnIndex :: seen)
        (rest.map (storedOf document.intervals)) >>= _) = _
      rw [hrest]
      by_cases hall : ∀ t ∈ rest, Lasting document.intervals t
      · rw [if_pos hall, if_pos (forall_mem_cons.mpr ⟨hlasting, hall⟩)]
        rfl
      · rw [if_neg hall, if_neg fun h => hall (forall_mem_cons.mp h).2]
        rfl
    · rw [if_neg hlasting, if_neg fun h => hlasting (h turn mem_cons_self)]
      rfl

section Turns

variable {turns : List TranscriptMicTurn}

/-- The microphone turns have times, and no two turns have one index. -/
structure Indexed (turns : List TranscriptMicTurn) : Prop where
  timed : ∀ turn ∈ turns, turn.isMicrophoneTurn = true → 0 ≤ turn.start ∧ turn.start < turn.stop
  nodup : (turns.map TranscriptMicTurn.sourceTurnIndex).Nodup

theorem Indexed.usable_iff (h : Indexed turns) {turn : TranscriptMicTurn} (hmem : turn ∈ turns) :
    usable turn = turn.isMicrophoneTurn := by
  unfold usable
  cases hmic : turn.isMicrophoneTurn with
  | false => rfl
  | true =>
    obtain ⟨hstart, hstop⟩ := h.timed turn hmem hmic
    simp [hstart, hstop]

theorem Indexed.filter_usable (h : Indexed turns) :
    turns.filter usable = turns.filter (·.isMicrophoneTurn) :=
  filter_congr fun _ hmem => h.usable_iff hmem

theorem Indexed.nodup_mics (h : Indexed turns) :
    ((turns.filter (·.isMicrophoneTurn)).map TranscriptMicTurn.sourceTurnIndex).Nodup :=
  h.nodup.sublist (filter_sublist.map _)

theorem Indexed.microphoneTurnCount (h : Indexed turns) :
    microphoneTurnCount turns = (turns.filter (·.isMicrophoneTurn)).length := by
  unfold SpeakerSuggestion.microphoneTurnCount
  rw [h.filter_usable, h.nodup_mics.dedup, length_map]

/-- The turn of an index is the one microphone turn that has it. -/
theorem Indexed.microphoneTurn (h : Indexed turns) {turn : TranscriptMicTurn}
    (hmem : turn ∈ turns.filter (·.isMicrophoneTurn)) :
    microphoneTurn turns turn.sourceTurnIndex = some turn := by
  obtain ⟨hturn, hmic⟩ := mem_filter.mp hmem
  unfold SpeakerSuggestion.microphoneTurn
  have honly : ∀ other ∈ turns.filter fun other => usable other &&
      other.sourceTurnIndex == turn.sourceTurnIndex, other = turn := by
    intro other hother
    obtain ⟨hin, htest⟩ := mem_filter.mp hother
    rw [Bool.and_eq_true, beq_iff_eq] at htest
    exact inj_on_of_nodup_map h.nodup hin hturn htest.2
  have hthere : turn ∈ turns.filter fun other => usable other &&
      other.sourceTurnIndex == turn.sourceTurnIndex := by
    rw [mem_filter, h.usable_iff hturn, hmic]
    simp [hturn]
  rw [List.getLast?_eq_some_getLast (ne_nil_of_mem hthere)]
  exact congrArg some (honly _ (getLast_mem _))

end Turns

/-! ## The document, read back -/

theorem mapM_map_some {α β : Type} {write : α → Value} {read : Value → Option β} {f : α → β}
    {l : List α} (h : ∀ a ∈ l, read (write a) = some (f a)) :
    (l.map write).mapM read = some (l.map f) := by
  induction l with
  | nil => rfl
  | cons a l ih =>
    rw [map_cons, mapM_cons, h a mem_cons_self,
      ih fun b hb => h b (mem_cons_of_mem _ hb)]
    rfl

theorem storedIntervalFromValue_intervalValue (interval : Interval) :
    storedIntervalFromValue (intervalValue interval) = some interval := by
  unfold storedIntervalFromValue intervalValue
  rw [closedFields_bind (by rfl)]
  rfl

theorem storedPresence_presenceValue (presence : Presence) :
    StoredPresence.fromValue (presenceValue presence) =
      some ⟨presence.cluster, presence.seconds⟩ := by
  unfold StoredPresence.fromValue presenceValue
  rw [closedFields_bind (by rfl)]
  rfl

/-- A suggestion of the worker as the desktop reads it. -/
def storedTurn (turn : TurnSuggestion) : StoredTurnSuggestion :=
  ⟨UInt32.ofNat turn.sourceTurnIndex, turn.speakerPresence.map fun presence =>
    ⟨presence.cluster, presence.seconds⟩⟩

theorem storedTurn_turnValue {turn : TurnSuggestion} (h : turn.sourceTurnIndex < UInt32.size) :
    StoredTurnSuggestion.fromValue (turnValue turn) = some (storedTurn turn) := by
  have hpresence := mapM_map_some (l := turn.speakerPresence)
    fun presence _ => storedPresence_presenceValue presence
  have hindex : (Serde.fromValue (natural turn.sourceTurnIndex) : Option UInt32) =
      some (UInt32.ofNat turn.sourceTurnIndex) := if_pos h
  unfold StoredTurnSuggestion.fromValue turnValue
  rw [closedFields_bind (by rfl)]
  change ((Serde.fromValue (natural turn.sourceTurnIndex) : Option UInt32) >>= fun index =>
    (turn.speakerPresence.map presenceValue).mapM StoredPresence.fromValue >>= fun presence =>
      some (StoredTurnSuggestion.mk index presence)) = _
  rw [hindex, hpresence]
  rfl

section Stored

variable {B : Type} [PythonText B]

/-- The document of the worker as the desktop reads it. -/
def storedDocument (suggested : Suggested B) (duration : ℚ) (intervals : List Interval)
    (turns : List TurnSuggestion) : StoredSuggestion where
  schema := "speaker-diarization-suggestion/1"
  status := if intervals = [] then "no-speakers" else "review-required"
  source := ⟨suggested.sourceTranscriptSha256, Platform.sha256 suggested.microphone,
    Platform.sha256 suggested.executable, Platform.sha256 suggested.model,
    Platform.sha256 suggested.output⟩
  durationSeconds := duration
  anonymousClusterCount := UInt64.ofNat (intervals.map Spans.Span.label).dedup.length
  intervals := intervals
  micTurnSuggestions := turns.map storedTurn

theorem storedDocument_suggestionValue {suggested : Suggested B} {duration : ℚ}
    {intervals : List Interval} {turns : List TurnSuggestion}
    (hcount : (intervals.map Spans.Span.label).dedup.length < UInt64.size)
    (hturns : ∀ turn ∈ turns, turn.sourceTurnIndex < UInt32.size) :
    StoredSuggestion.fromValue (suggestionValue suggested duration intervals turns) =
      some (storedDocument suggested duration intervals turns) := by
  have hintervals := mapM_map_some (l := intervals) (f := id)
    fun interval _ => storedIntervalFromValue_intervalValue interval
  have hstored := mapM_map_some (l := turns) fun turn hturn => storedTurn_turnValue (hturns turn hturn)
  have hclusters : (Serde.fromValue (natural (intervals.map Spans.Span.label).dedup.length) :
      Option UInt64) = some (UInt64.ofNat (intervals.map Spans.Span.label).dedup.length) :=
    if_pos hcount
  rw [map_id] at hintervals
  unfold StoredSuggestion.fromValue suggestionValue
  rw [closedFields_bind (by rfl)]
  change ((Serde.fromValue (natural (intervals.map Spans.Span.label).dedup.length) :
      Option UInt64) >>= fun count =>
    (intervals.map intervalValue).mapM storedIntervalFromValue >>= fun read =>
      (turns.map turnValue).mapM StoredTurnSuggestion.fromValue >>= fun suggestions =>
        some (StoredSuggestion.mk _ _ _ _ count read suggestions)) = _
  rw [hclusters, hintervals, hstored]
  rfl

end Stored

/-! ## The checks of the document -/

theorem validCluster_clusterName {place : Nat} (h : place < maxClusters) :
    validCluster (clusterName place) = true := by
  have hall : ∀ place < maxClusters, validCluster (clusterName place) = true := by
    decide +kernel
  exact hall place h

theorem length_dedup_eq (intervals : List StoredInterval) :
    (intervals.map Spans.Span.label).dedup.length = (clustersOf intervals).length :=
  (perm_insertionSort _ _).length_eq.symm

/-- The clusters of the intervals of a parsed output. -/
theorem clustersOf_parsed {document : Value} {duration : ℚ} {intervals : List Interval}
    (h : parseDiarizerDocument document duration = .ok intervals) :
    clustersOf intervals = (List.range (speakerKeys document).length).map clusterName := by
  obtain ⟨hspeakers, -, rfl, -⟩ := parseDiarizerDocument_eq_ok h
  apply clusters_eq (nodup_sortedSet _) hspeakers
  intro label
  rw [map_map, mem_map]
  constructor
  · rintro ⟨segment, hsegment, rfl⟩
    exact ⟨segment.label, mem_sortedSet.mpr (mem_map_of_mem hsegment), rfl⟩
  · rintro ⟨key, hkey, rfl⟩
    obtain ⟨segment, hsegment, rfl⟩ := mem_map.mp (mem_sortedSet.mp hkey)
    exact ⟨segment, hsegment, rfl⟩

theorem clusterNames_zipIdx (count : Nat) :
    ((List.range count).map clusterName).zipIdx.all
      (fun (cluster, index) => cluster == "cluster-" ++ toString (index + 1)) = true := by
  rw [all_eq_true]
  rintro ⟨cluster, index⟩ hmem
  rw [mem_zipIdx_iff_getElem?, List.getElem?_map] at hmem
  obtain ⟨place, hplace, rfl⟩ := Option.map_eq_some_iff.mp hmem
  rw [List.getElem?_eq_some_iff] at hplace
  obtain ⟨hlt, hplace⟩ := hplace
  rw [getElem_range] at hplace
  change index = place at hplace
  subst hplace
  exact beq_self_eq_true _

section Checks

variable {B : Type} [PythonText B] {suggested : Suggested B} {output : Value} {duration : ℚ}
  {intervals : List Interval} {turns : List TurnSuggestion}

theorem clustersHold_stored (h : parseDiarizerDocument output duration = .ok intervals) :
    clustersHold (storedDocument suggested duration intervals turns) = true ∧
      (intervals.map Spans.Span.label).dedup.length ≤ maxClusters := by
  obtain ⟨hspeakers, -, -, -⟩ := parseDiarizerDocument_eq_ok h
  have hclusters := clustersOf_parsed h
  have hlength : (clustersOf intervals).length ≤ maxClusters := by
    rw [hclusters, length_map, length_range]
    exact hspeakers
  have hcount : (UInt64.ofNat (intervals.map Spans.Span.label).dedup.length).toNat =
      (clustersOf intervals).length := by
    rw [length_dedup_eq]
    exact UInt64.toNat_ofNat_of_lt' (hlength.trans_lt (by decide))
  refine ⟨?_, by rw [length_dedup_eq]; exact hlength⟩
  have hstatus : (storedDocument suggested duration intervals turns).status = "review-required" ↔
      clustersOf intervals ≠ [] := by
    unfold storedDocument
    dsimp only
    cases intervals with
    | nil =>
      have hnone : clustersOf ([] : List Interval) = [] := rfl
      rw [if_pos rfl, hnone]
      simp
    | cons interval rest =>
      have hmem : interval.label ∈ clustersOf (interval :: rest) :=
        mem_clustersOf.mpr ⟨interval, mem_cons_self, rfl⟩
      rw [if_neg (cons_ne_nil _ _)]
      exact iff_of_true rfl (ne_nil_of_mem hmem)
  unfold clustersHold
  simp only [Bool.and_eq_true, decide_eq_true_eq]
  refine ⟨⟨⟨hcount.symm, hlength⟩, ?_⟩, hstatus⟩
  change (clustersOf intervals).zipIdx.all _ = true
  rw [hclusters]
  exact clusterNames_zipIdx _

theorem intervals_hold (h : parseDiarizerDocument output duration = .ok intervals) :
    intervals.all (intervalHolds duration) = true := by
  obtain ⟨hspeakers, -, -, hinside⟩ := parseDiarizerDocument_eq_ok h
  rw [all_eq_true]
  intro interval hinterval
  obtain ⟨hnonneg, hlt, hle⟩ := hinside interval hinterval
  have hlabel : interval.label ∈ clustersOf intervals := mem_clustersOf.mpr ⟨interval, hinterval, rfl⟩
  rw [clustersOf_parsed h, mem_map] at hlabel
  obtain ⟨place, hplace, hname⟩ := hlabel
  have hvalid : validCluster interval.label = true := by
    rw [← hname]
    exact validCluster_clusterName ((mem_range.mp hplace).trans_le hspeakers)
  unfold intervalHolds
  rw [decide_eq_true hnonneg, decide_eq_true hlt, decide_eq_true (hlt.trans_le hle),
    decide_eq_true hle, hvalid]
  rfl

theorem headerHolds_stored (h : parseDiarizerDocument output duration = .ok intervals)
    (hduration : 0 < duration ∧ duration ≤ maxDurationSeconds)
    (htranscript : validSha256 suggested.sourceTranscriptSha256 = true)
    (hmicrophone : Platform.sha256 suggested.microphone = suggested.microphoneAudioSha256) :
    headerHolds (storedDocument suggested duration intervals turns)
      suggested.sourceTranscriptSha256 suggested.microphoneAudioSha256 = true := by
  obtain ⟨-, hintervals, -, -⟩ := parseDiarizerDocument_eq_ok h
  have hfew := (@clustersHold_stored B _ suggested output duration intervals turns h).2
  have hcount : (UInt64.ofNat (intervals.map Spans.Span.label).dedup.length).toNat ≤ maxClusters :=
    (UInt64.toNat_ofNat_of_lt' (hfew.trans_lt (by decide))).trans_le hfew
  have hvalid : validSha256 suggested.microphoneAudioSha256 = true := by
    rw [← hmicrophone]
    exact Platform.validSha256_sha256 _
  have hmany : intervals.length ≤ SpeakerSuggestion.maxIntervals := hintervals
  unfold headerHolds storedDocument
  dsimp only
  rw [hmicrophone, htranscript, hvalid, decide_eq_true hduration.1.le, decide_eq_true hduration.2,
    decide_eq_true hduration.1.ne', decide_eq_true hmany, decide_eq_true hcount]
  split <;> simp

end Checks

end YawnApp.Desktop.SpeakerSuggestion
