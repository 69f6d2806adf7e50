import YawnApp.Desktop.SpeakerAgreement
import YawnApp.SessionCore.LibraryRead

set_option autoImplicit false

/-!
# The verdicts on a base transcript

Three programs check the bytes of a base transcript: the desktop before it admits a result
(`parse_transcript_projection_with`), the library before it shows or searches the turns
(`validate_transcript`), and the walker of restored views (`inspect_base_transcript`).  The
first two read a closed record, the third the plain document.

What the desktop admits is admitted by the other two unless the source is empty, the health
of the capture is not an object, or a turn has `gated` as `null`.
-/

namespace YawnApp.Desktop.SpeakerSuggestion

open YawnApp.Foundation YawnApp.SessionCore YawnApp.SessionCore.LibraryRead TranscriptInputTurn Value List

/-! ## One verdict -/

/-- A turn as the desktop shows it and as the library stores it. -/
structure SameTurn (shown : TranscriptTurn) (stored : StoredTurn) : Prop where
  index : shown.sourceTurnIndex = stored.index
  withheld : shown.withheld = stored.gated
  text : shown.withheld = false → shown.text = stored.text

/-- The desktop and the library show the same turns when `restored` are shown. -/
structure SameShown {B : Type} [Platform B] (bytes : B) (transcript : Transcript)
    (withheld : Finset UInt32) (turns : Nat) (restored : List UInt32) (shown : List TranscriptTurn)
    (stored : List StoredTurn) : Prop where
  desktop : parseTranscriptProjectionWith bytes restored.toFinset = .ok shown
  library : validateTranscript transcript restored = .ok stored
  length_shown : shown.length = turns
  length_stored : stored.length = turns
  withheld_shown : ∀ index, index ∈ (shown.filter (·.withheld)).map TranscriptTurn.sourceTurnIndex ↔
    index ∈ withheld ∧ index ∉ restored
  withheld_stored : (stored.filter (·.gated)).map StoredTurn.index =
    (shown.filter (·.withheld)).map TranscriptTurn.sourceTurnIndex
  texts : (shown.filter (!·.withheld)).map TranscriptTurn.text =
    (stored.filter (!·.gated)).map StoredTurn.text

/-- The library and the walker admit the bytes too, all three with the same turns and the
same withheld ones, whichever of these are restored. -/
def OneVerdict {B : Type} [Platform B] (bytes : B) : Prop :=
  ∃ (document : Value) (items : List Value) (withheld : Finset UInt32) (transcript : Transcript),
    valueFromSlice bytes = some document ∧
    (document.get "turns").bind Value.asArray = some items ∧
    inspectBaseTranscript document = .ok withheld ∧
    (JsonText.readText bytes).bind Transcript.fromValue = some transcript ∧
    ∀ restored : List UInt32, (∀ index ∈ restored, index ∈ withheld) →
      ∃ shown stored, SameShown bytes transcript withheld items.length restored shown stored

/-- What the library and the walker ask of a document beyond what the desktop asks. -/
structure Complete (document : Value) : Prop where
  source : document.get "source" ≠ some (.string "")
  captureHealth : (document.get "capture_health").any Value.isObject = true
  gated : ∀ items, document.get "turns" = some (.array items) →
    ∀ item ∈ items, item.get "gated" ≠ some .null

/-! ## One turn -/

/-- The turn as the library reads it. -/
def libraryTurn (turn : TranscriptInputTurn) : Turn :=
  ⟨turn.start, turn.stop, turn.speaker, turn.text, turn.gated, turn.gateScore, turn.gateReason⟩

variable {unattributed : Bool} {turn : TranscriptInputTurn}

theorem turn_fromValue {item : Value} (h : fromValue item = some turn) :
    Turn.fromValue item = some (libraryTurn turn) := by
  unfold fromValue at h
  simp only [Option.bind_eq_bind, Option.bind_eq_some_iff, Option.pure_def] at h
  obtain ⟨fs, hclosed, start, hstart, stop, hstop, speaker, hspeaker, text, htext, gated, hgated,
    score, hscore, reason, hreason, heq⟩ := h
  obtain rfl := Option.some.inj heq
  unfold numberField at hstart hstop
  have hscore' : LibraryRead.optionalNumber fs "gate_score" = some score := hscore
  unfold Turn.fromValue
  rw [hclosed, Option.bind_eq_bind, Option.bind_some, hstart, hstop, hspeaker, htext, hgated,
    hscore', hreason]
  rfl

/-- The library refuses the turns that the desktop refuses. -/
theorem checkTurn_libraryTurn {attribution : String}
    (hattribution : attribution ∈ ["channel", "none"])
    (hvalid : ¬ turn.invalid (attribution == "none") = true) :
    checkTurn attribution (libraryTurn turn) = .ok () := by
  unfold checkTurn libraryTurn
  rw [refuseIf_eq_ok]
  unfold invalid at hvalid
  rcases mem_cons.mp hattribution with rfl | hnone
  · simp only [Bool.or_eq_true, not_or] at hvalid
    obtain ⟨⟨hbefore, hgate⟩, hgated⟩ := hvalid
    simp only [not_or]
    simp at hbefore hgate hgated ⊢
    exact ⟨hbefore.1.1.1.1, hbefore.1.1.1.2, hbefore.1.1.2, hbefore.1.2, hbefore.2, hgated, hgate⟩
  · obtain rfl := mem_singleton.mp hnone
    simpa [not_or, and_assoc] using hvalid

section Fields

variable {fs : List (String × Value)}

theorem gateFieldPresent_collapse (hnames : (fs.map Prod.fst).Nodup) (name : String) :
    gateFieldPresent (collapse (.object fs)) name =
      (fieldOf fs name).any fun v => !v.isNull := by
  unfold gateFieldPresent
  rw [get_collapse hnames]
  cases fieldOf fs name with
  | none => rfl
  | some v => cases v <;> simp [collapse, isNull]

theorem optionalNumber_present {name : String} {o : Option ℚ}
    (h : optionalNumber fs name = some o) :
    ((fieldOf fs name).any fun v => !v.isNull) = o.isSome := by
  unfold optionalNumber at h
  split at h
  · rename_i hfield
    cases h
    rw [hfield]
    rfl
  · rename_i hfield
    cases h
    rw [hfield]
    rfl
  · rename_i v hnull hfield
    obtain ⟨q, -, rfl⟩ := Option.map_eq_some_iff.mp h
    rw [hfield]
    cases v with
    | null => exact absurd rfl (hnull)
    | _ => rfl

theorem optionalField_present {α : Type} [Serde α] {name : String} {o : Option α}
    (h : optionalField fs name = some o) :
    ((fieldOf fs name).any fun v => !v.isNull) = o.isSome := by
  unfold optionalField readNullable at h
  split at h
  · rename_i hfield
    cases h
    rw [hfield]
    rfl
  · rename_i hfield
    cases h
    rw [hfield]
    rfl
  · rename_i v hnull hfield
    obtain ⟨a, -, rfl⟩ := Option.map_eq_some_iff.mp h
    rw [hfield]
    cases v with
    | null => exact absurd rfl (hnull)
    | _ => rfl

end Fields

/-- The walker reads a turn of the desktop alike, but for a `gated` that is `null`. -/
theorem inspectTurn_collapse {item : Value} (h : fromValue item = some turn)
    (hvalid : ¬ turn.invalid unattributed = true) : inspectTurn item.collapse =
      if item.get "gated" = some .null then .error .malformed
      else .ok (turn.gated == some true) := by
  unfold fromValue at h
  simp only [Option.bind_eq_bind, Option.bind_eq_some_iff, Option.pure_def] at h
  obtain ⟨fs, hclosed, start, hstart, stop, hstop, speaker, -, text, htext, gated, hgated,
    score, hscore, reason, hreason, heq⟩ := h
  obtain rfl := Option.some.inj heq
  obtain ⟨rfl, hnames⟩ := closedFields_some hclosed
  -- the checks of the walker are among those of the desktop
  have hchecks : ∀ withheld : Bool, (gated == some true) = withheld →
      refuseIf (start < 0 ∨ stop < start ∨ text.utf8ByteSize > 100000 ∨
        ((score.isSome = true ∨ reason.isSome = true) ∧ ¬ withheld = true))
        TranscriptArtifactError.malformed = .ok () := by
    intro withheld hwithheld
    rw [refuseIf_eq_ok]
    unfold invalid at hvalid
    simp only [Bool.or_eq_true, not_or] at hvalid
    obtain ⟨⟨⟨⟨⟨⟨hlow, hhigh⟩, hlong⟩, -⟩, -⟩, hgate⟩, -⟩ := hvalid
    simp at hlow hhigh hlong hgate hwithheld
    rintro (hneg | hless | hlarge | ⟨hpresent, hnot⟩)
    · exact absurd hneg (not_lt.mpr hlow)
    · exact absurd hless (not_lt.mpr hhigh)
    · exact absurd hlarge (not_lt.mpr hlong)
    · apply hnot
      rw [← hwithheld, hgate hpresent]
      rfl
  have hgatedField : (object fs).get "gated" = fieldOf fs "gated" := rfl
  unfold inspectTurn
  rw [number_of_field hnames hstart, number_of_field hnames hstop, string_of_required hnames htext,
    gateFieldPresent_collapse hnames, gateFieldPresent_collapse hnames,
    optionalNumber_present hscore, optionalField_present hreason, get_collapse hnames "gated",
    refuseIf_of_not (by simp [collapse, isObject]), hgatedField]
  simp only [ok_bind, orRefuse_some]
  unfold optionalField readNullable at hgated
  cases hfield : fieldOf fs "gated" with
  | none =>
    rw [hfield] at hgated
    cases hgated
    rw [if_neg (by simp)]
    change (refuseIf _ _ >>= fun _ => _) = _
    rw [hchecks false rfl]
    rfl
  | some v =>
    rw [hfield] at hgated
    cases v with
    | null =>
      rw [if_pos rfl]
      rfl
    | bool b =>
      cases hgated
      rw [if_neg (by simp)]
      change (refuseIf _ _ >>= fun _ => _) = _
      rw [hchecks b (by cases b <;> rfl)]
      cases b <;> rfl
    | natural | decimal | string | array | object => cases hgated

/-- A turn that may be restored is shown by the desktop. -/
theorem projectTurn_admitted {unattributed : Bool} {restored : Finset UInt32} {index : Nat}
    {turn : TranscriptInputTurn} (hvalid : ¬ turn.invalid unattributed = true)
    (hrestored : UInt32.ofNat index ∈ restored → turn.gated = some true) :
    ∃ shown, projectTurn unattributed restored index turn = .ok shown ∧
      shown.sourceTurnIndex = UInt32.ofNat index ∧
      shown.withheld = (turn.gated == some true && decide (UInt32.ofNat index ∉ restored)) ∧
      (shown.withheld = false → shown.text = turn.text) := by
  unfold projectTurn
  dsimp only
  rw [refuseIf_of_not hvalid, ok_bind, refuseIf_of_not fun h => h.2 (hrestored h.1), ok_bind]
  by_cases hwithheld : turn.gated = some true ∧ UInt32.ofNat index ∉ restored
  · rw [if_pos hwithheld]
    exact ⟨_, rfl, rfl, by simp [hwithheld], by simp⟩
  · rw [if_neg hwithheld]
    refine ⟨_, rfl, rfl, ?_, fun _ => rfl⟩
    by_cases hgated : turn.gated = some true
    · simpa [hgated] using hwithheld
    · simp [hgated]

theorem projectTurn_valid {restored : Finset UInt32} {index : Nat} {shown : TranscriptTurn}
    (h : projectTurn unattributed restored index turn = .ok shown) :
    ¬ turn.invalid unattributed = true := by
  unfold projectTurn at h
  simp only [bind_eq_ok, refuseIf_eq_ok] at h
  obtain ⟨_, hvalid, _⟩ := h
  exact hvalid

/-! ## All turns -/

/-- The withheld turns, numbered from `index` on. -/
def withheldFrom (index : Nat) (turns : List TranscriptInputTurn) : Finset UInt32 :=
  (((turns.zipIdx index).filter fun p => p.1.gated == some true).map fun p =>
    UInt32.ofNat p.2).toFinset

theorem mem_withheldFrom {index : Nat} {turns : List TranscriptInputTurn} {i : UInt32} :
    i ∈ withheldFrom index turns ↔
      ∃ p ∈ turns.zipIdx index, p.1.gated = some true ∧ UInt32.ofNat p.2 = i := by
  unfold withheldFrom
  simp only [mem_toFinset, mem_map, mem_filter, beq_iff_eq, and_assoc]

theorem projectTurns_valid {restored : Finset UInt32} {turns : List TranscriptInputTurn} :
    ∀ {index : Nat} {shown : List TranscriptTurn},
      projectTurns unattributed restored index turns = .ok shown →
      ∀ turn ∈ turns, ¬ turn.invalid unattributed = true := by
  induction turns with
  | nil => simp
  | cons turn turns ih =>
    intro index shown h
    simp only [projectTurns, bind_eq_ok] at h
    obtain ⟨_, hturn, _, hrest, -⟩ := h
    exact forall_mem_cons.mpr ⟨projectTurn_valid hturn, ih hrest⟩

/-- The walker finds the withheld turns of a transcript none of whose turns has a `gated`
that is `null`. -/
theorem inspectTurns_collapse {items : List Value} :
    ∀ {index : Nat} {turns : List TranscriptInputTurn},
      items.mapM fromValue = some turns →
      (∀ turn ∈ turns, ¬ turn.invalid unattributed = true) →
      (∀ item ∈ items, item.get "gated" ≠ some .null) →
      inspectTurns index (collapseItems items) = .ok (withheldFrom index turns) := by
  induction items with
  | nil =>
    intro index turns hturns _ _
    cases hturns
    rfl
  | cons item items ih =>
    intro index turns hturns hvalid hnull
    rw [mapM_cons] at hturns
    simp only [Option.bind_eq_bind, Option.bind_eq_some_iff, Option.pure_def] at hturns
    obtain ⟨turn, hturn, rest, hrest, heq⟩ := hturns
    obtain rfl := Option.some.inj heq
    rw [forall_mem_cons] at hvalid hnull
    rw [collapseItems, inspectTurns, inspectTurn_collapse hturn hvalid.1, if_neg hnull.1,
      ok_bind, ih hrest hvalid.2 hnull.2, ok_bind]
    have hsplit : withheldFrom index (turn :: rest) =
        if turn.gated == some true then
          insert (UInt32.ofNat index) (withheldFrom (index + 1) rest)
        else withheldFrom (index + 1) rest := by
      unfold withheldFrom
      rw [zipIdx_cons, filter_cons]
      split
      · rw [map_cons, toFinset_cons]
      · rfl
    rw [hsplit]
    rfl

/-- A `null` stops the walker. -/
theorem not_null_of_inspectTurns {items : List Value} :
    ∀ {index : Nat} {turns : List TranscriptInputTurn} {withheld : Finset UInt32},
      items.mapM fromValue = some turns →
      (∀ turn ∈ turns, ¬ turn.invalid unattributed = true) →
      inspectTurns index (collapseItems items) = .ok withheld →
      ∀ item ∈ items, item.get "gated" ≠ some .null := by
  induction items with
  | nil => simp
  | cons item items ih =>
    intro index turns withheld hturns hvalid h
    rw [mapM_cons] at hturns
    simp only [Option.bind_eq_bind, Option.bind_eq_some_iff, Option.pure_def] at hturns
    obtain ⟨turn, hturn, rest, hrest, heq⟩ := hturns
    obtain rfl := Option.some.inj heq
    rw [forall_mem_cons] at hvalid
    rw [collapseItems, inspectTurns, inspectTurn_collapse hturn hvalid.1] at h
    by_cases hnull : item.get "gated" = some .null
    · rw [if_pos hnull] at h
      cases h
    · rw [if_neg hnull] at h
      simp only [ok_bind, bind_eq_ok] at h
      obtain ⟨_, hothers, -⟩ := h
      exact forall_mem_cons.mpr ⟨hnull, ih hrest hvalid.2 hothers⟩

/-- The desktop and the library show the same turns. -/
theorem turns_agree {attribution : String} (hattribution : attribution ∈ ["channel", "none"])
    {restored : List UInt32} {turns : List TranscriptInputTurn} :
    ∀ {index visibleIndex : Nat},
      (∀ turn ∈ turns, ¬ turn.invalid (attribution == "none") = true) →
      (∀ p ∈ turns.zipIdx index, UInt32.ofNat p.2 ∈ restored → p.1.gated = some true) →
      ∃ shown stored,
        projectTurns (attribution == "none") restored.toFinset index turns = .ok shown ∧
        validateTurns attribution restored index visibleIndex (turns.map libraryTurn) = .ok stored ∧
        List.Forall₂ SameTurn shown stored ∧
        shown.map (fun turn => (turn.sourceTurnIndex, turn.withheld)) =
          (turns.zipIdx index).map fun p => (UInt32.ofNat p.2,
            p.1.gated == some true && decide (UInt32.ofNat p.2 ∉ restored)) := by
  induction turns with
  | nil =>
    intro index visibleIndex _ _
    exact ⟨[], [], rfl, rfl, .nil, rfl⟩
  | cons turn turns ih =>
    intro index visibleIndex hvalid hadmissible
    rw [forall_mem_cons] at hvalid
    rw [zipIdx_cons, forall_mem_cons] at hadmissible
    have hfinset : ∀ i, i ∈ restored.toFinset ↔ i ∈ restored := fun i => mem_toFinset
    obtain ⟨first, hfirst, hindex, hwithheld, htext⟩ :=
      @projectTurn_admitted _ restored.toFinset index _ hvalid.1
        fun hmem => hadmissible.1 ((hfinset _).mp hmem)
    rw [decide_eq_decide.mpr (not_congr (hfinset _))] at hwithheld
    have hlibrary : (decide ((libraryTurn turn).gated = some true ∧
        ¬ decide (UInt32.ofNat index ∈ restored) = true)) = first.withheld := by
      rw [hwithheld]
      by_cases hgated : turn.gated = some true <;> simp [libraryTurn, hgated]
    obtain ⟨shown, stored, hshown, hstored, hsame, hmarks⟩ :=
      @ih (index + 1) (if first.withheld then visibleIndex else visibleIndex + 1) hvalid.2
        hadmissible.2
    refine ⟨first :: shown, ⟨UInt32.ofNat index,
      if first.withheld then none else some visibleIndex, turn.text, first.withheld⟩ :: stored,
      ?_, ?_, ?_, ?_⟩
    · rw [projectTurns, hfirst, ok_bind, hshown]
      rfl
    · have hchecked := checkTurn_libraryTurn hattribution hvalid.1
      rw [map_cons, validateTurns, hchecked, ok_bind]
      dsimp only
      rw [hlibrary, refuseIf_of_not fun h => h.2 (hadmissible.1 (of_decide_eq_true h.1)), ok_bind,
        hstored]
      rfl
    · exact .cons ⟨hindex, rfl, htext⟩ hsame
    · rw [map_cons, zipIdx_cons, map_cons, hmarks, hindex, hwithheld]

/-! ## The document -/

theorem turns_fromValue {items : List Value} :
    ∀ {turns : List TranscriptInputTurn}, items.mapM fromValue = some turns →
      items.mapM Turn.fromValue = some (turns.map libraryTurn) ∧ turns.length = items.length := by
  induction items with
  | nil =>
    intro turns h
    cases h
    exact ⟨rfl, rfl⟩
  | cons item items ih =>
    intro turns h
    rw [mapM_cons] at h
    simp only [Option.bind_eq_bind, Option.bind_eq_some_iff, Option.pure_def] at h
    obtain ⟨turn, hturn, rest, hrest, heq⟩ := h
    obtain rfl := Option.some.inj heq
    obtain ⟨hlibrary, hlength⟩ := ih hrest
    refine ⟨?_, congrArg Nat.succ hlength⟩
    rw [mapM_cons, turn_fromValue hturn, hlibrary]
    rfl

/-- The fields of a document that the desktop reads. -/
structure ReadAs (v : Value) (document : TranscriptDocument) (fs : List (String × Value))
    (source : String) (captureHealth : Value) (items : List Value) : Prop where
  object : v = .object fs
  nodup : (fs.map Prod.fst).Nodup
  schema : requiredField fs "schema" = some document.schema
  sourceField : requiredField fs "source" = some source
  attribution : requiredField fs "attribution" = some document.attribution
  healthField : fieldOf fs "capture_health" = some captureHealth
  turnsField : fieldOf fs "turns" = some (.array items)
  turns : items.mapM TranscriptInputTurn.fromValue = some document.turns
  library : Transcript.fromValue v = some ⟨document.schema, source, document.attribution,
    captureHealth, document.turns.map libraryTurn⟩

theorem listField_some {α : Type} {read : Value → Option α} {fs : List (String × Value)}
    {name : String} {l : List α} (h : listField read fs name = some l) :
    ∃ items, fieldOf fs name = some (.array items) ∧ items.mapM read = some l := by
  unfold listField at h
  split at h
  · rename_i items hitems
    exact ⟨items, hitems, h⟩
  · cases h

theorem document_fromValue {v : Value} {document : TranscriptDocument}
    (h : TranscriptDocument.fromValue v = some document) :
    ∃ fs source captureHealth items, ReadAs v document fs source captureHealth items := by
  unfold TranscriptDocument.fromValue at h
  simp only [Option.bind_eq_bind, Option.bind_eq_some_iff, Option.pure_def] at h
  obtain ⟨fs, hclosed, schema, hschema, source, hsource, attribution, hattribution, hrest⟩ := h
  obtain ⟨voiceprint, captureHealth, turns, hhealth, hturns, heq⟩ :
      ∃ voiceprint captureHealth turns, fieldOf fs "capture_health" = some captureHealth ∧
        listField fromValue fs "turns" = some turns ∧
        some (TranscriptDocument.mk schema attribution voiceprint turns) = some document := by
    split at hrest
    all_goals
      simp only [Option.bind_eq_some_iff] at hrest
      obtain ⟨voiceprint, -, captureHealth, hhealth, turns, hturns, heq⟩ := hrest
      exact ⟨voiceprint, captureHealth, turns, hhealth, hturns, heq⟩
  obtain rfl := Option.some.inj heq
  obtain ⟨items, hitems, hread⟩ := listField_some hturns
  obtain ⟨hobject, hnodup⟩ := closedFields_some hclosed
  refine ⟨fs, source, captureHealth, items, hobject, hnodup, hschema, hsource, hattribution,
    hhealth, hitems, hread, ?_⟩
  unfold Transcript.fromValue
  rw [hclosed, Option.bind_eq_bind, Option.bind_some, hitems, hschema, hsource, hattribution,
    hhealth]
  change (items.mapM Turn.fromValue >>= fun turns => some _) = _
  rw [(turns_fromValue hread).1]
  rfl

/-- What the desktop has checked of a document that it shows. -/
structure Admitted (document : TranscriptDocument) : Prop where
  schema : document.schema = "capture-transcript/1"
  attribution : document.attribution ∈ ["channel", "none"]
  length : document.turns.length ≤ 20000
  valid : ∀ turn ∈ document.turns, ¬ turn.invalid (document.attribution == "none") = true

section Bytes

variable {B : Type} [Platform B] {bytes : B}

theorem admitted_of_parse {restored : Finset UInt32} {shown : List TranscriptTurn}
    (h : parseTranscriptProjectionWith bytes restored = .ok shown) :
    ∃ v document, JsonText.readText bytes = some v ∧
      TranscriptDocument.fromValue v = some document ∧ Admitted document := by
  unfold parseTranscriptProjectionWith at h
  simp only [bind_eq_ok, orRefuse_eq_ok, refuseIf_eq_ok, Option.bind_eq_some_iff, not_or, not_not,
    not_lt] at h
  obtain ⟨document, ⟨v, hv, hdocument⟩, _, ⟨hschema, hattribution, hlength⟩, hturns⟩ := h
  exact ⟨v, document, hv, hdocument, hschema, hattribution, hlength, projectTurns_valid hturns⟩

theorem parse_eq {v : Value} {document : TranscriptDocument} {restored : Finset UInt32}
    (hv : JsonText.readText bytes = some v)
    (hdocument : TranscriptDocument.fromValue v = some document) (h : Admitted document) :
    parseTranscriptProjectionWith bytes restored =
      projectTurns (document.attribution == "none") restored 0 document.turns := by
  unfold parseTranscriptProjectionWith
  rw [hv, Option.bind_some, hdocument, orRefuse_some, ok_bind, refuseIf_of_not, ok_bind]
  simp only [not_or, not_not, not_lt]
  exact ⟨h.schema, h.attribution, h.length⟩

end Bytes

section Document

variable {v : Value} {document : TranscriptDocument} {fs : List (String × Value)} {source : String}
  {captureHealth : Value} {items : List Value}

theorem isObject_collapse (v : Value) : v.collapse.isObject = v.isObject := by
  cases v <;> simp [collapse, isObject]

theorem inspectBaseTranscript_eq (hread : ReadAs v document fs source captureHealth items)
    (h : Admitted document) :
    inspectBaseTranscript v.collapse =
      if captureHealth.isObject = true then inspectTurns 0 (collapseItems items)
      else .error .malformed := by
  obtain rfl := hread.object
  have hlength : ¬ (collapseItems items).length > SessionCore.maxTranscriptTurns := by
    rw [collapseItems_eq_map, length_map, ← (turns_fromValue hread.turns).2]
    exact not_lt.mpr h.length
  have hitems : ((collapse (.object fs)).get "turns").bind asArray =
      some (collapseItems items) := by
    rw [get_collapse hread.nodup, hread.turnsField]
    simp [collapse, asArray]
  unfold inspectBaseTranscript
  rw [refuseIf_of_not (by simp [collapse, isObject]), ok_bind,
    string_of_required hread.nodup hread.schema, string_of_required hread.nodup hread.sourceField,
    string_of_required hread.nodup hread.attribution, get_collapse hread.nodup "capture_health",
    hread.healthField, Option.map_some, Option.any_some, isObject_collapse, hitems,
    orRefuse_some, ok_bind, refuseIf_of_not hlength, ok_bind, h.schema]
  have hattribution : some document.attribution ∈ [some "named", some "channel", some "none"] := by
    have := h.attribution
    simp only [mem_cons, not_mem_nil, or_false] at this ⊢
    rcases this with hchannel | hnone
    · exact .inr (.inl (congrArg some hchannel))
    · exact .inr (.inr (congrArg some hnone))
  by_cases hobject : captureHealth.isObject = true
  · rw [if_pos hobject, refuseIf_of_not (by simp [hattribution, hobject]), ok_bind]
  · rw [if_neg hobject, refuseIf_of (by simp [hobject])]
    rfl

theorem validateTranscript_eq (h : Admitted document) (restored : List UInt32) :
    validateTranscript ⟨document.schema, source, document.attribution, captureHealth,
        document.turns.map libraryTurn⟩ restored =
      if source = "" ∨ ¬ captureHealth.isObject = true then .error .artifactUnavailable
      else validateTurns document.attribution restored 0 0 (document.turns.map libraryTurn) := by
  have hlength : ¬ (document.turns.map libraryTurn).length > maxTurns := by
    rw [length_map]
    exact not_lt.mpr h.length
  unfold validateTranscript
  dsimp only
  by_cases hrefused : source = "" ∨ ¬ captureHealth.isObject = true
  · rw [if_pos hrefused, refuseIf_of]
    · rfl
    · rcases hrefused with hsource | hobject
      · exact .inr (.inl hsource)
      · exact .inr (.inr (.inr (.inl hobject)))
  · rw [if_neg hrefused, refuseIf_of_not, ok_bind]
    rw [not_or, not_not] at hrefused
    simp only [not_or, not_not]
    exact ⟨h.schema, hrefused.1, h.attribution, hrefused.2, hlength⟩

theorem complete_iff (hread : ReadAs v document fs source captureHealth items) :
    Complete v ↔ source ≠ "" ∧ captureHealth.isObject = true ∧
      ∀ item ∈ items, item.get "gated" ≠ some .null := by
  obtain rfl := hread.object
  have hfield : ∀ name, (object fs).get name = fieldOf fs name := fun _ => rfl
  have hsource : fieldOf fs "source" = some (.string source) := by
    have hrequired := hread.sourceField
    unfold requiredField at hrequired
    obtain ⟨w, hw, hs⟩ := Option.bind_eq_some_iff.mp hrequired
    rw [hw]
    cases w with
    | string =>
      cases hs
      rfl
    | null | bool | natural | decimal | array | object => cases hs
  constructor
  · intro h
    refine ⟨?_, ?_, h.gated items (by rw [hfield, hread.turnsField])⟩
    · rintro rfl
      exact h.source (by rw [hfield, hsource])
    · have hhealth := h.captureHealth
      rw [hfield, hread.healthField] at hhealth
      exact hhealth
  · rintro ⟨hnonempty, hobject, hgated⟩
    refine ⟨?_, ?_, ?_⟩
    · rw [hfield, hsource]
      intro heq
      injection heq with heq
      injection heq with heq
      exact hnonempty heq
    · rw [hfield, hread.healthField]
      exact hobject
    · intro others hothers
      rw [hfield, hread.turnsField] at hothers
      injection hothers with heq
      injection heq with heq
      rw [← heq]
      exact hgated

end Document

/-! ## When the verdict is one -/

theorem sameTurn_lists {shown : List TranscriptTurn} {stored : List StoredTurn}
    (h : List.Forall₂ SameTurn shown stored) :
    (stored.filter (·.gated)).map StoredTurn.index =
        (shown.filter (·.withheld)).map TranscriptTurn.sourceTurnIndex ∧
      (shown.filter (!·.withheld)).map TranscriptTurn.text =
        (stored.filter (!·.gated)).map StoredTurn.text := by
  induction h with
  | nil => exact ⟨rfl, rfl⟩
  | @cons first second _ _ hsame _ ih =>
    simp only [filter_cons, ← hsame.withheld]
    cases hwithheld : first.withheld with
    | true => exact ⟨by simp [ih.1, hsame.index], by simpa using ih.2⟩
    | false => exact ⟨by simpa using ih.1, by simp [ih.2, hsame.text hwithheld]⟩

/-- A turn whose number is that of a withheld turn is that turn. -/
theorem gated_of_mem_withheldFrom {turns : List TranscriptInputTurn}
    (hlength : turns.length ≤ 20000) {p : TranscriptInputTurn × Nat} (hmem : p ∈ turns.zipIdx)
    (hwithheld : UInt32.ofNat p.2 ∈ withheldFrom 0 turns) : p.1.gated = some true := by
  obtain ⟨q, hq, hgated, heq⟩ := mem_withheldFrom.mp hwithheld
  rw [mem_zipIdx_iff_getElem?] at hmem hq
  have hlt : ∀ {r : TranscriptInputTurn × Nat}, turns[r.2]? = some r.1 → r.2 < UInt32.size := by
    intro r hr
    have := (List.getElem?_eq_some_iff.mp hr).1
    exact (this.trans_le hlength).trans (by decide)
  have hsame : q.2 = p.2 := by
    have htoNat := congrArg UInt32.toNat heq
    rwa [UInt32.toNat_ofNat_of_lt' (hlt hq), UInt32.toNat_ofNat_of_lt' (hlt hmem)] at htoNat
  rw [hsame, hmem] at hq
  rw [Option.some.inj hq]
  exact hgated

section Verdict

variable {B : Type} [Platform B] {bytes : B} {v : Value} {document : TranscriptDocument}
  {fs : List (String × Value)} {source : String} {captureHealth : Value} {items : List Value}

/-- Any withheld turns may be restored. -/
theorem sameShown_of_complete (hv : JsonText.readText bytes = some v)
    (hdocument : TranscriptDocument.fromValue v = some document) (h : Admitted document)
    (hread : ReadAs v document fs source captureHealth items)
    (haccepted : ¬ (source = "" ∨ ¬ captureHealth.isObject = true)) {restored : List UInt32}
    (hadmissible : ∀ index ∈ restored, index ∈ withheldFrom 0 document.turns) :
    ∃ shown stored, SameShown bytes ⟨document.schema, source, document.attribution, captureHealth,
      document.turns.map libraryTurn⟩ (withheldFrom 0 document.turns) items.length restored
        shown stored := by
  obtain ⟨shown, stored, hshown, hstored, hsame, hmarks⟩ :=
    @turns_agree _ h.attribution _ _ 0 0 h.valid
      fun p hp hmem => gated_of_mem_withheldFrom h.length hp (hadmissible _ hmem)
  obtain ⟨hwithheld, htexts⟩ := sameTurn_lists hsame
  have hlength : shown.length = items.length := by
    have := congrArg List.length hmarks
    rw [length_map, length_map, length_zipIdx, (turns_fromValue hread.turns).2] at this
    exact this
  refine ⟨shown, stored, ⟨?_, ?_, hlength, hsame.length_eq ▸ hlength, ?_, hwithheld, htexts⟩⟩
  · rw [parse_eq hv hdocument h, hshown]
  · rw [validateTranscript_eq h, if_neg haccepted, hstored]
  · intro index
    have hmark : index ∈ (shown.filter (·.withheld)).map TranscriptTurn.sourceTurnIndex ↔
        (index, true) ∈ shown.map fun turn => (turn.sourceTurnIndex, turn.withheld) := by
      simp only [mem_map, mem_filter, Prod.mk.injEq]
      exact ⟨fun ⟨turn, hturn, heq⟩ => ⟨turn, hturn.1, heq, hturn.2⟩,
        fun ⟨turn, hturn, heq, hmarked⟩ => ⟨turn, ⟨hturn, hmarked⟩, heq⟩⟩
    rw [hmark, hmarks, mem_withheldFrom]
    simp only [mem_map, Prod.mk.injEq, Bool.and_eq_true, beq_iff_eq, decide_eq_true_eq]
    constructor
    · rintro ⟨p, hp, rfl, hgated, hnot⟩
      exact ⟨⟨p, hp, hgated, rfl⟩, hnot⟩
    · rintro ⟨⟨p, hp, hgated, rfl⟩, hnot⟩
      exact ⟨p, hp, rfl, hgated, hnot⟩

end Verdict

/-! A transcript of one turn. -/

def sampleBase (gated : Value) : Value :=
  .object [("schema", .string "capture-transcript/1"), ("source", .string "take.wav"),
    ("attribution", .string "channel"), ("capture_health", .object []),
    ("turns", .array [.object [("start", .natural 0), ("end", .natural 1),
      ("speaker", .string "Me"), ("text", .string "Yes."), ("gated", gated)]])]

def sampleBaseBytes (gated : Value) : Recorded [] := Document.pretty (sampleBase gated)

end YawnApp.Desktop.SpeakerSuggestion
