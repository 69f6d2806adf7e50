import YawnApp.Capture.PauseLedger

set_option autoImplicit false

/-!
# When the pauses of a take are accepted

The ledger reconciles exactly: what it recorded and what it paused are the wall clock.  Its
receipt is rounded offset by offset, and the recorded time is rounded by itself, so that the
worker may find the last pause later than the meeting.  It does so exactly when the rounding
errors add up to more than what was recorded after the last pause.
-/

namespace YawnApp.Capture

open YawnApp.Foundation YawnApp.Worker List

/-! ## The ledger is exact -/

/-- A ledger that is recording or paused since the place of its wall clock. -/
structure Standing (start : Nat) (ledger : PauseLedger) (opened : Option Nat) (now : Nat) :
    Prop where
  segment : ledger.segmentStarted =
    if opened.isSome then none else some (start + ledger.closedWallClock)
  pause : ledger.pausedSince = opened
  place : ∀ since, opened = some since → since = start + ledger.closedWallClock
  before : start + ledger.closedWallClock ≤ now

theorem standing_new (start : Nat) : Standing start (.new start) none start :=
  ⟨rfl, rfl, by simp, Nat.le_refl _⟩

section Step

variable {start now next : Nat} {ledger : PauseLedger}

/-- Time passes. -/
theorem Standing.later {opened : Option Nat} (h : Standing start ledger opened now)
    (hle : now ≤ next) : Standing start ledger opened next :=
  ⟨h.segment, h.pause, h.place, h.before.trans hle⟩

theorem Standing.beginPause (h : Standing start ledger none now) (hle : now ≤ next) :
    Standing start (ledger.beginPause next) (some next) next ∧
      (ledger.beginPause next).spans = ledger.spans ∧
      (ledger.beginPause next).paused = ledger.paused := by
  have hsegment := h.segment
  have hbefore := h.before
  rw [if_neg (by simp)] at hsegment
  unfold PauseLedger.beginPause
  rw [hsegment]
  unfold PauseLedger.closedWallClock at hbefore ⊢
  refine ⟨⟨rfl, rfl, fun since hsince => ?_, ?_⟩, rfl, rfl⟩
  · cases hsince
    dsimp only [PauseLedger.closedWallClock]
    omega
  · dsimp only [PauseLedger.closedWallClock]
    omega

/-- A pause is closed with the offsets of its instants. -/
theorem Standing.endPause {since : Nat} (h : Standing start ledger (some since) now)
    (hle : now ≤ next) :
    Standing start (ledger.endPause next) none next ∧
      (ledger.endPause next).spans = ledger.spans ++ [(since - start, next - start)] ∧
      (ledger.endPause next).paused = ledger.paused + (next - since) := by
  have hbefore := h.before
  have hplace := h.place since rfl
  unfold PauseLedger.endPause
  rw [h.pause]
  unfold PauseLedger.closedWallClock at hbefore hplace ⊢
  refine ⟨⟨?_, rfl, by simp, ?_⟩, ?_, rfl⟩
  · dsimp only [PauseLedger.closedWallClock]
    rw [if_neg (by simp), Option.some.injEq]
    omega
  · dsimp only [PauseLedger.closedWallClock]
    omega
  · dsimp only
    congr 2
    rw [Prod.mk.injEq]
    constructor
    · omega
    · omega

/-- An event that does not fit changes nothing. -/
theorem Standing.ignored {opened : Option Nat} (h : Standing start ledger opened now) :
    (opened.isSome → ledger.beginPause next = ledger) ∧
      (opened = none → ledger.endPause next = ledger) := by
  constructor
  · intro hopened
    have hsegment := h.segment
    rw [if_pos hopened] at hsegment
    unfold PauseLedger.beginPause
    rw [hsegment]
  · rintro rfl
    unfold PauseLedger.endPause
    rw [h.pause]

end Step

/-- What the ledger says once it is finished. -/
structure Finished (start stop : Nat) (pauses : List (Nat × Nat)) (before ledger : PauseLedger) :
    Prop where
  spans : ledger.spans = before.spans ++ pauses.map fun p => (p.1 - start, p.2 - start)
  paused : ledger.paused = before.paused + (pauses.map fun p => p.2 - p.1).sum
  wallClock : ledger.recorded + ledger.paused = stop - start

theorem Standing.finish {start now stop : Nat} {ledger : PauseLedger} {opened : Option Nat}
    (h : Standing start ledger opened now) (hle : now ≤ stop) :
    Finished start stop (pausesFrom stop opened []) ledger (ledger.finish stop) := by
  have hbefore := h.before
  unfold PauseLedger.finish
  rw [h.pause]
  cases opened with
  | none =>
    have hsegment := h.segment
    rw [if_neg (by simp)] at hsegment
    rw [if_neg (by simp), hsegment]
    unfold PauseLedger.closedWallClock at hbefore ⊢
    refine ⟨by simp [pausesFrom], by simp [pausesFrom], ?_⟩
    dsimp only
    omega
  | some =>
    rw [Option.isSome_some, if_pos rfl]
    obtain ⟨hstanding, hspans, hpaused⟩ := h.endPause hle
    have hplace := hstanding.segment
    refine ⟨by simpa [pausesFrom] using hspans, by simpa [pausesFrom] using hpaused, ?_⟩
    have hend : start + (ledger.endPause stop).closedWallClock = stop := by
      have hsegment : (ledger.endPause stop).segmentStarted = some stop := by
        unfold PauseLedger.endPause
        rw [h.pause]
      rw [if_neg (by simp), hsegment] at hplace
      exact (Option.some.inj hplace).symm
    unfold PauseLedger.closedWallClock at hend
    dsimp only
    omega

/-- Any events, in the order of their instants. -/
theorem Standing.run {start stop : Nat} (events : List PauseEvent) :
    ∀ {ledger : PauseLedger} {opened : Option Nat} {now : Nat},
      Standing start ledger opened now →
      (now :: events.map PauseEvent.now ++ [stop]).Pairwise (· ≤ ·) →
      Finished start stop (pausesFrom stop opened events) ledger
        ((events.foldl PauseLedger.apply ledger).finish stop) := by
  induction events with
  | nil =>
    intro ledger opened now h hsorted
    apply h.finish
    rw [map_nil, cons_append, pairwise_cons] at hsorted
    exact hsorted.1 stop (mem_singleton_self stop)
  | cons event events ih =>
    intro ledger opened now h hsorted
    rw [map_cons, cons_append, pairwise_cons] at hsorted
    have hle : now ≤ event.now := hsorted.1 _ (mem_cons_self)
    have hrest := hsorted.2
    rw [foldl_cons]
    cases event with
    | beginPause time =>
      cases opened with
      | none =>
        obtain ⟨hstanding, hspans, hpaused⟩ := h.beginPause hle
        have hfinished := ih hstanding hrest
        exact ⟨hspans ▸ hfinished.spans, hpaused ▸ hfinished.paused, hfinished.wallClock⟩
      | some =>
        have hsame : ledger.apply (.beginPause time) = ledger := h.ignored.1 rfl
        rw [hsame]
        exact ih (h.later hle) hrest
    | endPause time =>
      cases opened with
      | none =>
        have hsame : ledger.apply (.endPause time) = ledger := h.ignored.2 rfl
        rw [hsame]
        exact ih (h.later hle) hrest
      | some =>
        obtain ⟨hstanding, hspans, hpaused⟩ := h.endPause hle
        have hfinished := ih hstanding hrest
        refine ⟨?_, ?_, hfinished.wallClock⟩
        · rw [pausesFrom, map_cons, append_cons]
          exact hspans ▸ hfinished.spans
        · rw [pausesFrom, map_cons, sum_cons, ← Nat.add_assoc]
          exact hpaused ▸ hfinished.paused

/-! ## The pauses of a take -/

/-- The pauses stand one after another between the start and the stop. -/
structure Ordered (start stop : Nat) (pauses : List (Nat × Nat)) : Prop where
  inside : ∀ p ∈ pauses, start ≤ p.1 ∧ p.1 ≤ p.2 ∧ p.2 ≤ stop
  apart : pauses.Pairwise fun p q => p.2 ≤ q.1

theorem ordered_pausesFrom {stop : Nat} (events : List PauseEvent) :
    ∀ {opened : Option Nat} {now : Nat}, (∀ since, opened = some since → since ≤ now) →
      (now :: events.map PauseEvent.now ++ [stop]).Pairwise (· ≤ ·) →
      Ordered (opened.getD now) stop (pausesFrom stop opened events) := by
  induction events with
  | nil =>
    intro opened now hopened hsorted
    rw [map_nil, cons_append, pairwise_cons] at hsorted
    have hle := hsorted.1 stop (mem_singleton_self stop)
    cases opened with
    | none => exact ⟨by simp [pausesFrom], by simp [pausesFrom]⟩
    | some since =>
      have := hopened since rfl
      refine ⟨?_, by simp [pausesFrom]⟩
      simp only [pausesFrom, mem_singleton, forall_eq, Option.getD_some]
      omega
  | cons event events ih =>
    intro opened now hopened hsorted
    rw [map_cons, cons_append, pairwise_cons] at hsorted
    have hle : now ≤ event.now := hsorted.1 _ mem_cons_self
    have hrest := hsorted.2
    have hstop : event.now ≤ stop :=
      (pairwise_cons.mp hrest).1 stop (mem_append_right _ (mem_singleton_self stop))
    cases event with
    | beginPause time =>
      cases opened with
      | none =>
        have hnow : ∀ s, some time = some s → s ≤ time := fun s hs => by simp_all
        have h := ih hnow hrest
        exact ⟨fun p hp => ⟨hle.trans (h.inside p hp).1, (h.inside p hp).2⟩, h.apart⟩
      | some since =>
        have hlater : ∀ s, some since = some s → s ≤ time := fun s hs => (hopened s hs).trans hle
        have h := ih hlater hrest
        exact h
    | endPause time =>
      cases opened with
      | none =>
        have hnone : ∀ s, (none : Option Nat) = some s → s ≤ time := by simp
        have h := ih hnone hrest
        exact ⟨fun p hp => ⟨hle.trans (h.inside p hp).1, (h.inside p hp).2⟩, h.apart⟩
      | some since =>
        have hnone : ∀ s, (none : Option Nat) = some s → s ≤ time := by simp
        have h := ih hnone hrest
        have hsince : since ≤ time := (hopened since rfl).trans hle
        refine ⟨forall_mem_cons.mpr ⟨⟨Nat.le_refl _, hsince, hstop⟩, fun p hp => ?_⟩,
          pairwise_cons.mpr ⟨fun p hp => (h.inside p hp).1, h.apart⟩⟩
        exact ⟨hsince.trans (h.inside p hp).1, (h.inside p hp).2⟩

/-! ## Rounding -/

theorem samplesOf_eq (duration : Nat) : samplesOf duration = (duration : ℚ) / 62500 := by
  unfold samplesOf
  ring

theorem samplesOf_nonneg (duration : Nat) : 0 ≤ samplesOf duration := by
  rw [samplesOf_eq]
  positivity

variable {b : Nat}

theorem samplesOf_mono {a : Nat} (h : a ≤ b) : samplesOf a ≤ samplesOf b := by
  have : (a : ℚ) ≤ b := Nat.cast_le.mpr h
  rw [samplesOf_eq, samplesOf_eq]
  linarith

theorem samplesOf_sub {a : Nat} (h : a ≤ b) : samplesOf (b - a) = samplesOf b - samplesOf a := by
  rw [samplesOf_eq, samplesOf_eq, samplesOf_eq, Nat.cast_sub h]
  ring

/-- The samples of an offset, rounded. -/
def roundedOffset (offset : Nat) : Nat := roundSamples (samplesOf offset)

theorem cast_roundedOffset (offset : Nat) :
    ((roundedOffset offset : Nat) : ℤ) = round (samplesOf offset) := by
  have hnonneg : 0 ≤ round (samplesOf offset) := by
    rw [round_eq]
    apply Int.floor_nonneg.mpr
    have := samplesOf_nonneg offset
    linarith
  exact Int.toNat_of_nonneg hnonneg

theorem roundedOffset_mono {a : Nat} (h : a ≤ b) : roundedOffset a ≤ roundedOffset b := by
  have hround : round (samplesOf a) ≤ round (samplesOf b) := by
    rw [round_eq, round_eq]
    exact Int.floor_le_floor (by linarith [samplesOf_mono h])
  have ha := cast_roundedOffset a
  have hb := cast_roundedOffset b
  omega

/-- Offsets that are a sample apart are rounded to different numbers. -/
theorem roundedOffset_lt {a : Nat} (hle : a ≤ b) (h : 1 ≤ samplesOf (b - a)) :
    roundedOffset a < roundedOffset b := by
  rw [samplesOf_sub hle] at h
  have hround : round (samplesOf a) + 1 ≤ round (samplesOf b) := by
    rw [round_eq, round_eq, ← Int.floor_add_one]
    exact Int.floor_le_floor (by linarith)
  have ha := cast_roundedOffset a
  have hb := cast_roundedOffset b
  omega

/-- Nanoseconds of a day. -/
def dayNanoseconds : Nat := 24 * 60 * 60 * 1000000000

theorem roundedOffset_le {offset : Nat} (h : offset ≤ dayNanoseconds) :
    samplesOf offset ≤ maximumSamples ∧ roundedOffset offset ≤ maxCaptureSamples := by
  have hday : samplesOf dayNanoseconds = maximumSamples := by
    rw [samplesOf_eq]
    unfold dayNanoseconds maximumSamples
    norm_num
  have hrounded : roundedOffset dayNanoseconds = maxCaptureSamples := by
    have := cast_roundedOffset dayNanoseconds
    have hcast : maximumSamples = ((maxCaptureSamples : ℤ) : ℚ) := by
      unfold maximumSamples maxCaptureSamples
      norm_num
    rw [hday, hcast, round_intCast] at this
    exact_mod_cast this
  exact ⟨hday ▸ samplesOf_mono h, hrounded ▸ roundedOffset_mono h⟩

/-! ## The receipt and its check -/

theorem pauseOffsetSamples_ok {offset : Nat} (h : offset ≤ dayNanoseconds) :
    pauseOffsetSamples offset = .ok (roundedOffset offset) := by
  unfold pauseOffsetSamples
  dsimp only
  rw [refuseIf_of_not, ok_bind]
  · rfl
  · rw [not_or, not_lt, not_lt]
    exact ⟨samplesOf_nonneg offset, (roundedOffset_le h).1⟩

theorem elapsedSamples_ok {duration : Nat} (hsome : 1 ≤ samplesOf duration)
    (h : duration ≤ dayNanoseconds) : elapsedSamples duration = .ok (roundedOffset duration) := by
  unfold elapsedSamples
  dsimp only
  rw [refuseIf_of_not, ok_bind]
  · rfl
  · rw [not_or, not_lt, not_lt]
    exact ⟨hsome, (roundedOffset_le h).1⟩

/-- A span in samples. -/
def roundedSpan (span : Nat × Nat) : Nat × Nat := (roundedOffset span.1, roundedOffset span.2)

theorem receipt_ok {ledger : PauseLedger} (hsome : ledger.spans ≠ [])
    (hfew : ledger.spans.length ≤ maxPauseSpans)
    (hday : ∀ span ∈ ledger.spans, span.1 ≤ dayNanoseconds ∧ span.2 ≤ dayNanoseconds) :
    ledger.receipt = .ok (some (pausesValue (ledger.spans.map roundedSpan))) := by
  have hspans : ∀ {spans : List (Nat × Nat)},
      (∀ span ∈ spans, span.1 ≤ dayNanoseconds ∧ span.2 ≤ dayNanoseconds) →
      spans.mapM spanSamples = .ok (spans.map roundedSpan) := by
    intro spans hspans
    induction spans with
    | nil => rfl
    | cons span spans ih =>
      rw [forall_mem_cons] at hspans
      have hfirst : spanSamples span = .ok (roundedSpan span) := by
        unfold spanSamples
        rw [pauseOffsetSamples_ok hspans.1.1, ok_bind, pauseOffsetSamples_ok hspans.1.2, ok_bind]
        rfl
      rw [mapM_cons, hfirst, ok_bind, ih hspans.2, ok_bind, map_cons]
      rfl
  unfold PauseLedger.receipt
  rw [if_neg hsome, refuseIf_of_not (not_lt.mpr hfew), ok_bind, hspans hday, ok_bind]
  rfl

/-- The length of the spans together. -/
def spanTotal (spans : List (Nat × Nat)) : Nat := (spans.map fun span => span.2 - span.1).sum

theorem validateSpan_ok {totals : SpanTotals} {span : Nat × Nat} (hlt : span.1 < span.2)
    (hafter : ∀ previous, totals.previousEnd = some previous → previous ≤ span.1)
    (hfits : totals.total + (span.2 - span.1) ≤ maxCaptureSamples) :
    validateSpan totals (spanValue span) =
      .ok ⟨some span.2, totals.total + (span.2 - span.1)⟩ := by
  have hprevious : ¬ (totals.previousEnd.any fun previous => decide (span.1 < previous)) = true := by
    cases hend : totals.previousEnd with
    | none => simp
    | some previous => simpa using hafter previous hend
  have hkeys : keysAre [("paused_at_samples", Value.natural span.1),
      ("resumed_at_samples", Value.natural span.2)] ["paused_at_samples", "resumed_at_samples"] =
        true := by
    simp [keysAre]
  unfold validateSpan spanValue
  dsimp only
  rw [refuseIf_of_not (not_not.mpr hkeys), ok_bind]
  change (refuseIf (span.2 ≤ span.1) _ >>= fun _ => _) = _
  rw [refuseIf_of_not (not_le.mpr hlt), ok_bind, refuseIf_of_not hprevious, ok_bind,
    refuseIf_of_not (not_lt.mpr hfits), ok_bind]
  rfl

/-- The loop over ordered spans, of which what is before an end is no longer than the end. -/
theorem validateSpans_ok {spans : List (Nat × Nat)} :
    ∀ {totals : SpanTotals}, (∀ span ∈ spans, span.1 < span.2 ∧ span.2 ≤ maxCaptureSamples) →
      spans.Pairwise (fun a b => a.2 ≤ b.1) →
      (∀ previous, totals.previousEnd = some previous → ∀ span ∈ spans, previous ≤ span.1) →
      totals.total ≤ totals.previousEnd.getD 0 →
      validateSpans totals (spans.map spanValue) =
        .ok ⟨(spans.getLast?.map Prod.snd).or totals.previousEnd, totals.total + spanTotal spans⟩ := by
  induction spans with
  | nil =>
    intro totals _ _ _ _
    rfl
  | cons span spans ih =>
    intro totals hspans hordered hafter htotal
    rw [forall_mem_cons] at hspans
    rw [pairwise_cons] at hordered
    have hbefore : totals.total ≤ span.1 := by
      cases hend : totals.previousEnd with
      | none =>
        rw [hend, Option.getD_none] at htotal
        omega
      | some previous =>
        rw [hend, Option.getD_some] at htotal
        exact htotal.trans (hafter previous hend span mem_cons_self)
    have hlt := hspans.1.1
    have hmax := hspans.1.2
    have hfirst : validateSpan totals (spanValue span) =
        .ok ⟨some span.2, totals.total + (span.2 - span.1)⟩ :=
      validateSpan_ok hlt (fun previous hend => hafter previous hend span mem_cons_self)
        (by omega)
    rw [map_cons, validateSpans, hfirst, ok_bind,
      ih hspans.2 hordered.2 (by
        intro previous hend other hother
        cases hend
        exact hordered.1 other hother) (by dsimp only [Option.getD_some]; omega)]
    unfold spanTotal
    rw [map_cons, sum_cons, ← Nat.add_assoc, List.getLast?_cons]
    cases spans.getLast? <;> rfl

variable {spans : List (Nat × Nat)}

theorem validatePauseEvidence_iff {elapsed : Nat} (hsome : spans ≠ [])
    (hfew : spans.length ≤ maxPauseSpans)
    (hspans : ∀ span ∈ spans, span.1 < span.2 ∧ span.2 ≤ maxCaptureSamples)
    (hordered : spans.Pairwise fun a b => a.2 ≤ b.1) :
    validatePauseEvidence (pausesValue spans) (some elapsed) = .ok (pausesValue spans) ↔
      (spans.getLast hsome).2 ≤ elapsed + spanTotal spans := by
  have hkeys : keysAre [("schema", Value.string "capture-pauses/1"),
      ("spans", Value.array (spans.map spanValue))] ["schema", "spans"] = true := by
    simp [keysAre]
  have hschema : (Value.object [("schema", Value.string "capture-pauses/1"),
      ("spans", Value.array (spans.map spanValue))]).get "schema" =
        some (.string pausesSchema) := rfl
  have hloop := @validateSpans_ok spans ⟨none, 0⟩ hspans hordered (by simp) (Nat.le_refl _)
  rw [List.getLast?_eq_some_getLast hsome, Option.map_some, Option.some_or, Nat.zero_add] at hloop
  unfold validatePauseEvidence pausesValue
  dsimp only
  rw [refuseIf_of_not (not_not.mpr hkeys), ok_bind, refuseIf_of_not (not_not.mpr hschema), ok_bind]
  change (refuseIf ((spans.map spanValue).length > maxPauseSpans) _ >>= fun _ => _) = _ ↔ _
  rw [length_map, refuseIf_of_not (not_lt.mpr hfew), ok_bind, hloop, ok_bind, Option.any_some,
    Option.any_some]
  simp only [bind_eq_ok, refuseIf_eq_ok, decide_eq_true_eq, not_lt]
  constructor
  · rintro ⟨_, hle, _⟩
    exact hle
  · intro hle
    exact ⟨(), hle, rfl⟩

/-! ## Rounding errors -/

/-- What rounding adds to an offset, in samples. -/
def roundingError (offset : Nat) : ℚ := roundedOffset offset - samplesOf offset

/-- The errors of the starts of the spans, less those of all ends but the last. -/
def drift (spans : List (Nat × Nat)) : ℚ :=
  (spans.map fun span => roundingError span.1).sum -
    (spans.dropLast.map fun span => roundingError span.2).sum

theorem cast_spanTotal (h : ∀ span ∈ spans, span.1 ≤ span.2) : ((spanTotal spans : Nat) : ℚ) =
      (spans.map fun span => (span.2 : ℚ)).sum - (spans.map fun span => (span.1 : ℚ)).sum := by
  induction spans with
  | nil => simp [spanTotal]
  | cons span spans ih =>
    rw [forall_mem_cons] at h
    have hrest := ih h.2
    unfold spanTotal at hrest ⊢
    rw [map_cons, sum_cons, map_cons, sum_cons, map_cons, sum_cons,
      Nat.cast_add, Nat.cast_sub h.1, hrest]
    ring

/-- A sum over all spans, by the last one. -/
theorem sum_dropLast (h : spans ≠ []) (f : Nat × Nat → ℚ) :
    (spans.map f).sum = (spans.dropLast.map f).sum + f (spans.getLast h) := by
  conv_lhs => rw [← dropLast_append_getLast h]
  rw [map_append, sum_append, map_singleton, sum_singleton]

theorem sum_rounded (spans : List (Nat × Nat)) (offset : Nat × Nat → Nat) :
    (spans.map fun span => ((roundedOffset (offset span) : Nat) : ℚ)).sum =
      (spans.map fun span => (offset span : ℚ)).sum / 62500 +
        (spans.map fun span => roundingError (offset span)).sum := by
  induction spans with
  | nil => simp
  | cons span spans ih =>
    have herror : roundingError (offset span) = roundedOffset (offset span) - offset span / 62500 := by
      unfold roundingError
      rw [samplesOf_eq]
    rw [map_cons, sum_cons, map_cons, sum_cons, map_cons, sum_cons, ih,
      herror]
    ring

/-- The last span ends in the rounded time exactly when the errors are made up for by what
was recorded after it. -/
theorem last_le_iff (hsome : spans ≠ []) (hspans : ∀ span ∈ spans, span.1 ≤ span.2)
    {wallClock recorded : Nat} (hrecorded : recorded + spanTotal spans = wallClock)
    (hlast : (spans.getLast hsome).2 ≤ wallClock) : roundedOffset (spans.getLast hsome).2 ≤
        roundedOffset recorded + spanTotal (spans.map roundedSpan) ↔
      drift spans - roundingError recorded ≤ samplesOf (wallClock - (spans.getLast hsome).2) := by
  have htotal : ((spanTotal (spans.map roundedSpan) : Nat) : ℚ) =
      (spans.map fun span => ((roundedOffset span.2 : Nat) : ℚ)).sum -
        (spans.map fun span => ((roundedOffset span.1 : Nat) : ℚ)).sum := by
    rw [cast_spanTotal, map_map, map_map]
    · rfl
    · intro span hspan
      obtain ⟨old, hold, rfl⟩ := mem_map.mp hspan
      exact roundedOffset_mono (hspans old hold)
  have hexact := cast_spanTotal hspans
  have hends := sum_dropLast hsome fun span => roundingError span.2
  have herror : roundingError recorded = roundedOffset recorded - recorded / 62500 := by
    unfold roundingError
    rw [samplesOf_eq]
  have hlastError : roundingError (spans.getLast hsome).2 =
      roundedOffset (spans.getLast hsome).2 - (spans.getLast hsome).2 / 62500 := by
    unfold roundingError
    rw [samplesOf_eq]
  have hwall : (recorded : ℚ) + spanTotal spans = wallClock := by exact_mod_cast hrecorded
  rw [← @Nat.cast_le ℚ, Nat.cast_add, htotal, sum_rounded, sum_rounded, samplesOf_sub hlast,
    samplesOf_eq, samplesOf_eq, ← hwall, hexact]
  unfold drift
  constructor
  · intro hle
    linarith
  · intro hle
    linarith

/-! ## Takes with pauses -/

/-- The pauses as offsets from the start. -/
def offsets (start : Nat) (pauses : List (Nat × Nat)) : List (Nat × Nat) :=
  pauses.map fun p => (p.1 - start, p.2 - start)

/-- What a take recorded: its wall clock without its pauses. -/
def recordedTime (start : Nat) (events : List PauseEvent) (stop : Nat) : Nat :=
  stop - start - spanTotal (pausesFrom stop none events)

/-- What a take recorded after its last pause. -/
def recordedLast (start : Nat) (events : List PauseEvent) (stop : Nat) : Nat :=
  stop - ((pausesFrom stop none events).getLast?.elim start Prod.snd)

/-- A take of at most a day with one to 64 pauses, none of them shorter than a sample. -/
structure PausedTake (start : Nat) (events : List PauseEvent) (stop : Nat) : Prop where
  sorted : (start :: events.map PauseEvent.now ++ [stop]).Pairwise (· ≤ ·)
  paused : pausesFrom stop none events ≠ []
  few : (pausesFrom stop none events).length ≤ 64
  lasting : ∀ p ∈ pausesFrom stop none events, 1 ≤ samplesOf (p.2 - p.1)
  recorded : 1 ≤ samplesOf (recordedTime start events stop)
  day : stop - start ≤ dayNanoseconds

/-- The ledger is the wall clock, its spans stand apart, and the receipt is accepted with the
recorded samples. -/
structure Reconciled (start : Nat) (events : List PauseEvent) (stop : Nat) : Prop where
  wallClock : (ledgerOf start events stop).recorded + (ledgerOf start events stop).paused =
    stop - start
  nonempty : ∀ span ∈ (ledgerOf start events stop).spans, span.1 < span.2
  apart : (ledgerOf start events stop).spans.Pairwise fun a b => a.2 ≤ b.1
  receipt : ∃ elapsed spans,
    elapsedSamples (ledgerOf start events stop).recordedElapsed = .ok elapsed ∧
    (ledgerOf start events stop).receipt = .ok (some (pausesValue spans)) ∧
    (∀ span ∈ spans, span.1 < span.2) ∧ spans.Pairwise (fun a b => a.2 ≤ b.1) ∧
    validatePauseEvidence (pausesValue spans) (some elapsed) = .ok (pausesValue spans)

section Take

variable {start stop : Nat} {events : List PauseEvent}

theorem PausedTake.ordered (h : PausedTake start events stop) :
    Ordered start stop (pausesFrom stop none events) := by
  have hnone : ∀ s, (none : Option Nat) = some s → s ≤ start := by simp
  exact ordered_pausesFrom events hnone h.sorted

theorem PausedTake.finished (h : PausedTake start events stop) :
    Finished start stop (pausesFrom stop none events) (.new start) (ledgerOf start events stop) :=
  (standing_new start).run events h.sorted

theorem PausedTake.spans_eq (h : PausedTake start events stop) :
    (ledgerOf start events stop).spans = offsets start (pausesFrom stop none events) :=
  h.finished.spans

theorem PausedTake.recorded_eq (h : PausedTake start events stop) :
    (ledgerOf start events stop).recorded = recordedTime start events stop ∧
      (ledgerOf start events stop).recorded + spanTotal (pausesFrom stop none events) =
        stop - start := by
  have hpaused := h.finished.paused
  have hwall := h.finished.wallClock
  have hzero : (PauseLedger.new start).paused = 0 := rfl
  rw [hzero, Nat.zero_add] at hpaused
  unfold recordedTime spanTotal
  omega

/-- The spans of the ledger: in the day, not empty and apart, and as long as the pauses. -/
theorem PausedTake.spans_ordered (h : PausedTake start events stop) :
    (∀ span ∈ offsets start (pausesFrom stop none events),
      span.1 < span.2 ∧ span.2 ≤ stop - start ∧ roundedOffset span.1 < roundedOffset span.2) ∧
    (offsets start (pausesFrom stop none events)).Pairwise (fun a b => a.2 ≤ b.1) ∧
    spanTotal (offsets start (pausesFrom stop none events)) =
      spanTotal (pausesFrom stop none events) := by
  have hordered := h.ordered
  refine ⟨?_, ?_, ?_⟩
  · intro span hspan
    obtain ⟨p, hp, rfl⟩ := mem_map.mp hspan
    obtain ⟨hlow, hle, hhigh⟩ := hordered.inside p hp
    have hlasting := h.lasting p hp
    have hlt : p.1 < p.2 := by
      by_contra hnot
      have hzero : p.2 - p.1 = 0 := by omega
      rw [hzero, samplesOf_eq] at hlasting
      norm_num at hlasting
    have hlength : p.2 - start - (p.1 - start) = p.2 - p.1 := by omega
    refine ⟨by dsimp only; omega, by dsimp only; omega, roundedOffset_lt (by dsimp only; omega) ?_⟩
    dsimp only
    rw [hlength]
    exact hlasting
  · unfold offsets
    rw [pairwise_map]
    refine hordered.apart.imp fun {p q} hle => ?_
    dsimp only
    omega
  · unfold spanTotal offsets
    rw [map_map]
    refine congrArg List.sum (map_congr_left fun p hp => ?_)
    have hlow := (hordered.inside p hp).1
    dsimp only [Function.comp_apply]
    omega

/-- The pauses of a take as its receipt has them. -/
def receiptSpans (start : Nat) (events : List PauseEvent) (stop : Nat) : List (Nat × Nat) :=
  (offsets start (pausesFrom stop none events)).map roundedSpan

theorem PausedTake.offsets_ne_nil (h : PausedTake start events stop) :
    offsets start (pausesFrom stop none events) ≠ [] := by
  unfold offsets
  rw [ne_eq, map_eq_nil_iff]
  exact h.paused

theorem length_offsets (pauses : List (Nat × Nat)) :
    (offsets start pauses).length = pauses.length := by
  unfold offsets
  rw [length_map]

/-- Both numbers of the take are written. -/
theorem PausedTake.written (h : PausedTake start events stop) :
    elapsedSamples (ledgerOf start events stop).recordedElapsed =
        .ok (roundedOffset (recordedTime start events stop)) ∧
      (ledgerOf start events stop).receipt =
        .ok (some (pausesValue (receiptSpans start events stop))) := by
  have hwall := h.recorded_eq.2
  have hday := h.day
  constructor
  · unfold PauseLedger.recordedElapsed
    rw [h.recorded_eq.1] at hwall ⊢
    exact elapsedSamples_ok h.recorded (by omega)
  · have hspans := h.spans_ordered.1
    have hsome := h.offsets_ne_nil
    have hfew : (offsets start (pausesFrom stop none events)).length ≤ maxPauseSpans := by
      rw [length_offsets]
      exact h.few
    unfold receiptSpans
    rw [← h.spans_eq] at hspans hsome hfew ⊢
    apply receipt_ok hsome hfew
    intro span hspan
    have := hspans span hspan
    omega

theorem PausedTake.receiptSpans_ordered (h : PausedTake start events stop) :
    (∀ span ∈ receiptSpans start events stop, span.1 < span.2 ∧ span.2 ≤ maxCaptureSamples) ∧
      (receiptSpans start events stop).Pairwise fun a b => a.2 ≤ b.1 := by
  obtain ⟨hspans, hapart, -⟩ := h.spans_ordered
  unfold receiptSpans
  constructor
  · intro span hspan
    obtain ⟨old, hold, rfl⟩ := mem_map.mp hspan
    obtain ⟨-, hle, hlt⟩ := hspans old hold
    exact ⟨hlt, (roundedOffset_le (hle.trans h.day)).2⟩
  · rw [pairwise_map]
    exact hapart.imp fun {a b} hle => roundedOffset_mono hle

/-- The end of the last pause. -/
theorem PausedTake.last_offset (h : PausedTake start events stop) :
    stop - start - ((offsets start (pausesFrom stop none events)).getLast h.offsets_ne_nil).2 =
      recordedLast start events stop := by
  have hin := h.ordered.inside _ (getLast_mem h.paused)
  have hlast : (offsets start (pausesFrom stop none events)).getLast h.offsets_ne_nil =
      (((pausesFrom stop none events).getLast h.paused).1 - start,
        ((pausesFrom stop none events).getLast h.paused).2 - start) := getLast_map _
  unfold recordedLast
  rw [hlast, List.getLast?_eq_some_getLast h.paused, Option.elim_some]
  dsimp only
  omega

/-- The worker accepts the receipt exactly when the drift is made up for. -/
theorem PausedTake.accepted_iff (h : PausedTake start events stop) :
    validatePauseEvidence (pausesValue (receiptSpans start events stop))
        (some (roundedOffset (recordedTime start events stop))) =
          .ok (pausesValue (receiptSpans start events stop)) ↔
      drift (offsets start (pausesFrom stop none events)) -
        roundingError (recordedTime start events stop) ≤
          samplesOf (recordedLast start events stop) := by
  obtain ⟨hspans, -, htotal⟩ := h.spans_ordered
  obtain ⟨hrounded, hroundedApart⟩ := h.receiptSpans_ordered
  have hsome : receiptSpans start events stop ≠ [] := by
    unfold receiptSpans
    rw [ne_eq, map_eq_nil_iff]
    exact h.offsets_ne_nil
  have hfew : (receiptSpans start events stop).length ≤ maxPauseSpans := by
    unfold receiptSpans
    rw [length_map, length_offsets]
    exact h.few
  have hlast : ((receiptSpans start events stop).getLast hsome).2 = roundedOffset
      ((offsets start (pausesFrom stop none events)).getLast h.offsets_ne_nil).2 :=
    congrArg Prod.snd (getLast_map _)
  have hwall : recordedTime start events stop +
      spanTotal (offsets start (pausesFrom stop none events)) = stop - start := by
    rw [htotal, ← h.recorded_eq.1]
    exact h.recorded_eq.2
  rw [validatePauseEvidence_iff hsome hfew hrounded hroundedApart, hlast, ← h.last_offset]
  exact last_le_iff h.offsets_ne_nil (fun span hspan => (hspans span hspan).1.le) hwall
    (hspans _ (getLast_mem h.offsets_ne_nil)).2.1

/-- Only the worker's check may fail. -/
theorem PausedTake.reconciled_iff_accepted (h : PausedTake start events stop) :
    Reconciled start events stop ↔
      validatePauseEvidence (pausesValue (receiptSpans start events stop))
        (some (roundedOffset (recordedTime start events stop))) =
          .ok (pausesValue (receiptSpans start events stop)) := by
  obtain ⟨helapsed, hreceipt⟩ := h.written
  constructor
  · intro hreconciled
    obtain ⟨elapsed, spans, hok, hreceiptOk, -, -, hvalid⟩ := hreconciled.receipt
    rw [helapsed, Except.ok.injEq] at hok
    rw [hreceipt, Except.ok.injEq, Option.some.injEq] at hreceiptOk
    rw [← hok, ← hreceiptOk] at hvalid
    exact hvalid
  · intro hvalid
    obtain ⟨hspans, hapart, -⟩ := h.spans_ordered
    obtain ⟨hrounded, hroundedApart⟩ := h.receiptSpans_ordered
    rw [← h.spans_eq] at hspans hapart
    exact ⟨h.finished.wallClock, fun span hspan => (hspans span hspan).1, hapart, _, _, helapsed,
      hreceipt, fun span hspan => (hrounded span hspan).1, hroundedApart, hvalid⟩

/-- A paused take reconciles exactly when its rounding errors are made up for by what it
recorded after its last pause. -/
theorem reconciled_iff_drift (h : PausedTake start events stop) :
    Reconciled start events stop ↔
      drift (offsets start (pausesFrom stop none events)) -
        roundingError (recordedTime start events stop) ≤
          samplesOf (recordedLast start events stop) :=
  h.reconciled_iff_accepted.trans h.accepted_iff

/-! ### Takes that always reconcile -/

end Take

/-! Takes with two pauses, the second of which lasts for 15 seconds from 55 seconds on. -/

def sampleEvents : List PauseEvent :=
  [.beginPause 10000031250, .endPause 40000025000, .beginPause 55000031250]

theorem reconciled_sample : Reconciled 0 (sampleEvents ++ [.endPause 70000000000]) 80000000000 :=
  (reconciled_iff_drift ⟨by decide, by decide, by decide, by decide +kernel, by decide +kernel,
    by decide⟩).mpr (by decide +kernel)

/-- Stopped during its second pause, the take is refused. -/
theorem paused_take_not_reconciled :
    ¬ ∀ (start : Nat) (events : List PauseEvent) (stop : Nat), PausedTake start events stop →
      Reconciled start events stop := by
  intro h
  have htake : PausedTake 0 sampleEvents 70000000000 :=
    ⟨by decide, by decide, by decide, by decide +kernel, by decide +kernel, by decide⟩
  obtain ⟨elapsed, spans, helapsed, hreceipt, -, -, hvalid⟩ := (h _ _ _ htake).receipt
  have hsamples : elapsedSamples (ledgerOf 0 sampleEvents 70000000000).recordedElapsed =
      .ok 400001 := by decide +kernel
  have hwritten : (ledgerOf 0 sampleEvents 70000000000).receipt =
      .ok (some (pausesValue [(160001, 640000), (880001, 1120000)])) := by decide +kernel
  have hrefused : validatePauseEvidence (pausesValue [(160001, 640000), (880001, 1120000)])
      (some 400001) = .error "a pause span ends after the meeting stopped" := by decide +kernel
  rw [hsamples, Except.ok.injEq] at helapsed
  rw [hwritten, Except.ok.injEq, Option.some.injEq] at hreceipt
  rw [← helapsed, ← hreceipt, hrefused] at hvalid
  cases hvalid

end YawnApp.Capture
