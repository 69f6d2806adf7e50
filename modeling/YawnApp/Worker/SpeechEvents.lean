import YawnApp.Worker.SpeechProgress

set_option autoImplicit false

/-!
# The events of a transcription

Where the seconds of an event come from, what a progress sends, and the invariant of
the threads.
-/

namespace YawnApp.Worker

open YawnApp.SessionCore List

/-! ## Where the seconds come from -/

/-- The whole seconds of the legs that are complete. -/
def Main.completed (setup : Setup) : Main → Nat
  | .starting | .running .mic | .ended (some .mic) | .answered (some .mic) => 0
  | .completing | .running .system | .ended (some .system) | .answered (some .system) =>
    setup.ceiling .mic
  | .finishing | .ended none | .answered none => setup.total

/-- The leg whose helper runs, or was the last to run. -/
def Main.current : Main → Option Leg
  | .running leg | .ended (some leg) | .answered (some leg) => some leg
  | _ => none

/-- The helper of the leg has been started. -/
def Main.Started : Main → Leg → Prop
  | .starting, _ => False
  | .running .mic, .system | .completing, .system | .ended (some .mic), .system
  | .answered (some .mic), .system => False
  | _, _ => True

/-- The seconds are none, those of whole legs that are complete, or those that a whole
line of a helper reports. -/
def Sourced (setup : Setup) (main : Main) (consumed : Leg → List UInt8) (done : Nat) : Prop :=
  done = 0 ∨
  ((done = setup.ceiling .mic ∨ done = setup.total) ∧ done ≤ main.completed setup) ∨
  ∃ leg number, Reported (consumed leg) number ∧
    done = setup.base leg + min ⌊min number (setup.audio leg).duration⌋₊ (setup.ceiling leg)

/-- The seconds are no more than those of the legs that are complete and those that the
current helper reported, up to the end of its leg. -/
def Bounded (setup : Setup) (main : Main) (consumed : Leg → List UInt8) (done : Nat) : Prop :=
  done ≤ main.completed setup ∨
  ∃ leg number, main.current = some leg ∧ Reported (consumed leg) number ∧
    done ≤ main.completed setup + min ⌊number⌋₊ (setup.ceiling leg)

section Sources

variable {setup : Setup} {main main' : Main} {consumed consumed' : Leg → List UInt8} {done : Nat}

theorem Sourced.mono (h : Sourced setup main consumed done)
    (hmain : main.completed setup ≤ main'.completed setup)
    (hconsumed : ∀ leg, ∃ more, consumed' leg = consumed leg ++ more) :
    Sourced setup main' consumed' done := by
  rcases h with h | ⟨hwhole, hle⟩ | ⟨leg, number, hnumber, hdone⟩
  · exact .inl h
  · exact .inr (.inl ⟨hwhole, Nat.le_trans hle hmain⟩)
  · obtain ⟨more, hmore⟩ := hconsumed leg
    refine .inr (.inr ⟨leg, number, ?_, hdone⟩)
    rw [hmore]
    exact hnumber.append more

theorem Sourced.max {other : Nat} (h : Sourced setup main consumed done)
    (hother : Sourced setup main consumed other) :
    Sourced setup main consumed (max done other) := by
  rcases Nat.le_total done other with hle | hle
  · rw [Nat.max_eq_right hle]
    exact hother
  · rw [Nat.max_eq_left hle]
    exact h

theorem Setup.ceiling_mic_le (setup : Setup) : setup.ceiling .mic ≤ setup.total :=
  Nat.le_add_right _ _

theorem Setup.base_add_le (setup : Setup) (leg : Leg) (seconds : Nat) :
    setup.base leg + min seconds (setup.ceiling leg) ≤ setup.total := by
  have hmin := Nat.min_le_right seconds (setup.ceiling leg)
  cases leg with
  | mic =>
    change 0 + min seconds (setup.ceiling .mic) ≤ setup.ceiling .mic + setup.ceiling .system
    omega
  | system =>
    change setup.ceiling .mic + min seconds (setup.ceiling .system) ≤
      setup.ceiling .mic + setup.ceiling .system
    omega

/-- Where the seconds come from bounds them: a leg that is not current is complete or
has not been started. -/
theorem Sourced.bounded (h : Sourced setup main consumed done)
    (hunborn : ∀ leg, ¬ main.Started leg → consumed leg = []) : Bounded setup main consumed done := by
  rcases h with h | ⟨-, hle⟩ | ⟨leg, number, hnumber, hdone⟩
  · left
    rw [h]
    exact Nat.zero_le _
  · exact .inl hle
  · have hstarted : main.Started leg := by
      by_contra hstarted
      rw [hunborn leg hstarted] at hnumber
      exact not_reported_nil number hnumber
    have hfloor : ⌊min number (setup.audio leg).duration⌋₊ ≤ ⌊number⌋₊ :=
      Nat.floor_le_floor (min_le_left _ _)
    have hdone_le : done ≤ setup.base leg + min ⌊number⌋₊ (setup.ceiling leg) := by
      rw [hdone]
      omega
    have htotal : done ≤ setup.total := Nat.le_trans hdone_le (setup.base_add_le leg _)
    cases leg with
    | mic =>
      have hmic : done ≤ setup.ceiling .mic := by
        change done ≤ 0 + min ⌊number⌋₊ (setup.ceiling .mic) at hdone_le
        omega
      cases main with
      | starting => cases hstarted
      | running other =>
        cases other with
        | mic => exact .inr ⟨.mic, number, rfl, hnumber, hdone_le⟩
        | system => exact .inl hmic
      | completing => exact .inl hmic
      | finishing => exact .inl htotal
      | ended failed | answered failed =>
        match failed with
        | none => exact .inl htotal
        | some .mic => exact .inr ⟨.mic, number, rfl, hnumber, hdone_le⟩
        | some .system => exact .inl hmic
    | system =>
      cases main with
      | starting => cases hstarted
      | running other =>
        cases other with
        | mic => cases hstarted
        | system => exact .inr ⟨.system, number, rfl, hnumber, hdone_le⟩
      | completing => cases hstarted
      | finishing => exact .inl htotal
      | ended failed | answered failed =>
        match failed with
        | none => exact .inl htotal
        | some .mic => cases hstarted
        | some .system => exact .inr ⟨.system, number, rfl, hnumber, hdone_le⟩

end Sources

theorem Audio.ceiling_pos (audio : Audio) : 0 < audio.ceiling := by
  have hpositive := audio.positive
  unfold Audio.ceiling
  omega

theorem Audio.ceiling_le (audio : Audio) : audio.ceiling ≤ 2 ^ 18 := by
  have hbounded := audio.bounded
  unfold Audio.ceiling
  omega

theorem Setup.total_pos {setup : Setup} (h : setup.measured.isSome = true) : 0 < setup.total := by
  obtain ⟨audio, haudio⟩ := Option.isSome_iff_exists.mp h
  have hceiling : setup.ceiling .mic = (audio .mic).ceiling := by
    unfold Setup.ceiling
    rw [haudio]
  have hpositive := (audio .mic).ceiling_pos
  unfold Setup.total
  omega

theorem Setup.total_le (setup : Setup) : setup.total ≤ 2 ^ 19 := by
  have hceiling : ∀ leg, setup.ceiling leg ≤ 2 ^ 18 := by
    intro leg
    unfold Setup.ceiling
    split
    · exact Nat.zero_le _
    · exact Audio.ceiling_le _
  have hmic := hceiling .mic
  have hsystem := hceiling .system
  unfold Setup.total
  omega

namespace Speech

/-! ## What is sent -/

def consumed (s : Speech) (leg : Leg) : List UInt8 := (s.readers leg).reader.consumed

/-- What the wire and the emitter have of a progress that sends seconds with `P`. -/
structure Sends (total : Nat) (P : Nat → Prop) (s : Speech) (p : Progress) : Prop where
  constant : p.total = total
  high : P p.high ∧ p.high ≤ total
  pairs : ∀ pair ∈ s.measurements, pair.2 = total ∧ pair.1 ≤ total ∧ P pair.1
  rising : s.measurements.Pairwise fun a b => a.1 < b.1
  first : ∀ pair, s.measurements.head? = some pair → pair.1 = 0
  last : p.off = false → s.measurements.getLast? = p.sent.map fun sent => (sent, total)
  emitter : p.off = false → s.emitter = p.sent.map fun sent => (sent, total)

section Publish

variable {s : Speech} {p : Progress} {total done : Nat} {P : Nat → Prop}

/-- The pairs of a wire with one measurement more. -/
theorem measurements_concat {s t : Speech} {high total : Nat}
    (hwire : t.wire = s.wire ++ [.measurement high total]) :
    t.measurements = s.measurements ++ [(high, total)] := by
  unfold measurements
  rw [hwire, filterMap_append]
  rfl

theorem Sends.sent_le (h : Sends total P s p) (hoff : p.off = false) {sent : Nat}
    (hsent : p.sent = some sent) : sent ≤ total := by
  have hlast := h.last hoff
  rw [hsent] at hlast
  exact (h.pairs _ (mem_of_getLast? hlast)).2.1

/-- Everything sent is at most what was sent last. -/
theorem le_of_getLast {pairs : List (Nat × Nat)} (hrising : pairs.Pairwise fun a b => a.1 < b.1)
    {last : Nat × Nat} (hlast : pairs.getLast? = some last) : ∀ pair ∈ pairs, pair.1 ≤ last.1 := by
  intro pair hpair
  obtain ⟨init, hpairs⟩ := List.getLast?_eq_some_iff.mp hlast
  rw [hpairs] at hpair hrising
  rcases mem_append.mp hpair with hinit | hsingle
  · exact Nat.le_of_lt ((pairwise_append.mp hrising).2.2 pair hinit last
      (mem_singleton.mpr rfl))
  · rw [mem_singleton.mp hsingle]

/-- One more pair above all that were sent. -/
theorem Sends.concat (h : Sends total P s p) (hoff : p.off = false) {high : Nat}
    (hhigh : P high ∧ high ≤ total) (habove : ∀ sent, p.sent = some sent → sent < high)
    (hfirst : p.sent = none → high = 0) :
    (∀ pair ∈ s.measurements ++ [(high, total)], pair.2 = total ∧ pair.1 ≤ total ∧ P pair.1) ∧
    (s.measurements ++ [(high, total)]).Pairwise (fun a b => a.1 < b.1) ∧
    ∀ pair, (s.measurements ++ [(high, total)]).head? = some pair → pair.1 = 0 := by
  have hlast := h.last hoff
  refine ⟨fun pair hpair => ?_, ?_, fun pair hpair => ?_⟩
  · rcases mem_append.mp hpair with hpair | hpair
    · exact h.pairs pair hpair
    · rw [mem_singleton.mp hpair]
      exact ⟨rfl, hhigh.2, hhigh.1⟩
  · refine pairwise_append.mpr ⟨h.rising, pairwise_singleton _ _, fun pair hpair other hother => ?_⟩
    rw [mem_singleton.mp hother]
    cases hsent : p.sent with
    | none =>
      rw [hsent] at hlast
      rw [List.getLast?_eq_none_iff.mp hlast] at hpair
      cases hpair
    | some sent =>
      rw [hsent] at hlast
      exact Nat.lt_of_le_of_lt (le_of_getLast h.rising hlast pair hpair) (habove sent hsent)
  · cases hpairs : s.measurements with
    | nil =>
      rw [hpairs] at hlast hpair
      have hsent : p.sent = none := by
        cases hsent : p.sent with
        | none => rfl
        | some =>
          rw [hsent] at hlast
          cases hlast
      obtain rfl : (high, total) = pair := Option.some.inj hpair
      exact hfirst hsent
    | cons =>
      rw [hpairs] at hpair
      apply h.first
      rw [hpairs]
      exact hpair

/-- Nothing that a progress of a transcription sends is dropped on its way. -/
theorem Sends.emits (h : Sends total P s p) (hoff : p.off = false) (hpositive : 0 < total)
    {high : Nat} (hhigh : high ≤ total) (habove : ∀ sent, p.sent = some sent → sent < high)
    (t : Speech) (ht : t.emitter = s.emitter) : t.emits high total = true := by
  unfold Speech.emits
  rw [ht, h.emitter hoff]
  cases hsent : p.sent with
  | none => simp [hpositive, hhigh]
  | some sent => simp [hpositive, hhigh, Nat.le_of_lt (habove sent hsent)]

/-- `_publish` sends a higher value once, and is off for good when `emit` raises. -/
theorem Sends.publish (h : Sends total P s p) (hp : s.progress = some p) (hpositive : 0 < total)
    (hmax : ∀ a b, P a → P b → P (max a b)) (hdone : P done ∧ done ≤ total)
    (hfirst : p.off = false → p.sent = none → p.high = 0 ∧ done = 0)
    (force : Bool) (now : ℚ) (emission : Emission) :
    ∃ p', (s.publish done force now emission).progress = some p' ∧
      Sends total P (s.publish done force now emission) p' ∧
      (force = true → p'.off = true ∨ ∃ sent, p'.sent = some sent ∧ done ≤ sent) ∧
      (p.off = true ∨ p.sent.isSome = true → p'.off = true ∨ p'.sent.isSome = true) ∧
      (p.off = true ∨ p.sent = some total → (p'.off = true ∨ p'.sent = some total) ∧
        (s.publish done force now emission).wire = s.wire) := by
  have hhigh : P (max p.high (min done p.total)) ∧ max p.high (min done p.total) ≤ total := by
    rw [h.constant, Nat.min_eq_left hdone.2]
    exact ⟨hmax _ _ h.high.1 hdone.1, Nat.max_le.mpr ⟨h.high.2, hdone.2⟩⟩
  have hle : done ≤ max p.high (min done p.total) := by
    rw [h.constant, Nat.min_eq_left hdone.2]
    exact Nat.le_max_right _ _
  unfold Speech.publish
  rw [hp]
  dsimp only
  split
  · rename_i hoff
    exact ⟨p, hp, h, fun _ => .inl hoff, fun _ => .inl hoff, fun _ => ⟨.inl hoff, rfl⟩⟩
  · rename_i hon
    have hoff : p.off = false := Bool.eq_false_of_not_eq_true hon
    -- nothing is sent: only the high mark moves
    have hquiet : Sends total P
        { s with progress := some { p with high := max p.high (min done p.total) } }
        { p with high := max p.high (min done p.total) } :=
      ⟨h.constant, hhigh, h.pairs, h.rising, h.first, h.last, h.emitter⟩
    split
    · rename_i hsent
      obtain ⟨sent, hsent, hhigh_le⟩ := (Option.any_eq_true _ _).mp hsent
      exact ⟨_, rfl, hquiet,
        fun _ => .inr ⟨sent, hsent, Nat.le_trans hle (of_decide_eq_true hhigh_le)⟩,
        fun hbegun => hbegun, fun hfinal => ⟨hfinal, rfl⟩⟩
    · rename_i hnew
      have habove : ∀ sent, p.sent = some sent → sent < max p.high (min done p.total) := by
        intro sent hsent
        apply Nat.lt_of_not_le
        intro hsent_le
        exact hnew ((Option.any_eq_true _ _).mpr ⟨sent, hsent, decide_eq_true hsent_le⟩)
      have hnotfinal : ¬ (p.off = true ∨ p.sent = some total) := by
        rintro (h | hsent)
        · exact hon h
        · exact absurd (habove total hsent) (Nat.not_lt.mpr hhigh.2)
      split
      · rename_i hthrottled
        exact ⟨_, rfl, hquiet, fun hforce => absurd hforce hthrottled.1, fun hbegun => hbegun,
          fun hfinal => absurd hfinal hnotfinal⟩
      · have hemits := h.emits hoff hpositive hhigh.2 habove
          { s with progress := some { p with high := max p.high (min done p.total) } } rfl
        have hzero : p.sent = none → max p.high (min done p.total) = 0 := by
          intro hsent
          obtain ⟨hhigh, hdone⟩ := hfirst hoff hsent
          rw [hhigh, hdone]
          simp
        obtain ⟨hpairs, hrising, hhead⟩ := h.concat hoff hhigh habove hzero
        unfold Speech.emit
        rw [h.constant] at hhigh hpairs hrising hhead hemits habove ⊢
        rw [if_neg (not_not.mpr hemits)]
        cases emission with
        | returned =>
          refine ⟨_, rfl, ⟨rfl, hhigh, ?_, ?_, ?_, fun _ => ?_, fun _ => rfl⟩, fun _ => ?_,
            fun _ => .inr rfl, fun hfinal => absurd hfinal hnotfinal⟩
          · rw [measurements_concat rfl]
            exact hpairs
          · rw [measurements_concat rfl]
            exact hrising
          · rw [measurements_concat rfl]
            exact hhead
          · rw [measurements_concat rfl, List.getLast?_concat]
            rfl
          · rw [h.constant] at hle
            exact .inr ⟨_, rfl, hle⟩
        | raised written =>
          cases written with
          | false =>
            exact ⟨_, rfl, ⟨rfl, hhigh, h.pairs, h.rising, h.first, nofun, nofun⟩,
              fun _ => .inl rfl, fun _ => .inl rfl,
              fun hfinal => absurd hfinal hnotfinal⟩
          | true =>
            refine ⟨_, rfl, ⟨rfl, hhigh, ?_, ?_, ?_, nofun, nofun⟩,
              fun _ => .inl rfl, fun _ => .inl rfl,
              fun hfinal => absurd hfinal hnotfinal⟩
            · rw [measurements_concat rfl]
              exact hpairs
            · rw [measurements_concat rfl]
              exact hrising
            · rw [measurements_concat rfl]
              exact hhead

/-- What a progress sends may be described more loosely, and nothing else matters. -/
theorem Sends.mono {t : Speech} {Q : Nat → Prop} (h : Sends total P s p) (hPQ : ∀ n, P n → Q n)
    (hmeasurements : t.measurements = s.measurements) (hemitter : t.emitter = s.emitter) :
    Sends total Q t p where
  constant := h.constant
  high := ⟨hPQ _ h.high.1, h.high.2⟩
  pairs pair hpair := by
    rw [hmeasurements] at hpair
    obtain ⟨htotal, hle, hP⟩ := h.pairs pair hpair
    exact ⟨htotal, hle, hPQ _ hP⟩
  rising := by
    rw [hmeasurements]
    exact h.rising
  first := by
    rw [hmeasurements]
    exact h.first
  last := by
    rw [hmeasurements]
    exact h.last
  emitter := by
    rw [hemitter]
    exact h.emitter

end Publish

/-! ## What `_publish` leaves alone -/

def measured (pairs : List (Nat × Nat)) : List Frame :=
  pairs.map fun pair => .measurement pair.1 pair.2

structure Published (s t : Speech) : Prop where
  main : t.main = s.main
  readers : t.readers = s.readers
  listens : t.progress.isSome = s.progress.isSome
  silent : s.progress = none → t = s
  wire : ∃ more, t.wire = s.wire ++ measured more

theorem published_publish (s : Speech) (done : Nat) (force : Bool) (now : ℚ) (emission : Emission) :
    Published s (s.publish done force now emission) := by
  have hsame : s.wire = s.wire ++ measured [] := (append_nil _).symm
  unfold Speech.publish
  cases hp : s.progress with
  | none => exact ⟨rfl, rfl, rfl, fun _ => rfl, [], hsame⟩
  | some =>
    have hlistens : ∀ q : Progress, (some q).isSome = s.progress.isSome := by
      rw [hp]
      exact fun _ => rfl
    have hsilent : ∀ t : Speech, s.progress = none → t = s := by
      rw [hp]
      exact fun _ => nofun
    dsimp only
    split
    · exact ⟨rfl, rfl, rfl, hsilent s, [], hsame⟩
    · split
      · exact ⟨rfl, rfl, hlistens _, hsilent _, [], hsame⟩
      · split
        · exact ⟨rfl, rfl, hlistens _, hsilent _, [], hsame⟩
        · unfold Speech.emit
          split
          · exact ⟨rfl, rfl, hlistens _, hsilent _, [], hsame⟩
          · cases emission with
            | returned => exact ⟨rfl, rfl, hlistens _, hsilent _, [(_, _)], rfl⟩
            | raised written =>
              cases written with
              | false => exact ⟨rfl, rfl, hlistens _, hsilent _, [], hsame⟩
              | true => exact ⟨rfl, rfl, hlistens _, hsilent _, [(_, _)], rfl⟩

/-! ## The invariant -/

/-- Both legs have succeeded, and `finish` has run. -/
def Complete : Main → Prop
  | .ended none | .answered none => True
  | _ => False

/-- Nothing but measurements follows a result, and nothing at all where both legs
succeeded. -/
def Answered (main : Main) (wire : List Frame) : Prop :=
  match main with
  | .answered failed => ∃ before digests after, wire = before ++ .result digests :: measured after ∧
      (∀ digests, Frame.result digests ∉ before) ∧ (failed = none → after = [])
  | _ => ∀ digests, Frame.result digests ∉ wire

structure Honest (setup : Setup) (s : Speech) : Prop where
  listens : s.progress.isSome = setup.measured.isSome
  silent : s.progress = none → s.measurements = []
  sends : ∀ p, s.progress = some p → Sends setup.total (Sourced setup s.main s.consumed) s p
  fresh : ∀ p, s.progress = some p → s.main = .starting →
    p.off = false ∧ p.sent = none ∧ p.high = 0
  begun : ∀ p, s.progress = some p → s.main ≠ .starting → p.off = true ∨ p.sent.isSome = true
  complete : ∀ p, s.progress = some p → Complete s.main → p.off = true ∨ p.sent = some setup.total
  unborn : ∀ leg, ¬ s.main.Started leg → (s.readers leg).place = .unborn ∧ s.consumed leg = []
  aligned : ∀ leg, (s.readers leg).reader.Aligned
  reporting : ∀ leg seconds, (s.readers leg).place = .reporting seconds →
    ∃ number, Reported (s.consumed leg) number ∧ seconds = min number (setup.audio leg).duration
  answered : Answered s.main s.wire

theorem not_mem_measured (digests : Option (List (String × String))) (pairs : List (Nat × Nat)) :
    Frame.result digests ∉ measured pairs := by
  intro hmem
  obtain ⟨pair, -, hpair⟩ := mem_map.mp hmem
  cases hpair

theorem Answered.measure {main : Main} {wire : List Frame} (h : Answered main wire)
    (more : List (Nat × Nat)) (hover : Complete main → more = []) :
    Answered main (wire ++ measured more) := by
  have hnone : (∀ digests, Frame.result digests ∉ wire) →
      ∀ digests, Frame.result digests ∉ wire ++ measured more := by
    intro hwire digests hmem
    exact (mem_append.mp hmem).elim (hwire digests) (not_mem_measured digests more)
  cases main with
  | answered =>
    obtain ⟨before, digests, after, rfl, hbefore, hafter⟩ := h
    refine ⟨before, digests, after ++ more, ?_, hbefore, fun hfailed => ?_⟩
    · simp [measured]
    · subst hfailed
      rw [hafter rfl, hover trivial]
      rfl
  | starting | running | completing | finishing | ended => exact hnone h

theorem answered_iff {main : Main} (hmain : ∀ failed, main ≠ .answered failed) (wire : List Frame) :
    Answered main wire ↔ ∀ digests, Frame.result digests ∉ wire := by
  cases main with
  | answered failed => exact absurd rfl (hmain failed)
  | starting | running | completing | finishing | ended => exact Iff.rfl

theorem honest_initial (setup : Setup) : Honest setup (initial setup) where
  listens := Option.isSome_map
  silent _ := rfl
  sends p hp := by
    obtain ⟨_, -, rfl⟩ := Option.map_eq_some_iff.mp hp
    exact ⟨rfl, ⟨.inl rfl, Nat.zero_le _⟩, nofun, List.Pairwise.nil, nofun, fun _ => rfl, fun _ => rfl⟩
  fresh p hp _ := by
    obtain ⟨_, -, rfl⟩ := Option.map_eq_some_iff.mp hp
    exact ⟨rfl, rfl, rfl⟩
  begun p _ hmain := absurd rfl hmain
  complete p _ hcomplete := by cases hcomplete
  unborn leg _ := ⟨rfl, rfl⟩
  aligned leg := Reader.aligned_start _
  reporting leg seconds hplace := by cases hplace
  answered := nofun

end Speech

end YawnApp.Worker
