import YawnApp.Worker.SpeechEvents

set_option autoImplicit false

/-!
# Runs of a transcription

Every step keeps the invariant of the threads.  What every event says follows, and
what the tracker of the request makes of it.
-/

namespace YawnApp.Worker

open YawnApp.SessionCore

namespace Speech

section Steps

variable {setup : Setup} {s t : Speech}

/-- The main thread moves on without an event. -/
theorem Honest.move (h : Honest setup s) (hreaders : t.readers = s.readers)
    (hprogress : t.progress = s.progress) (hemitter : t.emitter = s.emitter)
    (hmeasurements : t.measurements = s.measurements)
    (hstarting : t.main = .starting ↔ s.main = .starting)
    (hcompleted : s.main.completed setup ≤ t.main.completed setup)
    (hstarted : ∀ leg, s.main.Started leg → t.main.Started leg)
    (hcomplete : Complete t.main → Complete s.main ∨ s.progress = none)
    (hanswered : Answered t.main t.wire) : Honest setup t := by
  have hconsumed : t.consumed = s.consumed := by
    unfold consumed
    rw [hreaders]
  refine ⟨?_, ?_, ?_, ?_, ?_, ?_, ?_, ?_, ?_, hanswered⟩
  · rw [hprogress]
    exact h.listens
  · rw [hprogress, hmeasurements]
    exact h.silent
  · intro p hp
    rw [hprogress] at hp
    refine (h.sends p hp).mono (fun n hn => ?_) hmeasurements hemitter
    refine hn.mono hcompleted fun leg => ⟨[], ?_⟩
    rw [hconsumed, List.append_nil]
  · intro p hp hmain
    rw [hprogress] at hp
    exact h.fresh p hp (hstarting.mp hmain)
  · intro p hp hmain
    rw [hprogress] at hp
    exact h.begun p hp fun hs => hmain (hstarting.mpr hs)
  · intro p hp hmain
    rw [hprogress] at hp
    rcases hcomplete hmain with hmain | hnone
    · exact h.complete p hp hmain
    · rw [hp] at hnone
      cases hnone
  · intro leg hleg
    rw [hreaders, hconsumed]
    exact h.unborn leg fun hs => hleg (hstarted leg hs)
  · rw [hreaders]
    exact h.aligned
  · rw [hreaders, hconsumed]
    exact h.reporting

/-- The reader of a leg that was started moves on. -/
theorem Honest.setReader (h : Honest setup s) {leg : Leg} {thread : ReaderThread}
    (hstarted : s.main.Started leg)
    (hconsumed : ∃ more, thread.reader.consumed = s.consumed leg ++ more)
    (haligned : thread.reader.Aligned)
    (hreporting : ∀ seconds, thread.place = .reporting seconds → ∃ number,
      Reported thread.reader.consumed number ∧ seconds = min number (setup.audio leg).duration) :
    Honest setup (s.setReader leg thread) := by
  have hreader : ∀ other, (s.setReader leg thread).readers other =
      if other = leg then thread else s.readers other := fun _ => rfl
  refine ⟨h.listens, h.silent, ?_, h.fresh, h.begun, h.complete, ?_, ?_, ?_, h.answered⟩
  · intro p hp
    refine (h.sends p hp).mono (fun n hn => ?_) rfl rfl
    apply hn.mono (Nat.le_refl _)
    intro other
    unfold consumed
    rw [hreader]
    split
    · rename_i heq
      rw [heq]
      exact hconsumed
    · exact ⟨[], (List.append_nil _).symm⟩
  · intro other hother
    have hne : other ≠ leg := by
      intro heq
      rw [heq] at hother
      exact hother hstarted
    unfold consumed
    rw [hreader, if_neg hne]
    exact h.unborn other hother
  · intro other
    rw [hreader]
    split
    · exact haligned
    · exact h.aligned other
  · intro other seconds
    unfold consumed
    rw [hreader]
    split
    · rename_i heq
      rw [heq]
      exact hreporting seconds
    · exact h.reporting other seconds

/-- What a progress is when it has published. -/
theorem Honest.published (h : Honest setup s) {p : Progress} (hp : s.progress = some p)
    {P : Nat → Prop} (hP : ∀ n, Sourced setup s.main s.consumed n → P n)
    (hmax : ∀ a b, P a → P b → P (max a b)) {done : Nat} (hdone : P done ∧ done ≤ setup.total)
    {force : Bool} (hstart : s.main = .starting → force = true ∧ done = 0)
    (now : ℚ) (emission : Emission) :
    ∃ p', (s.publish done force now emission).progress = some p' ∧
      Sends setup.total P (s.publish done force now emission) p' ∧
      (p'.off = true ∨ p'.sent.isSome = true) ∧
      (force = true → setup.total ≤ done → p'.off = true ∨ p'.sent = some setup.total) ∧
      (Complete s.main → (p'.off = true ∨ p'.sent = some setup.total) ∧
        (s.publish done force now emission).wire = s.wire) := by
  have hpositive : 0 < setup.total := by
    apply Setup.total_pos
    rw [← h.listens, hp]
    rfl
  have hfirst : p.off = false → p.sent = none → p.high = 0 ∧ done = 0 := by
    intro hoff hsent
    have hstarting : s.main = .starting := by
      by_contra hne
      have hbegun := h.begun p hp hne
      rw [hoff, hsent] at hbegun
      simp at hbegun
    exact ⟨(h.fresh p hp hstarting).2.2, (hstart hstarting).2⟩
  obtain ⟨p', hp', hsends, hforce, hbegun, hfinal⟩ :=
    ((h.sends p hp).mono hP rfl rfl).publish hp hpositive hmax hdone hfirst force now emission
  refine ⟨p', hp', hsends, ?_, ?_, fun hcomplete => hfinal (h.complete p hp hcomplete)⟩
  · by_cases hstarting : s.main = .starting
    · rcases hforce (hstart hstarting).1 with hoff | ⟨sent, hsent, -⟩
      · exact .inl hoff
      · rw [hsent]
        exact .inr rfl
    · exact hbegun (h.begun p hp hstarting)
  · intro hforced hle
    rcases hforce hforced with hoff | ⟨sent, hsent, hdone_le⟩
    · exact .inl hoff
    · by_cases hoff : p'.off = true
      · exact .inl hoff
      · have hsent_le := hsends.sent_le (Bool.eq_false_of_not_eq_true hoff) hsent
        right
        rw [hsent, Nat.le_antisymm hsent_le (Nat.le_trans hle hdone_le)]

/-- The seconds are published, and the main thread moves on or stays. -/
theorem Honest.publish (h : Honest setup s) (main : Main) {done : Nat} (force : Bool)
    (hdone : Sourced setup main s.consumed done ∧ done ≤ setup.total)
    (hstart : s.main = .starting → force = true ∧ done = 0) (hmain : main ≠ .starting)
    (hcompleted : s.main.completed setup ≤ main.completed setup)
    (hstarted : ∀ leg, s.main.Started leg → main.Started leg)
    (hcomplete : Complete main → Complete s.main ∨ force = true ∧ setup.total ≤ done)
    (hstays : main = s.main ∨ ∀ failed, s.main ≠ .answered failed ∧ main ≠ .answered failed)
    (now : ℚ) (emission : Emission) :
    Honest setup { s.publish done force now emission with main := main } := by
  have hframe := published_publish s done force now emission
  have hsourced : ∀ n, Sourced setup s.main s.consumed n → Sourced setup main s.consumed n := by
    intro n hn
    exact hn.mono hcompleted fun leg => ⟨[], (List.append_nil _).symm⟩
  have hpublished := fun p (hp : s.progress = some p) =>
    h.published hp hsourced (fun a b ha hb => ha.max hb) hdone hstart now emission
  generalize s.publish done force now emission = t at hframe hpublished ⊢
  have hconsumed : t.consumed = s.consumed := by
    unfold consumed
    rw [hframe.readers]
  -- the progress of the state before, and what it is now
  have hnow : ∀ q, t.progress = some q →
      Sends setup.total (Sourced setup main s.consumed) t q ∧ (q.off = true ∨ q.sent.isSome = true) ∧
      (Complete main → q.off = true ∨ q.sent = some setup.total) := by
    intro q hq
    obtain ⟨p, hp⟩ : ∃ p, s.progress = some p := by
      apply Option.isSome_iff_exists.mp
      rw [← hframe.listens, hq]
      rfl
    obtain ⟨p', hp', hsends, hbegun, hforced, hfinal⟩ := hpublished p hp
    obtain rfl : q = p' := Option.some.inj (hq.symm.trans hp')
    refine ⟨hsends, hbegun, fun hc => ?_⟩
    rcases hcomplete hc with hc | ⟨hf, hle⟩
    · exact (hfinal hc).1
    · exact hforced hf hle
  have hquiet : Complete s.main → t.wire = s.wire := by
    intro hc
    cases hp : s.progress with
    | none => rw [hframe.silent hp]
    | some p =>
      obtain ⟨_, -, -, -, -, hfinal⟩ := hpublished p hp
      exact (hfinal hc).2
  refine ⟨hframe.listens.trans h.listens, fun hnone => ?_, fun q hq => ?_,
    fun _ _ hm => absurd hm hmain, fun q hq _ => (hnow q hq).2.1, fun q hq => (hnow q hq).2.2,
    fun leg hleg => ?_, ?_, ?_, ?_⟩
  · have hs : s.progress = none := by
      apply Option.not_isSome_iff_eq_none.mp
      rw [← hframe.listens]
      exact Option.not_isSome_iff_eq_none.mpr hnone
    obtain rfl := hframe.silent hs
    exact h.silent hs
  · change Sends setup.total (Sourced setup main t.consumed) _ q
    rw [hconsumed]
    exact (hnow q hq).1.mono (fun _ hn => hn) rfl rfl
  · change (t.readers leg).place = _ ∧ t.consumed leg = []
    rw [hconsumed, hframe.readers]
    exact h.unborn leg fun hs => hleg (hstarted leg hs)
  · change ∀ leg, (t.readers leg).reader.Aligned
    rw [hframe.readers]
    exact h.aligned
  · change ∀ leg seconds, (t.readers leg).place = _ → ∃ number, Reported (t.consumed leg) number ∧ _
    rw [hconsumed, hframe.readers]
    exact h.reporting
  · change Answered main t.wire
    obtain ⟨more, hwire⟩ := hframe.wire
    have hmore : Complete s.main → more = [] := by
      intro hc
      have hsame := hquiet hc
      rw [hwire] at hsame
      exact List.map_eq_nil_iff.mp (List.append_right_eq_self.mp hsame)
    have hmeasured := h.answered.measure more hmore
    rw [hwire]
    rcases hstays with rfl | hover
    · exact hmeasured
    · exact (answered_iff (fun failed => (hover failed).2) _).mpr
        ((answered_iff (fun failed => (hover failed).1) _).mp hmeasured)

/-- A helper starts where its reader has not been born. -/
theorem Honest.startReader (h : Honest setup s) (leg : Leg) (hstarted : s.main.Started leg) :
    Honest setup (s.setReader leg { s.readers leg with place := .reading }) :=
  h.setReader hstarted ⟨[], (List.append_nil _).symm⟩ (h.aligned leg) nofun

theorem Honest.advance (h : Honest setup s) (now : ℚ) (emission : Emission) :
    Honest setup (s.advance setup now emission) := by
  unfold Speech.advance
  cases hmain : s.main with
  | starting =>
    have hcompleted : s.main.completed setup ≤ (Main.running .mic).completed setup := by
      rw [hmain]
      exact Nat.le_refl 0
    have hstarted : ∀ leg, s.main.Started leg → (Main.running .mic).Started leg := by
      rw [hmain]
      exact fun _ => nofun
    have hpublish := h.publish (.running .mic) true ⟨.inl rfl, Nat.zero_le _⟩
      (fun _ => ⟨rfl, rfl⟩) nofun hcompleted hstarted nofun
      (.inr fun failed => ⟨by rw [hmain]; nofun, nofun⟩) now emission
    exact hpublish.startReader .mic trivial
  | completing =>
    have hcompleted : s.main.completed setup ≤ (Main.running .system).completed setup := by
      rw [hmain]
      exact Nat.le_refl _
    have hpublish := h.publish (.running .system) true
      ⟨.inr (.inl ⟨.inl rfl, Nat.le_refl _⟩), setup.ceiling_mic_le⟩
      (by rw [hmain]; nofun) nofun hcompleted (fun leg _ => by cases leg <;> trivial) nofun
      (.inr fun failed => ⟨by rw [hmain]; nofun, nofun⟩) now emission
    exact hpublish.startReader .system trivial
  | finishing =>
    have hcompleted : s.main.completed setup ≤ (Main.ended none).completed setup := by
      rw [hmain]
      exact Nat.le_refl _
    have hover : ∀ failed, s.main ≠ .answered failed ∧ Main.ended none ≠ .answered failed := by
      rw [hmain]
      exact fun failed => ⟨nofun, nofun⟩
    dsimp only
    split
    · rename_i hp
      refine h.move rfl rfl rfl rfl ?_ hcompleted (fun leg _ => by cases leg <;> trivial)
        (fun _ => .inr hp) ((answered_iff (fun failed => (hover failed).2) _).mpr ?_)
      · rw [hmain]
        exact ⟨nofun, nofun⟩
      · exact (answered_iff (fun failed => (hover failed).1) _).mp h.answered
    · rename_i p hp
      have htotal := (h.sends p hp).constant
      rw [htotal]
      exact h.publish (.ended none) true
        ⟨.inr (.inl ⟨.inr rfl, Nat.le_refl _⟩), Nat.le_refl _⟩ (by rw [hmain]; nofun) nofun hcompleted
        (fun leg _ => by cases leg <;> trivial) (fun _ => .inr ⟨rfl, Nat.le_refl _⟩) (.inr hover)
        now emission
  | running | ended | answered => exact h

theorem Honest.endLeg (h : Honest setup s) (succeeded : Bool) : Honest setup (s.endLeg succeeded) := by
  unfold Speech.endLeg
  cases hmain : s.main with
  | running leg =>
    have hanswered : ∀ digests, Frame.result digests ∉ s.wire := by
      have hs := h.answered
      rw [hmain] at hs
      exact hs
    have hmove : ∀ main : Main, main ≠ .starting → (∀ failed, main ≠ .answered failed) →
        (Main.running leg).completed setup ≤ main.completed setup →
        (∀ other, (Main.running leg).Started other → main.Started other) → ¬ Complete main →
        Honest setup { s with
          closed := fun other => other = leg || s.closed other
          main := main } := by
      intro main hstarting hover hcompleted hstarted hcomplete
      refine h.move rfl rfl rfl rfl ?_ ?_ ?_ (fun hc => absurd hc hcomplete)
        ((answered_iff hover _).mpr hanswered)
      · rw [hmain]
        exact ⟨fun hm => absurd hm hstarting, nofun⟩
      · rw [hmain]
        exact hcompleted
      · rw [hmain]
        exact hstarted
    dsimp only
    split
    · refine hmove (.ended (some leg)) nofun nofun ?_ ?_ id
      · cases leg <;> exact Nat.le_refl _
      · intro other
        cases leg <;> cases other <;> exact id
    · cases leg with
      | mic =>
        refine hmove .completing nofun nofun (Nat.zero_le _) ?_ id
        intro other
        cases other <;> exact id
      | system =>
        refine hmove .finishing nofun nofun setup.ceiling_mic_le ?_ id
        intro other _
        cases other <;> trivial
  | starting | completing | finishing | ended | answered => exact h

theorem Honest.finishRequest (h : Honest setup s) (digests : Option (List (String × String))) :
    Honest setup (s.finishRequest digests) := by
  unfold Speech.finishRequest
  cases hmain : s.main with
  | ended failed =>
    have hanswered := h.answered
    rw [hmain] at hanswered
    refine h.move rfl rfl rfl ?_ ?_ ?_ ?_ ?_ ⟨s.wire, _, [], rfl, hanswered, fun _ => rfl⟩
    · unfold measurements
      rw [List.filterMap_append]
      exact List.append_nil _
    · rw [hmain]
      exact ⟨nofun, nofun⟩
    · rw [hmain]
      match failed with
      | none | some .mic | some .system => exact Nat.le_refl _
    · rw [hmain]
      intro leg
      match failed, leg with
      | none, _ | some .mic, .mic | some .mic, .system | some .system, _ => exact id
    · rw [hmain]
      intro hcomplete
      cases failed with
      | none => exact .inl trivial
      | some => cases hcomplete
  | starting | running | completing | finishing | answered => exact h

theorem Honest.heartbeat (h : Honest setup s) : Honest setup s.heartbeat := by
  have hmeasurements : ({ s with wire := s.wire ++ [.heartbeat] } : Speech).measurements =
      s.measurements := by
    unfold measurements
    rw [List.filterMap_append]
    exact List.append_nil _
  unfold Speech.heartbeat
  split
  · exact h
  · rename_i hover
    have hanswered := (answered_iff hover s.wire).mp h.answered
    refine h.move rfl rfl rfl hmeasurements Iff.rfl (Nat.le_refl _) (fun _ => id) .inl
      ((answered_iff hover _).mpr fun digests hmem => ?_)
    rcases List.mem_append.mp hmem with hmem | hmem
    · exact hanswered digests hmem
    · cases List.mem_singleton.mp hmem

/-- A thread that reads was born with its leg. -/
theorem Honest.started (h : Honest setup s) (leg : Leg) (hplace : (s.readers leg).place ≠ .unborn) :
    s.main.Started leg := by
  by_contra hstarted
  exact hplace (h.unborn leg hstarted).1

theorem Honest.read (h : Honest setup s) (leg : Leg) (failed : Bool) :
    Honest setup (s.read setup leg failed) := by
  unfold Speech.read
  dsimp only
  cases hplace : (s.readers leg).place with
  | reading =>
    have hstarted := h.started leg (by rw [hplace]; nofun)
    have haligned := (s.readers leg).reader.aligned_turn (setup.audio leg).duration
    have hconsumed : ∃ more, ((s.readers leg).reader.turn (setup.audio leg).duration).1.consumed =
        s.consumed leg ++ more := ⟨_, Reader.turn_consumed _ _⟩
    dsimp only
    split
    · exact h.setReader hstarted ⟨[], (List.append_nil _).symm⟩ (h.aligned leg) nofun
    · split
      · rename_i seconds hseconds
        split
        · apply h.setReader hstarted hconsumed haligned
          intro other hother
          obtain rfl := ReaderAt.reporting.inj hother
          exact (h.aligned leg).reported hseconds
        · exact h.setReader hstarted hconsumed haligned nofun
      · exact h.setReader hstarted hconsumed haligned nofun
  | unborn | reporting | finished => exact h

theorem Honest.report (h : Honest setup s) (leg : Leg) (now : ℚ) (emission : Emission) :
    Honest setup (s.report setup leg now emission) := by
  unfold Speech.report
  dsimp only
  cases hplace : (s.readers leg).place with
  | reporting seconds =>
    have hstarted := h.started leg (by rw [hplace]; nofun)
    have hmain : s.main ≠ .starting := by
      intro hstarting
      rw [hstarting] at hstarted
      cases hstarted
    have hread := h.startReader leg hstarted
    obtain ⟨number, hnumber, rfl⟩ := h.reporting leg seconds hplace
    have hconsumed : (s.setReader leg { s.readers leg with place := .reading }).consumed leg =
        s.consumed leg := by
      change (if leg = leg then { s.readers leg with place := ReaderAt.reading } else
        s.readers leg).reader.consumed = _
      rw [if_pos rfl]
      rfl
    have hdone : Sourced setup s.main (s.setReader leg { s.readers leg with place := .reading }).consumed
        (setup.base leg + min ⌊min number (setup.audio leg).duration⌋₊ (setup.ceiling leg)) := by
      refine .inr (.inr ⟨leg, number, ?_, rfl⟩)
      rw [hconsumed]
      exact hnumber
    have hpublish := hread.publish s.main false
      ⟨hdone, setup.base_add_le leg _⟩ (fun hs => absurd hs hmain) hmain (Nat.le_refl _)
      (fun _ => id) .inl (.inl rfl) now emission
    have hsame := (published_publish (s.setReader leg { s.readers leg with place := .reading })
      (setup.base leg + min ⌊min number (setup.audio leg).duration⌋₊ (setup.ceiling leg)) false now
      emission).main
    dsimp only
    generalize (s.setReader leg { s.readers leg with place := .reading }).publish
      (setup.base leg + min ⌊min number (setup.audio leg).duration⌋₊ (setup.ceiling leg)) false now
      emission = t at hpublish hsame ⊢
    change t.main = s.main at hsame
    rw [← hsame] at hpublish
    exact hpublish
  | unborn | reading | finished => exact h

theorem Honest.step (h : Honest setup s) (step : Step) : Honest setup (s.step setup step) := by
  cases step with
  | advance now emission => exact h.advance now emission
  | endLeg succeeded => exact h.endLeg succeeded
  | finishRequest digests => exact h.finishRequest digests
  | heartbeat => exact h.heartbeat
  | read leg failed => exact h.read leg failed
  | report leg now emission => exact h.report leg now emission

theorem Honest.run (h : Honest setup s) (steps : List Step) : Honest setup (s.run setup steps) := by
  induction steps generalizing s with
  | nil => exact h
  | cons step steps ih => exact ih (h.step step)

end Steps

end Speech

end YawnApp.Worker
