import YawnApp.SessionCore.Recorded
import YawnApp.Worker.ProfileDiscard

set_option autoImplicit false

/-!
# Discards that are stopped and repeated

A discard that is stopped leaves one of three things: a candidate that still has its
voiceprint, no candidate directory, or a candidate directory without a voiceprint.
Repeating the discard removes the first, answers for the second and refuses the third,
whatever comes later.
-/

namespace YawnApp.Worker

open YawnApp.Foundation YawnApp.SessionCore Durable

section Runs

variable {B : Type} [Platform B] {isalnum : Char → Bool} {profileId : String} {s : AppData B}
  {mode : Nat} {bytes : B} {entries : Directory String (Leaf B)} {number : Nat}
  {q : ProfileQuarantine}

/-! ## The states between -/

/-- A candidate directory below a private chain.  Its voiceprint is a file of the user
with this mode and these bytes, and the other entries are the user's and no
directories. -/
def HoldsCandidate (profileId : String) (mode : Nat) (bytes : B) (s : AppData B) : Prop :=
  ∃ q entries number, Chain profileId q s entries ∧ Removable entries ∧
    entries.entry voiceprintName = some (.regular true number mode bytes)

/-- A candidate directory without a voiceprint. -/
def LostVoiceprint (profileId : String) (s : AppData B) : Prop :=
  ∃ q entries, Chain profileId q s entries ∧ entries.entry voiceprintName = none

/-- The voiceprint can be read by a discard. -/
def Readable (mode : Nat) (bytes : B) : Prop :=
  mode = 0o600 ∧ ByteString.size bytes ≤ maxProfileBytes

/-- The arguments of a discard. -/
def discardArguments (profileId : String) (profileSha256 : Value) : Value :=
  .object [("profile_id", .string profileId), ("profile_sha256", profileSha256)]

/-- A discard of the candidate with these bytes. -/
def discard (isalnum : Char → Bool) (profileId : String) (bytes : B) (listdir : Listing) :
    Durable (AppData B) DiscardRefused (List (String × String)) :=
  profileDiscard isalnum listdir (discardArguments profileId (.string (Platform.sha256 bytes)))

/-- The states a discard passes. -/
def discardStates (isalnum : Char → Bool) (profileId : String) (bytes : B) (listdir : Listing)
    (s : AppData B) : List (AppData B) := ((discard isalnum profileId bytes listdir).exec s).trace

/-- A discard that is stopped after it unlinked the voiceprint and before it removed
the directory: the flush of the directory comes between. -/
def StopsBetween (profileId : String) (s : AppData B) (attempt : Listing × Nat) : Prop :=
  ∃ entries, candidateEntries profileId s = some entries ∧
    voiceprintName ∈ (attempt.1.order entries.names).take attempt.2 ∧
    attempt.2 ≤ entries.names.length + 1

/-- A discard succeeds, and there is no candidate directory afterwards. -/
def Repeats (isalnum : Char → Bool) (profileId : String) (bytes : B) (s : AppData B) : Prop :=
  ∀ listdir, ((discard isalnum profileId bytes listdir).exec s).result =
      .ok [("profile", Platform.sha256 bytes)] ∧
    (((discard isalnum profileId bytes listdir).exec s).final s).candidateAt profileId = none

/-! ## One call -/

omit [Platform B] in
theorem opened_of_entries (h : Chain profileId q s entries)
    (hvoiceprint : entries.entry voiceprintName = some (.regular true number mode bytes)) :
    openProfileCandidate profileId s = if mode = 0o600 then .ok (some bytes)
      else .error (.adapter "profile candidate is not an owner-private regular file") := by
  unfold openProfileCandidate
  rw [h.candidateEntries, Option.bind_some, hvoiceprint]
  by_cases hmode : mode = 0o600 <;> simp [hmode]

theorem discardCandidate_of_discarded (h : Discarded profileId s) (listdir : Listing)
    (sha256 : String) :
    (discardCandidate listdir profileId sha256).exec s = ⟨[], .ok [("profile", sha256)]⟩ := by
  unfold discardCandidate
  rw [bind_inspect_of_ok _ h.absent']
  rfl

theorem discardCandidate_of_lost (h : LostVoiceprint profileId s) (listdir : Listing)
    (sha256 : String) : (discardCandidate listdir profileId sha256).exec s =
      ⟨[], .error (.adapter "profile candidate is missing or unsafe")⟩ := by
  obtain ⟨q, entries, hchain, hlost⟩ := h
  have hopen : openProfileCandidate profileId s =
      .error (.adapter "profile candidate is missing or unsafe") := by
    unfold openProfileCandidate
    rw [hchain.candidateEntries, Option.bind_some, hlost]
  unfold discardCandidate
  rw [bind_inspect_of_ok _ hchain.absent, if_neg Bool.false_ne_true,
    bind_inspect_of_ok _ hchain.opened, bind_inspect_of_error _ hopen]

/-- What can be read and has the digest is removed. -/
theorem discardCandidate_of_readable (hchain : Chain profileId q s entries)
    (hremovable : Removable entries)
    (hvoiceprint : entries.entry voiceprintName = some (.regular true number mode bytes))
    (hreadable : Readable mode bytes) (listdir : Listing) :
    (discardCandidate listdir profileId (Platform.sha256 bytes)).exec s =
      ⟨removalStates profileId s (listdir.order entries.names),
        .ok [("profile", Platform.sha256 bytes)]⟩ := by
  have hopen := opened_of_entries hchain hvoiceprint
  rw [if_pos hreadable.1] at hopen
  have hread : readProfileCandidate (some bytes) = .ok bytes := if_neg (Nat.not_lt.mpr hreadable.2)
  unfold discardCandidate
  rw [bind_inspect_of_ok _ hchain.absent, if_neg Bool.false_ne_true,
    bind_inspect_of_ok _ hchain.opened, bind_inspect_of_ok _ hopen,
    bind_lift_of_ok _ _ hread, bind_lift_of_ok _ _ (refuseIf_of_not (not_not_intro rfl)),
    bind_of_eq_ok _ (hchain.removes hremovable listdir)]
  exact congrArg (fun trace => Outcome.mk trace _) (List.append_nil _)

/-- What cannot be read, or has another digest, is left. -/
theorem discardCandidate_of_unreadable (hchain : Chain profileId q s entries)
    (hvoiceprint : entries.entry voiceprintName = some (.regular true number mode bytes))
    {sha256 : String} (h : ¬ (Readable mode bytes ∧ sha256 = Platform.sha256 bytes))
    (listdir : Listing) :
    ∃ e, (discardCandidate listdir profileId sha256).exec s = ⟨[], .error e⟩ := by
  have hopen := opened_of_entries hchain hvoiceprint
  unfold discardCandidate
  rw [bind_inspect_of_ok _ hchain.absent, if_neg Bool.false_ne_true,
    bind_inspect_of_ok _ hchain.opened]
  by_cases hmode : mode = 0o600
  · rw [if_pos hmode] at hopen
    rw [bind_inspect_of_ok _ hopen]
    by_cases hsize : ByteString.size bytes ≤ maxProfileBytes
    · have hread : readProfileCandidate (some bytes) = .ok bytes := if_neg (Nat.not_lt.mpr hsize)
      have hdigest : Platform.sha256 bytes ≠ sha256 := fun heq => h ⟨⟨hmode, hsize⟩, heq.symm⟩
      rw [bind_lift_of_ok _ _ hread, bind_lift_of_error _ _ (refuseIf_of hdigest)]
      exact ⟨_, rfl⟩
    · have hread : readProfileCandidate (some bytes) =
          .error (.adapter "profile candidate exceeds its bounded read limit") :=
        if_pos (Nat.not_le.mp hsize)
      rw [bind_lift_of_error _ _ hread]
      exact ⟨_, rfl⟩
  · rw [if_neg hmode] at hopen
    rw [bind_inspect_of_error _ hopen]
    exact ⟨_, rfl⟩

/-- Only a refused digest keeps a call of this form from the body of the operation. -/
theorem profileDiscard_apply
    (hid : opaqueId isalnum (some (.string profileId)) "profile_id" = .ok profileId)
    (hroot : s.rootIsPrivate = true) (value : Value) (listdir : Listing) :
    (profileDiscard isalnum listdir (discardArguments profileId value)).exec s =
      match contentDigestId (some value) "profile_sha256" with
      | .ok sha256 => (discardCandidate listdir profileId sha256).exec s
      | .error e => ⟨[], .error e⟩ := by
  have hprivate : refuseIf (¬ s.rootIsPrivate)
      (DiscardRefused.adapter "app data root must be an owner-private directory") = .ok () :=
    refuseIf_of_not (not_not_intro hroot)
  have harguments : exactArguments (discardArguments profileId value) ["profile_id", "profile_sha256"] =
      .ok [("profile_id", .string profileId), ("profile_sha256", value)] := by
    simp [exactArguments, discardArguments]
  have hprofile : fieldOf [("profile_id", .string profileId), ("profile_sha256", value)] "profile_id" =
      some (.string profileId) := rfl
  have hsha : fieldOf [("profile_id", .string profileId), ("profile_sha256", value)] "profile_sha256" =
      some value := rfl
  unfold profileDiscard
  rw [bind_inspect_of_ok _ (by exact hprivate), bind_lift_of_ok _ _ harguments,
    hprofile, hsha, bind_lift_of_ok _ _ hid]
  cases contentDigestId (some value) "profile_sha256" with
  | ok => rw [bind_lift_of_ok _ _ rfl]
  | error => rw [bind_lift_of_error _ _ rfl]

theorem contentDigestId_eq_ok {value : Value} {label sha256 : String} :
    contentDigestId (some value) label = .ok sha256 ↔
      value = .string sha256 ∧ validSha256 sha256 = true := by
  constructor
  · intro h
    unfold contentDigestId at h
    split at h
    · rename_i text heq
      split at h
      · rename_i hvalid
        cases h
        exact ⟨Option.some.inj heq, hvalid⟩
      · cases h
    · cases h
  · rintro ⟨rfl, hvalid⟩
    exact if_pos hvalid

theorem discard_eq (hid : opaqueId isalnum (some (.string profileId)) "profile_id" = .ok profileId)
    (hroot : s.rootIsPrivate = true) (listdir : Listing) :
    (discard isalnum profileId bytes listdir).exec s =
      (discardCandidate listdir profileId (Platform.sha256 bytes)).exec s := by
  unfold discard
  rw [profileDiscard_apply hid hroot,
    contentDigestId_eq_ok.mpr ⟨rfl, Platform.validSha256_sha256 bytes⟩]

/-- A call that names another digest changes nothing. -/
theorem discard_other (hid : opaqueId isalnum (some (.string profileId)) "profile_id" = .ok profileId)
    (h : HoldsCandidate profileId mode bytes s ∨ Discarded profileId s ∨ LostVoiceprint profileId s)
    {value : Value} (hvalue : value ≠ .string (Platform.sha256 bytes)) (listdir : Listing) :
    ((profileDiscard isalnum listdir (discardArguments profileId value)).exec s).trace = [] := by
  have hroot : s.rootIsPrivate = true := by
    rcases h with ⟨_, _, _, hchain, -⟩ | hgone | ⟨_, _, hchain, -⟩
    · exact hchain.root
    · exact hgone.root
    · exact hchain.root
  rw [profileDiscard_apply hid hroot]
  cases hdigest : contentDigestId (some value) "profile_sha256" with
  | error => rfl
  | ok sha256 =>
    dsimp only
    rcases h with ⟨q, entries, number, hchain, -, hvoiceprint⟩ | hgone | hlost
    · have hother : ¬ (Readable mode bytes ∧ sha256 = Platform.sha256 bytes) := by
        rintro ⟨-, rfl⟩
        exact hvalue (contentDigestId_eq_ok.mp hdigest).1
      obtain ⟨e, he⟩ := discardCandidate_of_unreadable hchain hvoiceprint hother listdir
      rw [he]
    · rw [discardCandidate_of_discarded hgone]
    · rw [discardCandidate_of_lost hlost]

/-! ## Many calls -/

/-- A discard of a candidate that can be read loses the voiceprint exactly when it is
stopped between. -/
theorem cut_of_readable
    (hid : opaqueId isalnum (some (.string profileId)) "profile_id" = .ok profileId)
    (h : HoldsCandidate profileId mode bytes s) (hreadable : Readable mode bytes)
    (attempt : Listing × Nat) :
    (¬ StopsBetween profileId s attempt →
      HoldsCandidate profileId mode bytes (cut (discardStates isalnum profileId bytes) s attempt) ∨
        Discarded profileId (cut (discardStates isalnum profileId bytes) s attempt)) ∧
    (StopsBetween profileId s attempt →
      LostVoiceprint profileId (cut (discardStates isalnum profileId bytes) s attempt)) := by
  obtain ⟨q, entries, number, hchain, hremovable, hvoiceprint⟩ := h
  obtain ⟨listdir, steps⟩ := attempt
  have hlength : (listdir.order entries.names).length = entries.names.length :=
    (listdir.perm entries.names).length_eq
  have hcut : cut (discardStates isalnum profileId bytes) s (listdir, steps) =
      if steps ≤ entries.names.length + 1 then
        unlinked profileId s ((listdir.order entries.names).take steps)
      else (unlinked profileId s (listdir.order entries.names)).rmdir profileId := by
    unfold cut discardStates
    rw [discard_eq hid hchain.root,
      discardCandidate_of_readable hchain hremovable hvoiceprint hreadable, cut_removalStates, hlength]
  rw [hcut]
  have hafter := hchain.after ((listdir.order entries.names).take steps)
  have hentry := entry_foldl_remove ((listdir.order entries.names).take steps) voiceprintName entries
  constructor
  · intro hbetween
    split
    · rename_i hsteps
      have hkept : voiceprintName ∉ (listdir.order entries.names).take steps := fun hmem =>
        hbetween ⟨entries, hchain.candidateEntries, hmem, hsteps⟩
      refine .inl ⟨q, _, number, hafter, fun name leaf hleaf => ?_, ?_⟩
      · rw [entry_foldl_remove] at hleaf
        split at hleaf
        · cases hleaf
        · exact hremovable name leaf hleaf
      · rw [hentry, if_neg hkept, hvoiceprint]
    · exact .inr (hchain.after _).rmdir
  · rintro ⟨found, hfound, hmem, hsteps⟩
    rw [hchain.candidateEntries, Option.some.injEq] at hfound
    subst hfound
    rw [if_pos hsteps]
    exact ⟨q, _, hafter, by rw [hentry, if_pos hmem]⟩

theorem cut_of_trace_nil {attempt : Listing × Nat}
    (h : discardStates isalnum profileId bytes attempt.1 s = []) :
    cut (discardStates isalnum profileId bytes) s attempt = s := by
  unfold cut
  rw [h, List.take_nil]
  rfl

/-- Where there is no voiceprint, a discard does nothing. -/
theorem discardStates_of_discarded
    (hid : opaqueId isalnum (some (.string profileId)) "profile_id" = .ok profileId)
    (h : Discarded profileId s) (listdir : Listing) :
    discardStates isalnum profileId bytes listdir s = [] := by
  unfold discardStates
  rw [discard_eq hid h.root, discardCandidate_of_discarded h]

theorem discardStates_of_lost
    (hid : opaqueId isalnum (some (.string profileId)) "profile_id" = .ok profileId)
    (h : LostVoiceprint profileId s) (listdir : Listing) :
    discardStates isalnum profileId bytes listdir s = [] := by
  obtain ⟨q, entries, hchain, hentry⟩ := h
  unfold discardStates
  rw [discard_eq hid hchain.root, discardCandidate_of_lost ⟨q, entries, hchain, hentry⟩]

theorem run_of_trace_nil (h : ∀ listdir, discardStates isalnum profileId bytes listdir s = [])
    (attempts : List (Listing × Nat)) :
    run (discardStates isalnum profileId bytes) s attempts = s := by
  induction attempts with
  | nil => rfl
  | cons attempt rest ih => rw [run_cons, cut_of_trace_nil (h attempt.1), ih]

/-- The invariant of a run: the voiceprint is lost exactly when some call was stopped
between. -/
theorem run_of_readable
    (hid : opaqueId isalnum (some (.string profileId)) "profile_id" = .ok profileId)
    (hreadable : Readable mode bytes) (attempts : List (Listing × Nat)) :
    ∀ {s : AppData B}, (HoldsCandidate profileId mode bytes s ∨ Discarded profileId s) →
      (Allowed (discardStates isalnum profileId bytes)
          (fun s attempt => ¬ StopsBetween profileId s attempt) s attempts ∧
        (HoldsCandidate profileId mode bytes
            (run (discardStates isalnum profileId bytes) s attempts) ∨
          Discarded profileId (run (discardStates isalnum profileId bytes) s attempts))) ∨
      (¬ Allowed (discardStates isalnum profileId bytes)
          (fun s attempt => ¬ StopsBetween profileId s attempt) s attempts ∧
        LostVoiceprint profileId (run (discardStates isalnum profileId bytes) s attempts)) := by
  induction attempts with
  | nil => exact fun h => .inl ⟨trivial, h⟩
  | cons attempt rest ih =>
    intro s h
    rw [run_cons]
    have hstep : (¬ StopsBetween profileId s attempt →
        HoldsCandidate profileId mode bytes (cut (discardStates isalnum profileId bytes) s attempt) ∨
          Discarded profileId (cut (discardStates isalnum profileId bytes) s attempt)) ∧
        (StopsBetween profileId s attempt →
          LostVoiceprint profileId (cut (discardStates isalnum profileId bytes) s attempt)) := by
      rcases h with hholds | hgone
      · exact cut_of_readable hid hholds hreadable attempt
      · rw [cut_of_trace_nil (discardStates_of_discarded hid hgone attempt.1)]
        refine ⟨fun _ => .inr hgone, ?_⟩
        rintro ⟨entries, hentries, -⟩
        rw [hgone.candidateEntries] at hentries
        cases hentries
    by_cases hbetween : StopsBetween profileId s attempt
    · right
      have hlost := hstep.2 hbetween
      rw [run_of_trace_nil (discardStates_of_lost hid hlost)]
      exact ⟨fun hallowed => hallowed.1 hbetween, hlost⟩
    · rcases ih (hstep.1 hbetween) with ⟨hallowed, hgood⟩ | ⟨hdenied, hlost⟩
      · exact .inl ⟨⟨hbetween, hallowed⟩, hgood⟩
      · exact .inr ⟨fun hallowed => hdenied hallowed.2, hlost⟩

/-! ## Repeating -/

theorem repeats_of_discarded
    (hid : opaqueId isalnum (some (.string profileId)) "profile_id" = .ok profileId)
    (h : Discarded profileId s) : Repeats isalnum profileId bytes s := by
  intro listdir
  rw [discard_eq hid h.root, discardCandidate_of_discarded h]
  exact ⟨rfl, h.candidateAt⟩

theorem repeats_of_readable
    (hid : opaqueId isalnum (some (.string profileId)) "profile_id" = .ok profileId)
    (h : HoldsCandidate profileId mode bytes s) (hreadable : Readable mode bytes) :
    Repeats isalnum profileId bytes s := by
  obtain ⟨q, entries, number, hchain, hremovable, hvoiceprint⟩ := h
  intro listdir
  rw [discard_eq hid hchain.root,
    discardCandidate_of_readable hchain hremovable hvoiceprint hreadable listdir]
  refine ⟨rfl, ?_⟩
  unfold Outcome.final
  rw [last_removalStates]
  exact (hchain.after _).rmdir.candidateAt

theorem not_repeats_of_lost
    (hid : opaqueId isalnum (some (.string profileId)) "profile_id" = .ok profileId)
    (h : LostVoiceprint profileId s) : ¬ Repeats isalnum profileId bytes s := by
  intro hrepeats
  have hresult := (hrepeats ⟨id, fun names => .refl names⟩).1
  obtain ⟨q, entries, hchain, hentry⟩ := h
  rw [discard_eq hid hchain.root, discardCandidate_of_lost ⟨q, entries, hchain, hentry⟩] at hresult
  cases hresult

/-- A voiceprint that cannot be read is refused and left. -/
theorem discard_of_unreadable
    (hid : opaqueId isalnum (some (.string profileId)) "profile_id" = .ok profileId)
    (h : HoldsCandidate profileId mode bytes s) (hunreadable : ¬ Readable mode bytes)
    (listdir : Listing) : ∃ e, (discard isalnum profileId bytes listdir).exec s = ⟨[], .error e⟩ := by
  obtain ⟨q, entries, number, hchain, -, hvoiceprint⟩ := h
  rw [discard_eq hid hchain.root]
  exact discardCandidate_of_unreadable hchain hvoiceprint (fun h => hunreadable h.1) listdir

/-- Repeating a discard succeeds and leaves no candidate directory exactly when the
voiceprint could be read and no earlier call was stopped between; and a call with
another digest changes nothing, whenever it comes. -/
theorem discard_repeats_iff
    (hid : opaqueId isalnum (some (.string profileId)) "profile_id" = .ok profileId)
    (h : HoldsCandidate profileId mode bytes s) (attempts : List (Listing × Nat)) :
    (Repeats isalnum profileId bytes (run (discardStates isalnum profileId bytes) s attempts) ↔
      Readable mode bytes ∧ Allowed (discardStates isalnum profileId bytes)
        (fun s attempt => ¬ StopsBetween profileId s attempt) s attempts) ∧
    ∀ value, value ≠ .string (Platform.sha256 bytes) → ∀ listdir,
      ((profileDiscard isalnum listdir (discardArguments profileId value)).exec
        (run (discardStates isalnum profileId bytes) s attempts)).trace = [] := by
  obtain ⟨t, ht⟩ : ∃ t, run (discardStates isalnum profileId bytes) s attempts = t := ⟨_, rfl⟩
  rw [ht]
  by_cases hreadable : Readable mode bytes
  · rcases run_of_readable hid hreadable attempts (.inl h) with ⟨hallowed, hgood⟩ | ⟨hdenied, hlost⟩
    · rw [ht] at hgood
      have hrepeats : Repeats isalnum profileId bytes t :=
        hgood.elim (fun hholds => repeats_of_readable hid hholds hreadable) (repeats_of_discarded hid)
      exact ⟨⟨fun _ => ⟨hreadable, hallowed⟩, fun _ => hrepeats⟩, fun value hvalue =>
        discard_other hid (hgood.imp_right .inl) hvalue⟩
    · rw [ht] at hlost
      have hreached : HoldsCandidate profileId mode bytes t ∨ Discarded profileId t ∨
          LostVoiceprint profileId t := .inr (.inr hlost)
      exact ⟨⟨fun hrepeats => absurd hrepeats (not_repeats_of_lost hid hlost),
        fun hallowed => absurd hallowed.2 hdenied⟩, fun value hvalue => discard_other hid hreached hvalue⟩
  · have hrefused := discard_of_unreadable hid h hreadable
    have hnil : ∀ listdir, discardStates isalnum profileId bytes listdir s = [] := fun listdir => by
      obtain ⟨e, he⟩ := hrefused listdir
      unfold discardStates
      rw [he]
    rw [run_of_trace_nil hnil] at ht
    subst ht
    refine ⟨⟨fun hrepeats => ?_, fun hboth => absurd hboth.1 hreadable⟩,
      fun value hvalue => discard_other hid (.inl h) hvalue⟩
    have hresult := (hrepeats ⟨id, fun names => .refl names⟩).1
    obtain ⟨e, he⟩ := hrefused ⟨id, fun names => .refl names⟩
    rw [he] at hresult
    cases hresult

end Runs

/-! ## A candidate of two files -/

section Sample

/-- A recorded voiceprint and its digest. -/
def sampleVoiceprint : Recorded [] := Document.raw "voiceprint" 12

/-- A candidate with a voiceprint and a note about it, listed in that order. -/
def sampleAppData : AppData (Recorded []) where
  rootIsPrivate := true
  candidates := some (.directory true 2 (Directory.empty.put "p-1" (.directory true 3
    ((Directory.empty.put voiceprintName (.regular true 4 0o600 sampleVoiceprint)).put "note.txt"
      (.regular true 5 0o644 (Document.raw "note" 3))))))

/-- `os.listdir` in the order of creation. -/
def creationOrder : Listing := ⟨id, fun names => .refl names⟩

theorem sampleProfileId : opaqueId Char.isAlphanum (some (.string "p-1")) "profile_id" = .ok "p-1" := by
  decide +kernel

theorem sampleCandidate : HoldsCandidate "p-1" 0o600 sampleVoiceprint sampleAppData := by
  refine ⟨⟨2, 3⟩, _, 4, ⟨rfl, _, rfl, rfl, rfl, rfl⟩, fun name leaf hleaf => ?_, rfl⟩
  rw [Directory.entry_put] at hleaf
  split at hleaf
  · cases hleaf
    exact ⟨rfl, rfl⟩
  · rw [Directory.entry_put] at hleaf
    split at hleaf
    · cases hleaf
      exact ⟨rfl, rfl⟩
    · cases hleaf

/-- The whole of a discard and what it leaves behind. -/
theorem discard_repeats_sample :
    Repeats Char.isAlphanum "p-1" sampleVoiceprint
      (run (discardStates Char.isAlphanum "p-1" sampleVoiceprint) sampleAppData
        [(creationOrder, 4)]) := by
  refine (discard_repeats_iff sampleProfileId sampleCandidate [(creationOrder, 4)]).1.mpr
    ⟨⟨rfl, by decide⟩, ?_, trivial⟩
  rintro ⟨entries, hentries, -, hsteps⟩
  cases hentries
  exact absurd hsteps (by decide)

/-- One step of a discard leaves a candidate that cannot be discarded any more. -/
theorem discard_stopped_between :
    HoldsCandidate "p-1" 0o600 sampleVoiceprint sampleAppData ∧ Readable 0o600 sampleVoiceprint ∧
      ¬ Repeats Char.isAlphanum "p-1" sampleVoiceprint
        (run (discardStates Char.isAlphanum "p-1" sampleVoiceprint) sampleAppData
          [(creationOrder, 1)]) := by
  have hreadable : Readable 0o600 sampleVoiceprint := ⟨rfl, by decide⟩
  have hbetween : StopsBetween "p-1" sampleAppData (creationOrder, 1) :=
    ⟨_, rfl, by decide, by decide⟩
  exact ⟨sampleCandidate, hreadable, not_repeats_of_lost sampleProfileId
    ((cut_of_readable sampleProfileId sampleCandidate hreadable (creationOrder, 1)).2 hbetween)⟩

end Sample

end YawnApp.Worker
