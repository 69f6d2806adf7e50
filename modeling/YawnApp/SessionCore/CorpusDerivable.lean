import YawnApp.SessionCore.CorpusEmbedding
import YawnApp.SessionCore.CorpusSync
import YawnApp.SessionCore.CorpusWindowWords

set_option autoImplicit false

/-!
# What the index writes can be derived again

A row of the table of windows holds a digest and no text.  The text is built from the
segments and the turns when a window is asked for, and compared with the digest.  For the
tables that a projection was filled into this never fails: the segments of a window are
written with it, no other window has its key, and its turns are there before it.
-/

namespace YawnApp.SessionCore

open YawnApp.Foundation CorpusWindow List

namespace CorpusIndex

/-! ## The keys of the tables -/

def WindowRow.key (row : WindowRow) : String × Nat := (row.meetingId, row.windowIndex)

def SegmentRow.windowKey (row : SegmentRow) : String × Nat := (row.meetingId, row.windowIndex)

def TurnRow.key (row : TurnRow) : String × Nat := (row.meetingId, row.turnIndex)

/-- What the schema promises of the table of windows: its primary key, and integers that are
those of the database. -/
structure Index.Keyed (index : Index) : Prop where
  keys : (index.tables.window.map WindowRow.key).Nodup
  integers : ∀ row ∈ index.tables.window, row.windowIndex < 2 ^ 63

/-- A row that is inserted has a key of its own. -/
theorem insertRow_nodup {κ ρ : Type} [DecidableEq κ] {key : ρ → κ} {row : ρ} {table new : List ρ}
    (h : insertRow key row table = .ok new) (hnodup : (table.map key).Nodup) :
    key row ∉ table.map key ∧ (new.map key).Nodup := by
  unfold insertRow at h
  split at h
  · cases h
  · rename_i hfresh
    cases h
    refine ⟨hfresh, ?_⟩
    rw [map_append, map_singleton, nodup_append]
    refine ⟨hnodup, nodup_singleton _, fun other hother fresh hfreshKey heq => ?_⟩
    rw [mem_singleton.mp hfreshKey] at heq
    exact hfresh (heq ▸ hother)

theorem sqlInteger_eq_ok {n m : Nat} : sqlInteger n = .ok m ↔ n < 2 ^ 63 ∧ n = m := by
  unfold sqlInteger
  split
  · rename_i hlt
    rw [Except.ok.injEq]
    exact ⟨fun h => ⟨hlt, h⟩, And.right⟩
  · rename_i hlt
    exact ⟨fun h => (by cases h), fun h => absurd h.1 hlt⟩

/-! ## Rows that are backed -/

/-- The row of a segment at its position in its window. -/
def segmentRow (meetingId : String) (windowIndex : Nat)
    (entry : CorpusWindow.WindowSegment × Nat) : SegmentRow :=
  ⟨meetingId, windowIndex, entry.2, entry.1.sourceTurnIndex, entry.1.originalScalarStart,
    entry.1.originalScalarEnd⟩

/-- The segments of a window that are in the table. -/
def segmentsFor (tables : Tables) (key : String × Nat) : List SegmentRow :=
  tables.segment.filter fun segment => segment.windowKey = key

section Backed

variable [TextDigest] {turn : Nat → Option String} {text : String}

/-- The row's segments are in the table, and the text of them has its digest. -/
structure Backed (tables : Tables) (row : WindowRow)
    (segments : List CorpusWindow.WindowSegment) (text : String) : Prop where
  cited : segments ≠ []
  stored : segmentsFor tables row.key =
    segments.zipIdx.map (segmentRow row.meetingId row.windowIndex)
  worded : CorpusWindow.windowText ⟨row.windowIndex, row.wordCount, segments⟩
    (storedTurn tables row.meetingId) = some text
  digest : CorpusWindow.windowDigest text = row.textSha256

section

omit [TextDigest]

/-- The turns of segments with words are there. -/
theorem turn_of_segmentWords :
    ∀ {segments : List CorpusWindow.WindowSegment} {words : List (List Char)},
      segmentWords turn segments = some words →
      ∀ segment ∈ segments, ∃ text, turn segment.sourceTurnIndex = some text := by
  intro segments
  induction segments with
  | nil => exact fun _ _ hmem => absurd hmem not_mem_nil
  | cons first rest ih =>
    intro words h segment hmem
    rw [segmentWords] at h
    simp only [Option.bind_eq_bind, Option.bind_eq_some_iff] at h
    obtain ⟨text, htext, _, -, later, hlater, -⟩ := h
    rcases mem_cons.mp hmem with rfl | hmem
    · exact ⟨text, htext⟩
    · exact ih hlater segment hmem

/-- Turns that are added change no words that there were. -/
theorem segmentWords_mono {other : Nat → Option String}
    (hmono : ∀ index text, turn index = some text → other index = some text) :
    ∀ {segments : List CorpusWindow.WindowSegment} {words : List (List Char)},
      segmentWords turn segments = some words →
      segmentWords other segments = some words := by
  intro segments
  induction segments with
  | nil => exact id
  | cons first rest ih =>
    intro words h
    rw [segmentWords] at h ⊢
    simp only [Option.bind_eq_bind, Option.bind_eq_some_iff] at h ⊢
    obtain ⟨text, htext, slice, hslice, later, hlater, heq⟩ := h
    exact ⟨text, hmono _ _ htext, slice, hslice, later, ih hlater, heq⟩

theorem windowText_eq_some {window : CorpusWindow.Window} :
    windowText window turn = some text ↔
      ∃ words, segmentWords turn window.segments = some words ∧
        words.length = window.wordCount ∧ String.ofList ([' '].intercalate words) = text := by
  unfold windowText
  simp only [Option.bind_eq_bind, Option.bind_eq_some_iff]
  refine exists_congr fun words => and_congr_right fun _ => ?_
  split
  · rename_i hne
    exact ⟨fun h => (by cases h), fun h => absurd h.1 hne⟩
  · rename_i heq
    rw [not_not] at heq
    exact ⟨fun h => ⟨heq, Option.some.inj h⟩, fun h => congrArg some h.2⟩

theorem windowText_mono {other : Nat → Option String} {window : CorpusWindow.Window}
    (hmono : ∀ index text, turn index = some text → other index = some text)
    (h : windowText window turn = some text) :
    windowText window other = some text := by
  obtain ⟨words, hwords, hrest⟩ := windowText_eq_some.mp h
  exact windowText_eq_some.mpr ⟨words, segmentWords_mono hmono hwords, hrest⟩

end

/-- A backed row is derived. -/
theorem Backed.derivePending {tables : Tables} {row : WindowRow}
    {segments : List CorpusWindow.WindowSegment} (h : Backed tables row segments text) :
    derivePending tables row = .ok ⟨row.meetingId, row.windowIndex, row.textSha256, text⟩ := by
  have hsorted : (segments.zipIdx.map (segmentRow row.meetingId row.windowIndex)).Pairwise
      fun a b : SegmentRow => a.segmentIndex ≤ b.segmentIndex := by
    rw [pairwise_map, pairwise_iff_getElem]
    intro i j hi hj hlt
    simp only [segmentRow, getElem_zipIdx]
    omega
  have hfound : ((tables.segment.filter fun segment => segment.meetingId == row.meetingId &&
      segment.windowIndex == row.windowIndex).insertionSort
        fun a b => a.segmentIndex ≤ b.segmentIndex) =
      segments.zipIdx.map (segmentRow row.meetingId row.windowIndex) := by
    rw [← hsorted.insertionSort_eq, ← h.stored]
    congr 1
    apply filter_congr
    intro segment _
    rw [Bool.eq_iff_iff, Bool.and_eq_true, beq_iff_eq, beq_iff_eq, decide_eq_true_iff]
    exact Prod.mk.injEq .. ▸ Iff.rfl
  have hsegments : (segments.zipIdx.map (segmentRow row.meetingId row.windowIndex)).map
      (fun segment => (⟨segment.sourceTurnIndex, segment.originalScalarStart,
        segment.originalScalarEnd⟩ : CorpusWindow.WindowSegment)) = segments := by
    rw [map_map]
    exact zipIdx_map_fst 0 segments
  have hprovenance : windowProvenance tables row =
      .ok ⟨row.windowIndex, row.wordCount, segments⟩ := by
    unfold windowProvenance
    simp only [hfound, hsegments, if_neg h.cited]
  have hstored : storedText tables row.meetingId ⟨row.windowIndex, row.wordCount, segments⟩ =
      .ok text := by
    obtain ⟨words, hwords, -⟩ := windowText_eq_some.mp h.worded
    unfold storedText
    rw [refuseIf_of_not, ok_bind, h.worded, orRefuse_some]
    rintro ⟨segment, hmem, hnone⟩
    obtain ⟨found, hfound⟩ := turn_of_segmentWords hwords segment hmem
    rw [hnone] at hfound
    cases hfound
  unfold CorpusIndex.derivePending
  rw [hprovenance, ok_bind, hstored, ok_bind, refuseIf_of_not (not_not.mpr h.digest), ok_bind]
  rfl

end Backed

/-! ## Filling -/

section Filling

variable [TextDigest] {tables : Tables} {filling : Filling} {meetingId : String} {next : Filling}

/-- Every window of the tables is backed, under keys that the tables have once. -/
structure Tables.Sound (tables : Tables) : Prop where
  turns : (tables.turn.map TurnRow.key).Nodup
  windows : (tables.window.map WindowRow.key).Nodup
  integers : ∀ row ∈ tables.window, row.windowIndex < 2 ^ 63
  segments : ∀ segment ∈ tables.segment, segment.windowKey ∈ tables.window.map WindowRow.key
  backed : ∀ row ∈ tables.window, ∃ segments text, Backed tables row segments text

theorem Tables.sound_empty : Tables.empty.Sound where
  turns := nodup_nil
  windows := nodup_nil
  integers := fun _ hmem => absurd hmem not_mem_nil
  segments := fun _ hmem => absurd hmem not_mem_nil
  backed := fun _ hmem => absurd hmem not_mem_nil

omit [TextDigest] in
/-- A turn that is added hides none. -/
theorem storedTurn_append {new : TurnRow} {index : Nat} {text : String}
    (h : storedTurn tables meetingId index = some text) :
    storedTurn { tables with turn := tables.turn ++ [new] } meetingId index = some text := by
  unfold storedTurn at h ⊢
  obtain ⟨found, hfound, htext⟩ := Option.map_eq_some_iff.mp h
  simp only [List.find?_append, hfound, Option.some_or, Option.map_some, htext]

omit [TextDigest] in
/-- A turn is found by its key. -/
theorem storedTurn_of_mem (hkeys : (tables.turn.map TurnRow.key).Nodup) {row : TurnRow}
    (hrow : row ∈ tables.turn) :
    storedTurn tables row.meetingId row.turnIndex = some row.text := by
  unfold storedTurn
  cases hfound : tables.turn.find? fun turn =>
      turn.meetingId == row.meetingId && turn.turnIndex == row.turnIndex with
  | none => simpa using List.find?_eq_none.mp hfound row hrow
  | some =>
    have hmatch := List.find?_some hfound
    rw [Bool.and_eq_true, beq_iff_eq, beq_iff_eq] at hmatch
    rw [inj_on_of_nodup_map hkeys (mem_of_find?_eq_some hfound) hrow
      (Prod.ext hmatch.1 hmatch.2), Option.map_some]

theorem Backed.mono {other : Tables} {row : WindowRow}
    {segments : List CorpusWindow.WindowSegment} {text : String}
    (h : Backed tables row segments text)
    (hsegments : segmentsFor other row.key = segmentsFor tables row.key)
    (hturns : ∀ index text, storedTurn tables row.meetingId index = some text →
      storedTurn other row.meetingId index = some text) : Backed other row segments text :=
  ⟨h.cited, hsegments.trans h.stored, windowText_mono hturns h.worded, h.digest⟩

theorem insertTurn_sound {turn : DerivedTurn} (h : filling.tables.Sound)
    (hstep : insertTurn meetingId filling turn = .ok next) :
    next.tables.Sound ∧ (∀ row ∈ filling.tables.turn, row ∈ next.tables.turn) ∧
      ∃ row ∈ next.tables.turn, row.key = (meetingId, turn.index.toNat) ∧ row.text = turn.text := by
  unfold insertTurn at hstep
  simp only [bind_eq_ok] at hstep
  obtain ⟨visible, -, table, htable, heq⟩ := hstep
  cases heq
  have hkeys := (insertRow_nodup htable h.turns).2
  have happend := insertRow_eq_ok htable
  subst happend
  refine ⟨⟨hkeys, h.windows, h.integers, h.segments, fun row hrow => ?_⟩,
    fun row hrow => mem_append_left _ hrow,
    _, mem_append_right _ mem_cons_self, rfl, rfl⟩
  obtain ⟨segments, text, hbacked⟩ := h.backed row hrow
  exact ⟨segments, text, hbacked.mono rfl fun _ _ hturn => storedTurn_append hturn⟩

omit [TextDigest] in
/-- The segments of a window are appended to the table, and nothing else changes. -/
theorem insertSegments_eq {windowIndex : Nat} :
    ∀ {entries : List (CorpusWindow.WindowSegment × Nat)} {tables next : Tables},
      entries.foldlM (insertSegment meetingId windowIndex) tables = .ok next →
      next = { tables with
        segment := tables.segment ++ entries.map (segmentRow meetingId windowIndex) } := by
  intro entries
  induction entries with
  | nil =>
    intro tables next h
    cases h
    rw [map_nil, append_nil]
  | cons entry rest ih =>
    intro tables next h
    rw [foldlM_cons, bind_eq_ok] at h
    obtain ⟨middle, hfirst, hrest⟩ := h
    unfold insertSegment at hfirst
    simp only [bind_eq_ok, sqlInteger_eq_ok] at hfirst
    obtain ⟨_, ⟨-, rfl⟩, _, ⟨-, rfl⟩, _, ⟨-, rfl⟩, _, ⟨-, rfl⟩, table, htable, heq⟩ := hfirst
    cases heq
    rw [ih hrest, insertRow_eq_ok htable, map_cons, append_assoc, singleton_append]
    rfl

theorem insertWindow_sound {row : DerivedRow} {window : CorpusWindow.Window}
    (h : filling.tables.Sound) (hcited : window.segments ≠ [])
    (hturns : ∀ turn ∈ row.turns, ∃ stored ∈ filling.tables.turn,
      stored.key = (row.meetingId, turn.index.toNat) ∧ stored.text = turn.text)
    (hstep : insertWindow row filling window = .ok next) :
    next.tables.Sound ∧ next.tables.turn = filling.tables.turn := by
  unfold insertWindow at hstep
  simp only [bind_eq_ok, sqlInteger_eq_ok, orRefuse_eq_ok] at hstep
  obtain ⟨text, htext, _, ⟨hinteger, rfl⟩, _, ⟨-, rfl⟩, table, htable, tables, hsegments, heq⟩ :=
    hstep
  cases heq
  obtain ⟨hfresh, hkeys⟩ := insertRow_nodup htable h.windows
  have happend := insertRow_eq_ok htable
  subst happend
  rw [insertSegments_eq hsegments]
  have hother : ∀ key ∈ filling.tables.window.map WindowRow.key,
      (window.segments.zipIdx.map (segmentRow row.meetingId window.windowIndex)).filter
        (fun segment => segment.windowKey = key) = [] := by
    intro key hkey
    rw [filter_eq_nil_iff, forall_mem_map]
    intro entry _ hmine
    exact hfresh ((of_decide_eq_true hmine : (row.meetingId, window.windowIndex) = key) ▸ hkey)
  refine ⟨⟨h.turns, hkeys, ?_, ?_, ?_⟩, rfl⟩
  · intro stored hstored
    rcases mem_append.mp hstored with hstored | hstored
    · exact h.integers stored hstored
    · rw [mem_singleton.mp hstored]
      exact hinteger
  · intro segment hsegment
    rw [map_append, mem_append]
    rcases mem_append.mp hsegment with hsegment | hsegment
    · exact .inl (h.segments segment hsegment)
    · obtain ⟨entry, -, rfl⟩ := mem_map.mp hsegment
      exact .inr mem_cons_self
  · intro stored hstored
    rcases mem_append.mp hstored with hstored | hstored
    · obtain ⟨segments, text, hbacked⟩ := h.backed stored hstored
      refine ⟨segments, text, hbacked.mono ?_ fun _ _ => id⟩
      unfold segmentsFor
      rw [filter_append, hother _ (mem_map_of_mem hstored), append_nil]
    · rw [mem_singleton.mp hstored]
      refine ⟨window.segments, text, hcited, ?_, ?_, rfl⟩
      · unfold segmentsFor
        rw [filter_append, filter_eq_nil_iff.mpr, nil_append,
          filter_eq_self.mpr]
        · intro segment hsegment
          obtain ⟨entry, -, rfl⟩ := mem_map.mp hsegment
          exact decide_eq_true rfl
        · intro segment hsegment hmine
          have hkey := h.segments segment hsegment
          rw [show segment.windowKey = (row.meetingId, window.windowIndex) from
            of_decide_eq_true hmine] at hkey
          exact hfresh hkey
      · refine windowText_mono (fun index found hfound => ?_) htext
        unfold turnText at hfound
        obtain ⟨turn, hturn, hwords⟩ := Option.map_eq_some_iff.mp hfound
        obtain ⟨held, hheld, hkey, hheldText⟩ := hturns turn (mem_of_find?_eq_some hturn)
        have hindex := List.find?_some hturn
        rw [decide_eq_true_iff] at hindex
        obtain ⟨hmeeting, hturnIndex⟩ := Prod.mk.inj hkey
        have hlookup := storedTurn_of_mem h.turns hheld
        rw [hmeeting, hturnIndex, hindex, hheldText, hwords] at hlookup
        exact hlookup

omit [TextDigest] in
/-- A window has a word, so it has a segment. -/
theorem segments_ne_nil {turns : List CorpusWindow.WindowTurn} {window : CorpusWindow.Window}
    (h : window ∈ windows turns) : window.segments ≠ [] := by
  rw [windows_eq] at h
  obtain ⟨index, hindex, rfl⟩ := mem_map.mp h
  rw [mem_range] at hindex
  have hblock : blockOf (spokenWords turns) index ≠ [] := by
    intro hnil
    have hlength := congrArg List.length hnil
    rw [blockOf, length_take, length_drop, length_nil] at hlength
    unfold windowWords at hindex hlength
    omega
  intro hnil
  obtain ⟨pieces, hpieces, hwords, -⟩ :=
    cuts_segmentsOf (blockOf (spokenWords turns) index)
  rw [show segmentsOf _ = [] from hnil, map_eq_nil_iff] at hpieces
  rw [hpieces, flatMap_nil] at hwords
  exact hblock hwords.symm

/-- The loop over the turns of a meeting. -/
theorem insertTurns_sound : ∀ {turns : List DerivedTurn}
    {filling next : Filling}, filling.tables.Sound →
    turns.foldlM (insertTurn meetingId) filling = .ok next →
    next.tables.Sound ∧ (∀ row ∈ filling.tables.turn, row ∈ next.tables.turn) ∧
      ∀ turn ∈ turns, ∃ row ∈ next.tables.turn,
        row.key = (meetingId, turn.index.toNat) ∧ row.text = turn.text := by
  intro turns
  induction turns with
  | nil =>
    intro filling next h hstep
    cases hstep
    exact ⟨h, fun _ hrow => hrow, fun _ hmem => absurd hmem not_mem_nil⟩
  | cons first rest ih =>
    intro filling next h hstep
    rw [foldlM_cons, bind_eq_ok] at hstep
    obtain ⟨middle, hfirst, hrest⟩ := hstep
    obtain ⟨hsound, hkept, row, hrow, hfound⟩ := insertTurn_sound h hfirst
    obtain ⟨hnext, hlater, hturns⟩ := ih hsound hrest
    refine ⟨hnext, fun row hrow => hlater row (hkept row hrow), ?_⟩
    rw [forall_mem_cons]
    exact ⟨⟨row, hlater row hrow, hfound⟩, hturns⟩

theorem insertMeeting_sound {row : DerivedRow} (h : filling.tables.Sound)
    (hstep : insertMeeting filling row = .ok next) : next.tables.Sound := by
  unfold insertMeeting at hstep
  simp only [bind_eq_ok] at hstep
  obtain ⟨_, -, table, -, spoken, hturns, hwindows⟩ := hstep
  have hstart : Tables.Sound { filling.tables with meeting := table } :=
    ⟨h.turns, h.windows, h.integers, h.segments, fun row hrow => by
      obtain ⟨segments, text, hbacked⟩ := h.backed row hrow
      exact ⟨segments, text, hbacked.mono rfl fun _ _ => id⟩⟩
  obtain ⟨hspoken, -, hheld⟩ := insertTurns_sound hstart hturns
  refine (foldlM_eq_ok_invariant (P := fun filling : Filling => filling.tables.Sound ∧
    filling.tables.turn = spoken.tables.turn) ?_ ⟨hspoken, rfl⟩ hwindows).1
  rintro window hwindow before after ⟨hbefore, hturn⟩ hround
  obtain ⟨hafter, hkept⟩ := insertWindow_sound hbefore (segments_ne_nil hwindow)
    (hturn ▸ hheld) hround
  exact ⟨hafter, hkept.trans hturn⟩

theorem fill_sound {rows : List DerivedRow} (h : fill rows = .ok filling) : filling.tables.Sound :=
  foldlM_eq_ok_invariant (P := fun filling : Filling => filling.tables.Sound)
    (fun _ _ _ _ hbefore hstep => insertMeeting_sound hbefore hstep) Tables.sound_empty h

end Filling

/-! ## Any history -/

section Histories

variable [TextDigest] {index : Index}

/-- The rows of the table of windows can be derived. -/
def Index.Derivable (index : Index) : Prop :=
  ∀ row ∈ index.tables.window, ∃ window, derivePending index.tables row = .ok window

theorem Tables.Sound.keyed (h : index.tables.Sound) : index.Keyed :=
  ⟨h.windows, h.integers⟩

theorem Tables.Sound.derivable (h : index.tables.Sound) : index.Derivable := by
  intro row hrow
  obtain ⟨segments, text, hbacked⟩ := h.backed row hrow
  exact ⟨_, hbacked.derivePending⟩

/-- One call, stopped anywhere. -/
theorem sound_states (h : index.tables.Sound) {call : CorpusCall} :
    ∀ next ∈ call.states index, next.tables.Sound := by
  intro next hnext
  obtain ⟨_, _, _, _, hfill, rfl, -⟩ | ⟨_, _, _, -, rfl⟩ := states_cases hnext
  · exact fill_sound hfill
  · exact h

/-- After any run of calls, each stopped anywhere, the windows have keys of their own and can
all be derived. -/
theorem keyed_and_derivable (attempts : List (CorpusCall × Nat)) :
    (run CorpusCall.states Index.fresh attempts).Keyed ∧
      (run CorpusCall.states Index.fresh attempts).Derivable := by
  have hsound := run_invariant_of_calls CorpusCall.states (P := fun _ => True)
    (I := fun index : Index => index.tables.Sound)
    (fun index call _ h => sound_states h) attempts (fun _ _ => trivial) Index.fresh
    Tables.sound_empty
  exact ⟨hsound.keyed, hsound.derivable⟩

end Histories

end CorpusIndex

end YawnApp.SessionCore
