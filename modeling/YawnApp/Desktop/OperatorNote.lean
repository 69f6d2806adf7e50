import YawnApp.Foundation.JsonCompact
import YawnApp.SessionCore.Meeting
import YawnApp.SessionCore.StorageFrames

set_option autoImplicit false

/-!
# The operator's own note (`operator_note.rs`)

One file of the meeting directory, replaced as a whole by each save.  The writer bounds the
text and ties the moments to its lines; the reader bounds the file.  A note without moments
stays under the bound of the reader whatever its text, a note with a moment for each of very
many lines does not.
-/

namespace YawnApp.Desktop

open YawnApp.Foundation YawnApp.SessionCore Value Durable

namespace OperatorNote

/-! ## The stored note -/

/-- `MAX_TEXT_BYTES` -/
def maxTextBytes : Nat := 256 * 1024

/-- `MAX_FILE_BYTES` -/
def maxFileBytes : Nat := 2 * 1024 * 1024

inductive NoteSchema where
  | v1
  | v2
deriving DecidableEq

structure NoteMoment where
  line : UInt32
  seconds : UInt32
deriving DecidableEq

structure StoredNote where
  schema : NoteSchema
  text : String
  moments : List NoteMoment
deriving DecidableEq

instance : Serde NoteSchema :=
  Serde.ofNames (fun | .v1 => "operator-note/1" | .v2 => "operator-note/2") [.v1, .v2]
    (by intro a; cases a <;> rfl)

instance : Serde NoteMoment where
  toValue m := .object [("line", Serde.toValue m.line), ("seconds", Serde.toValue m.seconds)]
  fromValue v := do
    let fs ← closedFields ["line", "seconds"] v
    return {
      line := ← requiredField fs "line"
      seconds := ← requiredField fs "seconds" }
  fromValue_toValue m := by
    refine (closedFields_bind rfl).trans ?_
    repeat refine (requiredField_bind rfl).trans ?_
    rfl
  plain_toValue m := Value.plain_object (by simp [Value.plainFields]) rfl
  toValue_ne_null m := by simp

/-- The fields a note is written with: no moments leave nothing behind. -/
def StoredNote.written (n : StoredNote) : List (String × Value) :=
  [("schema", Serde.toValue n.schema), ("text", Serde.toValue n.text)] ++
    unlessEmpty "moments" n.moments

def fieldNames : List String := ["schema", "text", "moments"]

theorem StoredNote.written_names (n : StoredNote) :
    List.Sublist (n.written.map Prod.fst) fieldNames := by
  rw [written, List.map_append]
  exact .append (.refl _) (unlessEmpty_names _ _)

theorem nodup_fieldNames : fieldNames.Nodup := by decide

instance : Serde StoredNote where
  toValue n := .object n.written
  fromValue v := do
    let fs ← closedFields fieldNames v
    return {
      schema := ← requiredField fs "schema"
      text := ← requiredField fs "text"
      moments := ← defaultedField fs "moments" }
  fromValue_toValue n := by
    have hmoments : fieldOf n.written "moments" =
        if n.moments ≠ [] then some (Serde.toValue n.moments) else none := by
      rw [StoredNote.written, fieldOf_append, fieldOf_unlessEmpty]
      simp [fieldOf]
    refine (closedFields_bind_sublist n.written_names nodup_fieldNames).trans ?_
    iterate 2 refine (requiredField_bind rfl).trans ?_
    exact (defaultedField_bind hmoments).trans rfl
  plain_toValue n := by
    rw [Value.plain, Bool.and_eq_true, decide_eq_true_eq]
    refine ⟨?_, nodup_fieldNames.sublist n.written_names⟩
    simp [StoredNote.written, Value.plainFields, plainFields_unlessEmpty]
  toValue_ne_null n := by simp

/-! ## Reading and writing -/

/-- The places of a meeting directory that a save looks at. -/
inductive NotePlace where
  | directory
  | file
  | temporary (nonce : Uuid)
deriving DecidableEq

instance : Location NotePlace where
  ancestors
    | .directory => []
    | .file => [.directory]
    | .temporary _ => [.directory]

/-- What the surface is told. -/
structure Note where
  text : String
  moments : List NoteMoment
  unreadable : Bool
deriving DecidableEq

/-- `OperatorNote::none` -/
def Note.none : Note := ⟨"", [], false⟩

section Functions

variable {B : Type} [CompactWriter B]

/-- `Path::exists`, which follows a symbolic link; `resolves` says whether that finds anything. -/
def pathExists (resolves : Bool) (v : Volume NotePlace B) : Bool :=
  match v.node .file with
  | none => false
  | some .symlink => resolves
  | some _ => true

def read (resolves : Bool) (v : Volume NotePlace B) : Note :=
  if pathExists resolves v then
    match (readPrivateBytes v .file maxFileBytes).toOption.bind fromSlice with
    | some (stored : StoredNote) => ⟨stored.text, stored.moments, false⟩
    | Option.none => ⟨"", [], true⟩
  else .none

/-- `text.split('\n').count()` -/
def lineCount (text : String) : Nat := text.toList.count '\n' + 1

/-- The loop of `write` over the moments, after the moment of the line `previous`. -/
def checkMoments (lineCount : Nat) : Option UInt32 → List NoteMoment → Except String Unit
  | _, [] => .ok ()
  | previous, moment :: rest => do
    refuseIf (¬ previous.all (· < moment.line) ∨ lineCount ≤ moment.line.toNat)
      "That note's moments do not match its lines, so it was not saved."
    checkMoments lineCount (some moment.line) rest

/-- The note that `write` stores. -/
def storedNote (text : String) (moments : List NoteMoment) : StoredNote :=
  ⟨if moments.isEmpty then .v1 else .v2, text, moments⟩

/-- `write`.  The name of the temporary file is drawn afresh. -/
def write (resolves : Bool) (nonce : Uuid) (text : String) (moments : List NoteMoment) :
    Durable (Volume NotePlace B) String Unit := do
  Durable.lift (refuseIf (text.utf8ByteSize > maxTextBytes) "That note is too long to save.")
  Durable.lift (checkMoments (lineCount text) Option.none moments)
  Durable.inspect fun v => refuseIf ((read resolves v).unreadable = true)
    "This meeting's note could not be read, so it was not replaced."
  Durable.mapError (fun _ => "That note could not be saved.")
    (durableReplace .file (.temporary nonce) (toVecCompact (storedNote text moments)))

end Functions

/-! ## How long a note gets -/

/-- The bytes of a note: each character as it is escaped, and one object for each moment. -/
def noteSize (text : String) (moments : List NoteMoment) : Nat :=
  38 + Value.textSize text +
    if moments = [] then 0
    else 12 + (moments.map fun m =>
      21 + Value.digits m.line.toNat + Value.digits m.seconds.toNat).sum

theorem compactSize_moment (m : NoteMoment) : (Serde.toValue m).compactSize =
    20 + digits m.line.toNat + digits m.seconds.toNat := by
  have hline : stringSize "line" = 6 := by decide
  have hseconds : stringSize "seconds" = 9 := by decide
  change compactSize (.object [("line", .natural m.line.toNat),
    ("seconds", .natural m.seconds.toNat)]) = _
  simp only [compactSize, fieldsSize, hline, hseconds]
  omega

theorem compactSize_storedNote (text : String) (moments : List NoteMoment) :
    (Serde.toValue (storedNote text moments)).compactSize = noteSize text moments := by
  have hname : stringSize "schema" = 8 := by decide
  have htext : stringSize "text" = 6 := by decide
  have hmoments : stringSize "moments" = 9 := by decide
  have hschema : ∀ schema : NoteSchema, (Serde.toValue schema).compactSize = 17 := by
    intro schema
    cases schema <;> decide
  have hlist : ∀ m rest, compactSize (Serde.toValue (m :: rest : List NoteMoment)) =
      1 + ((m :: rest).map fun m =>
        21 + digits m.line.toNat + digits m.seconds.toNat).sum := by
    intro m rest
    change compactSize (.array (Serde.toValue m :: rest.map Serde.toValue)) = _
    rw [compactSize, ← List.map_cons (f := Serde.toValue), itemsSize_map]
    refine congrArg (fun sizes => 1 + List.sum sizes) (List.map_congr_left fun m _ => ?_)
    rw [compactSize_moment]
    omega
  change compactSize (.object (storedNote text moments).written) = _
  rw [noteSize]
  cases moments with
  | nil =>
    change compactSize (.object [("schema", Serde.toValue NoteSchema.v1),
      ("text", .string text)]) = _
    simp only [compactSize, fieldsSize, hname, htext, hschema, stringSize_eq,
      if_true]
    omega
  | cons m rest =>
    change compactSize (.object [("schema", Serde.toValue NoteSchema.v2),
      ("text", .string text), ("moments", Serde.toValue (m :: rest))]) = _
    simp only [compactSize, fieldsSize, hname, htext, hmoments, hschema,
      stringSize_eq, hlist, reduceCtorEq, if_false]
    omega

/-- Each moment takes 23 bytes at least. -/
theorem le_noteSize {text : String} {moments : List NoteMoment} :
    23 * moments.length ≤ noteSize text moments := by
  have hsum : 23 * moments.length ≤ (moments.map fun m =>
      21 + digits m.line.toNat + digits m.seconds.toNat).sum := by
    induction moments with
    | nil => exact Nat.le_refl _
    | cons m =>
      have hline := digits_pos m.line.toNat
      have hseconds := digits_pos m.seconds.toNat
      rw [List.map_cons, List.sum_cons, List.length_cons]
      omega
  unfold noteSize
  split
  · rename_i hnil
    rw [hnil]
    exact Nat.zero_le _
  · omega

/-! ## What a save does -/

section Saves

variable {B : Type} [CompactWriter B] {resolves : Bool} {nonce : Uuid}
  {v : Volume NotePlace B} {text : String} {moments : List NoteMoment}

/-- Only what stands under the note's name is read. -/
theorem read_congr {t : Volume NotePlace B} (h : t.node .file = v.node .file) :
    read resolves t = read resolves v := by
  have hbytes : readPrivateBytes t .file maxFileBytes = readPrivateBytes v .file maxFileBytes := by
    unfold readPrivateBytes openPrivateFile
    rw [h]
  unfold read pathExists
  rw [h, hbytes]

/-- A note that was just stored reads as it was given, when the reader's bound lets it. -/
theorem read_of_stored (h : v.node .file = some (.file 0o600 (toVecCompact (storedNote text moments)))) :
    read resolves v = if noteSize text moments ≤ maxFileBytes then ⟨text, moments, false⟩
      else ⟨"", [], true⟩ := by
  have hsize : ByteString.size (toVecCompact (storedNote text moments) : B) =
      noteSize text moments := by
    rw [size_toVecCompact, compactSize_storedNote]
  have hopen : openPrivateFile v NotePlace.file =
      .ok (toVecCompact (storedNote text moments) : B) := by
    unfold openPrivateFile
    rw [h]
    rfl
  have hthere : pathExists resolves v = true := by
    unfold pathExists
    rw [h]
  rw [read, if_pos hthere]
  by_cases hfits : noteSize text moments ≤ maxFileBytes
  · rw [readPrivateBytes_of_file h (hsize.trans_le hfits), if_pos hfits, Except.toOption,
      Option.bind_some, fromSlice_toVecCompact]
    rfl
  · have hrefused : readPrivateBytes v NotePlace.file maxFileBytes =
        .error .invalidPrivateStorage := by
      rw [readPrivateBytes, hopen, ok_bind, refuseIf_of (by rw [hsize]; exact Nat.lt_of_not_le hfits)]
      rfl
    rw [hrefused, if_neg hfits]
    rfl

/-- What the writer takes: a text under its limit, with moments for lines that it has, each line
once and in order. -/
def Accepted (text : String) (moments : List NoteMoment) : Prop :=
  text.utf8ByteSize ≤ maxTextBytes ∧ checkMoments (lineCount text) none moments = .ok ()

theorem namedIn_file : NamedIn NotePlace.directory .file :=
  ⟨rfl, List.not_mem_nil, NotePlace.noConfusion⟩

/-- A save leaves the note as it was or the new one; what it refuses it leaves alone. -/
theorem write_meets : Meets (write resolves nonce text moments) v
    (fun t => Accepted text moments ∧ (t.node .file = v.node .file ∨
      t.node .file = some (.file 0o600 (toVecCompact (storedNote text moments)))))
    (fun _ t => Accepted text moments ∧
      t.node .file = some (.file 0o600 (toVecCompact (storedNote text moments))))
    (fun _ t => t.node .file = v.node .file) := by
  unfold write
  refine Meets.bind_lift (fun _ hshort => ?_) fun _ _ => rfl
  refine Meets.bind_lift (fun _ hmoments => ?_) fun _ _ => rfl
  refine Meets.bind_inspect (fun _ _ => ?_) fun _ _ => rfl
  have haccepted : Accepted text moments :=
    ⟨Nat.not_lt.mp (refuseIf_eq_ok.mp hshort), hmoments⟩
  refine Meets.mapError ((durableReplace_target _ namedIn_file
    (show NotePlace.file ≠ .temporary nonce from NotePlace.noConfusion) v).mono
      (fun _ h => ⟨haccepted, h⟩) (fun _ _ h => ⟨haccepted, h⟩) fun _ _ h => h)

/-- A note that is not readable is not touched. -/
theorem write_of_unreadable (h : (read resolves v).unreadable = true) :
    ((write resolves nonce text moments).exec v).trace = [] := by
  have hrefused : ∃ e, (write resolves nonce text moments).exec v = ⟨[], .error e⟩ := by
    unfold write
    by_cases hshort : text.utf8ByteSize > maxTextBytes
    · exact ⟨_, bind_lift_of_error _ v (refuseIf_of hshort)⟩
    rw [bind_lift_of_ok _ v (refuseIf_of_not hshort)]
    cases hmoments : checkMoments (lineCount text) none moments with
    | error => exact ⟨_, bind_lift_of_error _ v rfl⟩
    | ok =>
      rw [bind_lift_of_ok _ v rfl]
      exact ⟨_, bind_inspect_of_error _ (refuseIf_of h)⟩
  obtain ⟨e, he⟩ := hrefused
  rw [he]

/-- What is promised of a save of a note that could be read, with a crash after any of its steps. -/
structure ReadsBack (resolves : Bool) (nonce : Uuid) (v : Volume NotePlace B) (text : String)
    (moments : List NoteMoment) : Prop where
  saved : ((write resolves nonce text moments).exec v).result = .ok () →
    read resolves (((write resolves nonce text moments).exec v).final v) = ⟨text, moments, false⟩
  cut : ∀ steps,
    let left := ((((write resolves nonce text moments).exec v).trace.take steps).getLastD v)
    (read resolves left = read resolves v ∨ read resolves left = ⟨text, moments, false⟩) ∧
      (read resolves left).unreadable = false

theorem readsBack_of_fits (h : Accepted text moments → noteSize text moments ≤ maxFileBytes)
    (hreadable : (read resolves v).unreadable = false) :
    ReadsBack resolves nonce v text moments := by
  have hmeets : Meets (write resolves nonce text moments) v _ _ _ := write_meets
  have hstored : ∀ t : Volume NotePlace B, Accepted text moments →
      t.node .file = some (.file 0o600 (toVecCompact (storedNote text moments))) →
      read resolves t = ⟨text, moments, false⟩ := fun t haccepted ht => by
    rw [read_of_stored ht, if_pos (h haccepted)]
  constructor
  · intro hok
    obtain ⟨haccepted, hfile⟩ := hmeets.ok () hok
    exact hstored _ haccepted hfile
  · intro steps
    dsimp only
    rcases getLastD_take_eq_or_mem ((write resolves nonce text moments).exec v).trace v steps with
      hsame | hmem
    · rw [hsame]
      exact ⟨.inl rfl, hreadable⟩
    · obtain ⟨haccepted, hold | hnew⟩ := hmeets.crash _ hmem
      · rw [read_congr hold]
        exact ⟨.inl rfl, hreadable⟩
      · rw [hstored _ haccepted hnew]
        exact ⟨.inr rfl, rfl⟩

def sampleNonce : Uuid := ⟨"0d6c2a5e-48b1-4f7e-9c3a-5b8e7f102d64", by decide⟩

/-- A meeting directory without a note. -/
def emptyMeeting : Volume NotePlace B := Volume.place ∅ .directory (.directory 0o700)

/-- The first note of a meeting is stored, and is lost to the reader when it is too large. -/
theorem not_readsBack (haccepted : Accepted text moments)
    (hlarge : maxFileBytes < noteSize text moments) :
    ¬ ReadsBack (B := B) resolves nonce emptyMeeting text moments := by
  intro h
  have hnone : (read resolves (emptyMeeting : Volume NotePlace B)).unreadable = false := rfl
  have hwritten := @durableReplace_of_free NotePlace B _ _ _ emptyMeeting _ .file (.temporary nonce) _
    (toVecCompact (storedNote text moments)) rfl (fun _ hq => absurd hq List.not_mem_nil) rfl rfl rfl
    NotePlace.noConfusion
  have hok : ((write resolves nonce text moments).exec
      (emptyMeeting : Volume NotePlace B)).result = .ok () := by
    unfold write
    rw [bind_lift_of_ok _ _ (refuseIf_of_not (Nat.not_lt.mpr haccepted.1)),
      bind_lift_of_ok _ _ haccepted.2,
      bind_inspect_of_ok _ (by exact refuseIf_of_not (by rw [hnone]; exact Bool.false_ne_true)),
      mapError_of_eq_ok hwritten]
  have hstored := (write_meets.ok () hok).2
  have hread := h.saved hok
  rw [read_of_stored hstored, if_neg (Nat.not_le.mpr hlarge)] at hread
  cases hread

end Saves

/-- A saved note reads back, across crashes too, exactly when it is refused for its text or its
moments or its encoding keeps to the bound of the reader.  A note that does not read is never
changed. -/
theorem write_readsBack (B : Type) [CompactWriter B] (text : String) (moments : List NoteMoment) :
    ((∀ (resolves : Bool) (nonce : Uuid) (v : Volume NotePlace B),
        (read resolves v).unreadable = false → ReadsBack resolves nonce v text moments) ↔
      (Accepted text moments → noteSize text moments ≤ maxFileBytes)) ∧
    ∀ (resolves : Bool) (nonce : Uuid) (v : Volume NotePlace B),
      (read resolves v).unreadable = true →
      ∀ t ∈ ((write resolves nonce text moments).exec v).trace, t.node .file = v.node .file := by
  refine ⟨⟨fun h haccepted => ?_, fun h resolves nonce v => readsBack_of_fits h⟩,
    fun resolves nonce v hunreadable t ht => ?_⟩
  · by_contra hlarge
    exact not_readsBack haccepted (Nat.lt_of_not_le hlarge) (h false sampleNonce emptyMeeting rfl)
  · rw [write_of_unreadable hunreadable] at ht
    exact absurd ht List.not_mem_nil

/-! ## A note of many lines -/

/-- Moments for the lines from one on, in order. -/
theorem checkMoments_range {lines : Nat} (hlines : lines ≤ UInt32.size) (count : Nat) :
    ∀ {first : Nat} {previous : Option UInt32}, first + count ≤ lines →
      (∀ last ∈ previous, last.toNat < first) →
      checkMoments lines previous ((List.range' first count).map fun line =>
        ⟨UInt32.ofNat line, 0⟩) = .ok () := by
  induction count with
  | zero => exact fun _ _ => rfl
  | succ count ih =>
    intro first previous hbound hprevious
    have hfirst : (UInt32.ofNat first).toNat = first :=
      UInt32.toNat_ofNat_of_lt' (by omega)
    rw [List.range'_succ, List.map_cons, checkMoments, refuseIf_of_not ?_, ok_bind]
    · apply ih (by omega)
      intro last hlast
      cases hlast
      rw [hfirst]
      exact Nat.lt_succ_self _
    · rintro (hlate | hlate)
      · rw [Option.all_eq_true] at hlate
        refine hlate fun last hlast => decide_eq_true (UInt32.lt_iff_toNat_lt.mpr ?_)
        rw [hfirst]
        exact hprevious last hlast
      · dsimp only at hlate
        rw [hfirst] at hlate
        omega

/-- A text of empty lines. -/
def blankLines (breaks : Nat) : String := String.ofList (List.replicate breaks '\n')

/-- A moment for each of its first lines. -/
def lineMoments (count : Nat) : List NoteMoment :=
  (List.range' 0 count).map fun line => ⟨UInt32.ofNat line, 0⟩

theorem accepted_blankLines {breaks : Nat} (h : breaks ≤ maxTextBytes) :
    Accepted (blankLines breaks) (lineMoments breaks) := by
  have hbytes : (blankLines breaks).utf8ByteSize = breaks := by
    rw [blankLines, utf8ByteSize_ofList, List.map_replicate, List.sum_replicate_nat]
    exact Nat.mul_one breaks
  have hcount : lineCount (blankLines breaks) = breaks + 1 := by
    rw [lineCount, blankLines, String.toList_ofList, List.count_replicate_self]
  have hlimit : maxTextBytes + 1 ≤ UInt32.size := by decide
  refine ⟨hbytes.trans_le h, ?_⟩
  rw [hcount]
  exact checkMoments_range (by omega) breaks (by omega) fun _ hlast => by cases hlast

/-- Texts that remember what they were written from. -/
inductive NoteText where
  | empty
  | pretty (v : Value)
  | compact (v : Value)

instance : CompactWriter NoteText where
  empty := .empty
  size
    | .empty => 0
    | .pretty v => v.prettySize 0
    | .compact v => v.compactSize
  size_empty := rfl
  writeText := .pretty
  readText
    | .empty => none
    | .pretty v => some v
    | .compact v => some v
  readText_writeText _ _ := rfl
  size_writeText _ _ := rfl
  writeCompact := .compact
  readText_writeCompact _ _ := rfl
  size_writeCompact _ _ := rfl

/-- A hundred thousand lines with their moments are saved and not read. -/
theorem crowded_note_lost :
    ¬ ∀ (resolves : Bool) (nonce : Uuid) (v : Volume NotePlace NoteText),
      (read resolves v).unreadable = false →
      ReadsBack resolves nonce v (blankLines 100000) (lineMoments 100000) := by
  intro h
  have hlarge : maxFileBytes < noteSize (blankLines 100000) (lineMoments 100000) := by
    refine Nat.lt_of_lt_of_le ?_ le_noteSize
    rw [lineMoments, List.length_map, List.length_range']
    decide
  exact not_readsBack (accepted_blankLines (by decide)) hlarge
    (h false sampleNonce emptyMeeting rfl)

end OperatorNote

end YawnApp.Desktop
