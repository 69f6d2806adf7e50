import YawnApp.SessionCore.Storage

set_option autoImplicit false

/-!
# The frame of the file protocols

`durable_create_new` and `durable_replace` name two places, the target and the
temporary file.  At every other place they can only make a directory or give one
its mode 0700, whether they finish, are refused or are cut.  `Keeps` says what
is still there afterwards; `Frame` says as well that nothing new is there but
directories.
-/

namespace YawnApp.SessionCore

open YawnApp.Foundation Volume

variable {P B : Type} [DecidableEq P]

/-- What the making of directories does to a place. -/
inductive DirStep : Option (Node B) → Option (Node B) → Prop
  | same (found : Option (Node B)) : DirStep found found
  | made (mode : Nat) : DirStep none (some (.directory mode))
  | chmod (mode : Nat) : DirStep (some (.directory mode)) (some (.directory 0o700))

theorem DirStep.trans {a b c : Option (Node B)} (hab : DirStep a b) (hbc : DirStep b c) :
    DirStep a c := by
  cases hab with
  | same => exact hbc
  | made mode =>
    cases hbc with
    | same => exact .made mode
    | chmod => exact .made 0o700
  | chmod mode =>
    cases hbc with
    | same | chmod => exact .chmod mode

/-- Away from the places that are touched, directories are made and nothing else
happens. -/
def Frame (touched : P → Prop) (v t : Volume P B) : Prop :=
  ∀ p, ¬ touched p → DirStep (v.node p) (t.node p)

namespace Frame

variable {touched : P → Prop} {v t u : Volume P B} {mode : Nat} {p : P}

theorem refl (v : Volume P B) : Frame touched v v := fun _ _ => .same _

theorem trans (hvt : Frame touched v t) (htu : Frame touched t u) : Frame touched v u :=
  fun p hp => (hvt p hp).trans (htu p hp)

/-- A file is there exactly if it was. -/
theorem file_iff (h : Frame touched v t) (hp : ¬ touched p) {bytes : B} :
    t.node p = some (.file mode bytes) ↔ v.node p = some (.file mode bytes) := by
  have hstep := h p hp
  generalize v.node p = a at hstep
  generalize t.node p = b at hstep
  cases hstep with
  | same => exact Iff.rfl
  | made | chmod => simp

theorem directory (h : Frame touched v t) (hp : ¬ touched p)
    (hdir : v.node p = some (.directory mode)) :
    ∃ mode', t.node p = some (.directory mode') ∧ (mode' = mode ∨ mode' = 0o700) := by
  have hstep := h p hp
  rw [hdir] at hstep
  generalize t.node p = b at hstep
  cases hstep with
  | same => exact ⟨mode, rfl, .inl rfl⟩
  | chmod => exact ⟨0o700, rfl, .inr rfl⟩

theorem keeps (h : Frame touched v t) {kept : P → Prop} (hkept : ∀ p, kept p → ¬ touched p) :
    Keeps kept v t where
  file _ hp _ _ hfile := (h.file_iff (hkept _ hp)).mpr hfile
  directory _ hp _ hdir := h.directory (hkept _ hp) hdir

theorem place (n : Node B) (hp : touched p) : Frame touched v (v.place p n) := by
  intro q hq
  rw [node_place_of_ne _ (by rintro rfl; exact hq hp)]
  exact .same _

theorem clear (hp : touched p) : Frame touched v (v.clear p) := by
  intro q hq
  rw [node_clear_of_ne (by rintro rfl; exact hq hp)]
  exact .same _

theorem place_directory (h : v.node p = some (.directory mode)) :
    Frame touched v (v.place p (.directory 0o700)) := by
  intro q _
  rw [node_place]
  split
  · rename_i hq
    rw [hq, h]
    exact .chmod mode
  · exact .same _

theorem place_new_directory (mode : Nat) (h : v.node p = none) :
    Frame touched v (v.place p (.directory mode)) := by
  intro q _
  rw [node_place]
  split
  · rename_i hq
    rw [hq, h]
    exact .made mode
  · exact .same _

end Frame

/-! ## Steps -/

section Steps

variable {touched : P → Prop} {v t : Volume P B} {p : P}

theorem removeFile_frame (hp : touched p) (ht : removeFile p v = .ok t) :
    Frame touched v t := by
  unfold removeFile at ht
  split at ht
  · cases ht
  · cases ht
    exact .clear hp
  · cases ht

theorem writeAll_frame {bytes : B} (hp : touched p) (ht : writeAll p bytes v = .ok t) :
    Frame touched v t := by
  unfold writeAll at ht
  split at ht
  · cases ht
    exact .place _ hp
  · cases ht

variable [Location P]

theorem openNew_frame [ByteString B] {mode : Nat} (hp : touched p)
    (ht : openNew mode p v = .ok t) : Frame touched v t := by
  unfold openNew at ht
  split at ht
  · cases ht
  · split at ht
    · cases ht
      exact .place _ hp
    · cases ht

theorem createDir_frame {mode : Nat} (ht : createDir mode p v = .ok t) :
    Frame touched v t := by
  unfold createDir at ht
  split at ht
  · cases ht
  · rename_i hfree
    split at ht
    · cases ht
      exact .place_new_directory mode (Option.not_isSome_iff_eq_none.mp hfree)
    · cases ht

theorem hardLink_frame {source target : P} (hp : touched target)
    (ht : hardLink source target v = .ok t) : Frame touched v t := by
  unfold hardLink at ht
  split at ht
  · split at ht
    · cases ht
    · split at ht
      · cases ht
        exact .place _ hp
      · cases ht
  · cases ht

theorem rename_frame {source target : P} (hsource : touched source) (htarget : touched target)
    (ht : rename source target v = .ok t) : Frame touched v t := by
  unfold rename at ht
  split at ht
  · split at ht
    · cases ht
      exact (Frame.clear hsource).trans (.place _ htarget)
    · cases ht
  · cases ht

end Steps

/-! ## Programs -/

section Programs

variable [Location P] {touched : P → Prop}

theorem ensureDir_moves (p : P) :
    Moves (Frame touched) (ensureDir p : Durable (Volume P B) IoError Unit) := by
  unfold ensureDir
  apply Moves.bind_inspect
  intro v found _ t ht
  cases found with
  | none => exact Moves.step (fun _ _ => createDir_frame) v t ht
  | some n => cases n <;> cases ht

theorem createDirAll_moves (ps : List P) :
    Moves (Frame touched) (createDirAll ps : Durable (Volume P B) IoError Unit) := by
  induction ps with
  | nil => exact Moves.pure ()
  | cons p rest ih =>
    exact Moves.bind Frame.refl (fun _ _ _ => Frame.trans) (ensureDir_moves p) fun _ => ih

/-- A private directory is all that `create_private_dir` makes. -/
theorem createPrivateDir_moves (p : P) :
    Moves (Frame touched) (createPrivateDir p : Durable (Volume P B) IoError Unit) := by
  intro v
  refine Meets.crash (Q := fun _ _ => True) (E := fun _ _ => True) ?_
  unfold createPrivateDir
  refine Meets.bind_inspect (fun _ _ => ?_) fun _ _ => trivial
  have hmade : Meets (createDirAll ((Location.ancestors p).reverse ++ [p])) v
      (Keeps (fun _ => True) v)
      (fun _ t => Keeps (fun _ => True) v t ∧ ∃ mode, t.node p = some (.directory mode))
      fun _ t => Keeps (fun _ => True) v t := createDirAll_keeps (B := B) _ p v
  have hmoves : Moves (Frame touched) (createDirAll ((Location.ancestors p).reverse ++ [p]) :
      Durable (Volume P B) IoError Unit) := createDirAll_moves _
  refine Meets.bind ((hmade.and (hmoves.meets Frame.refl fun _ h => h)).mono (fun _ h => h.2)
    (fun _ t ht => ?_) fun _ _ _ => trivial)
  obtain ⟨⟨-, mode, hmode⟩, hframe⟩ := ht
  refine Meets.step (fun u hu => ?_) fun _ _ => trivial
  rw [setMode_of_directory 0o700 hmode, Except.ok.injEq] at hu
  exact ⟨hu ▸ hframe.trans (.place_directory hmode), trivial⟩

variable [ByteString B] {target temporary : P} {v : Volume P B}

/-- What the two writers have in common: a temporary file is written, a last step makes it the
target, and after a failure it is removed. -/
def throughTemporary (target temporary : P) (bytes : B)
    (last : Durable (Volume P B) IoError Unit) : Durable (Volume P B) IoError Unit := do
  let directory ← Durable.lift (orRefuse (parent? target) .other)
  createPrivateDir directory
  Durable.onError (do
      Durable.step (Volume.openNew 0o600 temporary)
      Durable.step (Volume.writeAll temporary bytes)
      last)
    (Durable.step (Volume.removeFile temporary) : Durable (Volume P B) IoError Unit)

theorem throughTemporary_moves (bytes : B) {last : Durable (Volume P B) IoError Unit}
    (htemporary : touched temporary) (hlast : Moves (Frame touched) last) :
    Moves (Frame touched) (throughTemporary target temporary bytes last) := by
  unfold throughTemporary
  exact Moves.bind Frame.refl (fun _ _ _ => Frame.trans) (Moves.lift _) fun directory =>
    Moves.bind Frame.refl (fun _ _ _ => Frame.trans) (createPrivateDir_moves directory) fun _ =>
    Moves.onError Frame.refl (fun _ _ _ => Frame.trans)
      (Moves.bind Frame.refl (fun _ _ _ => Frame.trans)
        (Moves.step fun _ _ => openNew_frame htemporary) fun _ =>
        Moves.bind Frame.refl (fun _ _ _ => Frame.trans)
          (Moves.step fun _ _ => writeAll_frame htemporary) fun _ => hlast)
      (Moves.step fun _ _ => removeFile_frame htemporary)

theorem durableCreateNew_moves (bytes : B) (htarget : touched target)
    (htemporary : touched temporary) :
    Moves (Frame touched) (durableCreateNew target temporary bytes) :=
  throughTemporary_moves bytes htemporary <| Moves.bind Frame.refl (fun _ _ _ => Frame.trans)
    (Moves.step fun _ _ => hardLink_frame htarget) fun _ =>
      Moves.step fun _ _ => removeFile_frame htemporary

theorem durableReplace_moves (bytes : B) (htarget : touched target) (htemporary : touched temporary) :
    Moves (Frame touched) (durableReplace target temporary bytes) :=
  throughTemporary_moves bytes htemporary (Moves.step fun _ _ => rename_frame htemporary htarget)

/-! ## The target

Whatever becomes of a call, its target holds what it held or the new contents. -/

/-- The temporary file holds what was written to it, once it was. -/
theorem written_of_openNew {t u : Volume P B} {bytes : B}
    (ht : openNew 0o600 temporary v = .ok t) (hu : writeAll temporary bytes t = .ok u) :
    u.node temporary = some (.file 0o600 bytes) ∧ ∀ q, q ≠ temporary → u.node q = v.node q := by
  unfold openNew at ht
  split at ht
  · cases ht
  split at ht
  · cases ht
    rw [writeAll_of_file bytes (node_place_self ..), Except.ok.injEq] at hu
    subst hu
    refine ⟨node_place_self .., fun q hq => ?_⟩
    rw [node_place_of_ne _ hq, node_place_of_ne _ hq]
  · cases ht

omit [ByteString B] in
/-- Making a directory changes no place that is not on the way to it. -/
theorem createPrivateDir_off (p : P) :
    Moves (fun v t : Volume P B => ∀ q, q ∉ Location.ancestors p → q ≠ p → t.node q = v.node q)
      (createPrivateDir p) := by
  have hensure : ∀ r : P, Moves (fun v t : Volume P B => ∀ q, q ≠ r → t.node q = v.node q)
      (ensureDir r) := by
    intro r
    unfold ensureDir
    apply Moves.bind_inspect
    intro v found _ t ht
    cases found with
    | none =>
      have hstep : Moves (fun v t : Volume P B => ∀ q, q ≠ r → t.node q = v.node q)
          (Durable.step (createDir 0o755 r)) := by
        apply Moves.step
        intro v t ht
        unfold createDir at ht
        split at ht
        · cases ht
        · split at ht
          · cases ht
            exact fun q hq => node_place_of_ne _ hq
          · cases ht
      exact hstep v t ht
    | some n => cases n <;> cases ht
  have hall : ∀ ps : List P, Moves (fun v t : Volume P B => ∀ q, q ∉ ps → t.node q = v.node q)
      (createDirAll ps) := by
    intro ps
    induction ps with
    | nil => exact Moves.pure ()
    | cons r rest ih =>
      refine Moves.bind (fun _ _ _ => rfl) (fun _ _ _ h h' q hq => (h' q hq).trans (h q hq))
        (fun v t ht q hq => ?_) fun _ v t ht q hq => ?_
      · rw [List.mem_cons, not_or] at hq
        exact hensure r v t ht q hq.1
      · rw [List.mem_cons, not_or] at hq
        exact ih v t ht q hq.2
  unfold createPrivateDir
  refine Moves.bind (fun _ _ _ _ => rfl) (fun _ _ _ h h' q hq hq' => (h' q hq hq').trans (h q hq hq'))
    (Moves.inspect _) fun _ => Moves.bind (fun _ _ _ _ => rfl)
      (fun _ _ _ h h' q hq hq' => (h' q hq hq').trans (h q hq hq')) (fun v t ht q hq hq' => ?_)
      fun _ => Moves.step fun v t ht q hq hq' => ?_
  · apply hall _ v t ht q
    rw [List.mem_append, List.mem_reverse, List.mem_singleton, not_or]
    exact ⟨hq, hq'⟩
  · unfold setMode at ht
    split at ht
    · cases ht
      exact node_place_of_ne _ hq'
    · cases ht
      exact node_place_of_ne _ hq'
    · cases ht
    · cases ht

section

omit [Location P] [ByteString B]

theorem removeFile_off {p : P} {t : Volume P B} (ht : removeFile p v = .ok t) (q : P)
    (hq : q ≠ p) : t.node q = v.node q := by
  unfold removeFile at ht
  split at ht
  · cases ht
  · cases ht
    exact node_clear_of_ne hq
  · cases ht

/-- Removing the temporary file, whatever comes of it, leaves the target. -/
theorem cleanup_target (hne : target ≠ temporary) {D : Option (Node B) → Prop}
    (h : D (v.node target)) :
    Meets (Durable.step (removeFile temporary) : Durable (Volume P B) IoError Unit) v
      (fun t => D (t.node target)) (fun _ t => D (t.node target)) (fun _ t => D (t.node target)) := by
  refine Meets.step (fun t ht => ?_) fun _ _ => h
  rw [removeFile_off ht target hne]
  exact ⟨h, h⟩

end

/-- A target that is a name in a directory. -/
structure NamedIn (directory target : P) : Prop where
  parent : parent? target = some directory
  notAbove : target ∉ Location.ancestors directory
  ne : target ≠ directory

/-- The target is what the last step makes of it, once the temporary file is written. -/
theorem throughTemporary_target {directory : P} (bytes : B) (hname : NamedIn directory target)
    (hne : target ≠ temporary) (v : Volume P B) {last : Durable (Volume P B) IoError Unit}
    {C : Volume P B → Prop} {Q : Unit → Volume P B → Prop}
    (hsame : ∀ t, t.node target = v.node target → C t)
    (hlast : ∀ w, w.node temporary = some (.file 0o600 bytes) → w.node target = v.node target →
      Meets last w C Q fun _ t => t.node target = v.node target) :
    Meets (throughTemporary target temporary bytes last) v C Q
      (fun _ t => t.node target = v.node target) := by
  unfold throughTemporary
  refine Meets.bind_lift (fun found hfound => ?_) fun e he => by
    simp [hname.parent] at he
  rw [hname.parent, orRefuse_some, Except.ok.injEq] at hfound
  subst hfound
  have hdir := (createPrivateDir_off (B := B) directory).meets (s := v)
    (I := fun t => t.node target = v.node target) (fun _ _ _ _ => rfl)
    fun t ht => ht target hname.notAbove hname.ne
  refine Meets.bind (hdir.mono hsame (fun _ t ht => ?_) fun _ _ h => h)
  have hcleanup : ∀ u : Volume P B, u.node target = v.node target → Meets
      (Durable.step (removeFile temporary) : Durable (Volume P B) IoError Unit) u C
      (fun _ t => t.node target = v.node target) (fun _ t => t.node target = v.node target) :=
    fun u hu => (cleanup_target (D := fun n => n = v.node target) hne hu).mono hsame
      (fun _ _ h => h) fun _ _ h => h
  refine Meets.onError (Meets.bind (Meets.step (fun u hu => ?_) fun _ _ => hcleanup t ht))
  have hopened : u.node target = v.node target := by
    unfold openNew at hu
    split at hu
    · cases hu
    · split at hu
      · cases hu
        rw [node_place_of_ne _ hne, ht]
      · cases hu
  refine ⟨hsame u hopened, Meets.bind (Meets.step (fun w hw => ?_) fun _ _ => hcleanup u hopened)⟩
  obtain ⟨htemporary, hothers⟩ := written_of_openNew hu hw
  have hwritten : w.node target = v.node target := (hothers target hne).trans ht
  exact ⟨hsame w hwritten, (hlast w htemporary hwritten).mono (fun _ h => h) (fun _ _ h => h)
    fun _ => hcleanup⟩

/-- What `durable_replace` makes of its target. -/
theorem durableReplace_target {directory : P} (bytes : B) (hname : NamedIn directory target)
    (hne : target ≠ temporary) (v : Volume P B) : Meets (durableReplace target temporary bytes) v
      (fun t => t.node target = v.node target ∨ t.node target = some (.file 0o600 bytes))
      (fun _ t => t.node target = some (.file 0o600 bytes))
      (fun _ t => t.node target = v.node target) := by
  refine throughTemporary_target bytes hname hne v (fun _ => .inl) fun w htemporary hwritten => ?_
  refine Meets.step (fun x hx => ?_) fun _ _ => hwritten
  unfold rename at hx
  rw [htemporary] at hx
  dsimp only at hx
  split at hx
  · cases hx
    rw [node_place_self]
    exact ⟨.inr rfl, rfl⟩
  · cases hx

/-- What `durable_create_new` makes of its target. -/
theorem durableCreateNew_target {directory : P} (bytes : B) (hname : NamedIn directory target)
    (hne : target ≠ temporary) (v : Volume P B) : Meets (durableCreateNew target temporary bytes) v
      (fun t => t.node target = v.node target ∨
        v.node target = none ∧ t.node target = some (.file 0o600 bytes))
      (fun _ t => v.node target = none ∧ t.node target = some (.file 0o600 bytes))
      (fun _ t => t.node target = v.node target) := by
  refine throughTemporary_target bytes hname hne v (fun _ => .inl) fun w htemporary hwritten => ?_
  refine Meets.bind (Meets.step (fun x hx => ?_) fun _ _ => hwritten)
  unfold hardLink at hx
  rw [htemporary] at hx
  dsimp only at hx
  split at hx
  · cases hx
  rename_i hfree
  rw [hwritten, Option.not_isSome_iff_eq_none] at hfree
  split at hx
  · cases hx
    have htarget : (w.place target (.file 0o600 bytes)).node target = some (.file 0o600 bytes) :=
      node_place_self ..
    refine ⟨.inr ⟨hfree, htarget⟩, Meets.step (fun y hy => ?_) fun e he => ?_⟩
    · rw [removeFile_off hy target hne, htarget]
      exact ⟨.inr ⟨hfree, rfl⟩, hfree, rfl⟩
    · rw [removeFile_of_file (by
        rw [node_place_of_ne _ hne.symm]
        exact htemporary)] at he
      cases he
  · cases hx

end Programs

end YawnApp.SessionCore
