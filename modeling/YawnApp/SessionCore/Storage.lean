/-
  SessionCore/Storage.lean --- private directories and durable files (`storage.rs`).

  Every receipt and record of the app reaches its place through one of two
  protocols.  `durable_create_new` writes a temporary file beside the target
  and links it to a name that must be free; `durable_replace` renames it over
  the target.  Either way a reader sees the old contents or the new ones and
  never a part of them.  What a crash in between can leave behind is the
  temporary file, and this file says so by giving the whole trace of each
  protocol.
-/
import YawnApp.Foundation.Volume

set_option autoImplicit false

namespace YawnApp.SessionCore

open YawnApp.Foundation Volume Durable List

variable {P B : Type} [DecidableEq P] [Location P]

/-! ## Directories -/

/-- `mkdir` unless the directory is there. -/
def ensureDir (p : P) : Durable (Volume P B) IoError Unit := do
  match ← Durable.inspect fun v => .ok (v.node p) with
  | none => Durable.step (Volume.createDir 0o755 p)
  | some (.directory _) => pure ()
  | some _ => Durable.fail .other

/-- `fs::create_dir_all` over the directories of a path, the outermost first. -/
def createDirAll : List P → Durable (Volume P B) IoError Unit
  | [] => pure ()
  | p :: rest => do
    ensureDir p
    createDirAll rest

/-- `create_private_dir`: the directory and what is missing above it, and then
mode 0700 on the directory. -/
def createPrivateDir (p : P) : Durable (Volume P B) IoError Unit := do
  Durable.inspect fun v => match v.node p with | some .symlink => .error .other | _ => .ok ()
  createDirAll ((Location.ancestors p).reverse ++ [p])
  Durable.step (Volume.setMode 0o700 p)

theorem ensureDir_of_present {v : Volume P B} {p : P} {mode : Nat}
    (h : v.node p = some (.directory mode)) : (ensureDir p).exec v = ⟨[], .ok ()⟩ := by
  unfold ensureDir
  rw [bind_inspect_of_ok _ (by rfl), h]
  rfl

/-- Directories that are there already are left as they are. -/
theorem createDirAll_of_present {v : Volume P B} (ps : List P)
    (h : ∀ p ∈ ps, ∃ mode, v.node p = some (.directory mode)) :
    (createDirAll ps).exec v = ⟨[], .ok ()⟩ := by
  induction ps with
  | nil => rfl
  | cons p rest ih =>
    obtain ⟨mode, hp⟩ := h p mem_cons_self
    have hrest := ih fun q hq => h q (mem_cons_of_mem p hq)
    unfold createDirAll
    rw [bind_of_eq_ok _ (ensureDir_of_present hp), getLastD_nil, hrest]
    rfl

theorem createPrivateDir_of_present {v : Volume P B} {p : P} {mode : Nat}
    (hp : v.node p = some (.directory mode))
    (habove : ∀ q ∈ Location.ancestors p, ∃ mode, v.node q = some (.directory mode)) :
    (createPrivateDir p).exec v = ⟨[v.place p (.directory 0o700)], .ok ()⟩ := by
  unfold createPrivateDir
  rw [bind_inspect_of_ok _ (by rw [hp])]
  have hall : (createDirAll ((Location.ancestors p).reverse ++ [p])).exec v = ⟨[], .ok ()⟩ := by
    apply createDirAll_of_present
    intro q hq
    rw [mem_append, mem_reverse, mem_singleton] at hq
    rcases hq with hq | rfl
    · exact habove q hq
    · exact ⟨mode, hp⟩
  rw [bind_of_eq_ok _ hall]
  exact congrArg (fun o => Outcome.mk ([] ++ o.trace) o.result)
    (step_of_ok (setMode_of_directory 0o700 hp))

/-- A directory of which only the last component is missing. -/
theorem createPrivateDir_of_absent {v : Volume P B} {p : P} (hp : v.node p = none)
    (habove : ∀ q ∈ Location.ancestors p, ∃ mode, v.node q = some (.directory mode))
    (hparent : v.parentPresent p = true) :
    (createPrivateDir p).exec v =
      ⟨[v.place p (.directory 0o755), (v.place p (.directory 0o755)).place p (.directory 0o700)],
        .ok ()⟩ := by
  have hall : (createDirAll ((Location.ancestors p).reverse ++ [p])).exec v =
      ⟨[v.place p (.directory 0o755)], .ok ()⟩ := by
    have hmade : (ensureDir p).exec v = ⟨[v.place p (.directory 0o755)], .ok ()⟩ := by
      unfold ensureDir
      rw [bind_inspect_of_ok _ (by rfl), hp]
      exact step_of_ok (createDir_of_absent 0o755 hp hparent)
    have habove' : ∀ q ∈ (Location.ancestors p).reverse, ∃ mode, v.node q = some (.directory mode) :=
      fun q hq => habove q (mem_reverse.mp hq)
    revert habove'
    generalize (Location.ancestors p).reverse = above
    intro habove'
    induction above with
    | nil =>
      rw [nil_append, createDirAll, bind_of_eq_ok_singleton _ hmade]
      rfl
    | cons q rest ih =>
      obtain ⟨mode, hq⟩ := habove' q mem_cons_self
      rw [cons_append, createDirAll, bind_of_eq_ok_nil _ (ensureDir_of_present hq)]
      exact ih fun r hr => habove' r (mem_cons_of_mem q hr)
  unfold createPrivateDir
  rw [bind_inspect_of_ok _ (by rw [hp]), bind_of_eq_ok_singleton _ hall]
  rw [step_of_ok (setMode_of_directory 0o700 (node_place_self ..))]

/-! ## Files -/

variable [ByteString B] {temporary : P} {target : P}

/-- The steps of `durable_create_new` inside the directory: the temporary file,
its contents, the link to the final name and the removal of the temporary. -/
def linkNew (target temporary : P) (bytes : B) : Durable (Volume P B) IoError Unit := do
  Durable.step (Volume.openNew 0o600 temporary)
  Durable.step (Volume.writeAll temporary bytes)
  Durable.step (Volume.hardLink temporary target)
  Durable.step (Volume.removeFile temporary)

/-- `durable_create_new`.  The name of the temporary file is drawn afresh for
every call; it is an argument here. -/
def durableCreateNew (target temporary : P) (bytes : B) :
    Durable (Volume P B) IoError Unit := do
  let directory ← Durable.lift (orRefuse (parent? target) .other)
  createPrivateDir directory
  Durable.onError (linkNew target temporary bytes)
    (Durable.step (Volume.removeFile temporary) : Durable (Volume P B) IoError Unit)

/-- `durable_replace`. -/
def durableReplace (target temporary : P) (bytes : B) : Durable (Volume P B) IoError Unit := do
  let directory ← Durable.lift (orRefuse (parent? target) .other)
  createPrivateDir directory
  Durable.onError (do
      Durable.step (Volume.openNew 0o600 temporary)
      Durable.step (Volume.writeAll temporary bytes)
      Durable.step (Volume.rename temporary target))
    (Durable.step (Volume.removeFile temporary) : Durable (Volume P B) IoError Unit)

/-- The states of a successful `durable_create_new`, in order.  `v` is the
volume with the directory already private. -/
def linkNewTrace (v : Volume P B) (target temporary : P) (bytes : B) : List (Volume P B) :=
  let opened := v.place temporary (.file 0o600 ByteString.empty)
  let written := opened.place temporary (.file 0o600 bytes)
  let linked := written.place target (.file 0o600 bytes)
  [opened, written, linked, linked.clear temporary]

/-- Two names in one directory that is there, both free. -/
structure FreshPair (v : Volume P B) (directory target temporary : P) : Prop where
  present : ∃ mode, v.node directory = some (.directory mode)
  above : ∀ q ∈ Location.ancestors directory, ∃ mode, v.node q = some (.directory mode)
  targetParent : parent? target = some directory
  temporaryParent : parent? temporary = some directory
  targetFree : v.node target = none
  temporaryFree : v.node temporary = none
  distinct : target ≠ temporary

omit [ByteString B] in
theorem FreshPair.ne_directory {v : Volume P B} {directory : P}
    (h : FreshPair v directory target temporary) : target ≠ directory ∧ temporary ≠ directory := by
  obtain ⟨mode, hdir⟩ := h.present
  constructor
  · rintro rfl
    rw [h.targetFree] at hdir
    cases hdir
  · rintro rfl
    rw [h.temporaryFree] at hdir
    cases hdir

/-- Nothing can refuse a `durable_create_new` whose two names are free. -/
theorem linkNew_of_fresh {v : Volume P B} {directory : P} (bytes : B)
    (h : FreshPair v directory target temporary) :
    (linkNew target temporary bytes).exec v = ⟨linkNewTrace v target temporary bytes, .ok ()⟩ := by
  obtain ⟨mode, hdir⟩ := h.present
  obtain ⟨htarget, htemporary⟩ := h.ne_directory
  have hparent : ∀ {u : Volume P B} {p : P}, parent? p = some directory →
      u.node directory = v.node directory → u.parentPresent p = true := by
    intro u p hp hu
    exact parentPresent_of_directory hp (hu.trans hdir)
  unfold linkNew linkNewTrace
  -- the temporary file
  rw [bind_step_of_ok _ (openNew_of_absent 0o600 h.temporaryFree
    (hparent h.temporaryParent rfl))]
  -- its contents
  rw [bind_step_of_ok _ (writeAll_of_file bytes (node_place_self ..))]
  -- the link to the final name
  rw [bind_step_of_ok _ (hardLink_of_absent (node_place_self ..)
    (by simp [node_place, h.distinct, h.targetFree])
    (hparent h.targetParent (by simp [node_place, htemporary.symm])))]
  -- and the removal of the temporary name
  rw [step_of_ok (removeFile_of_file
    (by rw [node_place_of_ne _ h.distinct.symm, node_place_self]))]

theorem durableCreateNew_of_fresh {v : Volume P B} {directory : P} (bytes : B)
    (h : FreshPair v directory target temporary) :
    (durableCreateNew target temporary bytes).exec v =
      ⟨v.place directory (.directory 0o700) ::
        linkNewTrace (v.place directory (.directory 0o700)) target temporary bytes, .ok ()⟩ := by
  obtain ⟨mode, hdir⟩ := h.present
  obtain ⟨htarget, htemporary⟩ := h.ne_directory
  have habove : ∀ q ∈ Location.ancestors directory,
      ∃ mode, (v.place directory (.directory 0o700)).node q = some (.directory mode) := by
    intro q hq
    rw [node_place]
    split
    · exact ⟨_, rfl⟩
    · exact h.above q hq
  have hfresh :
      FreshPair (v.place directory (.directory 0o700)) directory target temporary := {
    present := ⟨_, node_place_self ..⟩
    above := habove
    targetParent := h.targetParent
    temporaryParent := h.temporaryParent
    targetFree := by rw [node_place_of_ne _ htarget]; exact h.targetFree
    temporaryFree := by rw [node_place_of_ne _ htemporary]; exact h.temporaryFree
    distinct := h.distinct }
  unfold durableCreateNew
  rw [bind_lift_of_ok _ v (by rw [h.targetParent]; rfl)]
  rw [bind_of_eq_ok _ (createPrivateDir_of_present hdir h.above)]
  rw [getLastD_cons, getLastD_nil,
    onError_of_eq_ok (linkNew_of_fresh bytes hfresh)]
  rfl

/-- A temporary name that is taken refuses the call, and the cleanup takes the
name away if it is a file. -/
theorem durableCreateNew_of_taken {v : Volume P B} {directory : P} {mode : Nat} (bytes : B)
    (hdir : v.node directory = some (.directory mode))
    (habove : ∀ q ∈ Location.ancestors directory, ∃ mode, v.node q = some (.directory mode))
    (hparent : parent? target = some directory) (hne : temporary ≠ directory)
    (htaken : v.node temporary ≠ none) : ∃ trace, (durableCreateNew target temporary bytes).exec v =
        ⟨v.place directory (.directory 0o700) :: trace, .error .alreadyExists⟩ ∧
      ∀ t ∈ trace, t = (v.place directory (.directory 0o700)).clear temporary := by
  have htaken' : (v.place directory (.directory 0o700)).node temporary ≠ none := by
    rwa [node_place_of_ne _ hne]
  generalize hu : v.place directory (.directory 0o700) = u at htaken'
  have hopen : openNew 0o600 temporary u = .error .alreadyExists := by
    unfold openNew
    rw [if_pos (Option.isSome_iff_ne_none.mpr htaken')]
  have hlink : (linkNew target temporary bytes).exec u = ⟨[], .error .alreadyExists⟩ := by
    unfold linkNew
    rw [bind_step_of_error _ hopen]
  let cleanup : Durable (Volume P B) IoError Unit := step (removeFile temporary)
  refine ⟨(cleanup.exec u).trace, ?_, ?_⟩
  · unfold durableCreateNew
    rw [bind_lift_of_ok _ v (by rw [hparent]; rfl)]
    rw [bind_of_eq_ok _ (createPrivateDir_of_present hdir habove)]
    rw [getLastD_cons, getLastD_nil, hu, onError_of_eq_error hlink]
    rfl
  · intro t ht
    cases hremove : removeFile temporary u with
    | error =>
      rw [show cleanup.exec u = _ from step_of_error hremove] at ht
      cases ht
    | ok =>
      rw [show cleanup.exec u = _ from step_of_ok hremove, mem_singleton] at ht
      unfold removeFile at hremove
      split at hremove <;> simp_all

/-! ## What the protocols leave alone

Files stay as they are and directories stay directories.  A temporary file may
come and go, so the places of temporary files are left out of `kept`. -/

/-- At the places that are kept, a file is the same and a directory is still
there, with its mode or made private. -/
structure Keeps (kept : P → Prop) (v t : Volume P B) : Prop where
  file : ∀ p, kept p → ∀ mode bytes, v.node p = some (.file mode bytes) →
    t.node p = some (.file mode bytes)
  directory : ∀ p, kept p → ∀ mode, v.node p = some (.directory mode) →
    ∃ mode', t.node p = some (.directory mode') ∧ (mode' = mode ∨ mode' = 0o700)

namespace Keeps

omit [Location P] [ByteString B]

variable {kept : P → Prop} {v t u : Volume P B}

theorem refl (v : Volume P B) : Keeps kept v v := ⟨fun _ _ _ _ h => h, fun _ _ mode h => ⟨mode, h, .inl rfl⟩⟩

theorem trans (hvt : Keeps kept v t) (htu : Keeps kept t u) : Keeps kept v u where
  file p hp mode bytes h := htu.file p hp mode bytes (hvt.file p hp mode bytes h)
  directory p hp mode h := by
    obtain ⟨mode', h', hmode'⟩ := hvt.directory p hp mode h
    obtain ⟨mode'', h'', hmode''⟩ := htu.directory p hp mode' h'
    refine ⟨mode'', h'', ?_⟩
    rcases hmode'' with rfl | rfl
    · exact hmode'
    · exact .inr rfl

variable {p : P}

/-- Something new at a place that was free. -/
theorem place_of_absent (n : Node B) (h : v.node p = none) : Keeps kept v (v.place p n) := by
  have hsame : ∀ q m, v.node q = some m → (v.place p n).node q = some m := by
    intro q m hq
    rw [node_place_of_ne _ (by rintro rfl; rw [h] at hq; cases hq), hq]
  exact ⟨fun q _ mode bytes hq => hsame q _ hq, fun q _ mode hq => ⟨mode, hsame q _ hq, .inl rfl⟩⟩

/-- Anything at a place that is not kept. -/
theorem place_of_not_kept (n : Node B) (h : ¬ kept p) : Keeps kept v (v.place p n) := by
  have hsame : ∀ q, kept q → (v.place p n).node q = v.node q :=
    fun q hq => node_place_of_ne _ (by rintro rfl; exact h hq)
  exact ⟨fun q hq mode bytes hnode => (hsame q hq).trans hnode,
    fun q hq mode hnode => ⟨mode, (hsame q hq).trans hnode, .inl rfl⟩⟩

theorem clear_of_not_kept (h : ¬ kept p) : Keeps kept v (v.clear p) := by
  have hsame : ∀ q, kept q → (v.clear p).node q = v.node q :=
    fun q hq => node_clear_of_ne (by rintro rfl; exact h hq)
  exact ⟨fun q hq mode bytes hnode => (hsame q hq).trans hnode,
    fun q hq mode hnode => ⟨mode, (hsame q hq).trans hnode, .inl rfl⟩⟩

/-- A directory made private. -/
theorem place_directory {mode : Nat} (h : v.node p = some (.directory mode)) :
    Keeps kept v (v.place p (.directory 0o700)) where
  file q _ mode' bytes hq := by
    rw [node_place_of_ne _ (by rintro rfl; rw [h] at hq; cases hq), hq]
  directory q _ mode' hq := by
    by_cases hpq : q = p
    · exact ⟨0o700, by rw [hpq, node_place_self], .inr rfl⟩
    · exact ⟨mode', by rw [node_place_of_ne _ hpq, hq], .inl rfl⟩

end Keeps

section Frames

variable {kept : P → Prop}

omit [Location P] [ByteString B] in
theorem removeFile_keeps {p : P} {v t : Volume P B} (h : ¬ kept p)
    (ht : removeFile p v = .ok t) : Keeps kept v t := by
  unfold removeFile at ht
  split at ht
  · cases ht
  · cases ht
    exact .clear_of_not_kept h
  · cases ht

section

omit [ByteString B]

theorem ensureDir_keeps (p : P) (v : Volume P B) : Meets (ensureDir p) v (Keeps kept v)
    (fun _ t => Keeps kept v t ∧ ∃ mode, t.node p = some (.directory mode))
    (fun _ t => Keeps kept v t) := by
  unfold ensureDir
  refine Meets.bind_inspect (fun found hfound => ?_) fun e he => by cases he
  cases hfound
  cases hnode : v.node p with
  | none =>
    refine Meets.step (fun t ht => ?_) fun e _ => .refl v
    unfold createDir at ht
    rw [hnode] at ht
    simp only [Option.isSome_none, Bool.false_eq_true, if_false] at ht
    split at ht
    · cases ht
      exact ⟨.place_of_absent _ hnode, .place_of_absent _ hnode, 0o755, node_place_self ..⟩
    · cases ht
  | some n =>
    cases n with
    | directory mode => exact Meets.pure ⟨.refl v, mode, hnode⟩
    | file | symlink => exact Meets.fail (.refl v)

/-- The directories of a path are made without touching what is there, and the
last of them is then a directory. -/
theorem createDirAll_keeps (ps : List P) (p : P) : ∀ v : Volume P B,
    Meets (createDirAll (ps ++ [p])) v (Keeps kept v)
      (fun _ t => Keeps kept v t ∧ ∃ mode, t.node p = some (.directory mode))
      (fun _ t => Keeps kept v t) := by
  induction ps with
  | nil =>
    intro v
    exact (ensureDir_keeps p v).seq fun _ _ h => Meets.pure h
  | cons q rest ih =>
    intro v
    refine (ensureDir_keeps q v).seq fun _ t ht => ?_
    exact (ih t).mono (fun _ h => ht.1.trans h) (fun _ _ h => ⟨ht.1.trans h.1, h.2⟩)
      fun _ _ h => ht.1.trans h

theorem createPrivateDir_keeps (p : P) :
    Moves (Keeps kept) (createPrivateDir p : Durable (Volume P B) IoError Unit) := by
  intro v
  refine Meets.crash (Q := fun _ _ => True) (E := fun _ _ => True) ?_
  unfold createPrivateDir
  refine Meets.bind_inspect (fun _ _ => ?_) fun _ _ => trivial
  refine Meets.bind ((createDirAll_keeps _ p v).mono (fun _ h => h) (fun _ t ht => ?_)
    fun _ _ _ => trivial)
  obtain ⟨hkeeps, mode, hmode⟩ := ht
  refine Meets.step (fun u hu => ?_) fun _ _ => trivial
  rw [setMode_of_directory 0o700 hmode, Except.ok.injEq] at hu
  exact ⟨hu ▸ hkeeps.trans (.place_directory hmode), trivial⟩

end

theorem linkNew_keeps (target : P) {temporary : P} (bytes : B) (h : ¬ kept temporary) :
    Moves (Keeps kept) (linkNew target temporary bytes) := by
  have hplace : ∀ {p : P} {v t : Volume P B} {n : Node B}, v.node p = none → v.place p n = t →
      Keeps kept v t := fun hp ht => ht ▸ .place_of_absent _ hp
  unfold linkNew
  refine Moves.bind Keeps.refl (fun _ _ _ => Keeps.trans) (Moves.step fun v t ht => ?_) fun _ =>
    Moves.bind Keeps.refl (fun _ _ _ => Keeps.trans) (Moves.step fun v t ht => ?_) fun _ =>
    Moves.bind Keeps.refl (fun _ _ _ => Keeps.trans) (Moves.step fun v t ht => ?_) fun _ =>
    Moves.step fun v t ht => ?_
  · unfold openNew at ht
    split at ht
    · cases ht
    · split at ht
      · cases ht
        exact .place_of_not_kept _ h
      · cases ht
  · unfold writeAll at ht
    split at ht
    · cases ht
      exact .place_of_not_kept _ h
    · cases ht
  · unfold hardLink at ht
    split at ht
    · split at ht
      · cases ht
      · rename_i hfree
        split at ht
        · cases ht
          exact hplace (Option.not_isSome_iff_eq_none.mp hfree) rfl
        · cases ht
    · cases ht
  · exact removeFile_keeps h ht

/-- A new file is all that `durable_create_new` adds to what is kept. -/
theorem durableCreateNew_keeps (target : P) {temporary : P} (bytes : B) (h : ¬ kept temporary) :
    Moves (Keeps kept) (durableCreateNew target temporary bytes) := by
  unfold durableCreateNew
  refine Moves.bind Keeps.refl (fun _ _ _ => Keeps.trans) (Moves.lift _) fun directory =>
    Moves.bind Keeps.refl (fun _ _ _ => Keeps.trans) (createPrivateDir_keeps directory) fun _ =>
    Moves.onError Keeps.refl (fun _ _ _ => Keeps.trans) (linkNew_keeps target bytes h)
      (Moves.step fun _ _ => removeFile_keeps h)

end Frames

/-! ## What a replacement changes -/

section Replacement

omit [ByteString B] in
/-- The directories of a path are all that making them touches.  A refusal comes
before the last of them is made. -/
theorem createDirAll_frame (above : List P) (p : P) : ∀ v : Volume P B,
    Meets (createDirAll (above ++ [p])) v (fun _ => True)
      (fun _ t => (∃ mode, t.node p = some (.directory mode)) ∧
        ∀ q, q ∉ above → q ≠ p → t.node q = v.node q)
      (fun _ t => ∀ q, q ∉ above → t.node q = v.node q) := by
  have hensure : ∀ (q : P) (v : Volume P B), Meets (ensureDir q) v (fun _ => True)
      (fun _ t => (∃ mode, t.node q = some (.directory mode)) ∧ ∀ r, r ≠ q → t.node r = v.node r)
      (fun _ t => t = v) := by
    intro q v
    unfold ensureDir
    refine Meets.bind_inspect (fun found hfound => ?_) fun e he => by cases he
    cases hfound
    cases hnode : v.node q with
    | none =>
      refine Meets.step (fun t ht => ⟨trivial, ?_⟩) fun e _ => rfl
      unfold createDir at ht
      rw [hnode] at ht
      simp only [Option.isSome_none, Bool.false_eq_true, if_false] at ht
      split at ht
      · cases ht
        exact ⟨⟨_, node_place_self ..⟩, fun r hr => node_place_of_ne _ hr⟩
      · cases ht
    | some n =>
      cases n with
      | directory mode => exact Meets.pure ⟨⟨mode, hnode⟩, fun _ _ => rfl⟩
      | file | symlink => exact Meets.fail rfl
  induction above with
  | nil =>
    intro v
    refine Meets.bind ((hensure p v).mono (fun _ h => h) (fun _ t ht => Meets.pure ?_)
      fun _ t ht => ?_)
    · exact ⟨ht.1, fun q _ hq => ht.2 q hq⟩
    · intro q _
      rw [ht]
  | cons r rest ih =>
    intro v
    refine Meets.bind ((hensure r v).mono (fun _ h => h) (fun _ t ht => ?_) fun _ t ht => ?_)
    · refine (ih t).mono (fun _ h => h) (fun _ u hu => ?_) fun _ u hu => ?_
      · refine ⟨hu.1, fun q hq hne => ?_⟩
        rw [mem_cons, not_or] at hq
        exact (hu.2 q hq.2 hne).trans (ht.2 q hq.1)
      · intro q hq
        rw [mem_cons, not_or] at hq
        exact (hu q hq.2).trans (ht.2 q hq.1)
    · intro q _
      rw [ht]

omit [ByteString B] in
theorem createPrivateDir_frame (p : P) (v : Volume P B) :
    Meets (createPrivateDir p) v (fun _ => True)
      (fun _ t => t.node p = some (.directory 0o700) ∧
        ∀ q, q ∉ Location.ancestors p → q ≠ p → t.node q = v.node q)
      (fun _ t => ∀ q, q ∉ Location.ancestors p → t.node q = v.node q) := by
  unfold createPrivateDir
  refine Meets.bind_inspect (fun _ _ => ?_) fun _ _ _ _ => rfl
  refine Meets.bind ((createDirAll_frame _ p v).mono (fun _ h => h) (fun _ t ht => ?_)
    fun _ t ht q hq => ht q (by rwa [mem_reverse]))
  obtain ⟨⟨mode, hmode⟩, hsame⟩ := ht
  refine Meets.step (fun u hu => ⟨trivial, ?_⟩) fun e he => ?_
  · rw [setMode_of_directory 0o700 hmode, Except.ok.injEq] at hu
    subst hu
    refine ⟨node_place_self .., fun q hq hne => ?_⟩
    rw [node_place_of_ne _ hne]
    exact hsame q (by rwa [mem_reverse]) hne
  · rw [setMode_of_directory 0o700 hmode] at he
    cases he

/-- `durable_replace` leaves the new contents at the target, or the target as it
was. -/
theorem durableReplace_frame {directory target temporary : P} (bytes : B) (v : Volume P B)
    (hparent : parent? target = some directory)
    (htarget : target ∉ Location.ancestors directory ∧ target ≠ directory)
    (htemporary : temporary ≠ target ∧ temporary ≠ directory)
    (hdirectory : directory ∉ Location.ancestors directory) :
    Meets (durableReplace target temporary bytes) v (fun _ => True)
      (fun _ t => t.node directory = some (.directory 0o700) ∧
        t.node target = some (.file 0o600 bytes))
      (fun _ t => (t.node directory = v.node directory ∨
        t.node directory = some (.directory 0o700)) ∧ t.node target = v.node target) := by
  unfold durableReplace
  refine Meets.bind_lift (fun found hfound => ?_) fun e he => by rw [hparent] at he; cases he
  rw [hparent, orRefuse_some, Except.ok.injEq] at hfound
  subst hfound
  refine Meets.bind ((createPrivateDir_frame directory v).mono (fun _ h => h) (fun _ t ht => ?_)
    fun _ t ht => ⟨.inl (ht _ hdirectory), ht _ htarget.1⟩)
  obtain ⟨hprivate, hframe⟩ := ht
  have hold : t.node target = v.node target := hframe _ htarget.1 htarget.2
  -- the clean-up takes away the temporary file at most
  have hcleanup : ∀ (u : Volume P B), u.node directory = some (.directory 0o700) →
      u.node target = v.node target →
      Meets (step (removeFile temporary) : Durable (Volume P B) IoError Unit) u
        (fun _ => True)
        (fun _ w => (w.node directory = v.node directory ∨
          w.node directory = some (.directory 0o700)) ∧ w.node target = v.node target)
        (fun _ w => (w.node directory = v.node directory ∨
          w.node directory = some (.directory 0o700)) ∧ w.node target = v.node target) := by
    intro u hu hu'
    refine Meets.step (fun w hw => ⟨trivial, ?_⟩) fun _ _ => ⟨.inr hu, hu'⟩
    unfold removeFile at hw
    split at hw
    · cases hw
    · cases hw
      rw [node_clear_of_ne htemporary.2.symm, node_clear_of_ne htemporary.1.symm]
      exact ⟨.inr hu, hu'⟩
    · cases hw
  apply Meets.onError
  refine Meets.bind (Meets.step (fun u hu => ⟨trivial, ?_⟩) fun _ _ => hcleanup t hprivate hold)
  have hopened : ∀ n : Node B, (t.place temporary n).node directory = some (.directory 0o700) ∧
      (t.place temporary n).node target = v.node target := by
    intro n
    rw [node_place_of_ne _ htemporary.2.symm, node_place_of_ne _ htemporary.1.symm]
    exact ⟨hprivate, hold⟩
  unfold openNew at hu
  split at hu
  · cases hu
  split at hu
  · cases hu
    refine Meets.bind (Meets.step (fun w hw => ⟨trivial, ?_⟩)
      fun _ _ => hcleanup _ (hopened _).1 (hopened _).2)
    rw [writeAll_of_file bytes (node_place_self ..), Except.ok.injEq] at hw
    subst hw
    have hdir : ((t.place temporary (.file 0o600 ByteString.empty)).place temporary
        (.file 0o600 bytes)).node directory = some (.directory 0o700) := by
      rw [node_place_of_ne _ htemporary.2.symm]
      exact (hopened _).1
    have hrename := parentPresent_of_directory hparent hdir
    refine Meets.step (fun w hw => ⟨trivial, ?_⟩) fun e he => ?_
    all_goals unfold rename at *
    all_goals rw [node_place_self] at *
    all_goals simp only [hrename, if_true] at *
    · cases hw
      refine ⟨?_, node_place_self ..⟩
      rw [node_place_of_ne _ (Ne.symm htarget.2), node_clear_of_ne htemporary.2.symm]
      exact hdir
    · cases he
  · cases hu

/-! ### A free temporary name -/

/-- Nothing can refuse a `durable_replace` of a file or a free name whose
temporary name is free. -/
theorem durableReplace_of_free {v : Volume P B} {directory target temporary : P} {mode : Nat}
    (bytes : B) (hdir : v.node directory = some (.directory mode))
    (habove : ∀ q ∈ Location.ancestors directory, ∃ mode, v.node q = some (.directory mode))
    (htarget : parent? target = some directory) (htemporary : parent? temporary = some directory)
    (hfree : v.node temporary = none) (hne : target ≠ directory) :
    let u := v.place directory (.directory 0o700)
    (durableReplace target temporary bytes).exec v =
      ⟨[u, u.place temporary (.file 0o600 ByteString.empty),
        (u.place temporary (.file 0o600 ByteString.empty)).place temporary (.file 0o600 bytes),
        (((u.place temporary (.file 0o600 ByteString.empty)).place temporary
          (.file 0o600 bytes)).clear temporary).place target (.file 0o600 bytes)], .ok ()⟩ := by
  intro u
  have hne' : temporary ≠ directory := by
    rintro rfl
    rw [hfree] at hdir
    cases hdir
  have hprivate : u.node directory = some (.directory 0o700) := node_place_self ..
  have hfree' : u.node temporary = none := by
    rw [node_place_of_ne _ hne']
    exact hfree
  have hopen : openNew 0o600 temporary u =
      .ok (u.place temporary (.file 0o600 ByteString.empty)) :=
    openNew_of_absent 0o600 hfree' (parentPresent_of_directory htemporary hprivate)
  have hrename : rename temporary target
      ((u.place temporary (.file 0o600 ByteString.empty)).place temporary (.file 0o600 bytes)) =
      .ok ((((u.place temporary (.file 0o600 ByteString.empty)).place temporary
        (.file 0o600 bytes)).clear temporary).place target (.file 0o600 bytes)) := by
    have hparent : ((u.place temporary (.file 0o600 ByteString.empty)).place temporary
        (.file 0o600 bytes)).parentPresent target = true := by
      apply parentPresent_of_directory htarget
      rw [node_place_of_ne _ (Ne.symm hne'), node_place_of_ne _ (Ne.symm hne'), hprivate]
    unfold rename
    rw [node_place_self]
    simp only [hparent, if_true]
  have hwritten : (do
      step (openNew 0o600 temporary)
      step (writeAll temporary bytes)
      step (rename temporary target)).exec u =
      ⟨[u.place temporary (.file 0o600 ByteString.empty),
        (u.place temporary (.file 0o600 ByteString.empty)).place temporary (.file 0o600 bytes),
        (((u.place temporary (.file 0o600 ByteString.empty)).place temporary
          (.file 0o600 bytes)).clear temporary).place target (.file 0o600 bytes)], .ok ()⟩ := by
    rw [bind_step_of_ok _ hopen,
      bind_step_of_ok _ (writeAll_of_file bytes (node_place_self ..)),
      step_of_ok hrename]
  unfold durableReplace
  rw [bind_lift_of_ok _ v (by rw [htarget]; rfl)]
  rw [bind_of_eq_ok_singleton _ (createPrivateDir_of_present hdir habove)]
  rw [onError_of_eq_ok hwritten]

end Replacement

end YawnApp.SessionCore
