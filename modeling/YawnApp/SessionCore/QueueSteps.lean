import YawnApp.SessionCore.QueueViews

set_option autoImplicit false

/-!
# What the steps of the queue change

An operation of the queue works in one meeting.  `Becomes` says what a reader
may see of the change: the record, the views of the requests, and that every
artifact is still there.  The programs that make a directory or write a receipt
are run here step by step, and each state they pass is given its place in these
terms.
-/

namespace YawnApp.SessionCore

open YawnApp.Foundation MeetingDirectory List Durable Directory

variable {B : Type} {t u : MeetingDirectory B} {views : Uuid → Option (ItemView B)}
  {record : Option B}

/-! ## Changes of a meeting -/

/-- The requests of a meeting as readers see them, with another view of one. -/
def setView (views : Uuid → Option (ItemView B)) (id : Uuid) (v : ItemView B) :
    Uuid → Option (ItemView B) :=
  fun other => if other = id then some v else views other

@[simp] theorem setView_self (views : Uuid → Option (ItemView B)) (id : Uuid) (v : ItemView B) :
    setView views id v id = some v := if_pos rfl

theorem setView_of_ne {id other : Uuid} (v : ItemView B) (h : other ≠ id) :
    setView views id v other = views other := if_neg h

theorem setView_eq_self {id : Uuid} {v : ItemView B} (h : views id = some v) :
    setView views id v = views := by
  funext other
  by_cases hother : other = id
  · rw [hother, setView_self, h]
  · exact setView_of_ne v hother

namespace MeetingDirectory

/-- The queue folder, if there is one, is private. -/
def QueuePrivate (m : MeetingDirectory B) : Prop := ∀ queue ∈ m.queue, queue.isPrivate = true

theorem view?_setItem (m : MeetingDirectory B) (id : Uuid) (item : ItemDirectory B) :
    (m.setItem id item).view? = setView m.view? id item.view := by
  funext other
  unfold view? setView
  rw [item?_setItem]
  split <;> rfl

variable {m : MeetingDirectory B} {id : Uuid}

theorem view?_of_item? {item : ItemDirectory B} (h : m.item? id = some item) :
    m.view? id = some item.view := by
  rw [view?, h]
  rfl

theorem item?_of_view? {v : ItemView B} (h : m.view? id = some v) :
    ∃ item, m.item? id = some item ∧ item.view = v := by
  unfold view? at h
  exact Option.map_eq_some_iff.mp h

theorem view?_eq_none : m.view? id = none ↔ m.item? id = none := by
  unfold view?
  exact Option.map_eq_none_iff

theorem queuePrivate_setItem (id : Uuid) (item : ItemDirectory B) (h : m.QueuePrivate) :
    (m.setItem id item).QueuePrivate := by
  intro queue hqueue
  unfold setItem at hqueue
  rw [Option.mem_some_iff] at hqueue
  subst hqueue
  cases hq : m.queue with
  | none => rfl
  | some queue => exact h queue hq

end MeetingDirectory

/-- The meeting has become `t`, with this record and these views; its artifacts
are still there. -/
structure Becomes (m t : MeetingDirectory B) (record : Option B)
    (views : Uuid → Option (ItemView B)) : Prop where
  record : t.record = record
  views : t.view? = views
  queuePrivate : m.QueuePrivate → t.QueuePrivate
  keeps : Keeps MeetingPath.IsEntry m.tree t.tree

/-- Nothing has changed that a reader sees. -/
def Quiet (m t : MeetingDirectory B) : Prop := Becomes m t m.record m.view?

theorem Quiet.refl (m : MeetingDirectory B) : Quiet m m := ⟨rfl, rfl, id, .refl _⟩

theorem Becomes.trans {m : MeetingDirectory B} {record' : Option B}
    {views' : Uuid → Option (ItemView B)} (h : Becomes m t record views)
    (h' : Becomes t u record' views') : Becomes m u record' views' :=
  ⟨h'.record, h'.views, h'.queuePrivate ∘ h.queuePrivate, h.keeps.trans h'.keeps⟩

/-- A change that starts after a quiet one. -/
theorem Quiet.becomes {m : MeetingDirectory B} {id : Uuid} {v : ItemView B} (h : Quiet m t)
    (h' : Becomes t u t.record (setView t.view? id v)) :
    Becomes m u m.record (setView m.view? id v) := by
  have := h.trans h'
  rwa [h.record, h.views] at this

theorem Quiet.trans {m : MeetingDirectory B} (h : Quiet m t) (h' : Quiet t u) : Quiet m u := by
  have := Becomes.trans h h'
  rwa [h.record, h.views] at this

/-- A quiet change after another one. -/
theorem Becomes.quiet {m : MeetingDirectory B} (h : Becomes m t record views) (h' : Quiet t u) :
    Becomes m u record views := by
  have := h.trans h'
  rwa [h.record, h.views] at this

theorem becomes_setItem (m : MeetingDirectory B) (id : Uuid) (item : ItemDirectory B) :
    Becomes m (m.setItem id item) m.record (setView m.view? id item.view) :=
  ⟨rfl, m.view?_setItem id item, queuePrivate_setItem id item, .refl _⟩

theorem quiet_setItem {m : MeetingDirectory B} {id : Uuid} {item : ItemDirectory B}
    (h : m.view? id = some item.view) : Quiet m (m.setItem id item) := by
  have := becomes_setItem m id item
  rwa [setView_eq_self h] at this

theorem Becomes.keepsArtifacts {m : MeetingDirectory B} (h : Becomes m t record views) :
    m.reader.KeepsArtifacts t.reader := keepsArtifacts_reader h.keeps

/-! ## Writing receipts -/

section Writing

variable [Platform B] {m : MeetingDirectory B} {id : Uuid} {item : ItemDirectory B}
  {folder : Drawer ClaimReceipt B} {claimId : Uuid} {name : QueueReceipt}

open TranscriptionQueue

omit [Platform B] in
theorem inItem_apply {ε α : Type} (hitem : m.item? id = some item)
    (program : Durable (ItemDirectory B) ε α) : (inItem id program).exec m =
      ⟨(program.exec item).trace.map (m.setItem id), (program.exec item).result⟩ := by
  unfold inItem
  rw [zoom_apply, hitem]
  rfl

/-- `durable_create_new` of a receipt whose name is free. -/
theorem createReceipt_of_free (bytes : B) (hitem : m.item? id = some item)
    (hfree : item.receipts.linked name = none) : (createReceipt id name bytes).exec m =
      ⟨(item.receipts.chmod.newStates name bytes).map fun receipts =>
        m.setItem id { item with receipts }, .ok ()⟩ := by
  unfold createReceipt inReceipts
  apply mapError_of_eq_ok
  rw [inItem_apply hitem, zoom_apply, Drawer.createNew_of_free bytes hfree, map_map]
  rfl

/-- What `durable_create_new` of a receipt leaves in a private directory: nothing
that is seen, or the receipt, if its name was free. -/
theorem meets_createReceipt {bytes : B} {v : ItemView B} {C : MeetingDirectory B → Prop}
    {Q : Unit → MeetingDirectory B → Prop} {E : TranscriptionQueueError → MeetingDirectory B → Prop}
    (hv : m.view? id = some v) (hprivate : v.isPrivate = true) (hfree : v.receipts name = none)
    (hquiet : ∀ t, Quiet m t → C t)
    (hlink : ∀ t, Becomes m t m.record (setView m.view? id (v.link name bytes)) → C t ∧ Q () t) :
    Meets (createReceipt id name bytes) m C Q E := by
  obtain ⟨item, hitem, rfl⟩ := item?_of_view? hv
  have hchmod : item.receipts.chmod = item.receipts := Drawer.chmod_of_private hprivate
  have hunlinked : ∀ temporaries, Quiet m
      (m.setItem id { item with receipts := { item.receipts with temporaries } }) :=
    fun temporaries => quiet_setItem hv
  have hlinked : ∀ temporaries, Becomes m
      (m.setItem id { item with receipts := { item.receipts.link name bytes with temporaries } })
      m.record (setView m.view? id (item.view.link name bytes)) :=
    fun temporaries => becomes_setItem m id _
  refine Meets.of_eq_ok (createReceipt_of_free bytes hitem hfree) ?_ ?_
  · intro t ht
    rw [hchmod] at ht
    simp only [Drawer.newStates, map_cons, map_nil, mem_cons, not_mem_nil,
      or_false] at ht
    rcases ht with rfl | rfl | rfl | rfl | rfl
    · exact hquiet _ (hunlinked item.receipts.temporaries)
    · exact hquiet _ (hunlinked _)
    · exact hquiet _ (hunlinked _)
    · exact (hlink _ (hlinked _)).1
    · exact (hlink _ (hlinked item.receipts.temporaries)).1
  · rw [hchmod]
    exact (hlink _ (hlinked item.receipts.temporaries)).2

/-- A receipt that is there already is refused. -/
theorem meets_createReceipt_taken (bytes : B) {v : ItemView B} (hv : m.view? id = some v)
    (hprivate : v.isPrivate = true) (htaken : (v.receipts name).isSome = true) :
    Meets (createReceipt id name bytes) m (Quiet m) (fun _ _ => False) (fun _ t => Quiet m t) := by
  obtain ⟨item, hitem, rfl⟩ := item?_of_view? hv
  have hchmod : item.receipts.chmod = item.receipts := Drawer.chmod_of_private hprivate
  have hunlinked : ∀ temporaries, Quiet m
      (m.setItem id { item with receipts := { item.receipts with temporaries } }) :=
    fun temporaries => quiet_setItem hv
  have hexec : (createReceipt id name bytes).exec m =
      ⟨[item.receipts, item.receipts.withTemporary ByteString.empty,
          item.receipts.withTemporary bytes, item.receipts].map fun receipts =>
        m.setItem id { item with receipts }, .error (.io .alreadyExists)⟩ := by
    unfold createReceipt inReceipts
    apply mapError_of_eq_error
    rw [inItem_apply hitem, zoom_apply, Drawer.createNew_of_taken bytes htaken, hchmod,
      map_map]
    rfl
  refine Meets.of_eq_error hexec (fun t ht => ?_) (hunlinked item.receipts.temporaries)
  obtain ⟨receipts, hmem, rfl⟩ := mem_map.mp ht
  simp only [mem_cons, not_mem_nil, or_false] at hmem
  rcases hmem with rfl | rfl | rfl | rfl
  · exact hunlinked item.receipts.temporaries
  · exact hunlinked _
  · exact hunlinked _
  · exact hunlinked item.receipts.temporaries

/-! ### Directories -/

omit [Platform B] in
/-- `item_dir` ends with a private queue folder; the first of its two states is
passed only if there was no folder. -/
theorem createQueueFolder_apply (m : MeetingDirectory B) : createQueueFolder.exec m =
    ⟨(if m.queue.isSome then [] else [{ m with queue := some Directory.made }]) ++
      [m.withQueue], .ok ()⟩ := by
  unfold createQueueFolder withQueue
  rw [bind_look]
  cases hqueue : m.queue with
  | none =>
    rw [if_pos (by rfl), bind_write, write_apply]
    rfl
  | some =>
    rw [if_neg (by simp), write_apply, hqueue]
    rfl

omit [Platform B] in
theorem createItemDirectory_apply (m : MeetingDirectory B) (id : Uuid) :
    (createItemDirectory id).exec m =
      ⟨[m.setItem id ItemDirectory.made, m.setItem id default], .ok ()⟩ := by
  unfold createItemDirectory inReceipts
  rw [bind_write, inItem_apply (item?_setItem_self m id _),
    zoom_apply, write_apply]
  simp only [map_cons, map_nil, setItem_setItem]
  rfl

/-- The same meeting with other claim folders of one request. -/
def MeetingDirectory.setClaims (m : MeetingDirectory B) (id : Uuid) (item : ItemDirectory B)
    (claims : Directory Uuid (Drawer ClaimReceipt B)) : MeetingDirectory B :=
  m.setItem id { item with claims := some claims }

section

omit [Platform B]

@[simp] theorem item?_setClaims (m : MeetingDirectory B) (id : Uuid) (item : ItemDirectory B)
    (claims : Directory Uuid (Drawer ClaimReceipt B)) :
    (m.setClaims id item claims).item? id = some { item with claims := some claims } :=
  item?_setItem_self m id _

@[simp] theorem setClaims_setClaims (m : MeetingDirectory B) (id : Uuid) (item : ItemDirectory B)
    (claims claims' : Directory Uuid (Drawer ClaimReceipt B)) :
    (m.setClaims id item claims).setClaims id item claims' = m.setClaims id item claims' :=
  setItem_setItem m id _ _

theorem inClaims_apply {ε α : Type} (hitem : m.item? id = some item)
    (program : Durable (Directory Uuid (Drawer ClaimReceipt B)) ε α) :
    (inClaims id program).exec m =
      ⟨(program.exec item.claimFolders).trace.map (m.setClaims id item),
        (program.exec item.claimFolders).result⟩ := by
  unfold inClaims
  rw [inItem_apply hitem, zoom_apply, map_map]
  rfl

/-- `create_private_dir` of `claims/`, which may be there. -/
theorem createClaimsDirectory_apply (hitem : m.item? id = some item) :
    (createClaimsDirectory id).exec m =
      ⟨(if item.claims.isSome then [] else [m.setClaims id item Directory.made]) ++
        [m.setClaims id item item.claimFolders.chmod], .ok ()⟩ := by
  unfold createClaimsDirectory
  rw [bind_look, hitem, Option.bind_some]
  cases hclaims : item.claims with
  | none =>
    rw [if_pos (by rfl), bind_of_eq_ok_singleton _
      ((inClaims_apply hitem _).trans (by rw [write_apply]; rfl)),
      inClaims_apply (item?_setClaims m id item Directory.made), write_apply]
    simp only [map_cons, map_nil, Option.isSome_none, Bool.false_eq_true, if_false,
      singleton_append, ItemDirectory.claimFolders, hclaims, Option.getD_some,
      Option.getD_none, chmod_made]
    congr 2
    exact congrArg (fun t => [t]) (setClaims_setClaims m id item _ _)
  | some =>
    rw [if_neg (by simp)]
    refine (inClaims_apply hitem _).trans ?_
    rw [write_apply]
    rfl

/-- `create_private_dir` of the folder of a new claim. -/
theorem createClaimFolder_apply (hitem : m.item? id = some item)
    (hfree : item.claimFolders.entry claimId = none) : (createClaimFolder id claimId).exec m =
      ⟨[m.setClaims id item (item.claimFolders.put claimId Drawer.made),
        m.setClaims id item (item.claimFolders.put claimId Drawer.empty)], .ok ()⟩ := by
  unfold createClaimFolder
  rw [bind_look, hitem, Option.bind_some, hfree, if_pos (by rfl),
    bind_of_eq_ok_singleton _
      ((inClaims_apply hitem _).trans (by rw [write_apply]; rfl)),
    inClaims_apply (item?_setClaims m id item _)]
  have hentry : ({ item with claims := some (item.claimFolders.put claimId Drawer.made) } :
      ItemDirectory B).claimFolders.entry claimId = some Drawer.made :=
    entry_put_self _ _ _
  rw [within_apply hentry, write_apply]
  simp only [map_cons, map_nil, Drawer.chmod_made]
  congr 2
  refine congrArg (fun t => [t]) ((setClaims_setClaims m id item _ _).trans ?_)
  exact congrArg (m.setClaims id item) (put_put _ _ _ _)

/-- `create_private_dir` of the folder of a claim that is there. -/
theorem createClaimFolder_of_present (hitem : m.item? id = some item)
    (hfolder : item.claimFolders.entry claimId = some folder) :
    (createClaimFolder id claimId).exec m =
      ⟨[m.setClaims id item (item.claimFolders.put claimId folder.chmod)], .ok ()⟩ := by
  unfold createClaimFolder
  rw [bind_look, hitem, Option.bind_some, hfolder, if_neg (by simp)]
  refine (inClaims_apply hitem _).trans ?_
  rw [within_apply hfolder, write_apply]
  rfl

end

/-- `durable_create_new` of a receipt in the folder of a claim. -/
theorem createClaimReceipt_of_free {name : ClaimReceipt} (bytes : B)
    (hitem : m.item? id = some item) (hfolder : item.claimFolders.entry claimId = some folder)
    (hfree : folder.linked name = none) : (createClaimReceipt id claimId name bytes).exec m =
      ⟨(folder.chmod.newStates name bytes).map fun folder =>
        m.setClaims id item (item.claimFolders.put claimId folder), .ok ()⟩ := by
  unfold createClaimReceipt
  apply mapError_of_eq_ok
  rw [inClaims_apply hitem, within_apply hfolder, Drawer.createNew_of_free bytes hfree,
    map_map]
  rfl

/-- A receipt that is there already is refused. -/
theorem createClaimReceipt_of_taken {name : ClaimReceipt} (bytes : B)
    (hitem : m.item? id = some item) (hfolder : item.claimFolders.entry claimId = some folder)
    (htaken : (folder.linked name).isSome = true) :
    (createClaimReceipt id claimId name bytes).exec m =
      ⟨[folder.chmod, folder.chmod.withTemporary ByteString.empty, folder.chmod.withTemporary bytes,
          folder.chmod].map fun folder => m.setClaims id item (item.claimFolders.put claimId folder),
        .error (.io .alreadyExists)⟩ := by
  unfold createClaimReceipt
  apply mapError_of_eq_error
  rw [inClaims_apply hitem, within_apply hfolder, Drawer.createNew_of_taken bytes htaken,
    map_map]
  rfl

/-- What it leaves: nothing that is seen, or the receipt. -/
theorem meets_createClaimReceipt {name : ClaimReceipt} {bytes : B} {C : MeetingDirectory B → Prop}
    {Q : Unit → MeetingDirectory B → Prop} {E : TranscriptionQueueError → MeetingDirectory B → Prop}
    (hitem : m.item? id = some item) (hfolder : item.claimFolders.entry claimId = some folder)
    (hfree : folder.linked name = none) (hquiet : ∀ t, Quiet m t → C t)
    (hlink : ∀ t, Becomes m t m.record
      (setView m.view? id (item.view.linkClaim claimId name bytes)) → C t ∧ Q () t) :
    Meets (createClaimReceipt id claimId name bytes) m C Q E := by
  have hview := view?_of_item? hitem
  have hunlinked : ∀ folder' : Drawer ClaimReceipt B, folder'.linked = folder.linked →
      Quiet m (m.setClaims id item (item.claimFolders.put claimId folder')) := by
    intro folder' hsame
    apply quiet_setItem
    rw [view_putClaim hfolder hsame, hview]
  have hlinked : ∀ folder' : Drawer ClaimReceipt B,
      (folder'.linked = fun other => if other = name then some bytes else folder.linked other) →
      Becomes m (m.setClaims id item (item.claimFolders.put claimId folder')) m.record
        (setView m.view? id (item.view.linkClaim claimId name bytes)) := by
    intro folder' hsame
    rw [← view_linkClaim hfolder name bytes hsame]
    exact becomes_setItem m id _
  refine Meets.of_eq_ok (createClaimReceipt_of_free bytes hitem hfolder hfree) ?_ ?_
  · intro t ht
    simp only [Drawer.newStates, map_cons, map_nil, mem_cons, not_mem_nil,
      or_false] at ht
    rcases ht with rfl | rfl | rfl | rfl | rfl
    · exact hquiet _ (hunlinked _ rfl)
    · exact hquiet _ (hunlinked _ rfl)
    · exact hquiet _ (hunlinked _ rfl)
    · exact (hlink _ (hlinked _ rfl)).1
    · exact (hlink _ (hlinked _ rfl)).1
  · exact (hlink _ (hlinked _ rfl)).2

/-! ### A directory and its receipt

`enqueue` and `claim` take the same steps: a directory above, if it is not there,
and its mode; the new directory and its mode; and the receipt in it. -/

/-- Where such a writer leaves a directory that no reader accepts: `present` says
that the directory above was there already. -/
def StopsUnfinished (present : Bool) (steps : Nat) : Prop :=
  if present then 2 ≤ steps ∧ steps ≤ 6 else steps = 1 ∨ 3 ≤ steps ∧ steps ≤ 7

instance (present : Bool) (steps : Nat) : Decidable (StopsUnfinished present steps) := by
  unfold StopsUnfinished
  infer_instance

/-- The states of such a writer: it stops before the new directory or after the
link of the receipt, or it leaves something unfinished. -/
theorem cut_directoryAndReceipt {σ : Type} {present : Bool} {steps : Nat}
    {t s made above dir private₁ private₂ opened written linked done : σ}
    (ht : t = (((if present then [] else [made]) ++
      [above, dir, private₁, private₂, opened, written, linked, done]).take steps).getLastD s) :
    t ∈ [s, above, linked, done] ∨ StopsUnfinished present steps ∧
      (present = false ∧ t = made ∨ t ∈ [dir, private₁, private₂, opened, written]) := by
  subst ht
  unfold StopsUnfinished
  cases present with
  | true =>
    rcases steps with _ | _ | _ | _ | _ | _ | _ | _ | steps <;> simp
  | false =>
    rcases steps with _ | _ | _ | _ | _ | _ | _ | _ | _ | steps <;> simp

end Writing

end YawnApp.SessionCore
