/-
  SessionCore/OperationStoreCrash.lean --- crashes between the steps of the
  operation store's writers.

  A run of the store is a list of calls, each stopped after any number of its
  steps.  The writers keep the store consistent through every such run.  What
  they do not keep is that every operation directory has its request:
  `write_request` makes the directory first and links the request into it four
  steps later, and a call that ends in between leaves a directory the scan
  refuses, and with it the whole store.  `StopsBeforeRequest` is that window.
-/
import YawnApp.SessionCore.OperationStoreScan
import YawnApp.SessionCore.Recorded

set_option autoImplicit false

namespace YawnApp.SessionCore

open YawnApp.Foundation Durable

/-! ## What one step can change -/

section Changes

variable {B : Type} {v t : StoreVolume B} {id : Uuid}

/-- `p` stands below the directory of operation `id`. -/
def OperationPath.below (id : Uuid) : OperationPath → Prop
  | .receipt other _ => other = id
  | .temporary other _ _ => other = id
  | _ => False

/-- From `v`, the volume `t` differs in temporary files of operation `id` only. -/
def Untouched (v t : StoreVolume B) (id : Uuid) : Prop :=
  ∀ p, (∀ name nonce, p ≠ .temporary id name nonce) → t.node p = v.node p

/-- From `v`, the volume `t` has in addition one receipt of operation `id`. -/
def Linked (v t : StoreVolume B) (id : Uuid) (name : ReceiptName) (bytes : B) : Prop :=
  ∀ p, (∀ name nonce, p ≠ .temporary id name nonce) →
    t.node p = if p = .receipt id name then some (privateFile bytes) else v.node p

theorem not_below_ne {p : OperationPath} {id : Uuid} (h : ¬ p.below id) :
    (∀ name nonce, p ≠ .temporary id name nonce) ∧ ∀ name, p ≠ .receipt id name := by
  constructor
  · rintro name nonce rfl
    exact h rfl
  · rintro name rfl
    exact h rfl

variable {bytes : B}

theorem Linked.apart {name : ReceiptName} (h : Linked v t id name bytes) {p : OperationPath}
    (hp : ¬ p.below id) : t.node p = v.node p := by
  obtain ⟨htemporary, hreceipt⟩ := not_below_ne hp
  rw [h p htemporary, if_neg (hreceipt name)]

theorem Linked.receipt {name : ReceiptName} (h : Linked v t id name bytes) (other : ReceiptName) :
    t.node (.receipt id other) =
      if other = name then some (privateFile bytes) else v.node (.receipt id other) := by
  rw [h (.receipt id other) fun _ _ => by simp]
  by_cases hname : other = name
  · rw [if_pos hname, if_pos (by rw [hname])]
  · rw [if_neg hname, if_neg (by simp [hname])]

/-- The volume `t` has the operation directories of `v` and no request less. -/
structure KeepsRequests (v t : StoreVolume B) : Prop where
  entries : ∀ name, t.node (.entry name) = v.node (.entry name)
  requests : ∀ id, v.node (.receipt id .request) ≠ none → t.node (.receipt id .request) ≠ none

theorem KeepsRequests.everyRequestLinked {v t : StoreVolume B} (h : KeepsRequests v t)
    (hlinked : EveryRequestLinked v) : EveryRequestLinked t := by
  intro id n hn
  rw [operationPath, h.entries] at hn
  exact h.requests id (hlinked id n hn)

theorem Untouched.keepsRequests {v t : StoreVolume B} {id : Uuid} (h : Untouched v t id) :
    KeepsRequests v t where
  entries name := h _ fun _ _ => by simp
  requests other hother := by
    rw [h (.receipt other .request) fun _ _ => by simp]
    exact hother

theorem Linked.keepsRequests {v t : StoreVolume B} {id : Uuid} {name : ReceiptName}
    (h : Linked v t id name bytes) : KeepsRequests v t where
  entries other := h.apart fun hb => hb
  requests other hother := by
    rw [h (.receipt other .request) fun _ _ => by simp]
    split
    · simp
    · exact hother

end Changes

/-! ## What keeps the store consistent -/

section Linking

variable {B : Type} [Platform B] {v t : StoreVolume B} {id : Uuid}

/-- A change below one operation directory keeps the store consistent when the
receipts of that operation still stand together. -/
theorem Consistent.of_change_below {v t : StoreVolume B} (h : Consistent v) {id : Uuid}
    (hdir : v.node (operationPath id) ≠ none)
    (hother : ∀ p, ¬ p.below id → t.node p = v.node p)
    (hreceipts : (∀ name, t.node (.receipt id name) = none) ∨
      ∃ r, r.WellFormed B id ∧ Holds t id r) : Consistent t where
  storage := (hother .storage fun hb => hb).trans h.storage
  operations := (hother .operations fun hb => hb).trans h.operations
  entries name n hn := h.entries name n ((hother (.entry name) fun hb => hb) ▸ hn)
  receipts other := by
    by_cases hid : other = id
    · subst hid
      exact hreceipts
    · have hsame : ∀ name, t.node (.receipt other name) = v.node (.receipt other name) :=
        fun name => hother _ hid
      rcases h.receipts other with hnone | ⟨r, hr, hholds⟩
      · exact .inl fun name => (hsame name).trans (hnone name)
      · exact .inr ⟨r, hr, (hsame _).trans hholds.request, (hsame _).trans hholds.result,
          (hsame _).trans hholds.commit⟩
  receiptBelow other name hnone := by
    rw [hother (operationPath other) fun hb => hb] at hnone
    have hid : other ≠ id := fun heq => hdir (heq ▸ hnone)
    exact (hother (.receipt other name) hid).trans (h.receiptBelow other name hnone)
  temporaryBelow other name nonce hnone := by
    rw [hother (operationPath other) fun hb => hb] at hnone
    have hid : other ≠ id := fun heq => hdir (heq ▸ hnone)
    exact (hother (.temporary other name nonce) hid).trans
      (h.temporaryBelow other name nonce hnone)

theorem Consistent.of_untouched {v t : StoreVolume B} (h : Consistent v) {id : Uuid}
    (hdir : v.node (operationPath id) ≠ none) (ht : Untouched v t id) : Consistent t := by
  have hsame : ∀ name, t.node (.receipt id name) = v.node (.receipt id name) :=
    fun name => ht _ fun _ _ => by simp
  refine h.of_change_below hdir (fun p hp => ht p (not_below_ne hp).1) ?_
  rcases h.receipts id with hnone | ⟨r, hr, hholds⟩
  · exact .inl fun name => (hsame name).trans (hnone name)
  · exact .inr ⟨r, hr, (hsame _).trans hholds.request, (hsame _).trans hholds.result,
      (hsame _).trans hholds.commit⟩

/-! Each receipt joins the ones that are there already, and the checks its writer
made are what the store needs of it. -/

theorem Consistent.of_linked_request (h : Consistent v) (hdir : v.node (operationPath id) ≠ none)
    {request : StoredOperationRequest} (hvalid : request.validate = .ok ())
    (hid : request.operationId = id)
    (hfits : ByteString.size (request.canonicalBytes : B) ≤ maxReceiptBytes)
    (hfree : v.node (.receipt id .request) = none)
    (ht : Linked v t id .request request.canonicalBytes) : Consistent t := by
  have hnone : ∀ name, v.node (.receipt id name) = none := by
    rcases h.receipts id with hnone | ⟨r, -, hholds⟩
    · exact hnone
    · rw [hholds.request] at hfree
      cases hfree
  refine h.of_change_below hdir (fun p => ht.apart) (.inr ⟨⟨request, none, none⟩, ?_, ?_⟩)
  · exact ⟨hvalid, hfits, hid, fun _ h => (by simp at h), fun _ h => (by simp at h)⟩
  · exact ⟨by simp [ht.receipt], by simp [ht.receipt, hnone], by simp [ht.receipt, hnone]⟩

theorem Consistent.of_linked_result (h : Consistent v) (hdir : v.node (operationPath id) ≠ none)
    {r : StoredOperationReceipt} (hr : r.WellFormed B id) (hholds : Holds v id r)
    {result : StoredOperationResult} (hvalid : result.validate = .ok ())
    (hmatches : resultMatchesRequest r.request result = true)
    (hfits : ByteString.size (result.canonicalBytes : B) ≤ maxReceiptBytes)
    (hfree : v.node (.receipt id .result) = none)
    (ht : Linked v t id .result result.canonicalBytes) : Consistent t := by
  have hresult : r.result = none := by
    rw [hholds.result, Option.map_eq_none_iff] at hfree
    exact hfree
  have hcommit : r.commit = none := by
    cases hc : r.commit with
    | none => rfl
    | some commit =>
      obtain ⟨-, -, result, hsome, -⟩ := hr.commit commit hc
      rw [hresult] at hsome
      cases hsome
  refine h.of_change_below hdir (fun p => ht.apart) (.inr ⟨{ r with result := some result }, ?_, ?_⟩)
  · refine ⟨hr.request, hr.requestFits, hr.identifier, ?_, fun _ h => by simp [hcommit] at h⟩
    intro other hother
    cases hother
    exact ⟨hvalid, hfits, hmatches⟩
  · exact ⟨by simp [ht.receipt, hholds.request], by simp [ht.receipt],
      by simp [ht.receipt, hholds.commit]⟩

theorem Consistent.of_linked_commit (h : Consistent v) (hdir : v.node (operationPath id) ≠ none)
    {r : StoredOperationReceipt} (hr : r.WellFormed B id) (hholds : Holds v id r)
    {commit : MeetingOperationCommit} (hvalid : commit.validate = .ok ())
    {result : StoredOperationResult} (hresult : r.result = some result)
    (hmatches : commitMatchesReceipts B r.request result commit = true)
    (hfits : ByteString.size (toVecPretty commit : B) ≤ maxReceiptBytes)
    (ht : Linked v t id .commit (toVecPretty commit)) : Consistent t := by
  refine h.of_change_below hdir (fun p => ht.apart) (.inr ⟨{ r with commit := some commit }, ?_, ?_⟩)
  · refine ⟨hr.request, hr.requestFits, hr.identifier, hr.result, ?_⟩
    intro other hother
    cases hother
    exact ⟨hvalid, hfits, result, hresult, hmatches⟩
  · exact ⟨by simp [ht.receipt, hholds.request], by simp [ht.receipt, hholds.result],
      by simp [ht.receipt]⟩

end Linking

/-! ## Writing a receipt into a directory that is there -/

variable {B : Type} [Platform B] {v : StoreVolume B}

/-- The directories a receipt of an operation stands below. -/
theorem Consistent.above (h : Consistent v) (id : Uuid) :
    ∀ q ∈ Location.ancestors (operationPath id), ∃ mode, v.node q = some (.directory mode) := by
  intro q hq
  rcases List.mem_cons.mp hq with rfl | hq
  · exact ⟨_, h.operations⟩
  · rw [List.mem_singleton.mp hq]
    exact ⟨_, h.storage⟩

omit [Platform B] in
/-- Making a private directory private again changes nothing. -/
theorem untouched_of_setMode {id : Uuid}
    (hdir : v.node (operationPath id) = some (.directory 0o700)) :
    Untouched v (v.place (operationPath id) (.directory 0o700)) id := by
  intro p _
  rw [Volume.node_place]
  split
  · rename_i hp
    rw [hp, hdir]
  · rfl

/-- The five states of `durable_create_new` of a receipt: the directory made
private, the temporary file, its contents, the link and the unlinked temporary
file.  The receipt is there from the fourth on. -/
theorem durableCreateNew_receipt_of_fresh (h : Consistent v) {id : Uuid}
    (hdir : v.node (operationPath id) = some (.directory 0o700)) {name : ReceiptName} {nonce : Uuid}
    (bytes : B) (hfree : v.node (.receipt id name) = none)
    (htemporary : v.node (.temporary id name nonce) = none) : ∃ t₁ t₂ t₃ t₄ t₅,
      (durableCreateNew (.receipt id name) (.temporary id name nonce) bytes).exec v =
        ⟨[t₁, t₂, t₃, t₄, t₅], .ok ()⟩ ∧
      (Untouched v t₁ id ∧ Untouched v t₂ id ∧ Untouched v t₃ id) ∧
      Linked v t₄ id name bytes ∧ Linked v t₅ id name bytes := by
  have hplace := untouched_of_setMode hdir
  refine ⟨_, _, _, _, _, durableCreateNew_of_fresh bytes {
    present := ⟨_, hdir⟩
    above := h.above id
    targetParent := rfl
    temporaryParent := rfl
    targetFree := hfree
    temporaryFree := htemporary
    distinct := by simp }, ⟨hplace, ?_, ?_⟩, ?_, ?_⟩
  · intro p hp
    rw [Volume.node_place_of_ne _ (hp name nonce)]
    exact hplace p hp
  · intro p hp
    rw [Volume.node_place_of_ne _ (hp name nonce), Volume.node_place_of_ne _ (hp name nonce)]
    exact hplace p hp
  · intro p hp
    rw [Volume.node_place, Volume.node_place_of_ne _ (hp name nonce),
      Volume.node_place_of_ne _ (hp name nonce), hplace p hp]
    rfl
  · intro p hp
    rw [Volume.node_clear_of_ne (hp name nonce), Volume.node_place,
      Volume.node_place_of_ne _ (hp name nonce), Volume.node_place_of_ne _ (hp name nonce),
      hplace p hp]
    rfl

/-- What a crash in `durable_create_new` of a receipt can leave: temporary
files, or the receipt itself. -/
theorem durableCreateNew_receipt (h : Consistent v) {id : Uuid}
    (hdir : v.node (operationPath id) ≠ none) {name : ReceiptName} (nonce : Uuid) (bytes : B)
    (hfree : v.node (.receipt id name) = none) :
    ∀ t ∈ ((durableCreateNew (.receipt id name) (.temporary id name nonce) bytes).exec v).trace,
      Untouched v t id ∨ Linked v t id name bytes := by
  obtain ⟨n, hn⟩ := Option.ne_none_iff_exists'.mp hdir
  have hdir' : v.node (operationPath id) = some (.directory 0o700) := h.directory hn ▸ hn
  intro t ht
  by_cases htemporary : v.node (.temporary id name nonce) = none
  · obtain ⟨t₁, t₂, t₃, t₄, t₅, hexec, ⟨h₁, h₂, h₃⟩, h₄, h₅⟩ :=
      durableCreateNew_receipt_of_fresh h hdir' bytes hfree htemporary
    rw [hexec] at ht
    simp only [List.mem_cons, List.not_mem_nil, or_false] at ht
    rcases ht with rfl | rfl | rfl | rfl | rfl
    · exact .inl h₁
    · exact .inl h₂
    · exact .inl h₃
    · exact .inr h₄
    · exact .inr h₅
  · have hparent : parent? (OperationPath.receipt id name) = some (operationPath id) := rfl
    obtain ⟨trace, hexec, htrace⟩ := durableCreateNew_of_taken bytes hdir' (h.above id) hparent
      (by simp [operationPath]) htemporary
    rw [hexec] at ht
    have hplace := untouched_of_setMode hdir'
    rcases List.mem_cons.mp ht with rfl | ht
    · exact .inl hplace
    · left
      rw [htrace t ht]
      intro p hp
      rw [Volume.node_clear_of_ne (hp name nonce)]
      exact hplace p hp

variable [DecidableEq B] {request : StoredOperationRequest}

/-- A receipt writer that goes past its checks found its place free and its
bytes within the bound; otherwise it changes nothing. -/
theorem writeReceipt_states (h : Consistent v) {id : Uuid} (hdir : v.node (operationPath id) ≠ none)
    (name : ReceiptName) (nonce : Uuid) (bytes : B) :
    ∀ t ∈ ((OperationStore.writeReceipt id name nonce bytes).exec v).trace,
      Untouched v t id ∨ (Linked v t id name bytes ∧ v.node (.receipt id name) = none ∧
        ByteString.size bytes ≤ maxReceiptBytes) := by
  intro t ht
  unfold OperationStore.writeReceipt at ht
  by_cases hsize : ByteString.size bytes > maxReceiptBytes
  · rw [bind_lift_of_error _ _ (refuseIf_of hsize)] at ht
    cases ht
  rw [bind_lift_of_ok _ _ (refuseIf_of_not hsize)] at ht
  cases hfree : v.node (.receipt id name) with
  | some n =>
    have hrefused : ∃ e, OperationStore.receiptPlaceFree v (.receipt id name) bytes = .error e := by
      cases hplace : OperationStore.receiptPlaceFree v (.receipt id name) bytes with
      | error e => exact ⟨e, rfl⟩
      | ok =>
        unfold OperationStore.receiptPlaceFree at hplace
        rw [hfree] at hplace
        cases n with
        | file =>
          simp only [bind_eq_ok] at hplace
          obtain ⟨-, -, found, -, hfound⟩ := hplace
          split at hfound <;> cases hfound
        | directory | symlink => cases hplace
    obtain ⟨e, he⟩ := hrefused
    rw [bind_inspect_of_error _ (by exact he)] at ht
    cases ht
  | none =>
    have hplace : OperationStore.receiptPlaceFree v (.receipt id name) bytes = .ok () := by
      unfold OperationStore.receiptPlaceFree
      rw [hfree]
    rw [bind_inspect_of_ok _ (by exact hplace)] at ht
    rcases durableCreateNew_receipt h hdir nonce bytes hfree t ht with hu | hl
    · exact .inl hu
    · exact .inr ⟨hl, rfl, Nat.not_lt.mp hsize⟩

/-- The directory of an operation whose request is read is there. -/
theorem holds_of_loadRequest (h : Consistent v) {id : Uuid}
    (hload : OperationStore.loadRequest v id = .ok request) : v.node (operationPath id) ≠ none ∧
      ∃ r, r.WellFormed B id ∧ Holds v id r ∧ r.request = request := by
  have hrequest : v.node (.receipt id .request) ≠ none := by
    intro hnone
    unfold OperationStore.loadRequest OperationStore.readRequired at hload
    rw [refuseIf_of (by simp [hnone])] at hload
    cases hload
  obtain ⟨r, hr, hholds⟩ := h.holds_of_request hrequest
  rw [loadRequest_of_holds hr hholds, Except.ok.injEq] at hload
  refine ⟨?_, r, hr, hholds, hload⟩
  rw [h.directory_of_request hrequest]
  simp

/-- The two later writers keep the store, wherever they are stopped. -/
theorem writeResult_states (h : Consistent v) (id : Uuid) (result : StoredOperationResult)
    (nonce : Uuid) : ∀ t ∈ ((OperationStore.writeResult id result nonce).exec v).trace,
      Consistent t ∧ KeepsRequests v t := by
  refine Meets.crash (Q := fun _ _ => True) (E := fun _ _ => True) ?_
  unfold OperationStore.writeResult
  refine Meets.bind_lift (fun _ hvalid => ?_) fun _ _ => trivial
  refine Meets.bind_inspect (fun _ _ => ?_) fun _ _ => trivial
  refine Meets.bind_inspect (fun request hload => ?_) fun _ _ => trivial
  refine Meets.bind_lift (fun _ hmatches => ?_) fun _ _ => trivial
  obtain ⟨hdir, r, hr, hholds, rfl⟩ := holds_of_loadRequest h hload
  apply Meets.of_crash
  intro t ht
  rcases writeReceipt_states h hdir .result nonce _ t ht with hu | ⟨hl, hfree, hfits⟩
  · exact ⟨h.of_untouched hdir hu, hu.keepsRequests⟩
  · have hm : resultMatchesRequest r.request result = true := by
      simpa [validateResultMatchesRequest] using hmatches
    exact ⟨h.of_linked_result hdir hr hholds hvalid hm hfits hfree hl, hl.keepsRequests⟩

theorem writeCommit_states (h : Consistent v) (id : Uuid) (commit : MeetingOperationCommit)
    (meeting : MeetingRecord) (meetingBytes : B) (nonce : Uuid) :
    ∀ t ∈ ((OperationStore.writeCommit id commit meeting meetingBytes nonce).exec v).trace,
      Consistent t ∧ KeepsRequests v t := by
  refine Meets.crash (Q := fun _ _ => True) (E := fun _ _ => True) ?_
  unfold OperationStore.writeCommit
  refine Meets.bind_lift (fun _ hvalid => ?_) fun _ _ => trivial
  refine Meets.bind_inspect (fun _ _ => ?_) fun _ _ => trivial
  refine Meets.bind_inspect (fun request hload => ?_) fun _ _ => trivial
  refine Meets.bind_inspect (fun stored hstored => ?_) fun _ _ => trivial
  refine Meets.bind_lift (fun result hresult => ?_) fun _ _ => trivial
  refine Meets.bind_lift (fun _ hmatches => ?_) fun _ _ => trivial
  refine Meets.bind_lift (fun _ _ => ?_) fun _ _ => trivial
  obtain ⟨hdir, r, hr, hholds, rfl⟩ := holds_of_loadRequest h hload
  apply Meets.of_crash
  intro t ht
  rcases writeReceipt_states h hdir .commit nonce _ t ht with hu | ⟨hl, -, hfits⟩
  · exact ⟨h.of_untouched hdir hu, hu.keepsRequests⟩
  · have hc : commit.validate = .ok () := by simpa using hvalid
    have hsome : r.result = some result := by
      rw [loadResult_of_holds hr hholds, Except.ok.injEq] at hstored
      rw [hstored]
      simpa using hresult
    have hm : commitMatchesReceipts B r.request result commit = true := by
      simpa [validateCommitMatchesReceipts] using hmatches
    exact ⟨h.of_linked_commit hdir hr hholds hc hsome hm hfits hl, hl.keepsRequests⟩

/-! ## `write_request`

The one writer that makes a directory. -/

/-- The store with a directory for operation `id` and nothing in it. -/
def withDirectory (v : StoreVolume B) (id : Uuid) : StoreVolume B :=
  v.place (operationPath id) (.directory 0o700)

section Directory

omit [DecidableEq B]

variable {id : Uuid}

theorem Consistent.withDirectory {v : StoreVolume B} (h : Consistent v)
    (habsent : v.node (operationPath id) = none) : Consistent (withDirectory v id) := by
  have hsame : ∀ p, p ≠ operationPath id → (SessionCore.withDirectory v id).node p = v.node p :=
    fun p hp => Volume.node_place_of_ne _ hp
  have hreceipt : ∀ other name, (SessionCore.withDirectory v id).node (.receipt other name) =
      v.node (.receipt other name) := fun other name => hsame _ (by simp [operationPath])
  have hentry : ∀ other, (SessionCore.withDirectory v id).node (operationPath other) = none →
      v.node (operationPath other) = none := by
    intro other hnone
    by_cases hid : operationPath other = operationPath id
    · rw [hid]
      exact habsent
    · rwa [hsame _ hid] at hnone
  refine ⟨(hsame _ (by simp [operationPath])).trans h.storage,
    (hsame _ (by simp [operationPath])).trans h.operations, ?_, ?_, ?_, ?_⟩
  · intro name n hn
    by_cases hname : OperationPath.entry name = operationPath id
    · rw [hname, SessionCore.withDirectory, Volume.node_place_self, Option.some.injEq] at hn
      exact ⟨id, OperationPath.entry.inj hname, hn.symm⟩
    · exact h.entries name n (hsame _ hname ▸ hn)
  · intro other
    rcases h.receipts other with hnone | ⟨r, hr, hholds⟩
    · exact .inl fun name => (hreceipt other name).trans (hnone name)
    · exact .inr ⟨r, hr, (hreceipt _ _).trans hholds.request, (hreceipt _ _).trans hholds.result,
        (hreceipt _ _).trans hholds.commit⟩
  · intro other name hnone
    exact (hreceipt other name).trans (h.receiptBelow other name (hentry other hnone))
  · intro other name nonce hnone
    exact (hsame _ (by simp [operationPath])).trans
      (h.temporaryBelow other name nonce (hentry other hnone))

omit [Platform B] in
theorem ensureOperationDir_of_present {v : StoreVolume B}
    (hdir : v.node (operationPath id) = some (.directory 0o700)) :
    (OperationStore.ensureOperationDir id).exec v = ⟨[], .ok ()⟩ := by
  have hensure : (ensurePrivateDirectory (B := B) (operationPath id) .operations).exec v =
      ⟨[], .ok ()⟩ := by
    unfold ensurePrivateDirectory
    rw [bind_inspect_of_ok _ (by rfl), hdir]
    rfl
  unfold OperationStore.ensureOperationDir
  rw [bind_of_eq_ok_nil _ hensure]
  simp [Durable.inspect, requirePrivateDirectory_of_private hdir]

theorem ensureOperationDir_of_absent {v : StoreVolume B} (h : Consistent v)
    (habsent : v.node (operationPath id) = none) :
    (OperationStore.ensureOperationDir id).exec v = ⟨[withDirectory v id], .ok ()⟩ := by
  have hprivate : requirePrivateDirectory (withDirectory v id) (operationPath id) = .ok () :=
    requirePrivateDirectory_of_private (Volume.node_place_self ..)
  have hcreate : (createNewPrivateDirectory (B := B) (operationPath id) .operations).exec v =
      ⟨[withDirectory v id], .ok ()⟩ := by
    unfold createNewPrivateDirectory
    rw [bind_inspect_of_ok _
      (by exact congrArg _ (requirePrivateDirectory_of_private h.operations))]
    rw [bind_of_eq_ok_singleton _ (mapError_of_eq_ok (step_of_ok
      (Volume.createDir_of_absent 0o700 habsent
        (Volume.parentPresent_of_directory rfl h.operations))))]
    simp only [Durable.inspect]
    rw [← withDirectory, hprivate]
    rfl
  have hensure : (ensurePrivateDirectory (B := B) (operationPath id) .operations).exec v =
      ⟨[withDirectory v id], .ok ()⟩ := by
    unfold ensurePrivateDirectory
    rw [bind_inspect_of_ok _ (by rfl), habsent]
    exact hcreate
  unfold OperationStore.ensureOperationDir
  rw [bind_of_eq_ok_singleton _ hensure]
  simp [Durable.inspect, hprivate]

end Directory

theorem writeReceipt_of_oversize {id : Uuid} {name : ReceiptName} {nonce : Uuid} {bytes : B}
    (h : ByteString.size bytes > maxReceiptBytes) :
    (OperationStore.writeReceipt id name nonce bytes).exec v =
      ⟨[], .error (.malformed "operation receipt exceeds its bounded size")⟩ := by
  unfold OperationStore.writeReceipt
  exact bind_lift_of_error _ _ (refuseIf_of h)

theorem writeReceipt_of_free {id : Uuid} {name : ReceiptName} {nonce : Uuid} {bytes : B}
    (hfits : ByteString.size bytes ≤ maxReceiptBytes) (hfree : v.node (.receipt id name) = none) :
    (OperationStore.writeReceipt id name nonce bytes).exec v =
      (Durable.mapError OperationStore.receiptError
        (durableCreateNew (.receipt id name) (.temporary id name nonce) bytes)).exec v := by
  have hplace : OperationStore.receiptPlaceFree v (.receipt id name) bytes = .ok () := by
    unfold OperationStore.receiptPlaceFree
    rw [hfree]
  unfold OperationStore.writeReceipt
  rw [bind_lift_of_ok _ _ (refuseIf_of_not (Nat.not_lt.mpr hfits)),
    bind_inspect_of_ok _ (by exact hplace)]

/-- A request of an operation that has no directory yet: the directory comes
first, and the request is there from the fifth step on. -/
theorem writeRequest_of_absent (h : Consistent v) (hvalid : request.validate = .ok ())
    (habsent : v.node (operationPath request.operationId) = none) (nonce : Uuid) :
    let made := withDirectory v request.operationId
    if ByteString.size (request.canonicalBytes : B) ≤ maxReceiptBytes then
      ∃ t₁ t₂ t₃ t₄ t₅,
        (OperationStore.writeRequest request nonce).exec v =
          ⟨[made, t₁, t₂, t₃, t₄, t₅], .ok ()⟩ ∧
        (Untouched made t₁ request.operationId ∧ Untouched made t₂ request.operationId ∧
          Untouched made t₃ request.operationId) ∧
        Linked made t₄ request.operationId .request (request.canonicalBytes : B) ∧
        Linked made t₅ request.operationId .request (request.canonicalBytes : B)
    else
      (OperationStore.writeRequest request nonce).exec v =
        ⟨[made], .error (.malformed "operation receipt exceeds its bounded size")⟩ := by
  intro made
  have hmade := h.withDirectory habsent
  have hdir : made.node (operationPath request.operationId) = some (.directory 0o700) :=
    Volume.node_place_self ..
  have hfree : made.node (.receipt request.operationId .request) = none := by
    rw [show made = withDirectory v request.operationId from rfl, withDirectory,
      Volume.node_place_of_ne _ (by simp [operationPath])]
    exact h.receiptBelow _ _ habsent
  have htemporary : made.node (.temporary request.operationId .request nonce) = none := by
    rw [show made = withDirectory v request.operationId from rfl, withDirectory,
      Volume.node_place_of_ne _ (by simp [operationPath])]
    exact h.temporaryBelow _ _ _ habsent
  have hexec : (OperationStore.writeRequest request nonce).exec v =
      ⟨made :: ((OperationStore.writeReceipt request.operationId .request nonce
          (request.canonicalBytes : B)).exec made).trace,
        ((OperationStore.writeReceipt request.operationId .request nonce
          (request.canonicalBytes : B)).exec made).result⟩ := by
    unfold OperationStore.writeRequest
    rw [bind_lift_of_ok _ _ hvalid,
      bind_of_eq_ok_singleton _ (ensureOperationDir_of_absent h habsent)]
  split
  · rename_i hfits
    obtain ⟨t₁, t₂, t₃, t₄, t₅, hcreate, huntouched, hlinked⟩ :=
      durableCreateNew_receipt_of_fresh hmade hdir (request.canonicalBytes : B) hfree htemporary
    refine ⟨t₁, t₂, t₃, t₄, t₅, ?_, huntouched, hlinked⟩
    rw [hexec, writeReceipt_of_free hfits hfree, mapError_of_eq_ok hcreate]
  · rename_i hfits
    rw [hexec, writeReceipt_of_oversize (Nat.not_le.mp hfits)]

/-- A request of an operation that has its directory already is refused or joins
what is there. -/
theorem writeRequest_of_present (h : Consistent v) (hvalid : request.validate = .ok ())
    (hpresent : v.node (operationPath request.operationId) ≠ none) (nonce : Uuid) :
    ∀ t ∈ ((OperationStore.writeRequest request nonce).exec v).trace,
      Consistent t ∧ KeepsRequests v t := by
  obtain ⟨n, hn⟩ := Option.ne_none_iff_exists'.mp hpresent
  have hdir := h.directory hn ▸ hn
  intro t ht
  unfold OperationStore.writeRequest at ht
  rw [bind_lift_of_ok _ _ hvalid,
    bind_of_eq_ok_nil _ (ensureOperationDir_of_present hdir)] at ht
  rcases writeReceipt_states h hpresent .request nonce _ t ht with hu | ⟨hl, hfree, hfits⟩
  · exact ⟨h.of_untouched hpresent hu, hu.keepsRequests⟩
  · exact ⟨h.of_linked_request hpresent hvalid rfl hfits hfree hl, hl.keepsRequests⟩

/-! ## Calls -/

variable (B) in
/-- One call of the store, with all it is given. -/
inductive StoreCall where
  | writeRequest (request : StoredOperationRequest) (nonce : Uuid)
  | writeResult (id : Uuid) (result : StoredOperationResult) (nonce : Uuid)
  | writeCommit (id : Uuid) (commit : MeetingOperationCommit) (meeting : MeetingRecord)
      (meetingBytes : B) (nonce : Uuid)

namespace StoreCall

def program : StoreCall B → Durable (StoreVolume B) OperationStoreError Unit
  | .writeRequest request nonce => OperationStore.writeRequest request nonce
  | .writeResult id result nonce => OperationStore.writeResult id result nonce
  | .writeCommit id commit meeting meetingBytes nonce =>
    OperationStore.writeCommit id commit meeting meetingBytes nonce

/-- The states of the volume after each step of the call. -/
def states (call : StoreCall B) (v : StoreVolume B) : List (StoreVolume B) :=
  (call.program.exec v).trace

end StoreCall

/-- The window of `write_request`: the call makes a new operation directory and
ends before the request is linked into it, because the process stops there or
because the request is longer than a receipt may be. -/
def StopsBeforeRequest (v : StoreVolume B) : StoreCall B × Nat → Prop
  | (.writeRequest request _, steps) =>
    request.validate = .ok () ∧ v.node (operationPath request.operationId) = none ∧ 0 < steps ∧
      (steps < 5 ∨ ByteString.size (request.canonicalBytes : B) > maxReceiptBytes)
  | _ => False

/-- The six states of a request of a new operation, cut after any of them. -/
theorem cut_writeRequest_of_absent (h : Consistent v) (hlinked : EveryRequestLinked v)
    (hvalid : request.validate = .ok ())
    (habsent : v.node (operationPath request.operationId) = none) (nonce : Uuid) (steps : Nat) :
    Consistent (cut StoreCall.states v (.writeRequest request nonce, steps)) ∧
      (EveryRequestLinked (cut StoreCall.states v (.writeRequest request nonce, steps)) ↔
        ¬ StopsBeforeRequest v (.writeRequest request nonce, steps)) := by
  set made := withDirectory v request.operationId with hmade
  have hconsistent : Consistent made := h.withDirectory habsent
  have hdir : made.node (operationPath request.operationId) = some (.directory 0o700) :=
    Volume.node_place_self ..
  have hpresent : made.node (operationPath request.operationId) ≠ none := by simp [hdir]
  have hother : ∀ p, p ≠ operationPath request.operationId → made.node p = v.node p :=
    fun p hp => Volume.node_place_of_ne _ hp
  have hmissing : made.node (.receipt request.operationId .request) = none := by
    rw [hother _ (by simp [operationPath])]
    exact h.receiptBelow _ _ habsent
  -- before the link the new directory has no request
  have horphan : ∀ t n, Untouched made t request.operationId →
      StopsBeforeRequest v (.writeRequest request nonce, n) → Consistent t ∧
        (EveryRequestLinked t ↔ ¬ StopsBeforeRequest v (.writeRequest request nonce, n)) := by
    intro t n ht hstops
    refine ⟨hconsistent.of_untouched hpresent ht, iff_of_false (fun hall => ?_) fun hn => hn hstops⟩
    refine hall request.operationId (.directory 0o700) ?_ ?_
    · rw [ht _ fun _ _ => by simp [operationPath], hdir]
    · rw [ht _ fun _ _ => by simp, hmissing]
  -- from the link on every directory has one
  have hlink : ∀ t n, Linked made t request.operationId .request (request.canonicalBytes : B) →
      ByteString.size (request.canonicalBytes : B) ≤ maxReceiptBytes → 5 ≤ n → Consistent t ∧
        (EveryRequestLinked t ↔ ¬ StopsBeforeRequest v (.writeRequest request nonce, n)) := by
    intro t n ht hfits hsteps
    refine ⟨hconsistent.of_linked_request hpresent hvalid rfl hfits hmissing ht,
      iff_of_true ?_ fun hstops => ?_⟩
    · intro id node hn
      by_cases hid : id = request.operationId
      · rw [hid, ht.receipt, if_pos rfl]
        simp
      · have hne : operationPath id ≠ operationPath request.operationId := by
          intro heq
          exact hid (EntryName.canonical.inj (OperationPath.entry.inj heq))
        rw [ht.apart (p := operationPath id) (fun hb => hb), hother _ hne] at hn
        have hrequest := hlinked id node hn
        rw [ht.apart (p := .receipt id .request) (fun hb => hid hb), hother _ (by simp [operationPath])]
        exact hrequest
    · exact hstops.2.2.2.elim (Nat.not_lt.mpr hsteps) (Nat.not_lt.mpr hfits)
  have hcreate := writeRequest_of_absent h hvalid habsent nonce
  simp only at hcreate
  rw [← hmade] at hcreate
  split at hcreate
  · rename_i hfits
    obtain ⟨t₁, t₂, t₃, t₄, t₅, hexec, ⟨h₁, h₂, h₃⟩, h₄, h₅⟩ := hcreate
    have hcut : cut StoreCall.states v (.writeRequest request nonce, steps) =
        ([made, t₁, t₂, t₃, t₄, t₅].take steps).getLastD v := by
      rw [cut, StoreCall.states, StoreCall.program, hexec]
    rw [hcut]
    clear hcut
    rcases steps with _ | _ | _ | _ | _ | _ | n
    · exact ⟨h, iff_of_true hlinked fun hstops => absurd hstops.2.2.1 (Nat.lt_irrefl 0)⟩
    · exact horphan made 1 (fun _ _ => rfl) ⟨hvalid, habsent, by decide, .inl (by decide)⟩
    · exact horphan t₁ 2 h₁ ⟨hvalid, habsent, by decide, .inl (by decide)⟩
    · exact horphan t₂ 3 h₂ ⟨hvalid, habsent, by decide, .inl (by decide)⟩
    · exact horphan t₃ 4 h₃ ⟨hvalid, habsent, by decide, .inl (by decide)⟩
    · exact hlink t₄ 5 h₄ hfits (by decide)
    · rw [List.take_of_length_le (by simp)]
      exact hlink t₅ (n + 6) h₅ hfits (by omega)
  · rename_i hfits
    have hcut : cut StoreCall.states v (.writeRequest request nonce, steps) =
        ([made].take steps).getLastD v := by
      rw [cut, StoreCall.states, StoreCall.program, hcreate]
    rw [hcut]
    clear hcut
    cases steps with
    | zero => exact ⟨h, iff_of_true hlinked fun hstops => absurd hstops.2.2.1 (Nat.lt_irrefl 0)⟩
    | succ n =>
      rw [List.take_of_length_le (by simp)]
      exact horphan made (n + 1) (fun _ _ => rfl)
        ⟨hvalid, habsent, by omega, .inr (Nat.not_le.mp hfits)⟩

/-! ## Runs -/

section Opened

omit [DecidableEq B]

/-- The application root with the store just opened. -/
def openedStore : StoreVolume B :=
  (Volume.place (Volume.place ∅ .storage (.directory 0o700)) .operations (.directory 0o700))

theorem consistent_openedStore : Consistent (openedStore : StoreVolume B) where
  storage := rfl
  operations := rfl
  entries name n h := by cases h
  receipts id := .inl fun name => rfl
  receiptBelow id name _ := rfl
  temporaryBelow id name nonce _ := rfl

end Opened

/-- One call, stopped anywhere, keeps the store consistent; it keeps a request
in every operation directory exactly when it does not stop in the window. -/
theorem StoreCall.cut_states (h : Consistent v) (hlinked : EveryRequestLinked v)
    (attempt : StoreCall B × Nat) : Consistent (cut StoreCall.states v attempt) ∧
      (EveryRequestLinked (cut StoreCall.states v attempt) ↔ ¬ StopsBeforeRequest v attempt) := by
  -- a call whose states all keep the store leaves nothing to ask of the cut
  have hkeeps : ¬ StopsBeforeRequest v attempt →
      (∀ t ∈ StoreCall.states attempt.1 v, Consistent t ∧ KeepsRequests v t) →
      Consistent (cut StoreCall.states v attempt) ∧
        (EveryRequestLinked (cut StoreCall.states v attempt) ↔ ¬ StopsBeforeRequest v attempt) := by
    intro hstops hstates
    rcases cut_eq_or_mem StoreCall.states v attempt with hcut | hcut
    · rw [hcut]
      exact ⟨h, iff_of_true hlinked hstops⟩
    · obtain ⟨hconsistent, hrequests⟩ := hstates _ hcut
      exact ⟨hconsistent, iff_of_true (hrequests.everyRequestLinked hlinked) hstops⟩
  obtain ⟨call, steps⟩ := attempt
  cases call with
  | writeResult id result nonce =>
    exact hkeeps (fun hstops => hstops) fun t => writeResult_states h id result nonce t
  | writeCommit id commit meeting meetingBytes nonce =>
    exact hkeeps (fun hstops => hstops) fun t =>
      writeCommit_states h id commit meeting meetingBytes nonce t
  | writeRequest request nonce =>
    cases hvalid : request.validate with
    | error =>
      refine hkeeps (fun hstops => by simp [hstops.1] at hvalid) fun t ht => ?_
      unfold StoreCall.states StoreCall.program OperationStore.writeRequest at ht
      rw [bind_lift_of_error _ _ hvalid] at ht
      cases ht
    | ok =>
      by_cases habsent : v.node (operationPath request.operationId) = none
      · exact cut_writeRequest_of_absent h hlinked hvalid habsent nonce steps
      · refine hkeeps (fun hstops => habsent hstops.2.1) ?_
        exact writeRequest_of_present h hvalid habsent nonce

/-- The run of the store from the moment it is opened. -/
theorem consistent_run (attempts : List (StoreCall B × Nat)) :
    Allowed StoreCall.states (fun v attempt => ¬ StopsBeforeRequest v attempt) openedStore attempts →
    Consistent (run StoreCall.states (openedStore : StoreVolume B) attempts) ∧
      EveryRequestLinked (run StoreCall.states (openedStore : StoreVolume B) attempts) := by
  intro hallowed
  refine run_invariant StoreCall.states (I := fun v => Consistent v ∧ EveryRequestLinked v)
    ?_ attempts openedStore ⟨consistent_openedStore, ?_⟩ hallowed
  · rintro v attempt ⟨h, hlinked⟩ hstops
    obtain ⟨hconsistent, hiff⟩ := StoreCall.cut_states h hlinked attempt
    exact ⟨hconsistent, hiff.mpr hstops⟩
  · intro id n hn
    cases hn

/-- After any run of calls that stay out of the window the scan lists the store
as its receipts stand.  One more call, stopped anywhere, keeps it so exactly
when it stays out of the window too. -/
theorem scanMatches_run (attempts : List (StoreCall B × Nat))
    (hallowed : Allowed StoreCall.states (fun v attempt => ¬ StopsBeforeRequest v attempt)
      openedStore attempts) :
    ScanMatches (run StoreCall.states (openedStore : StoreVolume B) attempts) ∧
      ∀ attempt : StoreCall B × Nat,
        ScanMatches (run StoreCall.states (openedStore : StoreVolume B) (attempts ++ [attempt])) ↔
          ¬ StopsBeforeRequest (run StoreCall.states openedStore attempts) attempt := by
  obtain ⟨hconsistent, hlinked⟩ := consistent_run attempts hallowed
  refine ⟨hconsistent.scanMatches hlinked, fun attempt => ?_⟩
  obtain ⟨hnext, hiff⟩ := StoreCall.cut_states hconsistent hlinked attempt
  rw [run_append, run_cons, run_nil, hnext.scanMatches_iff]
  exact hiff

/-! ## The window in a concrete run -/

def sampleNonce : Uuid := ⟨"c4a1d3e2-11f0-4b7e-9d5c-7e8f9a0b1c33", by decide⟩

def sampleRequest : StoredOperationRequest := .restoration {
  schema := .v1
  operationId := sampleOperationId
  meetingId := sampleMeetingId
  requestedAtEpochSeconds := 1754000000
  sourceTranscriptSha256 := emptySha256
  sourceTurnIndex := 3
  priorNote := none }

/-- A process that stops right after `write_request` made its directory leaves a
store that refuses every scan. -/
theorem scan_refused_after_mkdir :
    OperationStore.scan (run StoreCall.states (openedStore : StoreVolume (Recorded []))
      [(.writeRequest sampleRequest sampleNonce, 1)]) =
      .error (.malformed "operation request is missing") := by
  rfl

/-- The same call run to its end is listed. -/
theorem scanMatches_run_request :
    ScanMatches (run StoreCall.states (openedStore : StoreVolume (Recorded []))
      [(.writeRequest sampleRequest sampleNonce, 6)]) := by
  refine (scanMatches_run [(.writeRequest sampleRequest sampleNonce, 6)] ⟨?_, trivial⟩).1
  rintro ⟨-, -, -, hstops⟩
  revert hstops
  decide

end YawnApp.SessionCore
