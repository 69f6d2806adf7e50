/-
  SessionCore/OperationStoreScan.lean --- what a scan of the operation store finds.

  `Consistent` is what the three writers keep true of the store's directory
  whatever happens to them: every operation directory is private, and the
  receipts in it are the canonical text of receipts that belong together.  It
  does not say that a directory has a request.  The scan needs that as well,
  and the two theorems at the end say exactly so: with a request in every
  operation directory the scan lists the store, and one directory without a
  request makes it refuse the whole store.
-/
import YawnApp.SessionCore.OperationStore

set_option autoImplicit false

namespace YawnApp.SessionCore

open YawnApp.Foundation OperationStore List

variable {B : Type} [Platform B] [DecidableEq B] {v : StoreVolume B} {r : StoredOperationReceipt}
  {id : Uuid}

/-! ## Receipts read back -/

theorem parseRequest_canonicalBytes {r : StoredOperationRequest} (h : r.validate = .ok ()) :
    parseRequest (r.canonicalBytes : B) = .ok r := by
  cases r with
  | restoration request =>
    have hvalid : request.validate = .ok () := by
      simpa [StoredOperationRequest.validate] using h
    simp [parseRequest, StoredOperationRequest.canonicalBytes, hvalid, ensureCanonical,
      refuseIf_of_not]
  | noteGeneration request =>
    have hvalid : request.validate = .ok () := by
      simpa [StoredOperationRequest.validate] using h
    have hother : (fromSlice (toVecPretty request : B) : Option TranscriptRestorationRequest) =
        none := by
      unfold fromSlice toVecPretty
      rw [JsonText.readText_writeText _ (Serde.plain_toValue request), Option.bind_some]
      exact fromValue_restorationRequest_note request
    simp [parseRequest, StoredOperationRequest.canonicalBytes, hother, hvalid, ensureCanonical,
      refuseIf_of_not]

theorem parseResult_canonicalBytes {r : StoredOperationResult} (h : r.validate = .ok ()) :
    parseResult (r.canonicalBytes : B) = .ok r := by
  cases r with
  | restoration result =>
    have hvalid : result.validate = .ok () := by
      simpa [StoredOperationResult.validate] using h
    simp [parseResult, StoredOperationResult.canonicalBytes, hvalid, ensureCanonical,
      refuseIf_of_not]
  | noteGeneration result =>
    have hvalid : result.validate = .ok () := by
      simpa [StoredOperationResult.validate] using h
    have hother : (fromSlice (toVecPretty result : B) : Option TranscriptRestorationResult) =
        none := by
      unfold fromSlice toVecPretty
      rw [JsonText.readText_writeText _ (Serde.plain_toValue result), Option.bind_some]
      exact fromValue_restorationResult_note result
    simp [parseResult, StoredOperationResult.canonicalBytes, hother, hvalid, ensureCanonical,
      refuseIf_of_not]

theorem parseCommit_toVecPretty {c : MeetingOperationCommit} (h : c.validate = .ok ()) :
    parseCommit (toVecPretty c : B) = .ok c := by
  simp [parseCommit, h, ensureCanonical, refuseIf_of_not]

/-! ## Receipts that may stand together -/

variable (B) in
/-- A receipt of operation `id` that every check of the store accepts. -/
structure StoredOperationReceipt.WellFormed (r : StoredOperationReceipt) (id : Uuid) : Prop where
  request : r.request.validate = .ok ()
  requestFits : ByteString.size (r.request.canonicalBytes : B) ≤ maxReceiptBytes
  identifier : r.request.operationId = id
  result : ∀ result, r.result = some result → result.validate = .ok () ∧
    ByteString.size (result.canonicalBytes : B) ≤ maxReceiptBytes ∧
    resultMatchesRequest r.request result = true
  commit : ∀ commit, r.commit = some commit → commit.validate = .ok () ∧
    ByteString.size (toVecPretty commit : B) ≤ maxReceiptBytes ∧
    ∃ result, r.result = some result ∧ commitMatchesReceipts B r.request result commit = true

/-- A private file. -/
def privateFile (bytes : B) : Node B := .file 0o600 bytes

/-- The three places of operation `id` hold exactly this receipt. -/
structure Holds (v : StoreVolume B) (id : Uuid) (r : StoredOperationReceipt) : Prop where
  request : v.node (.receipt id .request) = some (privateFile r.request.canonicalBytes)
  result : v.node (.receipt id .result) = r.result.map fun result =>
    privateFile result.canonicalBytes
  commit : v.node (.receipt id .commit) = r.commit.map fun commit =>
    privateFile (toVecPretty commit)

/-! A receipt that stands in the store is read back as it is. -/

theorem loadRequest_of_holds (hr : r.WellFormed B id) (hholds : Holds v id r) :
    loadRequest v id = .ok r.request := by
  unfold loadRequest readRequired
  rw [refuseIf_of_not (by simp [hholds.request]), ok_bind,
    readPrivateBytes_of_file hholds.request hr.requestFits]
  exact parseRequest_canonicalBytes hr.request

theorem loadResult_of_holds (hr : r.WellFormed B id) (hholds : Holds v id r) :
    loadResult v id = .ok r.result := by
  unfold loadResult readOptional
  cases h : r.result with
  | none => simp [hholds.result, h]
  | some result =>
    obtain ⟨hvalid, hfits, -⟩ := hr.result result h
    have hnode := hholds.result
    rw [h, Option.map_some] at hnode
    rw [if_neg (by simp [hnode]), readPrivateBytes_of_file hnode hfits]
    change ((parseResult (result.canonicalBytes : B)).bind fun a => .ok (some a)) = _
    rw [parseResult_canonicalBytes hvalid]
    rfl

theorem loadCommit_of_holds (hr : r.WellFormed B id) (hholds : Holds v id r) :
    loadCommit v id = .ok r.commit := by
  unfold loadCommit readOptional
  cases h : r.commit with
  | none => simp [hholds.commit, h]
  | some commit =>
    obtain ⟨hvalid, hfits, -⟩ := hr.commit commit h
    have hnode := hholds.commit
    rw [h, Option.map_some] at hnode
    rw [if_neg (by simp [hnode]), readPrivateBytes_of_file hnode hfits]
    change ((parseCommit (toVecPretty commit : B)).bind fun a => .ok (some a)) = _
    rw [parseCommit_toVecPretty hvalid]
    rfl

theorem loadFromDir_of_holds (hdir : v.node (operationPath id) = some (.directory 0o700))
    (hr : r.WellFormed B id) (hholds : Holds v id r) : loadFromDir v id = .ok r := by
  have hmatch : checkSome r.result (validateResultMatchesRequest r.request) = .ok () := by
    cases h : r.result with
    | none => rfl
    | some result => exact refuseIf_of_not (by simp [(hr.result result h).2.2])
  have hcoherent : validateStoredReceipts (B := B) r.request r.result r.commit =
      .ok () := by
    cases h : r.commit with
    | none => cases r.result <;> rfl
    | some commit =>
      obtain ⟨-, -, result, hres, hmatches⟩ := hr.commit commit h
      rw [hres]
      exact refuseIf_of_not (by simp [hmatches])
  unfold loadFromDir
  rw [requirePrivateDirectory_of_private hdir, loadRequest_of_holds hr hholds,
    loadResult_of_holds hr hholds, loadCommit_of_holds hr hholds]
  simp [hr.identifier, hmatch, hcoherent, refuseIf_of_not]

/-- An operation directory without a request is refused. -/
theorem loadFromDir_of_orphan (hdir : v.node (operationPath id) = some (.directory 0o700))
    (hmissing : v.node (.receipt id .request) = none) :
    loadFromDir v id = .error (.malformed "operation request is missing") := by
  have hrequest : loadRequest v id =
      .error (.malformed "operation request is missing") := by
    unfold loadRequest readRequired
    rw [refuseIf_of (by simp [hmissing])]
    rfl
  unfold loadFromDir
  rw [requirePrivateDirectory_of_private hdir, hrequest]
  rfl

/-! ## The store's directory -/

/-- What the writers keep true of the store. -/
structure Consistent (v : StoreVolume B) : Prop where
  storage : v.node .storage = some (.directory 0o700)
  operations : v.node .operations = some (.directory 0o700)
  entries : ∀ name n, v.node (.entry name) = some n →
    ∃ id, name = .canonical id ∧ n = .directory 0o700
  receipts : ∀ id, (∀ name, v.node (.receipt id name) = none) ∨
    ∃ r, r.WellFormed B id ∧ Holds v id r
  /-- Nothing stands below an operation directory that is not there. -/
  receiptBelow : ∀ id name, v.node (operationPath id) = none → v.node (.receipt id name) = none
  temporaryBelow : ∀ id name nonce, v.node (operationPath id) = none →
    v.node (.temporary id name nonce) = none

/-- Every operation directory has its request. -/
def EveryRequestLinked (v : StoreVolume B) : Prop :=
  ∀ id n, v.node (operationPath id) = some n → v.node (.receipt id .request) ≠ none

section

omit [DecidableEq B]

theorem Consistent.directory (h : Consistent v) {n : Node B}
    (hn : v.node (operationPath id) = some n) : n = .directory 0o700 := by
  obtain ⟨_, -, hdir⟩ := h.entries _ n hn
  exact hdir

/-- A request that is linked stands below a private directory. -/
theorem Consistent.directory_of_request (h : Consistent v)
    (hrequest : v.node (.receipt id .request) ≠ none) :
    v.node (operationPath id) = some (.directory 0o700) := by
  cases hdir : v.node (operationPath id) with
  | none => exact absurd (h.receiptBelow id .request hdir) hrequest
  | some => rw [h.directory hdir]

/-- A request that is linked belongs to a well-formed receipt. -/
theorem Consistent.holds_of_request (h : Consistent v)
    (hrequest : v.node (.receipt id .request) ≠ none) : ∃ r, r.WellFormed B id ∧ Holds v id r := by
  rcases h.receipts id with hnone | hsome
  · exact absurd (hnone .request) hrequest
  · exact hsome

end

/-! ## The scan -/

omit [DecidableEq B] in
/-- The entries of the store's directory are the operations. -/
theorem Consistent.mem_readDir (h : Consistent v) {e : OperationPath × Node B}
    (he : e ∈ v.readDir .operations) : ∃ id, e = (operationPath id, .directory 0o700) ∧
      v.node (operationPath id) = some (.directory 0o700) := by
  obtain ⟨p, n⟩ := e
  obtain ⟨hparent, hnode⟩ := Volume.mem_readDir.mp he
  cases p with
  | entry name =>
    obtain ⟨id, rfl, rfl⟩ := h.entries name n hnode
    exact ⟨id, rfl, hnode⟩
  | storage | operations | receipt | temporary => cases hparent

/-- The loop of the scan over entries that all load: it finds them all. -/
theorem scanEntries_of_loaded :
    ∀ (entries : List (OperationPath × Node B)) (receipts : OperationStore.Scanned),
      (∀ e ∈ entries, ∃ id r, e = (operationPath id, .directory 0o700) ∧
        loadFromDir v id = .ok r) →
      (entries.map Prod.fst).Nodup →
      (∀ id, id ∈ receipts → operationPath id ∉ entries.map Prod.fst) →
      ∃ found, scanEntries v entries receipts = .ok found ∧
        ∀ id r, found.lookup id = some r ↔ receipts.lookup id = some r ∨
          (operationPath id ∈ entries.map Prod.fst ∧
            loadFromDir v id = .ok r) := by
  intro entries
  induction entries with
  | nil =>
    intro receipts _ _ _
    exact ⟨receipts, rfl, fun id r => by simp⟩
  | cons e rest ih =>
    intro receipts hload hnodup hfresh
    obtain ⟨id, r, rfl, hr⟩ := hload e mem_cons_self
    rw [map_cons, nodup_cons] at hnodup
    have hid : id ∉ receipts := fun hmem => hfresh id hmem (by simp)
    have hfresh' : ∀ other, other ∈ receipts.insert id r →
        operationPath other ∉ rest.map Prod.fst := by
      intro other hother
      rcases (AList.mem_insert receipts).mp hother with rfl | hother
      · exact hnodup.1
      · exact fun hmem => hfresh other hother (mem_cons_of_mem _ hmem)
    obtain ⟨found, hscan, hfound⟩ := ih (receipts.insert id r)
      (fun e he => hload e (mem_cons_of_mem _ he)) hnodup.2 hfresh'
    refine ⟨found, ?_, ?_⟩
    · have hentry : operationIdFromEntry (B := B) (.canonical id)
          (.directory 0o700) = .ok id := rfl
      unfold scanEntries operationPath
      simp only [hentry, ok_bind, hr, refuseIf_of_not hid]
      exact hscan
    · intro other r'
      rw [hfound other r']
      by_cases hother : other = id
      · subst hother
        have hnone : receipts.lookup other = none := AList.lookup_eq_none.mpr hid
        simp only [AList.lookup_insert, hnone, map_cons, mem_cons, true_or, true_and,
          hr, Except.ok.injEq, Option.some.injEq, reduceCtorEq, false_or]
        constructor
        · rintro (h | ⟨-, h⟩)
          · exact h
          · exact h
        · exact fun h => .inl h
      · rw [AList.lookup_insert_ne hother]
        have hne : operationPath other ≠ operationPath id := by
          intro h
          exact hother (EntryName.canonical.inj (OperationPath.entry.inj h))
        simp [hne]

/-- The loop of the scan stops at the first entry that does not load; here all
entries that do not load are refused for the same reason. -/
theorem scanEntries_of_refused {refusal : OperationStoreError} :
    ∀ (entries : List (OperationPath × Node B)) (receipts : OperationStore.Scanned),
      (∀ e ∈ entries, ∃ id, e = (operationPath id, .directory 0o700) ∧
        ((∃ r, loadFromDir v id = .ok r) ∨
          loadFromDir v id = .error refusal)) →
      (entries.map Prod.fst).Nodup →
      (∀ id, id ∈ receipts → operationPath id ∉ entries.map Prod.fst) →
      (∃ id, (operationPath id, .directory 0o700) ∈ entries ∧
        loadFromDir v id = .error refusal) →
      scanEntries v entries receipts = .error refusal := by
  intro entries
  induction entries with
  | nil => rintro receipts _ _ _ ⟨id, hmem, -⟩; cases hmem
  | cons e rest ih =>
    intro receipts hload hnodup hfresh hrefused
    obtain ⟨id, rfl, hid⟩ := hload e mem_cons_self
    rw [map_cons, nodup_cons] at hnodup
    have hentry : operationIdFromEntry (B := B) (.canonical id)
        (.directory 0o700) = .ok id := rfl
    unfold scanEntries
    simp only [operationPath, hentry, ok_bind]
    rcases hid with ⟨r, hr⟩ | herror
    · have hnot : id ∉ receipts := fun hmem => hfresh id hmem (by simp)
      rw [hr, ok_bind, refuseIf_of_not hnot, ok_bind]
      refine ih _ (fun e he => hload e (mem_cons_of_mem _ he)) hnodup.2 ?_ ?_
      · intro other hother
        rcases (AList.mem_insert receipts).mp hother with rfl | hother
        · exact hnodup.1
        · exact fun hmem => hfresh other hother (mem_cons_of_mem _ hmem)
      · obtain ⟨other, hmem, hother⟩ := hrefused
        rcases mem_cons.mp hmem with heq | hmem
        · have : other = id :=
            EntryName.canonical.inj (OperationPath.entry.inj (Prod.mk.inj heq).1)
          rw [this, hr] at hother
          cases hother
        · exact ⟨other, hmem, hother⟩
    · rw [herror, error_bind]

/-- The state that matches the receipts linked for an operation. -/
def linkedState (v : StoreVolume B) (id : Uuid) : OperationReceiptState :=
  match v.node (.receipt id .result), v.node (.receipt id .commit) with
  | none, _ => .requestOnly
  | some _, none => .resultStored
  | some _, some _ => .committed

/-- The scan succeeds, it lists exactly the operations whose request is linked,
and it gives each of them as its linked receipts have it. -/
def ScanMatches (v : StoreVolume B) : Prop :=
  ∃ receipts, OperationStore.scan v = .ok receipts ∧
    (∀ id, id ∈ receipts ↔ v.node (.receipt id .request) ≠ none) ∧
    ∀ id r, receipts.lookup id = some r → Holds v id r ∧ r.state = linkedState v id

omit [DecidableEq B] in
theorem Holds.state_eq (hr : r.WellFormed B id) (h : Holds v id r) :
    r.state = linkedState v id := by
  unfold linkedState StoredOperationReceipt.state
  rw [h.result, h.commit]
  cases hresult : r.result with
  | none =>
    cases hcommit : r.commit with
    | none => rfl
    | some commit =>
      obtain ⟨-, -, result, hsome, -⟩ := hr.commit commit hcommit
      rw [hresult] at hsome
      cases hsome
  | some => cases r.commit <;> rfl

/-- A consistent store with a request in every operation directory is listed
whole. -/
theorem Consistent.scanMatches (h : Consistent v) (hlinked : EveryRequestLinked v) :
    ScanMatches v := by
  have hload : ∀ id, v.node (operationPath id) = some (.directory 0o700) →
      ∃ r, (r.WellFormed B id ∧ Holds v id r) ∧ loadFromDir v id = .ok r := by
    intro id hdir
    obtain ⟨r, hr, hholds⟩ := h.holds_of_request (hlinked id _ hdir)
    exact ⟨r, ⟨hr, hholds⟩, loadFromDir_of_holds hdir hr hholds⟩
  obtain ⟨found, hscan, hfound⟩ := scanEntries_of_loaded (v := v) (v.readDir .operations) ∅
    (fun e he => by
      obtain ⟨id, heq, hdir⟩ := h.mem_readDir he
      obtain ⟨r, -, hr⟩ := hload id hdir
      exact ⟨id, r, heq, hr⟩)
    (v.nodup_readDir _) (fun id hid => absurd hid (AList.notMem_empty id))
  have hmem : ∀ id, operationPath id ∈ (v.readDir .operations).map Prod.fst ↔
      v.node (operationPath id) = some (.directory 0o700) := by
    intro id
    constructor
    · intro hin
      obtain ⟨e, he, hfst⟩ := mem_map.mp hin
      obtain ⟨other, rfl, hdir⟩ := h.mem_readDir he
      rw [← hfst]
      exact hdir
    · intro hdir
      exact mem_map.mpr ⟨_, Volume.mem_readDir.mpr ⟨rfl, hdir⟩, rfl⟩
  refine ⟨found, ?_, ?_, ?_⟩
  · unfold scan
    rw [requirePrivateDirectory_of_private h.operations]
    exact hscan
  · intro id
    rw [← AList.lookup_isSome, Option.isSome_iff_exists]
    constructor
    · rintro ⟨r, hr⟩
      rcases (hfound id r).mp hr with hempty | ⟨hin, -⟩
      · rw [AList.lookup_empty] at hempty
        cases hempty
      · exact hlinked id _ ((hmem id).mp hin)
    · intro hrequest
      have hdir := h.directory_of_request hrequest
      obtain ⟨r, -, hr⟩ := hload id hdir
      exact ⟨r, (hfound id r).mpr (.inr ⟨(hmem id).mpr hdir, hr⟩)⟩
  · intro id r hr
    rcases (hfound id r).mp hr with hempty | ⟨hin, hloaded⟩
    · rw [AList.lookup_empty] at hempty
      cases hempty
    · obtain ⟨r', ⟨hwf, hholds⟩, hr'⟩ := hload id ((hmem id).mp hin)
      rw [hr', Except.ok.injEq] at hloaded
      subst hloaded
      exact ⟨hholds, hholds.state_eq hwf⟩

/-- One operation directory without a request makes the scan refuse the whole
store. -/
theorem Consistent.scan_of_orphan (h : Consistent v)
    (hdir : v.node (operationPath id) = some (.directory 0o700))
    (hmissing : v.node (.receipt id .request) = none) :
    scan v = .error (.malformed "operation request is missing") := by
  unfold scan
  rw [requirePrivateDirectory_of_private h.operations]
  refine scanEntries_of_refused (v.readDir .operations) ∅ ?_ (v.nodup_readDir _)
    (fun id hid => absurd hid (AList.notMem_empty id)) ?_
  · intro e he
    obtain ⟨other, rfl, hother⟩ := h.mem_readDir he
    refine ⟨other, rfl, ?_⟩
    cases hrequest : v.node (.receipt other .request) with
    | none => exact .inr (loadFromDir_of_orphan hother hrequest)
    | some =>
      obtain ⟨r, hr, hholds⟩ := h.holds_of_request (by rw [hrequest]; simp)
      exact .inl ⟨r, loadFromDir_of_holds hother hr hholds⟩
  · exact ⟨id, Volume.mem_readDir.mpr ⟨rfl, hdir⟩, loadFromDir_of_orphan hdir hmissing⟩

/-- In a consistent store the scan does what it should exactly when no
operation directory lacks its request. -/
theorem Consistent.scanMatches_iff (h : Consistent v) : ScanMatches v ↔ EveryRequestLinked v := by
  constructor
  · rintro ⟨receipts, hscan, -⟩ id n hn hmissing
    have hdir := h.directory hn ▸ hn
    rw [h.scan_of_orphan hdir hmissing] at hscan
    cases hscan
  · exact h.scanMatches

end YawnApp.SessionCore
