import YawnApp.SessionCore.TranscriptionQueue

set_option autoImplicit false

/-!
# What the queue's readers see

Every reader of the queue looks at a request through its view.  This module says
when a view is read as an item, how a view changes when one receipt is linked or
one claim folder is made, and what the queue's writers leave of a meeting: the
views of its requests, its record, and the artifacts that were there before.
-/

namespace YawnApp.SessionCore

open YawnApp.Foundation Directory

variable {B : Type} {claimId : Uuid} {folder : Drawer ClaimReceipt B}

/-! ## Changes of a view -/

namespace ItemView

/-- A private directory without receipts. -/
def empty : ItemView B := ⟨true, fun _ => none, true, []⟩

/-- One more receipt. -/
def link (v : ItemView B) (name : QueueReceipt) (bytes : B) : ItemView B :=
  { v with receipts := fun other => if other = name then some bytes else v.receipts other }

/-- One more claim folder, with nothing in it. -/
def addClaim (v : ItemView B) (claimId : Uuid) : ItemView B :=
  { v with claims := v.claims ++ [(claimId, fun _ => none)] }

/-- One more receipt in a claim folder. -/
def linkClaim (v : ItemView B) (claimId : Uuid) (name : ClaimReceipt) (bytes : B) : ItemView B :=
  { v with
    claims := v.claims.map fun e =>
      if e.1 = claimId then (e.1, fun other => if other = name then some bytes else e.2 other) else e }

@[simp] theorem receipts_link (v : ItemView B) (name other : QueueReceipt) (bytes : B) :
    (v.link name bytes).receipts other = if other = name then some bytes else v.receipts other := rfl

@[simp] theorem claims_link (v : ItemView B) (name : QueueReceipt) (bytes : B) :
    (v.link name bytes).claims = v.claims := rfl

@[simp] theorem receipts_addClaim (v : ItemView B) (claimId : Uuid) :
    (v.addClaim claimId).receipts = v.receipts := rfl

@[simp] theorem receipts_linkClaim (v : ItemView B) (claimId : Uuid) (name : ClaimReceipt) (bytes : B) :
    (v.linkClaim claimId name bytes).receipts = v.receipts := rfl

/-- A claim that is not released: its receipt is there and its release is not. -/
def isUnreleased (receipts : ClaimReceipt → Option B) : Bool :=
  (receipts .claim).isSome && (receipts .release).isNone

/-- The claims of a request that are not released. -/
def unreleased (v : ItemView B) : List (Uuid × (ClaimReceipt → Option B)) :=
  v.claims.filter fun e => isUnreleased e.2

/-- Neither a commit nor a terminal receipt. -/
def IsOpen (v : ItemView B) : Prop := v.receipts .commit = none ∧ v.receipts .terminal = none

/-- A receipt leaves a request open that was open. -/
theorem isOpen_of_link {v : ItemView B} {receipt : QueueReceipt} {bytes : B}
    (h : (v.link receipt bytes).IsOpen) : v.IsOpen := by
  unfold IsOpen at h ⊢
  simp only [receipts_link] at h
  constructor
  · by_contra hsome
    have := h.1
    split at this
    · cases this
    · exact hsome this
  · by_contra hsome
    have := h.2
    split at this
    · cases this
    · exact hsome this

end ItemView

@[simp] theorem view_made : (ItemDirectory.made : ItemDirectory B).view =
    { ItemView.empty with isPrivate := false } := rfl

/-- Making a claim folder, of whatever mode. -/
theorem view_addClaim {item : ItemDirectory B} (h : item.claimFolders.entry claimId = none)
    (folder : Drawer ClaimReceipt B) (hfolder : folder.linked = fun _ => none) :
    ({ item with claims := some (item.claimFolders.put claimId folder) } : ItemDirectory B).view =
      item.view.addClaim claimId := by
  unfold ItemDirectory.view ItemView.addClaim
  simp only [ItemDirectory.claimFolders, Option.getD_some] at h ⊢
  simp only [entries_put_of_absent _ h, List.map_append, List.map_cons, List.map_nil,
    hfolder, isPrivate_put]

/-- A claim folder that differs in what readers do not look at. -/
theorem view_putClaim {item : ItemDirectory B} {folder' : Drawer ClaimReceipt B}
    (h : item.claimFolders.entry claimId = some folder) (hlinked : folder'.linked = folder.linked) :
    ({ item with claims := some (item.claimFolders.put claimId folder') } : ItemDirectory B).view =
      item.view := by
  unfold ItemDirectory.view
  simp only [ItemDirectory.claimFolders, Option.getD_some] at h ⊢
  simp only [entries_put_of_mem _ h, List.map_map, isPrivate_put]
  congr 1
  apply List.map_congr_left
  intro e he
  obtain ⟨k, v⟩ := e
  simp only [Function.comp_apply]
  split
  · rename_i hk
    subst hk
    rw [mem_entries, h, Option.some.injEq] at he
    rw [hlinked, ← he]
  · rfl

/-- Linking a receipt in a claim folder. -/
theorem view_linkClaim {item : ItemDirectory B} {folder' : Drawer ClaimReceipt B}
    (h : item.claimFolders.entry claimId = some folder) (name : ClaimReceipt) (bytes : B)
    (hlinked : folder'.linked = fun other => if other = name then some bytes else folder.linked other) :
    ({ item with claims := some (item.claimFolders.put claimId folder') } : ItemDirectory B).view =
      item.view.linkClaim claimId name bytes := by
  unfold ItemDirectory.view ItemView.linkClaim
  simp only [ItemDirectory.claimFolders, Option.getD_some] at h ⊢
  simp only [entries_put_of_mem _ h, List.map_map, isPrivate_put]
  congr 1
  apply List.map_congr_left
  intro e he
  obtain ⟨k, v⟩ := e
  simp only [Function.comp_apply]
  split
  · rename_i hk
    subst hk
    rw [mem_entries, h, Option.some.injEq] at he
    rw [hlinked, ← he]
  · rfl

/-- Making the folder of a claim with its first receipt. -/
theorem view_newClaim {item : ItemDirectory B} (h : item.claimFolders.entry claimId = none)
    (name : ClaimReceipt) (bytes : B)
    (hlinked : folder.linked = fun other => if other = name then some bytes else none) :
    ({ item with claims := some (item.claimFolders.put claimId folder) } : ItemDirectory B).view =
      (item.view.addClaim claimId).linkClaim claimId name bytes := by
  have hentry : ({ item with claims := some (item.claimFolders.put claimId Drawer.empty) } :
      ItemDirectory B).claimFolders.entry claimId = some Drawer.empty :=
    entry_put_self _ _ _
  have hlink := view_linkClaim hentry name bytes hlinked
  rw [view_addClaim h Drawer.empty rfl] at hlink
  simpa only [ItemDirectory.claimFolders_some, put_put] using hlink

/-! ## When a view is read as an item -/

section Reading

variable [Platform B] {receipts : ClaimReceipt → Option B} {file : Option B}

/-- A receipt that was written whole and is not too long is read back. -/
theorem readJson_toVecPretty {α : Type} [Serde α] {a : α}
    (h : Fits B a) :
    readJson (some (toVecPretty a : B)) = .ok a := by
  unfold readJson
  rw [orRefuse_some, ok_bind, refuseIf_of_not (Nat.not_lt.mpr h), ok_bind, fromSlice_toVecPretty]
  rfl

/-- A receipt that is read back is not too long. -/
theorem fits_of_readJson {α : Type} [Serde α] {a b : α}
    (h : readJson (some (toVecPretty a : B)) = .ok b) : Fits B a := by
  unfold readJson at h
  simp only [bind_eq_ok, orRefuse_eq_ok, Option.some.injEq, refuseIf_eq_ok, Nat.not_lt] at h
  obtain ⟨_, rfl, _, hsize, -⟩ := h
  exact hsize

/-- Whatever is read back is what was written. -/
theorem eq_of_readJson {α : Type} [Serde α] {a b : α}
    (h : readJson (some (toVecPretty a : B)) = .ok b) : b = a := by
  unfold readJson at h
  simp only [bind_eq_ok, orRefuse_eq_ok, Option.some.injEq] at h
  obtain ⟨_, rfl, _, -, hb⟩ := h
  rw [fromSlice_toVecPretty, Option.some.injEq] at hb
  exact hb.symm

theorem readJson_none {α : Type} [Serde α] :
    (readJson (none : Option B) : Except TranscriptionQueueError α) =
      .error (.meeting (.io .notFound)) := rfl

theorem isSome_of_readJson {α : Type} [Serde α] {a : α} (h : readJson file = .ok a) :
    ∃ bytes, file = some bytes := by
  cases file with
  | none => cases h
  | some bytes => exact ⟨bytes, rfl⟩

theorem readOptionalJson_eq_none {α : Type} [Serde α] :
    (readOptionalJson file : Except _ (Option α)) = .ok none ↔ file = none := by
  cases file with
  | none => simp [readOptionalJson]
  | some =>
    simp only [readOptionalJson, reduceCtorEq, iff_false]
    intro h
    obtain ⟨a, -, ha⟩ := map_eq_ok.mp h
    cases ha

theorem readOptionalJson_eq_some {α : Type} [Serde α] {a : α} :
    readOptionalJson file = .ok (some a) ↔ readJson file = .ok a := by
  cases file with
  | none => simp [readOptionalJson, readJson_none]
  | some =>
    simp only [readOptionalJson]
    constructor
    · intro h
      obtain ⟨b, hb, heq⟩ := map_eq_ok.mp h
      cases heq
      exact hb
    · intro h
      rw [h]
      rfl

theorem isSome_iff_of_readOptionalJson {α : Type} [Serde α] {o : Option α}
    (h : readOptionalJson file = .ok o) : o.isSome = file.isSome := by
  cases o with
  | none => rw [readOptionalJson_eq_none.mp h]; rfl
  | some =>
    obtain ⟨bytes, hbytes⟩ := isSome_of_readJson (readOptionalJson_eq_some.mp h)
    rw [hbytes]
    rfl

omit [Platform B] in
theorem isOpen_iff {item : TranscriptionQueueItem} :
    item.isOpen = true ↔ item.commit = none ∧ item.terminal = none := by
  simp [TranscriptionQueueItem.isOpen]

omit [Platform B] in
theorem isOpen_of_not {item : TranscriptionQueueItem}
    (h : ¬ (item.terminal.isSome ∨ item.commit.isSome)) : item.isOpen = true := by
  simp only [not_or, Option.not_isSome_iff_eq_none] at h
  exact isOpen_iff.mpr ⟨h.2, h.1⟩

/-- The last three checks of `load_item`. -/
structure TranscriptionQueueItem.Coherent (item : TranscriptionQueueItem) : Prop where
  ordinary : item.result.isSome → ∀ terminal ∈ item.terminal, terminal.kind = .quarantined
  result : item.commit.isSome → item.result.isSome
  exclusive : item.commit.isSome → item.terminal = none

/-- An item is what its view shows. -/
structure ItemView.Shows (v : ItemView B) (id : Uuid) (item : TranscriptionQueueItem) : Prop where
  isPrivate : v.isPrivate = true
  request : readJson (v.receipts .request) = .ok item.request
  requestId : item.request.requestId = id
  claimsPrivate : v.claimsPrivate = true
  claim : liveClaim id v.claims none = .ok item.claim
  result : readOptionalJson (v.receipts .result) = .ok item.result
  terminal : readOptionalJson (v.receipts .terminal) = .ok item.terminal
  commit : readOptionalJson (v.receipts .commit) = .ok item.commit
  coherent : item.Coherent

theorem ItemView.Shows.unique {v : ItemView B} {id : Uuid} {item item' : TranscriptionQueueItem}
    (h : v.Shows id item) (h' : v.Shows id item') : item = item' := by
  have hrequest := Except.ok.inj (h.request.symm.trans h'.request)
  have hclaim := Except.ok.inj (h.claim.symm.trans h'.claim)
  have hresult := Except.ok.inj (h.result.symm.trans h'.result)
  have hterminal := Except.ok.inj (h.terminal.symm.trans h'.terminal)
  have hcommit := Except.ok.inj (h.commit.symm.trans h'.commit)
  cases item
  cases item'
  simp_all

theorem ItemView.Shows.isOpen_view {v : ItemView B} {id : Uuid} {item : TranscriptionQueueItem}
    (h : v.Shows id item) : item.isOpen = true ↔ v.IsOpen := by
  have hcommit := isSome_iff_of_readOptionalJson h.commit
  have hterminal := isSome_iff_of_readOptionalJson h.terminal
  unfold IsOpen TranscriptionQueueItem.isOpen
  rw [Bool.and_eq_true, ← Option.not_isSome, ← Option.not_isSome, hcommit, hterminal]
  simp

theorem loadItem_eq_ok {v : ItemView B} {id : Uuid} {item : TranscriptionQueueItem} :
    loadItem v id = .ok item ↔ v.Shows id item := by
  have hordinary : ∀ (result : Option TranscriptionResult) (terminal : Option TranscriptionTerminal),
      (¬ (result.isSome ∧ terminal.map TranscriptionTerminal.kind ≠ some .quarantined ∧
        terminal.isSome)) ↔ (result.isSome → ∀ t ∈ terminal, t.kind = .quarantined) := by
    intro result terminal
    cases terminal with
    | none | some => simp
  unfold loadItem
  simp only [bind_eq_ok, refuseIf_eq_ok, not_not, hordinary, Bool.not_eq_false, pure, Except.pure,
    Except.ok.injEq]
  constructor
  · rintro ⟨_, hprivate, request, hrequest, _, hid, _, hclaims, claim, hclaim, result, hresult,
      terminal, hterminal, commit, hcommit, _, hrule, _, hhas, _, hexclusive, rfl⟩
    refine ⟨hprivate, hrequest, hid, hclaims, hclaim, hresult, hterminal, hcommit, hrule,
      fun h => ?_, fun h => ?_⟩
    · by_contra hnone
      exact hhas ⟨h, by simpa using hnone⟩
    · by_contra hsome
      exact hexclusive ⟨h, Option.isSome_iff_ne_none.mpr hsome⟩
  · intro h
    refine ⟨(), h.isPrivate, item.request, h.request, (), h.requestId, (), h.claimsPrivate,
      item.claim, h.claim, item.result, h.result, item.terminal, h.terminal, item.commit, h.commit,
      (), h.coherent.ordinary, (), ?_, (), ?_, rfl⟩
    · rintro ⟨hcommit, hnone⟩
      have := h.coherent.result hcommit
      rw [Option.isNone_iff_eq_none.mp hnone] at this
      cases this
    · rintro ⟨hcommit, hsome⟩
      rw [h.coherent.exclusive hcommit] at hsome
      cases hsome

/-! ### The live claim -/

/-- The receipts of one claim folder as `load_live_claim` accepts them. -/
structure ClaimReads (id : Uuid) (receipts : ClaimReceipt → Option B) (claim : TranscriptionClaim)
    (release : Option TranscriptionClaimRelease) : Prop where
  claimRead : readJson (receipts .claim) = .ok claim
  requestId : claim.requestId = id
  releaseRead : readOptionalJson (receipts .release) = .ok release
  agrees : ∀ r ∈ release, r.claimId = claim.claimId ∧ r.requestId = id

theorem ClaimReads.isUnreleased {id : Uuid} {claim : TranscriptionClaim}
    {release : Option TranscriptionClaimRelease} (h : ClaimReads id receipts claim release) :
    ItemView.isUnreleased receipts = release.isNone := by
  obtain ⟨bytes, hbytes⟩ := isSome_of_readJson h.claimRead
  have hrelease := isSome_iff_of_readOptionalJson h.releaseRead
  unfold ItemView.isUnreleased
  rw [hbytes]
  cases release <;> cases hr : receipts .release <;> simp_all

theorem liveClaim_cons {id : Uuid} {claimId : Uuid} {rest : List (Uuid × (ClaimReceipt → Option B))}
    {live out : Option TranscriptionClaim} :
    liveClaim id ((claimId, receipts) :: rest) live = .ok out ↔
      ∃ claim release, ClaimReads id receipts claim release ∧
        ((release.isSome ∧ liveClaim id rest live = .ok out) ∨
          (release = none ∧ live = none ∧ liveClaim id rest (some claim) = .ok out)) := by
  rw [liveClaim]
  simp only [bind_eq_ok, refuseIf_eq_ok, not_not]
  constructor
  · rintro ⟨claim, hclaim, _, hid, release, hrelease, hrest⟩
    refine ⟨claim, release, ?_⟩
    cases release with
    | none =>
      simp only [bind_eq_ok, refuseIf_eq_ok, Option.not_isSome_iff_eq_none] at hrest
      obtain ⟨_, hlive, hrest⟩ := hrest
      exact ⟨⟨hclaim, hid, hrelease, by simp⟩, .inr ⟨rfl, hlive, hrest⟩⟩
    | some =>
      simp only [bind_eq_ok, refuseIf_eq_ok, not_or, not_not] at hrest
      obtain ⟨_, hagrees, hrest⟩ := hrest
      refine ⟨⟨hclaim, hid, hrelease, ?_⟩, .inl ⟨rfl, hrest⟩⟩
      rintro r hr
      cases hr
      exact hagrees
  · rintro ⟨claim, release, hreads, hrest⟩
    refine ⟨claim, hreads.claimRead, (), hreads.requestId, release, hreads.releaseRead, ?_⟩
    cases release with
    | none =>
      rcases hrest with ⟨hsome, -⟩ | ⟨-, rfl, hrest⟩
      · cases hsome
      · exact hrest
    | some release =>
      rcases hrest with ⟨-, hrest⟩ | ⟨hnone, -⟩
      · have hagrees := hreads.agrees release rfl
        simp only [bind_eq_ok, refuseIf_eq_ok, not_or, not_not]
        exact ⟨(), hagrees, hrest⟩
      · cases hnone

theorem liveClaim_append {id : Uuid} (first second : List (Uuid × (ClaimReceipt → Option B))) :
    ∀ live : Option TranscriptionClaim, liveClaim id (first ++ second) live =
      (liveClaim id first live >>= fun found => liveClaim id second found) := by
  induction first with
  | nil => exact fun live => rfl
  | cons e rest ih =>
    intro live
    obtain ⟨claimId, receipts⟩ := e
    rw [List.cons_append, liveClaim, liveClaim]
    cases readJson (α := TranscriptionClaim) (receipts .claim) with
    | error => rfl
    | ok claim =>
      simp only [ok_bind]
      by_cases hid : claim.requestId ≠ id
      · rw [refuseIf_of hid]
        rfl
      rw [refuseIf_of_not hid]
      simp only [ok_bind]
      cases readOptionalJson (α := TranscriptionClaimRelease) (receipts .release) with
      | error => rfl
      | ok release =>
        simp only [ok_bind]
        cases release with
        | none =>
          by_cases hlive : live.isSome = true
          · simp only [refuseIf_of hlive]
            rfl
          · simp only [refuseIf_of_not hlive, ok_bind]
            exact ih _
        | some release =>
          by_cases hagrees : release.claimId ≠ claim.claimId ∨ release.requestId ≠ id
          · simp only [refuseIf_of hagrees]
            rfl
          · simp only [refuseIf_of_not hagrees, ok_bind]
            exact ih live

/-- Every claim folder that is accepted has its receipt. -/
theorem claimRead_of_liveClaim {id : Uuid} :
    ∀ {claims : List (Uuid × (ClaimReceipt → Option B))} {live out : Option TranscriptionClaim},
      liveClaim id claims live = .ok out →
      ∀ e ∈ claims, ∃ claim release, ClaimReads id e.2 claim release := by
  intro claims
  induction claims with
  | nil => exact fun _ _ he => by cases he
  | cons first rest ih =>
    intro live out h e he
    obtain ⟨claim, release, hreads, hrest⟩ := liveClaim_cons.mp h
    rcases List.mem_cons.mp he with rfl | he
    · exact ⟨claim, release, hreads⟩
    · rcases hrest with ⟨-, hrest⟩ | ⟨-, -, hrest⟩
      · exact ih hrest e he
      · exact ih hrest e he

/-- The live claim is the one claim that is not released. -/
theorem unreleased_of_liveClaim {id : Uuid} :
    ∀ {claims : List (Uuid × (ClaimReceipt → Option B))} {live out : Option TranscriptionClaim},
      liveClaim id claims live = .ok out →
      ∃ found : List TranscriptionClaim,
        (claims.filter fun e => ItemView.isUnreleased e.2).map (fun e => readJson (e.2 .claim)) =
          found.map Except.ok ∧ out.toList = live.toList ++ found := by
  intro claims
  induction claims with
  | nil =>
    intro live out h
    cases h
    exact ⟨[], rfl, by simp⟩
  | cons e rest ih =>
    intro live out h
    obtain ⟨claimId, receipts⟩ := e
    obtain ⟨claim, release, hreads, hrest⟩ := liveClaim_cons.mp h
    have hunreleased := hreads.isUnreleased
    rcases hrest with ⟨hsome, hrest⟩ | ⟨rfl, rfl, hrest⟩
    · obtain ⟨found, hfound, hout⟩ := ih hrest
      refine ⟨found, ?_, hout⟩
      obtain ⟨r, rfl⟩ := Option.isSome_iff_exists.mp hsome
      rw [List.filter_cons_of_neg (by simp [hunreleased]), hfound]
    · obtain ⟨found, hfound, hout⟩ := ih hrest
      refine ⟨claim :: found, ?_, by simpa using hout⟩
      rw [List.filter_cons_of_pos (by simp [hunreleased]), List.map_cons, List.map_cons, hfound,
        hreads.claimRead]

/-- A request without a live claim has none that is not released. -/
theorem ItemView.Shows.unreleased_of_none {v : ItemView B} {id : Uuid}
    {item : TranscriptionQueueItem} (h : v.Shows id item) (hnone : item.claim = none) :
    v.unreleased = [] := by
  obtain ⟨found, hfound, hout⟩ := unreleased_of_liveClaim h.claim
  rw [hnone] at hout
  simp only [Option.toList_none, List.nil_append, List.nil_eq] at hout
  rw [hout, List.map_nil, List.map_eq_nil_iff] at hfound
  exact hfound

theorem ItemView.Shows.unreleased_of_some {v : ItemView B} {id : Uuid}
    {item : TranscriptionQueueItem} (h : v.Shows id item) {claim : TranscriptionClaim}
    (hsome : item.claim = some claim) :
    ∃ e, v.unreleased = [e] ∧ readJson (e.2 .claim) = .ok claim := by
  obtain ⟨found, hfound, hout⟩ := unreleased_of_liveClaim h.claim
  rw [hsome] at hout
  simp only [Option.toList_some, Option.toList_none, List.nil_append] at hout
  rw [← hout, List.map_cons, List.map_nil] at hfound
  change v.unreleased.map _ = _ at hfound
  cases hlist : v.unreleased with
  | nil => rw [hlist] at hfound; cases hfound
  | cons e =>
    rw [hlist, List.map_cons, List.cons.injEq, List.map_eq_nil_iff] at hfound
    exact ⟨e, by rw [hfound.2], hfound.1⟩

/-- A claim of a request that has no live one becomes the live one. -/
theorem liveClaim_of_new {id claimId : Uuid} {claims : List (Uuid × (ClaimReceipt → Option B))}
    (h : liveClaim id claims none = .ok none) {claim : TranscriptionClaim}
    (hreads : ClaimReads id receipts claim none) :
    liveClaim id (claims ++ [(claimId, receipts)]) none = .ok (some claim) := by
  rw [liveClaim_append, h, ok_bind]
  exact liveClaim_cons.mpr ⟨claim, none, hreads, .inr ⟨rfl, rfl, rfl⟩⟩

/-- Behind a live claim every claim is released. -/
theorem liveClaim_of_some {id : Uuid} : ∀ {claims : List (Uuid × (ClaimReceipt → Option B))}
    {claim : TranscriptionClaim} {out : Option TranscriptionClaim},
    liveClaim id claims (some claim) = .ok out →
      out = some claim ∧ liveClaim id claims none = .ok none := by
  intro claims
  induction claims with
  | nil =>
    intro claim out h
    cases h
    exact ⟨rfl, rfl⟩
  | cons e rest ih =>
    intro claim out h
    obtain ⟨claimId, receipts⟩ := e
    obtain ⟨other, release, hreads, hrest⟩ := liveClaim_cons.mp h
    rcases hrest with ⟨hsome, hrest⟩ | ⟨-, hlive, -⟩
    · obtain ⟨hout, hnone⟩ := ih hrest
      exact ⟨hout, liveClaim_cons.mpr ⟨other, release, hreads, .inl ⟨hsome, hnone⟩⟩⟩
    · cases hlive

/-- Releasing the live claim leaves none. -/
theorem liveClaim_of_released {id claimId : Uuid}
    {before after : List (Uuid × (ClaimReceipt → Option B))} {receipts' : ClaimReceipt → Option B}
    {claim : TranscriptionClaim} {out : Option TranscriptionClaim}
    {release : TranscriptionClaimRelease}
    (h : liveClaim id (before ++ (claimId, receipts) :: after) none = .ok out)
    (hreads : ClaimReads id receipts claim none)
    (hreads' : ClaimReads id receipts' claim (some release)) :
    liveClaim id (before ++ (claimId, receipts') :: after) none = .ok none := by
  rw [liveClaim_append] at h ⊢
  obtain ⟨found, hbefore, hrest⟩ := bind_eq_ok.mp h
  obtain ⟨other, release', hother, hcase⟩ := liveClaim_cons.mp hrest
  have hnone : release' = none := by
    have := hother.isUnreleased.symm.trans hreads.isUnreleased
    simpa using this
  rcases hcase with ⟨hsome, -⟩ | ⟨-, rfl, hafter⟩
  · rw [hnone] at hsome
    cases hsome
  · rw [hbefore, ok_bind]
    exact liveClaim_cons.mpr ⟨claim, some release, hreads', .inl ⟨rfl, (liveClaim_of_some hafter).2⟩⟩

/-! ### One more receipt -/

namespace ItemView

variable {v : ItemView B} {id : Uuid} {item : TranscriptionQueueItem}

/-- A request just enqueued. -/
theorem shows_request {request : TranscriptionRequest} (hfits : Fits B request) :
    (empty.link .request (toVecPretty request) : ItemView B).Shows request.requestId
      ⟨request, none, none, none, none⟩ where
  isPrivate := rfl
  request := readJson_toVecPretty hfits
  requestId := rfl
  claimsPrivate := rfl
  claim := rfl
  result := rfl
  terminal := rfl
  commit := rfl
  coherent := ⟨nofun, nofun, nofun⟩

theorem Shows.link_result (h : v.Shows id item) (hopen : item.isOpen = true)
    {result : TranscriptionResult} (hfits : Fits B result) :
    (v.link .result (toVecPretty result)).Shows id { item with result := some result } := by
  obtain ⟨hcommit, hterminal⟩ := isOpen_iff.mp hopen
  exact { h with
    result := readOptionalJson_eq_some.mpr (readJson_toVecPretty hfits)
    coherent := ⟨fun _ t ht => by simp [hterminal] at ht, fun hc => by simp [hcommit] at hc,
      fun hc => by simp [hcommit] at hc⟩ }

theorem Shows.link_terminal (h : v.Shows id item) (hopen : item.isOpen = true)
    (terminal : TranscriptionTerminal)
    (hkind : item.result.isSome → terminal.kind = .quarantined) :
    (v.link .terminal (toVecPretty terminal)).Shows id { item with terminal := some terminal } := by
  obtain ⟨hcommit, -⟩ := isOpen_iff.mp hopen
  exact { h with
    terminal := readOptionalJson_eq_some.mpr (readJson_toVecPretty terminal.fits)
    coherent := ⟨fun hresult t ht => by cases ht; exact hkind hresult,
      fun hc => by simp [hcommit] at hc, fun hc => by simp [hcommit] at hc⟩ }

theorem Shows.link_commit (h : v.Shows id item) (hopen : item.isOpen = true)
    (hresult : item.result.isSome) {commit : TranscriptionCommit} (hfits : Fits B commit) :
    (v.link .commit (toVecPretty commit)).Shows id { item with commit := some commit } := by
  obtain ⟨-, hterminal⟩ := isOpen_iff.mp hopen
  exact { h with
    commit := readOptionalJson_eq_some.mpr (readJson_toVecPretty hfits)
    coherent := ⟨fun _ t ht => by simp [hterminal] at ht, fun _ => hresult, fun _ => hterminal⟩ }

end ItemView

end Reading

end YawnApp.SessionCore
