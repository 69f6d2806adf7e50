import Mathlib.Data.List.TakeDrop
import YawnApp.SessionCore.CorpusDerivable

set_option autoImplicit false

/-!
# What a pass leaves undone

A pass walks the windows without a vector from the first to the last: what is pending
after some batches is what was pending before, without as many rows as were asked for.
So each stop is tied to the work that remains, except for the budget that is just
enough, which stops a pass that has covered everything.
-/

namespace YawnApp.SessionCore

open YawnApp.Foundation List

namespace CorpusIndex

/-! ## Rows and their keys -/

def PendingWindow.key (window : PendingWindow) : String × Nat :=
  (window.meetingId, window.windowIndex)

theorem perm_sorted (table : List WindowRow) :
    List.Perm (table.insertionSort windowOrder) table :=
  perm_insertionSort windowOrder table

section Pending

variable {index : Index} {identity : EmbedderIdentity} {row : WindowRow}

theorem mem_pendingRows : row ∈ pendingRows index identity ↔
    row ∈ index.tables.window ∧ isEmbedded index.vectors identity.canonical row = false := by
  unfold pendingRows
  rw [mem_filter, (perm_sorted _).mem_iff, Bool.not_eq_true']

theorem Index.Keyed.nodup_pending (h : index.Keyed) :
    ((pendingRows index identity).map WindowRow.key).Nodup := by
  have hsorted := ((perm_sorted index.tables.window).map WindowRow.key).nodup_iff.mpr h.keys
  exact hsorted.sublist (filter_sublist.map _)

theorem Index.Keyed.eq_of_key (h : index.Keyed) {row other : WindowRow}
    (hrow : row ∈ index.tables.window) (hother : other ∈ index.tables.window)
    (hkey : row.key = other.key) : row = other :=
  inj_on_of_nodup_map h.keys hrow hother hkey

end Pending

/-! ## Storing a batch -/

section Storing

variable {identity : EmbedderIdentity} {windows : List WindowRow} {vectors : List VectorRow}

/-- The row that a vector is stored as. -/
def WindowVector.storedKey (vector : WindowVector) (identity : EmbedderIdentity) :
    String × Nat × String :=
  (vector.meetingId, vector.windowIndex, identity.canonical)

/-- The checks of `storeVector`, which do not look at the vectors there are. -/
structure Storable (identity : EmbedderIdentity) (windows : List WindowRow)
    (vector : WindowVector) : Prop where
  width : vector.values.length = identity.dimension.toNat
  integer : vector.windowIndex < 2 ^ 63
  window : VectorRow.bound windows (vector.row identity.canonical) = true

theorem storeVector_eq_ok {vector : WindowVector} {next : List VectorRow} :
    storeVector identity windows vectors vector = .ok next ↔ Storable identity windows vector ∧
      next = vectors.filter (fun other => other.key ≠ vector.storedKey identity) ++
        [vector.row identity.canonical] := by
  unfold storeVector sqlInteger
  simp only [bind_eq_ok, refuseIf_eq_ok, not_not]
  constructor
  · rintro ⟨_, hwidth, n, hinteger, _, hbound, hnext⟩
    split at hinteger
    · rename_i hlt
      exact ⟨⟨hwidth, hlt, hbound⟩, (Except.ok.inj hnext).symm⟩
    · cases hinteger
  · rintro ⟨⟨hwidth, hlt, hbound⟩, rfl⟩
    exact ⟨(), hwidth, vector.windowIndex, by rw [if_pos hlt], (), hbound, rfl⟩

/-- A batch with no window twice replaces the rows of its windows. -/
theorem foldlM_storeVector : ∀ {offered : List WindowVector} {vectors next : List VectorRow},
    (offered.map (WindowVector.storedKey · identity)).Nodup →
    (offered.foldlM (storeVector identity windows) vectors = .ok next ↔
      (∀ vector ∈ offered, Storable identity windows vector) ∧
      next = vectors.filter (fun other =>
          other.key ∉ offered.map (WindowVector.storedKey · identity)) ++
        offered.map (WindowVector.row · identity.canonical)) := by
  intro offered
  induction offered with
  | nil =>
    intro vectors next _
    simp [pure, Except.pure, eq_comm]
  | cons first rest ih =>
    intro vectors next hnodup
    rw [map_cons, nodup_cons] at hnodup
    rw [foldlM_cons, bind_eq_ok]
    simp only [storeVector_eq_ok, ih hnodup.2, forall_mem_cons, map_cons]
    have hfirst : (first.row identity.canonical).key = first.storedKey identity := rfl
    have hkept : (vectors.filter (fun other => other.key ≠ first.storedKey identity) ++
          [first.row identity.canonical]).filter (fun other =>
            other.key ∉ rest.map (WindowVector.storedKey · identity)) =
        vectors.filter (fun other => other.key ∉
          first.storedKey identity :: rest.map (WindowVector.storedKey · identity)) ++
          [first.row identity.canonical] := by
      rw [filter_append, filter_filter]
      congr 1
      · apply filter_congr
        intro other _
        simp [not_or, Bool.and_comm]
      · rw [filter_cons_of_pos (by rw [hfirst]; exact decide_eq_true hnodup.1),
          filter_nil]
    constructor
    · rintro ⟨_, ⟨hgood, rfl⟩, hrest, rfl⟩
      refine ⟨⟨hgood, hrest⟩, ?_⟩
      rw [hkept, append_assoc, singleton_append]
    · rintro ⟨⟨hgood, hrest⟩, rfl⟩
      refine ⟨_, ⟨hgood, rfl⟩, hrest, ?_⟩
      rw [hkept, append_assoc, singleton_append]

end Storing

/-! ## Batches -/

/-- The vector that a reply holds for a window. -/
def replyVector (replies : String → Option (List UInt32)) (window : PendingWindow) : WindowVector :=
  ⟨window.meetingId, window.windowIndex, window.textSha256,
    (replies window.textSha256).getD []⟩

theorem offerOf_eq_some {replies : String → Option (List UInt32)} :
    ∀ {batch : List PendingWindow} {vectors : List WindowVector},
      offerOf replies batch = some vectors ↔
        (∀ window ∈ batch, (replies window.textSha256).isSome = true) ∧
        vectors = batch.map (replyVector replies) := by
  intro batch
  unfold offerOf
  induction batch with
  | nil =>
    intro vectors
    rw [mapM_nil, map_nil]
    constructor
    · intro h
      exact ⟨fun _ hmem => absurd hmem not_mem_nil, (Option.some.inj h).symm⟩
    · rintro ⟨-, rfl⟩
      rfl
  | cons first rest ih =>
    intro vectors
    rw [mapM_cons, forall_mem_cons, map_cons]
    cases hreply : replies first.textSha256 with
    | none => simp
    | some values =>
      have hvector : replyVector replies first =
          ⟨first.meetingId, first.windowIndex, first.textSha256, values⟩ := by
        rw [replyVector, hreply, Option.getD_some]
      simp only [Option.map_some, Option.bind_eq_bind, Option.bind_some, Option.bind_eq_some_iff,
        ih, Option.isSome_some, true_and, hvector]
      constructor
      · rintro ⟨_, ⟨hall, rfl⟩, heq⟩
        exact ⟨hall, (Option.some.inj heq).symm⟩
      · rintro ⟨hall, rfl⟩
        exact ⟨_, ⟨hall, rfl⟩, rfl⟩

section Batches

variable [TextDigest]

/-- The rows are derived one by one. -/
def Derives (tables : Tables) (rows : List WindowRow) (batch : List PendingWindow) : Prop :=
  rows.mapM (derivePending tables) = .ok batch

theorem derivePending_eq_ok {tables : Tables} {row : WindowRow} {window : PendingWindow}
    (h : derivePending tables row = .ok window) :
    window.key = row.key ∧ window.textSha256 = row.textSha256 := by
  unfold derivePending at h
  simp only [bind_eq_ok] at h
  obtain ⟨_, -, _, -, _, -, heq⟩ := h
  cases heq
  exact ⟨rfl, rfl⟩

variable {tables : Tables} {rows : List WindowRow} {batch : List PendingWindow}

theorem Derives.keys (h : Derives tables rows batch) :
    batch.map PendingWindow.key = rows.map WindowRow.key := by
  have hpairs := mapM_eq_ok_iff_forall₂.mp h
  induction hpairs with
  | nil => rfl
  | cons hfirst hrest ih =>
    rw [map_cons, map_cons, (derivePending_eq_ok hfirst).1,
      ih (mapM_eq_ok_iff_forall₂.mpr hrest)]

theorem Derives.length (h : Derives tables rows batch) : batch.length = rows.length :=
  (mapM_eq_ok_iff_forall₂.mp h).length_eq.symm

theorem Derives.unique {other : List PendingWindow} (h : Derives tables rows batch)
    (hother : Derives tables rows other) : other = batch :=
  Except.ok.inj (hother.symm.trans h)

theorem Derives.append {more : List WindowRow} {next : List PendingWindow}
    (h : Derives tables rows batch) (hmore : Derives tables more next) :
    Derives tables (rows ++ more) (batch ++ next) :=
  mapM_eq_ok_iff_forall₂.mpr
    (rel_append (mapM_eq_ok_iff_forall₂.mp h) (mapM_eq_ok_iff_forall₂.mp hmore))

/-- Every window that is asked for is that of a row. -/
theorem Derives.exists_row (h : Derives tables rows batch) {window : PendingWindow}
    (hmem : window ∈ batch) : ∃ row ∈ rows, row.key = window.key ∧
      row.textSha256 = window.textSha256 := by
  obtain ⟨row, hrow, hderived⟩ := (mem_of_mapM_eq_ok h window).mp hmem
  obtain ⟨hkey, hdigest⟩ := derivePending_eq_ok hderived
  exact ⟨row, hrow, hkey.symm, hdigest.symm⟩

end Batches

/-! ## What a stored batch leaves pending -/

section Stored

variable [TextDigest] {identity : EmbedderIdentity} {index : Index}
  {replies : String → Option (List UInt32)} {batch : List PendingWindow} {count : Nat}

/-- The reply has a vector of the right width for every window of the batch. -/
def RepliesInFull (identity : EmbedderIdentity) (replies : String → Option (List UInt32))
    (batch : List PendingWindow) : Prop :=
  ∀ window ∈ batch, ∃ values, replies window.textSha256 = some values ∧
    values.length = identity.dimension.toNat

/-- The rows that a batch is stored as. -/
def storedRows (identity : EmbedderIdentity) (replies : String → Option (List UInt32))
    (batch : List PendingWindow) : List VectorRow :=
  batch.map fun window => (replyVector replies window).row identity.canonical

section

omit [TextDigest]

theorem storedRows_eq : (batch.map (replyVector replies)).map (WindowVector.row · identity.canonical) =
    storedRows identity replies batch := by
  rw [map_map]
  rfl

theorem RepliesInFull.isSome (h : RepliesInFull identity replies batch) :
    ∀ window ∈ batch, (replies window.textSha256).isSome = true := by
  intro window hmem
  obtain ⟨values, hvalues, -⟩ := h window hmem
  rw [hvalues, Option.isSome_some]

/-- The keys of an offer are those of its windows. -/
theorem storedKeys_offer :
    (batch.map (replyVector replies)).map (WindowVector.storedKey · identity) =
      (batch.map PendingWindow.key).map fun key => (key.1, key.2, identity.canonical) := by
  rw [map_map, map_map]
  rfl

end

theorem nodup_offer (hkeyed : index.Keyed)
    (h : Derives index.tables ((pendingRows index identity).take count) batch) :
    ((batch.map (replyVector replies)).map (WindowVector.storedKey · identity)).Nodup := by
  rw [storedKeys_offer, h.keys]
  refine List.Nodup.map ?_ (hkeyed.nodup_pending.sublist ((take_sublist _ _).map _))
  intro key other heq
  rw [Prod.mk.injEq, Prod.mk.injEq] at heq
  exact Prod.ext heq.1 heq.2.1

/-- An offer of pending windows is storable when its vectors have the width. -/
theorem storable_offer (hkeyed : index.Keyed)
    (h : Derives index.tables ((pendingRows index identity).take count) batch)
    (hsome : ∀ window ∈ batch, (replies window.textSha256).isSome = true) :
    (∀ vector ∈ batch.map (replyVector replies), Storable identity index.tables.window vector) ↔
      RepliesInFull identity replies batch := by
  rw [forall_mem_map]
  apply forall₂_congr
  intro window hmem
  obtain ⟨values, hvalues⟩ := Option.isSome_iff_exists.mp (hsome window hmem)
  constructor
  · intro hstorable
    refine ⟨values, hvalues, ?_⟩
    have hwidth := hstorable.width
    rwa [replyVector, hvalues, Option.getD_some] at hwidth
  · rintro ⟨_, hreply, hwidth⟩
    obtain ⟨row, hrow, hkey, hdigest⟩ := h.exists_row hmem
    obtain ⟨hmeeting, hindex⟩ := Prod.mk.inj hkey
    have htable := (mem_pendingRows.mp (mem_of_mem_take hrow)).1
    refine ⟨by rw [replyVector, hreply, Option.getD_some, hwidth], ?_, ?_⟩
    · have hinteger := hkeyed.integers row htable
      rw [hindex] at hinteger
      exact hinteger
    · refine any_eq_true.mpr ⟨row, htable, ?_⟩
      simp [WindowVector.row, replyVector, hmeeting, hindex, hdigest]

/-- A row has a vector after the batch if it had one or was in it. -/
theorem isEmbedded_stored (hkeyed : index.Keyed)
    (h : Derives index.tables ((pendingRows index identity).take count) batch)
    {vectors : List VectorRow}
    (hvectors : vectors = index.vectors.filter (fun other =>
        other.key ∉ (batch.map (replyVector replies)).map (WindowVector.storedKey · identity)) ++
      storedRows identity replies batch)
    {row : WindowRow} (hrow : row ∈ index.tables.window) :
    isEmbedded vectors identity.canonical row =
      (isEmbedded index.vectors identity.canonical row ||
        decide (row.key ∈ ((pendingRows index identity).take count).map WindowRow.key)) := by
  rw [Bool.eq_iff_iff, Bool.or_eq_true, decide_eq_true_iff]
  unfold isEmbedded
  simp only [any_eq_true, Bool.and_eq_true, beq_iff_eq, hvectors, mem_append,
    mem_filter, decide_eq_true_iff]
  constructor
  · rintro ⟨vector, ⟨hvector, -⟩ | hvector, hmatch⟩
    · exact .inl ⟨vector, hvector, hmatch⟩
    · obtain ⟨window, hwindow, rfl⟩ := mem_map.mp hvector
      obtain ⟨⟨⟨hmeeting, hindex⟩, -⟩, -⟩ := hmatch
      refine .inr ?_
      rw [← h.keys]
      exact mem_map.mpr ⟨window, hwindow, Prod.ext hmeeting hindex⟩
  · rintro (⟨vector, hvector, hmatch⟩ | htaken)
    · by_cases hkey : vector.key ∈
          (batch.map (replyVector replies)).map (WindowVector.storedKey · identity)
      · -- its window was asked for again: not a pending one, but the key decides the row
        rw [storedKeys_offer, h.keys, mem_map] at hkey
        obtain ⟨key, hmem, heq⟩ := hkey
        obtain ⟨other, hother, rfl⟩ := mem_map.mp hmem
        obtain ⟨hpendingRow, hpending⟩ := mem_pendingRows.mp (mem_of_mem_take hother)
        obtain ⟨⟨⟨hmeeting, hindex⟩, hembedder⟩, hdigest⟩ := hmatch
        have hsame : other = row := by
          refine hkeyed.eq_of_key hpendingRow hrow ?_
          obtain ⟨hone, hrest⟩ := Prod.mk.inj heq
          exact Prod.ext (hone.trans hmeeting) ((Prod.mk.inj hrest).1.trans hindex)
        subst hsame
        refine absurd hpending (by
          rw [Bool.not_eq_false]
          exact any_eq_true.mpr ⟨vector, hvector, by
            simp [hmeeting, hindex, hembedder, hdigest]⟩)
      · exact ⟨vector, .inl ⟨hvector, hkey⟩, hmatch⟩
    · obtain ⟨other, hother, hkey⟩ := mem_map.mp htaken
      have hsame : other = row :=
        hkeyed.eq_of_key (mem_pendingRows.mp (mem_of_mem_take hother)).1 hrow hkey
      subst hsame
      obtain ⟨window, hderived⟩ : ∃ window, derivePending index.tables other = .ok window :=
        exists_mapM_eq_ok.mp ⟨batch, h⟩ other hother
      obtain ⟨hwindowKey, hdigest⟩ := derivePending_eq_ok hderived
      obtain ⟨hmeeting, hindex⟩ := Prod.mk.inj hwindowKey
      refine ⟨(replyVector replies window).row identity.canonical, .inr ?_, ?_⟩
      · exact mem_map_of_mem ((mem_of_mapM_eq_ok h window).mpr ⟨other, hother, hderived⟩)
      · exact ⟨⟨⟨hmeeting, hindex⟩, rfl⟩, hdigest⟩

/-- The rows of the batch are pending no more, and the others are as before. -/
theorem pendingRows_stored (hkeyed : index.Keyed)
    (h : Derives index.tables ((pendingRows index identity).take count) batch)
    {vectors : List VectorRow}
    (hvectors : vectors = index.vectors.filter (fun other =>
        other.key ∉ (batch.map (replyVector replies)).map (WindowVector.storedKey · identity)) ++
      storedRows identity replies batch) :
    pendingRows { index with vectors } identity = (pendingRows index identity).drop count := by
  have hfilter : pendingRows { index with vectors } identity =
      (pendingRows index identity).filter fun row =>
        decide (row.key ∉ ((pendingRows index identity).take count).map WindowRow.key) := by
    conv_rhs => rw [pendingRows]
    unfold pendingRows
    rw [filter_filter]
    apply filter_congr
    intro row hrow
    have htable : row ∈ index.tables.window := (perm_sorted _).mem_iff.mp hrow
    rw [isEmbedded_stored hkeyed h hvectors htable, Bool.not_or, Bool.and_comm, decide_not]
    rfl
  have hnodup : (((pendingRows index identity).take count ++
      (pendingRows index identity).drop count).map WindowRow.key).Nodup := by
    rw [take_append_drop]
    exact hkeyed.nodup_pending
  rw [map_append, nodup_append] at hnodup
  rw [hfilter]
  conv_lhs => rw [← take_append_drop count (pendingRows index identity), filter_append]
  rw [filter_eq_nil_iff.mpr, nil_append, filter_eq_self.mpr]
  · intro row hrow
    apply decide_eq_true
    intro hmem
    rw [take_append_drop] at hmem
    exact hnodup.2.2 _ hmem _ (mem_map_of_mem hrow) rfl
  · intro row hrow
    rw [take_append_drop]
    simpa using mem_map_of_mem (f := WindowRow.key) hrow

end Stored

/-! ## A turn of the loop -/

section Rounds

variable [TextDigest] (identity : EmbedderIdentity) (embedder : Embedder) (budget : Nat)

/-- The call of this number is answered in full. -/
def Answered (call : Nat) (batch : List PendingWindow) : Prop :=
  ∃ replies, embedder call batch = .ok replies ∧ RepliesInFull identity replies batch

/-- The pass that has just asked for a batch. -/
def Pass.asking (pass : Pass) (batch : List PendingWindow) : Pass :=
  { pass with
    requested := pass.requested + batch.length
    batches := pass.batches + 1
    asked := pass.asked ++ [batch] }

/-- The rows that a turn of the loop looks at. -/
def roundRows (pass : Pass) : List WindowRow :=
  (pendingRows pass.index identity).take (min (budget - pass.requested) windowsPerRequest)

/-- What a turn of the loop can come to. -/
inductive Turned (pass : Pass) : Round → Prop where
  | underivable (e : CorpusIndexError) (hrows : pendingRows pass.index identity ≠ [])
      (hnone : ∀ batch, ¬ Derives pass.index.tables (roundRows identity budget pass) batch) :
      Turned pass (.stop pass (.error e))
  | nothing (hrows : pendingRows pass.index identity = []) :
      Turned pass (.stop pass (.ok .complete))
  | refused (batch : List PendingWindow) (result : Except CorpusIndexError FillStop)
      (hrows : pendingRows pass.index identity ≠ [])
      (hderives : Derives pass.index.tables (roundRows identity budget pass) batch)
      (hrefused : ¬ Answered identity embedder pass.batches batch)
      (hcomplete : result ≠ .ok .complete) (hbudget : result ≠ .ok .budgetReached) :
      Turned pass (.stop (pass.asking batch) result)
  | stored (batch : List PendingWindow) (replies : String → Option (List UInt32))
      (embedded : Nat) (vectors : List VectorRow)
      (hrows : pendingRows pass.index identity ≠ [])
      (hderives : Derives pass.index.tables (roundRows identity budget pass) batch)
      (hreplies : embedder pass.batches batch = .ok replies)
      (hfull : RepliesInFull identity replies batch)
      (hvectors : vectors = pass.index.vectors.filter (fun other => other.key ∉
          (batch.map (replyVector replies)).map (WindowVector.storedKey · identity)) ++
        storedRows identity replies batch) :
      Turned pass (.next { pass.asking batch with index := { pass.index with vectors }, embedded })

variable {identity embedder budget}

theorem turned_fillRound {pass : Pass} (hkeyed : pass.index.Keyed)
    (hroom : pass.requested < budget) :
    Turned identity embedder budget pass (fillRound identity embedder budget pass) := by
  have hpositive : min (budget - pass.requested) windowsPerRequest ≠ 0 := by
    unfold windowsPerRequest
    omega
  have hwindows : pendingWindows pass.index identity
      (min (budget - pass.requested) windowsPerRequest) =
      (roundRows identity budget pass).mapM (derivePending pass.index.tables) := by
    unfold pendingWindows roundRows
    simp only [if_neg hpositive]
  have hempty : roundRows identity budget pass = [] ↔ pendingRows pass.index identity = [] := by
    unfold roundRows
    rw [take_eq_nil_iff]
    exact or_iff_right hpositive
  unfold fillRound
  simp only [hwindows]
  cases hderives : (roundRows identity budget pass).mapM (derivePending pass.index.tables) with
  | error e =>
    refine .underivable e (fun hrows => ?_) fun batch hbatch => ?_
    · rw [hempty.mpr hrows] at hderives
      cases hderives
    · rw [Derives, hderives] at hbatch
      cases hbatch
  | ok batch =>
    have hderived : Derives pass.index.tables (roundRows identity budget pass) batch := hderives
    by_cases hnil : batch = []
    · simp only [if_pos hnil]
      refine .nothing (hempty.mp (length_eq_zero_iff.mp ?_))
      rw [← hderived.length, hnil, length_nil]
    · simp only [if_neg hnil]
      have hrows : pendingRows pass.index identity ≠ [] := fun hrows => hnil (by
        have hlength := hderived.length
        rwa [hempty.mpr hrows, length_nil, length_eq_zero_iff] at hlength)
      cases hreply : embedder pass.batches batch with
      | error =>
        refine .refused batch _ hrows hderived ?_ (by simp) (by simp)
        rintro ⟨replies, hok, -⟩
        rw [hreply] at hok
        cases hok
      | ok replies =>
        have hanswered : Answered identity embedder pass.batches batch ↔
            RepliesInFull identity replies batch := by
          unfold Answered
          rw [hreply]
          exact ⟨fun ⟨_, heq, hfull⟩ => Except.ok.inj heq ▸ hfull, fun hfull => ⟨_, rfl, hfull⟩⟩
        simp only
        cases hoffer : offerOf replies batch with
        | none =>
          refine .refused batch _ hrows hderived (fun h => ?_) (by simp) (by simp)
          have hsome := offerOf_eq_some.mpr ⟨(hanswered.mp h).isSome, rfl⟩
          rw [hoffer] at hsome
          cases hsome
        | some =>
          obtain ⟨hsome, rfl⟩ := offerOf_eq_some.mp hoffer
          have hnodup := @nodup_offer _ identity pass.index replies batch _ hkeyed hderived
          have hstorable := storable_offer hkeyed hderived hsome
          simp only
          cases hfold : (batch.map (replyVector replies)).foldlM
              (storeVector identity pass.index.tables.window) pass.index.vectors with
          | error =>
            rw [storeVectors_of_error hfold]
            refine .refused batch _ hrows hderived (fun h => ?_) (by simp) (by simp)
            have hok := (@foldlM_storeVector identity _ _ pass.index.vectors _ hnodup).mpr
              ⟨hstorable.mpr (hanswered.mp h), rfl⟩
            rw [hfold] at hok
            cases hok
          | ok stored =>
            rw [storeVectors_of_ok hfold]
            obtain ⟨hgood, hstored⟩ := (foldlM_storeVector hnodup).mp hfold
            refine .stored batch replies _ stored hrows hderived hreply (hstorable.mp hgood) ?_
            rw [hstored, storedRows_eq]

end Rounds

/-! ## A pass -/

section Passes

variable [TextDigest] (identity : EmbedderIdentity) (embedder : Embedder) (budget : Nat)

/-- A stored vector that the reply to one of the calls has for one of its windows. -/
def FromReply (asked : List (List PendingWindow)) (vector : VectorRow) : Prop :=
  ∃ call batch replies, asked[call]? = some batch ∧ embedder call batch = .ok replies ∧
    RepliesInFull identity replies batch ∧ ∃ window ∈ batch, ∃ values,
      replies window.textSha256 = some values ∧
      vector = ⟨window.meetingId, window.windowIndex, identity.canonical, window.textSha256, values⟩

/-- The rows of the call of a number, when nothing stops the pass before it. -/
def callRows (start : Index) (call : Nat) : List WindowRow :=
  ((pendingRows start identity).drop (windowsPerRequest * call)).take
    (min (budget - windowsPerRequest * call) windowsPerRequest)

/-- The batch of the call of a number is derived and answered in full. -/
def CallAnswered (start : Index) (call : Nat) : Prop :=
  ∃ batch, Derives start.tables (callRows identity budget start call) batch ∧
    Answered identity embedder call batch

/-- What a pass over the index keeps, whatever stops it. -/
structure Pass.From (start : Index) (pass : Pass) : Prop where
  tables : pass.index.tables = start.tables
  batches : pass.batches = pass.asked.length
  total : pass.requested = pass.asked.flatten.length
  sizes : ∀ batch ∈ pass.asked, batch.length ≤ windowsPerRequest
  inBudget : pass.requested ≤ budget
  asked : Derives start.tables ((pendingRows start identity).take pass.requested)
    pass.asked.flatten
  vectors : ∀ vector ∈ pass.index.vectors, vector ∈ start.vectors ∨
    FromReply identity embedder pass.asked vector

/-- A pass that nothing has stopped. -/
structure Pass.Going (start : Index) (pass : Pass) : Prop extends
    Pass.From identity embedder budget start pass where
  pending : pendingRows pass.index identity = (pendingRows start identity).drop pass.requested
  count : pass.requested =
    min (windowsPerRequest * pass.batches) (min budget (pendingRows start identity).length)
  answered : ∀ call < pass.batches, CallAnswered identity embedder budget start call

/-- What a pass over the index that is over keeps. -/
structure Pass.Over (start : Index) (last : Pass) (result : Except CorpusIndexError FillStop) :
    Prop extends Pass.From identity embedder budget start last where
  complete : result = .ok .complete → last.requested < budget ∧
    pendingRows last.index identity = [] ∧ Pass.Going identity embedder budget start last
  spent : result = .ok .budgetReached → last.requested = budget ∧
    Pass.Going identity embedder budget start last
  undone : result ≠ .ok .complete → result ≠ .ok .budgetReached →
    pendingRows last.index identity ≠ []

variable {identity embedder budget} {start : Index} {pass : Pass} {batch : List PendingWindow}

theorem Pass.going_start (start : Index) :
    Pass.Going identity embedder budget start (Pass.start start) where
  tables := rfl
  batches := rfl
  total := rfl
  sizes := fun _ hmem => absurd hmem not_mem_nil
  inBudget := Nat.zero_le _
  asked := rfl
  vectors := fun _ hvector => .inl hvector
  pending := rfl
  count := (Nat.zero_min _).symm
  answered := fun _ hlt => absurd hlt (Nat.not_lt_zero _)

omit [TextDigest] in
theorem FromReply.append {asked : List (List PendingWindow)} {vector : VectorRow}
    (h : FromReply identity embedder asked vector) (more : List (List PendingWindow)) :
    FromReply identity embedder (asked ++ more) vector := by
  obtain ⟨call, batch, replies, hcall, hrest⟩ := h
  refine ⟨call, batch, replies, ?_, hrest⟩
  rw [List.getElem?_append_left (List.getElem?_eq_some_iff.mp hcall).1, hcall]

theorem Pass.From.keyed (h : Pass.From identity embedder budget start pass) (hkeyed : start.Keyed) :
    pass.index.Keyed := ⟨h.tables ▸ hkeyed.keys, h.tables ▸ hkeyed.integers⟩

/-- The rows of a turn are as many as its batch. -/
theorem roundRows_eq (hderives : Derives pass.index.tables (roundRows identity budget pass) batch) :
    roundRows identity budget pass = (pendingRows pass.index identity).take batch.length := by
  rw [hderives.length, roundRows, length_take, ← take_eq_take_min]

/-- Asking for the next batch. -/
theorem Pass.Going.asking (h : Pass.Going identity embedder budget start pass)
    (hderives : Derives pass.index.tables (roundRows identity budget pass) batch) :
    Pass.From identity embedder budget start (pass.asking batch) := by
  have hlength := hderives.length
  rw [roundRows, length_take] at hlength
  refine ⟨h.tables, ?_, ?_, ?_, ?_, ?_, fun vector hvector => (h.vectors vector hvector).imp_right
    fun hreply => hreply.append [batch]⟩
  · change pass.batches + 1 = (pass.asked ++ [batch]).length
    rw [h.batches, length_append, length_singleton]
  · change pass.requested + batch.length = _
    rw [h.total]
    simp [Pass.asking]
  · intro other hmem
    rcases mem_append.mp hmem with hmem | hmem
    · exact h.sizes other hmem
    · rw [mem_singleton.mp hmem]
      omega
  · change pass.requested + batch.length ≤ budget
    have := h.inBudget
    omega
  · change Derives start.tables ((pendingRows start identity).take
      (pass.requested + batch.length)) (pass.asked ++ [batch]).flatten
    rw [take_add, flatten_append, flatten_singleton]
    apply h.asked.append
    rw [roundRows_eq hderives, h.tables, h.pending] at hderives
    exact hderives

/-- A pass with work left is at the end of its last batch. -/
theorem Pass.Going.requested_eq (h : Pass.Going identity embedder budget start pass)
    (hroom : pass.requested < budget) (hrows : pendingRows pass.index identity ≠ []) :
    pass.requested = windowsPerRequest * pass.batches ∧
      pass.requested < (pendingRows start identity).length := by
  have hleft : pass.requested < (pendingRows start identity).length := by
    rw [h.pending, Ne, drop_eq_nil_iff, not_le] at hrows
    exact hrows
  have := h.count
  omega

theorem Pass.Going.callRows_eq (h : Pass.Going identity embedder budget start pass)
    (hrequested : pass.requested = windowsPerRequest * pass.batches) :
    callRows identity budget start pass.batches = roundRows identity budget pass := by
  rw [callRows, roundRows, h.pending, ← hrequested]

/-- Storing the next batch. -/
theorem Pass.Going.stored (h : Pass.Going identity embedder budget start pass)
    (hkeyed : start.Keyed) (hroom : pass.requested < budget)
    {replies : String → Option (List UInt32)} {embedded : Nat} {vectors : List VectorRow}
    (hrows : pendingRows pass.index identity ≠ [])
    (hderives : Derives pass.index.tables (roundRows identity budget pass) batch)
    (hreplies : embedder pass.batches batch = .ok replies)
    (hfull : RepliesInFull identity replies batch)
    (hvectors : vectors = pass.index.vectors.filter (fun other => other.key ∉
        (batch.map (replyVector replies)).map (WindowVector.storedKey · identity)) ++
      storedRows identity replies batch) : Pass.Going identity embedder budget start
      { pass.asking batch with index := { pass.index with vectors }, embedded } := by
  have hasked := h.asking hderives
  have hlength := hderives.length
  rw [roundRows, length_take, h.pending, length_drop] at hlength
  obtain ⟨hrequested, hleft⟩ := h.requested_eq hroom hrows
  refine ⟨⟨hasked.tables, hasked.batches, hasked.total, hasked.sizes, hasked.inBudget,
    hasked.asked, fun vector hvector => ?_⟩, ?_, ?_, fun call hcall => ?_⟩
  · rw [hvectors, mem_append, mem_filter] at hvector
    rcases hvector with ⟨hvector, -⟩ | hvector
    · exact hasked.vectors vector hvector
    · obtain ⟨window, hwindow, rfl⟩ := mem_map.mp hvector
      obtain ⟨values, hvalues, -⟩ := hfull window hwindow
      refine .inr ⟨pass.batches, batch, replies, ?_, hreplies, hfull, window, hwindow, values,
        hvalues, ?_⟩
      · change (pass.asked ++ [batch])[pass.batches]? = some batch
        rw [h.batches, List.getElem?_concat_length]
      · rw [replyVector, hvalues, Option.getD_some]
        rfl
  · have hrowsTaken := hderives
    rw [roundRows_eq hderives] at hrowsTaken
    change pendingRows { pass.index with vectors } identity =
      (pendingRows start identity).drop (pass.requested + batch.length)
    rw [pendingRows_stored (h.keyed hkeyed) hrowsTaken hvectors, h.pending, drop_drop]
  · change pass.requested + batch.length = min (windowsPerRequest * (pass.batches + 1)) _
    unfold windowsPerRequest at *
    omega
  · rcases Nat.lt_succ_iff_lt_or_eq.mp hcall with hcall | rfl
    · exact h.answered call hcall
    · refine ⟨batch, ?_, replies, hreplies, hfull⟩
      rw [h.callRows_eq hrequested, ← h.tables]
      exact hderives

/-- Where the loop ends. -/
theorem fillFrom_over (hkeyed : start.Keyed) {pass : Pass}
    (h : Pass.Going identity embedder budget start pass) :
    Pass.Over identity embedder budget start (fillFrom identity embedder budget pass).1
      (fillFrom identity embedder budget pass).2 := by
  induction hleft : budget - pass.requested using Nat.strong_induction_on generalizing pass with
  | _ left ih =>
    subst hleft
    rw [fillFrom]
    split
    · rename_i hroom
      have hturned : Turned identity embedder budget pass _ :=
        turned_fillRound (h.keyed hkeyed) hroom
      split
      · rename_i last result hround
        rw [hround] at hturned
        cases hturned with
        | underivable _ hrows =>
          exact ⟨h.toFrom, fun heq => (by cases heq), fun heq => (by cases heq), fun _ _ => hrows⟩
        | nothing hrows =>
          exact ⟨h.toFrom, fun _ => ⟨hroom, hrows, h⟩, fun heq => (by cases heq),
            fun hne => absurd rfl hne⟩
        | refused batch _ hrows hderives _ hcomplete hbudget =>
          exact ⟨h.asking hderives, fun heq => absurd heq hcomplete,
            fun heq => absurd heq hbudget, fun _ _ => hrows⟩
      · rename_i later hround
        have hless := requested_lt_of_next hround
        rw [hround] at hturned
        cases hturned with
        | stored _ _ _ _ hrows hderives hreplies hfull hvectors =>
          exact ih _ (by omega)
            (h.stored hkeyed hroom hrows hderives hreplies hfull hvectors) rfl
    · rename_i hroom
      have hspent : pass.requested = budget := Nat.le_antisymm h.inBudget (Nat.not_lt.mp hroom)
      exact ⟨h.toFrom, fun heq => (by cases heq), fun _ => ⟨hspent, h⟩,
        fun _ hne => absurd rfl hne⟩

/-- A pass whose calls are all answered in full ends at the last row or at its budget. -/
theorem fillFrom_answered (hkeyed : start.Keyed)
    (hanswered : ∀ call, windowsPerRequest * call < min budget (pendingRows start identity).length →
      CallAnswered identity embedder budget start call) {pass : Pass}
    (h : Pass.Going identity embedder budget start pass) :
    (fillFrom identity embedder budget pass).2 = .ok .complete ∨
      (fillFrom identity embedder budget pass).2 = .ok .budgetReached := by
  induction hleft : budget - pass.requested using Nat.strong_induction_on generalizing pass with
  | _ left ih =>
    subst hleft
    rw [fillFrom]
    split
    · rename_i hroom
      have hturned : Turned identity embedder budget pass _ :=
        turned_fillRound (h.keyed hkeyed) hroom
      have hnext : pendingRows pass.index identity ≠ [] → ∃ batch,
          Derives pass.index.tables (roundRows identity budget pass) batch ∧
            Answered identity embedder pass.batches batch := by
        intro hrows
        obtain ⟨hrequested, hrest⟩ := h.requested_eq hroom hrows
        obtain ⟨batch, hderives, hcall⟩ := hanswered pass.batches (by omega)
        rw [h.callRows_eq hrequested, ← h.tables] at hderives
        exact ⟨batch, hderives, hcall⟩
      split
      · rename_i last result hround
        rw [hround] at hturned
        cases hturned with
        | underivable e hrows hnone =>
          obtain ⟨batch, hderives, -⟩ := hnext hrows
          exact absurd hderives (hnone batch)
        | nothing => exact .inl rfl
        | refused _ _ hrows hother hrefused =>
          obtain ⟨batch, hderives, hcall⟩ := hnext hrows
          exact absurd (hderives.unique hother ▸ hcall) hrefused
      · rename_i later hround
        have hless := requested_lt_of_next hround
        rw [hround] at hturned
        cases hturned with
        | stored _ _ _ _ hrows hderives hreplies hfull hvectors =>
          exact ih _ (by omega)
            (h.stored hkeyed hroom hrows hderives hreplies hfull hvectors) rfl
    · exact .inr rfl

end Passes

/-! ## What is stored and what is reported -/

section Reports

variable [TextDigest] (identity : EmbedderIdentity) (embedder : Embedder) (budget : Nat)
  (models : List (String × String))

/-- What a pass asks for and stores, whatever it is answered. -/
structure Safe (start last : Index) (pass : Pass) : Prop where
  total : pass.asked.flatten.length ≤ budget
  sizes : ∀ batch ∈ pass.asked, batch.length ≤ windowsPerRequest
  once : (pass.asked.flatten.map PendingWindow.key).Nodup
  tables : last.tables = start.tables
  stored : ∀ vector ∈ last.vectors, vector ∈ start.vectors ∨
    FromReply identity embedder pass.asked vector

/-- The report says what is left. -/
structure Reports (last : Index) (result : Except CorpusIndexError FillStop) : Prop where
  complete : result = .ok .complete ↔
    identity.matchesManifest models = true ∧ pendingRows last identity = []
  budgetReached : result = .ok .budgetReached → pendingRows last identity ≠ []

/-- The budget is as many windows as are pending, and every call for them is answered in full. -/
structure SpentExactly (start : Index) : Prop where
  pending : (pendingRows start identity).length = budget
  answered : ∀ call, windowsPerRequest * call < budget →
    CallAnswered identity embedder budget start call

/-- The index after some passes, each with an embedder and a budget of its own. -/
def passes (embedders : Nat → Embedder) (budgets : Nat → Nat) (start : Index) : Nat → Index
  | 0 => start
  | count + 1 => (fillVectors identity (embedders count) (budgets count) models
      (passes embedders budgets start count)).1.index

/-- Every call is answered, with a vector of the right width for every window. -/
def AnswersFully : Prop := ∀ call batch, Answered identity embedder call batch

variable {identity embedder budget models} {start : Index}

theorem Pass.From.safe {pass : Pass} (h : Pass.From identity embedder budget start pass)
    (hkeyed : start.Keyed) : Safe identity embedder budget start pass.index pass where
  total := h.total ▸ h.inBudget
  sizes := h.sizes
  once := by
    rw [h.asked.keys]
    exact hkeyed.nodup_pending.sublist ((take_sublist _ _).map _)
  tables := h.tables
  stored := h.vectors

theorem Pass.Over.spentExactly {last : Pass} {result : Except CorpusIndexError FillStop}
    (h : Pass.Over identity embedder budget start last result) (hresult : result = .ok .budgetReached)
    (hpending : pendingRows last.index identity = []) :
    SpentExactly identity embedder budget start := by
  obtain ⟨hspent, hgoing⟩ := h.spent hresult
  have hcount := hgoing.count
  rw [hgoing.pending, drop_eq_nil_iff] at hpending
  refine ⟨by omega, fun call hcall => hgoing.answered call ?_⟩
  unfold windowsPerRequest at hcall hcount
  omega

/-- What a pass with a budget reports. -/
theorem reports_fillFrom (hkeyed : start.Keyed) (hmatch : identity.matchesManifest models = true) :
    Reports identity models (fillFrom identity embedder budget (.start start)).1.index
      (fillFrom identity embedder budget (.start start)).2 ↔
      ¬ SpentExactly identity embedder budget start := by
  have hgoing : Pass.Going identity embedder budget start (.start start) := Pass.going_start start
  have hover := fillFrom_over hkeyed hgoing
  constructor
  · intro hreports hspent
    have hend := fillFrom_answered hkeyed (fun call hcall =>
      hspent.answered call (lt_of_lt_of_le hcall (min_le_left _ _))) hgoing
    rcases hend with hcomplete | hreached
    · obtain ⟨hroom, hnil, hlast⟩ := hover.complete hcomplete
      rw [hlast.pending, drop_eq_nil_iff, hspent.pending] at hnil
      exact absurd hroom (Nat.not_lt.mpr hnil)
    · apply hreports.budgetReached hreached
      obtain ⟨hrequested, hlast⟩ := hover.spent hreached
      rw [hlast.pending, hrequested, drop_eq_nil_iff, hspent.pending]
  · intro hnot
    refine ⟨⟨fun hcomplete => ⟨hmatch, (hover.complete hcomplete).2.1⟩, fun ⟨_, hnil⟩ => ?_⟩,
      fun hreached hnil => hnot (hover.spentExactly hreached hnil)⟩
    by_contra hcomplete
    refine hover.undone hcomplete (fun hreached => ?_) hnil
    exact hnot (hover.spentExactly hreached hnil)

/-- A pass that is answered in full leaves fewer windows by its budget. -/
theorem pending_fillVectors (hkeyed : start.Keyed) (hderivable : start.Derivable)
    (hmatch : identity.matchesManifest models = true) (hbudget : 0 < budget)
    (hfully : AnswersFully identity embedder) :
    let last := (fillVectors identity embedder budget models start).1.index
    last.tables = start.tables ∧
      (pendingRows last identity).length ≤ (pendingRows start identity).length - budget := by
  have hgoing : Pass.Going identity embedder budget start (.start start) := Pass.going_start start
  have hover := fillFrom_over hkeyed hgoing
  have hrun : fillVectors identity embedder budget models start =
      fillFrom identity embedder budget (.start start) := by
    rw [fillVectors, if_neg (by rw [hmatch]; decide), if_neg (by omega)]
  have hend := fillFrom_answered hkeyed (fun call _ => ?_) hgoing
  · simp only [hrun]
    refine ⟨hover.tables, ?_⟩
    rcases hend with hcomplete | hreached
    · rw [(hover.complete hcomplete).2.1]
      exact Nat.zero_le _
    · obtain ⟨hrequested, hlast⟩ := hover.spent hreached
      rw [hlast.pending, length_drop, hrequested]
  · obtain ⟨batch, hderives⟩ := exists_mapM_eq_ok.mpr fun row
        (hrow : row ∈ callRows identity budget start call) =>
      hderivable row (mem_pendingRows.mp (mem_of_mem_drop (mem_of_mem_take hrow))).1
    exact ⟨batch, hderives, hfully call batch⟩

theorem pending_passes {embedders : Nat → Embedder} {budgets : Nat → Nat} (hkeyed : start.Keyed)
    (hderivable : start.Derivable) (hmatch : identity.matchesManifest models = true)
    (hbudgets : ∀ count, 0 < budgets count)
    (hfully : ∀ count, AnswersFully identity (embedders count)) (count : Nat) :
    (passes identity models embedders budgets start count).tables = start.tables ∧
      (pendingRows (passes identity models embedders budgets start count) identity).length ≤
        (pendingRows start identity).length - count := by
  induction count with
  | zero => exact ⟨rfl, Nat.le_refl _⟩
  | succ count ih =>
    obtain ⟨htables, hless⟩ := ih
    have hround := @pending_fillVectors _ identity (embedders count) (budgets count) models
      (passes identity models embedders budgets start count)
      ⟨htables ▸ hkeyed.keys, htables ▸ hkeyed.integers⟩
      (by unfold Index.Derivable; rw [htables]; exact hderivable) hmatch (hbudgets count)
      (hfully count)
    refine ⟨hround.1.trans htables, le_trans hround.2 ?_⟩
    have := hbudgets count
    omega

/-- Whatever the embedder does, a pass asks for no more than its budget and for no window twice,
and stores only the replies to calls that were answered in full.  Its report says what is left
unless the budget was just enough.  With an embedder that answers in full, repeated passes reach
every window. -/
theorem filling_reports_iff (hkeyed : start.Keyed) :
    let outcome := fillVectors identity embedder budget models start
    Safe identity embedder budget start outcome.1.index outcome.1 ∧
    (Reports identity models outcome.1.index outcome.2 ↔
      ¬ (identity.matchesManifest models = true ∧
        SpentExactly identity embedder budget start)) ∧
    (start.Derivable → identity.matchesManifest models = true →
      ∀ embedders budgets, (∀ count, 0 < budgets count) →
        (∀ count, AnswersFully identity (embedders count)) →
        ∃ count, pendingRows (passes identity models embedders budgets start count) identity = []) := by
  have hstart : Pass.Going identity embedder budget start (.start start) := Pass.going_start start
  refine ⟨?_, ?_, fun hderivable hmatch embedders budgets hbudgets hfully => ?_⟩
  · unfold fillVectors
    split
    · exact hstart.toFrom.safe hkeyed
    · split
      · exact hstart.toFrom.safe hkeyed
      · exact (fillFrom_over hkeyed hstart).toFrom.safe hkeyed
  · unfold fillVectors
    split
    · rename_i hmismatch
      rw [hmismatch]
      refine ⟨fun _ h => absurd h.1 (by decide), fun _ => ⟨?_, fun h => (by cases h)⟩⟩
      rw [hmismatch]
      exact ⟨fun h => (by cases h), fun h => absurd h.1 (by decide)⟩
    · rename_i hmatches
      rw [Bool.not_eq_false] at hmatches
      split
      · rename_i hzero
        subst hzero
        refine ⟨fun hreports h => ?_, fun hnot => ?_⟩
        · exact hreports.budgetReached rfl (List.length_eq_zero_iff.mp h.2.pending)
        · have hpending : pendingRows start identity ≠ [] := fun hnil =>
            hnot ⟨hmatches, by rw [hnil, List.length_nil], fun _ h => absurd h (Nat.not_lt_zero _)⟩
          exact ⟨⟨fun h => (by cases h), fun h => absurd h.2 hpending⟩, fun _ => hpending⟩
      · rw [reports_fillFrom hkeyed hmatches]
        exact not_congr (and_iff_right hmatches).symm
  · obtain ⟨-, hless⟩ := pending_passes hkeyed hderivable hmatch hbudgets hfully
      (pendingRows start identity).length
    exact ⟨_, List.length_eq_zero_iff.mp
      (Nat.eq_zero_of_le_zero (hless.trans (Nat.sub_self _).le))⟩

end Reports

/-! ## A budget that is just enough -/

section Sample

/-- An index with the one window of a meeting of one turn. -/
def oneWindow : Index where
  tables := {
    meeting := []
    turn := [⟨"standup", 0, some 0, false, "we ship"⟩]
    window := [⟨"standup", 0, 2, "we ship"⟩]
    segment := [⟨"standup", 0, 0, 0, 0, 7⟩] }
  vectors := []
  corpusDigest := none

def sampleIdentity : EmbedderIdentity where
  model := "minilm"
  revision := "1"
  tokenizerSha256 := "tokens"
  weightsSha256 := "weights"
  pooling := "mean"
  maxSequenceTokens := 256
  activation := "gelu"
  dimension := 2

def sampleModels : List (String × String) :=
  [(tokenizerModelId, "tokens"), (weightsModelId, "weights")]

/-- An embedder with one vector for everything. -/
def constantEmbedder : Embedder := fun _ _ => .ok fun _ => some [1, 0]

theorem oneWindow_keyed : oneWindow.Keyed := ⟨by decide, by decide⟩

theorem oneWindow_spent :
    let _ := plainDigest
    SpentExactly sampleIdentity constantEmbedder 1 oneWindow := by
  intro _
  refine ⟨rfl, fun call hcall => ⟨[⟨"standup", 0, "we ship", "we ship"⟩], ?_, _, rfl, ?_⟩⟩
  · have hfirst : call = 0 := by
      unfold windowsPerRequest at hcall
      omega
    subst hfirst
    rfl
  · exact fun _ _ => ⟨[1, 0], rfl, rfl⟩

/-- One window is pending and the budget is 1: the window gets its vector, and the report is that
the budget is reached. -/
theorem filling_reports_budget :
    let _ := plainDigest
    let outcome := fillVectors sampleIdentity constantEmbedder 1 sampleModels oneWindow
    ¬ Reports sampleIdentity sampleModels outcome.1.index outcome.2 := by
  intro _ outcome
  have hmatch : sampleIdentity.matchesManifest sampleModels = true := by decide
  have hrun : outcome = fillFrom sampleIdentity constantEmbedder 1 (.start oneWindow) := by
    change fillVectors _ _ _ _ _ = _
    rw [fillVectors, if_neg (by rw [hmatch]; decide), if_neg (by decide)]
  rw [hrun, reports_fillFrom oneWindow_keyed hmatch]
  exact fun hnot => hnot oneWindow_spent

theorem filling_reports_iff_one :
    let _ := plainDigest
    oneWindow.Keyed ∧
    let outcome := fillVectors sampleIdentity constantEmbedder 2 sampleModels oneWindow
    Safe sampleIdentity constantEmbedder 2 oneWindow outcome.1.index outcome.1 ∧
    (Reports sampleIdentity sampleModels outcome.1.index outcome.2 ↔
      ¬ (sampleIdentity.matchesManifest sampleModels = true ∧
        SpentExactly sampleIdentity constantEmbedder 2 oneWindow)) ∧
    (oneWindow.Derivable → sampleIdentity.matchesManifest sampleModels = true →
      ∀ embedders budgets, (∀ count, 0 < budgets count) →
        (∀ count, AnswersFully sampleIdentity (embedders count)) →
        ∃ count, pendingRows (passes sampleIdentity sampleModels embedders budgets oneWindow count)
          sampleIdentity = []) := by
  intro _
  exact ⟨oneWindow_keyed, filling_reports_iff oneWindow_keyed⟩

end Sample

end CorpusIndex

end YawnApp.SessionCore
