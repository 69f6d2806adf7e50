import YawnApp.Foundation.Keyed
import YawnApp.SessionCore.StorageFrames
import YawnApp.SessionCore.VocabularyOverlay

set_option autoImplicit false

/-!
# The vocabulary store

`add`, `edit`, `set_enabled` and `delete` load the document, change it in memory
and save it; `save` checks it again before it replaces the file.  Entries carry
the order they were created and last changed in, drawn from a counter that is
read off the document.  A document that the mutators wrote has its entries by
creation, so the sort of the validator, at the save and at the next load, leaves
it as it is.
-/

namespace YawnApp.SessionCore

open YawnApp.Foundation List

instance : Location VocabularyPlace where
  ancestors
    | .root => []
    | .file => [.root]
    | .temporary _ => [.root]

/-! ## The edits -/

/-- `next_order`. -/
def nextOrder (entries : List LocalVocabularyEntryWire) : Except LocalVocabularyError UInt64 :=
  let last := (entries.map fun entry => max entry.createdOrder entry.updatedOrder).foldl max 0
  if last.toNat + 1 < UInt64.size then .ok (last + 1) else .error (.malformed "ordering overflow")

/-- What `add` and `edit` ask of the two texts. -/
def checkPair (sourcePhrase preferredReplacement : String) : Except LocalVocabularyError Unit := do
  validateText sourcePhrase
  validateText preferredReplacement
  refuseIf (sourcePhrase = preferredReplacement) (.invalidEntry "source and replacement must differ")

/-- What `add` does to the document. -/
def editAdd (id : Uuid) (sourcePhrase preferredReplacement : String)
    (document : List LocalVocabularyEntryWire) :
    Except LocalVocabularyError (List LocalVocabularyEntryWire × Option LocalVocabularyEntryWire) := do
  refuseIf (document.length ≥ maxVocabularyEntries) .tooManyEntries
  refuseIf (∃ entry ∈ document, entry.sourcePhrase = sourcePhrase) .duplicateSourcePhrase
  let order ← nextOrder document
  let entry : LocalVocabularyEntryWire := {
    id, sourcePhrase, preferredReplacement
    enabled := true
    createdOrder := order
    updatedOrder := order }
  return (document ++ [entry], some entry)

/-- What `edit` does to the document. -/
def editEdit (id : Uuid) (sourcePhrase preferredReplacement : String)
    (document : List LocalVocabularyEntryWire) :
    Except LocalVocabularyError (List LocalVocabularyEntryWire × Option LocalVocabularyEntryWire) := do
  refuseIf (¬ ∃ entry ∈ document, entry.id = id) .notFound
  refuseIf (∃ entry ∈ document, entry.id ≠ id ∧ entry.sourcePhrase = sourcePhrase)
    .duplicateSourcePhrase
  let updatedOrder ← nextOrder document
  let edited := modifyKey LocalVocabularyEntryWire.id id
    (fun entry => { entry with sourcePhrase, preferredReplacement, updatedOrder }) document
  let result ← orRefuse (lookupKey LocalVocabularyEntryWire.id id edited) .notFound
  return (edited, some result)

/-- What `set_enabled` does to the document. -/
def editSetEnabled (id : Uuid) (enabled : Bool) (document : List LocalVocabularyEntryWire) :
    Except LocalVocabularyError (List LocalVocabularyEntryWire × Option LocalVocabularyEntryWire) := do
  let updatedOrder ← nextOrder document
  let edited := modifyKey LocalVocabularyEntryWire.id id
    (fun entry => { entry with enabled, updatedOrder }) document
  let result ← orRefuse (lookupKey LocalVocabularyEntryWire.id id edited) .notFound
  return (edited, some result)

/-- What `delete` does to the document. -/
def editDelete (id : Uuid) (document : List LocalVocabularyEntryWire) :
    Except LocalVocabularyError (List LocalVocabularyEntryWire × Option LocalVocabularyEntryWire) := do
  let kept := document.filter fun entry => entry.id ≠ id
  refuseIf (kept.length = document.length) .notFound
  return (kept, none)

/-! ## The mutators -/

section Mutators

variable {B : Type} [Platform B]

/-- `validate_file_metadata` of a file that is there. -/
def validateVocabularyFile (v : Volume VocabularyPlace B) : Except LocalVocabularyError Unit :=
  match v.node .file with
  | some (.file mode _) => refuseIf (permissions mode ≠ 0o600) .invalidPrivateStorage
  | _ => .error .invalidPrivateStorage

/-- `save`. -/
def saveVocabulary (nonce : Uuid) (entries : List LocalVocabularyEntryWire) :
    Durable (Volume VocabularyPlace B) LocalVocabularyError Unit := do
  Durable.inspect fun v => (requirePrivateDirectory v .root).mapError fun _ => .invalidPrivateStorage
  let entries ← Durable.lift (validateDocument entries)
  let bytes : B := toVecPretty (⟨.v1, entries⟩ : VocabularyDocument)
  Durable.lift (refuseIf (ByteString.size bytes > maxVocabularyDocumentBytes) .documentTooLarge)
  Durable.inspect fun v =>
    if (v.node .file).isSome then validateVocabularyFile v else .ok ()
  Durable.mapError (fun _ => .invalidPrivateStorage) (durableReplace .file (.temporary nonce) bytes)
  Durable.inspect validateVocabularyFile

/-- The shape of the four mutators after their check of the texts. -/
def mutateVocabulary (nonce : Uuid) (edit : List LocalVocabularyEntryWire →
    Except LocalVocabularyError (List LocalVocabularyEntryWire × Option LocalVocabularyEntryWire)) :
    Durable (Volume VocabularyPlace B) LocalVocabularyError (Option LocalVocabularyEntryWire) := do
  let document ← Durable.inspect loadVocabulary
  let (document, result) ← Durable.lift (edit document)
  saveVocabulary nonce document
  return result

/-- `LocalVocabularyStore::add`.  The identifier is drawn afresh, and so is the
name of the temporary file. -/
def addVocabulary (nonce id : Uuid) (sourcePhrase preferredReplacement : String) :
    Durable (Volume VocabularyPlace B) LocalVocabularyError (Option LocalVocabularyEntryWire) := do
  Durable.lift (checkPair sourcePhrase preferredReplacement)
  mutateVocabulary nonce (editAdd id sourcePhrase preferredReplacement)

/-- `LocalVocabularyStore::edit`. -/
def editVocabulary (nonce id : Uuid) (sourcePhrase preferredReplacement : String) :
    Durable (Volume VocabularyPlace B) LocalVocabularyError (Option LocalVocabularyEntryWire) := do
  Durable.lift (checkPair sourcePhrase preferredReplacement)
  mutateVocabulary nonce (editEdit id sourcePhrase preferredReplacement)

/-- `LocalVocabularyStore::set_enabled`, and with it `enable` and `disable`. -/
def setVocabularyEnabled (nonce id : Uuid) (enabled : Bool) :
    Durable (Volume VocabularyPlace B) LocalVocabularyError (Option LocalVocabularyEntryWire) :=
  mutateVocabulary nonce (editSetEnabled id enabled)

/-- `LocalVocabularyStore::delete`. -/
def deleteVocabulary (nonce id : Uuid) :
    Durable (Volume VocabularyPlace B) LocalVocabularyError (Option LocalVocabularyEntryWire) :=
  mutateVocabulary nonce (editDelete id)

end Mutators

inductive VocabularyCall where
  | add (nonce id : Uuid) (sourcePhrase preferredReplacement : String)
  | edit (nonce id : Uuid) (sourcePhrase preferredReplacement : String)
  | setEnabled (nonce id : Uuid) (enabled : Bool)
  | delete (nonce id : Uuid)

def VocabularyCall.program (B : Type) [Platform B] : VocabularyCall →
    Durable (Volume VocabularyPlace B) LocalVocabularyError (Option LocalVocabularyEntryWire)
  | .add nonce id source replacement => addVocabulary nonce id source replacement
  | .edit nonce id source replacement => editVocabulary nonce id source replacement
  | .setEnabled nonce id enabled => setVocabularyEnabled nonce id enabled
  | .delete nonce id => deleteVocabulary nonce id

/-- The states a call passes. -/
def VocabularyCall.states {B : Type} [Platform B] (call : VocabularyCall)
    (v : Volume VocabularyPlace B) : List (Volume VocabularyPlace B) :=
  ((call.program B).exec v).trace

/-- The store of a new installation: the storage root and nothing in it. -/
def emptyVocabulary (B : Type) : Volume VocabularyPlace B :=
  Volume.place ∅ .root (.directory 0o700)

/-! ## Valid documents -/

/-- What `validate_document` asks of a document. -/
structure DocumentValid (entries : List LocalVocabularyEntryWire) : Prop where
  count : entries.length ≤ maxVocabularyEntries
  texts : ∀ entry ∈ entries, checkPair entry.sourcePhrase entry.preferredReplacement = .ok ()
  ordering : ∀ entry ∈ entries, entry.createdOrder ≤ entry.updatedOrder
  ids : (entries.map LocalVocabularyEntryWire.id).Nodup
  sourcePhrases : (entries.map LocalVocabularyEntryWire.sourcePhrase).Nodup

theorem forall_mem_not_mem_cons {α β : Type} (f : α → β) (b : β) (l : List α) (seen : List β) :
    (∀ a ∈ l, f a ∉ b :: seen) ↔ (∀ a ∈ l, f a ≠ b) ∧ ∀ a ∈ l, f a ∉ seen := by
  simp only [mem_cons, not_or, forall_and]

theorem validateEntries_eq_ok (entries : List LocalVocabularyEntryWire) :
    ∀ (ids : List Uuid) (phrases : List String), validateEntries ids phrases entries = .ok () ↔
      ((∀ entry ∈ entries, checkPair entry.sourcePhrase entry.preferredReplacement = .ok ()) ∧
        ∀ entry ∈ entries, entry.createdOrder ≤ entry.updatedOrder) ∧
      ((entries.map LocalVocabularyEntryWire.id).Nodup ∧ ∀ entry ∈ entries, entry.id ∉ ids) ∧
      (entries.map LocalVocabularyEntryWire.sourcePhrase).Nodup ∧
        ∀ entry ∈ entries, entry.sourcePhrase ∉ phrases := by
  induction entries with
  | nil => simp [validateEntries]
  | cons entry rest ih =>
    intro ids phrases
    have hpair : (validateText entry.sourcePhrase = .ok () ∧
        validateText entry.preferredReplacement = .ok () ∧
        ¬ entry.sourcePhrase = entry.preferredReplacement) ↔
        checkPair entry.sourcePhrase entry.preferredReplacement = .ok () := by
      unfold checkPair
      simp only [check_bind_eq_ok, refuseIf_eq_ok]
    rw [validateEntries]
    simp only [check_bind_eq_ok, refuseIf_eq_ok, ih, forall_mem_cons, map_cons,
      nodup_cons, mem_map, not_exists, not_and, forall_mem_not_mem_cons, UInt64.not_lt,
      ← hpair]
    constructor
    · rintro ⟨hsource, hreplacement, hdiffer, hordering, hid, hphrase, ⟨htexts, horderings⟩,
        ⟨hids, hnewIds, holdIds⟩, hphrases, hnewPhrases, holdPhrases⟩
      exact ⟨⟨⟨⟨hsource, hreplacement, hdiffer⟩, htexts⟩, hordering, horderings⟩,
        ⟨⟨hnewIds, hids⟩, hid, holdIds⟩, ⟨hnewPhrases, hphrases⟩, hphrase, holdPhrases⟩
    · rintro ⟨⟨⟨⟨hsource, hreplacement, hdiffer⟩, htexts⟩, hordering, horderings⟩,
        ⟨⟨hnewIds, hids⟩, hid, holdIds⟩, ⟨hnewPhrases, hphrases⟩, hphrase, holdPhrases⟩
      exact ⟨hsource, hreplacement, hdiffer, hordering, hid, hphrase, ⟨htexts, horderings⟩,
        ⟨hids, hnewIds, holdIds⟩, hphrases, hnewPhrases, holdPhrases⟩

/-- The entries of a document, by the time they were created. -/
def ByCreation (entries : List LocalVocabularyEntryWire) : Prop :=
  entries.Pairwise fun a b => a.createdOrder < b.createdOrder

variable {entries : List LocalVocabularyEntryWire} {result : Option LocalVocabularyEntryWire}
  {id : Uuid}

/-- The sort leaves such a document as it is. -/
theorem mergeSort_of_byCreation (h : ByCreation entries) :
    entries.mergeSort (fun left right => (compareCreated left right).isLE) = entries := by
  refine mergeSort_of_pairwise (List.Pairwise.imp (fun {a b} hlt => ?_) h)
  have hcompare : compare a.createdOrder b.createdOrder = .lt := Std.compare_eq_lt.mpr hlt
  rw [compareCreated, hcompare]
  rfl

theorem validateDocument_eq_ok {sorted : List LocalVocabularyEntryWire} :
    validateDocument entries = .ok sorted ↔ DocumentValid entries ∧
      sorted = entries.mergeSort fun left right => (compareCreated left right).isLE := by
  unfold validateDocument
  simp only [check_bind_eq_ok, refuseIf_eq_ok, Nat.not_lt, validateEntries_eq_ok, pure, Except.pure,
    Except.ok.injEq]
  constructor
  · rintro ⟨hcount, ⟨⟨htexts, hordering⟩, ⟨hids, -⟩, hphrases, -⟩, rfl⟩
    exact ⟨⟨hcount, htexts, hordering, hids, hphrases⟩, rfl⟩
  · rintro ⟨hvalid, rfl⟩
    exact ⟨hvalid.count, ⟨⟨hvalid.texts, hvalid.ordering⟩, ⟨hvalid.ids, fun _ _ => not_mem_nil⟩,
      hvalid.sourcePhrases, fun _ _ => not_mem_nil⟩, rfl⟩

theorem validateDocument_of_byCreation (hvalid : DocumentValid entries) (h : ByCreation entries) :
    validateDocument entries = .ok entries :=
  validateDocument_eq_ok.mpr ⟨hvalid, (mergeSort_of_byCreation h).symm⟩

/-! ## What the edits keep -/

theorem le_maxOrder (a b : UInt64) : a ≤ max a b ∧ b ≤ max a b := by
  change a ≤ (if a ≤ b then b else a) ∧ b ≤ (if a ≤ b then b else a)
  split
  · exact ⟨‹_›, UInt64.le_refl _⟩
  · rename_i hle
    exact ⟨UInt64.le_refl _, UInt64.le_of_lt (UInt64.not_le.mp hle)⟩

theorem le_foldl_max (orders : List UInt64) :
    ∀ start : UInt64, start ≤ orders.foldl max start ∧
      ∀ order ∈ orders, order ≤ orders.foldl max start := by
  induction orders with
  | nil => exact fun start => ⟨UInt64.le_refl _, nofun⟩
  | cons order rest ih =>
    intro start
    obtain ⟨hstart, hrest⟩ := ih (max start order)
    refine ⟨UInt64.le_trans (le_maxOrder _ _).1 hstart, fun other hother => ?_⟩
    rcases mem_cons.mp hother with rfl | hmem
    · exact UInt64.le_trans (le_maxOrder _ _).2 hstart
    · exact hrest other hmem

/-- The next order is ahead of every entry. -/
theorem lt_nextOrder {order : UInt64} (h : nextOrder entries = .ok order) :
    ∀ entry ∈ entries, entry.createdOrder < order ∧ entry.updatedOrder < order := by
  unfold nextOrder at h
  generalize hlast : (entries.map fun entry => max entry.createdOrder entry.updatedOrder).foldl
    max 0 = last at h
  dsimp only at h
  split at h
  · rename_i hbound
    have hnext : last < last + 1 := by
      rw [UInt64.lt_iff_toNat_lt, UInt64.toNat_add]
      change last.toNat < (last.toNat + 1) % UInt64.size
      rw [Nat.mod_eq_of_lt hbound]
      exact Nat.lt_succ_self _
    cases h
    intro entry hentry
    have hle := (le_foldl_max _ 0).2 _ (mem_map_of_mem (f := fun entry =>
      max entry.createdOrder entry.updatedOrder) hentry)
    rw [hlast] at hle
    exact ⟨UInt64.lt_of_le_of_lt (UInt64.le_trans (le_maxOrder _ _).1 hle) hnext,
      UInt64.lt_of_le_of_lt (UInt64.le_trans (le_maxOrder _ _).2 hle) hnext⟩
  · cases h

/-- Identifier and order of creation, which an edit leaves alone. -/
def LocalVocabularyEntryWire.creation (entry : LocalVocabularyEntryWire) : Uuid × UInt64 :=
  (entry.id, entry.createdOrder)

/-- An edit leaves a document by creation, and an entry that was there before was
created when it was. -/
structure KeepsCreation (old new : List LocalVocabularyEntryWire) : Prop where
  byCreation : ByCreation new
  kept : ∀ entry ∈ new, ∀ before ∈ old, before.id = entry.id → before.creation = entry.creation

theorem eq_of_id (h : (entries.map LocalVocabularyEntryWire.id).Nodup)
    {a b : LocalVocabularyEntryWire} (ha : a ∈ entries) (hb : b ∈ entries) (hid : a.id = b.id) :
    a = b :=
  inj_on_of_nodup_map h ha hb hid

theorem KeepsCreation.of_sublist {old new : List LocalVocabularyEntryWire} (h : ByCreation old)
    (hids : (old.map LocalVocabularyEntryWire.id).Nodup)
    (hsub : (new.map LocalVocabularyEntryWire.creation).Sublist
      (old.map LocalVocabularyEntryWire.creation)) : KeepsCreation old new where
  byCreation := by
    have hold : (old.map LocalVocabularyEntryWire.creation).Pairwise fun a b => a.2 < b.2 :=
      pairwise_map.mpr h
    have hnew := hold.sublist hsub
    rw [pairwise_map] at hnew
    exact hnew
  kept entry hentry before hbefore hid := by
    obtain ⟨other, hother, heq⟩ := mem_map.mp (hsub.mem (mem_map_of_mem hentry))
    have hsame : other.id = entry.id := congrArg Prod.fst heq
    rw [eq_of_id hids hbefore hother (hid.trans hsame.symm)]
    exact heq

theorem editAdd_keeps {source replacement : String} {old new : List LocalVocabularyEntryWire}
    (h : editAdd id source replacement old = .ok (new, result)) (hold : ByCreation old)
    (hids : (new.map LocalVocabularyEntryWire.id).Nodup) : KeepsCreation old new := by
  unfold editAdd at h
  simp only [bind_eq_ok, pure, Except.pure, Except.ok.injEq, Prod.mk.injEq] at h
  obtain ⟨_, -, _, -, order, horder, rfl, -⟩ := h
  refine ⟨pairwise_append.mpr ⟨hold, pairwise_singleton _ _, fun a ha b hb => ?_⟩,
    fun entry hentry before hbefore hid => ?_⟩
  · rw [mem_singleton] at hb
    rw [hb]
    exact (lt_nextOrder horder a ha).1
  · exact congrArg _ (eq_of_id hids (mem_append_left _ hbefore) hentry hid)

/-- A change of one entry that leaves its creation alone. -/
theorem modifyKey_keeps {change : LocalVocabularyEntryWire → LocalVocabularyEntryWire}
    {old : List LocalVocabularyEntryWire}
    (hchange : ∀ entry, (change entry).creation = entry.creation) (hold : ByCreation old)
    (hids : (old.map LocalVocabularyEntryWire.id).Nodup) :
    KeepsCreation old (modifyKey LocalVocabularyEntryWire.id id change old) := by
  refine .of_sublist hold hids ?_
  rw [map_modifyKey hchange]

theorem editEdit_keeps {source replacement : String} {old new : List LocalVocabularyEntryWire}
    (h : editEdit id source replacement old = .ok (new, result)) (hold : ByCreation old)
    (hids : (old.map LocalVocabularyEntryWire.id).Nodup) : KeepsCreation old new := by
  unfold editEdit at h
  simp only [bind_eq_ok, pure, Except.pure, Except.ok.injEq, Prod.mk.injEq] at h
  obtain ⟨_, -, _, -, order, -, found, -, rfl, -⟩ := h
  exact modifyKey_keeps (fun _ => rfl) hold hids

theorem editSetEnabled_keeps {enabled : Bool} {old new : List LocalVocabularyEntryWire}
    (h : editSetEnabled id enabled old = .ok (new, result)) (hold : ByCreation old)
    (hids : (old.map LocalVocabularyEntryWire.id).Nodup) : KeepsCreation old new := by
  unfold editSetEnabled at h
  simp only [bind_eq_ok, pure, Except.pure, Except.ok.injEq, Prod.mk.injEq] at h
  obtain ⟨order, -, found, -, rfl, -⟩ := h
  exact modifyKey_keeps (fun _ => rfl) hold hids

theorem editDelete_keeps {old new : List LocalVocabularyEntryWire}
    (h : editDelete id old = .ok (new, result)) (hold : ByCreation old)
    (hids : (old.map LocalVocabularyEntryWire.id).Nodup) : KeepsCreation old new := by
  unfold editDelete at h
  simp only [check_bind_eq_ok, pure, Except.pure, Except.ok.injEq, Prod.mk.injEq] at h
  obtain ⟨-, rfl, -⟩ := h
  exact .of_sublist hold hids (filter_sublist.map _)

/-! ## The order of the entries -/

/-- The entry `a` stands before the entry `b`. -/
def ComesBefore (entries : List LocalVocabularyEntryWire) (a b : Uuid) : Prop :=
  [a, b].Sublist (entries.map LocalVocabularyEntryWire.id)

/-- In a document by creation, what stands before was created before. -/
theorem comesBefore_iff (h : ByCreation entries) {x y : LocalVocabularyEntryWire}
    (hids : (entries.map LocalVocabularyEntryWire.id).Nodup) (hx : x ∈ entries) (hy : y ∈ entries) :
    ComesBefore entries x.id y.id ↔ x.createdOrder < y.createdOrder := by
  unfold ComesBefore
  constructor
  · intro hsub
    obtain ⟨pair, hpair, heq⟩ := sublist_map_iff.mp hsub
    obtain ⟨a, rest, rfl, ha, hrest⟩ := map_eq_cons_iff.mp heq.symm
    obtain ⟨b, rest, rfl, hb, hrest⟩ := map_eq_cons_iff.mp hrest
    obtain rfl := map_eq_nil_iff.mp hrest
    have hax := eq_of_id hids (hpair.mem mem_cons_self) hx ha
    have hby := eq_of_id hids (hpair.mem (by simp)) hy hb
    have hlt := pairwise_iff_forall_sublist.mp h hpair
    rwa [hax, hby] at hlt
  · intro hlt
    obtain ⟨front, back, rfl⟩ := append_of_mem hx
    suffices hsub : List.Sublist [x, y] (front ++ x :: back) from hsub.map _
    rcases mem_append.mp hy with hfront | hback
    · have hgt := (pairwise_append.mp h).2.2 y hfront x mem_cons_self
      exact absurd hgt (UInt64.lt_asymm hlt)
    · rcases mem_cons.mp hback with rfl | hmem
      · exact absurd hlt (UInt64.lt_irrefl _)
      · exact ((singleton_sublist.mpr hmem).cons_cons x).trans (sublist_append_right _ _)

theorem KeepsCreation.comesBefore {old new : List LocalVocabularyEntryWire}
    (h : KeepsCreation old new) (hold : ByCreation old)
    (hids : (old.map LocalVocabularyEntryWire.id).Nodup)
    (hids' : (new.map LocalVocabularyEntryWire.id).Nodup) {a b : Uuid}
    (ha : a ∈ old.map LocalVocabularyEntryWire.id) (ha' : a ∈ new.map LocalVocabularyEntryWire.id)
    (hb : b ∈ old.map LocalVocabularyEntryWire.id) (hb' : b ∈ new.map LocalVocabularyEntryWire.id) :
    ComesBefore old a b ↔ ComesBefore new a b := by
  obtain ⟨x, hx, rfl⟩ := mem_map.mp ha
  obtain ⟨x', hx', hxid⟩ := mem_map.mp ha'
  obtain ⟨y, hy, rfl⟩ := mem_map.mp hb
  obtain ⟨y', hy', hyid⟩ := mem_map.mp hb'
  have hxorder := congrArg Prod.snd (h.kept x' hx' x hx hxid.symm)
  have hyorder := congrArg Prod.snd (h.kept y' hy' y hy hyid.symm)
  have hnew := comesBefore_iff h.byCreation hids' hx' hy'
  rw [hxid, hyid] at hnew
  rw [comesBefore_iff hold hids hx hy, hnew]
  exact iff_of_eq (congrArg₂ _ hxorder hyorder)

/-! ## The file -/

section Stored

variable {B : Type} [Platform B] {v t : Volume VocabularyPlace B}
  {old new : List LocalVocabularyEntryWire}

/-- The store holds these entries: it has no document, or one that a save
wrote. -/
structure StoredVocabulary (v : Volume VocabularyPlace B) (entries : List LocalVocabularyEntryWire) :
    Prop where
  isPrivate : requirePrivateDirectory v .root = .ok ()
  file : v.node .file = none ∧ entries = [] ∨
    v.node .file = some (.file 0o600 (toVecPretty (⟨.v1, entries⟩ : VocabularyDocument))) ∧
      ByteString.size (toVecPretty (⟨.v1, entries⟩ : VocabularyDocument) : B) ≤
        maxVocabularyDocumentBytes
  valid : DocumentValid entries
  byCreation : ByCreation entries

theorem documentValid_nil : DocumentValid [] :=
  ⟨Nat.zero_le _, nofun, nofun, nodup_nil, nodup_nil⟩

theorem storedVocabulary_empty : StoredVocabulary (emptyVocabulary B) [] where
  isPrivate := requirePrivateDirectory_eq_ok.mpr ⟨0o700, Volume.node_place_self .., rfl⟩
  file := .inl ⟨Volume.node_place_of_ne _ VocabularyPlace.noConfusion, rfl⟩
  valid := documentValid_nil
  byCreation := List.Pairwise.nil

/-- What is stored is read. -/
theorem StoredVocabulary.load (h : StoredVocabulary v old) : loadVocabulary v = .ok old := by
  unfold loadVocabulary
  rw [check_bind_eq_ok]
  refine ⟨mapError_eq_ok.mpr h.isPrivate, ?_⟩
  rcases h.file with ⟨hnone, rfl⟩ | ⟨hfile, hsize⟩
  · rw [hnone]
    rfl
  · rw [hfile]
    dsimp only
    rw [check_bind_eq_ok, check_bind_eq_ok, bind_eq_ok]
    refine ⟨refuseIf_of_not (by decide), refuseIf_of_not (Nat.not_lt.mpr hsize), ⟨.v1, old⟩, ?_, ?_⟩
    · rw [fromSlice_toVecPretty, orRefuse_some]
    · exact validateDocument_of_byCreation h.valid h.byCreation

theorem KeepsCreation.refl (hvalid : DocumentValid old) (h : ByCreation old) : KeepsCreation old old :=
  .of_sublist h hvalid.ids (List.Sublist.refl _)

/-- The store after a step of a mutator. -/
def VocabularyStep (old : List LocalVocabularyEntryWire) (t : Volume VocabularyPlace B) : Prop :=
  ∃ new, StoredVocabulary t new ∧ KeepsCreation old new

theorem StoredVocabulary.step (h : StoredVocabulary v old) : VocabularyStep old v :=
  ⟨old, h, .refl h.valid h.byCreation⟩

omit [Platform B] in
/-- A private directory keeps being one. -/
theorem isPrivate_of_frame {touched : VocabularyPlace → Prop} (h : Frame touched v t)
    (hroot : ¬ touched .root) (hprivate : requirePrivateDirectory v .root = .ok ()) :
    requirePrivateDirectory t .root = .ok () := by
  obtain ⟨mode, hnode, hmode⟩ := requirePrivateDirectory_eq_ok.mp hprivate
  obtain ⟨mode', hnode', hmode'⟩ := h.directory hroot hnode
  refine requirePrivateDirectory_eq_ok.mpr ⟨mode', hnode', ?_⟩
  rcases hmode' with rfl | rfl
  · exact hmode
  · rfl

theorem saveVocabulary_meets (h : StoredVocabulary v old) (nonce : Uuid)
    (hkeeps : DocumentValid new → KeepsCreation old new) :
    Meets (saveVocabulary nonce new) v (VocabularyStep old)
      (fun _ t => VocabularyStep old t)
      (fun _ t => StoredVocabulary t old ∧ t.node .file = v.node .file) := by
  have hsame : StoredVocabulary v old ∧ v.node .file = v.node .file := ⟨h, rfl⟩
  unfold saveVocabulary
  refine Meets.bind_inspect (fun _ _ => ?_) fun _ _ => hsame
  refine Meets.bind_lift (fun sorted hsorted => ?_) fun _ _ => hsame
  obtain ⟨hvalid, hsort⟩ := validateDocument_eq_ok.mp hsorted
  have hcreation := hkeeps hvalid
  rw [mergeSort_of_byCreation hcreation.byCreation] at hsort
  subst hsort
  refine Meets.bind_lift (fun _ hsize => ?_) fun _ _ => hsame
  rw [refuseIf_eq_ok, Nat.not_lt] at hsize
  refine Meets.bind_inspect (fun _ _ => ?_) fun _ _ => hsame
  have hname : NamedIn (VocabularyPlace.root) .file :=
    ⟨rfl, not_mem_nil, VocabularyPlace.noConfusion⟩
  have htarget := durableReplace_target (B := B)
    (toVecPretty (⟨.v1, sorted⟩ : VocabularyDocument)) hname
    (show VocabularyPlace.file ≠ .temporary nonce from VocabularyPlace.noConfusion) v
  have hmoves : Moves (Frame fun p => p = VocabularyPlace.file ∨ p = .temporary nonce)
      (durableReplace VocabularyPlace.file (.temporary nonce)
        (toVecPretty (B := B) (⟨.v1, sorted⟩ : VocabularyDocument))) :=
    durableReplace_moves _ (.inl rfl) (.inr rfl)
  have hframe := hmoves.meets (s := v) Frame.refl fun _ h => h
  have hroot : ∀ u : Volume VocabularyPlace B,
      Frame (fun p => p = VocabularyPlace.file ∨ p = .temporary nonce) v u →
        requirePrivateDirectory u .root = .ok () := fun u hu =>
    isPrivate_of_frame hu (by simp) h.isPrivate
  -- the document before the rename, and after it
  have hold : ∀ u : Volume VocabularyPlace B,
      Frame (fun p => p = VocabularyPlace.file ∨ p = .temporary nonce) v u →
        u.node .file = v.node .file → StoredVocabulary u old := fun u hu hfile =>
    ⟨hroot u hu, hfile ▸ h.file, h.valid, h.byCreation⟩
  have hnew : ∀ u : Volume VocabularyPlace B,
      Frame (fun p => p = VocabularyPlace.file ∨ p = .temporary nonce) v u →
        u.node .file = some (.file 0o600 (toVecPretty (⟨.v1, sorted⟩ : VocabularyDocument))) →
        StoredVocabulary u sorted := fun u hu hfile =>
    ⟨hroot u hu, .inr ⟨hfile, hsize⟩, hvalid, hcreation.byCreation⟩
  refine Meets.bind (Meets.mapError ((htarget.and hframe).mono (fun u hu => ?_) (fun _ u hu => ?_)
    fun _ u hu => ?_))
  · rcases hu.1 with hfile | hfile
    · exact (hold u hu.2 hfile).step.elim fun found hfound => ⟨found, hfound.1, hfound.2⟩
    · exact ⟨sorted, hnew u hu.2 hfile, hcreation⟩
  · refine Meets.inspect (fun _ _ => ⟨sorted, hnew u hu.2 hu.1, hcreation⟩) fun e he => ?_
    unfold validateVocabularyFile at he
    rw [hu.1] at he
    dsimp only at he
    rw [refuseIf_of_not (by decide)] at he
    cases he
  · exact ⟨hold u hu.2 hu.1, hu.1⟩

theorem mutateVocabulary_meets (h : StoredVocabulary v old) (nonce : Uuid)
    {edit : List LocalVocabularyEntryWire → Except LocalVocabularyError
      (List LocalVocabularyEntryWire × Option LocalVocabularyEntryWire)}
    (hedit : ∀ new result, edit old = .ok (new, result) → DocumentValid new → KeepsCreation old new) :
    Meets (mutateVocabulary nonce edit) v (VocabularyStep old) (fun _ t => VocabularyStep old t)
      (fun _ t => StoredVocabulary t old ∧ t.node .file = v.node .file) := by
  have hsame : StoredVocabulary v old ∧ v.node .file = v.node .file := ⟨h, rfl⟩
  unfold mutateVocabulary
  refine Meets.bind_inspect (fun document hdocument => ?_) fun _ _ => hsame
  rw [h.load, Except.ok.injEq] at hdocument
  subst hdocument
  refine Meets.bind_lift (fun found hfound => ?_) fun _ _ => hsame
  obtain ⟨new, result⟩ := found
  exact (saveVocabulary_meets h nonce (hedit new result hfound)).seq fun _ _ ht => Meets.pure ht

/-- Each of the four mutators. -/
theorem VocabularyCall.meets (call : VocabularyCall) (h : StoredVocabulary v old) :
    Meets (call.program B) v (VocabularyStep old) (fun _ t => VocabularyStep old t)
      (fun _ t => StoredVocabulary t old ∧ t.node .file = v.node .file) := by
  have hsame : StoredVocabulary v old ∧ v.node .file = v.node .file := ⟨h, rfl⟩
  cases call with
  | add nonce =>
    exact Meets.bind_lift (fun _ _ => mutateVocabulary_meets h nonce fun _ _ hedit hnew =>
      editAdd_keeps hedit h.byCreation hnew.ids) fun _ _ => hsame
  | edit nonce =>
    exact Meets.bind_lift (fun _ _ => mutateVocabulary_meets h nonce fun _ _ hedit _ =>
      editEdit_keeps hedit h.byCreation h.valid.ids) fun _ _ => hsame
  | setEnabled nonce =>
    exact mutateVocabulary_meets h nonce fun _ _ hedit _ =>
      editSetEnabled_keeps hedit h.byCreation h.valid.ids
  | delete nonce =>
    exact mutateVocabulary_meets h nonce fun _ _ hedit _ =>
      editDelete_keeps hedit h.byCreation h.valid.ids

end Stored

/-! ## Runs -/

section Runs

variable {B : Type} [Platform B]

/-- The entry `a` is in the document all along a run. -/
def StaysIn (a : Uuid) (v : Volume VocabularyPlace B) (attempts : List (VocabularyCall × Nat)) : Prop :=
  ∀ t ∈ v :: history VocabularyCall.states v attempts, ∀ entries, loadVocabulary t = .ok entries →
    a ∈ entries.map LocalVocabularyEntryWire.id

/-- What a run of the mutators leaves. -/
structure VocabularySafe (v : Volume VocabularyPlace B) : Prop where
  /-- The document, if there is one, is one that `validate_document` lets pass, and
  the next order is ahead of all its entries. -/
  stored : ∃ entries, loadVocabulary v = .ok entries ∧
    (v.node .file = none ∧ entries = [] ∨ ∃ bytes, v.node .file = some (.file 0o600 bytes) ∧
      fromSlice bytes = some (⟨.v1, entries⟩ : VocabularyDocument)) ∧
    validateDocument entries = .ok entries ∧ entries.length ≤ maxVocabularyEntries ∧
    (entries.map LocalVocabularyEntryWire.id).Nodup ∧
    (entries.map LocalVocabularyEntryWire.sourcePhrase).Nodup ∧
    (∀ entry ∈ entries, entry.createdOrder ≤ entry.updatedOrder) ∧
    ∀ order, nextOrder entries = .ok order →
      ∀ entry ∈ entries, entry.createdOrder < order ∧ entry.updatedOrder < order
  /-- A call that is refused leaves the document as it was. -/
  refused : ∀ (call : VocabularyCall) (e : LocalVocabularyError),
    ((call.program B).exec v).result = .error e →
      (((call.program B).exec v).final v).node .file = v.node .file ∧
        loadVocabulary (((call.program B).exec v).final v) = loadVocabulary v
  /-- Two entries that stay in the document stay in their order. -/
  order : ∀ (attempts : List (VocabularyCall × Nat)) (a b : Uuid)
      (entries entries' : List LocalVocabularyEntryWire),
    StaysIn a v attempts → StaysIn b v attempts → loadVocabulary v = .ok entries →
      loadVocabulary (run VocabularyCall.states v attempts) = .ok entries' →
        (ComesBefore entries a b ↔ ComesBefore entries' a b)

variable {v : Volume VocabularyPlace B}

/-- One call, stopped anywhere. -/
theorem cut_step {old : List LocalVocabularyEntryWire} (h : StoredVocabulary v old)
    (attempt : VocabularyCall × Nat) :
    VocabularyStep old (cut VocabularyCall.states v attempt) :=
  (attempt.1.meets h).cut h.step attempt.2

theorem comesBefore_run {a b : Uuid} (attempts : List (VocabularyCall × Nat)) :
    ∀ {v : Volume VocabularyPlace B} {old : List LocalVocabularyEntryWire},
      StoredVocabulary v old → StaysIn a v attempts → StaysIn b v attempts →
        ∃ new, StoredVocabulary (run VocabularyCall.states v attempts) new ∧
          (ComesBefore old a b ↔ ComesBefore new a b) := by
  induction attempts with
  | nil => exact fun h _ _ => ⟨_, h, Iff.rfl⟩
  | cons attempt rest ih =>
    intro v old h ha hb
    obtain ⟨middle, hmiddle, hkeeps⟩ := cut_step h attempt
    -- the state the first call leaves is one of those the run passes
    have hlater : ∀ t ∈ cut VocabularyCall.states v attempt ::
        history VocabularyCall.states (cut VocabularyCall.states v attempt) rest,
        t ∈ v :: history VocabularyCall.states v (attempt :: rest) := by
      intro t ht
      rw [history]
      rcases mem_cons.mp ht with rfl | hmem
      · exact cons_subset_cons v (subset_append_left _ _) getLastD_mem_cons
      · exact mem_cons_of_mem _ (mem_append_right _ hmem)
    obtain ⟨new, hnew, hiff⟩ := ih hmiddle (fun t ht => ha t (hlater t ht))
      fun t ht => hb t (hlater t ht)
    refine ⟨new, hnew, Iff.trans ?_ hiff⟩
    exact hkeeps.comesBefore h.byCreation h.valid.ids hmiddle.valid.ids
      (ha v mem_cons_self old h.load) (ha _ (hlater _ mem_cons_self) middle hmiddle.load)
      (hb v mem_cons_self old h.load) (hb _ (hlater _ mem_cons_self) middle hmiddle.load)

theorem StoredVocabulary.safe {entries : List LocalVocabularyEntryWire}
    (h : StoredVocabulary v entries) : VocabularySafe v where
  stored := by
    refine ⟨entries, h.load, ?_, validateDocument_of_byCreation h.valid h.byCreation, h.valid.count,
      h.valid.ids, h.valid.sourcePhrases, h.valid.ordering, fun _ horder => lt_nextOrder horder⟩
    exact h.file.imp_right fun hfile => ⟨_, hfile.1, fromSlice_toVecPretty _⟩
  refused call e he := by
    obtain ⟨hstored, hfile⟩ := (call.meets h).error e he
    exact ⟨hfile, hstored.load.trans h.load.symm⟩
  order attempts a b old new ha hb hold hnew := by
    obtain ⟨found, hfound, hiff⟩ := comesBefore_run attempts h ha hb
    rw [h.load, Except.ok.injEq] at hold
    rw [hfound.load, Except.ok.injEq] at hnew
    rwa [← hold, ← hnew]

/-- From the empty store every run of the mutators, each stopped anywhere, keeps
the vocabulary. -/
theorem vocabulary_run (attempts : List (VocabularyCall × Nat)) :
    VocabularySafe (run VocabularyCall.states (emptyVocabulary B) attempts) := by
  have hstored : ∃ entries, StoredVocabulary
      (run VocabularyCall.states (emptyVocabulary B) attempts) entries := by
    refine run_invariant_of_cut VocabularyCall.states (I := fun v => ∃ entries,
      StoredVocabulary v entries) (fun v attempt hv => ?_) attempts _ ⟨[], storedVocabulary_empty⟩
    obtain ⟨old, hold⟩ := hv
    obtain ⟨new, hnew, -⟩ := cut_step hold attempt
    exact ⟨new, hnew⟩
  obtain ⟨entries, hentries⟩ := hstored
  exact hentries.safe

end Runs

end YawnApp.SessionCore
