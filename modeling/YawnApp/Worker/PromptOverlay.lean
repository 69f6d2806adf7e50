import YawnApp.SessionCore.VocabularyOverlay

set_option autoImplicit false

/-!
# The prompt overlay

The vocabulary replacements of a note request are checked by the note bridge, checked
by the worker's contract and bound to the transcript by `PromptOverlay.from_transport`,
which the note generator then renders from.  A range counts Unicode scalars, as a
Python `str` does.

A Python `str` may hold surrogates and a `Char` may not, so that of the categories
`Cc` and `Cs` the first is left to test.
-/

namespace YawnApp.Worker

open YawnApp.Foundation YawnApp.SessionCore List

/-! ## The two validators -/

/-- The tuple of turn and range. -/
structure Position where
  turn : Nat
  charStart : Nat
  charEnd : Nat
deriving DecidableEq

/-- `<` of the tuples. -/
def Position.before (a b : Position) : Bool :=
  a.turn < b.turn || (a.turn == b.turn && (a.charStart < b.charStart ||
    (a.charStart == b.charStart && a.charEnd < b.charEnd)))

def overlayKeys : List String :=
  ["turn", "char_start", "char_end", "source_sha256", "replacement"]

/-- What one validator of the overlay has for itself: the keys an entry may have, and
the texts of its refusals. -/
structure OverlayContract where
  shape : List String → Bool
  tooMany : String
  wrongShape : String
  invalid : String
  digest : String
  order : String

/-- The body of the loop of a validator, with the position before. -/
def OverlayContract.validateEntry (contract : OverlayContract) (previous : Option Position)
    (value : Value) : Except String Position :=
  match value with
  | .object fields => do
    refuseIf (¬ contract.shape (fields.map Prod.fst)) contract.wrongShape
    match value.get "turn", value.get "char_start", value.get "char_end",
        value.get "replacement" with
    | some (.natural turn), some (.natural start), some (.natural stop), some (.string text) => do
      refuseIf (turn > 0xFFFFFFFF ∨ stop ≤ start ∨ text = "" ∨ text.utf8ByteSize > 512 ∨
        text.toList.any isControl) contract.invalid
      refuseIf (¬ ((value.get "source_sha256").bind Value.asStr).any validSha256) contract.digest
      refuseIf (previous.any fun prior => !prior.before ⟨turn, start, stop⟩) contract.order
      return ⟨turn, start, stop⟩
    | _, _, _, _ => .error contract.invalid
  | _ => .error contract.wrongShape

def OverlayContract.validateEntries (contract : OverlayContract) :
    Option Position → List Value → Except String Unit
  | _, [] => .ok ()
  | previous, value :: rest => do
    let position ← contract.validateEntry previous value
    contract.validateEntries (some position) rest

def OverlayContract.validate (contract : OverlayContract) (value : Value) : Except String Unit :=
  match value with
  | .array entries => do
    refuseIf (entries.length > 64) contract.tooMany
    contract.validateEntries none entries
  | _ => .error contract.tooMany

/-- `_validate_vocabulary_replacements` (`note_bridge.py`): the keys in their order. -/
def noteBridge : OverlayContract where
  shape names := names == overlayKeys
  tooMany := "vocabulary overlay has too many replacements"
  wrongShape := "vocabulary overlay entry has the wrong shape"
  invalid := "vocabulary overlay is invalid"
  digest := "vocabulary overlay source digest is not a lowercase SHA-256 digest"
  order := "vocabulary overlay replacements are not source ordered"

/-- `validate_vocabulary_replacements` (`product_contracts.py`): the keys in any order. -/
def productContract : OverlayContract where
  shape names := names.all (· ∈ overlayKeys) && overlayKeys.all (· ∈ names)
  tooMany := "vocabulary overlay has too many replacements"
  wrongShape := "vocabulary overlay entry does not match the closed schema"
  invalid := "vocabulary overlay replacement is invalid"
  digest := "vocabulary overlay source digest must be a lowercase SHA-256 digest"
  order := "vocabulary overlay replacements are not source ordered"

/-! ## The overlay -/

/-- A replacement that is bound to its turn. -/
structure OverlayItem where
  charStart : Nat
  charEnd : Nat
  replacement : List Char
deriving DecidableEq

/-- The item lies wholly inside the span. -/
def OverlayItem.inside (item : OverlayItem) (start stop : Nat) : Bool :=
  start ≤ item.charStart && item.charEnd ≤ stop

/-- Where the item lies and what stands for it. -/
def OverlayItem.edit (item : OverlayItem) : Nat × Nat × List Char :=
  (item.charStart, item.charEnd, item.replacement)

/-- `PromptOverlay`, without the labels of the speakers. -/
structure PromptOverlay where
  turns : List (List Char)
  replacements : Nat → List OverlayItem

namespace PromptOverlay

section Transport

variable (B : Type) [Platform B] [TextBytes B]

def invalidRange : String := "vocabulary overlay source range is invalid"

/-- The body of the loop of `from_transport`, with the position before. -/
def bindEntry (turns : List (List Char)) (previous : Option Position) (value : Value) :
    Except String (Position × OverlayItem) := do
  refuseIf (¬ value.isObject) "vocabulary overlay entry is invalid"
  match value.get "turn", value.get "char_start", value.get "char_end", value.get "source_sha256",
      value.get "replacement" with
  | some (.natural turn), some (.natural start), some (.natural stop), some (.string sourceSha256),
      some (.string replacement) => do
    refuseIf (¬ validSha256 sourceSha256 ∨ replacement = "" ∨ replacement.utf8ByteSize > 512 ∨
      replacement.toList.any isControl) invalidRange
    refuseIf (¬ turn < turns.length) invalidRange
    refuseIf (¬ (start < stop ∧ stop ≤ (turns.getD turn []).length)) invalidRange
    refuseIf (previous.any fun prior => !prior.before ⟨turn, start, stop⟩) invalidRange
    refuseIf (previous.any fun prior => prior.turn == turn && decide (start < prior.charEnd))
      invalidRange
    refuseIf (textSha256 B (((turns.getD turn []).drop start).take (stop - start)) ≠ sourceSha256)
      "vocabulary overlay source is stale"
    return (⟨turn, start, stop⟩, ⟨start, stop, replacement.toList⟩)
  | _, _, _, _, _ => .error invalidRange

/-- The loop of `from_transport`, with the items of each turn so far. -/
def bindAll (turns : List (List Char)) :
    Option Position → (Nat → List OverlayItem) → List Value → Except String (Nat → List OverlayItem)
  | _, byTurn, [] => .ok byTurn
  | previous, byTurn, value :: rest => do
    let (position, item) ← bindEntry B turns previous value
    bindAll turns (some position)
      (fun turn => if turn = position.turn then byTurn turn ++ [item] else byTurn turn) rest

/-- `PromptOverlay.from_transport`. -/
def fromTransport (turns : List (List Char)) (vocabularyReplacements : List Value) :
    Except String PromptOverlay := do
  let replacements ← bindAll B turns none (fun _ => []) vocabularyReplacements
  return ⟨turns, replacements⟩

end Transport

/-- The loop of `text`, and the end of the span behind it. -/
def render (source : List Char) (start stop : Nat) : Nat → List OverlayItem → List Char
  | cursor, [] => (source.drop cursor).take (stop - cursor)
  | cursor, item :: rest =>
    if item.charStart < start ∨ item.charEnd > stop then render source start stop cursor rest
    else
      (source.drop cursor).take (item.charStart - cursor) ++ item.replacement ++
        render source start stop item.charEnd rest

/-- `PromptOverlay.text`. -/
def text (overlay : PromptOverlay) (turn start stop : Nat) : Except String (List Char) := do
  let source ← orRefuse overlay.turns[turn]? "list index out of range"
  refuseIf (¬ (start ≤ stop ∧ stop ≤ source.length)) "prompt span is outside the source turn"
  return render source start stop start (overlay.replacements turn)

end PromptOverlay

/-! ## What Rust writes is admitted -/

theorem get_toValue (r : VocabularyRangeReplacement) :
    (Serde.toValue r).get "turn" = some (.natural r.turn.toNat) ∧
    (Serde.toValue r).get "char_start" = some (.natural r.charStart.toNat) ∧
    (Serde.toValue r).get "char_end" = some (.natural r.charEnd.toNat) ∧
    (Serde.toValue r).get "source_sha256" = some (.string r.sourceSha256) ∧
    (Serde.toValue r).get "replacement" = some (.string r.replacement) :=
  ⟨rfl, rfl, rfl, rfl, rfl⟩

def positionOf (r : VocabularyRangeReplacement) : Position :=
  ⟨r.turn.toNat, r.charStart.toNat, r.charEnd.toNat⟩

/-- What the coordinator checks of one replacement behind another. -/
structure Admitted (previous : Option VocabularyRangeReplacement) (r : VocabularyRangeReplacement) :
    Prop where
  range : r.charStart.toNat < r.charEnd.toNat
  replacement : ¬ (r.replacement = "" ∨ r.replacement.utf8ByteSize > 512 ∨
    r.replacement.toList.any isControl = true)
  digest : validSha256 r.sourceSha256 = true
  order : ∀ prior, previous = some prior → (positionOf prior).before (positionOf r) = true
  apart : ∀ prior, previous = some prior → prior.turn.toNat = r.turn.toNat →
    prior.charEnd.toNat ≤ r.charStart.toNat

variable {previous : Option VocabularyRangeReplacement} {contract : OverlayContract}

theorem admitted_of_valid {r : VocabularyRangeReplacement} {rest : List VocabularyRangeReplacement}
    (h : vocabularyRangeReplacementsFrom previous (r :: rest) = true) :
    Admitted previous r ∧ vocabularyRangeReplacementsFrom (some r) rest = true := by
  unfold vocabularyRangeReplacementsFrom at h
  simp only [Bool.and_eq_true, decide_eq_true_eq, bne_iff_ne, Bool.not_eq_true'] at h
  obtain ⟨⟨⟨⟨⟨⟨hrange, hempty⟩, hsize⟩, hcontrol⟩, hdigest⟩, hprevious⟩, hrest⟩ := h
  refine ⟨⟨hrange, ?_, hdigest, ?_, ?_⟩, hrest⟩
  · rintro (h | h | h)
    · exact hempty h
    · omega
    · rw [hcontrol] at h
      cases h
  · rintro prior rfl
    have hprior := hprevious
    simp only [Option.all_some, Bool.and_eq_true, decide_eq_true_eq] at hprior
    unfold Position.before positionOf
    simp only [Bool.or_eq_true, Bool.and_eq_true, decide_eq_true_eq, beq_iff_eq]
    simp only [UInt32.lt_iff_toNat_lt, ← UInt32.toNat_inj] at hprior
    exact hprior.1
  · rintro prior rfl hturn
    have hprior := hprevious
    simp only [Option.all_some, Bool.and_eq_true, Bool.not_eq_true', Bool.and_eq_false_iff,
      beq_eq_false_iff_ne, decide_eq_false_iff_not, UInt32.not_lt] at hprior
    rcases hprior.2 with hne | hle
    · exact absurd (UInt32.toNat_inj.mp hturn) hne
    · exact hle

theorem validateEntry_toValue (hshape : contract.shape overlayKeys = true)
    {r : VocabularyRangeReplacement} (h : Admitted previous r) :
    contract.validateEntry (previous.map positionOf) (Serde.toValue r) = .ok (positionOf r) := by
  obtain ⟨hturn, hstart, hstop, hdigest, hreplacement⟩ := get_toValue r
  have hbound := r.turn.toNat_lt
  have hinvalid : ¬ (r.turn.toNat > 0xFFFFFFFF ∨ r.charEnd.toNat ≤ r.charStart.toNat ∨
      r.replacement = "" ∨ r.replacement.utf8ByteSize > 512 ∨
        r.replacement.toList.any isControl = true) := by
    rintro (h' | h' | h')
    · omega
    · exact absurd h.range (Nat.not_lt.mpr h')
    · exact h.replacement h'
  have horder : ¬ ((previous.map positionOf).any fun prior => !prior.before (positionOf r)) = true := by
    intro hany
    obtain ⟨position, hposition, hbefore⟩ := (Option.any_eq_true _ _).mp hany
    obtain ⟨prior, hprior, rfl⟩ := Option.map_eq_some_iff.mp hposition
    rw [h.order prior hprior] at hbefore
    cases hbefore
  change (do
    refuseIf (¬ contract.shape overlayKeys = true) contract.wrongShape
    _) = _
  rw [refuseIf_of_not (not_not.mpr hshape), ok_bind]
  simp only [hturn, hstart, hstop, hdigest, hreplacement]
  rw [refuseIf_of_not hinvalid, ok_bind, refuseIf_of_not (by simp [Value.asStr, h.digest]), ok_bind]
  exact congrArg (· >>= _) (refuseIf_of_not horder)

theorem validateEntries_toValue (hshape : contract.shape overlayKeys = true)
    {replacements : List VocabularyRangeReplacement}
    (h : vocabularyRangeReplacementsFrom previous replacements = true) :
    contract.validateEntries (previous.map positionOf) (replacements.map Serde.toValue) = .ok () := by
  induction replacements generalizing previous with
  | nil => rfl
  | cons r rest ih =>
    obtain ⟨hadmitted, hrest⟩ := admitted_of_valid h
    rw [map_cons]
    unfold OverlayContract.validateEntries
    rw [validateEntry_toValue hshape hadmitted]
    exact ih hrest

/-- Either validator admits what the coordinator's own check admits. -/
theorem validate_toValue (hshape : contract.shape overlayKeys = true)
    {replacements : List VocabularyRangeReplacement}
    (h : vocabularyRangeReplacementsAreValid replacements = true) :
    contract.validate (.array (replacements.map Serde.toValue)) = .ok () := by
  unfold vocabularyRangeReplacementsAreValid at h
  rw [Bool.and_eq_true, decide_eq_true_eq] at h
  unfold OverlayContract.validate
  dsimp only
  rw [length_map, refuseIf_of_not (Nat.not_lt.mpr h.1)]
  exact validateEntries_toValue hshape h.2

/-! ## What Rust writes is bound -/

/-- The range of the replacement lies in its turn, and is the source it was taken from. -/
def Sources (B : Type) [Platform B] [TextBytes B] (turns : List String)
    (r : VocabularyRangeReplacement) : Prop :=
  ∃ text before source after, turns[r.turn.toNat]? = some text ∧
    text.toList = before ++ source ++ after ∧ r.charStart.toNat = before.length ∧
    r.charEnd.toNat = before.length + source.length ∧ r.sourceSha256 = textSha256 B source

def itemOf (r : VocabularyRangeReplacement) : OverlayItem :=
  ⟨r.charStart.toNat, r.charEnd.toNat, r.replacement.toList⟩

namespace PromptOverlay

section Bound

variable {B : Type} [Platform B] [TextBytes B] {turns : List String}

theorem bindEntry_toValue {previous : Option VocabularyRangeReplacement}
    {r : VocabularyRangeReplacement} (h : Admitted previous r) (hsources : Sources B turns r) :
    bindEntry B (turns.map String.toList) (previous.map positionOf) (Serde.toValue r) =
      .ok (positionOf r, itemOf r) := by
  obtain ⟨text, before, source, after, htext, hsplit, hstart, hstop, hsha⟩ := hsources
  obtain ⟨hget_turn, hget_start, hget_stop, hget_digest, hget_replacement⟩ := get_toValue r
  have hturn : r.turn.toNat < (turns.map String.toList).length := by
    rw [length_map]
    exact (List.getElem?_eq_some_iff.mp htext).1
  have hgetD : (turns.map String.toList).getD r.turn.toNat [] = before ++ source ++ after := by
    rw [getD_eq_getElem?_getD, List.getElem?_map, htext, ← hsplit]
    rfl
  have hspan : ((before ++ source ++ after).drop r.charStart.toNat).take
      (r.charEnd.toNat - r.charStart.toNat) = source := by
    rw [hstart, hstop, append_assoc, drop_left, Nat.add_sub_cancel_left, take_left]
  have hrange : r.charStart.toNat < r.charEnd.toNat ∧
      r.charEnd.toNat ≤ ((turns.map String.toList).getD r.turn.toNat []).length := by
    refine ⟨h.range, ?_⟩
    rw [hgetD, length_append, length_append]
    omega
  have hprior : ∀ (P : Position → Bool),
      (∀ prior, previous = some prior → P (positionOf prior) = false) →
      ¬ (previous.map positionOf).any P = true := by
    intro P hP hany
    obtain ⟨position, hposition, htrue⟩ := (Option.any_eq_true _ _).mp hany
    obtain ⟨prior, hprior, rfl⟩ := Option.map_eq_some_iff.mp hposition
    rw [hP prior hprior] at htrue
    cases htrue
  have horder := hprior (fun prior => !prior.before (positionOf r)) (fun prior hprior => by
    rw [h.order prior hprior]
    rfl)
  have hapart := hprior
    (fun prior => prior.turn == r.turn.toNat && decide (r.charStart.toNat < prior.charEnd))
    (fun prior hprior => by
      rw [Bool.and_eq_false_iff, beq_eq_false_iff_ne, decide_eq_false_iff_not]
      by_cases heq : prior.turn.toNat = r.turn.toNat
      · exact .inr (Nat.not_lt.mpr (h.apart prior hprior heq))
      · exact .inl heq)
  have hshape : ¬ (¬ validSha256 r.sourceSha256 = true ∨ r.replacement = "" ∨
      r.replacement.utf8ByteSize > 512 ∨ r.replacement.toList.any isControl = true) := by
    rintro (hinvalid | hreplacement)
    · exact hinvalid h.digest
    · exact h.replacement hreplacement
  have hobject : ¬ ¬ (Serde.toValue r).isObject = true := not_not.mpr rfl
  unfold bindEntry
  rw [refuseIf_of_not hobject, ok_bind]
  simp only [hget_turn, hget_start, hget_stop, hget_digest, hget_replacement]
  rw [refuseIf_of_not hshape, ok_bind, refuseIf_of_not (not_not.mpr hturn), ok_bind,
    refuseIf_of_not (not_not.mpr hrange), ok_bind]
  rw [show (Position.mk r.turn.toNat r.charStart.toNat r.charEnd.toNat) = positionOf r from rfl,
    refuseIf_of_not horder, ok_bind, refuseIf_of_not hapart, ok_bind, hgetD, hspan,
    refuseIf_of_not (not_not.mpr hsha.symm)]
  rfl

/-- The items of a turn, as `from_transport` gathers them. -/
def itemsOf (replacements : List VocabularyRangeReplacement) (turn : Nat) : List OverlayItem :=
  (replacements.filter fun r => r.turn.toNat = turn).map itemOf

theorem bindAll_toValue {replacements : List VocabularyRangeReplacement}
    {previous : Option VocabularyRangeReplacement}
    (h : vocabularyRangeReplacementsFrom previous replacements = true)
    (hsources : ∀ r ∈ replacements, Sources B turns r) (byTurn : Nat → List OverlayItem) :
    bindAll B (turns.map String.toList) (previous.map positionOf) byTurn
        (replacements.map Serde.toValue) =
      .ok fun turn => byTurn turn ++ itemsOf replacements turn := by
  induction replacements generalizing previous byTurn with
  | nil =>
    change Except.ok byTurn = .ok fun turn => byTurn turn ++ []
    simp
  | cons r rest ih =>
    obtain ⟨hadmitted, hrest⟩ := admitted_of_valid h
    rw [map_cons]
    unfold bindAll
    rw [bindEntry_toValue hadmitted (hsources r mem_cons_self), ok_bind]
    have hbound := ih hrest (fun q hq => hsources q (mem_cons_of_mem r hq))
      (fun turn => if turn = r.turn.toNat then byTurn turn ++ [itemOf r] else byTurn turn)
    refine hbound.trans (congrArg Except.ok (funext fun turn => ?_))
    unfold itemsOf
    rw [filter_cons]
    by_cases hturn : turn = r.turn.toNat
    · subst hturn
      simp
    · rw [if_neg hturn, if_neg (by simpa using fun heq => hturn heq.symm)]

theorem fromTransport_toValue {replacements : List VocabularyRangeReplacement}
    (h : vocabularyRangeReplacementsAreValid replacements = true)
    (hsources : ∀ r ∈ replacements, Sources B turns r) :
    fromTransport B (turns.map String.toList) (replacements.map Serde.toValue) =
      .ok ⟨turns.map String.toList, itemsOf replacements⟩ := by
  unfold vocabularyRangeReplacementsAreValid at h
  rw [Bool.and_eq_true] at h
  unfold fromTransport
  have hbound := bindAll_toValue h.2 hsources fun _ => []
  change bindAll B _ none _ _ = _ at hbound
  rw [hbound, ok_bind]
  rfl

end Bound

/-! ## What is rendered -/

/-- Items in their order, apart from each other. -/
def Ordered (items : List OverlayItem) : Prop :=
  (∀ item ∈ items, item.charStart ≤ item.charEnd) ∧
    items.Pairwise fun a b => a.charEnd ≤ b.charStart

theorem edits_kept (start : Nat) (kept : List Char) (pieces : List (Piece Unit Char)) :
    edits start (kept.map Piece.kept ++ pieces) = edits (start + kept.length) pieces := by
  induction kept generalizing start with
  | nil => rfl
  | cons c kept ih =>
    rw [map_cons, cons_append, length_cons]
    change edits (start + 1) (kept.map Piece.kept ++ pieces) = _
    rw [ih, Nat.add_assoc, Nat.add_comm 1]

theorem sourceOf_kept (kept : List Char) :
    sourceOf (kept.map Piece.kept : List (Piece Unit Char)) = kept := by
  induction kept with
  | nil => rfl
  | cons c kept ih =>
    rw [map_cons, sourceOf_cons, ih]
    rfl

theorem resultOf_kept (kept : List Char) :
    resultOf (kept.map Piece.kept : List (Piece Unit Char)) = kept := by
  induction kept with
  | nil => rfl
  | cons c kept ih =>
    rw [map_cons, resultOf_cons, ih]
    rfl

/-- From the cursor on, a span is rendered with the items that lie wholly inside it and
no others. -/
theorem render_cut {source : List Char} {start stop : Nat} (hstop : stop ≤ source.length)
    {items : List OverlayItem} (hitems : Ordered items) {cursor : Nat}
    (hcursor : start ≤ cursor ∧ cursor ≤ stop)
    (hahead : ∀ item ∈ items, item.inside start stop = true → cursor ≤ item.charStart) :
    ∃ cut : List (Piece Unit Char), sourceOf cut = (source.drop cursor).take (stop - cursor) ∧
      resultOf cut = render source start stop cursor items ∧
      edits cursor cut = (items.filter fun item => item.inside start stop).map OverlayItem.edit := by
  induction items generalizing cursor with
  | nil =>
    refine ⟨((source.drop cursor).take (stop - cursor)).map Piece.kept, sourceOf_kept _,
      resultOf_kept _, ?_⟩
    have hedits := edits_kept cursor ((source.drop cursor).take (stop - cursor)) []
    rw [append_nil] at hedits
    exact hedits
  | cons item rest ih =>
    have hrest : Ordered rest := ⟨fun other hother => hitems.1 other (mem_cons_of_mem _ hother),
      (pairwise_cons.mp hitems.2).2⟩
    unfold render
    by_cases hinside : item.inside start stop = true
    · have hbounds : start ≤ item.charStart ∧ item.charEnd ≤ stop := by
        simpa [OverlayItem.inside] using hinside
      have hfrom := hahead item mem_cons_self hinside
      have hwidth := hitems.1 item mem_cons_self
      have hfilter : ((item :: rest).filter fun item => item.inside start stop) =
          item :: rest.filter fun item => item.inside start stop := filter_cons_of_pos hinside
      rw [if_neg (by omega), hfilter, map_cons]
      have hcursor : start ≤ item.charEnd ∧ item.charEnd ≤ stop := ⟨by omega, hbounds.2⟩
      obtain ⟨cut, hsource, hresult, hedits⟩ := ih hrest hcursor (fun other hother _ =>
        (pairwise_cons.mp hitems.2).1 other hother)
      have hkept : ((source.drop cursor).take (item.charStart - cursor)).length =
          item.charStart - cursor := by
        rw [length_take, length_drop]
        omega
      have hreplaced : ((source.drop item.charStart).take (item.charEnd - item.charStart)).length =
          item.charEnd - item.charStart := by
        rw [length_take, length_drop]
        omega
      refine ⟨((source.drop cursor).take (item.charStart - cursor)).map Piece.kept ++
        .replaced () ((source.drop item.charStart).take (item.charEnd - item.charStart))
          item.replacement :: cut, ?_, ?_, ?_⟩
      · rw [sourceOf_append, sourceOf_kept, sourceOf_cons, hsource]
        change _ ++ ((source.drop item.charStart).take (item.charEnd - item.charStart) ++ _) = _
        have hfirst : stop - cursor = (item.charStart - cursor) +
            ((item.charEnd - item.charStart) + (stop - item.charEnd)) := by omega
        rw [hfirst, take_add, take_add, drop_drop, drop_drop]
        have hmiddle : cursor + (item.charStart - cursor) = item.charStart := by omega
        have hend : item.charStart + (item.charEnd - item.charStart) = item.charEnd := by omega
        rw [hmiddle, hend]
      · rw [resultOf_append, resultOf_kept, resultOf_cons, hresult, append_assoc]
        rfl
      · rw [edits_kept, hkept]
        have hmiddle : cursor + (item.charStart - cursor) = item.charStart := by omega
        have hend : item.charStart + (item.charEnd - item.charStart) = item.charEnd := by omega
        unfold edits at hedits ⊢
        rw [hmiddle, spansFrom, map_cons, width_one, hreplaced, hend, hedits]
        rfl
    · have houtside : item.charStart < start ∨ item.charEnd > stop := by
        have hnot : ¬ (start ≤ item.charStart ∧ item.charEnd ≤ stop) := by
          simpa [OverlayItem.inside] using hinside
        omega
      have hfilter : ((item :: rest).filter fun item => item.inside start stop) =
          rest.filter fun item => item.inside start stop := filter_cons_of_neg hinside
      rw [if_pos houtside, hfilter]
      exact ih hrest hcursor fun other hother => hahead other (mem_cons_of_mem _ hother)

/-! ## The overlay presents the projection -/

section Presents

variable {B : Type} [Platform B] [TextBytes B] {turns : List String}

/-- Replacements that the coordinator admits stand in order in every turn. -/
theorem pairwise_of_valid {previous : Option VocabularyRangeReplacement}
    {replacements : List VocabularyRangeReplacement}
    (h : vocabularyRangeReplacementsFrom previous replacements = true) :
    (∀ r ∈ replacements, r.charStart.toNat < r.charEnd.toNat) ∧
    (∀ prior, previous = some prior → ∀ r ∈ replacements, prior.turn.toNat ≤ r.turn.toNat ∧
      (prior.turn.toNat = r.turn.toNat → prior.charEnd.toNat ≤ r.charStart.toNat)) ∧
    replacements.Pairwise fun a b => a.turn.toNat ≤ b.turn.toNat ∧
      (a.turn.toNat = b.turn.toNat → a.charEnd.toNat ≤ b.charStart.toNat) := by
  induction replacements generalizing previous with
  | nil => exact ⟨nofun, fun _ _ => nofun, List.Pairwise.nil⟩
  | cons r rest ih =>
    obtain ⟨hadmitted, hrest⟩ := admitted_of_valid h
    obtain ⟨hranges, hbehind, hpairwise⟩ := ih hrest
    have hfirst := hbehind r rfl
    refine ⟨?_, ?_, pairwise_cons.mpr ⟨hfirst, hpairwise⟩⟩
    · intro q hq
      rcases mem_cons.mp hq with rfl | hq
      · exact hadmitted.range
      · exact hranges q hq
    · intro prior hprior q hq
      have hturn : prior.turn.toNat ≤ r.turn.toNat := by
        have hbefore := hadmitted.order prior hprior
        unfold Position.before positionOf at hbefore
        simp only [Bool.or_eq_true, Bool.and_eq_true, decide_eq_true_eq, beq_iff_eq] at hbefore
        omega
      have happart := hadmitted.apart prior hprior
      have hrange := hadmitted.range
      rcases mem_cons.mp hq with rfl | hq
      · exact ⟨hturn, happart⟩
      · obtain ⟨hle, hend⟩ := hfirst q hq
        refine ⟨Nat.le_trans hturn hle, fun heq => ?_⟩
        have hprior_end := happart (by omega)
        have hr_end := hend (by omega)
        omega

theorem ordered_itemsOf {replacements : List VocabularyRangeReplacement}
    (h : vocabularyRangeReplacementsFrom none replacements = true) (turn : Nat) :
    Ordered (itemsOf replacements turn) := by
  obtain ⟨hranges, -, hpairwise⟩ := pairwise_of_valid h
  unfold itemsOf
  refine ⟨fun item hitem => ?_, ?_⟩
  · obtain ⟨r, hr, rfl⟩ := mem_map.mp hitem
    exact Nat.le_of_lt (hranges r (mem_filter.mp hr).1)
  · rw [pairwise_map]
    refine (hpairwise.filter _).imp_of_mem fun ha hb hle => ?_
    have hturn_a := of_decide_eq_true (mem_filter.mp ha).2
    have hturn_b := of_decide_eq_true (mem_filter.mp hb).2
    exact hle.2 (by rw [hturn_a, hturn_b])

/-- A span is rendered with precisely the items that lie wholly inside it. -/
theorem text_cut {overlay : PromptOverlay} {turn start stop : Nat} {source : List Char}
    (hsource : overlay.turns[turn]? = some source) (hitems : Ordered (overlay.replacements turn))
    (hstart : start ≤ stop) (hstop : stop ≤ source.length) :
    ∃ cut : List (Piece Unit Char), overlay.text turn start stop = .ok (resultOf cut) ∧
      sourceOf cut = (source.drop start).take (stop - start) ∧
      edits start cut = ((overlay.replacements turn).filter fun item => item.inside start stop).map
        OverlayItem.edit := by
  have hahead : ∀ item ∈ overlay.replacements turn, item.inside start stop = true →
      start ≤ item.charStart := by
    intro item _ hinside
    unfold OverlayItem.inside at hinside
    rw [Bool.and_eq_true, decide_eq_true_eq] at hinside
    exact hinside.1
  obtain ⟨cut, hcut, hresult, hedits⟩ := render_cut hstop hitems ⟨Nat.le_refl start, hstart⟩ hahead
  refine ⟨cut, ?_, hcut, hedits⟩
  unfold text
  rw [hsource, orRefuse_some, ok_bind, refuseIf_of_not (not_not.mpr ⟨hstart, hstop⟩), ok_bind,
    hresult]
  rfl

/-- What `project_turns` answers about turns is admitted by the note bridge and by the
worker's contract and bound to the turns, and renders each turn as `project` does and
each span of it with precisely the replacements that lie wholly inside. -/
theorem fromTransport_presents (v : Volume VocabularyPlace B)
    {replacements : List VocabularyRangeReplacement}
    (h : projectTurns v turns = some (.ok replacements)) :
    noteBridge.validate (.array (replacements.map Serde.toValue)) = .ok () ∧
    productContract.validate (.array (replacements.map Serde.toValue)) = .ok () ∧
    ∃ overlay, fromTransport B (turns.map String.toList) (replacements.map Serde.toValue) =
        .ok overlay ∧
      ∀ (turn : Nat) (source : String), turns[turn]? = some source →
        (∃ projection, project v source = some (.ok projection) ∧
          overlay.text turn 0 source.toList.length = .ok projection.text.toList) ∧
        ∀ start stop, start ≤ stop → stop ≤ source.toList.length →
          ∃ cut : List (Piece Unit Char), overlay.text turn start stop = .ok (resultOf cut) ∧
            sourceOf cut = (source.toList.drop start).take (stop - start) ∧
            edits start cut = ((replacements.filter fun r => r.turn.toNat = turn ∧
                start ≤ r.charStart.toNat ∧ r.charEnd.toNat ≤ stop).map fun r =>
              (r.charStart.toNat, r.charEnd.toNat, r.replacement.toList)) := by
  obtain ⟨answer, hanswer, hall⟩ := projectTurns_agrees v turns
  rw [h] at hanswer
  obtain ⟨hvalid, hrendered, hsources⟩ := hall replacements (Option.some.inj hanswer).symm
  have hfrom := hvalid
  unfold vocabularyRangeReplacementsAreValid at hfrom
  rw [Bool.and_eq_true] at hfrom
  refine ⟨validate_toValue rfl hvalid, validate_toValue rfl hvalid, _,
    fromTransport_toValue hvalid hsources, fun turn source hturn => ?_⟩
  have hsource : (turns.map String.toList)[turn]? = some source.toList := by
    rw [List.getElem?_map, hturn]
    rfl
  have hspan := fun start stop => @text_cut ⟨turns.map String.toList, itemsOf replacements⟩ turn
    start stop source.toList hsource (ordered_itemsOf hfrom.2 turn)
  have hinside : ∀ start stop, ((itemsOf replacements turn).filter fun item =>
      item.inside start stop).map OverlayItem.edit =
      (replacements.filter fun r => r.turn.toNat = turn ∧ start ≤ r.charStart.toNat ∧
        r.charEnd.toNat ≤ stop).map fun r =>
          (r.charStart.toNat, r.charEnd.toNat, r.replacement.toList) := by
    intro start stop
    unfold itemsOf
    rw [List.filter_map, List.map_map, List.filter_filter]
    refine congrArg₂ List.map rfl (List.filter_congr fun r _ => ?_)
    simp only [Function.comp_apply, itemOf, OverlayItem.inside, Bool.decide_and]
    rw [Bool.and_comm]
    rfl
  refine ⟨?_, fun start stop hstart hstop => ?_⟩
  · obtain ⟨projection, hproject, hprompt⟩ := hrendered turn source hturn
    obtain ⟨cut, htext, hcut, hedits⟩ := hspan 0 source.toList.length (Nat.zero_le _) (Nat.le_refl _)
    refine ⟨projection, hproject, ?_⟩
    rw [htext, ← hprompt, ← substitute_spans cut, hcut, hedits, hinside]
    unfold promptText
    rw [List.filter_filter, List.drop_zero, Nat.sub_zero]
    refine congrArg (fun edits => Except.ok (substitute _ 0 edits)) ?_
    refine congrArg₂ List.map rfl (List.filter_congr fun r _ => ?_)
    simp [Bool.and_comm]
  · obtain ⟨cut, htext, hcut, hedits⟩ := hspan start stop hstart hstop
    exact ⟨cut, htext, hcut, hedits.trans (hinside start stop)⟩

end Presents

/-- A span that cuts through the phrase of a turn. -/
theorem fromTransport_presents_cutThrough :
    ∃ overlay, fromTransport (Recorded []) ["Müller: Ångström.".toList]
        [Serde.toValue (VocabularyRangeReplacement.mk 0 8 16 emptySha256 "Angstrom Labs")] =
          .ok overlay ∧
      ∃ cut : List (Piece Unit Char), overlay.text 0 0 12 = .ok (resultOf cut) ∧
        edits 0 cut = [] := by
  have hprojected : projectTurns sampleVocabulary ["Müller: Ångström."] =
      some (.ok [⟨0, 8, 16, emptySha256, "Angstrom Labs"⟩]) := by
    have hok : (projectTurns sampleVocabulary ["Müller: Ångström."]).map Except.toOption =
        some (some [⟨0, 8, 16, emptySha256, "Angstrom Labs"⟩]) := by
      decide +kernel
    obtain ⟨answer, hanswer, hoption⟩ := Option.map_eq_some_iff.mp hok
    rw [hanswer]
    cases answer with
    | error e => cases hoption
    | ok replacements =>
      cases hoption
      rfl
  obtain ⟨-, -, overlay, hoverlay, hpresents⟩ :=
    fromTransport_presents sampleVocabulary hprojected
  refine ⟨overlay, hoverlay, ?_⟩
  obtain ⟨cut, htext, -, hedits⟩ := (hpresents 0 "Müller: Ångström." rfl).2 0 12 (by decide) (by decide)
  refine ⟨cut, htext, hedits.trans ?_⟩
  rfl

end PromptOverlay

end YawnApp.Worker
