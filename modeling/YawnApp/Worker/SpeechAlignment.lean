import YawnApp.Foundation.Blocks
import YawnApp.Foundation.WordRanges
import YawnApp.Worker.SpeechResults

set_option autoImplicit false

/-!
# When a native run is admitted

An Apple run is admitted when its segments are cut into blocks, one for each utterance.  A
Parakeet run is admitted in groups of words, and grouping the words of a run whose times
never go back refuses nothing.
-/

namespace YawnApp.Worker

open YawnApp.Foundation List

namespace SpeechResults

/-! ## Tokens -/

theorem tokens_eq_nil_iff {text : String} : tokens text = [] ↔ isBlank text = true := by
  unfold tokens isBlank
  rw [map_eq_nil_iff, words_eq_nil_iff, all_eq_true]

theorem tokens_append_space (first second : String) :
    tokens (first ++ " " ++ second) = tokens first ++ tokens second := by
  have hspace : isSpace ' ' = true := by decide
  have hmap : ∀ l : List (Nat × List Char),
      l.map (fun word => String.ofList word.2) = (l.map Prod.snd).map String.ofList := by
    intro l
    rw [map_map]
    rfl
  unfold tokens
  rw [hmap, hmap, hmap, String.toList_append, String.toList_append, append_assoc]
  change ((words isSpace (first.toList ++ ' ' :: second.toList)).map Prod.snd).map _ = _
  rw [words_separated hspace, map_append]

/-! ## The items that are admitted -/

/-- What `_timed_items` asks of an item after the one before. -/
structure Timed (durationSeconds : ℚ) (previous : Option Item) (item : Item) : Prop where
  text : isBlank item.text = false
  ordered : item.start < item.stop
  starts : -timingToleranceSeconds ≤ item.start
  stops : item.stop ≤ durationSeconds + timingToleranceSeconds
  monotone : ∀ before ∈ previous, before.start ≤ item.start + timingToleranceSeconds ∧
    before.stop ≤ item.stop + timingToleranceSeconds

/-- What `_timed_items` asks of a list of items. -/
def TimedFrom (durationSeconds : ℚ) : Option Item → List Item → Prop
  | _, [] => True
  | previous, item :: rest =>
    Timed durationSeconds previous item ∧ TimedFrom durationSeconds (some item) rest

variable {items block : List Item} {previous : Option Item} {durationSeconds : ℚ} {item word : Item}
  {segments : List Item} {run : Value}

theorem Timed.of_eq_ok {name : String} {raw : Value}
    (h : timedItem name durationSeconds previous raw = .ok item) :
    Timed durationSeconds previous item := by
  unfold timedItem at h
  simp only [bind_eq_ok, refuseIf_eq_ok, pure, Except.pure, Except.ok.injEq] at h
  obtain ⟨-, -, text, -, -, htext, start, -, stop, -, -, hordered, -, hbounds, -, hmonotone, rfl⟩ := h
  rw [not_or, not_lt, not_lt] at hbounds
  refine ⟨by simpa using htext, not_le.mp hordered, hbounds.1, hbounds.2, ?_⟩
  intro before hbefore
  constructor
  · exact not_lt.mp fun hlt => hmonotone ⟨before, hbefore, .inl hlt⟩
  · exact not_lt.mp fun hlt => hmonotone ⟨before, hbefore, .inr hlt⟩

/-- The dictionary of an item that may stand there is read as the item. -/
theorem Timed.eq_ok (h : Timed durationSeconds previous item) (name : String) :
    timedItem name durationSeconds previous item.document = .ok item := by
  have hmonotone : ¬ ∃ before ∈ previous,
      item.start + timingToleranceSeconds < before.start ∨
        item.stop + timingToleranceSeconds < before.stop := by
    rintro ⟨before, hbefore, hlt⟩
    have := h.monotone before hbefore
    rcases hlt with hlt | hlt
    · exact absurd this.1 (not_le.mpr hlt)
    · exact absurd this.2 (not_le.mpr hlt)
  have hbounds : ¬ (item.start < -timingToleranceSeconds ∨
      item.stop > durationSeconds + timingToleranceSeconds) := by
    rw [not_or, not_lt, not_lt]
    exact ⟨h.starts, h.stops⟩
  have htext : (item.document.get "text").bind Value.asStr = some item.text := rfl
  have hstart : number (item.document.get "start") (name ++ ".start") = .ok item.start := rfl
  have hstop : number (item.document.get "end") (name ++ ".end") = .ok item.stop := rfl
  unfold timedItem
  rw [refuseIf_of_not (by simp [Item.document, Value.isObject]), ok_bind, htext, orRefuse_some, ok_bind,
    refuseIf_of_not (by simp [h.text]), ok_bind, hstart, ok_bind, hstop, ok_bind,
    refuseIf_of_not (not_le.mpr h.ordered), ok_bind, refuseIf_of_not hbounds, ok_bind,
    refuseIf_of_not hmonotone, ok_bind]
  rfl

theorem TimedFrom.of_eq_ok {description : String} {raws : List Value} :
    ∀ {index : Nat} {previous : Option Item} {items : List Item},
      timedItemsFrom description durationSeconds index previous raws = .ok items →
        TimedFrom durationSeconds previous items := by
  induction raws with
  | nil =>
    intro index previous items h
    cases h
    trivial
  | cons raw rest ih =>
    intro index previous items h
    rw [timedItemsFrom] at h
    simp only [bind_eq_ok, pure, Except.pure, Except.ok.injEq] at h
    obtain ⟨item, hitem, items, hitems, rfl⟩ := h
    exact ⟨.of_eq_ok hitem, ih hitems⟩

theorem TimedFrom.eq_ok (description : String) :
    ∀ {previous : Option Item} (index : Nat), TimedFrom durationSeconds previous items →
      timedItemsFrom description durationSeconds index previous (items.map Item.document) =
        .ok items := by
  induction items with
  | nil => exact fun _ _ => rfl
  | cons item rest ih =>
    intro previous index ⟨hitem, hrest⟩
    rw [map_cons, timedItemsFrom, hitem.eq_ok, ok_bind, ih (index + 1) hrest]
    rfl

theorem timedFrom_of_timedItems {value : Option Value} {description : String}
    (h : timedItems value description durationSeconds = .ok items) :
    TimedFrom durationSeconds none items := by
  unfold timedItems at h
  rw [bind_eq_ok] at h
  obtain ⟨raws, -, h⟩ := h
  exact .of_eq_ok h

theorem timedItems_documents (h : TimedFrom durationSeconds none items) (description : String) :
    timedItems (some (.array (items.map Item.document))) description durationSeconds =
      .ok items :=
  h.eq_ok description 0

/-- What is asked of every item whatever stands before it. -/
theorem TimedFrom.forall_mem :
    ∀ {previous : Option Item}, TimedFrom durationSeconds previous items →
      ∀ item ∈ items, Timed durationSeconds none item := by
  induction items with
  | nil => exact fun _ _ h => absurd h not_mem_nil
  | cons first rest ih =>
    intro previous ⟨hfirst, hrest⟩ item hitem
    rcases mem_cons.mp hitem with rfl | hitem
    · exact { hfirst with monotone := fun _ h => nomatch h }
    · exact ih hrest item hitem

/-- An admitted item has tokens. -/
theorem Timed.tokens_ne_nil (h : Timed durationSeconds previous item) : item.tokens ≠ [] := by
  intro hnil
  have hblank := tokens_eq_nil_iff.mp hnil
  rw [h.text] at hblank
  cases hblank

/-! ## Apple's utterances -/

/-- A segment lies in the bounds of an utterance, up to the tolerance. -/
def Encloses (utterance segment : Item) : Prop :=
  utterance.start - timingToleranceSeconds ≤ segment.start ∧
    segment.stop ≤ utterance.stop + timingToleranceSeconds

/-- A block of segments is an utterance word by word and lies inside it. -/
structure Utters (utterance : Item) (block : List Item) : Prop where
  nonempty : block ≠ []
  tokens : block.flatMap Item.tokens = utterance.tokens
  enclosed : ∀ segment ∈ block, Encloses utterance segment

/-- The segments are consecutive blocks, one for each utterance in order. -/
def Aligned (segments utterances : List Item) : Prop :=
  ∃ blocks : List (List Item), blocks.flatten = segments ∧
    List.Forall₂ Utters utterances blocks

/-- The walk of one utterance, from any place in it: the induction is on the segments, and
a segment that has tokens leaves fewer of the utterance to match. -/
theorem matchUtterance_eq_ok (index : Nat) (utterance : Item) :
    ∀ {matched : List String} {rest : List Item}, (∀ segment ∈ segments, segment.tokens ≠ []) →
      (matchUtterance index utterance matched segments = .ok rest ↔
        ∃ block, segments = block ++ rest ∧
          matched ++ block.flatMap Item.tokens = utterance.tokens ∧
          ∀ segment ∈ block, Encloses utterance segment) := by
  induction segments with
  | nil =>
    intro matched rest _
    have hnil : (∃ block, [] = block ++ rest ∧
        matched ++ block.flatMap Item.tokens = utterance.tokens ∧
          ∀ segment ∈ block, Encloses utterance segment) ↔ [] = rest ∧ matched = utterance.tokens := by
      simp [and_assoc, eq_comm]
    rw [hnil, matchUtterance]
    split
    · rename_i hshort
      refine ⟨fun h => (by cases h), fun h => ?_⟩
      rw [h.2] at hshort
      exact absurd hshort (Nat.lt_irrefl _)
    · simp [pure, Except.pure, and_comm]
  | cons segment segments ih =>
    intro matched rest hsegments
    have hsegment : segment.tokens ≠ [] := hsegments segment mem_cons_self
    have hrest : ∀ segment ∈ segments, segment.tokens ≠ [] :=
      fun other hother => hsegments other (mem_cons_of_mem _ hother)
    rw [matchUtterance]
    split
    · rename_i hshort
      simp only [check_bind_eq_ok, refuseIf_eq_ok, not_not, not_or, not_lt, ih hrest]
      constructor
      · rintro ⟨-, ⟨hstart, hstop⟩, block, rfl, htokens, hblock⟩
        refine ⟨segment :: block, rfl, ?_, forall_mem_cons.mpr ⟨⟨hstart, hstop⟩, hblock⟩⟩
        rwa [flatMap_cons, ← append_assoc]
      · rintro ⟨block, hsplit, htokens, hblock⟩
        cases block with
        | nil =>
          rw [flatMap_nil, append_nil] at htokens
          rw [htokens] at hshort
          exact absurd hshort (Nat.lt_irrefl _)
        | cons first block =>
          rw [cons_append, List.cons.injEq] at hsplit
          obtain ⟨rfl, rfl⟩ := hsplit
          obtain ⟨hfirst, hblock⟩ := forall_mem_cons.mp hblock
          rw [flatMap_cons] at htokens
          refine ⟨?_, hfirst, block, rfl, by rw [append_assoc, htokens], hblock⟩
          rw [← htokens, drop_left, take_left]
    · rename_i hlong
      simp only [check_bind_eq_ok, refuseIf_eq_ok, not_not, pure, Except.pure, Except.ok.injEq]
      constructor
      · rintro ⟨rfl, rfl⟩
        exact ⟨[], rfl, by simp, by simp⟩
      · rintro ⟨block, hsplit, htokens, -⟩
        cases block with
        | nil => exact ⟨by simpa using htokens, hsplit⟩
        | cons =>
          rw [cons_append, List.cons.injEq] at hsplit
          obtain ⟨rfl, rfl⟩ := hsplit
          have hlength := congrArg List.length htokens
          have hfirst := length_pos_iff.mpr hsegment
          rw [flatMap_cons, length_append, length_append] at hlength
          omega

theorem matchUtterances_eq_ok {utterances : List Item}
    (hutterances : ∀ utterance ∈ utterances, utterance.tokens ≠ []) :
    ∀ {index : Nat} {segments : List Item}, (∀ segment ∈ segments, segment.tokens ≠ []) →
      (matchUtterances index segments utterances = .ok () ↔ Aligned segments utterances) := by
  induction utterances with
  | nil =>
    intro index segments _
    rw [matchUtterances, refuseIf_eq_ok, not_not]
    constructor
    · rintro rfl
      exact ⟨[], rfl, .nil⟩
    · rintro ⟨blocks, rfl, hblocks⟩
      cases hblocks
      rfl
  | cons utterance utterances ih =>
    intro index segments hsegments
    obtain ⟨hutterance, hutterances⟩ := forall_mem_cons.mp hutterances
    simp only [matchUtterances, bind_eq_ok, matchUtterance_eq_ok index utterance hsegments]
    constructor
    · rintro ⟨rest, ⟨block, rfl, htokens, hblock⟩, hrest⟩
      have hleft : ∀ segment ∈ rest, segment.tokens ≠ [] :=
        fun segment hsegment => hsegments segment (mem_append_right _ hsegment)
      obtain ⟨blocks, rfl, hblocks⟩ := (ih hutterances hleft).mp hrest
      refine ⟨block :: blocks, rfl, .cons ⟨?_, htokens, hblock⟩ hblocks⟩
      rintro rfl
      exact hutterance htokens.symm
    · rintro ⟨_, rfl, hblocks⟩
      cases hblocks with
      | @cons _ block _ blocks hblock hblocks =>
        rw [flatten_cons] at hsegments ⊢
        have hleft : ∀ segment ∈ blocks.flatten, segment.tokens ≠ [] :=
          fun segment hsegment => hsegments segment (mem_append_right _ hsegment)
        exact ⟨blocks.flatten, ⟨block, rfl, hblock.tokens, hblock.enclosed⟩,
          (ih hutterances hleft).mpr ⟨blocks, rfl, hblocks⟩⟩

/-- The walk admits the segments that are cut into the utterances and no others. -/
theorem requireAppleUtteranceAlignment_eq_ok {utterances : List Item}
    (hsegments : TimedFrom durationSeconds none segments)
    (hutterances : TimedFrom durationSeconds none utterances) :
    requireAppleUtteranceAlignment segments utterances = .ok () ↔ Aligned segments utterances :=
  matchUtterances_eq_ok (fun item hitem => (hutterances.forall_mem item hitem).tokens_ne_nil)
    fun item hitem => (hsegments.forall_mem item hitem).tokens_ne_nil

/-! ## Parakeet's groups -/

/-- The group of a block of words. -/
def groupOf (block : List Item) : Option Item :=
  block.foldl (fun current word => some (extend current word)) none

/-- A word joins a group that neither ended with a sentence nor ends before the word. -/
def joinsGroup (block : List Item) (word : Item) : Bool :=
  (block.getLast?.all fun last => !endsSentence last.text) &&
    (groupOf block).all fun group => !closesBefore group word

theorem groupOf_concat (block : List Item) (word : Item) :
    groupOf (block ++ [word]) = some (extend (groupOf block) word) := by
  unfold groupOf
  rw [foldl_append]
  rfl

theorem groupParakeetFrom_opened (word : Item) (rest : List Item) :
    groupParakeetFrom none (word :: rest) =
      if endsSentence word.text then word :: groupParakeetFrom none rest
      else groupParakeetFrom (some word) rest := rfl

theorem groupParakeetFrom_closed {group : Item} (h : closesBefore group word = true)
    (rest : List Item) :
    groupParakeetFrom (some group) (word :: rest) = group :: groupParakeetFrom none (word :: rest) := by
  rw [groupParakeetFrom_opened, groupParakeetFrom]
  simp [Option.filter_some, h, extend]

theorem groupParakeetFrom_extended {group : Item} (h : closesBefore group word = false)
    (rest : List Item) : groupParakeetFrom (some group) (word :: rest) =
      if endsSentence word.text then extend (some group) word :: groupParakeetFrom none rest
      else groupParakeetFrom (some (extend (some group) word)) rest := by
  rw [groupParakeetFrom]
  simp [Option.filter_some, h]

/-- The loop from inside a list: a block that ended with a sentence is a group already. -/
theorem groupParakeetFrom_eq (rest : List Item) :
    ∀ (block : List Item) (last : Item),
      (Blocks.cutFrom joinsGroup (block ++ [last]) rest).filterMap groupOf =
        if endsSentence last.text then
          extend (groupOf block) last :: groupParakeetFrom none rest
        else groupParakeetFrom (some (extend (groupOf block) last)) rest := by
  induction rest with
  | nil =>
    intro block last
    simp [groupParakeetFrom, Blocks.cutFrom, groupOf_concat]
  | cons word rest ih =>
    intro block last
    have hopen := ih [] word
    have hjoined := ih (block ++ [last]) word
    rw [groupOf_concat] at hjoined
    rw [Blocks.cutFrom]
    generalize hgroup : extend (groupOf block) last = group at *
    have hlast : groupOf (block ++ [last]) = some group := by rw [groupOf_concat, hgroup]
    have hjoins : joinsGroup (block ++ [last]) word =
        (!endsSentence last.text && !closesBefore group word) := by
      simp [joinsGroup, hlast]
    have hparted : (((block ++ [last]) :: Blocks.cutFrom joinsGroup [word] rest).filterMap groupOf) =
        group :: groupParakeetFrom none (word :: rest) := by
      rw [filterMap_cons_some hlast, groupParakeetFrom_opened]
      exact congrArg _ hopen
    rw [hjoins]
    cases hends : endsSentence last.text with
    | true => exact hparted
    | false =>
      cases hcloses : closesBefore group word with
      | true => exact hparted.trans (groupParakeetFrom_closed hcloses rest).symm
      | false => exact hjoined.trans (groupParakeetFrom_extended hcloses rest).symm

/-- The groups are those of the blocks that the words are cut into. -/
theorem groupParakeetWords_eq (words : List Item) :
    groupParakeetWords words = (Blocks.cut joinsGroup words).filterMap groupOf := by
  cases words with
  | nil => rfl
  | cons word rest =>
    exact (groupParakeetFrom_eq rest [] word).symm

/-- A block of words and its group: it goes from the first word to the last, no word but
the last ends a sentence, and neither limit is passed inside it. -/
structure IsGroup (block : List Item) (group : Item) : Prop where
  nonempty : block ≠ []
  start : block.head?.map Item.start = some group.start
  stop : block.getLast?.map Item.stop = some group.stop
  text : group.text = " ".intercalate (block.map Item.text)
  gaps : block.IsChain fun word next => next.start - word.stop ≤ 1
  span : block.length = 1 ∨ group.stop - group.start ≤ 15
  sentence : ∀ word ∈ block.dropLast, endsSentence word.text = false

/-- Why a block ends where the next one follows. -/
def EndsGroup (block next : List Item) : Prop :=
  ∀ first ∈ block.head?, ∀ last ∈ block.getLast?, ∀ word ∈ next.head?,
    endsSentence last.text = true ∨ word.start - last.stop > 1 ∨ word.stop - first.start > 15

/-- The groups are those of consecutive blocks of the words. -/
def Grouped (words groups : List Item) : Prop :=
  ∃ blocks : List (List Item), blocks.flatten = words ∧ List.Forall₂ IsGroup blocks groups ∧
    blocks.IsChain EndsGroup

theorem isGroup_singleton (word : Item) : IsGroup [word] word where
  nonempty := cons_ne_nil _ _
  start := rfl
  stop := rfl
  text := String.intercalate_singleton.symm
  gaps := .singleton _
  span := .inl rfl
  sentence := fun _ h => absurd h not_mem_nil

/-- A word that joins a group makes it longer by itself. -/
theorem IsGroup.concat {group : Item} (h : IsGroup block group)
    (hgroup : groupOf block = some group) (hjoins : joinsGroup block word = true) :
    IsGroup (block ++ [word]) (extend (some group) word) := by
  obtain ⟨last, hlast⟩ : ∃ last, block.getLast? = some last :=
    ⟨_, List.getLast?_eq_some_getLast h.nonempty⟩
  have hstop : last.stop = group.stop := by simpa [hlast] using h.stop
  simp only [joinsGroup, hlast, hgroup, closesBefore, Option.all_some, Bool.and_eq_true,
    Bool.not_eq_true', Bool.or_eq_false_iff, decide_eq_false_iff_not, not_lt] at hjoins
  obtain ⟨hends, hgap, hspan⟩ := hjoins
  refine ⟨by simp, ?_, by simp [extend], ?_, ?_, .inr hspan, ?_⟩
  · rw [List.head?_append_of_ne_nil _ h.nonempty]
    exact h.start
  · rw [map_append, map_singleton, String.intercalate_append_of_ne_nil (by simpa using h.nonempty)
      (by simp), String.intercalate_singleton, ← h.text]
    rfl
  · refine isChain_append.mpr ⟨h.gaps, .singleton _, ?_⟩
    intro before hbefore after hafter
    rw [hlast] at hbefore
    cases hbefore
    cases hafter
    rw [hstop]
    exact hgap
  · intro other hother
    rw [dropLast_concat] at hother
    rw [← dropLast_append_getLast? last hlast] at hother
    rcases mem_append.mp hother with hother | hother
    · exact h.sentence other hother
    · rw [mem_singleton.mp hother]
      exact hends

/-- A joined block has its group: the induction takes the last word off. -/
theorem exists_isGroup (block : List Item) :
    block ≠ [] → Blocks.Joined joinsGroup block →
      ∃ group, groupOf block = some group ∧ IsGroup block group := by
  induction block using List.reverseRecOn with
  | nil => exact fun h => absurd rfl h
  | append_singleton block word ih =>
    intro _ hjoined
    obtain ⟨hjoined, hword⟩ := Blocks.joined_concat.mp hjoined
    by_cases hempty : block = []
    · subst hempty
      exact ⟨word, rfl, isGroup_singleton word⟩
    · obtain ⟨group, hgroup, h⟩ := ih hempty hjoined
      exact ⟨_, by rw [groupOf_concat, hgroup], h.concat hgroup (hword hempty)⟩

theorem forall₂_isGroup {blocks : List (List Item)} :
    (∀ block ∈ blocks, ∃ group, groupOf block = some group ∧ IsGroup block group) →
      List.Forall₂ IsGroup blocks (blocks.filterMap groupOf) := by
  induction blocks with
  | nil => exact fun _ => .nil
  | cons block blocks ih =>
    intro h
    obtain ⟨⟨group, hgroup, hblock⟩, hblocks⟩ := forall_mem_cons.mp h
    rw [filterMap_cons_some hgroup]
    exact .cons hblock (ih hblocks)

/-- A word that did not join ends the group. -/
theorem endsGroup_of_parted {next : List Item}
    (hblock : ∃ group, groupOf block = some group ∧ IsGroup block group)
    (h : Blocks.Parted joinsGroup block next) : EndsGroup block next := by
  intro first hfirst last hlast word hword
  obtain ⟨group, hgroup, hblock⟩ := hblock
  have hjoins := h word hword
  have hstart : first.start = group.start := by simpa [Option.mem_def.mp hfirst] using hblock.start
  have hstop : last.stop = group.stop := by simpa [Option.mem_def.mp hlast] using hblock.stop
  rw [joinsGroup, Option.mem_def.mp hlast, hgroup, Option.all_some, Option.all_some,
    Bool.and_eq_false_iff, Bool.not_eq_false', Bool.not_eq_false', closesBefore, Bool.or_eq_true,
    decide_eq_true_eq, decide_eq_true_eq, ← hstart, ← hstop] at hjoins
  exact hjoins

theorem grouped_groupParakeetWords (words : List Item) : Grouped words (groupParakeetWords words) := by
  have hcut := @Blocks.isCut_cut _ joinsGroup words
  have hgroups : ∀ block ∈ Blocks.cut joinsGroup words,
      ∃ group, groupOf block = some group ∧ IsGroup block group := fun block hblock =>
    exists_isGroup block (hcut.nonempty block hblock) (hcut.joined block hblock)
  rw [groupParakeetWords_eq]
  refine ⟨_, hcut.flatten, forall₂_isGroup hgroups, ?_⟩
  exact hcut.parted.imp_of_mem_imp fun block next hblock _ hparted =>
    endsGroup_of_parted (hgroups block hblock) hparted

/-! ## The derived check -/

/-- Neither the starts nor the ends of the words ever go back. -/
def NeverBack (words : List Item) : Prop :=
  words.Pairwise fun word later => word.start ≤ later.start ∧ word.stop ≤ later.stop

theorem IsGroup.tokens {group : Item} (h : IsGroup block group) :
    group.tokens = block.flatMap Item.tokens := by
  have hjoin : ∀ block : List Item, block ≠ [] →
      SpeechResults.tokens (" ".intercalate (block.map Item.text)) = block.flatMap Item.tokens := by
    intro block
    induction block with
    | nil => exact fun h => absurd rfl h
    | cons word rest ih =>
      intro _
      cases rest with
      | nil => simp [String.intercalate_singleton, Item.tokens]
      | cons =>
        rw [map_cons, map_cons, String.intercalate_cons_cons, tokens_append_space]
        exact congrArg _ (ih (cons_ne_nil _ _))
  rw [Item.tokens, h.text, hjoin block h.nonempty]

/-- A group of admitted words whose times never go back is itself such an item. -/
theorem IsGroup.timed {group : Item} (h : IsGroup block group)
    (hwords : ∀ word ∈ block, Timed durationSeconds none word) (hback : NeverBack block)
    (hprevious : ∀ before ∈ previous, ∀ word ∈ block,
      before.start ≤ word.start ∧ before.stop ≤ word.stop) :
    Timed durationSeconds previous group := by
  obtain ⟨first, hfirst⟩ : ∃ first, block.head? = some first :=
    ⟨_, List.head?_eq_some_head h.nonempty⟩
  obtain ⟨last, hlast⟩ : ∃ last, block.getLast? = some last :=
    ⟨_, List.getLast?_eq_some_getLast h.nonempty⟩
  have hfirstMem : first ∈ block := mem_of_mem_head? hfirst
  have hlastMem : last ∈ block := mem_of_mem_getLast? hlast
  have hstart : group.start = first.start := by simpa [hfirst] using h.start.symm
  have hstop : group.stop = last.stop := by simpa [hlast] using h.stop.symm
  have htolerance : (0 : ℚ) ≤ timingToleranceSeconds := by norm_num [timingToleranceSeconds]
  have horder : first.start ≤ last.start := by
    cases block with
    | nil => cases hfirst
    | cons =>
      cases hfirst
      rcases mem_cons.mp hlastMem with rfl | hmem
      · exact le_refl _
      · exact ((pairwise_cons.mp hback).1 last hmem).1
  refine ⟨?_, ?_, ?_, ?_, ?_⟩
  · rw [Bool.eq_false_iff]
    intro hblank
    have htokens := tokens_eq_nil_iff.mpr hblank
    rw [← Item.tokens, h.tokens, flatMap_eq_nil_iff] at htokens
    exact (hwords first hfirstMem).tokens_ne_nil (htokens first hfirstMem)
  · rw [hstart, hstop]
    exact lt_of_le_of_lt horder (hwords last hlastMem).ordered
  · rw [hstart]
    exact (hwords first hfirstMem).starts
  · rw [hstop]
    exact (hwords last hlastMem).stops
  · intro before hbefore
    rw [hstart, hstop]
    exact ⟨le_add_of_le_of_nonneg (hprevious before hbefore first hfirstMem).1 htolerance,
      le_add_of_le_of_nonneg (hprevious before hbefore last hlastMem).2 htolerance⟩

/-- The groups of the rest of a list, after a group that none of its words goes behind. -/
theorem timedFrom_groups {blocks : List (List Item)} {groups : List Item}
    (h : List.Forall₂ IsGroup blocks groups) :
    ∀ {previous : Option Item}, (∀ word ∈ blocks.flatten, Timed durationSeconds none word) →
      NeverBack blocks.flatten →
      (∀ before ∈ previous, ∀ word ∈ blocks.flatten,
        before.start ≤ word.start ∧ before.stop ≤ word.stop) →
      TimedFrom durationSeconds previous groups := by
  induction h with
  | nil => exact fun _ _ _ => trivial
  | @cons block group blocks groups hblock _ ih =>
    intro previous hwords hback hprevious
    simp only [flatten_cons, mem_append] at hwords hprevious
    obtain ⟨hback, hrest, hacross⟩ := pairwise_append.mp hback
    refine ⟨hblock.timed (fun word hword => hwords word (.inl hword)) hback
      (fun before hbefore word hword => hprevious before hbefore word (.inl hword)), ?_⟩
    refine ih (fun word hword => hwords word (.inr hword)) hrest ?_
    intro before hbefore word hword
    cases hbefore
    obtain ⟨first, hfirst⟩ : ∃ first, block.head? = some first :=
      ⟨_, List.head?_eq_some_head hblock.nonempty⟩
    obtain ⟨last, hlast⟩ : ∃ last, block.getLast? = some last :=
      ⟨_, List.getLast?_eq_some_getLast hblock.nonempty⟩
    have hstart : group.start = first.start := by simpa [hfirst] using hblock.start.symm
    have hstop : group.stop = last.stop := by simpa [hlast] using hblock.stop.symm
    rw [hstart, hstop]
    exact ⟨(hacross first (mem_of_mem_head? hfirst) word hword).1,
      (hacross last (mem_of_mem_getLast? hlast) word hword).2⟩

theorem timedFrom_groupParakeetWords {words : List Item}
    (hwords : TimedFrom durationSeconds none words) (hback : NeverBack words) :
    TimedFrom durationSeconds none (groupParakeetWords words) := by
  obtain ⟨blocks, rfl, hgroups, -⟩ := grouped_groupParakeetWords words
  exact timedFrom_groups hgroups hwords.forall_mem hback fun _ h => (by cases h)

/-! ## Runs -/

/-- What `_validate_run` asks of a run of either engine. -/
structure Checked (run : Value) (durationSeconds : ℚ) (index : Nat) (text : String)
    (segments : List Item) : Prop where
  timing : isZero (run.get "timing_issue_count") = true
  hasText : (run.get "text").bind Value.asStr = some text
  timed : timedItems (run.get "segments") (runName index ++ ".segments") durationSeconds = .ok segments
  covered : requireFullTextCoverage text segments (runName index ++ ".segments") = .ok ()

/-- What it asks of the utterances of an Apple run besides. -/
structure CheckedUtterances (run : Value) (durationSeconds : ℚ) (index : Nat) (text : String)
    (utterances : List Item) : Prop where
  timed : timedItems (run.get "utterances") (runName index ++ ".utterances") durationSeconds =
    .ok utterances
  covered : requireFullTextCoverage text utterances (runName index ++ ".utterances") = .ok ()

theorem isObject_of_get {field : Value} {name : String} (h : run.get name = some field) :
    run.isObject = true := by
  cases run <;> first | rfl | cases h

/-- After the checks of either engine the engine decides. -/
theorem Checked.validateRun {index : Nat} {text : String}
    (h : Checked run durationSeconds index text segments) (engine : String) :
    SpeechResults.validateRun run engine durationSeconds index =
      if engine = "apple" then do
        let utterances ← timedItems (run.get "utterances") (runName index ++ ".utterances")
          durationSeconds
        requireFullTextCoverage text utterances (runName index ++ ".utterances")
        requireAppleUtteranceAlignment segments utterances
        return utterances
      else if engine = "parakeet" then
        timedItems (some (.array ((groupParakeetWords segments).map Item.document)))
          (runName index ++ ".grouped_segments") durationSeconds
      else .error (.assertionError ("unexpected validated engine " ++ engine)) := by
  obtain ⟨field, hfield, -⟩ := Option.bind_eq_some_iff.mp h.hasText
  unfold SpeechResults.validateRun
  rw [refuseIf_of_not (by rw [isObject_of_get hfield]; exact Bool.noConfusion), ok_bind,
    refuseIf_of_not (by rw [h.timing]; exact Bool.noConfusion), ok_bind, h.hasText, orRefuse_some,
    ok_bind, h.timed, ok_bind, h.covered, ok_bind]

/-- A run that is admitted has passed them. -/
theorem checked_of_validateRun {engine : String} {index : Nat} {turns : List Item}
    (h : validateRun run engine durationSeconds index = .ok turns) :
    ∃ text segments, Checked run durationSeconds index text segments := by
  unfold validateRun at h
  simp only [bind_eq_ok, refuseIf_eq_ok, orRefuse_eq_ok] at h
  obtain ⟨-, -, -, htiming, text, htext, segments, hsegments, _, hcoverage, -⟩ := h
  exact ⟨text, segments, by simpa using htiming, htext, hsegments, hcoverage⟩

/-- An Apple run is admitted exactly when its segments are cut into its utterances, and
grouping the words of a Parakeet run whose times never go back refuses nothing. -/
theorem validateRun_admits_aligned (run : Value) (durationSeconds : ℚ) (index : Nat) :
    (∀ turns, validateRun run "apple" durationSeconds index = .ok turns ↔
      ∃ text segments, Checked run durationSeconds index text segments ∧
        CheckedUtterances run durationSeconds index text turns ∧ Aligned segments turns) ∧
      (∀ text segments, Checked run durationSeconds index text segments → NeverBack segments →
        validateRun run "parakeet" durationSeconds index = .ok (groupParakeetWords segments)) ∧
      ∀ words, Grouped words (groupParakeetWords words) := by
  refine ⟨fun turns => ⟨?_, ?_⟩, ?_, grouped_groupParakeetWords⟩
  · intro h
    obtain ⟨text, segments, hchecked⟩ := checked_of_validateRun h
    rw [hchecked.validateRun, if_pos rfl] at h
    simp only [bind_eq_ok, pure, Except.pure, Except.ok.injEq] at h
    obtain ⟨utterances, hutterances, _, hcoverage, _, halignment, rfl⟩ := h
    refine ⟨text, segments, hchecked, ⟨hutterances, hcoverage⟩, ?_⟩
    exact (requireAppleUtteranceAlignment_eq_ok (timedFrom_of_timedItems hchecked.timed)
      (timedFrom_of_timedItems hutterances)).mp halignment
  · rintro ⟨text, segments, hchecked, hutterances, haligned⟩
    have halignment := (requireAppleUtteranceAlignment_eq_ok
      (timedFrom_of_timedItems hchecked.timed)
      (timedFrom_of_timedItems hutterances.timed)).mpr haligned
    rw [hchecked.validateRun, if_pos rfl, hutterances.timed, ok_bind, hutterances.covered,
      ok_bind, halignment, ok_bind]
    rfl
  · intro text segments hchecked hback
    rw [hchecked.validateRun, if_neg (by decide), if_pos rfl]
    exact timedItems_documents
      (timedFrom_groupParakeetWords (timedFrom_of_timedItems hchecked.timed) hback) _

/-- A run of three words in two sentences. -/
def spokenWords : List Item := [⟨0, 1, "Hi."⟩, ⟨1, 2, "Go"⟩, ⟨2, 3, "on"⟩]

def spokenRun : Value :=
  .object [("timing_issue_count", .natural 0), ("text", .string "Hi. Go on"),
    ("segments", .array (spokenWords.map Item.document)),
    ("utterances", .array ([⟨0, 1, "Hi."⟩, ⟨1, 3, "Go on"⟩].map Item.document))]

theorem validateRun_admits_spokenRun :
    validateRun spokenRun "parakeet" 3 0 = .ok (groupParakeetWords spokenWords) ∧
      ∃ text segments, Checked spokenRun 3 0 text segments := by
  have hchecked : Checked spokenRun 3 0 "Hi. Go on" spokenWords :=
    ⟨rfl, rfl, by decide +kernel, by decide +kernel⟩
  have hback : NeverBack spokenWords := by unfold NeverBack; decide +kernel
  exact ⟨(validateRun_admits_aligned spokenRun 3 0).2.1 _ _ hchecked hback, _, _, hchecked⟩

/-! ## The result file -/

end SpeechResults

end YawnApp.Worker
