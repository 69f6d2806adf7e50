import Mathlib.Data.List.GetD
import YawnApp.Foundation.Delimited
import YawnApp.Foundation.Json
import YawnApp.Foundation.Strides
import YawnApp.Foundation.WordRanges

set_option autoImplicit false

/-!
# The fragment map of a transcript (`summarize.py`)

A turn is cut into fragments of whole words that overlap, and a fragment is named by the
digest of the transcript as the model sees it, its turn and its character offsets.
-/

namespace YawnApp.Notes

open YawnApp.Foundation List

/-! ## Text -/

/-- `str.isspace` of one code point, which is also what `\s` matches. -/
def isSpaceCode (n : Nat) : Bool :=
  (9 ≤ n && n ≤ 13) || (0x1C ≤ n && n ≤ 0x20) || n == 0x85 || n == 0xA0 || n == 0x1680 ||
    (0x2000 ≤ n && n ≤ 0x200A) || n == 0x2028 || n == 0x2029 || n == 0x202F || n == 0x205F ||
    n == 0x3000

def isSpace (c : Char) : Bool := isSpaceCode c.toNat

/-- `f"{n:06d}"` -/
def sixDigits (n : Nat) : List Char :=
  List.replicate (6 - (Nat.toDigits 10 n).length) '0' ++ Nat.toDigits 10 n

theorem ofDigitChars_sixDigits (n : Nat) : Nat.ofDigitChars 10 (sixDigits n) 0 = n := by
  rw [sixDigits, Nat.ofDigitChars_append, Nat.ofDigitChars_replicate_zero, Nat.mul_zero]
  exact Nat.ofDigitChars_toDigits (by omega) (by omega)

theorem sixDigits_inj {m n : Nat} (h : sixDigits m = sixDigits n) : m = n := by
  rw [← ofDigitChars_sixDigits m, h, ofDigitChars_sixDigits]

theorem hyphen_notMem_sixDigits (n : Nat) : '-' ∉ sixDigits n := by
  rw [sixDigits, mem_append, not_or]
  constructor
  · intro h
    exact absurd (eq_of_mem_replicate h) (by decide)
  · intro h
    exact absurd (Nat.isDigit_of_mem_toDigits (by omega) (by omega) h) (by decide)

/-- `hashlib` and `json`. -/
class Digests where
  /-- `_sha256` of a text. -/
  sha256 : List Char → String
  /-- `json.dumps` with sorted keys and no spaces. -/
  dumps : Value → List Char

/-! ## The fragments of a turn -/

/-- `FRAGMENT_CONTRACT` -/
structure FragmentContract where
  schema : String
  wordDefinition : String
  targetWords : Nat
  overlapWords : Nat
  mergeTailUnderWords : Nat
  crossTurns : Bool
  offsets : String

def fragmentContract : FragmentContract where
  schema := "source-fragments/1"
  wordDefinition := "non-whitespace Unicode runs"
  targetWords := 32
  overlapWords := 8
  mergeTailUnderWords := 12
  crossTurns := false
  offsets := "Unicode code point indices [start,end)"

def FragmentContract.toValue (contract : FragmentContract) : Value :=
  .object [("schema", .string contract.schema),
    ("word_definition", .string contract.wordDefinition),
    ("target_words", .natural contract.targetWords),
    ("overlap_words", .natural contract.overlapWords),
    ("merge_tail_under_words", .natural contract.mergeTailUnderWords),
    ("cross_turns", .bool contract.crossTurns),
    ("offsets", .string contract.offsets)]

/-- The windows of words that the contract asks for. -/
def fragmentStrides : Strides where
  size := fragmentContract.targetWords
  step := fragmentContract.targetWords - fragmentContract.overlapWords
  floor := fragmentContract.mergeTailUnderWords
  step_pos := by decide
  step_le := by decide
  floor_pos := by decide
  floor_le := by decide

/-- From the start of the first word of a window to the end of its last. -/
def spanOf (found : List (Nat × List Char)) (window : Nat × Nat) : Nat × Nat :=
  ((found.getD window.1 (0, [])).1, wordStop (found.getD (window.2 - 1) (0, [])))

/-- `_turn_fragment_spans` -/
def turnFragmentSpans (text : List Char) : List (Nat × Nat) :=
  let found := words isSpace text
  if found = [] then [] else (fragmentStrides.windows found.length).map (spanOf found)

/-! ## What the spans cover -/

/-- The words of the text that stand in the span. -/
def wordsWithin (text : List Char) (span : Nat × Nat) : List (Nat × List Char) :=
  (words isSpace text).filter fun word =>
    decide (span.1 ≤ word.1) && decide (wordStop word ≤ span.2)

section Words

variable {text : List Char}

theorem start_lt_stop {word : Nat × List Char} (h : word ∈ words isSpace text) :
    word.1 < wordStop word := by
  have := length_pos_of_ne_nil (ne_nil_of_mem_words h)
  unfold wordStop
  omega

/-- A later word starts and ends later. -/
theorem later_word (text : List Char) {i j : Nat} (hij : i < j) (hj : j < (words isSpace text).length) :
    ((words isSpace text).getD i (0, [])).1 < ((words isSpace text).getD j (0, [])).1 ∧
      wordStop ((words isSpace text).getD i (0, [])) <
        wordStop ((words isSpace text).getD j (0, [])) := by
  have hi : i < (words isSpace text).length := by omega
  rw [getD_eq_getElem _ _ hi, getD_eq_getElem _ _ hj]
  have hle := pairwise_iff_getElem.mp (words_pairwise text) i j hi hj hij
  have hfirst := start_lt_stop (getElem_mem hi)
  have hsecond := start_lt_stop (getElem_mem hj)
  omega

/-- The words within the span of a window are the words of the window. -/
theorem wordsWithin_spanOf {window : Nat × Nat} (hlt : window.1 < window.2)
    (hle : window.2 ≤ (words isSpace text).length) :
    wordsWithin text (spanOf (words isSpace text) window) =
      ((words isSpace text).take window.2).drop window.1 := by
  obtain ⟨i, j⟩ := window
  simp only [] at hlt hle ⊢
  have hsplit : words isSpace text = (words isSpace text).take i ++
      ((words isSpace text).take j).drop i ++ (words isSpace text).drop j := by
    rw [show (words isSpace text).take i = ((words isSpace text).take j).take i by
      rw [take_take, Nat.min_eq_left (by omega)], take_append_drop,
      take_append_drop]
  have hlength : (((words isSpace text).take j).drop i).length = j - i := by
    rw [length_drop, length_take, Nat.min_eq_left hle]
  have hne : ((words isSpace text).take j).drop i ≠ [] :=
    ne_nil_of_length_pos (by omega)
  have hhead : (((words isSpace text).take j).drop i).head hne =
      (words isSpace text).getD i (0, []) := by
    rw [getD_eq_getElem _ _ (by omega), head_drop, getElem_take]
  have hlast : (((words isSpace text).take j).drop i).getLast hne =
      (words isSpace text).getD (j - 1) (0, []) := by
    rw [getD_eq_getElem _ _ (by omega), getLast_drop, getLast_eq_getElem,
      getElem_take]
    simp only [length_take, Nat.min_eq_left hle]
  have hfilter := filter_range hsplit hne
  rw [hhead, hlast] at hfilter
  exact hfilter

theorem length_wordsWithin_spanOf {window : Nat × Nat} (hlt : window.1 < window.2)
    (hle : window.2 ≤ (words isSpace text).length) :
    (wordsWithin text (spanOf (words isSpace text) window)).length = window.2 - window.1 := by
  rw [wordsWithin_spanOf hlt hle, length_drop, length_take, Nat.min_eq_left hle]

/-- The words of the text that stand in both spans. -/
def commonWords (text : List Char) (a b : Nat × Nat) : List (Nat × List Char) :=
  (wordsWithin text a).filter fun word =>
    decide (b.1 ≤ word.1) && decide (wordStop word ≤ b.2)

/-- Windows in order share the words from the start of the later to the end of the former. -/
theorem length_commonWords_spanOf {a b : Nat × Nat} (hstart : a.1 < b.1) (hmeet : b.1 < a.2)
    (hstop : a.2 < b.2) (hle : b.2 ≤ (words isSpace text).length) :
    (commonWords text (spanOf (words isSpace text) a) (spanOf (words isSpace text) b)).length =
      a.2 - b.1 := by
  have hfirst := (later_word text hstart (by omega)).1
  have hlast := (later_word text (show a.2 - 1 < b.2 - 1 by omega) (by omega)).2
  have hcommon : commonWords text (spanOf (words isSpace text) a) (spanOf (words isSpace text) b) =
      wordsWithin text (spanOf (words isSpace text) (b.1, a.2)) := by
    unfold commonWords wordsWithin
    rw [filter_filter]
    apply filter_congr
    intro word _
    rw [Bool.eq_iff_iff]
    simp only [Bool.and_eq_true, decide_eq_true_eq]
    simp only [spanOf]
    omega
  rw [hcommon, length_wordsWithin_spanOf hmeet (by simp only []; omega)]

/-- What the spans of a turn have to do. -/
structure CoversText (text : List Char) (spans : List (Nat × Nat)) : Prop where
  boundaries : ∀ span ∈ spans, (∃ word ∈ words isSpace text, word.1 = span.1) ∧
    ∃ word ∈ words isSpace text, wordStop word = span.2
  increasing : spans.Pairwise fun a b => a.1 < b.1 ∧ a.2 < b.2
  covered : ∀ word ∈ words isSpace text, ∃ span ∈ spans,
    span.1 ≤ word.1 ∧ wordStop word ≤ span.2
  overlapping : spans.IsChain fun a b =>
    (commonWords text a b).length = fragmentContract.overlapWords
  short : ∀ span ∈ spans, (wordsWithin text span).length ≤ 43
  long : 1 < spans.length → ∀ span ∈ spans, 20 ≤ (wordsWithin text span).length

theorem covers_windows (hne : words isSpace text ≠ []) :
    CoversText text ((fragmentStrides.windows (words isSpace text).length).map
      (spanOf (words isSpace text))) := by
  have hcount := length_pos_of_ne_nil hne
  have hbounds : ∀ w ∈ fragmentStrides.windows (words isSpace text).length,
      w.1 < w.2 ∧ w.2 ≤ (words isSpace text).length := fun w hw =>
    ⟨(fragmentStrides.mem_windows hw).2.1 hcount, (fragmentStrides.mem_windows hw).1⟩
  refine ⟨?_, ?_, ?_, ?_, ?_, ?_⟩
  · intro span hspan
    obtain ⟨w, hw, rfl⟩ := mem_map.mp hspan
    obtain ⟨hlt, hle⟩ := hbounds w hw
    refine ⟨⟨_, ?_, rfl⟩, ⟨_, ?_, rfl⟩⟩ <;> rw [getD_eq_getElem _ _ (by omega)] <;>
      exact getElem_mem _
  · rw [pairwise_map]
    refine (fragmentStrides.pairwise_windows _).imp_of_mem fun {a b} ha hb hab => ?_
    have hfirst := hbounds a ha
    have hsecond := hbounds b hb
    exact ⟨(later_word text hab.1 (by omega)).1,
      (later_word text (show a.2 - 1 < b.2 - 1 by omega) (by omega)).2⟩
  · intro word hword
    obtain ⟨i, hi, rfl⟩ := mem_iff_getElem.mp hword
    obtain ⟨w, hw, hstart, hstop⟩ := fragmentStrides.exists_mem_windows hi
    have hle := hbounds w hw
    refine ⟨_, mem_map_of_mem hw, ?_⟩
    have hmem : (words isSpace text)[i] ∈ wordsWithin text (spanOf (words isSpace text) w) := by
      rw [wordsWithin_spanOf hle.1 hle.2, mem_drop_iff_getElem]
      refine ⟨i - w.1, by rw [length_take]; omega, ?_⟩
      rw [getElem_take]
      simp only [show w.1 + (i - w.1) = i by omega]
    have := (mem_filter.mp hmem).2
    simpa only [Bool.and_eq_true, decide_eq_true_eq] using this
  · rw [isChain_map]
    refine (fragmentStrides.isChain_windows _).imp_of_mem_imp fun a b ha hb hab => ?_
    have hfirst := hbounds a ha
    have hsecond := hbounds b hb
    have hoverlap : a.2 = b.1 + fragmentContract.overlapWords := hab.2.2
    have hpos : 0 < fragmentContract.overlapWords := by decide
    rw [length_commonWords_spanOf hab.1 (by omega) hab.2.1 hsecond.2]
    omega
  · intro span hspan
    obtain ⟨w, hw, rfl⟩ := mem_map.mp hspan
    rw [length_wordsWithin_spanOf (hbounds w hw).1 (hbounds w hw).2]
    exact (fragmentStrides.mem_windows hw).2.2.1
  · intro hmore span hspan
    obtain ⟨w, hw, rfl⟩ := mem_map.mp hspan
    rw [length_map] at hmore
    rw [length_wordsWithin_spanOf (hbounds w hw).1 (hbounds w hw).2]
    exact (fragmentStrides.mem_windows hw).2.2.2 hmore

theorem coversText_turnFragmentSpans (text : List Char) : CoversText text (turnFragmentSpans text) := by
  unfold turnFragmentSpans
  by_cases hnil : words isSpace text = []
  · rw [if_pos hnil]
    refine ⟨?_, List.Pairwise.nil, ?_, List.IsChain.nil, ?_, ?_⟩
    · intro span hspan
      cases hspan
    · rw [hnil]
      intro word hword
      cases hword
    · intro span hspan
      cases hspan
    · intro _ span hspan
      cases hspan
  · rw [if_neg hnil]
    exact covers_windows hnil

/-- A span is a range of the text that is not empty. -/
theorem span_bounds {span : Nat × Nat} (h : span ∈ turnFragmentSpans text) :
    span.1 < span.2 ∧ span.2 ≤ text.length := by
  by_cases hne : words isSpace text = []
  · rw [turnFragmentSpans, if_pos hne] at h
    cases h
  · rw [turnFragmentSpans, if_neg hne] at h
    obtain ⟨w, hw, rfl⟩ := mem_map.mp h
    have hcount := length_pos_of_ne_nil hne
    have hlt := (fragmentStrides.mem_windows hw).2.1 hcount
    have hle := (fragmentStrides.mem_windows hw).1
    have hfirst : (words isSpace text).getD w.1 (0, []) ∈ words isSpace text := by
      rw [getD_eq_getElem _ _ (by omega)]
      exact getElem_mem _
    have hlast : (words isSpace text).getD (w.2 - 1) (0, []) ∈ words isSpace text := by
      rw [getD_eq_getElem _ _ (by omega)]
      exact getElem_mem _
    refine ⟨?_, stop_le_of_mem_words hlast⟩
    have hstop := start_lt_stop hlast
    simp only [spanOf]
    rcases Nat.lt_or_ge w.1 (w.2 - 1) with hmore | hone
    · have := (later_word text hmore (by omega)).1
      omega
    · rw [show w.1 = w.2 - 1 by omega]
      exact hstop

end Words

/-! ## Transcripts -/

inductive Attribution where
  | named
  | channel
  | none
deriving DecidableEq, Repr

def Attribution.name : Attribution → String
  | .named => "named"
  | .channel => "channel"
  | .none => "none"

/-- A turn that the model may see. -/
structure Turn where
  text : List Char
  speaker : Option (List Char)
deriving DecidableEq, Repr

structure Transcript where
  source : String
  attribution : Attribution
  turns : List Turn

def Turn.line (attribution : Attribution) (turn : Turn) : List Char :=
  let speaker := turn.speaker.getD []
  if attribution = .none ∨ speaker = [] then '-' :: ' ' :: turn.text
  else speaker ++ ':' :: ' ' :: turn.text

/-- `Transcript.render` -/
def Transcript.render (transcript : Transcript) : List Char :=
  ['\n'].intercalate (transcript.turns.map (Turn.line transcript.attribution))

/-! ## The map -/

/-- `f"sf-\x7bview_digest\x7d-t\x7bturn:06d\x7d-c\x7bstart:06d\x7d-\x7bend:06d\x7d"` -/
def fragmentId (viewDigest : String) (turn start stop : Nat) : String :=
  String.ofList ("sf-".toList ++ viewDigest.toList ++ "-t".toList ++ (sixDigits turn ++
    '-' :: 'c' :: (sixDigits start ++ '-' :: sixDigits stop)))

theorem fragmentId_inj {viewDigest : String} {turn start stop turn' start' stop' : Nat}
    (h : fragmentId viewDigest turn start stop = fragmentId viewDigest turn' start' stop') :
    turn = turn' ∧ start = start' ∧ stop = stop' := by
  have hlist := append_cancel_left (String.ofList_injective h)
  obtain ⟨hturn, hrest⟩ := append_mark_inj (hyphen_notMem_sixDigits _)
    (hyphen_notMem_sixDigits _) hlist
  obtain ⟨hstart, hstop⟩ := append_mark_inj (hyphen_notMem_sixDigits _)
    (hyphen_notMem_sixDigits _) (List.cons.inj hrest).2
  exact ⟨sixDigits_inj hturn, sixDigits_inj hstart, sixDigits_inj hstop⟩

section Map

variable [Digests]

def transcriptViewSha256 (transcript : Transcript) : String := Digests.sha256 transcript.render

structure Fragment where
  sourceFragmentId : String
  turn : Nat
  charStart : Nat
  charEnd : Nat
  text : List Char
  textSha256 : String
deriving DecidableEq, Repr

def fragmentOf (viewDigest : String) (turn : Nat) (text : List Char) (span : Nat × Nat) :
    Fragment :=
  let exact := (text.drop span.1).take (span.2 - span.1)
  { sourceFragmentId := fragmentId viewDigest turn span.1 span.2
    turn
    charStart := span.1
    charEnd := span.2
    text := exact
    textSha256 := Digests.sha256 exact }

/-- The row of a fragment in the digest of the map. -/
def Fragment.digestRow (fragment : Fragment) : Value :=
  .object [("source_fragment_id", .string fragment.sourceFragmentId),
    ("turn", .natural fragment.turn), ("char_start", .natural fragment.charStart),
    ("char_end", .natural fragment.charEnd), ("text_sha256", .string fragment.textSha256)]

structure FragmentMap where
  transcriptViewSha256 : String
  fragmentContract : FragmentContract
  fragmentContractSha256 : String
  fragmentMapSha256 : String
  fragments : List Fragment

/-- The loops of `build_fragment_map`. -/
def fragmentsOf (transcript : Transcript) : List Fragment :=
  transcript.turns.zipIdx.flatMap fun row =>
    (turnFragmentSpans row.1.text).map
      (fragmentOf (transcriptViewSha256 transcript) row.2 row.1.text)

/-- `build_fragment_map` -/
def buildFragmentMap (transcript : Transcript) : FragmentMap where
  transcriptViewSha256 := transcriptViewSha256 transcript
  fragmentContract := fragmentContract
  fragmentContractSha256 := Digests.sha256 (Digests.dumps fragmentContract.toValue)
  fragmentMapSha256 := Digests.sha256 (Digests.dumps
    (.array ((fragmentsOf transcript).map Fragment.digestRow)))
  fragments := fragmentsOf transcript

/-- `StructuredOutputError` -/
structure StructuredOutputError where
  message : String
deriving DecidableEq, Repr

/-- `resolve_fragment` -/
def resolveFragment (fragment : Fragment) (transcript : Transcript) (viewDigest : String) :
    Except StructuredOutputError (List Char) := do
  refuseIf (transcriptViewSha256 transcript ≠ viewDigest)
    ⟨"transcript view digest changed before evidence resolution"⟩
  let turn ← orRefuse transcript.turns[fragment.turn]?
    ⟨"source fragment turn is outside the transcript view"⟩
  refuseIf (¬ (fragment.charStart < fragment.charEnd ∧ fragment.charEnd ≤ turn.text.length))
    ⟨"source fragment has invalid character offsets"⟩
  let exact := (turn.text.drop fragment.charStart).take (fragment.charEnd - fragment.charStart)
  refuseIf (Digests.sha256 exact ≠ fragment.textSha256 ∨ exact ≠ fragment.text)
    ⟨"source fragment no longer resolves byte-for-byte"⟩
  return exact

variable {transcript : Transcript} {fragment : Fragment}

theorem mem_fragmentsOf : fragment ∈ fragmentsOf transcript ↔
    ∃ turn row span, transcript.turns[turn]? = some row ∧ span ∈ turnFragmentSpans row.text ∧
      fragment = fragmentOf (transcriptViewSha256 transcript) turn row.text span := by
  unfold fragmentsOf
  rw [mem_flatMap]
  constructor
  · rintro ⟨⟨row, turn⟩, hrow, hfragment⟩
    obtain ⟨span, hspan, rfl⟩ := mem_map.mp hfragment
    exact ⟨turn, row, span, mem_zipIdx_iff_getElem?.mp hrow, hspan, rfl⟩
  · rintro ⟨turn, row, span, hrow, hspan, rfl⟩
    exact ⟨(row, turn), mem_zipIdx_iff_getElem?.mpr hrow, mem_map_of_mem hspan⟩

/-- Fragments stand in the order of their turns and of their starts. -/
theorem pairwise_fragmentsOf (transcript : Transcript) :
    (fragmentsOf transcript).Pairwise fun a b =>
      a.turn < b.turn ∨ (a.turn = b.turn ∧ a.charStart < b.charStart) := by
  unfold fragmentsOf
  rw [pairwise_flatMap]
  refine ⟨fun row _ => ?_, ?_⟩
  · rw [pairwise_map]
    exact (coversText_turnFragmentSpans row.1.text).increasing.imp fun hab => .inr ⟨rfl, hab.1⟩
  · rw [pairwise_iff_getElem]
    intro i j hi hj hij a ha b hb
    obtain ⟨span, _, rfl⟩ := mem_map.mp ha
    obtain ⟨other, _, rfl⟩ := mem_map.mp hb
    left
    simp only [fragmentOf, getElem_zipIdx]
    omega

theorem sourceFragmentId_of_mem (h : fragment ∈ fragmentsOf transcript) :
    fragment.sourceFragmentId = fragmentId (transcriptViewSha256 transcript) fragment.turn
      fragment.charStart fragment.charEnd := by
  obtain ⟨turn, row, span, _, _, rfl⟩ := mem_fragmentsOf.mp h
  rfl

theorem nodup_fragmentIds (transcript : Transcript) :
    ((fragmentsOf transcript).map Fragment.sourceFragmentId).Nodup := by
  rw [List.Nodup, pairwise_map]
  refine (pairwise_fragmentsOf transcript).imp_of_mem fun {a b} ha hb hab hid => ?_
  rw [sourceFragmentId_of_mem ha, sourceFragmentId_of_mem hb] at hid
  obtain ⟨hturn, hstart, -⟩ := fragmentId_inj hid
  omega

/-- The fragments of a transcript resolve against it. -/
theorem resolveFragment_of_mem (h : fragment ∈ fragmentsOf transcript) :
    resolveFragment fragment transcript (transcriptViewSha256 transcript) = .ok fragment.text := by
  obtain ⟨turn, row, span, hrow, hspan, rfl⟩ := mem_fragmentsOf.mp h
  have hbounds := span_bounds hspan
  simp [resolveFragment, fragmentOf, refuseIf, hrow, hbounds.1, hbounds.2]

end Map

end YawnApp.Notes
