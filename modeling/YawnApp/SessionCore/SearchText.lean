import YawnApp.Foundation.Stretches
import YawnApp.SessionCore.LibraryRead

set_option autoImplicit false

/-!
# Searching a text (`library_read.rs`)

A field is searched in its normalized form, and a match is reported as the scalars of the
field that it came from.  Segmentation into graphemes, composition and lower case are the
platform's; what is relied on is that graphemes partition a text and that a slice taken
at their boundaries is segmented the same way.
-/

namespace YawnApp.SessionCore

open YawnApp.Foundation List

namespace LibraryRead

class Unicode where
  graphemes : List Char → List (List Char)
  /-- `ComposingNormalizer::normalize_to` of one grapheme. -/
  nfc : List Char → List Char
  /-- `char::to_lowercase` -/
  toLowercase : Char → List Char
  flatten_graphemes : ∀ text, (graphemes text).flatten = text
  graphemes_ne_nil : ∀ text, ∀ grapheme ∈ graphemes text, grapheme ≠ []
  graphemes_slice : ∀ text before middle after, graphemes text = before ++ middle ++ after →
    graphemes middle.flatten = middle

/-! ## Graphemes in place -/

/-- Graphemes with the scalars before them. -/
def placed : Nat → List (List Char) → List (List Char × Nat)
  | _, [] => []
  | scalar, grapheme :: rest => (grapheme, scalar) :: placed (scalar + grapheme.length) rest

theorem map_fst_placed (graphemes : List (List Char)) :
    ∀ scalar, (placed scalar graphemes).map Prod.fst = graphemes := by
  induction graphemes with
  | nil => exact fun _ => rfl
  | cons grapheme rest ih =>
    intro scalar
    rw [placed, map_cons, ih]

theorem placed_append (first second : List (List Char)) :
    ∀ scalar, placed scalar (first ++ second) =
      placed scalar first ++ placed (scalar + first.flatten.length) second := by
  induction first with
  | nil => exact fun _ => rfl
  | cons grapheme rest ih =>
    intro scalar
    rw [cons_append, placed, placed, ih, cons_append, flatten_cons, length_append,
      Nat.add_assoc]

variable {graphemes : List (List Char)} {needle : List Char} {scalar : Nat}
  {grapheme : List Char × Nat} {position : Nat}

/-- A cut of placed graphemes is a cut of the graphemes. -/
theorem exists_of_placed_eq_append {front back : List (List Char × Nat)}
    (h : placed scalar graphemes = front ++ back) :
    ∃ first second, graphemes = first ++ second ∧ front = placed scalar first ∧
      back = placed (scalar + first.flatten.length) second := by
  have hsplit := congrArg (List.map Prod.fst) h
  rw [map_fst_placed, map_append] at hsplit
  refine ⟨_, _, hsplit, ?_⟩
  have hplaced := placed_append (front.map Prod.fst) (back.map Prod.fst) scalar
  rw [← hsplit, h] at hplaced
  have hlength : front.length = (placed scalar (front.map Prod.fst)).length := by
    have := congrArg List.length (map_fst_placed (front.map Prod.fst) scalar)
    rw [length_map, length_map] at this
    exact this.symm
  exact append_inj hplaced hlength

/-- Placed graphemes lie one behind the other. -/
theorem placed_bounds (graphemes : List (List Char)) :
    ∀ scalar, ∀ grapheme ∈ placed scalar graphemes,
      scalar ≤ grapheme.2 ∧ grapheme.2 + grapheme.1.length ≤ scalar + graphemes.flatten.length := by
  induction graphemes with
  | nil => exact fun _ _ h => absurd h not_mem_nil
  | cons first rest ih =>
    intro scalar grapheme hgrapheme
    rw [placed] at hgrapheme
    rw [flatten_cons, length_append]
    rcases mem_cons.mp hgrapheme with rfl | hgrapheme
    · exact ⟨Nat.le_refl _, by dsimp only; omega⟩
    · have := ih _ grapheme hgrapheme
      omega

theorem placed_head (h : (placed scalar graphemes).head? = some grapheme) :
    grapheme.2 = scalar := by
  cases graphemes with
  | nil => cases h
  | cons =>
    cases h
    rfl

theorem placed_last (h : (placed scalar graphemes).getLast? = some grapheme) :
    grapheme.2 + grapheme.1.length = scalar + graphemes.flatten.length := by
  cases graphemes using List.reverseRecOn with
  | nil => cases h
  | append_singleton =>
    rw [placed_append, placed, placed, List.getLast?_concat] at h
    cases h
    simp [Nat.add_assoc]

/-! ## Windows -/

/-- `slice::windows` -/
def windows {α : Type} (size : Nat) (items : List α) : List (List α) :=
  (List.range (items.length + 1 - size)).map fun start => (items.drop start).take size

/-- The windows of a text that are the needle, with their positions. -/
def matching (haystack needle : List Char) : List (List Char × Nat) :=
  (windows needle.length haystack).zipIdx.filter fun window => window.1 == needle

theorem mem_zipIdx_windows {size : Nat} {text window : List Char} :
    (window, position) ∈ (windows size text).zipIdx ↔
      position < text.length + 1 - size ∧ window = (text.drop position).take size := by
  rw [mem_zipIdx_iff_getElem?, windows, List.getElem?_map, Option.map_eq_some_iff]
  constructor
  · rintro ⟨start, hstart, hwindow⟩
    obtain ⟨hlt, hget⟩ := List.getElem?_eq_some_iff.mp hstart
    rw [getElem_range] at hget
    rw [length_range] at hlt
    dsimp only at hlt hget hwindow
    subst hget
    exact ⟨hlt, hwindow.symm⟩
  · rintro ⟨hlt, rfl⟩
    exact ⟨position, by simp [hlt], rfl⟩

theorem mem_matching {haystack : List Char} {window : List Char} :
    (window, position) ∈ matching haystack needle ↔
      position < haystack.length + 1 - needle.length ∧ window = needle ∧
        needle = (haystack.drop position).take needle.length := by
  rw [matching, mem_filter, mem_zipIdx_windows, beq_iff_eq]
  constructor
  · rintro ⟨⟨hlt, hwindow⟩, rfl⟩
    exact ⟨hlt, rfl, hwindow⟩
  · rintro ⟨hlt, rfl, hwindow⟩
    exact ⟨⟨hlt, hwindow⟩, rfl⟩

/-- The positions are those at which the needle stands in the text. -/
theorem mem_map_matching {haystack : List Char} (hneedle : needle ≠ []) :
    position ∈ (matching haystack needle).map Prod.snd ↔ needle <+: haystack.drop position := by
  have hpos := length_pos_iff.mpr hneedle
  constructor
  · intro h
    obtain ⟨⟨window, _⟩, hmem, rfl⟩ := mem_map.mp h
    exact prefix_iff_eq_take.mpr (mem_matching.mp hmem).2.2
  · intro h
    have hlength := h.length_le
    rw [length_drop] at hlength
    refine mem_map.mpr ⟨(needle, position), mem_matching.mpr ⟨?_, rfl, ?_⟩, rfl⟩
    · omega
    · exact prefix_iff_eq_take.mp h

theorem pairwise_matching (haystack needle : List Char) :
    ((matching haystack needle).map Prod.snd).Pairwise (· < ·) := by
  have hsub : ((matching haystack needle).map Prod.snd).Sublist
      ((windows needle.length haystack).zipIdx.map Prod.snd) := filter_sublist.map _
  rw [zipIdx_map_snd] at hsub
  exact List.Pairwise.sublist hsub pairwise_lt_range'

variable [Unicode] {field : String}

/-! ## The functions -/

/-- The scalars that a grapheme is searched as. -/
def normalGrapheme (grapheme : List Char) : List Char :=
  (Unicode.nfc grapheme).flatMap Unicode.toLowercase

/-- The loop of `normalize`: every normalized scalar with the range of its grapheme. -/
def normalizeFrom : Nat → List (List Char) → List (Char × Nat × Nat)
  | _, [] => []
  | scalar, grapheme :: rest =>
    let range := (scalar, scalar + grapheme.length)
    (normalGrapheme grapheme).map (fun character => (character, range)) ++
      normalizeFrom range.2 rest

/-- `normalize` -/
def normalize (value : List Char) : List Char × List (Nat × Nat) :=
  let scalars := normalizeFrom 0 (Unicode.graphemes value)
  (scalars.map Prod.fst, scalars.map Prod.snd)

/-- The range from the first scalar of the origins to the last. -/
def spanOf (origins : List (Nat × Nat)) : Nat × Nat :=
  ((origins.map Prod.fst).min?.getD 0, (origins.map Prod.snd).max?.getD 0)

/-- `normalized_matches` -/
def normalizedMatches (field : String) (needle : List Char) : List (Nat × Nat) :=
  let (haystack, origins) := normalize field.toList
  if needle.isEmpty then []
  else
    ((windows needle.length haystack).zipIdx.filter fun window => window.1 == needle).map
      fun window => spanOf ((origins.drop window.2).take needle.length)

/-- `is_forbidden` -/
def isForbidden (character : Char) : Bool :=
  isControl character || character == '\u2028' || character == '\u2029'

/-- `trim_matches` by white space. -/
def trimWhitespace (text : List Char) : List Char :=
  ((text.dropWhile isWhitespace).reverse.dropWhile isWhitespace).reverse

/-- `normalize_query` -/
def normalizeQuery (query : String) : Except LibraryReadError (List Char) := do
  refuseIf (query.toList.any isForbidden = true) .invalidRequest
  let trimmed := trimWhitespace query.toList
  refuseIf (trimmed.isEmpty = true ∨ trimmed.length > 256) .invalidRequest
  return (normalize trimmed).1

/-- `normalize_search_query` -/
def normalizeSearchQuery (query : String) : Except LibraryReadError (List Char) := do
  let normalized ← normalizeQuery query
  refuseIf (normalized.length < 2) .invalidRequest
  return normalized

/-- `span_is_valid` -/
def spanIsValid (text : String) (start stop : Nat) : Bool :=
  decide (start < stop) && decide (stop ≤ text.toList.length)

/-- `scalar_slice` -/
def scalarSlice (text : String) (start stop : Nat) : Option String :=
  if spanIsValid text start stop then
    some (String.ofList ((text.toList.drop start).take (stop - start)))
  else none

/-! ## Normalized scalars and their origins -/

/-- What a grapheme is searched as, with its range. -/
def expand (grapheme : List Char × Nat) : List (Char × Nat × Nat) :=
  (normalGrapheme grapheme.1).map fun character =>
    (character, grapheme.2, grapheme.2 + grapheme.1.length)

/-- What graphemes are searched as. -/
def normalText (graphemes : List (List Char)) : List Char := graphemes.flatMap normalGrapheme

theorem normalizeFrom_eq (graphemes : List (List Char)) :
    ∀ scalar, normalizeFrom scalar graphemes = (placed scalar graphemes).flatMap expand := by
  induction graphemes with
  | nil => exact fun _ => rfl
  | cons grapheme rest ih =>
    intro scalar
    rw [normalizeFrom, placed, flatMap_cons, ← ih]
    rfl

theorem map_fst_flatMap_expand (graphemes : List (List Char)) :
    ∀ scalar, ((placed scalar graphemes).flatMap expand).map Prod.fst = normalText graphemes := by
  induction graphemes with
  | nil => exact fun _ => rfl
  | cons grapheme rest ih =>
    intro scalar
    have hfirst : (expand (grapheme, scalar)).map Prod.fst = normalGrapheme grapheme := by
      simp [expand, Function.comp_def]
    rw [placed, flatMap_cons, map_append, ih, hfirst]
    rfl

theorem normalize_fst (value : List Char) :
    (normalize value).1 = normalText (Unicode.graphemes value) := by
  unfold normalize
  rw [normalizeFrom_eq]
  exact map_fst_flatMap_expand _ 0

/-! ## The span of a match -/

theorem mem_expand {scalar : Char × Nat × Nat} (h : scalar ∈ expand grapheme) :
    scalar.2 = (grapheme.2, grapheme.2 + grapheme.1.length) := by
  obtain ⟨c, -, rfl⟩ := mem_map.mp h
  rfl

theorem length_flatMap_expand (graphemes : List (List Char)) (scalar : Nat) :
    ((placed scalar graphemes).flatMap expand).length = (normalText graphemes).length := by
  rw [← map_fst_flatMap_expand graphemes scalar, length_map]

/-- The smallest start and the largest end of a stretch of normalized scalars are those of
the graphemes that it begins and ends in. -/
theorem spanOf_eq {stretch : List (Char × Nat × Nat)} (hne : stretch ≠ [])
    (hmem : ∀ s ∈ stretch, ∃ grapheme ∈ placed scalar graphemes, s ∈ expand grapheme)
    (hfirst : ∀ x ∈ (placed scalar graphemes).head?, ∀ s ∈ stretch.head?, s ∈ expand x)
    (hlast : ∀ x ∈ (placed scalar graphemes).getLast?, ∀ s ∈ stretch.getLast?, s ∈ expand x) :
    spanOf (stretch.map Prod.snd) = (scalar, scalar + graphemes.flatten.length) := by
  obtain ⟨x, hx, -⟩ := hmem _ (head_mem hne)
  have hplaced : placed scalar graphemes ≠ [] := ne_nil_of_mem hx
  have hbounds : ∀ s ∈ stretch, scalar ≤ s.2.1 ∧ s.2.2 ≤ scalar + graphemes.flatten.length := by
    intro s hs
    obtain ⟨grapheme, hgrapheme, hexpand⟩ := hmem s hs
    rw [mem_expand hexpand]
    exact placed_bounds graphemes scalar grapheme hgrapheme
  have hstart : (stretch.head hne).2.1 = scalar := by
    have hhead := hfirst _ (List.head?_eq_some_head hplaced) _ (List.head?_eq_some_head hne)
    rw [mem_expand hhead]
    exact placed_head (List.head?_eq_some_head hplaced)
  have hstop : (stretch.getLast hne).2.2 = scalar + graphemes.flatten.length := by
    have htail := hlast _ (List.getLast?_eq_some_getLast hplaced) _ (List.getLast?_eq_some_getLast hne)
    rw [mem_expand htail]
    exact placed_last (List.getLast?_eq_some_getLast hplaced)
  have hmin : ((stretch.map Prod.snd).map Prod.fst).min? = some scalar := by
    refine List.min?_eq_some_iff.mpr ⟨?_, ?_⟩
    · exact mem_map.mpr ⟨_, mem_map_of_mem (head_mem hne), hstart⟩
    · intro start hstart
      obtain ⟨_, hrange, rfl⟩ := mem_map.mp hstart
      obtain ⟨s, hs, rfl⟩ := mem_map.mp hrange
      exact (hbounds s hs).1
  have hmax : ((stretch.map Prod.snd).map Prod.snd).max? =
      some (scalar + graphemes.flatten.length) := by
    refine List.max?_eq_some_iff.mpr ⟨?_, ?_⟩
    · exact mem_map.mpr ⟨_, mem_map_of_mem (getLast_mem hne), hstop⟩
    · intro stop hstop
      obtain ⟨_, hrange, rfl⟩ := mem_map.mp hstop
      obtain ⟨s, hs, rfl⟩ := mem_map.mp hrange
      exact (hbounds s hs).2
  rw [spanOf, hmin, hmax]
  rfl

/-- The graphemes that a stretch of normalized scalars comes from. -/
structure Covers (graphemes : List (List Char)) (position size : Nat) (span : Nat × Nat)
    (front middle back : List (List Char)) : Prop where
  split : graphemes = front ++ middle ++ back
  nonempty : middle ≠ []
  start : span.1 = front.flatten.length
  stop : span.2 = front.flatten.length + middle.flatten.length
  before : (normalText front).length ≤ position
  after : position + size ≤ (normalText (front ++ middle)).length

theorem exists_covers {before stretch after : List (Char × Nat × Nat)} (hne : stretch ≠ [])
    (h : (placed 0 graphemes).flatMap expand = before ++ stretch ++ after) : ∃ front middle back,
      Covers graphemes before.length stretch.length (spanOf (stretch.map Prod.snd)) front middle back ∧
        stretch.map Prod.fst <:+: normalText middle := by
  obtain ⟨front, middle, back, hstretch⟩ := exists_stretch hne h
  obtain ⟨pre, post, hexpands, hbefore, -⟩ := hstretch.expands
  have hsplit := hstretch.split
  rw [append_assoc] at hsplit
  obtain ⟨first, rest, rfl, rfl, hrest⟩ := exists_of_placed_eq_append hsplit
  obtain ⟨inner, last, rfl, rfl, -⟩ := exists_of_placed_eq_append hrest.symm
  have hmem : ∀ s ∈ stretch, ∃ grapheme ∈ placed (0 + first.flatten.length) inner,
      s ∈ expand grapheme := by
    intro s hs
    apply mem_flatMap.mp
    rw [hexpands]
    exact mem_append_left _ (mem_append_right _ hs)
  have hspan := spanOf_eq hne hmem hstretch.first hstretch.last
  rw [Nat.zero_add] at hspan hexpands
  have hlength := congrArg List.length hexpands
  rw [length_flatMap_expand, length_append, length_append] at hlength
  have hfront : before.length = (normalText first).length + pre.length := by
    rw [hbefore, length_append, length_flatMap_expand]
  refine ⟨first, inner, last, ⟨by rw [append_assoc], ?_, by rw [hspan], by rw [hspan], ?_, ?_⟩, ?_⟩
  · rintro rfl
    exact hstretch.nonempty rfl
  · omega
  · rw [normalText, flatMap_append, length_append]
    change _ ≤ (normalText first).length + (normalText inner).length
    omega
  · refine ⟨pre.map Prod.fst, post.map Prod.fst, ?_⟩
    rw [← map_fst_flatMap_expand inner first.flatten.length, hexpands, map_append, map_append]

/-! ## Matches -/

theorem normalizedMatches_eq (hneedle : needle ≠ []) :
    normalizedMatches field needle = (matching (normalize field.toList).1 needle).map fun window =>
      spanOf (((normalize field.toList).2.drop window.2).take needle.length) := by
  unfold normalizedMatches
  dsimp only
  rw [if_neg (by simpa using hneedle)]
  rfl

/-- A field has a match where its normalized form has the needle. -/
theorem normalizedMatches_ne_nil_iff (hneedle : needle ≠ []) :
    normalizedMatches field needle ≠ [] ↔ needle <:+: (normalize field.toList).1 := by
  rw [normalizedMatches_eq hneedle, ne_eq, map_eq_nil_iff]
  constructor
  · intro h
    obtain ⟨window, hwindow⟩ := exists_mem_of_ne_nil _ h
    have hmem := (mem_map_matching hneedle).mp (mem_map_of_mem hwindow)
    exact hmem.isInfix.trans (drop_suffix _ _).isInfix
  · rintro ⟨before, after, h⟩ hnil
    have hprefix : needle <+: (normalize field.toList).1.drop before.length := by
      rw [← h, append_assoc, drop_left]
      exact prefix_append _ _
    have hmem := (mem_map_matching hneedle).mpr hprefix
    rw [hnil] at hmem
    exact not_mem_nil hmem

/-- A match: what lies at a position of the normalized field came from this span of it. -/
structure Finds (field : String) (needle : List Char) (position : Nat) (span : Nat × Nat) :
    Prop where
  boundaries : ∃ front middle back,
    Covers (Unicode.graphemes field.toList) position needle.length span front middle back
  nonempty : span.1 < span.2
  within : span.2 ≤ field.toList.length
  again : ∃ slice, scalarSlice field span.1 span.2 = some slice ∧ normalizedMatches slice needle ≠ []

theorem finds_of_mem_matching (hneedle : needle ≠ []) {window : List Char × Nat}
    (h : window ∈ matching (normalize field.toList).1 needle) : Finds field needle window.2
      (spanOf (((normalize field.toList).2.drop window.2).take needle.length)) := by
  obtain ⟨window, position⟩ := window
  obtain ⟨hlt, -, hwindow⟩ := mem_matching.mp h
  have hpos := length_pos_iff.mpr hneedle
  generalize hscalars : (placed 0 (Unicode.graphemes field.toList)).flatMap expand = scalars
  have hnormalize : normalize field.toList = (scalars.map Prod.fst, scalars.map Prod.snd) := by
    rw [normalize, normalizeFrom_eq, hscalars]
  rw [hnormalize] at hlt hwindow ⊢
  rw [← map_drop, ← map_take] at hwindow ⊢
  have hlength : ((scalars.drop position).take needle.length).length = needle.length := by
    have := congrArg List.length hwindow
    rw [length_map] at this
    exact this.symm
  have hne : (scalars.drop position).take needle.length ≠ [] := by
    rw [← length_pos_iff, hlength]
    exact hpos
  have hsplit : scalars = scalars.take position ++ (scalars.drop position).take needle.length ++
      (scalars.drop position).drop needle.length := by
    rw [append_assoc, take_append_drop, take_append_drop]
  obtain ⟨front, middle, back, hcovers, hinfix⟩ := exists_covers hne (hscalars.trans hsplit)
  rw [length_map] at hlt
  rw [hlength, length_take, Nat.min_eq_left (by omega)] at hcovers
  have hfield : field.toList = front.flatten ++ (middle.flatten ++ back.flatten) := by
    rw [← Unicode.flatten_graphemes field.toList, hcovers.split, flatten_append,
      flatten_append, append_assoc]
  have hmiddle : middle.flatten ≠ [] := by
    intro hnil
    obtain ⟨grapheme, hgrapheme⟩ := exists_mem_of_ne_nil _ hcovers.nonempty
    refine Unicode.graphemes_ne_nil field.toList grapheme ?_ (flatten_eq_nil_iff.mp hnil _ hgrapheme)
    rw [hcovers.split]
    exact mem_append_left _ (mem_append_right _ hgrapheme)
  have hsize := length_pos_iff.mpr hmiddle
  have hwithin : front.flatten.length + middle.flatten.length ≤ field.toList.length := by
    rw [hfield, length_append, length_append]
    omega
  refine ⟨⟨front, middle, back, hcovers⟩, ?_, ?_, String.ofList middle.flatten, ?_, ?_⟩
  · rw [hcovers.start, hcovers.stop]
    omega
  · rw [hcovers.stop]
    exact hwithin
  · rw [hcovers.start, hcovers.stop, scalarSlice, if_pos, Nat.add_sub_cancel_left, hfield,
      drop_left, take_left]
    rw [spanIsValid, Bool.and_eq_true, decide_eq_true_eq, decide_eq_true_eq]
    exact ⟨by omega, hwithin⟩
  · rw [normalizedMatches_ne_nil_iff hneedle, String.toList_ofList, normalize_fst,
      Unicode.graphemes_slice field.toList front middle back hcovers.split, hwindow]
    exact hinfix

/-- A search reports a span for every position of the needle and nothing else, and each
span is found again by itself. -/
theorem normalizedMatches_exact (field : String) {needle : List Char} (hneedle : needle ≠ []) :
    ∃ positions : List Nat, positions.Pairwise (· < ·) ∧
      (∀ position, position ∈ positions ↔ needle <+: (normalize field.toList).1.drop position) ∧
      List.Forall₂ (Finds field needle) positions (normalizedMatches field needle) := by
  refine ⟨_, pairwise_matching (normalize field.toList).1 needle,
    fun position => mem_map_matching hneedle, ?_⟩
  rw [normalizedMatches_eq hneedle, List.forall₂_map_left_iff, List.forall₂_map_right_iff,
    List.forall₂_same]
  exact fun window hwindow => finds_of_mem_matching hneedle hwindow

end LibraryRead

section Sample

/-- A platform of texts whose scalars are graphemes and are composed. -/
@[reducible] def plainUnicode : LibraryRead.Unicode where
  graphemes text := text.map fun c => [c]
  nfc grapheme := grapheme
  toLowercase c := [c.toLower]
  flatten_graphemes := by
    intro text
    induction text with
    | nil => rfl
    | cons c text ih =>
      rw [List.map_cons, List.flatten_cons, ih]
      rfl
  graphemes_ne_nil := by
    intro text grapheme hgrapheme
    obtain ⟨c, -, rfl⟩ := List.mem_map.mp hgrapheme
    exact List.cons_ne_nil c []
  graphemes_slice := by
    intro text before middle after h
    have hsingle : ∀ grapheme ∈ middle, ∃ c, grapheme = [c] := by
      intro grapheme hgrapheme
      have hmem : grapheme ∈ text.map fun c => [c] := by
        rw [h]
        exact List.mem_append_left _ (List.mem_append_right _ hgrapheme)
      obtain ⟨c, -, rfl⟩ := List.mem_map.mp hmem
      exact ⟨c, rfl⟩
    clear h
    induction middle with
    | nil => rfl
    | cons grapheme rest ih =>
      obtain ⟨⟨c, rfl⟩, hrest⟩ := List.forall_mem_cons.mp hsingle
      rw [List.flatten_cons, List.map_append, ih hrest]
      rfl

theorem normalizedMatches_exact_plain :
    ∃ positions : List Nat, positions.Pairwise (· < ·) ∧
      List.Forall₂ (@LibraryRead.Finds plainUnicode "Q3 pricing" ['q', '3']) positions
        (@LibraryRead.normalizedMatches plainUnicode "Q3 pricing" ['q', '3']) := by
  obtain ⟨positions, hordered, -, hfinds⟩ :=
    @LibraryRead.normalizedMatches_exact plainUnicode "Q3 pricing" ['q', '3'] (by simp)
  exact ⟨positions, hordered, hfinds⟩

end Sample

end YawnApp.SessionCore
