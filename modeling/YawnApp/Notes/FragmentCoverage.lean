import YawnApp.Foundation.Sha256
import YawnApp.Notes.CandidateManifest

set_option autoImplicit false

/-!
# Every fragment is shown

The fragments of a turn cover its words, the manifest of a transcript has one candidate a
fragment, and of the candidates that are offered one at least shows any given fragment.
-/

namespace YawnApp.Notes

open YawnApp.Foundation List

section Shown

variable {window : Nat}

/-! ## What a candidate shows -/

/-- A fragment no further from the anchor than the window is shown. -/
theorem mem_visibleFragmentIds {fragments : List Fragment} {i j : Nat} {fragment : Fragment}
    (hj : fragments[j]? = some fragment) (hlow : i ≤ j + window) (hhigh : j ≤ i + window) :
    fragment.sourceFragmentId ∈ visibleFragmentIds fragments i window := by
  obtain ⟨hlt, hget⟩ := List.getElem?_eq_some_iff.mp hj
  unfold visibleFragmentIds
  refine mem_map_of_mem (mem_iff_getElem?.mpr ⟨j - (i - window), ?_⟩)
  rw [List.getElem?_drop, List.getElem?_take, if_pos (by omega),
    show i - window + (j - (i - window)) = j by omega, hj]

theorem length_visibleFragmentIds_le (fragments : List Fragment) (i : Nat) :
    (visibleFragmentIds fragments i window).length ≤ 2 * window + 1 := by
  unfold visibleFragmentIds
  rw [length_map, length_drop, length_take]
  omega

theorem visibleFragmentIds_sublist (fragments : List Fragment) (i window : Nat) :
    (visibleFragmentIds fragments i window).Sublist (fragments.map Fragment.sourceFragmentId) :=
  ((drop_sublist _ _).trans (take_sublist _ _)).map _

end Shown

/-! ## The broad candidates -/

theorem descriptor_inj {strategy viewDigest first second : String}
    (h : descriptor strategy viewDigest first none none none =
      descriptor strategy viewDigest second none none none) : first = second := by
  simpa [descriptor] using h

theorem filterMap_range_getElem? {α β : Type} (l : List α) :
    ∀ (offset : Nat) (f : Nat → α → β),
      (List.range l.length).filterMap (fun i => l[i]?.map (f (offset + i))) =
        (l.zipIdx offset).map fun row => f row.2 row.1 := by
  induction l with
  | nil => intro offset f; rfl
  | cons a l ih =>
    intro offset f
    rw [length_cons, range_succ_eq_map, filterMap_cons, zipIdx_cons,
      map_cons, ← ih (offset + 1) f, filterMap_map]
    simp [Nat.add_assoc, Nat.add_comm 1]

section Broad

variable [Digests]

/-- The candidate of a fragment. -/
def broadCandidate (fragmentMap : FragmentMap) (window : Nat) (row : Fragment × Nat) : Candidate where
  candidateId := candidateId (descriptor strategyBroad fragmentMap.transcriptViewSha256
    row.1.sourceFragmentId none none none)
  ordinal := (row.2 + 1 : ℕ)
  anchorFragmentId := row.1.sourceFragmentId
  anchorTurn := row.1.turn
  anchorCharStart := row.1.charStart
  anchorCharEnd := row.1.charEnd
  cueType := none
  cueStart := none
  cueEnd := none
  visibleFragmentIds := visibleFragmentIds fragmentMap.fragments row.2 window

variable {fragmentMap : FragmentMap} {window : Nat}

theorem broadCandidates_eq :
    broadCandidates fragmentMap window =
      fragmentMap.fragments.zipIdx.map (broadCandidate fragmentMap window) := by
  rw [← filterMap_range_getElem? fragmentMap.fragments 0
    fun i fragment => broadCandidate fragmentMap window (fragment, i)]
  apply filterMap_congr
  intro i _
  rw [Nat.zero_add, candidate]
  cases fragmentMap.fragments[i]? <;> rfl

theorem map_anchorFragmentId_broadCandidates :
    (broadCandidates fragmentMap window).map Candidate.anchorFragmentId =
      fragmentMap.fragments.map Fragment.sourceFragmentId := by
  rw [broadCandidates_eq, map_map]
  conv_rhs => rw [← zipIdx_map_fst 0 fragmentMap.fragments, map_map]
  rfl

theorem map_ordinal_broadCandidates (fragmentMap : FragmentMap) (window : Nat) :
    (broadCandidates fragmentMap window).map Candidate.ordinal =
      (List.range (broadCandidates fragmentMap window).length).map fun n : Nat => (n : ℤ) + 1 := by
  rw [broadCandidates_eq, length_map, length_zipIdx, map_map]
  apply ext_getElem (by simp)
  intro i _ _
  simp [broadCandidate]

theorem getElem?_broadCandidates {i : Nat} {fragment : Fragment}
    (h : fragmentMap.fragments[i]? = some fragment) :
    (broadCandidates fragmentMap window)[i]? =
      some (broadCandidate fragmentMap window (fragment, i)) := by
  rw [broadCandidates_eq, List.getElem?_map, List.getElem?_zipIdx, h]
  simp

theorem mem_broadCandidates {row : Candidate} (h : row ∈ broadCandidates fragmentMap window) :
    ∃ i fragment, fragmentMap.fragments[i]? = some fragment ∧
      row = broadCandidate fragmentMap window (fragment, i) := by
  rw [broadCandidates_eq] at h
  obtain ⟨⟨fragment, i⟩, hmem, rfl⟩ := mem_map.mp h
  exact ⟨i, fragment, mem_zipIdx_iff_getElem?.mp hmem, rfl⟩

/-! ## Names -/

/-- No two candidates of the map are named after the same digest. -/
def NamesApart (fragmentMap : FragmentMap) : Prop :=
  Set.InjOn jsonSha256 (Set.image (fun fragment : Fragment =>
    descriptor strategyBroad fragmentMap.transcriptViewSha256 fragment.sourceFragmentId
      none none none) {fragment | fragment ∈ fragmentMap.fragments})

theorem nodup_candidateIds (window : Nat) (hnames : NamesApart fragmentMap)
    (hids : (fragmentMap.fragments.map Fragment.sourceFragmentId).Nodup) :
    ((broadCandidates fragmentMap window).map Candidate.candidateId).Nodup := by
  rw [broadCandidates_eq, map_map, List.Nodup, pairwise_map]
  have hpair : (fragmentMap.fragments.zipIdx).Pairwise fun a b =>
      a.1.sourceFragmentId ≠ b.1.sourceFragmentId := by
    rw [← zipIdx_map_fst 0 fragmentMap.fragments, map_map, List.Nodup,
      pairwise_map] at hids
    exact hids
  refine hpair.imp_of_mem fun {a b} ha hb hne hid => hne ?_
  have ha' : a.1 ∈ fragmentMap.fragments := fst_mem_of_mem_zipIdx ha
  have hb' : b.1 ∈ fragmentMap.fragments := fst_mem_of_mem_zipIdx hb
  have hdigest := (String.append_right_inj "cf-").mp hid
  exact descriptor_inj (hnames ⟨a.1, ha', rfl⟩ ⟨b.1, hb', rfl⟩ hdigest)

end Broad

/-! ## The manifest of a transcript -/

theorem visibleWindow_productContract : visibleWindow productContract = some 2 := by decide

theorem lookup_isSome {fragments : List Fragment} {id : String}
    (h : id ∈ fragments.map Fragment.sourceFragmentId) :
    ∃ fragment ∈ fragments, lookup fragments id = some fragment := by
  obtain ⟨fragment, hmem, hid⟩ := mem_map.mp h
  have hsome : (lookup fragments id).isSome = true := by
    rw [lookup, List.find?_isSome]
    exact ⟨fragment, hmem, beq_iff_eq.mpr hid⟩
  obtain ⟨found, hfound⟩ := Option.isSome_iff_exists.mp hsome
  exact ⟨found, mem_of_find?_eq_some hfound, hfound⟩

section Manifest

variable [Digests]

variable {transcript : Transcript}

/-- What a candidate shows resolves. -/
theorem resolveAll_eq_ok {ids : List String}
    (h : ∀ id ∈ ids, id ∈ (fragmentsOf transcript).map Fragment.sourceFragmentId) :
    resolveAll transcript (buildFragmentMap transcript) ids = .ok () := by
  induction ids with
  | nil => rfl
  | cons id rest ih =>
    obtain ⟨fragment, hmem, hfound⟩ := lookup_isSome (h id mem_cons_self)
    rw [resolveAll, show lookup (buildFragmentMap transcript).fragments id = some fragment from hfound,
      orRefuse_some, show (buildFragmentMap transcript).transcriptViewSha256 =
        transcriptViewSha256 transcript from rfl]
    show (resolveFragment fragment transcript _ >>= _) = _
    rw [resolveFragment_of_mem hmem]
    exact ih fun other hother => h other (mem_cons_of_mem _ hother)

theorem checkReferences_eq_ok {window : Nat} {rows : List Candidate}
    (h : ∀ row ∈ rows, row ∈ broadCandidates (buildFragmentMap transcript) window) :
    checkReferences transcript (buildFragmentMap transcript) window rows = .ok () := by
  induction rows with
  | nil => rfl
  | cons row rest ih =>
    obtain ⟨i, fragment, hget, rfl⟩ := mem_broadCandidates (h _ mem_cons_self)
    have hanchor : fragment.sourceFragmentId ∈
        visibleFragmentIds (buildFragmentMap transcript).fragments i window :=
      mem_visibleFragmentIds hget (Nat.le_add_right _ _) (Nat.le_add_right _ _)
    have hsub := visibleFragmentIds_sublist (buildFragmentMap transcript).fragments i window
    have hknown : ∀ id ∈ visibleFragmentIds (buildFragmentMap transcript).fragments i window,
        id ∈ (fragmentsOf transcript).map Fragment.sourceFragmentId := fun id hid => hsub.subset hid
    have hvalid : ¬ ((lookup (buildFragmentMap transcript).fragments
        fragment.sourceFragmentId).isNone = true ∨
        ¬ (1 ≤ (visibleFragmentIds (buildFragmentMap transcript).fragments i window).length ∧
          (visibleFragmentIds (buildFragmentMap transcript).fragments i window).length ≤
            2 * window + 1) ∨
        fragment.sourceFragmentId ∉
          visibleFragmentIds (buildFragmentMap transcript).fragments i window ∨
        ¬ (visibleFragmentIds (buildFragmentMap transcript).fragments i window).Nodup ∨
        (visibleFragmentIds (buildFragmentMap transcript).fragments i window).any
          (fun id => (lookup (buildFragmentMap transcript).fragments id).isNone) = true) := by
      rintro (hnone | hlength | hnot | hdup | hunknown)
      · obtain ⟨found, -, hfound⟩ := lookup_isSome (hknown _ hanchor)
        rw [show lookup (buildFragmentMap transcript).fragments fragment.sourceFragmentId =
          some found from hfound] at hnone
        cases hnone
      · exact hlength ⟨length_pos_of_mem hanchor, length_visibleFragmentIds_le _ _⟩
      · exact hnot hanchor
      · exact hdup ((nodup_fragmentIds transcript).sublist hsub)
      · obtain ⟨id, hid, hnone⟩ := any_eq_true.mp hunknown
        obtain ⟨found, -, hfound⟩ := lookup_isSome (hknown id hid)
        rw [show lookup (buildFragmentMap transcript).fragments id = some found from hfound] at hnone
        cases hnone
    rw [checkReferences]
    refine bind_eq_ok.mpr ⟨(), refuseIf_of_not hvalid, bind_eq_ok.mpr ⟨(), ?_, ?_⟩⟩
    · exact resolveAll_eq_ok hknown
    · exact ih fun other hother => h other (mem_cons_of_mem _ hother)

variable [CuePatterns]

/-- The manifest of the product lane. -/
def productManifest (transcript : Transcript) : Manifest :=
  let candidates := broadCandidates (buildFragmentMap transcript) 2
  let manifest : Manifest := {
    schema := manifestSchema
    strategy := strategyBroad
    source := transcript.source
    attribution := transcript.attribution.name
    transcriptViewSha256 := transcriptViewSha256 transcript
    fragmentContractSha256 := (buildFragmentMap transcript).fragmentContractSha256
    generatorContract := productContract
    generatorContractSha256 := jsonSha256 (.object productContract)
    turns := transcript.turns.length
    sourceFragments := (fragmentsOf transcript).length
    candidateCount := candidates.length
    candidates
    manifestSha256 := "" }
  { manifest with manifestSha256 := jsonSha256 (.object manifest.base) }

theorem generateManifest_product (transcript : Transcript) :
    generateManifest transcript strategyBroad (some productContract) =
      .ok (productManifest transcript) := by
  unfold generateManifest
  refine bind_eq_ok.mpr ⟨(), refuseIf_of_not (by decide), ?_⟩
  refine bind_eq_ok.mpr ⟨2, orRefuse_eq_ok.mpr visibleWindow_productContract, ?_⟩
  exact bind_eq_ok.mpr ⟨(), refuseIf_of_not (by decide), rfl⟩

theorem validateManifest_product
    (hnames : NamesApart (buildFragmentMap transcript)) :
    validateManifest (productManifest transcript) transcript = .ok (productManifest transcript) := by
  have hwindow := visibleWindow_productContract
  have hids := nodup_candidateIds 2 hnames (nodup_fragmentIds transcript)
  have hordinals := map_ordinal_broadCandidates (buildFragmentMap transcript) 2
  have hreferences : checkReferences transcript (buildFragmentMap transcript) 2
      (broadCandidates (buildFragmentMap transcript) 2) = .ok () :=
    checkReferences_eq_ok fun row hrow => hrow
  unfold validateManifest
  refine bind_eq_ok.mpr ⟨(), refuseIf_of_not (fun h => h rfl), ?_⟩
  refine bind_eq_ok.mpr ⟨(), refuseIf_of_not (fun h => h mem_cons_self), ?_⟩
  refine bind_eq_ok.mpr ⟨(), refuseIf_of_not (fun h => h rfl), ?_⟩
  refine bind_eq_ok.mpr ⟨(), refuseIf_of_not (fun h => h rfl), ?_⟩
  refine bind_eq_ok.mpr ⟨_, generateManifest_product transcript, ?_⟩
  refine bind_eq_ok.mpr ⟨(), refuseIf_of_not (fun h => h rfl), ?_⟩
  refine bind_eq_ok.mpr ⟨2, orRefuse_eq_ok.mpr hwindow, ?_⟩
  refine bind_eq_ok.mpr ⟨(), refuseIf_of_not (fun h => h hids), ?_⟩
  refine bind_eq_ok.mpr ⟨(), refuseIf_of_not (fun h => h hordinals), ?_⟩
  exact bind_eq_ok.mpr ⟨(), hreferences, rfl⟩

end Manifest

/-! ## The offer -/

variable {offered : List Candidate} {stride : ℤ}

theorem mem_offeredCandidates {candidates : List Candidate}
    (h : offeredCandidates candidates stride = .ok offered) {row : Candidate} :
    row ∈ offered ↔ ∃ i, candidates[i]? = some row ∧ i % stride.toNat = 0 := by
  unfold offeredCandidates at h
  obtain ⟨_, -, hoffered⟩ := bind_eq_ok.mp h
  cases hoffered
  rw [mem_map]
  constructor
  · rintro ⟨⟨row, i⟩, hmem, rfl⟩
    obtain ⟨hrow, hstride⟩ := mem_filter.mp hmem
    exact ⟨i, mem_zipIdx_iff_getElem?.mp hrow, beq_iff_eq.mp hstride⟩
  · rintro ⟨i, hrow, hstride⟩
    exact ⟨(row, i), mem_filter.mpr
      ⟨mem_zipIdx_iff_getElem?.mpr hrow, beq_iff_eq.mpr hstride⟩, rfl⟩

theorem offeredCandidates_sublist {candidates : List Candidate}
    (h : offeredCandidates candidates stride = .ok offered) : offered.Sublist candidates := by
  unfold offeredCandidates at h
  obtain ⟨_, -, hoffered⟩ := bind_eq_ok.mp h
  cases hoffered
  have hsub := (filter_sublist (p := fun row : Candidate × Nat =>
    row.2 % stride.toNat == 0) (l := candidates.zipIdx)).map Prod.fst
  rwa [zipIdx_map_fst] at hsub

/-- With a stride no larger than the window and one every fragment is shown with an offered
candidate: the one at or before its place. -/
theorem exists_offered_shows [Digests] {fragmentMap : FragmentMap} {window : Nat}
    (hwindow : stride ≤ window + 1)
    (h : offeredCandidates (broadCandidates fragmentMap window) stride = .ok offered)
    {fragment : Fragment} (hfragment : fragment ∈ fragmentMap.fragments) :
    ∃ row ∈ offered, fragment.sourceFragmentId ∈ row.visibleFragmentIds := by
  have hpos : 0 < stride := by
    unfold offeredCandidates at h
    obtain ⟨_, hrefuse, -⟩ := bind_eq_ok.mp h
    exact Int.not_le.mp (refuseIf_eq_ok.mp hrefuse)
  obtain ⟨j, hj⟩ := mem_iff_getElem?.mp hfragment
  obtain ⟨hlt, -⟩ := List.getElem?_eq_some_iff.mp hj
  have hmod : j % stride.toNat < stride.toNat := Nat.mod_lt _ (by omega)
  have hle := Nat.mod_le j stride.toNat
  have hanchor : fragmentMap.fragments[j - j % stride.toNat]? =
      some (fragmentMap.fragments.get ⟨j - j % stride.toNat, by omega⟩) :=
    List.getElem?_eq_getElem _
  refine ⟨_, (mem_offeredCandidates h).mpr
    ⟨j - j % stride.toNat, getElem?_broadCandidates hanchor, ?_⟩, ?_⟩
  · exact Nat.mod_eq_zero_of_dvd (Nat.dvd_sub_mod j)
  · exact mem_visibleFragmentIds hj (by omega) (by omega)

/-- In batches of one each candidate has its own. -/
theorem candidateBatches_one (candidates : List Candidate) :
    candidateBatches candidates 1 = .ok (candidates.map fun row => [row]) := by
  unfold candidateBatches
  rw [refuseIf_of_not (by decide)]
  refine congrArg Except.ok (ext_getElem (by simp) fun i hi _ => ?_)
  simp only [length_map, length_range, Int.toNat_one, Nat.add_sub_cancel,
    Nat.div_one] at hi
  simp [take_one, hi]

/-! ## The whole -/

/-- A character as `json.dumps` writes it. -/
def escaped (c : Char) : List Char :=
  if c = '"' then ['\\', '"']
  else if c = '\\' then ['\\', '\\']
  else if c = '\n' then ['\\', 'n']
  else if c = '\r' then ['\\', 'r']
  else if c = '\t' then ['\\', 't']
  else if c.toNat < 32 then
    ['\\', 'u', '0', '0', Nat.digitChar (c.toNat / 16), Nat.digitChar (c.toNat % 16)]
  else [c]

def quoted (s : String) : List Char := '"' :: s.toList.flatMap escaped ++ ['"']

mutual

/-- The text of a value with sorted keys and no spaces; a number that is no integer does not
occur in it. -/
def compactText : Value → List Char
  | .null => "null".toList
  | .bool true => "true".toList
  | .bool false => "false".toList
  | .natural n => Nat.toDigits 10 n
  | .decimal q => (toString q.num).toList
  | .string s => quoted s
  | .array items => '[' :: [','].intercalate (compactItems items) ++ [']']
  | .object fields =>
    '\x7b' :: [','].intercalate (((compactFields fields).insertionSort
      fun a b => a.1 ≤ b.1).map Prod.snd) ++ ['\x7d']

def compactItems : List Value → List (List Char)
  | [] => []
  | item :: items => compactText item :: compactItems items

def compactFields : List (String × Value) → List (String × List Char)
  | [] => []
  | (name, value) :: fields =>
    (name, quoted name ++ ':' :: compactText value) :: compactFields fields

end

@[reducible] def compactDigests : Digests where
  sha256 := Sha256.hexDigest
  dumps := compactText

/-- Expressions that find nothing. -/
@[reducible] def noCues : CuePatterns where
  cueMatches _ := []
  assents _ := false

def shipTranscript : Transcript where
  source := "ship"
  attribution := .named
  turns := [⟨"We ship on Friday.".toList, some "Ana".toList⟩]

end YawnApp.Notes
