import YawnApp.Desktop.DomPatch

set_option autoImplicit false

/-!
# Keyed nodes under a patch (`dom-patch.mjs`)

A keyed node that both lists have stays on the page.  It stays attached as long as the cursor
stands on it when its turn comes, and the cursor moves past an old sibling only where a new one
takes it.
-/

namespace YawnApp.Desktop

open YawnApp.Foundation List

namespace DomPatch

/-! ## Gaps -/

section Gaps

variable {α : Type}

/-- An element in front of the first gap. -/
def push (a : α) : List (List α) → List (List α)
  | [] => []
  | gap :: gaps => (a :: gap) :: gaps

/-- For each element that passes the test, what stands between it and the one before. -/
def gaps (test : α → Bool) : List α → List (List α)
  | [] => []
  | a :: rest => if test a then [] :: gaps test rest else push a (gaps test rest)

theorem length_push (a : α) (l : List (List α)) : (push a l).length = l.length := by
  cases l <;> rfl

/-- What stands before the first element that passes is the first gap. -/
theorem gaps_append {test : α → Bool} {front : List α} {a : α} (back : List α)
    (hfront : ∀ b ∈ front, test b = false) (ha : test a = true) :
    gaps test (front ++ a :: back) = front :: gaps test back := by
  induction front with
  | nil => rw [nil_append, gaps, if_pos ha]
  | cons b front ih =>
    have hb : test b = false := hfront b mem_cons_self
    rw [cons_append, gaps, if_neg (by simp [hb]),
      ih fun c hc => hfront c (mem_cons_of_mem _ hc), push]

end Gaps

variable {L : Type} {front back : List (Placed L)} {node new : Node L} {state : Patch L}
  {old : Placed L} {next : Patch L}

/-! ## One round -/

/-- The key of a node and its tag. -/
def mark (node : Node L) : Option (String × String) :=
  match nodeKey node, node.tagName with
  | some key, some tagName => some (key, tagName)
  | _, _ => none

def marks (nodes : List (Node L)) : List (String × String) := nodes.filterMap mark

theorem mark_eq_some {key tagName : String} :
    mark node = some (key, tagName) ↔ nodeKey node = some key ∧ node.tagName = some tagName := by
  unfold mark
  cases nodeKey node <;> cases node.tagName <;> simp

theorem mark_eq_none : mark node = none ↔ nodeKey node = none := by
  cases hkey : nodeKey node with
  | none => simp [mark, hkey]
  | some =>
    obtain ⟨tagName, htag⟩ := exists_tagName_of_nodeKey hkey
    simp [mark, hkey, htag]

/-- What the loop keeps where no key is twice among the old siblings. -/
structure Patch.Tracks (state : Patch L) : Prop where
  places : (state.rest.map Prod.snd).Nodup
  keys : (state.rest.filterMap fun child => nodeKey child.1).Nodup
  keyed : ∀ key, lookupKey Prod.fst key state.keyed =
    (state.rest.find? fun child => nodeKey child.1 = some key).map fun child => (key, child)

/-- What a round does to the old siblings that are left. -/
inductive Round (morph : Node L → Morphed L) (new : Node L) (state next : Patch L) : Prop
  | taken (front : List (Placed L)) (old : Placed L) (back : List (Placed L))
      (mark : String × String) :
      state.rest = front ++ old :: back → DomPatch.mark old.1 = some mark →
      DomPatch.mark new = some mark → next.rest = front ++ back →
      next.done = state.done ++ [⟨(morph old.1).old, some old.2⟩] →
      next.moved = (if front = [] then state.moved else state.moved ++ [old.2]) →
      Round morph new state next
  | matched (old : Placed L) (back : List (Placed L)) :
      state.rest = old :: back → nodeKey old.1 = none → nodeKey new = none →
      old.1.kind = new.kind → next.rest = back →
      next.done = state.done ++ [⟨(morph old.1).old, some old.2⟩] →
      next.moved = state.moved → Round morph new state next
  | adopted :
      (∀ old ∈ state.rest, DomPatch.mark old.1 = DomPatch.mark new →
        DomPatch.mark new = none) →
      (∀ old back, state.rest = old :: back → nodeKey old.1 = none → nodeKey new = none →
        old.1.kind ≠ new.kind) →
      next.rest = state.rest → next.done = state.done ++ [⟨new, none⟩] →
      next.moved = state.moved → Round morph new state next

theorem eraseP_place (h : ((front ++ old :: back).map Prod.snd).Nodup) :
    (front ++ old :: back).eraseP (fun child => child.2 = old.2) = front ++ back := by
  have hfront : ∀ child ∈ front, ¬ decide (child.2 = old.2) = true := by
    intro child hchild hsame
    rw [map_append, nodup_append] at h
    exact h.2.2 child.2 (mem_map_of_mem hchild) old.2 (by simp) (of_decide_eq_true hsame)
  rw [eraseP_append_right _ hfront, eraseP_cons_of_pos (by simp)]

theorem head_place (h : ((front ++ old :: back).map Prod.snd).Nodup) :
    (front ++ old :: back).head?.map Prod.snd = some old.2 ↔ front = [] := by
  cases front with
  | nil => simp
  | cons =>
    simp only [cons_append, List.head?_cons, Option.map_some, Option.some.injEq,
      cons_ne_nil, iff_false]
    intro hsame
    rw [cons_append, map_cons, nodup_cons] at h
    exact h.1 (by simp [hsame])

/-- The other keys are found where they were. -/
theorem find_key_remove {key : String} (hold : nodeKey old.1 ≠ some key) :
    (front ++ old :: back).find? (fun child => nodeKey child.1 = some key) =
      (front ++ back).find? fun child => nodeKey child.1 = some key := by
  rw [List.find?_append, List.find?_append, List.find?_cons_of_neg (by simpa using hold)]

theorem not_found_of_keys {key : String} (hold : nodeKey old.1 = some key)
    (h : ((front ++ old :: back).filterMap fun child => nodeKey child.1).Nodup) :
    (front ++ back).find? (fun child => nodeKey child.1 = some key) = none := by
  rw [List.find?_eq_none]
  intro child hchild hsame
  have hsame : nodeKey child.1 = some key := of_decide_eq_true hsame
  simp only [filterMap_append, filterMap_cons, hold] at h
  have hperm := perm_middle.nodup_iff.mp h
  rw [nodup_cons, ← filterMap_append] at hperm
  exact hperm.1 (mem_filterMap.mpr ⟨child, hchild, hsame⟩)

theorem Patch.Tracks.remove (h : state.Tracks) (hrest : state.rest = front ++ old :: back)
    (hnext : next.rest = front ++ back) (hkeyed : next.keyed = forget (nodeKey old.1) state.keyed) :
    next.Tracks := by
  have hsub : (front ++ back).Sublist (front ++ old :: back) :=
    (sublist_cons_self old back).append_left front
  have hplaces := h.places
  have hkeys := h.keys
  rw [hrest] at hplaces hkeys
  refine ⟨?_, ?_, ?_⟩
  · rw [hnext]
    exact hplaces.sublist (hsub.map _)
  · rw [hnext]
    exact hkeys.sublist (hsub.filterMap _)
  · intro key
    rw [hkeyed, hnext, forget]
    cases hold : nodeKey old.1 with
    | none =>
      have hall : (state.keyed.filter fun entry => decide (some entry.1 ≠ none)) = state.keyed := by
        rw [filter_eq_self]
        intro entry _
        simp
      rw [hall, h.keyed, hrest, find_key_remove (by rw [hold]; simp)]
    | some taken =>
      have hfilter : (state.keyed.filter fun entry => decide (some entry.1 ≠ some taken)) =
          state.keyed.filter fun entry => entry.1 ≠ taken := by
        simp
      rw [hfilter, lookupKey_filter_key]
      by_cases hkey : key = taken
      · rw [if_pos hkey, hkey, not_found_of_keys hold hkeys, Option.map_none]
      · rw [if_neg hkey, h.keyed, hrest, find_key_remove]
        rw [hold]
        exact fun heq => hkey (Option.some.inj heq).symm

theorem nodeKey_of_mark {old : Node L} {taken : String × String} (hold : mark old = some taken)
    (hnew : mark new = some taken) : nodeKey old = nodeKey new := by
  obtain ⟨key, tagName⟩ := taken
  rw [(mark_eq_some.mp hold).1, (mark_eq_some.mp hnew).1]

/-- What the map finds is an old sibling with the key and the tag of the new node. -/
theorem Patch.Tracks.keyedMatch_eq_some (h : state.Tracks)
    (hmatch : keyedMatch state.keyed new = some old) :
    ∃ front back taken, state.rest = front ++ old :: back ∧ mark old.1 = some taken ∧
      mark new = some taken := by
  obtain ⟨key, hkey, hlook, htag⟩ := DomPatch.keyedMatch_eq_some hmatch
  rw [h.keyed] at hlook
  obtain ⟨found, hfound, heq⟩ := Option.map_eq_some_iff.mp hlook
  obtain rfl : found = old := (Prod.mk.inj heq).2
  obtain ⟨hsame, front, back, hrest, -⟩ := List.find?_eq_some_iff_append.mp hfound
  obtain ⟨tagName, hnew⟩ := exists_tagName_of_nodeKey hkey
  exact ⟨front, back, (key, tagName), hrest,
    mark_eq_some.mpr ⟨of_decide_eq_true hsame, htag.trans hnew⟩, mark_eq_some.mpr ⟨hkey, hnew⟩⟩

/-- Where the map finds nothing, no old sibling has the key and the tag. -/
theorem Patch.Tracks.keyedMatch_eq_none (h : state.Tracks)
    (hmatch : keyedMatch state.keyed new = none) :
    ∀ old ∈ state.rest, mark old.1 = mark new → mark new = none := by
  intro old hold hmark
  cases hnew : mark new with
  | none => rfl
  | some taken =>
    obtain ⟨key, tagName⟩ := taken
    obtain ⟨hkey, htag⟩ := mark_eq_some.mp hnew
    obtain ⟨hkeyOld, htagOld⟩ := mark_eq_some.mp (hmark.trans hnew)
    have hfound : state.rest.find? (fun child => nodeKey child.1 = some key) = some old := by
      obtain ⟨found, hfound⟩ : ∃ found,
          state.rest.find? (fun child => nodeKey child.1 = some key) = some found := by
        rw [← Option.isSome_iff_exists, List.find?_isSome]
        exact ⟨old, hold, by simpa using hkeyOld⟩
      obtain ⟨hsame, front, back, hrest, -⟩ := List.find?_eq_some_iff_append.mp hfound
      have hkeyFound : nodeKey found.1 = some key := of_decide_eq_true hsame
      have hnone := not_found_of_keys hkeyFound (hrest ▸ h.keys)
      rw [List.find?_eq_none] at hnone
      rw [hrest, mem_append, mem_cons] at hold
      rcases hold with hfront | heq | hback
      · exact absurd (by simpa using hkeyOld)
          (hnone old (mem_append.mpr (.inl hfront)))
      · rw [hfound, heq]
      · exact absurd (by simpa using hkeyOld)
          (hnone old (mem_append.mpr (.inr hback)))
    have hlook : lookupKey Prod.fst key state.keyed = some (key, old) := by
      rw [h.keyed, hfound, Option.map_some]
    have hsome : keyedMatch state.keyed new = some old := by
      rw [keyedMatch, hkey]
      simp [hlook, Option.filter, htagOld.trans htag.symm]
    rw [hmatch] at hsome
    cases hsome

theorem forget_none (keyed : List (String × Placed L)) : forget none keyed = keyed := by
  rw [forget, filter_eq_self]
  intro entry _
  simp

theorem patchStep_round (h : state.Tracks) (morph : Node L → Morphed L) (new : Node L) :
    (patchStep morph state new).Tracks ∧ Round morph new state (patchStep morph state new) := by
  unfold patchStep
  cases hmatch : keyedMatch state.keyed new with
  | some old =>
    obtain ⟨front, back, taken, hrest, hold, hnew⟩ := h.keyedMatch_eq_some hmatch
    have hplaces := hrest ▸ h.places
    have hnext : state.rest.eraseP (fun child => child.2 = old.2) = front ++ back := by
      rw [hrest]
      exact eraseP_place hplaces
    refine ⟨h.remove hrest hnext (by rw [nodeKey_of_mark hold hnew]), ?_⟩
    refine .taken front old back taken hrest hold hnew hnext rfl ?_
    have hhead := head_place hplaces
    simp only [hrest]
    by_cases hfront : front = []
    · rw [if_pos (hhead.mpr hfront), if_pos hfront]
    · rw [if_neg fun h => hfront (hhead.mp h), if_neg hfront]
  | none =>
    cases hplace : positional state.rest new with
    | some old =>
      obtain ⟨hhead, hold, hcompatible⟩ := positional_eq_some hplace
      obtain ⟨back, hrest⟩ : ∃ back, state.rest = old :: back := by
        cases hrest : state.rest with
        | nil => simp [hrest] at hhead
        | cons first back => exact ⟨back, by simpa [hrest] using hhead⟩
      have hnew : nodeKey new = none := by
        cases hnew : nodeKey new with
        | none => rfl
        | some =>
          obtain ⟨tagName, htag⟩ := exists_tagName_of_nodeKey hnew
          have hboth := of_decide_eq_true hcompatible
          have helement : old.1.isElement = true := by
            have hkind := hboth.1
            cases hnode : old.1 with
            | element => rfl
            | data =>
              rw [hnode] at hkind
              cases new with
              | data => simp [Node.tagName] at htag
              | element => simp [Node.kind] at hkind
          rw [← hboth.2 helement, hold] at hnew
          cases hnew
      have hfront : state.rest = [] ++ old :: back := hrest
      refine ⟨h.remove hfront (by simp [hrest]) ?_, ?_⟩
      · rw [hold, forget_none]
      · exact .matched old back hrest hold hnew (kind_of_compatible hcompatible) (by simp [hrest])
          rfl rfl
    | none =>
      refine ⟨⟨h.places, h.keys, h.keyed⟩, .adopted (h.keyedMatch_eq_none hmatch) ?_ rfl rfl rfl⟩
      intro old back hrest hold hnew hkind
      have hsome : positional state.rest new = some old := by
        simp [positional, hrest, Option.filter, hold, hnew, compatible, hkind]
      rw [hplace] at hsome
      cases hsome

theorem lookupKey_keepFirst (key : String) (keyed : List (String × Placed L)) (child : Placed L) :
    lookupKey Prod.fst key (keepFirst keyed child) =
      (lookupKey Prod.fst key keyed).or
        (if nodeKey child.1 = some key then some (key, child) else none) := by
  unfold keepFirst
  cases hkey : nodeKey child.1 with
  | none => simp
  | some taken =>
    simp only [Option.some.injEq]
    by_cases hsome : (lookupKey Prod.fst taken keyed).isSome = true
    · rw [if_pos hsome]
      by_cases htaken : taken = key
      · obtain ⟨entry, hentry⟩ := Option.isSome_iff_exists.mp (htaken ▸ hsome)
        rw [hentry, Option.some_or]
      · rw [if_neg htaken, Option.or_none]
    · rw [if_neg hsome, lookupKey_append]
      congr 1
      simp [lookupKey, List.find?_singleton]
      by_cases htaken : taken = key <;> simp [htaken]

theorem lookupKey_foldl_keepFirst (key : String) :
    ∀ (children : List (Placed L)) (keyed : List (String × Placed L)),
      lookupKey Prod.fst key (children.foldl keepFirst keyed) =
        (lookupKey Prod.fst key keyed).or
          ((children.find? fun child => nodeKey child.1 = some key).map fun child => (key, child))
  | [], keyed => by simp
  | child :: rest, keyed => by
    rw [foldl_cons, lookupKey_foldl_keepFirst key rest, lookupKey_keepFirst, Option.or_assoc]
    congr 1
    by_cases hkey : nodeKey child.1 = some key
    · rw [List.find?_cons_of_pos (by simpa using hkey), if_pos hkey, Option.some_or,
        Option.map_some]
    · rw [List.find?_cons_of_neg (by simpa using hkey), if_neg hkey, Option.none_or]

theorem Patch.Tracks.start {children : List (Node L)}
    (h : (children.filterMap nodeKey).Nodup) : (Patch.start children).Tracks where
  places := by
    have hplaces : children.zipIdx.map Prod.snd = List.range' 0 children.length :=
      zipIdx_map_snd 0 children
    rw [Patch.start, hplaces]
    exact nodup_range'
  keys := by
    have hkeys : (children.zipIdx.map Prod.fst).filterMap nodeKey =
        children.zipIdx.filterMap fun child => nodeKey child.1 := filterMap_map
    rw [Patch.start, ← hkeys, zipIdx_map_fst]
    exact h
  keyed key := by
    rw [Patch.start, lookupKey_foldl_keepFirst]
    rfl

/-! ## The run -/

theorem eq_of_key {rest : List (Placed L)} {first : Placed L} {key : String}
    (h : (rest.filterMap fun child => nodeKey child.1).Nodup)
    (hrest : rest = front ++ first :: back) (hfirst : nodeKey first.1 = some key)
    (hold : old ∈ rest) (hkey : nodeKey old.1 = some key) : old = first := by
  subst hrest
  have hnone := not_found_of_keys hfirst h
  rw [List.find?_eq_none] at hnone
  rw [mem_append, mem_cons] at hold
  rcases hold with hfront | heq | hback
  · exact absurd (by simpa using hkey) (hnone old (mem_append.mpr (.inl hfront)))
  · exact heq
  · exact absurd (by simpa using hkey) (hnone old (mem_append.mpr (.inr hback)))

theorem Round.done {morph : Node L → Morphed L} (h : Round morph new state next) :
    ∃ child, next.done = state.done ++ [child] := by
  cases h with
  | taken _ _ _ _ _ _ _ _ hdone | matched _ _ _ _ _ _ _ hdone | adopted _ _ _ hdone =>
    exact ⟨_, hdone⟩

theorem Round.rest {morph : Node L → Morphed L} (h : Round morph new state next) :
    next.rest.Sublist state.rest := by
  cases h with
  | taken front old back _ hrest _ _ hnext =>
    rw [hrest, hnext]
    exact (sublist_cons_self old back).append_left front
  | matched old back hrest _ _ _ hnext =>
    rw [hrest, hnext]
    exact sublist_cons_self old back
  | adopted _ _ hnext => rw [hnext]

variable (browser : Browser L) {shared : String × String → Bool}

theorem patchLoop_done : ∀ (new : List (Node L)) {state : Patch L}, state.Tracks →
    ∃ results, (patchLoop browser state new).done = state.done ++ results
  | [], state, _ => ⟨[], by rw [patchLoop, append_nil]⟩
  | new :: rest, state, h => by
    obtain ⟨hnext, hround⟩ := patchStep_round h (fun old => morphNode browser old new) new
    obtain ⟨child, hdone⟩ := hround.done
    obtain ⟨results, hresults⟩ := patchLoop_done rest hnext
    exact ⟨child :: results, by
      rw [patchLoop, hresults, hdone, append_assoc, singleton_append]⟩

theorem patchLoop_rest : ∀ (new : List (Node L)) {state : Patch L}, state.Tracks →
    (patchLoop browser state new).rest.Sublist state.rest
  | [], state, _ => by rw [patchLoop]
  | new :: rest, state, h => by
    obtain ⟨hnext, hround⟩ := patchStep_round h (fun old => morphNode browser old new) new
    rw [patchLoop]
    exact (patchLoop_rest rest hnext).trans hround.rest

/-- An old sibling that the new list has too is the node at the new one's position, and is
left on the page. -/
theorem patchLoop_kept {old : Placed L} {new : Node L} (post : List (Node L))
    {taken : String × String} (hold : mark old.1 = some taken) (hnew : mark new = some taken) :
    ∀ (before : List (Node L)) {state : Patch L}, state.Tracks → old ∈ state.rest →
      (∀ node ∈ before, nodeKey node ≠ nodeKey new) →
      (patchLoop browser state (before ++ new :: post)).done[state.done.length + before.length]? =
          some ⟨(morphNode browser old.1 new).old, some old.2⟩ ∧
        old.2 ∉ (patchLoop browser state (before ++ new :: post)).rest.map Prod.snd
  | [], state, h, hmem, _ => by
    obtain ⟨hnext, hround⟩ := patchStep_round h (fun node => morphNode browser node new) new
    rw [nil_append, patchLoop]
    cases hround with
    | taken front first back mark' hrest hfirst hmark hrestNext hdone hmoved =>
      obtain rfl : mark' = taken := Option.some.inj (hmark.symm.trans hnew)
      obtain ⟨key, tagName⟩ := mark'
      obtain rfl : old = first := eq_of_key h.keys hrest (mark_eq_some.mp hfirst).1 hmem
        (mark_eq_some.mp hold).1
      obtain ⟨results, hresults⟩ := patchLoop_done browser post hnext
      refine ⟨by rw [hresults, hdone]; simp, ?_⟩
      intro hleft
      have hplaces := h.places
      rw [hrest] at hplaces
      have hback := ((patchLoop_rest browser post hnext).map Prod.snd).subset
        hleft
      rw [hrestNext] at hback
      have hperm := (perm_middle.map Prod.snd).nodup_iff.mp hplaces
      rw [map_cons, nodup_cons] at hperm
      exact hperm.1 hback
    | matched _ _ _ _ hunkeyed =>
      rw [mark_eq_none.mpr hunkeyed] at hnew
      cases hnew
    | adopted hmark =>
      have hnone := hmark old hmem (hold.trans hnew.symm)
      rw [hnew] at hnone
      cases hnone
  | node :: before, state, h, hmem, hbefore => by
    obtain ⟨hnext, hround⟩ := patchStep_round h (fun other => morphNode browser other node) node
    have hother : nodeKey node ≠ nodeKey new := hbefore node mem_cons_self
    have hstill : old ∈ (patchStep (fun other => morphNode browser other node) state node).rest := by
      cases hround with
      | taken _ first _ mark' hrest hfirst hmark hrestNext =>
        have hne : old ≠ first := by
          rintro rfl
          obtain rfl : mark' = taken := Option.some.inj (hfirst.symm.trans hold)
          exact hother (nodeKey_of_mark hmark hnew)
        rw [hrest, mem_append, mem_cons] at hmem
        rw [hrestNext, mem_append]
        rcases hmem with hfront | heq | hback
        · exact .inl hfront
        · exact absurd heq hne
        · exact .inr hback
      | matched first _ hrest hfirst _ _ hrestNext =>
        have hne : old ≠ first := by
          rintro rfl
          rw [mark_eq_none.mpr hfirst] at hold
          cases hold
        rw [hrest, mem_cons] at hmem
        rw [hrestNext]
        exact hmem.resolve_left hne
      | adopted _ _ hrestNext =>
        rw [hrestNext]
        exact hmem
    obtain ⟨child, hdone⟩ := hround.done
    have hkept := patchLoop_kept post hold hnew before hnext hstill
      fun other hin => hbefore other (mem_cons_of_mem _ hin)
    rw [cons_append, patchLoop, length_cons]
    rw [hdone, length_append, length_singleton, Nat.add_right_comm] at hkept
    exact hkept

/-- What is inserted again is an old sibling that the new list has too. -/
theorem patchLoop_moved : ∀ (new : List (Node L)) {state : Patch L}, state.Tracks →
    ∃ more, (patchLoop browser state new).moved = state.moved ++ more ∧
      ∀ place ∈ more, ∃ old ∈ state.rest, old.2 = place ∧
        ∃ taken, mark old.1 = some taken ∧ taken ∈ marks new
  | [], state, _ => ⟨[], by rw [patchLoop, append_nil], by simp⟩
  | new :: rest, state, h => by
    obtain ⟨hnext, hround⟩ := patchStep_round h (fun old => morphNode browser old new) new
    obtain ⟨more, hmore, hplaces⟩ := patchLoop_moved rest hnext
    have hlater : ∀ place ∈ more, ∃ old ∈ state.rest, old.2 = place ∧
        ∃ taken, mark old.1 = some taken ∧ taken ∈ marks (new :: rest) := by
      intro place hplace
      obtain ⟨old, hold, heq, taken, hmark, htaken⟩ := hplaces place hplace
      obtain ⟨node, hnode, hnodeMark⟩ := mem_filterMap.mp htaken
      exact ⟨old, hround.rest.subset hold, heq, taken, hmark,
        mem_filterMap.mpr ⟨node, mem_cons_of_mem _ hnode, hnodeMark⟩⟩
    rw [patchLoop]
    cases hround with
    | taken front old back taken hrest hold hnew hrestNext hdone hmoved =>
      rw [hmoved] at hmore
      by_cases hfront : front = []
      · rw [if_pos hfront] at hmore
        exact ⟨more, hmore, hlater⟩
      · rw [if_neg hfront, append_assoc, singleton_append] at hmore
        refine ⟨old.2 :: more, hmore, ?_⟩
        intro place hplace
        rcases mem_cons.mp hplace with rfl | hin
        · exact ⟨old, by rw [hrest]; simp, rfl, taken, hold,
            mem_filterMap.mpr ⟨new, mem_cons_self, hnew⟩⟩
        · exact hlater place hin
    | matched _ _ _ _ _ _ _ _ hmoved | adopted _ _ _ _ hmoved =>
      rw [hmoved] at hmore
      exact ⟨more, hmore, hlater⟩

/-! ## Used-up gaps -/

/-- The old siblings of a gap are unkeyed, and the new ones take them all in their order. -/
def UsedUp (oldGap newGap : List (Node L)) : Prop :=
  (∀ node ∈ oldGap, nodeKey node = none) ∧
    (oldGap.map Node.kind).Sublist
      ((newGap.filter fun node => nodeKey node = none).map Node.kind)

theorem usedUp_nil {gap : List (Node L)} : UsedUp gap [] ↔ gap = [] := by
  constructor
  · rintro ⟨-, hsub⟩
    exact map_eq_nil_iff.mp (sublist_nil.mp hsub)
  · rintro rfl
    exact ⟨by simp, by simp⟩

theorem usedUp_matched {old : Node L} {oldGap newGap : List (Node L)} (hold : nodeKey old = none)
    (hnew : nodeKey new = none) (hkind : old.kind = new.kind) :
    UsedUp (old :: oldGap) (new :: newGap) ↔ UsedUp oldGap newGap := by
  unfold UsedUp
  rw [filter_cons_of_pos (by simpa using hnew), map_cons, map_cons, hkind,
    cons_sublist_cons, forall_mem_cons]
  exact and_congr_left' (and_iff_right hold)

/-- A new sibling that cannot take the first of the gap takes none. -/
theorem usedUp_passed {oldGap newGap : List (Node L)}
    (h : ∀ old others, oldGap = old :: others → nodeKey old = none → nodeKey new = none →
      old.kind ≠ new.kind) : UsedUp oldGap (new :: newGap) ↔ UsedUp oldGap newGap := by
  by_cases hnew : nodeKey new = none
  · cases oldGap with
    | nil => simp [UsedUp]
    | cons old others =>
      unfold UsedUp
      apply and_congr_right
      intro hkeys
      have hkind := h old others rfl (hkeys old mem_cons_self) hnew
      rw [filter_cons_of_pos (by simpa using hnew), map_cons, map_cons]
      constructor
      · intro hsub
        rcases cons_sublist_cons'.mp hsub with hrest | ⟨heq, -⟩
        · exact hrest
        · exact absurd heq hkind
      · exact fun hsub => hsub.cons _
  · unfold UsedUp
    rw [filter_cons_of_neg (by simpa using hnew)]

/-- The marks of the siblings that both lists have, by a test of marks. -/
def common (shared : String × String → Bool) (node : Node L) : Bool := (mark node).any shared

theorem length_gaps_common (shared : String × String → Bool) (nodes : List (Node L)) :
    (gaps (common shared) nodes).length = ((marks nodes).filter shared).length := by
  induction nodes with
  | nil => rfl
  | cons node rest ih =>
    rw [marks] at ih ⊢
    rw [gaps]
    cases hmark : mark node with
    | none =>
      rw [if_neg (by simp [common, hmark]), length_push, filterMap_cons_none hmark, ih]
    | some taken =>
      rw [filterMap_cons_some hmark]
      by_cases hshared : shared taken = true
      · rw [if_pos (by simpa [common, hmark] using hshared), filter_cons_of_pos hshared,
          length_cons, length_cons, ih]
      · rw [if_neg (by simpa [common, hmark] using hshared), length_push,
          filter_cons_of_neg hshared, ih]

theorem common_of_unkeyed (h : nodeKey node = none) : common shared node = false := by
  simp [common, mark_eq_none.mpr h]

theorem marks_cons_of_common_false (rest : List (Node L)) (h : common shared node = false) :
    (marks (node :: rest)).filter shared = (marks rest).filter shared := by
  rw [marks]
  cases hmark : mark node with
  | none => rw [filterMap_cons_none hmark, marks]
  | some =>
    rw [filterMap_cons_some hmark, filter_cons_of_neg (by simpa [common, hmark] using h),
      marks]

theorem marks_cons_of_common {taken : String × String} (rest : List (Node L))
    (hmark : mark node = some taken) (h : shared taken = true) :
    (marks (node :: rest)).filter shared = taken :: (marks rest).filter shared := by
  rw [marks, filterMap_cons_some hmark, filter_cons_of_pos h, marks]

/-- The gaps before and after a new sibling that takes nothing. -/
theorem forall₂_usedUp_passed {oldGaps newGaps : List (List (Node L))}
    (hlength : oldGaps.length = newGaps.length)
    (h : ∀ old others later, oldGaps = (old :: others) :: later → nodeKey old = none →
      nodeKey new = none → old.kind ≠ new.kind) :
    List.Forall₂ UsedUp oldGaps (push new newGaps) ↔ List.Forall₂ UsedUp oldGaps newGaps := by
  cases newGaps with
  | nil => rw [push]
  | cons =>
    cases oldGaps with
    | nil => simp at hlength
    | cons oldGap laterOld =>
      rw [push, forall₂_cons, forall₂_cons]
      refine and_congr_left' (usedUp_passed ?_)
      intro old others heq
      exact h old others laterOld (by rw [heq])

theorem forall₂_usedUp_matched {old : Node L} {oldGaps newGaps : List (List (Node L))}
    (hlength : oldGaps.length = newGaps.length) (hold : nodeKey old = none)
    (hnew : nodeKey new = none) (hkind : old.kind = new.kind) :
    List.Forall₂ UsedUp (push old oldGaps) (push new newGaps) ↔
      List.Forall₂ UsedUp oldGaps newGaps := by
  cases newGaps with
  | nil =>
    obtain rfl := length_eq_zero_iff.mp hlength
    rfl
  | cons =>
    cases oldGaps with
    | nil => simp at hlength
    | cons =>
      rw [push, push, forall₂_cons, forall₂_cons]
      exact and_congr_left' (usedUp_matched hold hnew hkind)

def nodes (rest : List (Placed L)) : List (Node L) := rest.map Prod.fst

/-- What the two lists of siblings share, seen from inside the loop. -/
structure Shares (shared : String × String → Bool) (old new : List (Node L)) : Prop where
  meets : ∀ taken, taken ∈ marks old → taken ∈ marks new → shared taken = true
  order : (marks old).filter shared = (marks new).filter shared

theorem mem_marks {nodes : List (Node L)} {taken : String × String} (hnode : node ∈ nodes)
    (hmark : mark node = some taken) : taken ∈ marks nodes :=
  mem_filterMap.mpr ⟨node, hnode, hmark⟩

theorem mem_nodes {child : Placed L} {rest : List (Placed L)} (h : child ∈ rest) :
    child.1 ∈ nodes rest := mem_map_of_mem h

theorem marks_append (a b : List (Node L)) : marks (a ++ b) = marks a ++ marks b :=
  filterMap_append

/-- The lists still agree after a round in which neither lost a node they share. -/
theorem Shares.tail {old old' rest : List (Node L)} (h : Shares shared old (new :: rest))
    (hsub : old'.Sublist old) (hold : (marks old').filter shared = (marks old).filter shared)
    (hnew : common shared new = false) : Shares shared old' rest where
  meets taken htaken hrest :=
    h.meets taken ((hsub.filterMap mark).subset htaken)
      (((sublist_cons_self new rest).filterMap mark).subset hrest)
  order := by rw [hold, h.order, marks_cons_of_common_false rest hnew]

/-- The node that is taken is the first that both lists have. -/
theorem Shares.taken {shared : String × String → Bool} {front back : List (Placed L)}
    {old : Placed L} {rest : List (Node L)} {new : Node L} {taken : String × String}
    (h : Shares shared (nodes (front ++ old :: back)) (new :: rest))
    (hkeys : ((front ++ old :: back).filterMap fun child => nodeKey child.1).Nodup)
    (hold : mark old.1 = some taken) (hnew : mark new = some taken) :
    shared taken = true ∧ (∀ node ∈ nodes front, common shared node = false) ∧
      Shares shared (nodes back) rest := by
  have hshared : shared taken = true :=
    h.meets taken (mem_marks (mem_nodes (by simp)) hold) (mem_marks mem_cons_self hnew)
  have hsplit : (marks (nodes (front ++ old :: back))).filter shared =
      (marks (nodes front)).filter shared ++ taken :: (marks (nodes back)).filter shared := by
    rw [nodes, map_append, map_cons, marks_append, filter_append,
      marks_cons_of_common _ hold hshared, nodes, nodes]
  have horder := h.order
  rw [hsplit, marks_cons_of_common rest hnew hshared] at horder
  have hfront : (marks (nodes front)).filter shared = [] := by
    cases hfront : (marks (nodes front)).filter shared with
    | nil => rfl
    | cons first =>
      rw [hfront, cons_append, List.cons.injEq] at horder
      have hmem : taken ∈ marks (nodes front) := by
        have hfirst : first ∈ (marks (nodes front)).filter shared := by simp [hfront]
        rw [← horder.1]
        exact mem_of_mem_filter hfirst
      obtain ⟨node, hnode, hmark⟩ := mem_filterMap.mp hmem
      obtain ⟨child, hchild, rfl⟩ := mem_map.mp hnode
      obtain ⟨key, tagName⟩ := taken
      have hnone := not_found_of_keys (mark_eq_some.mp hold).1 hkeys
      rw [List.find?_eq_none] at hnone
      exact absurd (by simpa using (mark_eq_some.mp hmark).1)
        (hnone child (mem_append.mpr (.inl hchild)))
  rw [hfront, nil_append, List.cons.injEq] at horder
  refine ⟨hshared, ?_, ⟨?_, horder.2⟩⟩
  · intro node hnode
    cases hmark : mark node with
    | none => simp [common, hmark]
    | some other =>
      rw [filter_eq_nil_iff] at hfront
      simpa [common, hmark] using hfront other (mem_marks hnode hmark)
  · intro other hback hrest
    have hsub : (nodes back).Sublist (nodes (front ++ old :: back)) :=
      (((sublist_cons_self old back).trans (sublist_append_right _ _))).map _
    exact h.meets other ((hsub.filterMap mark).subset hback)
      (((sublist_cons_self new rest).filterMap mark).subset hrest)

theorem head_of_gaps {test : Node L → Bool} {rest : List (Placed L)} {old : Node L}
    {others : List (Node L)} {later : List (List (Node L))}
    (h : gaps test (nodes rest) = (old :: others) :: later) :
    ∃ child back, rest = child :: back ∧ child.1 = old := by
  cases rest with
  | nil => simp [nodes, gaps] at h
  | cons child back =>
    refine ⟨child, back, rfl, ?_⟩
    rw [nodes, map_cons, gaps] at h
    split at h
    · simp at h
    · cases hgaps : gaps test (back.map Prod.fst) with
      | nil => simp [hgaps, push] at h
      | cons =>
        rw [hgaps, push, List.cons.injEq, List.cons.injEq] at h
        exact h.1.1

/-- No old node is inserted again, exactly when every gap is used up. -/
theorem patchLoop_moved_iff (shared : String × String → Bool) :
    ∀ (new : List (Node L)) {state : Patch L}, state.Tracks →
      Shares shared (nodes state.rest) new →
      ((patchLoop browser state new).moved = state.moved ↔
        List.Forall₂ UsedUp (gaps (common shared) (nodes state.rest))
          (gaps (common shared) new))
  | [], state, _, hshares => by
    have hlength := length_gaps_common shared (nodes state.rest)
    rw [hshares.order] at hlength
    have hnil : gaps (common shared) (nodes state.rest) = [] := length_eq_zero_iff.mp hlength
    rw [hnil, patchLoop]
    exact iff_of_true rfl List.Forall₂.nil
  | new :: rest, state, h, hshares => by
    obtain ⟨hnext, hround⟩ := patchStep_round h (fun old => morphNode browser old new) new
    rw [patchLoop]
    cases hround with
    | taken front old back taken hrest hold hnew hrestNext hdone hmoved =>
      have hkeys := h.keys
      rw [hrest] at hshares hkeys
      obtain ⟨hshared, hfront, hlater⟩ := hshares.taken hkeys hold hnew
      have holdGaps : gaps (common shared) (nodes (front ++ old :: back)) =
          nodes front :: gaps (common shared) (nodes back) := by
        rw [nodes, map_append, map_cons]
        exact gaps_append _ hfront (by simpa [common, hold] using hshared)
      rw [hrest, holdGaps, gaps, if_pos (by simpa [common, hnew] using hshared),
        forall₂_cons, usedUp_nil]
      by_cases hnil : front = []
      · rw [if_pos hnil] at hmoved
        rw [← hmoved, and_iff_right (by rw [hnil]; rfl)]
        rw [hnil, nil_append] at hrestNext
        rw [← hrestNext]
        exact patchLoop_moved_iff shared rest hnext (by rw [hrestNext]; exact hlater)
      · rw [if_neg hnil] at hmoved
        obtain ⟨more, hmore, -⟩ := patchLoop_moved browser rest hnext
        refine iff_of_false ?_ fun hused => hnil (map_eq_nil_iff.mp hused.1)
        rw [hmore, hmoved, append_assoc]
        intro heq
        exact absurd (append_right_eq_self.mp heq) (by simp)
    | matched old back hrest hold hnew hkind hrestNext hdone hmoved =>
      have holdFalse : common shared old.1 = false := common_of_unkeyed hold
      have hnewFalse : common shared new = false := common_of_unkeyed hnew
      rw [hrest, nodes, map_cons] at hshares
      have hlater : Shares shared (nodes back) rest :=
        hshares.tail (sublist_cons_self _ _)
          (marks_cons_of_common_false _ holdFalse).symm hnewFalse
      rw [hrest, nodes, map_cons, gaps, if_neg (by simp [holdFalse]), gaps,
        if_neg (by simp [hnewFalse]), forall₂_usedUp_matched _ hold hnew hkind, ← hmoved]
      · rw [← hrestNext] at hlater ⊢
        exact patchLoop_moved_iff shared rest hnext hlater
      · rw [length_gaps_common, length_gaps_common]
        exact congrArg List.length hlater.order
    | adopted hmark hhead hrestNext hdone hmoved =>
      have hnewFalse : common shared new = false := by
        cases hnew : mark new with
        | none => simp [common, hnew]
        | some taken =>
          cases hshared : shared taken with
          | false => simp [common, hnew, hshared]
          | true =>
            have hmem : taken ∈ (marks (nodes state.rest)).filter shared := by
              rw [hshares.order, marks_cons_of_common rest hnew hshared]
              exact mem_cons_self
            obtain ⟨node, hnode, hnodeMark⟩ := mem_filterMap.mp (mem_of_mem_filter hmem)
            obtain ⟨child, hchild, rfl⟩ := mem_map.mp hnode
            have hnone := hmark child hchild (hnodeMark.trans hnew.symm)
            rw [hnew] at hnone
            cases hnone
      have hlater : Shares shared (nodes state.rest) rest :=
        hshares.tail (List.Sublist.refl _) rfl hnewFalse
      rw [gaps, if_neg (by simp [hnewFalse]), forall₂_usedUp_passed, ← hmoved]
      · rw [← hrestNext] at hlater ⊢
        exact patchLoop_moved_iff shared rest hnext hlater
      · rw [length_gaps_common, length_gaps_common]
        exact congrArg List.length hlater.order
      · intro old others later heq hold hnew
        obtain ⟨child, back, hrest, rfl⟩ := head_of_gaps heq
        exact hhead child back hrest hold hnew

/-! ## The editor -/

/-- Every node whose key and tag both lists have is the same node afterwards. -/
def Survives (browser : Browser L) (old new : List (Node L)) : Prop :=
  ∀ (place position : Nat) (before after : Node L) (taken : String × String),
    old[place]? = some before → new[position]? = some after →
    mark before = some taken → mark after = some taken →
    (patchChildren browser old new).done[position]? =
      some ⟨(morphNode browser before after).old, some place⟩

/-- None of them is moved, removed or inserted again. -/
def Undisturbed (browser : Browser L) (old new : List (Node L)) : Prop :=
  ∀ (place : Nat) (before : Node L) (taken : String × String),
    old[place]? = some before → mark before = some taken → taken ∈ marks new →
    place ∉ (patchChildren browser old new).moved ∧
      place ∉ (patchChildren browser old new).rest.map Prod.snd

/-- What both lists have stands in the same order in both. -/
def SameOrder (old new : List (Node L)) : Prop :=
  (marks old).filter (fun taken => taken ∈ marks new) =
    (marks new).filter fun taken => taken ∈ marks old

instance (old new : List (Node L)) : Decidable (SameOrder old new) :=
  inferInstanceAs (Decidable ((marks old).filter (fun taken => taken ∈ marks new) =
    (marks new).filter fun taken => taken ∈ marks old))

def sharedMarks (old new : List (Node L)) (taken : String × String) : Bool :=
  taken ∈ marks old ∧ taken ∈ marks new

/-- Between two nodes that both lists have, the old siblings are unkeyed and the new ones take
them all. -/
def GapsUsedUp (old new : List (Node L)) : Prop :=
  List.Forall₂ UsedUp (gaps (common (sharedMarks old new)) old)
    (gaps (common (sharedMarks old new)) new)

theorem SameOrder.shares {old new : List (Node L)} (h : SameOrder old new) :
    Shares (sharedMarks old new) old new where
  meets taken hold hnew := by simp [sharedMarks, hold, hnew]
  order := by
    have hold : (marks old).filter (sharedMarks old new) =
        (marks old).filter fun taken => taken ∈ marks new :=
      filter_congr fun taken htaken => by simp [sharedMarks, htaken]
    have hnew : (marks new).filter (sharedMarks old new) =
        (marks new).filter fun taken => taken ∈ marks old :=
      filter_congr fun taken htaken => by simp [sharedMarks, htaken]
    rw [hold, hnew]
    exact h

theorem mem_zipIdx {old : List (Node L)} {place : Nat} {before : Node L}
    (h : old[place]? = some before) : (before, place) ∈ old.zipIdx := by
  rw [mem_zipIdx_iff_getElem?]
  exact h

theorem nodes_zipIdx (old : List (Node L)) : nodes old.zipIdx = old := zipIdx_map_fst 0 old

/-- What an old node that the new list has too has become. -/
theorem patchChildren_kept (browser : Browser L) {old new : List (Node L)}
    (hold : (old.filterMap nodeKey).Nodup) (hnew : (new.filterMap nodeKey).Nodup)
    {place position : Nat} {before after : Node L} {taken : String × String}
    (hbefore : old[place]? = some before) (hafter : new[position]? = some after)
    (hmark : mark before = some taken) (hmarkAfter : mark after = some taken) :
    (patchChildren browser old new).done[position]? =
        some ⟨(morphNode browser before after).old, some place⟩ ∧
      place ∉ (patchChildren browser old new).rest.map Prod.snd := by
  obtain ⟨hlt, hget⟩ := List.getElem?_eq_some_iff.mp hafter
  have hsplit : new = new.take position ++ after :: new.drop (position + 1) := by
    rw [← hget, getElem_cons_drop, take_append_drop]
  have hlength : (new.take position).length = position :=
    length_take_of_le (Nat.le_of_lt hlt)
  have hfirst : ∀ node ∈ new.take position, nodeKey node ≠ nodeKey after := by
    intro node hnode hsame
    obtain ⟨key, tagName⟩ := taken
    have hkey := (mark_eq_some.mp hmarkAfter).1
    rw [hsplit, filterMap_append, nodup_append] at hnew
    exact hnew.2.2 key (mem_filterMap.mpr ⟨node, hnode, hsame.trans hkey⟩) key
      (mem_filterMap.mpr ⟨after, mem_cons_self, hkey⟩) rfl
  have hkept := patchLoop_kept browser (new.drop (position + 1)) hmark hmarkAfter _
    (Patch.Tracks.start hold) (mem_zipIdx hbefore) hfirst
  rw [← hsplit, hlength] at hkept
  simpa [patchChildren, Patch.start] using hkept

/-- For sibling lists in which no key is twice: the nodes that both lists have survive, and
where their order is the same none is disturbed, exactly when the order differs or every old
sibling in front of them is used up. -/
theorem keyed_undisturbed_iff (browser : Browser L) (old new : List (Node L))
    (hold : (old.filterMap nodeKey).Nodup) (hnew : (new.filterMap nodeKey).Nodup) :
    (Survives browser old new ∧ (SameOrder old new → Undisturbed browser old new)) ↔
      (SameOrder old new → GapsUsedUp old new) := by
  have hsurvives : Survives browser old new :=
    fun place position before after taken hbefore hafter hmark hmarkAfter =>
      (patchChildren_kept browser hold hnew hbefore hafter hmark hmarkAfter).1
  have htracks := Patch.Tracks.start hold
  rw [and_iff_right hsurvives]
  apply imp_congr_right
  intro horder
  have hmovedIff := patchLoop_moved_iff browser (sharedMarks old new) new htracks
    (by rw [Patch.start, nodes_zipIdx]; exact horder.shares)
  have hstart : nodes (Patch.start old).rest = old := nodes_zipIdx old
  rw [hstart] at hmovedIff
  refine Iff.trans ?_ hmovedIff
  constructor
  · intro hundisturbed
    obtain ⟨more, hmore, hplaces⟩ := patchLoop_moved browser new htracks
    cases more with
    | nil => rw [hmore, List.append_nil]
    | cons place others =>
      obtain ⟨child, hchild, rfl, taken, hmark, htaken⟩ := hplaces place List.mem_cons_self
      have hget : old[child.2]? = some child.1 := List.mem_zipIdx_iff_getElem?.mp hchild
      refine absurd ?_ (hundisturbed child.2 child.1 taken hget hmark htaken).1
      rw [patchChildren, hmore]
      simp
  · intro hmoved place before taken hbefore hmark htaken
    obtain ⟨after, hafter, hmarkAfter⟩ := List.mem_filterMap.mp htaken
    obtain ⟨position, hposition⟩ := List.getElem?_of_mem hafter
    refine ⟨?_, (patchChildren_kept browser hold hnew hbefore hposition hmark hmarkAfter).2⟩
    rw [patchChildren, hmoved]
    exact List.not_mem_nil

/-- The field of a note. -/
def editor : Node (Option String) :=
  .element "TEXTAREA" ⟨[("data-field", "note")], List.nodup_singleton _⟩ none []

theorem keyed_undisturbed_iff_inserted :
    (Survives untouched [editor] [bare "SPAN" [], editor] ∧
      (SameOrder [editor] [bare "SPAN" [], editor] →
        Undisturbed untouched [editor] [bare "SPAN" [], editor])) ↔
      (SameOrder [editor] [bare "SPAN" [], editor] →
        GapsUsedUp [editor] [bare "SPAN" [], editor]) :=
  keyed_undisturbed_iff untouched [editor] [bare "SPAN" [], editor] (by decide) (by decide)

/-- A span in front of the editor goes away, and the editor is inserted again. -/
theorem keyed_undisturbed_dropped :
    ([bare "SPAN" [], editor].filterMap nodeKey).Nodup ∧ ([editor].filterMap nodeKey).Nodup ∧
      SameOrder [bare "SPAN" [], editor] [editor] ∧
      ¬ Undisturbed untouched [bare "SPAN" [], editor] [editor] := by
  refine ⟨by decide, by decide, by decide, ?_⟩
  intro h
  exact (h 1 editor ("field:note:", "TEXTAREA") rfl rfl (by decide)).1 (by decide)

end DomPatch

end YawnApp.Desktop
