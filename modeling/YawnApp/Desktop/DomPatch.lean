import YawnApp.Foundation.Keyed

set_option autoImplicit false

/-!
# Patching the tree in place (`dom-patch.mjs`)

A render hands over a new tree, and the tree on the page is changed into it.  An old node is told
from its siblings by the place where it stood, a node that comes from the new tree has no place.
What a form control holds beside its attributes and children is the browser's.
-/

namespace YawnApp.Desktop

open YawnApp.Foundation List

namespace DomPatch

/-! ## Attributes -/

/-- The attributes of an element. -/
structure Attributes where
  entries : List (String × String)
  distinct : (entries.map Prod.fst).Nodup

namespace Attributes

def getAttribute (attributes : Attributes) (name : String) : Option String :=
  (lookupKey Prod.fst name attributes.entries).map Prod.snd

def hasAttribute (attributes : Attributes) (name : String) : Bool :=
  (attributes.getAttribute name).isSome

theorem mem_names_of_getAttribute {attributes : Attributes} {name value : String}
    (h : attributes.getAttribute name = some value) :
    name ∈ attributes.entries.map Prod.fst := by
  obtain ⟨entry, hentry, -⟩ := Option.map_eq_some_iff.mp h
  obtain ⟨hmem, hname⟩ := lookupKey_some hentry
  exact mem_map.mpr ⟨entry, hmem, hname⟩

theorem getAttribute_of_not_mem {attributes : Attributes} {name : String}
    (h : name ∉ attributes.entries.map Prod.fst) : attributes.getAttribute name = none := by
  cases hget : attributes.getAttribute name with
  | none => rfl
  | some => exact absurd (mem_names_of_getAttribute hget) h

/-- The attribute with another value. -/
def valued (value : String) (entry : String × String) : String × String := (entry.1, value)

@[simp] theorem valued_fst (value : String) (entry : String × String) :
    (valued value entry).1 = entry.1 := rfl

def setAttribute (attributes : Attributes) (name value : String) : Attributes :=
  if hold : attributes.hasAttribute name then
    { entries := modifyKey Prod.fst name (valued value) attributes.entries
      distinct := by
        rw [map_modifyKey (valued_fst value)]
        exact attributes.distinct }
  else
    { entries := attributes.entries ++ [(name, value)]
      distinct := by
        rw [List.map_append, List.nodup_append]
        refine ⟨attributes.distinct, List.nodup_singleton _, ?_⟩
        intro taken htaken added hadded heq
        obtain rfl : added = name := by simpa using hadded
        obtain ⟨entry, hentry, hname⟩ := List.mem_map.mp htaken
        apply hold
        cases hget : attributes.getAttribute added with
        | some _ => simp [hasAttribute, hget]
        | none =>
          rw [getAttribute, Option.map_eq_none_iff, lookupKey_eq_none] at hget
          exact absurd (hname.trans heq) (hget entry hentry) }

def removeAttribute (attributes : Attributes) (name : String) : Attributes where
  entries := attributes.entries.filter fun entry => entry.1 ≠ name
  distinct := attributes.distinct.sublist (List.filter_sublist.map Prod.fst)

@[simp] theorem getAttribute_setAttribute (attributes : Attributes) (name value asked : String) :
    (attributes.setAttribute name value).getAttribute asked =
      if asked = name then some value else attributes.getAttribute asked := by
  unfold setAttribute
  split
  · rename_i hold
    obtain ⟨entry, hentry⟩ : ∃ entry, lookupKey Prod.fst name attributes.entries = some entry := by
      cases hlook : lookupKey Prod.fst name attributes.entries with
      | none => simp [hasAttribute, getAttribute, hlook] at hold
      | some entry => exact ⟨entry, rfl⟩
    rw [getAttribute, lookupKey_modifyKey (valued_fst value)]
    by_cases hasked : asked = name
    · simp [hasked, hentry, valued]
    · simp [hasked, getAttribute]
  · rename_i hold
    have hnone : lookupKey Prod.fst name attributes.entries = none := by
      simpa [hasAttribute, getAttribute] using hold
    rw [getAttribute, lookupKey_append]
    by_cases hasked : asked = name
    · subst hasked
      rw [hnone]
      simp [lookupKey]
    · simp [hasked, Ne.symm hasked, getAttribute, lookupKey]

@[simp] theorem getAttribute_removeAttribute (attributes : Attributes) (name asked : String) :
    (attributes.removeAttribute name).getAttribute asked =
      if asked = name then none else attributes.getAttribute asked := by
  rw [getAttribute, removeAttribute, lookupKey_filter_key]
  split
  · rfl
  · rfl

end Attributes

/-- The round of the first loop of `syncAttributes`. -/
def pushAttribute (old : Attributes) (entry : String × String) : Attributes :=
  if old.getAttribute entry.1 ≠ some entry.2 then
    old.setAttribute entry.1 entry.2
  else old

/-- The round of the second. -/
def dropAttribute (tagName : String) (new old : Attributes) (entry : String × String) :
    Attributes :=
  if new.hasAttribute entry.1 then old
  else if tagName = "DETAILS" ∧ entry.1 = "open" then old
  else old.removeAttribute entry.1

def syncAttributes (tagName : String) (old new : Attributes) : Attributes :=
  let pushed := new.entries.foldl pushAttribute old
  pushed.entries.foldl (dropAttribute tagName new) pushed

theorem getAttribute_pushAttribute (old : Attributes) (entry : String × String)
    (asked : String) :
    (pushAttribute old entry).getAttribute asked =
      if asked = entry.1 then some entry.2 else old.getAttribute asked := by
  unfold pushAttribute
  by_cases hsame : old.getAttribute entry.1 = some entry.2
  · rw [if_neg (not_not.mpr hsame)]
    split
    · rename_i hasked
      rw [hasked, hsame]
    · rfl
  · rw [if_pos hsame, Attributes.getAttribute_setAttribute]

theorem getAttribute_pushed (asked : String) :
    ∀ (entries : List (String × String)) (old : Attributes), (entries.map Prod.fst).Nodup →
      (entries.foldl pushAttribute old).getAttribute asked =
        ((lookupKey Prod.fst asked entries).map Prod.snd).or (old.getAttribute asked)
  | [], old, _ => by simp [lookupKey]
  | entry :: rest, old, hdistinct => by
    rw [map_cons, nodup_cons] at hdistinct
    rw [foldl_cons, getAttribute_pushed asked rest _ hdistinct.2,
      getAttribute_pushAttribute, lookupKey_cons]
    by_cases hasked : entry.1 = asked
    · have hrest : lookupKey Prod.fst asked rest = none := by
        rw [lookupKey_eq_none]
        intro later hlater hname
        exact hdistinct.1 (mem_map.mpr ⟨later, hlater, hname.trans hasked.symm⟩)
      simp [hasked, hrest]
    · simp [hasked, Ne.symm hasked]

theorem getAttribute_dropAttribute (tagName : String) (new old : Attributes)
    (entry : String × String) (asked : String) :
    (dropAttribute tagName new old entry).getAttribute asked =
      if asked = entry.1 ∧ new.hasAttribute asked = false ∧
          ¬ (tagName = "DETAILS" ∧ asked = "open") then none
      else old.getAttribute asked := by
  unfold dropAttribute
  by_cases hasked : asked = entry.1
  · subst hasked
    by_cases hnew : new.hasAttribute entry.1
    · simp [hnew]
    · by_cases hopen : tagName = "DETAILS" ∧ entry.1 = "open"
      · simp [hopen]
      · rw [if_neg hnew, if_neg hopen, if_pos ⟨rfl, by simpa using hnew, hopen⟩]
        simp
  · simp only [hasked, false_and, if_false]
    split
    · rfl
    · split
      · rfl
      · simp [hasked]

theorem getAttribute_dropped (tagName : String) (new : Attributes) (asked : String) :
    ∀ (entries : List (String × String)) (old : Attributes),
      (entries.foldl (dropAttribute tagName new) old).getAttribute asked =
        if asked ∈ entries.map Prod.fst ∧ new.hasAttribute asked = false ∧
            ¬ (tagName = "DETAILS" ∧ asked = "open") then none
        else old.getAttribute asked
  | [], old => by simp
  | entry :: rest, old => by
    rw [foldl_cons, getAttribute_dropped tagName new asked rest,
      getAttribute_dropAttribute]
    by_cases hrest : asked ∈ rest.map Prod.fst
    · by_cases hgoes : new.hasAttribute asked = false ∧ ¬ (tagName = "DETAILS" ∧ asked = "open")
      · simp [hrest, hgoes]
      · rw [if_neg fun h => hgoes h.2, if_neg fun h => hgoes h.2, if_neg fun h => hgoes h.2]
    · simp only [hrest, false_and, if_false, map_cons, mem_cons, or_false]

/-- An entry after the synchronisation: the new element's, or the open state of a
details element, which is the reader's. -/
theorem getAttribute_syncAttributes (tagName : String) (old new : Attributes) (asked : String) :
    (syncAttributes tagName old new).getAttribute asked =
      if new.hasAttribute asked then new.getAttribute asked
      else if tagName = "DETAILS" ∧ asked = "open" then old.getAttribute asked
      else none := by
  have hpushed : (new.entries.foldl pushAttribute old).getAttribute asked =
      (new.getAttribute asked).or (old.getAttribute asked) :=
    getAttribute_pushed asked new.entries old new.distinct
  unfold syncAttributes
  simp only
  rw [getAttribute_dropped]
  cases hnew : new.getAttribute asked with
  | some =>
    have hhas : new.hasAttribute asked = true := by simp [Attributes.hasAttribute, hnew]
    simp [hhas, hpushed, hnew]
  | none =>
    have hhas : new.hasAttribute asked = false := by simp [Attributes.hasAttribute, hnew]
    rw [hnew, Option.none_or] at hpushed
    simp only [hhas, true_and, Bool.false_eq_true, if_false, hpushed]
    by_cases hopen : tagName = "DETAILS" ∧ asked = "open"
    · simp [hopen]
    · rw [if_neg hopen]
      split
      · rfl
      · rename_i hkept
        have hmem : asked ∉ (new.entries.foldl pushAttribute old).entries.map Prod.fst :=
          fun hmem => hkept ⟨hmem, hopen⟩
        rw [← hpushed]
        exact Attributes.getAttribute_of_not_mem hmem

/-! ## Nodes -/

inductive DataKind where
  | text
  | comment
deriving DecidableEq

/-- A node of a tree that holds elements, texts and comments; `live` is what a form control
holds. -/
inductive Node (L : Type) where
  | data (kind : DataKind) (value : String)
  | element (tagName : String) (attributes : Attributes) (live : L) (children : List (Node L))

variable {L : Type}

namespace Node

def isElement : Node L → Bool
  | .data .. => false
  | .element .. => true

/-- `node.tagName`, undefined for a node that is no element. -/
def tagName : Node L → Option String
  | .data .. => none
  | .element tagName .. => some tagName

def getAttribute (name : String) : Node L → Option String
  | .data .. => none
  | .element _ attributes .. => attributes.getAttribute name

def hasAttribute (name : String) (node : Node L) : Bool := (node.getAttribute name).isSome

def children : Node L → List (Node L)
  | .data .. => []
  | .element _ _ _ children => children

@[simp] theorem tagName_element (tagName : String) (attributes : Attributes) (live : L)
    (children : List (Node L)) :
    (element tagName attributes live children).tagName = some tagName := rfl

/-- `node.nodeValue = value`, for what is no element. -/
def setNodeValue (value : String) : Node L → Node L
  | .data kind _ => .data kind value
  | node => node

def setLive (live : L) : Node L → Node L
  | .element tagName attributes _ children => .element tagName attributes live children
  | node => node

def setChildren (children : List (Node L)) : Node L → Node L
  | .element tagName attributes live _ => .element tagName attributes live children
  | node => node

/-- `node.textContent = text` -/
def setTextContent (text : String) (node : Node L) : Node L :=
  node.setChildren (if text = "" then [] else [.data .text text])

end Node

mutual

/-- What a node adds to the text of its parent. -/
def textOf : Node L → String
  | .data .text value => value
  | .data .comment _ => ""
  | .element _ _ _ children => textOfAll children

/-- `node.textContent` of an element with these children. -/
def textOfAll : List (Node L) → String
  | [] => ""
  | node :: rest => textOf node ++ textOfAll rest

end

@[simp] theorem textOfAll_setTextContent (text : String) :
    textOfAll (if text = "" then [] else [(Node.data .text text : Node L)]) = text := by
  by_cases h : text = ""
  · rw [if_pos h, textOfAll, h]
  · rw [if_neg h, textOfAll, textOf, textOfAll, String.append_empty]

/-- What the browser answers for a form control and keeps when it is set. -/
structure Browser (L : Type) where
  value : Node L → String
  checked : Node L → Bool
  setValue : Node L → String → L
  setChecked : Node L → Bool → L

/-- A string that counts as true. -/
def truthy (value : Option String) : Option String := value.filter fun text => text ≠ ""

def nodeKey (node : Node L) : Option String :=
  match truthy (node.getAttribute "data-field") with
  | some field => some ("field:" ++ field ++ ":" ++ (node.getAttribute "data-meeting-id").getD "")
  | none => (truthy (node.getAttribute "id")).map fun id => "id:" ++ id

/-- `nodeType`, and of elements `tagName`. -/
inductive NodeKind where
  | data (kind : DataKind)
  | element (tagName : String)
deriving DecidableEq

def Node.kind : Node L → NodeKind
  | .data kind _ => .data kind
  | .element tagName .. => .element tagName

def compatible (old new : Node L) : Bool :=
  old.kind = new.kind ∧ (old.isElement → nodeKey old = nodeKey new)

/-- `newNode.type === "checkbox" || newNode.type === "radio"` of an input. -/
def isToggle (node : Node L) : Bool :=
  match (node.getAttribute "type").map String.toLower with
  | some type => type = "checkbox" ∨ type = "radio"
  | none => false

/-- `syncFormState`; nothing where the children are still to be patched. -/
def syncFormState (browser : Browser L) (old new : Node L) : Option (Node L) :=
  if old.tagName = some "TEXTAREA" then
    let incoming := browser.value new
    if browser.value old ≠ incoming then
      let old := old.setTextContent incoming
      some (old.setLive (browser.setValue old incoming))
    else if textOfAll old.children ≠ textOfAll new.children then
      some (old.setTextContent (textOfAll new.children))
    else some old
  else if old.tagName = some "INPUT" then
    if isToggle new then
      if browser.checked old ≠ browser.checked new then
        some (old.setLive (browser.setChecked old (browser.checked new)))
      else some old
    else if browser.value old ≠ browser.value new then
      some (old.setLive (browser.setValue old (browser.value new)))
    else some old
  else none

/-! ## The patch -/

/-- A node of the page, with its place among its siblings before the patch. -/
abbrev Placed (L : Type) := Node L × Nat

/-- A child after the patch, with the place of the old node that it is. -/
structure Child (L : Type) where
  node : Node L
  origin : Option Nat

/-- Two nodes after the one was patched to the other. -/
structure Morphed (L : Type) where
  old : Node L
  new : Node L

/-- The state of the loop of `patchChildren`. -/
structure Patch (L : Type) where
  /-- The children before `oldChild`. -/
  done : List (Child L)
  /-- `oldChild` and what follows it. -/
  rest : List (Placed L)
  keyed : List (String × Placed L)
  /-- The old nodes that were inserted again. -/
  moved : List Nat
  /-- The new nodes that were not adopted. -/
  spent : List (Node L)

/-- The round of the loop that fills `keyed`. -/
def keepFirst (keyed : List (String × Placed L)) (child : Placed L) : List (String × Placed L) :=
  match nodeKey child.1 with
  | some key => if (lookupKey Prod.fst key keyed).isSome then keyed else keyed ++ [(key, child)]
  | none => keyed

def Patch.start (children : List (Node L)) : Patch L where
  done := []
  rest := children.zipIdx
  keyed := children.zipIdx.foldl keepFirst []
  moved := []
  spent := []

/-- `keyedMatch` where its tag is the new node's. -/
def keyedMatch (keyed : List (String × Placed L)) (new : Node L) : Option (Placed L) :=
  match nodeKey new with
  | some key =>
    ((lookupKey Prod.fst key keyed).map Prod.snd).filter fun found =>
      found.1.tagName = new.tagName
  | none => none

/-- `oldChild` where it can take the new node by its position. -/
def positional (rest : List (Placed L)) (new : Node L) : Option (Placed L) :=
  rest.head?.filter fun old => nodeKey old.1 = none ∧ compatible old.1 new = true

def forget (key : Option String) (keyed : List (String × Placed L)) : List (String × Placed L) :=
  keyed.filter fun entry => some entry.1 ≠ key

/-- A round of the loop, `morph` being what patches an old node to the new one. -/
def patchStep (morph : Node L → Morphed L) (state : Patch L) (new : Node L) : Patch L :=
  match keyedMatch state.keyed new with
  | some old =>
    let morphed := morph old.1
    { done := state.done ++ [⟨morphed.old, some old.2⟩]
      rest := state.rest.eraseP fun child => child.2 = old.2
      keyed := forget (nodeKey new) state.keyed
      moved :=
        if state.rest.head?.map Prod.snd = some old.2 then state.moved
        else state.moved ++ [old.2]
      spent := state.spent ++ [morphed.new] }
  | none =>
    match positional state.rest new with
    | some old =>
      let morphed := morph old.1
      { state with
        done := state.done ++ [⟨morphed.old, some old.2⟩]
        rest := state.rest.tail
        spent := state.spent ++ [morphed.new] }
    | none => { state with done := state.done ++ [⟨new, none⟩] }

mutual

def morphNode (browser : Browser L) (old : Node L) : Node L → Morphed L
  | .data kind value => ⟨old.setNodeValue value, .data kind value⟩
  | .element tagName attributes live children =>
    let new := Node.element tagName attributes live children
    match old with
    | .data kind _ => ⟨.data kind "", new⟩
    | .element oldTag oldAttributes oldLive oldChildren =>
      let old := Node.element oldTag (syncAttributes oldTag oldAttributes attributes) oldLive
        oldChildren
      if old.hasAttribute "data-patch-preserve" then ⟨old, new⟩
      else
        match syncFormState browser old new with
        | some old => ⟨old, new⟩
        | none =>
          let patch := patchLoop browser (Patch.start oldChildren) children
          let old := old.setChildren (patch.done.map Child.node)
          let new := new.setChildren patch.spent
          if oldTag = "SELECT" ∧ browser.value old ≠ browser.value new then
            ⟨old.setLive (browser.setValue old (browser.value new)), new⟩
          else ⟨old, new⟩

def patchLoop (browser : Browser L) (state : Patch L) : List (Node L) → Patch L
  | [] => state
  | new :: rest =>
    patchLoop browser (patchStep (fun old => morphNode browser old new) state new) rest

end

/-- `patchChildren`; what is left in `rest` is removed. -/
def patchChildren (browser : Browser L) (old new : List (Node L)) : Patch L :=
  patchLoop browser (Patch.start old) new

variable {new : Node L} {old : Placed L}

theorem kind_eq_of_tagName {old : Node L} {tagName : String} (hold : old.tagName = some tagName)
    (hnew : new.tagName = some tagName) : old.kind = new.kind := by
  cases old with
  | data => simp [Node.tagName] at hold
  | element =>
    cases new with
    | data => simp [Node.tagName] at hnew
    | element =>
      simp only [Node.tagName, Option.some.injEq] at hold hnew
      simp [Node.kind, hold, hnew]

theorem nodeKey_data (kind : DataKind) (value : String) :
    nodeKey (.data kind value : Node L) = none := rfl

/-- A node with a key is an element. -/
theorem exists_tagName_of_nodeKey {node : Node L} {key : String} (h : nodeKey node = some key) :
    ∃ tagName, node.tagName = some tagName := by
  cases node with
  | data => simp [nodeKey_data] at h
  | element tagName => exact ⟨tagName, rfl⟩

theorem keyedMatch_eq_some {keyed : List (String × Placed L)} (h : keyedMatch keyed new = some old) :
    ∃ key, nodeKey new = some key ∧ lookupKey Prod.fst key keyed = some (key, old) ∧
      old.1.tagName = new.tagName := by
  unfold keyedMatch at h
  cases hkey : nodeKey new with
  | none => simp [hkey] at h
  | some key =>
    rw [hkey] at h
    obtain ⟨hfound, htag⟩ := Option.filter_eq_some_iff.mp h
    obtain ⟨entry, hentry, rfl⟩ := Option.map_eq_some_iff.mp hfound
    refine ⟨key, rfl, ?_, of_decide_eq_true htag⟩
    have hname := (lookupKey_some hentry).2
    rw [hentry, ← hname]

theorem keyedMatch_kind {keyed : List (String × Placed L)} (h : keyedMatch keyed new = some old) :
    old.1.kind = new.kind := by
  obtain ⟨key, hkey, -, htag⟩ := keyedMatch_eq_some h
  obtain ⟨tagName, hnew⟩ := exists_tagName_of_nodeKey hkey
  exact kind_eq_of_tagName (htag.trans hnew) hnew

theorem positional_eq_some {rest : List (Placed L)} (h : positional rest new = some old) :
    rest.head? = some old ∧ nodeKey old.1 = none ∧ compatible old.1 new = true := by
  obtain ⟨hhead, htest⟩ := Option.filter_eq_some_iff.mp h
  exact ⟨hhead, of_decide_eq_true htest⟩

theorem kind_of_compatible {old : Node L} (h : compatible old new = true) :
    old.kind = new.kind := (of_decide_eq_true h).1

/-! ## What is on the page afterwards -/

/-- The attributes on the page are the rendered ones, and a details element may be open. -/
def AttributesShow (tagName : String) (old result new : Attributes) : Prop :=
  ∀ name, result.getAttribute name = new.getAttribute name ∨
    (tagName = "DETAILS" ∧ name = "open" ∧ new.getAttribute name = none ∧
      result.getAttribute name = old.getAttribute name)

theorem attributesShow_syncAttributes (tagName : String) (old new : Attributes) :
    AttributesShow tagName old (syncAttributes tagName old new) new := by
  intro name
  rw [getAttribute_syncAttributes]
  by_cases hnew : new.hasAttribute name = true
  · exact .inl (if_pos hnew)
  · have hnone : new.getAttribute name = none := by simpa [Attributes.hasAttribute] using hnew
    rw [if_neg hnew]
    by_cases hopen : tagName = "DETAILS" ∧ name = "open"
    · exact .inr ⟨hopen.1, hopen.2, hnone, if_pos hopen⟩
    · exact .inl (by rw [if_neg hopen, hnone])

/-- `data-patch-preserve` is asked of the attributes that the new tree gave. -/
theorem hasAttribute_preserve (tagName : String) (old new : Attributes) :
    (syncAttributes tagName old new).hasAttribute "data-patch-preserve" =
      new.hasAttribute "data-patch-preserve" := by
  rw [Attributes.hasAttribute, getAttribute_syncAttributes]
  by_cases hnew : new.hasAttribute "data-patch-preserve" = true
  · rw [if_pos hnew]
    rfl
  · rw [if_neg hnew, if_neg (by simp)]
    simpa using hnew

mutual

/-- The node on the page, that was `old`, shows the new one.  A host keeps what is inside, an
input has no say over its children, and a textarea shows a text, in whatever nodes. -/
def Shows (browser : Browser L) (old result : Node L) : Node L → Prop
  | .data kind value => result = .data kind value
  | .element tagName attributes live children =>
    ∃ oldAttributes oldLive oldChildren resultAttributes resultLive resultChildren,
      old = .element tagName oldAttributes oldLive oldChildren ∧
      result = .element tagName resultAttributes resultLive resultChildren ∧
      AttributesShow tagName oldAttributes resultAttributes attributes ∧
      if attributes.hasAttribute "data-patch-preserve" ∨ tagName = "INPUT" then
        resultChildren = oldChildren
      else if tagName = "TEXTAREA" then
        textOfAll resultChildren = textOfAll children ∨
          textOfAll resultChildren = browser.value (.element tagName attributes live children)
      else AllShow browser oldChildren resultChildren children

/-- The nodes on the page show the new ones in their order, each the new node itself or one of
the old siblings. -/
def AllShow (browser : Browser L) (old result : List (Node L)) : List (Node L) → Prop
  | [] => result = []
  | new :: rest => ∃ first others, result = first :: others ∧
      (first = new ∨ ∃ before ∈ old, Shows browser before first new) ∧
      AllShow browser old others rest

end

theorem syncFormState_eq_none {browser : Browser L} {old : Node L}
    (h : syncFormState browser old new = none) :
    old.tagName ≠ some "TEXTAREA" ∧ old.tagName ≠ some "INPUT" := by
  unfold syncFormState at h
  by_cases harea : old.tagName = some "TEXTAREA"
  · simp only [if_pos harea] at h
    split at h
    · cases h
    · split at h
      · cases h
      · cases h
  · by_cases hinput : old.tagName = some "INPUT"
    · rw [if_neg harea, if_pos hinput] at h
      split at h <;> split at h
      all_goals cases h
    · exact ⟨harea, hinput⟩

theorem syncFormState_eq_some {browser : Browser L} {result : Node L} {tagName : String}
    {attributes : Attributes} {live : L} {children : List (Node L)}
    (h : syncFormState browser (.element tagName attributes live children) new = some result) :
    ∃ resultLive resultChildren,
      result = .element tagName attributes resultLive resultChildren ∧
      ((tagName = "INPUT" ∧ resultChildren = children) ∨
        (tagName = "TEXTAREA" ∧ (textOfAll resultChildren = textOfAll new.children ∨
          textOfAll resultChildren = browser.value new))) := by
  unfold syncFormState at h
  simp only [Node.tagName_element, Option.some.injEq] at h
  by_cases harea : tagName = "TEXTAREA"
  · rw [if_pos harea] at h
    split at h
    · obtain rfl := Option.some.inj h
      exact ⟨_, _, rfl, .inr ⟨harea, .inr (textOfAll_setTextContent _)⟩⟩
    · split at h
      · obtain rfl := Option.some.inj h
        exact ⟨_, _, rfl, .inr ⟨harea, .inl (textOfAll_setTextContent _)⟩⟩
      · rename_i hsame
        obtain rfl := Option.some.inj h
        exact ⟨_, _, rfl, .inr ⟨harea, .inl (not_not.mp hsame)⟩⟩
  · rw [if_neg harea] at h
    by_cases hinput : tagName = "INPUT"
    · rw [if_pos hinput] at h
      split at h <;> split at h
      all_goals
        obtain rfl := Option.some.inj h
        exact ⟨_, _, rfl, .inl ⟨hinput, rfl⟩⟩
    · rw [if_neg hinput] at h
      cases h

/-- Every old node that the loop can still take is one of these. -/
structure Patch.From (olds : List (Node L)) (state : Patch L) : Prop where
  rest : ∀ child ∈ state.rest, child.1 ∈ olds
  keyed : ∀ entry ∈ state.keyed, entry.2.1 ∈ olds

theorem mem_keepFirst {keyed : List (String × Placed L)} {child : Placed L}
    {entry : String × Placed L} (h : entry ∈ keepFirst keyed child) :
    entry ∈ keyed ∨ entry.2 = child := by
  unfold keepFirst at h
  split at h
  · split at h
    · exact .inl h
    · rcases mem_append.mp h with hin | hnew
      · exact .inl hin
      · exact .inr (by rw [mem_singleton.mp hnew])
  · exact .inl h

theorem mem_foldl_keepFirst {entry : String × Placed L} :
    ∀ (children : List (Placed L)) {keyed : List (String × Placed L)},
      entry ∈ children.foldl keepFirst keyed → entry ∈ keyed ∨ entry.2 ∈ children
  | [], _, h => .inl h
  | child :: rest, keyed, h => by
    rcases mem_foldl_keepFirst rest h with hin | hrest
    · rcases mem_keepFirst hin with hkeyed | heq
      · exact .inl hkeyed
      · exact .inr (heq ▸ mem_cons_self)
    · exact .inr (mem_cons_of_mem _ hrest)

theorem fst_mem_of_mem_zipIdx {children : List (Node L)} {child : Placed L}
    (h : child ∈ children.zipIdx) : child.1 ∈ children := by
  have := mem_map_of_mem (f := Prod.fst) h
  rwa [zipIdx_map_fst] at this

theorem Patch.From.start (children : List (Node L)) : (Patch.start children).From children where
  rest _ hchild := fst_mem_of_mem_zipIdx hchild
  keyed _ hentry := by
    rcases mem_foldl_keepFirst _ hentry with hnone | hchild
    · exact absurd hnone not_mem_nil
    · exact fst_mem_of_mem_zipIdx hchild

/-- A round puts one node before the cursor, and takes it from the old siblings or the new. -/
theorem patchStep_done {olds : List (Node L)} {state : Patch L} (hfrom : state.From olds)
    (morph : Node L → Morphed L) (new : Node L) :
    (patchStep morph state new).From olds ∧
      ∃ child, (patchStep morph state new).done = state.done ++ [child] ∧
        (child.node = new ∨ ∃ old ∈ olds, old.kind = new.kind ∧ child.node = (morph old).old) := by
  unfold patchStep
  cases hkeyed : keyedMatch state.keyed new with
  | some old =>
    obtain ⟨key, -, hlook, -⟩ := keyedMatch_eq_some hkeyed
    have hold : old.1 ∈ olds := hfrom.keyed _ (lookupKey_some hlook).1
    refine ⟨⟨?_, ?_⟩, ⟨_, _⟩, rfl, .inr ⟨old.1, hold, keyedMatch_kind hkeyed, rfl⟩⟩
    · intro child hchild
      exact hfrom.rest child (mem_of_mem_eraseP hchild)
    · intro entry hentry
      exact hfrom.keyed entry (mem_of_mem_filter hentry)
  | none =>
    cases hplace : positional state.rest new with
    | some old =>
      obtain ⟨hhead, -, hcompatible⟩ := positional_eq_some hplace
      have hold : old.1 ∈ olds := hfrom.rest old (mem_of_head? hhead)
      refine ⟨⟨?_, hfrom.keyed⟩, ⟨_, _⟩, rfl,
        .inr ⟨old.1, hold, kind_of_compatible hcompatible, rfl⟩⟩
      intro child hchild
      exact hfrom.rest child (mem_of_mem_tail hchild)
    | none => exact ⟨⟨hfrom.rest, hfrom.keyed⟩, ⟨new, none⟩, rfl, .inl rfl⟩

mutual

/-- A node that is patched to another of its kind shows it. -/
theorem morphNode_shows (browser : Browser L) (old : Node L) :
    (new : Node L) → old.kind = new.kind → Shows browser old (morphNode browser old new).old new
  | .data kind value, hkind => by
    cases old with
    | data oldKind =>
      obtain rfl : oldKind = kind := by simpa [Node.kind] using hkind
      rw [Shows, morphNode, Node.setNodeValue]
    | element => simp [Node.kind] at hkind
  | .element tagName attributes live children, hkind => by
    cases old with
    | data => simp [Node.kind] at hkind
    | element oldTag oldAttributes oldLive oldChildren =>
      obtain rfl : oldTag = tagName := by simpa [Node.kind] using hkind
      have hsync := attributesShow_syncAttributes oldTag oldAttributes attributes
      have hpreserve := hasAttribute_preserve oldTag oldAttributes attributes
      rw [morphNode]
      simp only
      split
      · rename_i hkept
        rw [Shows]
        refine ⟨_, _, _, _, _, _, rfl, rfl, hsync, ?_⟩
        rw [if_pos (.inl (hpreserve.symm.trans hkept))]
      · rename_i hopen
        have hhost : ¬ attributes.hasAttribute "data-patch-preserve" = true :=
          fun h => hopen (hpreserve.trans h)
        cases hform : syncFormState browser (.element oldTag
            (syncAttributes oldTag oldAttributes attributes) oldLive oldChildren)
            (.element oldTag attributes live children) with
        | some =>
          obtain ⟨resultLive, resultChildren, rfl, hcontrol⟩ := syncFormState_eq_some hform
          rw [Shows]
          rcases hcontrol with hinput | harea
          · refine ⟨_, _, _, _, _, _, rfl, rfl, hsync, ?_⟩
            rw [if_pos (.inr hinput.1)]
            exact hinput.2
          · refine ⟨_, _, _, _, _, _, rfl, rfl, hsync, ?_⟩
            rw [if_neg (by rw [harea.1]; simp [hhost]), if_pos harea.1]
            exact harea.2
        | none =>
          obtain ⟨harea, hinput⟩ := syncFormState_eq_none hform
          have harea : oldTag ≠ "TEXTAREA" := fun h => harea (congrArg some h)
          have hinput : oldTag ≠ "INPUT" := fun h => hinput (congrArg some h)
          obtain ⟨results, hdone, hshow⟩ := patchLoop_shows browser oldChildren children
            (Patch.From.start oldChildren)
          have hchildren : AllShow browser oldChildren
              ((patchLoop browser (Patch.start oldChildren) children).done.map Child.node)
              children := by
            rw [hdone]
            exact hshow
          simp only
          split
          · rw [Shows]
            refine ⟨_, _, _, _, _, _, rfl, rfl, hsync, ?_⟩
            rw [if_neg (by simp [hhost, hinput]), if_neg harea]
            exact hchildren
          · rw [Shows]
            refine ⟨_, _, _, _, _, _, rfl, rfl, hsync, ?_⟩
            rw [if_neg (by simp [hhost, hinput]), if_neg harea]
            exact hchildren

/-- The rounds over the new siblings, each showing its own. -/
theorem patchLoop_shows (browser : Browser L) (olds : List (Node L)) :
    (new : List (Node L)) → {state : Patch L} → state.From olds →
      ∃ results, (patchLoop browser state new).done = state.done ++ results ∧
        AllShow browser olds (results.map Child.node) new
  | [], state, _ => ⟨[], by rw [patchLoop, append_nil], by rw [AllShow, map_nil]⟩
  | new :: rest, state, hfrom => by
    obtain ⟨hnext, child, hdone, hchild⟩ :=
      patchStep_done hfrom (fun old => morphNode browser old new) new
    obtain ⟨results, hresults, hshow⟩ := patchLoop_shows browser olds rest hnext
    refine ⟨child :: results, ?_, ?_⟩
    · rw [patchLoop, hresults, hdone, append_assoc, singleton_append]
    · rw [AllShow]
      refine ⟨child.node, results.map Child.node, rfl, ?_, hshow⟩
      rcases hchild with hnew | ⟨old, hold, hkind, hmorphed⟩
      · exact .inl hnew
      · refine .inr ⟨old, hold, ?_⟩
        rw [hmorphed]
        exact morphNode_shows browser old new hkind

end

/-- For every tree on the page and every new tree: afterwards the page shows the new one. -/
theorem patched_shows (browser : Browser L) (old new : List (Node L)) :
    AllShow browser old ((patchChildren browser old new).done.map Child.node) new := by
  obtain ⟨results, hdone, hshow⟩ := patchLoop_shows browser old new (Patch.From.start old)
  rw [patchChildren, hdone]
  exact hshow

/-- A browser whose controls show their text, or their attribute, until a value is set. -/
def untouched : Browser (Option String) where
  value
    | .data _ value => value
    | .element tagName attributes live children => live.getD
      (if tagName = "TEXTAREA" then textOfAll children
        else (attributes.getAttribute "value").getD "")
  checked _ := false
  setValue _ value := some value
  setChecked _ _ := none

/-- An element without attributes. -/
def bare (tagName : String) (children : List (Node (Option String))) : Node (Option String) :=
  .element tagName ⟨[], List.nodup_nil⟩ none children

/-- An element that says of itself that its content is not the renderer's. -/
def host (tagName : String) (children : List (Node (Option String))) : Node (Option String) :=
  .element tagName ⟨[("data-patch-preserve", "")], List.nodup_singleton _⟩ none children

def text (value : String) : Node (Option String) := .data .text value

/-- A division that becomes a host keeps its text, a textarea its two texts for the one, an
input its text for none. -/
theorem patched_keeps_children :
    (patchChildren untouched [bare "DIV" [text "a"]] [host "DIV" []]).done.map Child.node =
      [host "DIV" [text "a"]] ∧
    (patchChildren untouched [bare "TEXTAREA" [text "a", text "b"]]
        [bare "TEXTAREA" [text "ab"]]).done.map Child.node =
      [bare "TEXTAREA" [text "a", text "b"]] ∧
    (patchChildren untouched [bare "INPUT" [text "a"]] [bare "INPUT" []]).done.map Child.node =
      [bare "INPUT" [text "a"]] ∧
    (bare "DIV" [text "a"]).hasAttribute "data-patch-preserve" = false ∧
    [text "a"].length ≠ (host "DIV" []).children.length ∧
    [text "a", text "b"].length ≠ (bare "TEXTAREA" [text "ab"]).children.length ∧
    [text "a"].length ≠ (bare "INPUT" []).children.length := by
  refine ⟨rfl, rfl, rfl, rfl, by decide, by decide, by decide⟩

end DomPatch

end YawnApp.Desktop
