/-
  Foundation/JsonSize.lean --- how long a pretty text gets.

  `Json` says how long the pretty text of a document is.  A reader with a bound
  needs an estimate for a whole type of documents, and this file has the rules
  to make one: a record is as long as its names and its values together, a list
  as its longest item allows, and a text as its characters.
-/
import Mathlib.Tactic.NormNum
import YawnApp.Foundation.Json

set_option autoImplicit false

namespace YawnApp.Foundation

namespace Value

/-- The bytes between the quotes of a JSON string. -/
def textSize (s : String) : Nat := (s.toList.map escapedSize).sum

theorem stringSize_eq (s : String) : stringSize s = 2 + textSize s := rfl

@[simp] theorem textSize_append (s t : String) : textSize (s ++ t) = textSize s + textSize t := by
  simp [textSize]

/-- Characters that are written as they are, one byte each. -/
theorem textSize_of_plain {s : String} (h : ∀ c ∈ s.toList, escapedSize c = 1) :
    textSize s = s.toList.length := by
  unfold textSize
  generalize s.toList = cs at h
  induction cs with
  | nil => rfl
  | cons c cs ih =>
    rw [List.map_cons, List.sum_cons, h c List.mem_cons_self,
      ih fun d hd => h d (List.mem_cons_of_mem _ hd), List.length_cons]
    omega

theorem utf8ByteSize_ofList (cs : List Char) :
    (String.ofList cs).utf8ByteSize = (cs.map Char.utf8Size).sum := by
  induction cs with
  | nil => simp
  | cons c cs ih =>
    have hsplit : String.ofList (c :: cs) = String.singleton c ++ String.ofList cs := by
      rw [String.singleton_eq_ofList, ← String.ofList_append, List.singleton_append]
    rw [hsplit, String.utf8ByteSize_append, String.utf8ByteSize_singleton, ih, List.map_cons,
      List.sum_cons]

/-- A text whose characters are at most doubled by escaping at most doubles. -/
theorem textSize_le {s : String} (h : ∀ c ∈ s.toList, escapedSize c ≤ 2 * c.utf8Size) :
    textSize s ≤ 2 * s.utf8ByteSize := by
  have hbytes := utf8ByteSize_ofList s.toList
  rw [String.ofList_toList] at hbytes
  rw [hbytes, textSize]
  generalize s.toList = cs at h
  induction cs with
  | nil => simp
  | cons c cs ih =>
    have hc := h c List.mem_cons_self
    have hcs := ih fun d hd => h d (List.mem_cons_of_mem _ hd)
    rw [List.map_cons, List.map_cons, List.sum_cons, List.sum_cons]
    omega

theorem escapedSize_le (c : Char) : escapedSize c ≤ 6 := by
  unfold escapedSize
  have hsize := c.utf8Size_le_four
  split
  · omega
  · split <;> omega

/-- Escaping makes a text at most six times as long. -/
theorem textSize_le_six (s : String) : textSize s ≤ 6 * s.utf8ByteSize := by
  have hbytes := utf8ByteSize_ofList s.toList
  rw [String.ofList_toList] at hbytes
  rw [hbytes, textSize]
  induction s.toList with
  | nil => simp
  | cons c =>
    have hc := escapedSize_le c
    have hpos := c.utf8Size_pos
    rw [List.map_cons, List.map_cons, List.sum_cons, List.sum_cons]
    omega

theorem escapedSize_le_of_printable {c : Char} (h : 32 ≤ c.toNat ∨ c = '\n' ∨ c = '\t') :
    escapedSize c ≤ 2 * c.utf8Size := by
  have hpos := c.utf8Size_pos
  unfold escapedSize
  split
  · omega
  · rename_i hspecial
    split
    · rename_i hcontrol
      rcases h with h | h | h
      · omega
      · exact absurd (.inr (.inr (.inl h))) hspecial
      · exact absurd (.inr (.inr (.inr (.inr (.inl h))))) hspecial
    · omega

/-- A character that JSON writes as it is and UTF-8 in one byte. -/
theorem escapedSize_eq_one {c : Char} (hlow : 32 ≤ c.toNat) (hhigh : c.toNat ≤ 127)
    (hquote : c ≠ '"') (hbackslash : c ≠ '\\') : escapedSize c = 1 := by
  have hne : ∀ d : Char, d.toNat < 32 → c ≠ d := by
    rintro d hd rfl
    omega
  have hsize : c.utf8Size = 1 := by
    unfold Char.utf8Size
    rw [if_pos]
    exact UInt32.le_iff_toNat_le.mpr hhigh
  unfold escapedSize
  rw [if_neg, if_neg (by omega), hsize]
  simp only [hquote, hbackslash, hne '\n' (by decide), hne '\r' (by decide), hne '\t' (by decide),
    false_or, not_or]
  omega

theorem prettyFields_eq (depth : Nat) (fs : List (String × Value)) :
    prettyFields depth fs = fs.length * (4 + 2 * depth) + ((fs.map Prod.fst).map stringSize).sum +
      ((fs.map Prod.snd).map (prettySize depth)).sum := by
  induction fs with
  | nil => simp [prettyFields]
  | cons f fs ih =>
    obtain ⟨k, v⟩ := f
    simp only [prettyFields, ih, List.length_cons, List.map_cons, List.sum_cons, Nat.succ_mul]
    omega

theorem prettyFields_append (depth : Nat) (first second : List (String × Value)) :
    prettyFields depth (first ++ second) = prettyFields depth first + prettyFields depth second := by
  simp only [prettyFields_eq, List.length_append, List.map_append, List.sum_append, Nat.add_mul]
  omega

theorem prettySize_object_le (depth : Nat) (fs : List (String × Value)) :
    (Value.object fs).prettySize depth ≤ 3 + 2 * depth + prettyFields (depth + 1) fs := by
  cases fs with
  | nil => simp [prettySize]; omega
  | cons => rw [prettySize]; omega

variable {depth : Nat}

/-- The length of a record, from the lengths of its names and of its values. -/
theorem prettySize_record_le {fs : List (String × Value)} (fields : List String)
    (names values : Nat) (hfields : fs.map Prod.fst = fields)
    (hnames : (fields.map stringSize).sum ≤ names)
    (hvalues : ((fs.map Prod.snd).map (prettySize (depth + 1))).sum ≤ values) :
    (Value.object fs).prettySize depth ≤
      3 + 2 * depth + (fs.length * (6 + 2 * depth) + names + values) := by
  have hobject := prettySize_object_le depth fs
  rw [prettyFields_eq, hfields, show 4 + 2 * (depth + 1) = 6 + 2 * depth by omega] at hobject
  omega

/-- A record is longer than each of its values. -/
theorem prettySize_le_of_field {fs : List (String × Value)} {name : String} {v : Value}
    (h : (name, v) ∈ fs) : v.prettySize (depth + 1) ≤ (Value.object fs).prettySize depth := by
  have hfields : v.prettySize (depth + 1) + 1 ≤ prettyFields (depth + 1) fs := by
    induction fs with
    | nil => cases h
    | cons f fs ih =>
      obtain ⟨k, w⟩ := f
      rw [prettyFields]
      rcases List.mem_cons.mp h with heq | hmem
      · cases heq
        omega
      · have := ih hmem
        omega
  cases fs with
  | nil => cases h
  | cons =>
    rw [prettySize]
    omega

theorem prettySize_array_le (depth : Nat) (items : List Value) :
    (Value.array items).prettySize depth ≤ 3 + 2 * depth + prettyItems (depth + 1) items := by
  cases items with
  | nil => simp [prettySize]; omega
  | cons => rw [prettySize]; omega

theorem prettyItems_le {bound : Nat} {items : List Value}
    (h : ∀ v ∈ items, v.prettySize depth ≤ bound) :
    prettyItems depth items ≤ items.length * (2 + 2 * depth + bound) := by
  induction items with
  | nil => simp [prettyItems]
  | cons v vs ih =>
    have hv := h v List.mem_cons_self
    have hvs := ih fun w hw => h w (List.mem_cons_of_mem _ hw)
    rw [prettyItems, List.length_cons, Nat.add_mul vs.length 1, Nat.one_mul]
    omega

end Value

variable {depth bound : Nat}

theorem prettySize_nullable_le {α : Type} [Serde α] {o : Option α} (hbound : 4 ≤ bound)
    (h : ∀ a, o = some a → (Serde.toValue a).prettySize depth ≤ bound) :
    (nullable o).prettySize depth ≤ bound := by
  cases o with
  | none => simpa [nullable, Value.prettySize] using hbound
  | some a => exact h a rfl

theorem prettySize_list_le {α : Type} [Serde α] {b count : Nat} {as : List α}
    (hcount : as.length ≤ count) (h : ∀ a ∈ as, (Serde.toValue a).prettySize (depth + 1) ≤ b) :
    (Serde.toValue as).prettySize depth ≤ 3 + 2 * depth + count * (4 + 2 * depth + b) := by
  have hitems : ∀ v ∈ as.map Serde.toValue, v.prettySize (depth + 1) ≤ b := by
    intro v hv
    obtain ⟨a, ha, rfl⟩ := List.mem_map.mp hv
    exact h a ha
  have harray := (Value.prettySize_array_le depth (as.map Serde.toValue)).trans
    (Nat.add_le_add_left (Value.prettyItems_le hitems) _)
  rw [List.length_map, show 2 + 2 * (depth + 1) + b = 4 + 2 * depth + b by omega] at harray
  exact harray.trans (Nat.add_le_add_left (Nat.mul_le_mul_right _ hcount) _)

theorem prettySize_string (s : String) (depth : Nat) :
    (Serde.toValue s).prettySize depth = 2 + Value.textSize s := by
  change (Value.string s).prettySize depth = _
  rw [Value.prettySize]
  rfl

theorem prettyFields_unlessEmpty_le {α : Type} [Serde (List α)] (name : String) {as : List α}
    (h : (Serde.toValue as).prettySize depth ≤ bound) :
    Value.prettyFields depth (unlessEmpty name as) ≤
      4 + 2 * depth + Value.stringSize name + bound := by
  unfold unlessEmpty
  split
  · simp [Value.prettyFields]
  · simp only [Value.prettyFields]
    omega

theorem prettyFields_unlessNone_le {α : Type} [Serde α] (name : String) {o : Option α}
    (h : ∀ a, o = some a → (Serde.toValue a).prettySize depth ≤ bound) :
    Value.prettyFields depth (unlessNone name o) ≤
      4 + 2 * depth + Value.stringSize name + bound := by
  cases o with
  | none => simp [unlessNone, Value.prettyFields]
  | some a =>
    have ha := h a rfl
    simp only [unlessNone, Value.prettyFields]
    omega

theorem prettySize_uint32_le (n : UInt32) (depth : Nat) :
    (Serde.toValue n).prettySize depth ≤ 10 := by
  change Value.digits n.toNat ≤ 10
  exact Value.digits_le (n.toNat_lt.trans_le (by norm_num)) (by decide)

theorem prettySize_uint64_le (n : UInt64) (depth : Nat) :
    (Serde.toValue n).prettySize depth ≤ 20 := by
  change Value.digits n.toNat ≤ 20
  exact Value.digits_le (n.toNat_lt.trans_le (by norm_num)) (by decide)

end YawnApp.Foundation
