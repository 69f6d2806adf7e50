/-
  Foundation/Json.lean --- JSON values, their pretty text, and typed records.

  The text layer of a JSON library is not modelled: `JsonText` takes a type of
  byte strings with a writer and a reader and states what a caller relies on,
  that reading a written value gives the value back and how long the written
  text is.  Everything above the text is a definition: `Value` is the document,
  `Serde` is a typed record with its document form, and the combinators
  `closedFields`, `requiredField` and `optionalField` are how a closed record is read back,
  unknown and repeated fields refused.

  Numbers that are not integers are exact rationals here.  A text writer cannot
  promise to round-trip every rational, and an object with a repeated name has
  no reading at all, so the round trip is promised for `plain` documents only.
-/
import Mathlib.Data.Rat.Defs
import Mathlib.Tactic.Linarith
import YawnApp.Foundation.Volume

set_option autoImplicit false

namespace YawnApp.Foundation

/-! ## Documents -/

/-- A JSON document.  Objects keep their fields in the order of the text. -/
inductive Value where
  | null
  | bool (b : Bool)
  | natural (n : Nat)
  | decimal (q : ℚ)
  | string (s : String)
  | array (items : List Value)
  | object (fields : List (String × Value))
deriving Inhabited

namespace Value

mutual

/-- Whether two documents are the same. -/
def same : Value → Value → Bool
  | .null, .null => true
  | .bool a, .bool b => a == b
  | .natural a, .natural b => a == b
  | .decimal a, .decimal b => decide (a = b)
  | .string a, .string b => a == b
  | .array a, .array b => sameItems a b
  | .object a, .object b => sameFields a b
  | _, _ => false

def sameItems : List Value → List Value → Bool
  | [], [] => true
  | a :: as, b :: bs => same a b && sameItems as bs
  | _, _ => false

def sameFields : List (String × Value) → List (String × Value) → Bool
  | [], [] => true
  | (k, a) :: as, (l, b) :: bs => k == l && same a b && sameFields as bs
  | _, _ => false

end

mutual

theorem same_iff : ∀ a b : Value, same a b = true ↔ a = b
  | .null, b => by cases b <;> simp [same]
  | .bool _, b => by cases b <;> simp [same]
  | .natural _, b => by cases b <;> simp [same]
  | .decimal _, b => by cases b <;> simp [same]
  | .string _, b => by cases b <;> simp [same]
  | .array x, b => by
    cases b with
    | array y => simp [same, sameItems_iff x y]
    | _ => simp [same]
  | .object x, b => by
    cases b with
    | object y => simp [same, sameFields_iff x y]
    | _ => simp [same]

theorem sameItems_iff : ∀ a b : List Value, sameItems a b = true ↔ a = b
  | [], b => by cases b <;> simp [sameItems]
  | x :: xs, b => by
    cases b with
    | nil => simp [sameItems]
    | cons y ys => simp [sameItems, same_iff x y, sameItems_iff xs ys]

theorem sameFields_iff : ∀ a b : List (String × Value), sameFields a b = true ↔ a = b
  | [], b => by cases b <;> simp [sameFields]
  | (k, x) :: xs, b => by
    cases b with
    | nil => simp [sameFields]
    | cons y ys =>
      obtain ⟨l, y⟩ := y
      simp [sameFields, same_iff x y, sameFields_iff xs ys, and_assoc]

end

instance : DecidableEq Value := fun a b => decidable_of_iff _ (same_iff a b)

mutual

/-- A document whose text determines it: integers only, no field named twice. -/
def plain : Value → Bool
  | .decimal _ => false
  | .array items => plainItems items
  | .object fields => plainFields fields && decide (fields.map Prod.fst).Nodup
  | _ => true

def plainItems : List Value → Bool
  | [] => true
  | v :: vs => plain v && plainItems vs

def plainFields : List (String × Value) → Bool
  | [] => true
  | (_, v) :: fs => plain v && plainFields fs

end

mutual

/-- A document as a map keeps it: of the fields of one name the last. -/
def collapse : Value → Value
  | .array items => .array (collapseItems items)
  | .object fields => .object (collapseFields fields)
  | v => v

def collapseItems : List Value → List Value
  | [] => []
  | v :: vs => collapse v :: collapseItems vs

def collapseFields : List (String × Value) → List (String × Value)
  | [] => []
  | (k, v) :: fs =>
    if (collapseFields fs).any fun f => f.1 == k then collapseFields fs
    else (k, collapse v) :: collapseFields fs

end

mutual

/-- A document that names no field twice stays as it is. -/
theorem collapse_of_plain : ∀ v : Value, v.plain = true → v.collapse = v
  | .null, _ => by simp [collapse]
  | .bool _, _ => by simp [collapse]
  | .natural _, _ => by simp [collapse]
  | .decimal _, _ => by simp [collapse]
  | .string _, _ => by simp [collapse]
  | .array items, h => by
    rw [plain] at h
    rw [collapse, collapseItems_of_plain items h]
  | .object fields, h => by
    rw [plain, Bool.and_eq_true, decide_eq_true_eq] at h
    rw [collapse, collapseFields_of_plain fields h.1 h.2]

theorem collapseItems_of_plain : ∀ vs : List Value, plainItems vs = true → collapseItems vs = vs
  | [], _ => by rw [collapseItems]
  | v :: vs, h => by
    rw [plainItems, Bool.and_eq_true] at h
    rw [collapseItems, collapse_of_plain v h.1, collapseItems_of_plain vs h.2]

theorem collapseFields_of_plain : ∀ fs : List (String × Value), plainFields fs = true →
    (fs.map Prod.fst).Nodup → collapseFields fs = fs
  | [], _, _ => by rw [collapseFields]
  | (k, v) :: fs, h, hnames => by
    rw [plainFields, Bool.and_eq_true] at h
    rw [List.map_cons, List.nodup_cons] at hnames
    have hrest := collapseFields_of_plain fs h.2 hnames.2
    have hfresh : (fs.any fun f => f.1 == k) = false := by
      rw [List.any_eq_false]
      intro f hf heq
      exact hnames.1 (List.mem_map.mpr ⟨f, hf, by simpa using heq⟩)
    rw [collapseFields, hrest, hfresh, collapse_of_plain v h.1]
    simp

end

/-! ## The length of the pretty text -/

/-- The number of decimal digits of `n`; the first argument bounds the recursion. -/
def digitsWithin : Nat → Nat → Nat
  | 0, _ => 1
  | bound + 1, n => if n < 10 then 1 else digitsWithin bound (n / 10) + 1

/-- The number of decimal digits of `n`. -/
def digits (n : Nat) : Nat := digitsWithin n n

theorem digitsWithin_le {bound n : Nat} : ∀ {width : Nat}, n < 10 ^ width → 0 < width →
    digitsWithin bound n ≤ width := by
  induction bound generalizing n with
  | zero => intro width _ hwidth; exact hwidth
  | succ bound ih =>
    intro width hn hwidth
    unfold digitsWithin
    split
    · exact hwidth
    · rename_i hten
      obtain ⟨w, rfl⟩ : ∃ w, width = w + 1 := ⟨width - 1, by omega⟩
      have hw : 0 < w := by
        rcases Nat.eq_zero_or_pos w with rfl | h
        · simp at hn; omega
        · exact h
      have hdiv : n / 10 < 10 ^ w := by
        rw [pow_succ] at hn
        exact Nat.div_lt_of_lt_mul (by linarith)
      have := ih hdiv hw
      omega

theorem digits_le {n width : Nat} (h : n < 10 ^ width) (hwidth : 0 < width) :
    digits n ≤ width := digitsWithin_le h hwidth

/-- The bytes one character takes inside a JSON string. -/
def escapedSize (c : Char) : Nat :=
  if c = '"' ∨ c = '\\' ∨ c = '\n' ∨ c = '\r' ∨ c = '\t' ∨ c.toNat = 8 ∨ c.toNat = 12 then 2
  else if c.toNat < 32 then 6
  else c.utf8Size

/-- The bytes of a JSON string, its quotes included. -/
def stringSize (s : String) : Nat := 2 + (s.toList.map escapedSize).sum

mutual

/-- The bytes of the pretty text, two blanks a level, when the value starts at
nesting `depth`. -/
def prettySize (depth : Nat) : Value → Nat
  | .null => 4
  | .bool b => if b then 4 else 5
  | .natural n => digits n
  | .decimal q => stringSize (toString q)
  | .string s => stringSize s
  | .array [] => 2
  | .array (v :: vs) => 3 + 2 * depth + prettyItems (depth + 1) (v :: vs) - 1
  | .object [] => 2
  | .object (f :: fs) => 3 + 2 * depth + prettyFields (depth + 1) (f :: fs) - 1

/-- Each item with its line break, indentation and comma. -/
def prettyItems (depth : Nat) : List Value → Nat
  | [] => 0
  | v :: vs => 2 + 2 * depth + prettySize depth v + prettyItems depth vs

/-- Each field with its line break, indentation, colon and comma. -/
def prettyFields (depth : Nat) : List (String × Value) → Nat
  | [] => 0
  | (k, v) :: fs =>
    2 + 2 * depth + (stringSize k + 2 + prettySize depth v) + prettyFields depth fs

end

/-! ## Looking into a document -/

/-- The value of a field of an object. -/
def get (v : Value) (name : String) : Option Value :=
  match v with
  | .object fields => (fields.find? fun f => f.1 == name).map Prod.snd
  | _ => none

def asStr : Value → Option String
  | .string s => some s
  | _ => none

def asArray : Value → Option (List Value)
  | .array items => some items
  | _ => none

/-- Any JSON number, as an exact rational. -/
def asNumber : Value → Option ℚ
  | .natural n => some n
  | .decimal q => some q
  | _ => none

def isObject : Value → Bool
  | .object _ => true
  | _ => false

def isString : Value → Bool
  | .string _ => true
  | _ => false

def isNull : Value → Bool
  | .null => true
  | _ => false

end Value

/-! ## The text layer -/

/-- Byte strings with a JSON writer and reader. -/
class JsonText (B : Type) extends ByteString B where
  /-- Write a document, pretty. -/
  writeText : Value → B
  /-- Read a document; text that is not JSON has none. -/
  readText : B → Option Value
  readText_writeText : ∀ v, v.plain = true → readText (writeText v) = some v
  size_writeText : ∀ v, v.plain = true → size (writeText v) = v.prettySize 0

/-! ## Typed records -/

/-- A type with a JSON form. -/
class Serde (α : Type) where
  toValue : α → Value
  fromValue : Value → Option α
  fromValue_toValue : ∀ a, fromValue (toValue a) = some a
  plain_toValue : ∀ a, (toValue a).plain = true
  /-- `null` is kept for an absent value. -/
  toValue_ne_null : ∀ a, toValue a ≠ .null

attribute [simp] Serde.fromValue_toValue Serde.plain_toValue

section Records

variable {B α : Type} [Serde α] {fs : List (String × Value)} {name : String}

/-- `serde_json::to_vec_pretty`. -/
def toVecPretty [JsonText B] (a : α) : B := JsonText.writeText (Serde.toValue a)

/-- `serde_json::from_slice`. -/
def fromSlice [JsonText B] (bytes : B) : Option α :=
  (JsonText.readText bytes).bind Serde.fromValue

/-- `serde_json::from_slice::<Value>`. -/
def valueFromSlice [JsonText B] (bytes : B) : Option Value :=
  (JsonText.readText bytes).map Value.collapse

@[simp] theorem fromSlice_toVecPretty [JsonText B] (a : α) :
    fromSlice (toVecPretty a : B) = some a := by
  simp [fromSlice, toVecPretty, JsonText.readText_writeText]

@[simp] theorem valueFromSlice_toVecPretty [JsonText B] (a : α) :
    valueFromSlice (toVecPretty a : B) = some (Serde.toValue a) := by
  simp [valueFromSlice, toVecPretty, JsonText.readText_writeText, Value.collapse_of_plain]

/-- Canonical text determines the record. -/
theorem toVecPretty_injective [JsonText B] {a b : α}
    (h : (toVecPretty a : B) = toVecPretty b) : a = b := by
  have hread := congrArg (fromSlice (α := α)) h
  rw [fromSlice_toVecPretty, fromSlice_toVecPretty] at hread
  exact Option.some.inj hread

theorem size_toVecPretty [JsonText B] (a : α) :
    ByteString.size (toVecPretty a : B) = (Serde.toValue a).prettySize 0 :=
  JsonText.size_writeText _ (Serde.plain_toValue a)

/-- The JSON form of a field that may be absent. -/
def nullable (o : Option α) : Value :=
  match o with
  | none => .null
  | some a => Serde.toValue a

@[simp] theorem plain_nullable (o : Option α) : (nullable o).plain = true := by
  cases o with
  | none => rfl
  | some a => exact Serde.plain_toValue a

/-- The fields of a closed record: no unknown name and none twice. -/
def closedFields (names : List String) : Value → Option (List (String × Value))
  | .object fs =>
    if (fs.all fun f => names.contains f.1) && decide (fs.map Prod.fst).Nodup then some fs
    else none
  | _ => none

/-- The value of one field. -/
def fieldOf (fs : List (String × Value)) (name : String) : Option Value :=
  (fs.find? fun f => f.1 == name).map Prod.snd

/-- A field that must be there. -/
def requiredField (fs : List (String × Value)) (name : String) : Option α :=
  (fieldOf fs name).bind Serde.fromValue

/-- The reading of a field that may be missing or `null`. -/
def readNullable (v : Option Value) : Option (Option α) :=
  match v with
  | none => some none
  | some .null => some none
  | some v => (Serde.fromValue v).map some

@[simp] theorem readNullable_none : (readNullable none : Option (Option α)) = some none := rfl

@[simp] theorem readNullable_nullable (o : Option α) :
    readNullable (some (nullable o)) = some o := by
  cases o with
  | none => rfl
  | some a =>
    have hne := Serde.toValue_ne_null a
    simp only [readNullable, nullable, Serde.fromValue_toValue, Option.map_some]

@[simp] theorem readNullable_toValue (a : α) :
    readNullable (some (Serde.toValue a)) = some (some a) := readNullable_nullable (some a)

/-- A field that may be missing or `null`. -/
def optionalField (fs : List (String × Value)) (name : String) : Option (Option α) :=
  readNullable (fieldOf fs name)

/-- An absent value that is not written. -/
def unlessNone (name : String) (o : Option α) : List (String × Value) :=
  match o with
  | none => []
  | some a => [(name, Serde.toValue a)]

/-! Reading back a record that was just written: the names are closed terms, so
each premise below is closed by evaluation. -/

theorem closedFields_bind {β : Type} {names : List String} {k : List (String × Value) → Option β}
    (h : ((fs.all fun f => names.contains f.1) && decide (fs.map Prod.fst).Nodup) = true) :
    (closedFields names (.object fs) >>= k) = k fs := by
  have hfields : closedFields names (.object fs) = some fs := if_pos h
  rw [hfields]
  rfl

theorem closedFields_bind_sublist {β : Type} {names : List String}
    {k : List (String × Value) → Option β} (h : List.Sublist (fs.map Prod.fst) names)
    (hnames : names.Nodup) : (closedFields names (.object fs) >>= k) = k fs := by
  apply closedFields_bind
  rw [Bool.and_eq_true, List.all_eq_true, decide_eq_true_eq]
  exact ⟨fun f hf => List.contains_iff_mem.mpr (h.mem (List.mem_map_of_mem hf)), hnames.sublist h⟩

theorem requiredField_bind {β : Type} {a : α} {k : α → Option β}
    (h : fieldOf fs name = some (Serde.toValue a)) : (requiredField fs name >>= k) = k a := by
  simp [requiredField, h]

theorem optionalField_bind {β : Type} {o : Option α} {k : Option α → Option β}
    (h : fieldOf fs name = some (nullable o)) : (optionalField fs name >>= k) = k o := by
  simp [optionalField, h]

theorem fieldOf_append (first second : List (String × Value)) (name : String) :
    fieldOf (first ++ second) name = (fieldOf first name).or (fieldOf second name) := by
  unfold fieldOf
  rw [List.find?_append]
  cases first.find? fun f => f.1 == name <;> rfl

theorem fieldOf_unlessNone (o : Option α) (name other : String) :
    fieldOf (unlessNone name o) other = if name = other then o.map Serde.toValue else none := by
  cases o with
  | none => simp [unlessNone, fieldOf]
  | some => by_cases h : name = other <;> simp [unlessNone, fieldOf, h]

theorem unlessNone_names (name : String) (o : Option α) :
    List.Sublist ((unlessNone name o).map Prod.fst) [name] := by
  cases o <;> simp [unlessNone]

theorem plainFields_unlessNone (name : String) (o : Option α) :
    Value.plainFields (unlessNone name o) = true := by
  cases o <;> simp [unlessNone, Value.plainFields]

theorem optionalField_bind_map {β : Type} {o : Option α} {k : Option α → Option β}
    (h : fieldOf fs name = o.map Serde.toValue) : (optionalField fs name >>= k) = k o := by
  cases o <;> simp [optionalField, h]

end Records

/-! ### Lists with a default -/

section DefaultedLists

variable {α : Type} [Serde (List α)]

/-- A list field with a default: a missing field reads as the empty list. -/
def defaultedField (fs : List (String × Value)) (name : String) : Option (List α) :=
  match fieldOf fs name with
  | none => some []
  | some v => Serde.fromValue v

/-- An empty list that is not written. -/
def unlessEmpty (name : String) (as : List α) : List (String × Value) :=
  if as.isEmpty then [] else [(name, Serde.toValue as)]

theorem fieldOf_unlessEmpty (as : List α) (name other : String) :
    fieldOf (unlessEmpty name as) other =
      if name = other ∧ as ≠ [] then some (Serde.toValue as) else none := by
  cases as with
  | nil => simp [unlessEmpty, fieldOf]
  | cons => by_cases h : name = other <;> simp [unlessEmpty, fieldOf, h]

theorem unlessEmpty_names (name : String) (as : List α) :
    List.Sublist ((unlessEmpty name as).map Prod.fst) [name] := by
  cases as <;> simp [unlessEmpty]

theorem plainFields_unlessEmpty (name : String) (as : List α) :
    Value.plainFields (unlessEmpty name as) = true := by
  cases as <;> simp [unlessEmpty, Value.plainFields]

theorem defaultedField_bind {β : Type} {fs : List (String × Value)} {name : String}
    {as : List α} {k : List α → Option β}
    (h : fieldOf fs name = if as ≠ [] then some (Serde.toValue as) else none) :
    (defaultedField fs name >>= k) = k as := by
  unfold defaultedField
  rw [h]
  cases as <;> simp

end DefaultedLists

theorem Value.plainFields_append (first second : List (String × Value)) :
    Value.plainFields (first ++ second) =
      (Value.plainFields first && Value.plainFields second) := by
  induction first with
  | nil => simp [Value.plainFields]
  | cons f fs ih => simp [Value.plainFields, ih, Bool.and_assoc]

theorem Value.plain_object {fs : List (String × Value)} (hfields : Value.plainFields fs = true)
    (hnames : decide (fs.map Prod.fst).Nodup = true) : (Value.object fs).plain = true := by
  rw [Value.plain, hfields, hnames, Bool.and_self]

/-! ### Scalars, lists and enumerations -/

instance : Serde String where
  toValue s := .string s
  fromValue v := v.asStr
  fromValue_toValue _ := rfl
  plain_toValue _ := rfl
  toValue_ne_null _ := by simp

instance : Serde Bool where
  toValue b := .bool b
  fromValue | .bool b => some b | _ => none
  fromValue_toValue _ := rfl
  plain_toValue _ := rfl
  toValue_ne_null _ := by simp

instance : Serde UInt32 where
  toValue n := .natural n.toNat
  fromValue | .natural n => if n < UInt32.size then some (UInt32.ofNat n) else none | _ => none
  fromValue_toValue n := by simp [n.toNat_lt_size]
  plain_toValue _ := rfl
  toValue_ne_null _ := by simp

instance : Serde UInt64 where
  toValue n := .natural n.toNat
  fromValue | .natural n => if n < UInt64.size then some (UInt64.ofNat n) else none | _ => none
  fromValue_toValue n := by simp [n.toNat_lt_size]
  plain_toValue _ := rfl
  toValue_ne_null _ := by simp

section Lists

variable {α : Type} [Serde α]

theorem mapM_fromValue_map (as : List α) :
    (as.map Serde.toValue).mapM (Serde.fromValue (α := α)) = some as := by
  induction as with
  | nil => rfl
  | cons a as ih => simp [ih]

theorem plainItems_map (as : List α) : Value.plainItems (as.map Serde.toValue) = true := by
  induction as with
  | nil => rfl
  | cons a as ih => simp [Value.plainItems, ih]

instance : Serde (List α) where
  toValue as := .array (as.map Serde.toValue)
  fromValue | .array items => items.mapM Serde.fromValue | _ => none
  fromValue_toValue := mapM_fromValue_map
  plain_toValue as := by simp [Value.plain, plainItems_map]
  toValue_ne_null _ := by simp

end Lists

/-- An enumeration is written as the name of its value. -/
@[reducible] def Serde.ofNames {α : Type} (name : α → String) (all : List α)
    (h : ∀ a, all.find? (fun b => name b == name a) = some a) : Serde α where
  toValue a := .string (name a)
  fromValue v := v.asStr.bind fun s => all.find? fun b => name b == s
  fromValue_toValue a := h a
  plain_toValue _ := rfl
  toValue_ne_null _ := by simp

end YawnApp.Foundation
