/-
  Foundation/JsonCompact.lean --- the compact text of a document.

  A value without a break or a blank between its parts.  As for the pretty text,
  what is known of the writer is that its text reads back and how long it is.
-/
import YawnApp.Foundation.JsonSize

set_option autoImplicit false

namespace YawnApp.Foundation

namespace Value

mutual

/-- The bytes of the compact text. -/
def compactSize : Value → Nat
  | .null => 4
  | .bool b => if b then 4 else 5
  | .natural n => digits n
  | .decimal q => stringSize (toString q)
  | .string s => stringSize s
  | .array [] => 2
  | .array (v :: vs) => 1 + itemsSize (v :: vs)
  | .object [] => 2
  | .object (f :: fs) => 1 + fieldsSize (f :: fs)

/-- Each item with the comma or the bracket behind it. -/
def itemsSize : List Value → Nat
  | [] => 0
  | v :: vs => compactSize v + 1 + itemsSize vs

/-- Each field with its colon and the comma or the brace behind it. -/
def fieldsSize : List (String × Value) → Nat
  | [] => 0
  | (k, v) :: fs => stringSize k + 1 + compactSize v + 1 + fieldsSize fs

end

theorem itemsSize_map {α : Type} (f : α → Value) (items : List α) :
    itemsSize (items.map f) = (items.map fun a => compactSize (f a) + 1).sum := by
  induction items with
  | nil => rfl
  | cons a items ih => rw [List.map_cons, itemsSize, ih, List.map_cons, List.sum_cons]

theorem digits_pos (n : Nat) : 0 < digits n := by
  unfold digits
  cases n with
  | zero => exact Nat.one_pos
  | succ =>
    unfold digitsWithin
    split
    · exact Nat.one_pos
    · exact Nat.succ_pos _

end Value

/-- Byte strings with a writer of compact text besides. -/
class CompactWriter (B : Type) extends JsonText B where
  writeCompact : Value → B
  readText_writeCompact : ∀ v, v.plain = true → readText (writeCompact v) = some v
  size_writeCompact : ∀ v, v.plain = true → size (writeCompact v) = v.compactSize

variable {B α : Type} [Serde α]

/-- `serde_json::to_vec` -/
def toVecCompact [CompactWriter B] (a : α) : B := CompactWriter.writeCompact (Serde.toValue a)

theorem fromSlice_toVecCompact [CompactWriter B] (a : α) : fromSlice (toVecCompact a : B) = some a := by
  rw [fromSlice, toVecCompact, CompactWriter.readText_writeCompact _ (Serde.plain_toValue a),
    Option.bind_some, Serde.fromValue_toValue]

theorem size_toVecCompact [CompactWriter B] (a : α) :
    ByteString.size (toVecCompact a : B) = (Serde.toValue a).compactSize :=
  CompactWriter.size_writeCompact _ (Serde.plain_toValue a)

end YawnApp.Foundation
