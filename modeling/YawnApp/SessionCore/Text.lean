import YawnApp.Foundation.Json

set_option autoImplicit false

/-!
# Digests, identifiers and the platform below the session core

`session-core` names every artifact by the SHA-256 of its bytes and every
operation and meeting by a UUID.  Both travel as text and are checked as text:
this module has the two checks.  It also fixes what the crate takes from the
packages below it, the JSON writer and reader of `serde_json` and the digest of
`sha2`, as the class `Platform`.
-/

namespace YawnApp.SessionCore

open YawnApp.Foundation

/-! ## Digests -/

/-- `0`–`9` or `a`–`f`. -/
def isLowerHex (c : Char) : Bool := ('0' ≤ c && c ≤ '9') || ('a' ≤ c && c ≤ 'f')

/-- The test shared by every `validate_sha256` and `validate_digest` of the
crate: sixty-four lower-case hexadecimal digits. -/
def validSha256 (value : String) : Bool :=
  value.toList.length == 64 && value.toList.all isLowerHex

/-- What the crate uses of `serde_json` and `sha2` over byte strings `B`. -/
class Platform (B : Type) extends JsonText B where
  /-- `serde_json::to_vec`, the text without line breaks. -/
  toVec : Value → B
  /-- `format!("{:x}", Sha256::digest(bytes))`. -/
  sha256 : B → String
  validSha256_sha256 : ∀ bytes, validSha256 (sha256 bytes) = true

attribute [simp] Platform.validSha256_sha256

/-! ## Identifiers -/

/-- The canonical text of a UUID: eight, four, four, four and twelve lower-case
hexadecimal digits. -/
def canonicalUuid (value : String) : Bool :=
  value.toList.length == 36 &&
    value.toList.zipIdx.all fun (c, i) =>
      if i = 8 ∨ i = 13 ∨ i = 18 ∨ i = 23 then c == '-' else isLowerHex c

/-- A UUID, held as its canonical text: `Uuid::to_string` is the field. -/
structure Uuid where
  text : String
  canonical : canonicalUuid text = true
deriving DecidableEq

@[ext] theorem Uuid.ext {a b : Uuid} (h : a.text = b.text) : a = b := by
  cases a; cases b; cases h; rfl

instance : Serde Uuid where
  toValue id := .string id.text
  fromValue v := v.asStr.bind fun s => if h : canonicalUuid s then some ⟨s, h⟩ else none
  fromValue_toValue id := by simp [Value.asStr, id.canonical]
  plain_toValue _ := rfl
  toValue_ne_null _ := by simp

/-- The characters an opaque identifier may have. -/
def isOpaqueIdChar (c : Char) : Bool :=
  c.isAlphanum || c == '-' || c == '_'

/-- `valid_opaque_id`: what may name a meeting directory.  The characters are
all one byte long, so the bound on the bytes is a bound on the characters. -/
def validOpaqueId (value : String) : Bool :=
  value != "" && decide (value.toList.length ≤ 128) && value != "." && value != ".." &&
    value.toList.all isOpaqueIdChar

theorem isOpaqueIdChar_of_isLowerHex {c : Char} (h : isLowerHex c = true) :
    isOpaqueIdChar c = true := by
  unfold isLowerHex at h
  unfold isOpaqueIdChar Char.isAlphanum Char.isAlpha Char.isUpper Char.isLower Char.isDigit
  simp only [Bool.or_eq_true, Bool.and_eq_true, decide_eq_true_eq, ge_iff_le, Char.le_def] at h ⊢
  rcases h with ⟨h0, h9⟩ | ⟨ha, hf⟩
  · exact .inl (.inl (.inr ⟨h0, h9⟩))
  · exact .inl (.inl (.inl (.inr ⟨ha, UInt32.le_trans hf (by decide : 'f'.val ≤ 'z'.val)⟩)))

/-- A UUID is always fit to name a meeting directory. -/
theorem Uuid.validOpaqueId (id : Uuid) : validOpaqueId id.text = true := by
  have hcanonical := id.canonical
  simp only [canonicalUuid, Bool.and_eq_true, beq_iff_eq, List.all_eq_true] at hcanonical
  obtain ⟨hlength, hchars⟩ := hcanonical
  have hall : ∀ c ∈ id.text.toList, isOpaqueIdChar c = true := by
    intro c hc
    obtain ⟨i, hi, rfl⟩ := List.getElem_of_mem hc
    have hmem : (id.text.toList[i], i) ∈ id.text.toList.zipIdx := by
      rw [List.mem_zipIdx_iff_getElem?]
      simp [hi]
    have h := hchars _ hmem
    simp only at h
    split at h
    · rw [beq_iff_eq] at h
      rw [h]
      decide
    · exact isOpaqueIdChar_of_isLowerHex h
  have hne : ∀ s : String, s.toList.length ≠ 36 → id.text ≠ s := by
    intro s hs heq
    exact hs (heq ▸ hlength)
  simp only [SessionCore.validOpaqueId, Bool.and_eq_true, bne_iff_ne, ne_eq, decide_eq_true_eq,
    List.all_eq_true]
  exact ⟨⟨⟨⟨hne "" (by decide), by omega⟩, hne "." (by decide)⟩, hne ".." (by decide)⟩, hall⟩

end YawnApp.SessionCore
