import YawnApp.SessionCore.Text

set_option autoImplicit false

/-!
# A platform of documents

`Platform` asks for byte strings with a JSON writer, a reader and a digest.
Here a byte string is the term it was written from, so that a program over
files can be evaluated, and the digest of a term is looked up in a table of
digests recorded beforehand.  A digest that was not recorded is the digest of
no bytes at all.
-/

namespace YawnApp.SessionCore

open YawnApp.Foundation

/-- What a file was written from. -/
inductive Document where
  | empty
  | pretty (v : Value)
  | compact (v : Value)
  /-- Other bytes, by name and length. -/
  | raw (name : String) (length : Nat)
deriving DecidableEq

namespace Document

/-- The length of the text.  Only the pretty text of a JSON document and raw
bytes are ever measured. -/
def size : Document → Nat
  | .empty => 0
  | .pretty v => v.prettySize 0
  | .compact v => v.prettySize 0
  | .raw _ length => length

/-- The document a text is read as. -/
def value : Document → Option Value
  | .pretty v => some v
  | .compact v => some v
  | _ => none

end Document

/-- The SHA-256 of no bytes. -/
def emptySha256 : String := "e3b0c44298fc1c149afbf4c8996fb92427ae41e4649b934ca495991b7852b855"

/-- Documents whose digests are the recorded ones. -/
def Recorded (_known : List (Document × String)) : Type := Document

namespace Recorded

variable {known : List (Document × String)}

instance : DecidableEq (Recorded known) := inferInstanceAs (DecidableEq Document)

/-- The recorded digest of a document. -/
def sha256 (known : List (Document × String)) (d : Document) : String :=
  match known.lookup d with
  | some digest => if validSha256 digest then digest else emptySha256
  | none => emptySha256

theorem validSha256_sha256 (d : Document) : validSha256 (sha256 known d) = true := by
  have hempty : validSha256 emptySha256 = true := by decide
  unfold sha256
  split
  · split
    · assumption
    · exact hempty
  · exact hempty

instance : Platform (Recorded known) where
  empty := Document.empty
  size := Document.size
  size_empty := rfl
  writeText := Document.pretty
  readText := Document.value
  readText_writeText _ _ := rfl
  size_writeText _ _ := rfl
  toVec := Document.compact
  sha256 := sha256 known
  validSha256_sha256 := validSha256_sha256

end Recorded

/-- Documents in texts of any length: the text that JSON writes, or one with so
many bytes. -/
structure Measured (known : List (Document × String)) where
  document : Document
  length : Option Nat
deriving DecidableEq

namespace Measured

variable {known : List (Document × String)}

/-- A text of so many bytes that is read as a document. -/
def text (v : Value) (length : Nat) : Measured known := ⟨.pretty v, some length⟩

instance : Platform (Measured known) where
  empty := ⟨.empty, none⟩
  size bytes := bytes.length.getD bytes.document.size
  size_empty := rfl
  writeText v := ⟨.pretty v, none⟩
  readText bytes := bytes.document.value
  readText_writeText _ _ := rfl
  size_writeText _ _ := rfl
  toVec v := ⟨.compact v, none⟩
  sha256 bytes := Recorded.sha256 known bytes.document
  validSha256_sha256 bytes := Recorded.validSha256_sha256 bytes.document

end Measured

/-! Identifiers to try things with. -/

def sampleOperationId : Uuid := ⟨"5b1cf8b8-6a8c-4d0e-9a4e-2f6f5c1c7a11", by decide⟩

def sampleMeetingId : Uuid := ⟨"0d2f7d5a-52a7-4e3b-8f0a-6f3f0a9c1b22", by decide⟩

end YawnApp.SessionCore
