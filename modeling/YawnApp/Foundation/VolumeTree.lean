/-
  Foundation/VolumeTree.lean --- whole directories of a volume.

  `Foundation/Volume` has the steps that change one place.  Two more act on a
  directory with everything in it: a rename takes all of it to another place in
  one step, and a recursive removal takes it away one entry after another, what
  a directory holds before the directory.  The first is described by where each
  place goes; the second by the list of places in the order of their removal.
-/
import YawnApp.Foundation.Volume

set_option autoImplicit false

namespace YawnApp.Foundation.Volume

variable {P B : Type} [DecidableEq P]

/-! ## Moving places -/

/-- The volume in which every place that `move` sends somewhere has gone there. -/
def relocate (move : P → Option P) (v : Volume P B) : Volume P B :=
  List.toAList ((v.entries.filterMap fun entry => (move entry.1).map fun q => ⟨q, entry.2⟩) ++
    v.entries.filter fun entry => (move entry.1).isNone)

/-! ## Removing a directory with everything in it -/

variable [Location P]

/-- `unlink(2)`, or `rmdir(2)` of a directory, which must be empty. -/
def removeEntry (p : P) (v : Volume P B) : Except IoError (Volume P B) :=
  match v.node p with
  | none => .error .notFound
  | some (.directory _) => if v.readDir p = [] then .ok (v.clear p) else .error .other
  | some (.file _ _) => .ok (v.clear p)
  | some .symlink => .ok (v.clear p)

/-- Remove places one after another. -/
def removeAll : List P → Durable (Volume P B) IoError Unit
  | [] => pure ()
  | p :: rest => do
    Durable.step (removeEntry p)
    removeAll rest

end YawnApp.Foundation.Volume
