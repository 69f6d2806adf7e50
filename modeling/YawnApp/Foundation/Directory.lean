/-
  Foundation/Directory.lean --- directories and folders of write-once files.

  `Volume` has one map for all places.  Where a part of a file tree has a fixed
  shape, a type of that shape says more: a `Directory` is what stands under each
  of its names together with the order it lists them in, and a `Drawer` is a
  directory of files with known names, each written once through a temporary
  file.  Directories nest, and `within` runs a program on one entry.

  The name of a temporary file has a fresh random part, so opening one never
  finds it taken; what an interrupted writer leaves behind is kept as a list.
-/
import YawnApp.Foundation.Volume

set_option autoImplicit false

namespace YawnApp.Foundation

/-! ## Directories -/

/-- The entries of a directory, the order in which it lists them, and whether
its mode is 0700. -/
structure Directory (K V : Type) where
  names : List K
  entry : K → Option V
  isPrivate : Bool
  nodup : names.Nodup
  listed : ∀ k, k ∈ names ↔ (entry k).isSome = true

namespace Directory

variable {K V : Type} {d : Directory K V} {k : K} {v : V}

/-- A private directory without entries. -/
def empty : Directory K V where
  names := []
  entry _ := none
  isPrivate := true
  nodup := List.nodup_nil
  listed _ := by simp

instance : Inhabited (Directory K V) := ⟨empty⟩

/-- A directory as `mkdir` leaves it. -/
def made : Directory K V := { (empty : Directory K V) with isPrivate := false }

/-- `chmod` to mode 0700. -/
def chmod (d : Directory K V) : Directory K V := { d with isPrivate := true }

@[simp] theorem entry_chmod (d : Directory K V) (k : K) : d.chmod.entry k = d.entry k := rfl

@[simp] theorem isPrivate_chmod (d : Directory K V) : d.chmod.isPrivate = true := rfl

@[simp] theorem chmod_made : (made : Directory K V).chmod = empty := rfl

theorem chmod_of_private (h : d.isPrivate = true) : d.chmod = d := by
  unfold chmod
  rw [← h]

@[simp] theorem entry_empty (k : K) : (empty : Directory K V).entry k = none := rfl

@[simp] theorem names_empty : (empty : Directory K V).names = [] := rfl

theorem mem_names (h : d.entry k = some v) : k ∈ d.names := by
  rw [d.listed, h]
  rfl

theorem entry_of_mem (h : k ∈ d.names) : ∃ v, d.entry k = some v :=
  Option.isSome_iff_exists.mp ((d.listed k).mp h)

@[ext] theorem ext {e : Directory K V} (hnames : d.names = e.names)
    (hentry : ∀ k, d.entry k = e.entry k) (hprivate : d.isPrivate = e.isPrivate) : d = e := by
  obtain ⟨names, entry, _, _, _⟩ := d
  obtain ⟨names', entry', _, _, _⟩ := e
  have hnames' : names = names' := hnames
  have hentry' : entry = entry' := funext hentry
  have hprivate' : _ = _ := hprivate
  subst hnames' hentry' hprivate'
  rfl

variable [DecidableEq K]

/-- Make an entry, or put something else in its place.  A new name is listed
last. -/
def put (d : Directory K V) (k : K) (v : V) : Directory K V where
  names := if k ∈ d.names then d.names else d.names ++ [k]
  entry other := if other = k then some v else d.entry other
  isPrivate := d.isPrivate
  nodup := by
    split
    · exact d.nodup
    · rename_i hk
      rw [List.nodup_append]
      refine ⟨d.nodup, List.nodup_singleton k, fun a ha b hb => ?_⟩
      rw [List.mem_singleton] at hb
      rintro rfl
      exact hk (hb ▸ ha)
  listed other := by
    by_cases hother : other = k
    · subst hother
      by_cases hk : other ∈ d.names <;> simp [hk]
    · by_cases hk : k ∈ d.names <;> simp [hother, hk, d.listed other]

/-- Take an entry away. -/
def remove (d : Directory K V) (k : K) : Directory K V where
  names := d.names.erase k
  entry other := if other = k then none else d.entry other
  isPrivate := d.isPrivate
  nodup := d.nodup.erase k
  listed other := by
    rw [d.nodup.mem_erase_iff]
    by_cases hother : other = k
    · simp [hother]
    · simp [hother, d.listed other]

theorem entry_put (d : Directory K V) (k other : K) (v : V) :
    (d.put k v).entry other = if other = k then some v else d.entry other := rfl

@[simp] theorem entry_put_self (d : Directory K V) (k : K) (v : V) :
    (d.put k v).entry k = some v := if_pos rfl

theorem entry_put_of_ne {other : K} (v : V) (h : other ≠ k) :
    (d.put k v).entry other = d.entry other := if_neg h

theorem entry_remove (d : Directory K V) (k other : K) :
    (d.remove k).entry other = if other = k then none else d.entry other := rfl

theorem names_put_of_mem (v : V) (h : k ∈ d.names) : (d.put k v).names = d.names := if_pos h

theorem names_put_of_not_mem (v : V) (h : k ∉ d.names) :
    (d.put k v).names = d.names ++ [k] := if_neg h

@[simp] theorem isPrivate_put (d : Directory K V) (k : K) (v : V) :
    (d.put k v).isPrivate = d.isPrivate := rfl

@[simp] theorem put_put (d : Directory K V) (k : K) (v w : V) :
    (d.put k v).put k w = d.put k w := by
  refine ext ?_ (fun other => ?_) rfl
  · by_cases hk : k ∈ d.names <;> simp [put, hk]
  · simp only [entry_put]
    split <;> rfl

/-- Putting back what is there changes nothing. -/
theorem put_self (h : d.entry k = some v) : d.put k v = d := by
  refine ext (names_put_of_mem v (mem_names h)) (fun other => ?_) rfl
  rw [entry_put]
  split
  · rename_i hother
    rw [hother, h]
  · rfl

/-- The entries in the order of the listing. -/
def entries (d : Directory K V) : List (K × V) :=
  d.names.filterMap fun k => (d.entry k).map fun v => (k, v)

omit [DecidableEq K] in
theorem mem_entries : (k, v) ∈ d.entries ↔ d.entry k = some v := by
  unfold entries
  simp only [List.mem_filterMap, Option.map_eq_some_iff, Prod.mk.injEq]
  constructor
  · rintro ⟨other, -, found, hfound, rfl, rfl⟩
    exact hfound
  · exact fun h => ⟨k, mem_names h, v, h, rfl, rfl⟩

omit [DecidableEq K] in
/-- No name has two entries. -/
theorem nodup_entries (d : Directory K V) : (d.entries.map Prod.fst).Nodup := by
  have hsublist : ∀ names : List K, List.Sublist
      ((names.filterMap fun k => (d.entry k).map fun v => (k, v)).map Prod.fst) names := by
    intro names
    induction names with
    | nil => exact .slnil
    | cons k rest ih =>
      cases hk : d.entry k with
      | none =>
        simp only [List.filterMap_cons, hk, Option.map_none]
        exact ih.cons k
      | some =>
        simp only [List.filterMap_cons, hk, Option.map_some, List.map_cons]
        exact ih.cons_cons k
  exact d.nodup.sublist (hsublist d.names)

/-- A new entry is listed last. -/
theorem entries_put_of_absent (v : V) (h : d.entry k = none) :
    (d.put k v).entries = d.entries ++ [(k, v)] := by
  have hk : k ∉ d.names := by
    rw [d.listed, h]
    simp
  unfold entries
  rw [names_put_of_not_mem v hk, List.filterMap_append]
  congr 1
  · apply List.filterMap_congr
    intro other hother
    rw [entry_put_of_ne v (by rintro rfl; exact hk hother)]
  · simp

/-- An entry that is there keeps its place. -/
theorem entries_put_of_mem (w : V) (h : d.entry k = some v) :
    (d.put k w).entries = d.entries.map fun e => if e.1 = k then (k, w) else e := by
  unfold entries
  rw [names_put_of_mem w (mem_names h), List.map_filterMap]
  apply List.filterMap_congr
  intro other _
  rw [entry_put]
  by_cases hother : other = k
  · subst hother
    simp [h]
  · cases d.entry other <;> simp [hother]

section Programs

variable [Inhabited V] {ε α : Type} {v : V}

/-- Run a program on one entry.  An entry that is not there is taken as empty,
and is there afterwards if the program took a step. -/
def within (k : K) (program : Durable V ε α) : Durable (Directory K V) ε α :=
  Durable.zoom (fun d => (d.entry k).getD default) (fun v d => d.put k v) program

theorem within_apply {d : Directory K V} {k : K} (h : d.entry k = some v) (program : Durable V ε α) :
    (within k program).exec d =
      ⟨(program.exec v).trace.map (d.put k), (program.exec v).result⟩ := by
  unfold within Durable.zoom
  simp only [h, Option.getD_some]

/-- What a crash leaves of an entry. -/
theorem cut_within {d : Directory K V} {k : K} (h : d.entry k = some v) (program : Durable V ε α)
    (steps : Nat) : (((within k program).exec d).trace.take steps).getLastD d =
      d.put k (((program.exec v).trace.take steps).getLastD v) := by
  rw [within_apply h, ← List.map_take]
  have := getLastD_map (d.put k) ((program.exec v).trace.take steps) v
  rwa [put_self h] at this

theorem final_within {d : Directory K V} {k : K} (h : d.entry k = some v) (program : Durable V ε α) :
    ((within k program).exec d).final d = d.put k ((program.exec v).final v) := by
  have := cut_within h program ((program.exec v).trace.length)
  rw [List.take_length, within_apply h, List.take_of_length_le (by simp)] at this
  rw [within_apply h]
  exact this

/-- Run a program on each of some entries, one after another, and go on after a
refusal. -/
def sweep {δ : Type} (program : K → Durable V ε α) (keys : List K) :
    Durable (Directory K V) δ (List (K × Except ε α)) :=
  Durable.forEach (fun k => do
    let result ← Durable.attempt (within k (program k))
    pure (k, result)) keys

/-- A program on one entry leaves the others as they are. -/
theorem within_moves {k other : K} (h : other ≠ k) (program : Durable V ε α) :
    Moves (fun d d' : Directory K V => d'.entry other = d.entry other) (within k program) :=
  Moves.zoom program fun _ v => entry_put_of_ne v h

/-- An entry whose own program takes no step is not touched by a sweep, which
answers for it what that program answers. -/
theorem sweep_of_settled {δ : Type} {program : K → Durable V ε α} {k : K} {result : Except ε α}
    (h : (program k).exec v = ⟨[], result⟩) (keys : List K) :
    ∀ d : Directory K V, d.entry k = some v →
      Meets (sweep program keys : Durable (Directory K V) δ _) d (fun t => t.entry k = some v)
        (fun out t => t.entry k = some v ∧ ∀ r, (k, r) ∈ out ↔ k ∈ keys ∧ r = result)
        (fun _ _ => False) := by
  have hround : ∀ (k' : K) (d : Directory K V), d.entry k = some v →
      Meets (Durable.attempt (within k' (program k')) : Durable (Directory K V) δ _) d
        (fun t => t.entry k = some v)
        (fun r t => t.entry k = some v ∧ (k' = k → r = result)) (fun _ _ => False) := by
    intro k' d hd
    by_cases hk : k' = k
    · subst hk
      have hrun : (Durable.attempt (within k' (program k')) : Durable _ δ _).exec d =
          ⟨[], .ok result⟩ := by
        unfold Durable.attempt
        simp only [within_apply hd, h, List.map_nil]
      exact Meets.of_eq_ok hrun (fun t ht => by cases ht) ⟨hd, fun _ => rfl⟩
    · apply Meets.attempt
      have hmoves := within_moves (Ne.symm hk) (program k')
      exact (hmoves.meets (I := fun t => t.entry k = some v) (fun _ => rfl)
        fun t ht => ht.trans hd).mono (fun _ ht => ht)
        (fun _ _ ht => ⟨ht, fun heq => absurd heq hk⟩) fun _ _ ht => ⟨ht, fun heq => absurd heq hk⟩
  induction keys with
  | nil => exact fun d hd => Meets.pure ⟨hd, fun r => by simp⟩
  | cons k' rest ih =>
    intro d hd
    refine Meets.bind ((hround k' d hd).seq fun r t ht => ?_)
    refine Meets.pure ((ih t ht.1).seq fun out u hu => ?_)
    refine Meets.pure ⟨hu.1, fun r' => ?_⟩
    rw [List.mem_cons, Prod.mk.injEq, hu.2, List.mem_cons]
    constructor
    · rintro (⟨hk, hr⟩ | ⟨hk, hr⟩)
      · exact ⟨.inl hk, hr.trans (ht.2 hk.symm)⟩
      · exact ⟨.inr hk, hr⟩
    · rintro ⟨hk | hk, hr⟩
      · exact .inl ⟨hk, hr.trans (ht.2 hk.symm).symm⟩
      · exact .inr ⟨hk, hr⟩

end Programs

end Directory

/-! ## Folders -/

/-- A folder: a directory of files with known names. -/
structure Drawer (N B : Type) where
  /-- The files that have reached their name. -/
  linked : N → Option B
  /-- Temporary files, the newest first. -/
  temporaries : List B
  /-- Whether its mode is 0700. -/
  isPrivate : Bool

namespace Drawer

open Durable

variable {N B : Type} {f : Drawer N B}

/-- A private folder without files. -/
def empty : Drawer N B := ⟨fun _ => none, [], true⟩

instance : Inhabited (Drawer N B) := ⟨empty⟩

/-- A folder as `mkdir` leaves it. -/
def made : Drawer N B := { (empty : Drawer N B) with isPrivate := false }

/-- `chmod` to mode 0700. -/
def chmod (f : Drawer N B) : Drawer N B := { f with isPrivate := true }

@[simp] theorem linked_empty (name : N) : (empty : Drawer N B).linked name = none := rfl

@[simp] theorem linked_chmod (f : Drawer N B) (name : N) : f.chmod.linked name = f.linked name := rfl

@[simp] theorem chmod_made : (made : Drawer N B).chmod = empty := rfl

@[simp] theorem chmod_empty : (empty : Drawer N B).chmod = empty := rfl

theorem chmod_of_private (h : f.isPrivate = true) : f.chmod = f := by
  unfold chmod
  rw [← h]

variable [DecidableEq N]

/-- The folder with a file at a name. -/
def link (f : Drawer N B) (name : N) (bytes : B) : Drawer N B :=
  { f with linked := fun other => if other = name then some bytes else f.linked other }

/-- `link(2)` of the newest temporary file to a name that must be free. -/
def linkNewest (name : N) (f : Drawer N B) : Except IoError (Drawer N B) :=
  match f.temporaries with
  | [] => .error .notFound
  | bytes :: _ => if (f.linked name).isSome then .error .alreadyExists else .ok (f.link name bytes)

/-- `unlink(2)` of the newest temporary file. -/
def dropNewest (f : Drawer N B) : Drawer N B := { f with temporaries := f.temporaries.tail }

/-- The temporary file of `createNew`, empty or written. -/
def withTemporary (f : Drawer N B) (bytes : B) : Drawer N B :=
  { f with temporaries := bytes :: f.temporaries }

omit [DecidableEq N] in
@[simp] theorem dropNewest_withTemporary (f : Drawer N B) (bytes : B) :
    (f.withTemporary bytes).dropNewest = f := rfl

variable [ByteString B]

/-- What happens once the temporary file is open: its contents, the link to the
name and the removal of the temporary file. -/
def fill (name : N) (bytes : B) : Durable (Drawer N B) IoError Unit := do
  Durable.write fun f => (dropNewest f).withTemporary bytes
  Durable.step (linkNewest name)
  Durable.write dropNewest

/-- Write a new file through a temporary one: the folder is made private, and a
refusal removes the temporary file. -/
def createNew (name : N) (bytes : B) : Durable (Drawer N B) IoError Unit := do
  Durable.write chmod
  Durable.write fun f => f.withTemporary ByteString.empty
  Durable.onError (fill name bytes) (Durable.write dropNewest : Durable (Drawer N B) IoError Unit)

/-- The states of `createNew` at a free name, in order.  `f` is the folder with
its mode already set. -/
def newStates (f : Drawer N B) (name : N) (bytes : B) : List (Drawer N B) :=
  [f, f.withTemporary ByteString.empty, f.withTemporary bytes,
    (f.withTemporary bytes).link name bytes, f.link name bytes]

/-- At a free name the five steps all succeed. -/
theorem createNew_of_free {name : N} (bytes : B) (h : f.linked name = none) :
    (createNew name bytes).exec f = ⟨f.chmod.newStates name bytes, .ok ()⟩ := by
  have hlink : linkNewest name (f.chmod.withTemporary bytes) =
      .ok ((f.chmod.withTemporary bytes).link name bytes) := by
    unfold linkNewest withTemporary
    simp [h]
  have hfill : (fill name bytes).exec (f.chmod.withTemporary ByteString.empty) =
      ⟨[f.chmod.withTemporary bytes, (f.chmod.withTemporary bytes).link name bytes,
        f.chmod.link name bytes], .ok ()⟩ := by
    unfold fill
    rw [bind_write, dropNewest_withTemporary, bind_step_of_ok _ hlink,
      write_apply]
    rfl
  unfold createNew
  rw [bind_write, bind_write, onError_of_eq_ok hfill]
  rfl

/-- A name that is taken refuses the link, and the temporary file is removed. -/
theorem createNew_of_taken {name : N} (bytes : B) (h : (f.linked name).isSome = true) :
    (createNew name bytes).exec f =
      ⟨[f.chmod, f.chmod.withTemporary ByteString.empty, f.chmod.withTemporary bytes, f.chmod],
        .error .alreadyExists⟩ := by
  have hlink : linkNewest name (f.chmod.withTemporary bytes) = .error .alreadyExists := by
    unfold linkNewest withTemporary
    simp [h]
  have hfill : (fill name bytes).exec (f.chmod.withTemporary ByteString.empty) =
      ⟨[f.chmod.withTemporary bytes], .error .alreadyExists⟩ := by
    unfold fill
    rw [bind_write, dropNewest_withTemporary, bind_step_of_error _ hlink]
  unfold createNew
  rw [bind_write, bind_write, onError_of_eq_error hfill,
    write_apply]
  rfl

end Drawer

end YawnApp.Foundation
