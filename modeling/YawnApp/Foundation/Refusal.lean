/-
  Foundation/Refusal.lean --- checks that pass or refuse.

  A validator is a sequence of checks, the first of which to fail is reported.
  `refuseIf` is one check, `orRefuse` is `Option::ok_or`, and the lemmas say when
  a sequence of them passes, so that a proof about a validator starts from the
  list of its conditions and not from its nesting.
-/
import Mathlib.Data.List.Forall2
import Mathlib.Logic.Basic

set_option autoImplicit false

namespace YawnApp.Foundation

variable {ε δ α β : Type} {x : Except ε α} {condition : Prop} {f : α → Except ε β} {e : ε}

/-- Refuse with `e` when the condition holds. -/
def refuseIf (condition : Prop) [Decidable condition] (e : ε) : Except ε Unit :=
  if condition then .error e else .ok ()

@[simp] theorem refuseIf_eq_ok [Decidable condition] {u : Unit} :
    refuseIf condition e = .ok u ↔ ¬ condition := by
  unfold refuseIf
  split <;> simp_all

theorem refuseIf_of_not [Decidable condition] (h : ¬ condition) :
    refuseIf condition e = .ok () := by simp [h]

theorem refuseIf_of [Decidable condition] (h : condition) :
    refuseIf condition e = .error e := by simp [refuseIf, h]

/-- The value, or a refusal when there is none. -/
def orRefuse (o : Option α) (e : ε) : Except ε α :=
  match o with
  | some a => .ok a
  | none => .error e

@[simp] theorem orRefuse_some (a : α) (e : ε) : orRefuse (some a) e = .ok a := rfl

@[simp] theorem orRefuse_none (e : ε) : (orRefuse none e : Except ε α) = .error e := rfl

@[simp] theorem orRefuse_eq_ok {o : Option α} {a : α} : orRefuse o e = .ok a ↔ o = some a := by
  cases o <;> simp

/-- Check a value that may be absent. -/
def checkSome (o : Option α) (check : α → Except ε Unit) : Except ε Unit :=
  match o with
  | some a => check a
  | none => .ok ()

@[simp] theorem checkSome_none (check : α → Except ε Unit) : checkSome none check = .ok () := rfl

@[simp] theorem checkSome_some (a : α) (check : α → Except ε Unit) :
    checkSome (some a) check = check a := rfl

/-- A sequence succeeds when each of its parts does. -/
@[simp] theorem bind_eq_ok {k : α → Except ε β} {b : β} :
    (x >>= k) = .ok b ↔ ∃ a, x = .ok a ∧ k a = .ok b := by
  cases x with
  | error | ok => simp [bind, Except.bind]

/-- A check followed by the rest passes when both do. -/
theorem check_bind_eq_ok {x : Except ε Unit} {k : Unit → Except ε β} {b : β} :
    (x >>= k) = .ok b ↔ x = .ok () ∧ k () = .ok b := by
  rw [bind_eq_ok]
  exact ⟨fun ⟨_, hx, hk⟩ => ⟨hx, hk⟩, fun ⟨hx, hk⟩ => ⟨(), hx, hk⟩⟩

@[simp] theorem ok_bind (a : α) (k : α → Except ε β) : ((.ok a : Except ε α) >>= k) = k a := rfl

@[simp] theorem error_bind (e : ε) (k : α → Except ε β) :
    ((.error e : Except ε α) >>= k) = .error e := rfl

theorem map_eq_ok {f : α → β} {b : β} : x.map f = .ok b ↔ ∃ a, x = .ok a ∧ f a = b := by
  cases x <;> simp [Except.map]

/-- The answers of a traversal are those of its items. -/
theorem mem_of_mapM_eq_ok : ∀ {l : List α} {out : List β},
    l.mapM f = .ok out → ∀ b, b ∈ out ↔ ∃ a ∈ l, f a = .ok b := by
  intro l
  induction l with
  | nil =>
    intro out h b
    cases h
    simp
  | cons first rest ih =>
    intro out h b
    simp only [List.mapM_cons, bind_eq_ok, pure, Except.pure, Except.ok.injEq] at h
    obtain ⟨c, hfirst, out', hrest, rfl⟩ := h
    rw [List.mem_cons, ih hrest b]
    simp only [List.mem_cons, or_and_right, exists_or, exists_eq_left, hfirst, Except.ok.injEq,
      eq_comm (a := c)]

/-- A traversal answers when each of its items does. -/
theorem exists_mapM_eq_ok : ∀ {l : List α},
    (∃ out, l.mapM f = .ok out) ↔ ∀ a ∈ l, ∃ b, f a = .ok b := by
  intro l
  induction l with
  | nil => simp [pure, Except.pure]
  | cons first rest ih =>
    simp only [List.mapM_cons, bind_eq_ok, pure, Except.pure, Except.ok.injEq, List.mem_cons,
      forall_eq_or_imp, ← ih]
    constructor
    · rintro ⟨_, b, hfirst, out, hrest, -⟩
      exact ⟨⟨b, hfirst⟩, out, hrest⟩
    · rintro ⟨⟨b, hfirst⟩, out, hrest⟩
      exact ⟨_, b, hfirst, out, hrest, rfl⟩

/-- A traversal answers item by item. -/
theorem mapM_eq_ok_iff_forall₂ : ∀ {l : List α} {out : List β},
    l.mapM f = .ok out ↔ List.Forall₂ (fun a b => f a = .ok b) l out := by
  intro l
  induction l with
  | nil =>
    intro out
    simp [pure, Except.pure, eq_comm]
  | cons first rest ih =>
    intro out
    simp only [List.mapM_cons, bind_eq_ok, pure, Except.pure, Except.ok.injEq,
      List.forall₂_cons_left_iff, ← ih]
    constructor
    · rintro ⟨b, hfirst, out', hrest, rfl⟩
      exact ⟨b, out', hfirst, hrest, rfl⟩
    · rintro ⟨b, out', hfirst, hrest, rfl⟩
      exact ⟨b, hfirst, out', hrest, rfl⟩

/-- What each round of a loop keeps, the loop keeps. -/
theorem foldlM_eq_ok_invariant {f : β → α → Except ε β} {P : β → Prop} :
    ∀ {l : List α}, (∀ a ∈ l, ∀ b c, P b → f b a = .ok c → P c) →
      ∀ {b c : β}, P b → l.foldlM f b = .ok c → P c := by
  intro l
  induction l with
  | nil =>
    intro _ b c hb h
    cases h
    exact hb
  | cons a rest ih =>
    intro hstep b c hb h
    rw [List.foldlM_cons, bind_eq_ok] at h
    obtain ⟨middle, hfirst, hrest⟩ := h
    exact ih (fun x hx => hstep x (List.mem_cons_of_mem _ hx))
      (hstep a List.mem_cons_self b middle hb hfirst) hrest

/-- A loop of checks passes when each of them does. -/
theorem forM_eq_ok {check : α → Except ε Unit} :
    ∀ {l : List α} {u : Unit}, l.forM check = .ok u ↔ ∀ a ∈ l, check a = .ok () := by
  intro l
  induction l with
  | nil => simp [pure, Except.pure]
  | cons a l ih =>
    intro u
    change (check a >>= fun _ => l.forM check) = _ ↔ _
    rw [check_bind_eq_ok, ih]
    simp

@[simp] theorem mapError_ok (a : α) (translate : ε → δ) :
    (.ok a : Except ε α).mapError translate = .ok a := rfl

@[simp] theorem mapError_error (e : ε) (translate : ε → δ) :
    (.error e : Except ε α).mapError translate = .error (translate e) := rfl

@[simp] theorem mapError_eq_ok {translate : ε → δ} {a : α} :
    x.mapError translate = .ok a ↔ x = .ok a := by
  cases x <;> simp

end YawnApp.Foundation
