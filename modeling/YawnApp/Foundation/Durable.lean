/-
  Foundation/Durable.lean --- programs over durable storage that a crash can cut.

  A program over storage is more than a function from a state to a state: the
  process can stop between any two of its durable steps, and what it leaves
  behind is then one of the states in between.  `Durable` keeps those states.
  Running a program gives the list of the states after each of its durable
  steps and a result; a crash keeps a prefix of that list, and the state it
  leaves is the last one of the prefix.

  Two things are built over it.  `Meets` is a Hoare judgement with three
  postconditions, one for every state a crash can leave, one for success and
  one for refusal, with a rule for each way a program is put together.  `run`
  executes a list of calls, each cut after a given number of steps, and
  `run_invariant` is the induction over such a list.

  Nothing here knows what the storage holds.
-/
import Mathlib.Data.List.Basic
import Mathlib.Data.List.Chain
import YawnApp.Foundation.Refusal

set_option autoImplicit false

namespace YawnApp.Foundation

variable {σ τ ε δ α β κ : Type}

/-! ## Outcomes -/

theorem getLastD_append (first second : List σ) (s : σ) :
    (first ++ second).getLastD s = second.getLastD (first.getLastD s) := by
  simp only [List.getLastD_eq_getLast?, List.getLast?_append]
  cases second.getLast? <;> rfl

/-- Cutting a list of states leaves the state before it or one of its own. -/
theorem getLastD_take_eq_or_mem (trace : List σ) (s : σ) (steps : Nat) :
    (trace.take steps).getLastD s = s ∨ (trace.take steps).getLastD s ∈ trace := by
  cases htake : (trace.take steps).getLast? with
  | none => exact .inl (by rw [List.getLastD_eq_getLast?, htake]; rfl)
  | some =>
    right
    rw [List.getLastD_eq_getLast?, htake]
    exact List.mem_of_mem_take (List.mem_of_getLast? htake)

theorem getLastD_map (f : σ → τ) (trace : List σ) (s : σ) :
    (trace.map f).getLastD (f s) = f (trace.getLastD s) := by
  simp only [List.getLastD_eq_getLast?, List.getLast?_map]
  cases trace.getLast? <;> rfl

/-- What running a program from one state leaves behind. -/
structure Outcome (σ ε α : Type) where
  /-- The state after each durable step, the first step first. -/
  trace : List σ
  /-- What the caller is told, if it is still there to be told anything. -/
  result : Except ε α

namespace Outcome

/-- The state once every step has been taken. -/
def final (o : Outcome σ ε α) (s : σ) : σ := o.trace.getLastD s

/-- A program ends where it started or in one of its intermediate states. -/
theorem final_eq_or_mem (o : Outcome σ ε α) (s : σ) :
    o.final s = s ∨ o.final s ∈ o.trace := by
  have h := getLastD_take_eq_or_mem o.trace s o.trace.length
  rwa [List.take_length] at h

end Outcome

/-! ## Programs -/

/-- A program over storage `σ` that may refuse with `ε`. -/
structure Durable (σ ε α : Type) where
  /-- Run the program from a state. -/
  exec : σ → Outcome σ ε α

namespace Durable

/-- A program that only reads: it looks at the storage and answers or refuses. -/
def inspect (look : σ → Except ε α) : Durable σ ε α := ⟨fun s => ⟨[], look s⟩⟩

/-- Answer without looking at the storage. -/
def lift (answer : Except ε α) : Durable σ ε α := inspect fun _ => answer

/-- One durable step, which may be refused and then leaves no trace. -/
def step (change : σ → Except ε σ) : Durable σ ε Unit where
  exec s :=
    match change s with
    | .error e => ⟨[], .error e⟩
    | .ok t => ⟨[t], .ok ()⟩

/-- One durable step that cannot be refused. -/
def write (change : σ → σ) : Durable σ ε Unit := step fun s => .ok (change s)

/-- Refuse. -/
def fail (e : ε) : Durable σ ε α := lift (.error e)

/-- Run the second program from the state the first one ends in. -/
protected def bind (m : Durable σ ε α) (k : α → Durable σ ε β) : Durable σ ε β where
  exec s :=
    match (m.exec s).result with
    | .error e => ⟨(m.exec s).trace, .error e⟩
    | .ok a =>
      let rest := (k a).exec ((m.exec s).final s)
      ⟨(m.exec s).trace ++ rest.trace, rest.result⟩

instance : Monad (Durable σ ε) where
  pure a := lift (.ok a)
  bind := Durable.bind

/-- Report a refusal in the caller's own words. -/
def mapError (translate : ε → δ) (m : Durable σ ε α) : Durable σ δ α where
  exec s := ⟨(m.exec s).trace, (m.exec s).result.mapError translate⟩

/-- Turn a refusal into an answer, so that the caller can go on after it. -/
def attempt (m : Durable σ ε α) : Durable σ δ (Except ε α) where
  exec s := ⟨(m.exec s).trace, .ok (m.exec s).result⟩

/-- Clean up after a refusal and report the refusal, whatever the cleanup said. -/
def onError (m : Durable σ ε α) (cleanup : Durable σ δ β) : Durable σ ε α where
  exec s :=
    match (m.exec s).result with
    | .ok _ => m.exec s
    | .error e =>
      ⟨(m.exec s).trace ++ (cleanup.exec ((m.exec s).final s)).trace, .error e⟩

/-- Run a program on one part of a larger storage. -/
def zoom (get : τ → σ) (set : σ → τ → τ) (m : Durable σ ε α) : Durable τ ε α where
  exec t := ⟨(m.exec (get t)).trace.map fun s => set s t, (m.exec (get t)).result⟩

theorem zoom_apply (get : τ → σ) (set : σ → τ → τ) (m : Durable σ ε α) (t : τ) :
    (zoom get set m).exec t =
      ⟨(m.exec (get t)).trace.map fun s => set s t, (m.exec (get t)).result⟩ := rfl

/-- A program on a part ends with the part where it would end by itself. -/
theorem final_zoom (get : τ → σ) (set : σ → τ → τ) (m : Durable σ ε α) {t : τ}
    (h : set (get t) t = t) :
    ((zoom get set m).exec t).final t = set ((m.exec (get t)).final (get t)) t := by
  unfold Outcome.final zoom
  simp only [List.getLastD_eq_getLast?, List.getLast?_map]
  cases (m.exec (get t)).trace.getLast? with
  | none => exact h.symm
  | some => rfl

@[simp] theorem inspect_trace (look : σ → Except ε α) (s : σ) :
    ((inspect look).exec s).trace = [] := rfl

@[simp] theorem inspect_result (look : σ → Except ε α) (s : σ) :
    ((inspect look).exec s).result = look s := rfl

@[simp] theorem lift_apply (answer : Except ε α) (s : σ) :
    (lift answer : Durable σ ε α).exec s = ⟨[], answer⟩ := rfl

@[simp] theorem pure_apply (a : α) (s : σ) :
    (pure a : Durable σ ε α).exec s = ⟨[], .ok a⟩ := rfl

variable {m : Durable σ ε α} {trace : List σ} {a : α} {e : ε} {s : σ}

theorem bind_of_ok (k : α → Durable σ ε β) (h : (m.exec s).result = .ok a) : (m >>= k).exec s =
      ⟨(m.exec s).trace ++ ((k a).exec ((m.exec s).final s)).trace, ((k a).exec ((m.exec s).final s)).result⟩ := by
  change (Durable.bind m k).exec s = _
  simp only [Durable.bind, h]

theorem bind_of_error (k : α → Durable σ ε β) (h : (m.exec s).result = .error e) :
    (m >>= k).exec s = ⟨(m.exec s).trace, .error e⟩ := by
  change (Durable.bind m k).exec s = _
  simp only [Durable.bind, h]

variable {change : σ → Except ε σ}

theorem step_of_ok {t : σ} (h : change s = .ok t) : (step change).exec s = ⟨[t], .ok ()⟩ := by
  simp only [step, h]

theorem step_of_error (h : change s = .error e) : (step change).exec s = ⟨[], .error e⟩ := by
  simp only [step, h]

/-! Executing a program one instruction at a time. -/

theorem bind_inspect_of_ok {look : σ → Except ε α} (k : α → Durable σ ε β) (h : look s = .ok a) :
    (inspect look >>= k).exec s = (k a).exec s := by
  rw [bind_of_ok k (show ((inspect look).exec s).result = .ok a from h)]
  rfl

/-- Looking at the state and going on with what is seen. -/
theorem bind_look (f : σ → α) (k : α → Durable σ ε β) (s : σ) :
    (inspect (fun s => .ok (f s)) >>= k).exec s = (k (f s)).exec s := bind_inspect_of_ok k rfl

theorem bind_inspect_of_error {look : σ → Except ε α} (k : α → Durable σ ε β)
    (h : look s = .error e) : (inspect look >>= k).exec s = ⟨[], .error e⟩ :=
  bind_of_error k (show ((inspect look).exec s).result = .error e from h)

theorem bind_lift_of_ok {answer : Except ε α} (k : α → Durable σ ε β) (s : σ) (h : answer = .ok a) :
    (lift answer >>= k).exec s = (k a).exec s :=
  bind_inspect_of_ok k h

theorem bind_lift_of_error {answer : Except ε α} (k : α → Durable σ ε β) (s : σ)
    (h : answer = .error e) : (lift answer >>= k).exec s = ⟨[], .error e⟩ :=
  bind_inspect_of_error k h

theorem bind_step_of_ok {t : σ} (k : Unit → Durable σ ε β) (h : change s = .ok t) :
    (step change >>= k).exec s = ⟨t :: ((k ()).exec t).trace, ((k ()).exec t).result⟩ := by
  have hstep := step_of_ok h
  rw [bind_of_ok k (show ((step change).exec s).result = .ok () by rw [hstep])]
  rw [hstep]
  rfl

/-- Going on after a step that cannot be refused. -/
theorem bind_write (change : σ → σ) (k : Unit → Durable σ ε β) (s : σ) :
    (write change >>= k).exec s =
      ⟨change s :: ((k ()).exec (change s)).trace, ((k ()).exec (change s)).result⟩ :=
  bind_step_of_ok k rfl

theorem write_apply (change : σ → σ) (s : σ) :
    (write change : Durable σ ε Unit).exec s = ⟨[change s], .ok ()⟩ := step_of_ok rfl

theorem bind_step_of_error (k : Unit → Durable σ ε β) (h : change s = .error e) :
    (step change >>= k).exec s = ⟨[], .error e⟩ := by
  have hstep := step_of_error h
  rw [bind_of_error k (show ((step change).exec s).result = .error e by rw [hstep]), hstep]

/-- Calling a program whose outcome is known. -/
theorem bind_of_eq_ok (k : α → Durable σ ε β) (h : m.exec s = ⟨trace, .ok a⟩) :
    (m >>= k).exec s = ⟨trace ++ ((k a).exec (trace.getLastD s)).trace, ((k a).exec (trace.getLastD s)).result⟩ := by
  rw [bind_of_ok k (show (m.exec s).result = .ok a by rw [h]), h]
  rfl

/-- Calling a program that turns out to take no step, or one. -/
theorem bind_of_eq_ok_nil (k : α → Durable σ ε β) (h : m.exec s = ⟨[], .ok a⟩) :
    (m >>= k).exec s = (k a).exec s := by
  rw [bind_of_eq_ok k h]
  rfl

theorem bind_of_eq_ok_singleton {t : σ} (k : α → Durable σ ε β) (h : m.exec s = ⟨[t], .ok a⟩) :
    (m >>= k).exec s = ⟨t :: ((k a).exec t).trace, ((k a).exec t).result⟩ := by
  rw [bind_of_eq_ok k h]
  rfl

/-- An answer made of another answer takes no step. -/
theorem bind_pure_apply (m : Durable σ ε α) (f : α → β) (s : σ) :
    ((m >>= fun a => pure (f a)).exec s).trace = (m.exec s).trace ∧
      ∀ a, (m.exec s).result = .ok a → ((m >>= fun a => pure (f a)).exec s).result = .ok (f a) := by
  cases hm : (m.exec s).result with
  | error =>
    rw [bind_of_error _ hm]
    exact ⟨rfl, fun a ha => by cases ha⟩
  | ok =>
    rw [bind_of_ok _ hm]
    refine ⟨List.append_nil _, fun b hb => ?_⟩
    cases hb
    rfl

theorem bind_of_eq_error (k : α → Durable σ ε β) (h : m.exec s = ⟨trace, .error e⟩) :
    (m >>= k).exec s = ⟨trace, .error e⟩ := by
  rw [bind_of_error k (show (m.exec s).result = .error e by rw [h]), h]

theorem onError_of_eq_ok {cleanup : Durable σ δ β} (h : m.exec s = ⟨trace, .ok a⟩) :
    (onError m cleanup).exec s = ⟨trace, .ok a⟩ := by
  simp [onError, h]

theorem onError_of_eq_error {cleanup : Durable σ δ β} (h : m.exec s = ⟨trace, .error e⟩) :
    (onError m cleanup).exec s = ⟨trace ++ (cleanup.exec (trace.getLastD s)).trace, .error e⟩ := by
  simp [onError, h, Outcome.final]

theorem mapError_of_eq_ok {translate : ε → δ} (h : m.exec s = ⟨trace, .ok a⟩) :
    (mapError translate m).exec s = ⟨trace, .ok a⟩ := by
  simp [mapError, h]

theorem mapError_of_eq_error {translate : ε → δ} (h : m.exec s = ⟨trace, .error e⟩) :
    (mapError translate m).exec s = ⟨trace, .error (translate e)⟩ := by
  simp [mapError, h]

/-- A program for each item of a list, one after another. -/
def forEach (round : κ → Durable σ ε α) : List κ → Durable σ ε (List α)
  | [] => pure []
  | item :: rest => do
    let a ← round item
    let others ← forEach round rest
    pure (a :: others)

/-- A first round that answers is followed by the others. -/
theorem forEach_cons_trace {round : κ → Durable σ ε α} {item : κ}
    (h : ((round item).exec s).result = .ok a) (rest : List κ) :
    ((forEach round (item :: rest)).exec s).trace = ((round item).exec s).trace ++
      ((forEach round rest).exec (((round item).exec s).final s)).trace := by
  rw [forEach, bind_of_ok _ h, (bind_pure_apply _ _ _).1]

/-- The states of writes made one after another. -/
def writes (change : κ → σ → σ) : σ → List κ → List σ
  | _, [] => []
  | s, item :: rest => change item s :: writes change (change item s) rest

@[simp] theorem length_writes (change : κ → σ → σ) (items : List κ) :
    ∀ s : σ, (writes change s items).length = items.length := by
  induction items with
  | nil => exact fun _ => rfl
  | cons item rest ih => exact fun s => congrArg Nat.succ (ih _)

/-- Cutting the writes is making the first of them. -/
theorem getLastD_take_writes (change : κ → σ → σ) (items : List κ) :
    ∀ (s : σ) (steps : Nat), ((writes change s items).take steps).getLastD s =
      (items.take steps).foldl (fun s item => change item s) s := by
  induction items with
  | nil => intro s steps; simp [writes]
  | cons item rest ih =>
    intro s steps
    cases steps with
    | zero => rfl
    | succ =>
      rw [writes, List.take_succ_cons, List.take_succ_cons, List.getLastD_cons, ih, List.foldl_cons]

theorem forEach_write (change : κ → σ → σ) (items : List κ) :
    ∀ s : σ, (forEach (fun item => (write (change item) : Durable σ ε Unit)) items).exec s =
      ⟨writes change s items, .ok (items.map fun _ => ())⟩ := by
  induction items with
  | nil => exact fun _ => rfl
  | cons item rest ih =>
    intro s
    rw [forEach, bind_write, bind_of_eq_ok _ (ih _)]
    exact congrArg (fun trace => Outcome.mk (change item s :: trace) _) (List.append_nil _)

end Durable

/-! ## Programs that always answer -/

/-- The program never refuses. -/
def Answers (m : Durable σ ε α) : Prop := ∀ s, ∃ a, (m.exec s).result = .ok a

namespace Answers

theorem look (f : σ → α) : Answers (Durable.inspect fun s => .ok (f s) : Durable σ ε α) :=
  fun s => ⟨f s, rfl⟩

theorem pure (a : α) : Answers (Pure.pure a : Durable σ ε α) := fun _ => ⟨a, rfl⟩

theorem attempt (m : Durable σ ε α) : Answers (Durable.attempt m : Durable σ δ (Except ε α)) :=
  fun s => ⟨(m.exec s).result, rfl⟩

theorem bind {m : Durable σ ε α} {k : α → Durable σ ε β} (hm : Answers m)
    (hk : ∀ a, Answers (k a)) : Answers (m >>= k) := by
  intro s
  obtain ⟨a, ha⟩ := hm s
  obtain ⟨b, hb⟩ := hk a ((m.exec s).final s)
  exact ⟨b, by rw [Durable.bind_of_ok k ha]; exact hb⟩

end Answers

/-! ## A Hoare judgement with crashes -/

/-- From `s` the program meets its contract: every state a crash can leave
satisfies `C`, an answer is given in a state satisfying `Q`, and a refusal in
one satisfying `E`.  The state `s` itself, left by a crash before the first
step, is the caller's business. -/
structure Meets (m : Durable σ ε α) (s : σ) (C : σ → Prop) (Q : α → σ → Prop)
    (E : ε → σ → Prop) : Prop where
  /-- Every intermediate state. -/
  crash : ∀ t ∈ (m.exec s).trace, C t
  /-- The state and the answer of a run that succeeds. -/
  ok : ∀ a, (m.exec s).result = .ok a → Q a ((m.exec s).final s)
  /-- The state and the refusal of a run that does not. -/
  error : ∀ e, (m.exec s).result = .error e → E e ((m.exec s).final s)

namespace Meets

variable {C C' : σ → Prop} {Q Q' : α → σ → Prop} {E E' : ε → σ → Prop} {s : σ} {m : Durable σ ε α}
  {trace : List σ} {k : α → Durable σ ε β}

/-- A program that is never refused answers. -/
theorem answers (h : Meets m s C Q fun _ _ => False) :
    ∃ a, (m.exec s).result = .ok a ∧ Q a ((m.exec s).final s) := by
  cases hresult : (m.exec s).result with
  | ok a => exact ⟨a, rfl, h.ok a hresult⟩
  | error e => exact (h.error e hresult).elim

/-- What a run with a known outcome leaves. -/
theorem of_exec (h : Meets m s C Q E) {a : α} (hexec : m.exec s = ⟨trace, .ok a⟩) :
    Q a (trace.getLastD s) := by
  have hok := h.ok a
  rw [hexec] at hok
  exact hok rfl

/-- The consequence rule. -/
theorem mono (h : Meets m s C Q E) (hC : ∀ t, C t → C' t) (hQ : ∀ a t, Q a t → Q' a t)
    (hE : ∀ e t, E e t → E' e t) : Meets m s C' Q' E' where
  crash t ht := hC t (h.crash t ht)
  ok a ha := hQ a _ (h.ok a ha)
  error e he := hE e _ (h.error e he)

/-- Two contracts of one program hold together. -/
theorem and (h : Meets m s C Q E) (h' : Meets m s C' Q' E') :
    Meets m s (fun t => C t ∧ C' t) (fun a t => Q a t ∧ Q' a t) (fun e t => E e t ∧ E' e t) where
  crash t ht := ⟨h.crash t ht, h'.crash t ht⟩
  ok a ha := ⟨h.ok a ha, h'.ok a ha⟩
  error e he := ⟨h.error e he, h'.error e he⟩

theorem inspect {look : σ → Except ε α} (hok : ∀ a, look s = .ok a → Q a s)
    (herror : ∀ e, look s = .error e → E e s) : Meets (Durable.inspect look) s C Q E where
  crash t ht := by simp at ht
  ok a ha := hok a ha
  error e he := herror e he

theorem pure {a : α} (h : Q a s) : Meets (Pure.pure a : Durable σ ε α) s C Q E where
  crash t ht := by simp at ht
  ok b hb := by
    simp only [Durable.pure_apply, Except.ok.injEq] at hb
    exact hb ▸ h
  error e he := by simp at he

theorem fail {e : ε} (h : E e s) : Meets (Durable.fail e : Durable σ ε α) s C Q E :=
  inspect (fun a ha => by cases ha) (fun d hd => by cases hd; exact h)

theorem step {change : σ → Except ε σ} {Q : Unit → σ → Prop}
    (hok : ∀ t, change s = .ok t → C t ∧ Q () t)
    (herror : ∀ e, change s = .error e → E e s) : Meets (Durable.step change) s C Q E := by
  cases hchange : change s with
  | error e =>
    have hrun := Durable.step_of_error hchange
    refine ⟨fun t ht => by simp [hrun] at ht, fun a ha => by simp [hrun] at ha, ?_⟩
    intro d hd
    simp only [hrun, Except.error.injEq] at hd
    rw [hrun]
    exact hd ▸ herror e hchange
  | ok t =>
    have hrun := Durable.step_of_ok hchange
    obtain ⟨hC, hQ⟩ := hok t hchange
    refine ⟨fun u hu => ?_, fun a _ => ?_, fun e he => by simp [hrun] at he⟩
    · rw [hrun, List.mem_singleton] at hu
      exact hu ▸ hC
    · rw [hrun]
      exact hQ

/-- Sequencing: the second program meets its contract from every state the
first one can answer in. -/
theorem bind {Q : β → σ → Prop} (h : Meets m s C (fun a t => Meets (k a) t C Q E) E) :
    Meets (m >>= k) s C Q E := by
  cases hm : (m.exec s).result with
  | error e =>
    have hrun := Durable.bind_of_error k hm
    refine ⟨fun t ht => ?_, fun a ha => by simp [hrun] at ha, fun d hd => ?_⟩
    · rw [hrun] at ht
      exact h.crash t ht
    · simp only [hrun, Except.error.injEq] at hd
      rw [hrun]
      exact hd ▸ h.error e hm
  | ok a =>
    have hrun := Durable.bind_of_ok k hm
    have hk := h.ok a hm
    have hfinal : ((m >>= k).exec s).final s = ((k a).exec ((m.exec s).final s)).final ((m.exec s).final s) := by
      simp only [hrun, Outcome.final, getLastD_append]
    refine ⟨fun t ht => ?_, fun b hb => ?_, fun e he => ?_⟩
    · rw [hrun, List.mem_append] at ht
      exact ht.elim (h.crash t) (hk.crash t)
    · rw [hfinal]
      exact hk.ok b (by rw [hrun] at hb; exact hb)
    · rw [hfinal]
      exact hk.error e (by rw [hrun] at he; exact he)

/-- Sequencing, with the contract of the second program a lemma about where the first answers. -/
theorem seq {R : β → σ → Prop} (h : Meets m s C Q E) (hk : ∀ a t, Q a t → Meets (k a) t C R E) :
    Meets (m >>= k) s C R E := bind (h.mono (fun _ h => h) hk fun _ _ h => h)

/-- Sequencing after a program that only reads. -/
theorem bind_inspect {look : σ → Except ε α} {Q : β → σ → Prop}
    (hok : ∀ a, look s = .ok a → Meets (k a) s C Q E) (herror : ∀ e, look s = .error e → E e s) :
    Meets (Durable.inspect look >>= k) s C Q E :=
  bind (inspect hok herror)

theorem bind_lift {answer : Except ε α} {Q : β → σ → Prop}
    (hok : ∀ a, answer = .ok a → Meets (k a) s C Q E) (herror : ∀ e, answer = .error e → E e s) :
    Meets (Durable.lift answer >>= k) s C Q E :=
  bind_inspect hok herror

/-- A program on a part of the storage. -/
theorem zoom {get : τ → σ} {set : σ → τ → τ} {t : τ} {C : τ → Prop} {Q : α → τ → Prop}
    {E : ε → τ → Prop} (hset : set (get t) t = t)
    (h : Meets m (get t) (fun s => C (set s t)) (fun a s => Q a (set s t))
      (fun e s => E e (set s t))) : Meets (Durable.zoom get set m) t C Q E where
  crash u hu := by
    obtain ⟨s, hs, rfl⟩ := List.mem_map.mp hu
    exact h.crash s hs
  ok a ha := by
    rw [Durable.final_zoom get set m hset]
    exact h.ok a ha
  error e he := by
    rw [Durable.final_zoom get set m hset]
    exact h.error e he

/-- A program whose outcome is known to be an answer. -/
theorem of_eq_ok {a : α} (h : m.exec s = ⟨trace, .ok a⟩) (hC : ∀ t ∈ trace, C t)
    (hQ : Q a (trace.getLastD s)) : Meets m s C Q E where
  crash t ht := hC t (by rwa [h] at ht)
  ok b hb := by
    rw [h] at hb ⊢
    cases hb
    exact hQ
  error e he := by
    rw [h] at he
    cases he

/-- A program whose outcome is known to be a refusal. -/
theorem of_eq_error {e : ε} (h : m.exec s = ⟨trace, .error e⟩) (hC : ∀ t ∈ trace, C t)
    (hE : E e (trace.getLastD s)) : Meets m s C Q E where
  crash t ht := hC t (by rwa [h] at ht)
  ok b hb := by
    rw [h] at hb
    cases hb
  error d hd := by
    rw [h] at hd ⊢
    cases hd
    exact hE

/-- What a crash leaves, the state before the first step included. -/
theorem cut (h : Meets m s C Q E) (hs : C s) (steps : Nat) :
    C (((m.exec s).trace.take steps).getLastD s) := by
  rcases getLastD_take_eq_or_mem (m.exec s).trace s steps with heq | hmem
  · rw [heq]
    exact hs
  · exact h.crash _ hmem

/-- A program of which only the intermediate states matter. -/
theorem of_crash (h : ∀ t ∈ (m.exec s).trace, C t) :
    Meets m s C (fun _ _ => True) (fun _ _ => True) :=
  ⟨h, fun _ _ => trivial, fun _ _ => trivial⟩

theorem mapError {translate : ε → δ} {E : δ → σ → Prop}
    (h : Meets m s C Q fun e t => E (translate e) t) :
    Meets (Durable.mapError translate m) s C Q E where
  crash t ht := h.crash t ht
  ok a ha := by
    apply h.ok a
    cases hm : (m.exec s).result with
    | ok b =>
      have : Except.ok b = (Except.ok a : Except δ α) := by
        rw [← ha]; simp [Durable.mapError, hm]
      cases this; rfl
    | error => simp [Durable.mapError, hm] at ha
  error e he := by
    cases hm : (m.exec s).result with
    | ok => simp [Durable.mapError, hm] at he
    | error d =>
      have : translate d = e := by
        simpa [Durable.mapError, hm] using he
      exact this ▸ h.error d hm

/-- A clean-up runs where the refusal left the storage. -/
theorem onError {cleanup : Durable σ δ β}
    (h : Meets m s C Q fun e t => Meets cleanup t C (fun _ => E e) (fun _ => E e)) :
    Meets (Durable.onError m cleanup) s C Q E := by
  cases hm : (m.exec s).result with
  | ok a =>
    have hm' : m.exec s = ⟨(m.exec s).trace, .ok a⟩ := by rw [← hm]
    have hrun : (Durable.onError m cleanup).exec s = _ := Durable.onError_of_eq_ok hm'
    exact of_eq_ok hrun h.crash (h.ok a hm)
  | error e =>
    have hm' : m.exec s = ⟨(m.exec s).trace, .error e⟩ := by rw [← hm]
    have hrun : (Durable.onError m cleanup).exec s = _ := Durable.onError_of_eq_error hm'
    have hclean := h.error e hm
    refine of_eq_error hrun (fun t ht => ?_) ?_
    · rcases List.mem_append.mp ht with ht | ht
      · exact h.crash t ht
      · exact hclean.crash t ht
    · rw [getLastD_append]
      cases hresult : (cleanup.exec ((m.exec s).final s)).result with
      | ok b => exact hclean.ok b hresult
      | error d => exact hclean.error d hresult

/-- A fact about the last state, whichever way the run ended. -/
theorem final {D : σ → Prop} (h : Meets m s C (fun _ => D) (fun _ => D)) :
    D ((m.exec s).final s) := by
  cases hm : (m.exec s).result with
  | ok a => exact h.ok a hm
  | error e => exact h.error e hm

theorem attempt {Q : Except ε α → σ → Prop} {E : δ → σ → Prop}
    (h : Meets m s C (fun a => Q (.ok a)) (fun e => Q (.error e))) :
    Meets (Durable.attempt m : Durable σ δ (Except ε α)) s C Q E where
  crash t ht := h.crash t ht
  ok r hr := by
    have hr' : (m.exec s).result = r := by simpa [Durable.attempt] using hr
    cases r with
    | ok a => exact h.ok a hr'
    | error e => exact h.error e hr'
  error e he := by simp [Durable.attempt] at he

end Meets

/-! ## Programs that move along a relation

A weaker judgement for frames: whatever a program does, each state it passes is
related to the one it started from. -/

/-- Every state the program passes is `R`-related to the one it started from. -/
def Moves (R : σ → σ → Prop) (m : Durable σ ε α) : Prop := ∀ s, ∀ t ∈ (m.exec s).trace, R s t

namespace Moves

variable {R : σ → σ → Prop} {m : Durable σ ε α}

theorem final (h : Moves R m) (hrefl : ∀ s, R s s) (s : σ) : R s ((m.exec s).final s) := by
  rcases (m.exec s).final_eq_or_mem s with hs | hs
  · rw [hs]
    exact hrefl s
  · exact h s _ hs

theorem inspect (look : σ → Except ε α) : Moves R (Durable.inspect look) := by
  intro s t ht
  simp at ht

theorem lift (answer : Except ε α) : Moves R (Durable.lift answer) := inspect _

theorem pure (a : α) : Moves R (Pure.pure a : Durable σ ε α) := inspect _

theorem fail (e : ε) : Moves R (Durable.fail e : Durable σ ε α) := inspect _

theorem step {change : σ → Except ε σ} (h : ∀ s t, change s = .ok t → R s t) :
    Moves R (Durable.step change) := by
  intro s t ht
  cases hchange : change s with
  | error =>
    rw [Durable.step_of_error hchange] at ht
    cases ht
  | ok u =>
    rw [Durable.step_of_ok hchange, List.mem_singleton] at ht
    exact ht ▸ h s u hchange

theorem bind (hrefl : ∀ s, R s s) (htrans : ∀ s t u, R s t → R t u → R s u) {k : α → Durable σ ε β}
    (hm : Moves R m) (hk : ∀ a, Moves R (k a)) : Moves R (m >>= k) := by
  intro s t ht
  cases hresult : (m.exec s).result with
  | error =>
    rw [Durable.bind_of_error k hresult] at ht
    exact hm s t ht
  | ok a =>
    rw [Durable.bind_of_ok k hresult] at ht
    rcases List.mem_append.mp ht with ht | ht
    · exact hm s t ht
    · exact htrans _ _ _ (hm.final hrefl s) (hk a _ t ht)

/-- Sequencing after a look at the state, whose answer says something about it. -/
theorem bind_inspect {look : σ → Except ε α} {k : α → Durable σ ε β}
    (h : ∀ s a, look s = .ok a → ∀ t ∈ ((k a).exec s).trace, R s t) :
    Moves R (Durable.inspect look >>= k) := by
  intro s t ht
  cases hlook : look s with
  | error =>
    rw [Durable.bind_inspect_of_error k hlook] at ht
    cases ht
  | ok a =>
    rw [Durable.bind_inspect_of_ok k hlook] at ht
    exact h s a hlook t ht

theorem mapError {translate : ε → δ} (h : Moves R m) : Moves R (Durable.mapError translate m) := h

theorem attempt (h : Moves R m) : Moves R (Durable.attempt m : Durable σ δ (Except ε α)) := h

theorem onError (hrefl : ∀ s, R s s) (htrans : ∀ s t u, R s t → R t u → R s u)
    {cleanup : Durable σ δ β} (hm : Moves R m) (hcleanup : Moves R cleanup) :
    Moves R (Durable.onError m cleanup) := by
  intro s t ht
  cases hresult : (m.exec s).result with
  | ok =>
    simp only [Durable.onError, hresult] at ht
    exact hm s t ht
  | error =>
    simp only [Durable.onError, hresult, List.mem_append] at ht
    rcases ht with ht | ht
    · exact hm s t ht
    · exact htrans _ _ _ (hm.final hrefl s) (hcleanup _ t ht)

theorem zoom {get : τ → σ} {set : σ → τ → τ} {R : τ → τ → Prop} (m : Durable σ ε α)
    (h : ∀ t s, R t (set s t)) : Moves R (Durable.zoom get set m) := by
  intro t u hu
  obtain ⟨s, -, rfl⟩ := List.mem_map.mp hu
  exact h t s

/-- A program on a part keeps of the whole what it keeps of the part. -/
theorem zoom_of {get : τ → σ} {set : σ → τ → τ} {R : τ → τ → Prop} {S : σ → σ → Prop}
    (hm : Moves S m) (h : ∀ t s, S (get t) s → R t (set s t)) :
    Moves R (Durable.zoom get set m) := by
  intro t u hu
  obtain ⟨s, hs, rfl⟩ := List.mem_map.mp hu
  exact h t s (hm (get t) s hs)

theorem forEach (hrefl : ∀ s, R s s) (htrans : ∀ s t u, R s t → R t u → R s u)
    {round : κ → Durable σ ε α} (h : ∀ item, Moves R (round item)) (items : List κ) :
    Moves R (Durable.forEach round items) := by
  induction items with
  | nil => exact Moves.pure []
  | cons item rest ih =>
    exact Moves.bind hrefl htrans (h item) fun a =>
      Moves.bind hrefl htrans ih fun _ => Moves.pure _

/-- What the relation preserves holds in every state a program passes. -/
theorem meets (h : Moves R m) (hrefl : ∀ s, R s s) {I : σ → Prop} {s : σ} (hI : ∀ t, R s t → I t) :
    Meets m s I (fun _ => I) (fun _ => I) where
  crash t ht := hI t (h s t ht)
  ok _ _ := hI _ (h.final hrefl s)
  error _ _ := hI _ (h.final hrefl s)

end Moves

/-! ## Runs of calls, each cut somewhere -/

section Runs

variable (states : κ → σ → List σ) {I : σ → Prop}

/-- The state one call leaves when the process stops after `steps` of its steps. -/
def cut (s : σ) (attempt : κ × Nat) : σ :=
  ((states attempt.1 s).take attempt.2).getLastD s

/-- Execute calls one after another, each stopped after its number of steps. -/
def run (s : σ) (attempts : List (κ × Nat)) : σ := attempts.foldl (cut states) s

/-- Every call of the run is allowed in the state it starts from. -/
def Allowed (allowed : σ → κ × Nat → Prop) : σ → List (κ × Nat) → Prop
  | _, [] => True
  | s, attempt :: rest => allowed s attempt ∧ Allowed allowed (cut states s attempt) rest

@[simp] theorem cut_zero (s : σ) (k : κ) : cut states s (k, 0) = s := by simp [cut]

/-- A bound past the end of the trace is a call that nothing interrupted. -/
theorem cut_of_length_le (s : σ) (k : κ) {steps : Nat} (h : (states k s).length ≤ steps) :
    cut states s (k, steps) = (states k s).getLastD s := by
  simp [cut, List.take_of_length_le h]

@[simp] theorem run_nil (s : σ) : run states s [] = s := rfl

@[simp] theorem run_cons (s : σ) (attempt : κ × Nat) (rest : List (κ × Nat)) :
    run states s (attempt :: rest) = run states (cut states s attempt) rest := rfl

theorem run_append (s : σ) (first second : List (κ × Nat)) :
    run states s (first ++ second) = run states (run states s first) second :=
  List.foldl_append

theorem allowed_append {allowed : σ → κ × Nat → Prop} (first second : List (κ × Nat)) :
    ∀ s : σ, Allowed states allowed s (first ++ second) ↔
      Allowed states allowed s first ∧ Allowed states allowed (run states s first) second := by
  induction first with
  | nil => exact fun s => ⟨fun h => ⟨trivial, h⟩, fun h => h.2⟩
  | cons attempt rest ih =>
    intro s
    rw [List.cons_append, Allowed, Allowed, ih, run_cons, and_assoc]

/-- Every state a run passes, its start left out. -/
def history (s : σ) : List (κ × Nat) → List σ
  | [] => []
  | attempt :: rest =>
    (states attempt.1 s).take attempt.2 ++ history (cut states s attempt) rest

theorem history_append (first second : List (κ × Nat)) : ∀ s : σ,
    history states s (first ++ second) =
      history states s first ++ history states (run states s first) second := by
  induction first with
  | nil => exact fun _ => rfl
  | cons attempt rest ih =>
    intro s
    rw [List.cons_append, history, history, ih, List.append_assoc]
    rfl

theorem cut_eq_or_mem (s : σ) (attempt : κ × Nat) :
    cut states s attempt = s ∨ cut states s attempt ∈ states attempt.1 s :=
  getLastD_take_eq_or_mem (states attempt.1 s) s attempt.2

/-- The run rule: what every allowed call preserves, cut anywhere, holds at the
end of every run of allowed calls. -/
theorem run_invariant {allowed : σ → κ × Nat → Prop}
    (hstep : ∀ s attempt, I s → allowed s attempt → I (cut states s attempt)) :
    ∀ (attempts : List (κ × Nat)) (s : σ), I s → Allowed states allowed s attempts →
      I (run states s attempts) := by
  intro attempts
  induction attempts with
  | nil => intro s hs _; exact hs
  | cons attempt rest ih =>
    intro s hs hallowed
    exact ih _ (hstep s attempt hs hallowed.1) hallowed.2

/-- The run rule when every call may be made in every state. -/
theorem run_invariant_of_cut (hstep : ∀ s attempt, I s → I (cut states s attempt))
    (attempts : List (κ × Nat)) (s : σ) (hs : I s) : I (run states s attempts) := by
  have hallowed : ∀ s, Allowed states (fun _ _ => True) s attempts := by
    induction attempts with
    | nil => exact fun _ => trivial
    | cons attempt rest ih => exact fun s => ⟨trivial, ih _⟩
  exact run_invariant states (fun s attempt hs _ => hstep s attempt hs) attempts s hs (hallowed s)

/-- The run rule when every intermediate state of every call keeps the
invariant: then no condition on the cuts is needed. -/
theorem run_invariant_of_trace (hstep : ∀ s k, I s → ∀ t ∈ states k s, I t)
    (attempts : List (κ × Nat)) (s : σ) (hs : I s) : I (run states s attempts) := by
  refine run_invariant_of_cut states (fun s attempt hs => ?_) attempts s hs
  rcases cut_eq_or_mem states s attempt with h | h
  · rw [h]
    exact hs
  · exact hstep s attempt.1 hs _ h

/-- The run rule for calls of one kind: what every intermediate state of such a
call keeps holds at the end of every run of them. -/
theorem run_invariant_of_calls {P : κ → Prop} (hstep : ∀ s k, P k → I s → ∀ t ∈ states k s, I t)
    (attempts : List (κ × Nat)) (hcalls : ∀ attempt ∈ attempts, P attempt.1) (s : σ) (hs : I s) :
    I (run states s attempts) := by
  induction attempts generalizing s with
  | nil => exact hs
  | cons attempt rest ih =>
    refine ih (fun other hother => hcalls other (List.mem_cons_of_mem _ hother)) _ ?_
    rcases cut_eq_or_mem states s attempt with h | h
    · rw [h]
      exact hs
    · exact hstep s attempt.1 (hcalls attempt List.mem_cons_self) hs _ h

/-- Execute calls that nothing interrupts. -/
def complete (s : σ) (calls : List κ) : σ := calls.foldl (fun s k => (states k s).getLastD s) s

@[simp] theorem complete_nil (s : σ) : complete states s [] = s := rfl

@[simp] theorem complete_cons (s : σ) (k : κ) (rest : List κ) :
    complete states s (k :: rest) = complete states ((states k s).getLastD s) rest := rfl

/-- Such an execution is a run. -/
theorem exists_run_eq_complete (calls : List κ) : ∀ s : σ, ∃ attempts : List (κ × Nat),
    attempts.map Prod.fst = calls ∧ run states s attempts = complete states s calls := by
  induction calls with
  | nil => exact fun s => ⟨[], rfl, rfl⟩
  | cons k rest ih =>
    intro s
    obtain ⟨attempts, hcalls, hrun⟩ := ih ((states k s).getLastD s)
    refine ⟨(k, (states k s).length) :: attempts, by rw [List.map_cons, hcalls], ?_⟩
    rw [run_cons, cut_of_length_le states s k (Nat.le_refl _), hrun, complete_cons]

end Runs

end YawnApp.Foundation
