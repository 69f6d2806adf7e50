import YawnApp.Foundation.Pieces

set_option autoImplicit false

/-!
# Scans of a text by rules

At each place of a text a choice names the rule to apply there, or none.  A scan goes from
the left: it replaces the source of the chosen rule and goes on behind it, or keeps one
letter.  Its pieces say for every place of the text whether the choice was asked there and
what it answered.
-/

namespace YawnApp.Foundation

variable {τ α : Type}

/-- The pieces of a scan. -/
inductive Scanned (choose : List α → Option τ) (source replacement : τ → List α) :
    List (Piece τ α) → Prop
  | nil : Scanned choose source replacement []
  | kept {a : α} {rest : List (Piece τ α)} : choose (a :: sourceOf rest) = none →
      Scanned choose source replacement rest → Scanned choose source replacement (.kept a :: rest)
  | replaced {rule : τ} {rest : List (Piece τ α)} :
      choose (source rule ++ sourceOf rest) = some rule →
      Scanned choose source replacement rest →
      Scanned choose source replacement (.replaced rule (source rule) (replacement rule) :: rest)

namespace Scanned

variable {choose : List α → Option τ} {source replacement : τ → List α}
  {pieces : List (Piece τ α)}

/-- A piece that is replaced is the source of a rule that was chosen. -/
theorem of_mem (h : Scanned choose source replacement pieces) {rule : τ} {old into : List α}
    (hmem : Piece.replaced rule old into ∈ pieces) :
    old = source rule ∧ into = replacement rule ∧
      ∃ after, choose (source rule ++ after) = some rule := by
  induction h with
  | nil => cases hmem
  | kept _ _ ih =>
    rcases List.mem_cons.mp hmem with heq | hrest
    · cases heq
    · exact ih hrest
  | replaced hrule _ ih =>
    rcases List.mem_cons.mp hmem with heq | hrest
    · cases heq
      exact ⟨rfl, rfl, _, hrule⟩
    · exact ih hrest

/-- What a span of the scan replaces: the rule was chosen where the span begins. -/
theorem chosen (h : Scanned choose source replacement pieces) {weight : α → Nat} :
    ∀ {start : Nat} {s : Span τ × List α × List α}, s ∈ spansFrom weight start pieces →
      s.2.1 = source s.1.reason ∧ s.2.2 = replacement s.1.reason ∧
      ∃ before after, sourceOf pieces = before ++ source s.1.reason ++ after ∧
        s.1.start = start + width weight before ∧
        s.1.stop = s.1.start + width weight (source s.1.reason) ∧
        choose (source s.1.reason ++ after) = some s.1.reason := by
  induction h with
  | nil => intro start s hs; cases hs
  | @kept a rest _ _ ih =>
    intro start s hs
    obtain ⟨hsource, hreplacement, before, after, htext, hstart, hstop, hchoose⟩ := ih hs
    refine ⟨hsource, hreplacement, a :: before, after, ?_, ?_, hstop, hchoose⟩
    · rw [sourceOf_cons, htext]
      rfl
    · rw [hstart, width_cons, Nat.add_assoc]
  | @replaced rule rest hrule _ ih =>
    intro start s hs
    rcases List.mem_cons.mp hs with rfl | hrest
    · exact ⟨rfl, rfl, [], sourceOf rest, rfl, rfl, rfl, hrule⟩
    · obtain ⟨hsource, hreplacement, before, after, htext, hstart, hstop, hchoose⟩ := ih hrest
      refine ⟨hsource, hreplacement, source rule ++ before, after, ?_, ?_, hstop, hchoose⟩
      · rw [sourceOf_cons, htext]
        simp [Piece.source]
      · rw [hstart, width_append, Nat.add_assoc]

/-- Outside of the spans no rule was chosen. -/
theorem unmatched (h : Scanned choose source replacement pieces) {weight : α → Nat}
    (hweight : ∀ a, 0 < weight a) :
    ∀ {start : Nat} {before after : List α}, sourceOf pieces = before ++ after → after ≠ [] →
      (∀ s ∈ spansFrom weight start pieces,
        ¬ (s.1.start ≤ start + width weight before ∧ start + width weight before < s.1.stop)) →
      choose after = none := by
  induction h with
  | nil =>
    intro start before after htext hafter _
    rw [sourceOf_nil] at htext
    exact absurd (List.append_eq_nil_iff.mp htext.symm).2 hafter
  | @kept a rest hnone _ ih =>
    intro start before after htext hafter hspans
    rw [sourceOf_cons] at htext
    cases before with
    | nil =>
      rw [List.nil_append] at htext
      rw [← htext]
      exact hnone
    | cons b before =>
      obtain ⟨rfl, hrest⟩ := List.cons.inj htext
      refine @ih (start + weight a) before after hrest hafter fun s hs => ?_
      have := hspans s hs
      rw [width_cons, ← Nat.add_assoc] at this
      exact this
  | @replaced rule rest hrule _ ih =>
    intro start before after htext hafter hspans
    rw [sourceOf_cons] at htext
    have hfirst := hspans _ List.mem_cons_self
    dsimp only at hfirst
    rcases List.append_eq_append_iff.mp htext with ⟨middle, hbefore, hrest⟩ | ⟨middle, hsource, hrest⟩
    · -- the place lies behind the source of the rule
      change before = source rule ++ middle at hbefore
      rw [hbefore] at hspans
      refine @ih (start + width weight (source rule)) middle after hrest hafter fun s hs => ?_
      have := hspans s (List.mem_cons_of_mem _ hs)
      rw [width_append, ← Nat.add_assoc] at this
      exact this
    · change source rule = before ++ middle at hsource
      cases middle with
      | nil =>
        rw [List.append_nil] at hsource
        rw [List.nil_append] at hrest
        refine @ih (start + width weight (source rule)) [] after (by rw [List.nil_append]; exact hrest.symm) hafter fun s hs => ?_
        have := hspans s (List.mem_cons_of_mem _ hs)
        rw [← hsource] at this
        rw [width_nil, Nat.add_zero]
        exact this
      | cons c =>
        -- the place lies within it
        have hpos := hweight c
        rw [hsource, width_append, width_cons] at hfirst
        exact absurd ⟨by omega, by omega⟩ hfirst

end Scanned

end YawnApp.Foundation
