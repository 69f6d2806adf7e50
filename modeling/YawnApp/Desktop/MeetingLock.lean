import YawnApp.SessionCore.Operations
import YawnApp.SessionCore.Recorded

set_option autoImplicit false

/-!
# Locked meetings (`meeting_lock.rs`)

A meeting is locked by a file in its directory.  A locked meeting is opened, exported or
played once for each confirmation, and a confirmation is a token that is minted for one
action on one meeting.  Tokens are drawn at random; here they come with the call.
-/

namespace YawnApp.Desktop

open YawnApp.Foundation YawnApp.SessionCore List

namespace MeetingLocks

/-! ## The lock -/

inductive LockSchema where
  | v1
deriving DecidableEq, Repr

instance : Serde LockSchema :=
  Serde.ofNames (fun | .v1 => "meeting-lock/1") [.v1] (by intro a; cases a; rfl)

structure StoredLock where
  schema : LockSchema
  locked : Bool
deriving DecidableEq, Repr

instance : Serde StoredLock where
  toValue l := .object [("schema", Serde.toValue l.schema), ("locked", Serde.toValue l.locked)]
  fromValue v := do
    let fs ← closedFields ["schema", "locked"] v
    return {
      schema := ← requiredField fs "schema"
      locked := ← requiredField fs "locked" }
  fromValue_toValue l := by
    refine (closedFields_bind rfl).trans ?_
    repeat refine (requiredField_bind rfl).trans ?_
    rfl
  plain_toValue l := Value.plain_object (by simp [Value.plainFields]) rfl
  toValue_ne_null l := by simp

structure MeetingLock where
  locked : Bool
  unreadable : Bool
deriving DecidableEq, Repr

def MeetingLock.none : MeetingLock := ⟨false, false⟩

def maxFileBytes : Nat := 4 * 1024

/-- What may stand at the path of the lock. -/
inductive LockNode (B : Type) where
  | file (mode : Nat) (bytes : B)
  /-- A symbolic link, to something or to nothing. -/
  | symlink (resolves : Bool)
  | other

section Lock

variable {B : Type} [JsonText B]

/-- `Path::exists`, which follows links. -/
def pathExists : Option (LockNode B) → Bool
  | some (.symlink resolves) => resolves
  | some _ => true
  | none => false

/-- `read_private_bytes`, which does not. -/
def readPrivateBytes (maximum : Nat) : Option (LockNode B) → Option B
  | some (.file mode bytes) =>
    if mode % 512 = 0o600 ∧ ByteString.size bytes ≤ maximum then some bytes else none
  | _ => none

/-- `read` -/
def read (node : Option (LockNode B)) : MeetingLock :=
  if pathExists node = false then .none
  else
    match (readPrivateBytes maxFileBytes node).bind fromSlice with
    | some (stored : StoredLock) => ⟨stored.locked, false⟩
    | none => ⟨true, true⟩

/-- A lock that cannot be read is a lock. -/
theorem locked_of_unreadable {node : Option (LockNode B)} (h : (read node).unreadable = true) :
    (read node).locked = true := by
  unfold read at h ⊢
  split at h
  · cases h
  · rw [if_neg (by assumption)]
    split at h
    · cases h
    · rfl

end Lock

/-! ## Confirmations -/

/-- `LockedAction` -/
inductive LockedAction where
  | «open»
  | «export»
  | playback
deriving DecidableEq, Repr

/-- `permits` -/
def permits (lock : MeetingLock) (authorizedMeetingId : Option String) (meetingId : String) : Bool :=
  if lock.locked = false then true else authorizedMeetingId == some meetingId

structure Outstanding where
  token : String
  meetingId : String
deriving DecidableEq, Repr

/-- `LockedActionAuthority` -/
structure LockedActionAuthority where
  outstanding : LockedAction → Option Outstanding

namespace LockedActionAuthority

def default : LockedActionAuthority := ⟨fun _ => none⟩

/-- `mint`, with the token it drew. -/
def mint (authority : LockedActionAuthority) (token meetingId : String) (action : LockedAction) :
    LockedActionAuthority :=
  ⟨Function.update authority.outstanding action (some ⟨token, meetingId⟩)⟩

/-- `consume` -/
def consume (authority : LockedActionAuthority) (token : Option String) (action : LockedAction) :
    LockedActionAuthority × Option String :=
  match token, authority.outstanding action with
  | some token, some held =>
    if held.token ≠ token then (authority, none)
    else (⟨Function.update authority.outstanding action none⟩, some held.meetingId)
  | _, _ => (authority, none)

/-- `revoke_all` -/
def revokeAll (_authority : LockedActionAuthority) : LockedActionAuthority := default

end LockedActionAuthority

/-! ## Calls -/

inductive Call where
  | mint (token meetingId : String) (action : LockedAction)
  | consume (token : Option String) (action : LockedAction)
  | revokeAll
deriving DecidableEq, Repr

def Call.minted : Call → Option String
  | .mint token _ _ => some token
  | _ => none

def step (authority : LockedActionAuthority) : Call → LockedActionAuthority
  | .mint token meetingId action => authority.mint token meetingId action
  | .consume token action => (authority.consume token action).1
  | .revokeAll => authority.revokeAll

/-- The authority after some calls. -/
def run (calls : List Call) : LockedActionAuthority := calls.foldl step .default

theorem run_concat (calls : List Call) (call : Call) :
    run (calls ++ [call]) = step (run calls) call := by
  rw [run, foldl_concat]
  rfl

section Consume

variable {authority : LockedActionAuthority} {token : Option String} {action : LockedAction}

theorem consume_eq_some {meetingId : String} :
    (authority.consume token action).2 = some meetingId ↔
      ∃ presented, token = some presented ∧
        authority.outstanding action = some ⟨presented, meetingId⟩ := by
  unfold LockedActionAuthority.consume
  cases token with
  | none => simp
  | some presented =>
    cases hheld : authority.outstanding action with
    | none => simp
    | some held =>
      obtain ⟨heldToken, heldMeeting⟩ := held
      by_cases heq : heldToken = presented
      · simp [heq]
      · simp [heq]

/-- A call that is refused changes nothing. -/
theorem consume_of_none (h : (authority.consume token action).2 = none) :
    (authority.consume token action).1 = authority := by
  unfold LockedActionAuthority.consume at h ⊢
  split
  · rename_i presented held hheld
    by_cases heq : held.token = presented
    · rw [hheld] at h
      simp [heq] at h
    · simp [heq]
  · rfl

end Consume

/-! ## Runs -/

/-- A call that ends a confirmation: another one for its action, its use, and the end of all. -/
def Ends (token : String) (action : LockedAction) (call : Call) : Prop :=
  (∃ other meetingId, call = .mint other meetingId action) ∨ call = .consume (some token) action ∨
    call = .revokeAll

variable {token meetingId : String} {calls : List Call} {action : LockedAction}

theorem step_outstanding {authority : LockedActionAuthority} {call : Call} :
    (step authority call).outstanding action = some ⟨token, meetingId⟩ ↔
      call = .mint token meetingId action ∨
        (authority.outstanding action = some ⟨token, meetingId⟩ ∧ ¬ Ends token action call) := by
  unfold Ends
  cases call with
  | mint other otherMeeting otherAction =>
    by_cases haction : otherAction = action
    · subst haction
      simp [step, LockedActionAuthority.mint, Function.update_self]
    · simp [step, LockedActionAuthority.mint, Function.update_of_ne (Ne.symm haction), haction]
  | consume presented otherAction =>
    by_cases hspent : ∃ held, authority.outstanding otherAction = some held ∧
        presented = some held.token
    · obtain ⟨held, hheld, rfl⟩ := hspent
      have hstep : (step authority (.consume (some held.token) otherAction)).outstanding =
          Function.update authority.outstanding otherAction none := by
        simp [step, LockedActionAuthority.consume, hheld]
      rw [hstep]
      by_cases haction : otherAction = action
      · subst haction
        rw [Function.update_self, hheld]
        constructor
        · intro h; cases h
        · rintro (h | ⟨h, hends⟩)
          · cases h
          · cases h
            exact absurd (.inr (.inl rfl)) hends
      · rw [Function.update_of_ne (Ne.symm haction)]
        simp [haction]
    · have hstep : step authority (.consume presented otherAction) = authority := by
        refine consume_of_none (Option.eq_none_iff_forall_ne_some.mpr fun meeting hsome => ?_)
        obtain ⟨used, hused, hheld⟩ := consume_eq_some.mp hsome
        exact hspent ⟨_, hheld, hused⟩
      rw [hstep]
      constructor
      · intro hheld
        refine .inr ⟨hheld, ?_⟩
        rintro (⟨_, _, h⟩ | h | h)
        · cases h
        · cases h
          exact hspent ⟨_, hheld, rfl⟩
        · cases h
      · rintro (h | ⟨hheld, -⟩)
        · cases h
        · exact hheld
  | revokeAll => simp [step, LockedActionAuthority.revokeAll, LockedActionAuthority.default]

/-- A confirmation stands from when it was minted until a call ends it. -/
theorem outstanding_run : (run calls).outstanding action = some ⟨token, meetingId⟩ ↔
      ∃ earlier later, calls = earlier ++ .mint token meetingId action :: later ∧
        ∀ call ∈ later, ¬ Ends token action call := by
  induction calls using List.reverseRecOn with
  | nil =>
    constructor
    · intro h; cases h
    · rintro ⟨earlier, later, hsplit, -⟩
      exact absurd (congrArg List.length hsplit) (by simp)
  | append_singleton calls call ih =>
    rw [run_concat, step_outstanding, ih]
    constructor
    · rintro (rfl | ⟨⟨earlier, later, rfl, hlater⟩, hends⟩)
      · exact ⟨calls, [], rfl, fun call hcall => by cases hcall⟩
      · refine ⟨earlier, later ++ [call], by simp, fun other hother => ?_⟩
        rcases mem_append.mp hother with hother | hother
        · exact hlater other hother
        · rw [mem_singleton.mp hother]
          exact hends
    · rintro ⟨earlier, later, hsplit, hlater⟩
      rcases eq_nil_or_concat later with rfl | ⟨rest, last, rfl⟩
      · exact .inl (head_eq_of_cons_eq (append_inj_right' hsplit rfl))
      · right
        rw [concat_eq_append] at hsplit hlater
        rw [← cons_append, ← append_assoc] at hsplit
        obtain ⟨rfl, hlast⟩ := append_inj' hsplit rfl
        obtain rfl := head_eq_of_cons_eq hlast
        exact ⟨⟨earlier, rest, rfl, fun other hother =>
          hlater other (mem_append_left _ hother)⟩,
          hlater call (mem_append_right _ mem_cons_self)⟩

/-- A consume is accepted just if it names a confirmation that stands. -/
theorem accepted_iff {before : List Call} {token : Option String} :
    ((run before).consume token action).2 = some meetingId ↔
      ∃ presented earlier later, token = some presented ∧
        before = earlier ++ .mint presented meetingId action :: later ∧
        ∀ call ∈ later, ¬ Ends presented action call := by
  rw [consume_eq_some]
  constructor
  · rintro ⟨presented, htoken, hheld⟩
    obtain ⟨earlier, later, hsplit, hlater⟩ := outstanding_run.mp hheld
    exact ⟨presented, earlier, later, htoken, hsplit, hlater⟩
  · rintro ⟨presented, earlier, later, htoken, hsplit, hlater⟩
    exact ⟨presented, htoken, outstanding_run.mpr ⟨earlier, later, hsplit, hlater⟩⟩

/-- A token is minted in one place. -/
theorem mint_unique {first second firstRest secondRest : List Call} {one other : Call}
    (hfresh : (calls.filterMap Call.minted).Nodup) (hfirst : calls = first ++ one :: firstRest)
    (hsecond : calls = second ++ other :: secondRest) (hone : one.minted = some token)
    (hother : other.minted = some token) :
    first = second ∧ one = other ∧ firstRest = secondRest := by
  have hplace : ∀ {a b aRest bRest : List Call} {x y : Call}, calls = a ++ x :: aRest →
      calls = b ++ y :: bRest → x.minted = some token → y.minted = some token →
      ∀ mid, b = a ++ mid → mid = [] := by
    intro a b aRest bRest x y ha hb hx hy mid hmid
    cases mid with
    | nil => rfl
    | cons =>
      exfalso
      rw [ha, hmid, append_assoc, cons_append] at hb
      obtain ⟨rfl, hrest⟩ := List.cons.inj (append_cancel_left hb)
      rw [ha, filterMap_append, filterMap_cons_some hx, hrest, filterMap_append,
        filterMap_cons_some hy] at hfresh
      exact (nodup_cons.mp (nodup_append.mp hfresh).2.1).1
        (mem_append_right _ mem_cons_self)
  have hsame : first = second := by
    rcases append_eq_append_iff.mp (hfirst.symm.trans hsecond) with ⟨mid, hmid, -⟩ | ⟨mid, hmid, -⟩
    · rw [hmid, hplace hfirst hsecond hone hother mid hmid, append_nil]
    · rw [hmid, hplace hsecond hfirst hother hone mid hmid, append_nil]
  subst hsame
  obtain ⟨heq, hrest⟩ := List.cons.inj (append_cancel_left (hfirst.symm.trans hsecond))
  exact ⟨rfl, heq, hrest⟩

/-- A token is accepted once. -/
theorem accepted_once {first second firstRest secondRest : List Call}
    {firstAction secondAction : LockedAction} {firstMeeting secondMeeting : String}
    (hfresh : (calls.filterMap Call.minted).Nodup)
    (hfirst : calls = first ++ .consume (some token) firstAction :: firstRest)
    (hsecond : calls = second ++ .consume (some token) secondAction :: secondRest)
    (haccepted : ((run first).consume (some token) firstAction).2 = some firstMeeting)
    (hagain : ((run second).consume (some token) secondAction).2 = some secondMeeting) :
    first = second := by
  obtain ⟨_, earlier, later, ⟨⟩, rfl, hlater⟩ := accepted_iff.mp haccepted
  obtain ⟨_, earlier', later', ⟨⟩, rfl, hlater'⟩ := accepted_iff.mp hagain
  rw [append_assoc, cons_append] at hfirst hsecond
  obtain ⟨rfl, hmint, hrest⟩ := mint_unique hfresh hfirst hsecond rfl rfl
  cases hmint
  -- both uses come after one mint; the earlier of them would have ended it
  rcases append_eq_append_iff.mp hrest with ⟨mid, hmid, huse⟩ | ⟨mid, hmid, huse⟩
  · cases mid with
    | nil => rw [hmid, append_nil]
    | cons =>
      obtain ⟨rfl, -⟩ := List.cons.inj huse
      exact absurd (.inr (.inl rfl))
        (hlater' _ (hmid ▸ mem_append_right later mem_cons_self))
  · cases mid with
    | nil => rw [hmid, append_nil]
    | cons =>
      obtain ⟨rfl, -⟩ := List.cons.inj huse
      exact absurd (.inr (.inl rfl))
        (hlater _ (hmid ▸ mem_append_right later' mem_cons_self))

theorem permits_of_locked {lock : MeetingLock} {authorized : Option String}
    (hlocked : lock.locked = true) (h : permits lock authorized meetingId = true) :
    authorized = some meetingId := by
  rw [permits, if_neg (by rw [hlocked]; exact Bool.true_eq_false.mp)] at h
  exact beq_iff_eq.mp h

/-- A refused consume changes nothing; an accepted one names a token minted for its action and
its meeting, since when nothing was minted for the action and not all was revoked; a locked
meeting, or one whose lock cannot be read, is let through for it alone; and no token is accepted
twice. -/
theorem confirmations_single_use_and_scoped {B : Type} [JsonText B] (calls : List Call)
    (hfresh : (calls.filterMap Call.minted).Nodup) :
    (∀ before token action after, calls = before ++ .consume token action :: after →
      (((run before).consume token action).2 = none →
        run (before ++ [.consume token action]) = run before) ∧
      (∀ meetingId, ((run before).consume token action).2 = some meetingId →
        ∃ presented earlier later, token = some presented ∧
          before = earlier ++ .mint presented meetingId action :: later ∧
          ∀ call ∈ later, (∀ other otherMeeting, call ≠ .mint other otherMeeting action) ∧
            call ≠ .revokeAll) ∧
      ∀ (node : Option (LockNode B)) meetingId,
        (read node).locked = true ∨ (read node).unreadable = true →
        permits (read node) ((run before).consume token action).2 meetingId = true →
        ((run before).consume token action).2 = some meetingId) ∧
    ∀ first second firstRest secondRest token firstAction secondAction firstMeeting secondMeeting,
      calls = first ++ .consume (some token) firstAction :: firstRest →
      calls = second ++ .consume (some token) secondAction :: secondRest →
      ((run first).consume (some token) firstAction).2 = some firstMeeting →
      ((run second).consume (some token) secondAction).2 = some secondMeeting → first = second := by
  refine ⟨fun before token action after _ => ⟨fun hnone => ?_, fun meetingId hsome => ?_, ?_⟩, ?_⟩
  · rw [run_concat]
    exact consume_of_none hnone
  · obtain ⟨presented, earlier, later, htoken, hsplit, hlater⟩ := accepted_iff.mp hsome
    refine ⟨presented, earlier, later, htoken, hsplit, fun call hcall => ⟨?_, ?_⟩⟩
    · intro other otherMeeting heq
      exact hlater call hcall (.inl ⟨other, otherMeeting, heq⟩)
    · intro heq
      exact hlater call hcall (.inr (.inr heq))
  · intro node meetingId hlocked
    exact permits_of_locked (hlocked.elim id locked_of_unreadable)
  · intro first second firstRest secondRest token firstAction secondAction firstMeeting
      secondMeeting hfirst hsecond
    exact accepted_once hfresh hfirst hsecond

/-- A confirmation to open, one to play, and both used. -/
def confirmedCalls : List Call :=
  [.mint "a" "monday" .«open», .mint "b" "monday" .playback, .consume (some "b") .«open»,
    .consume (some "a") .«open», .consume (some "a") .«open»]

theorem confirmations_single_use_and_scoped_monday :
    run (confirmedCalls.take 3) = run (confirmedCalls.take 2) ∧
      ((run (confirmedCalls.take 3)).consume (some "a") .«open»).2 = some "monday" ∧
      ((run (confirmedCalls.take 4)).consume (some "a") .«open»).2 = none := by
  obtain ⟨hcalls, honce⟩ := confirmations_single_use_and_scoped (B := Recorded []) confirmedCalls
    (by decide)
  have hopened : ((run (confirmedCalls.take 3)).consume (some "a") .«open»).2 = some "monday" := by
    decide
  refine ⟨?_, hopened, ?_⟩
  · exact (hcalls (confirmedCalls.take 2) (some "b") .«open» (confirmedCalls.drop 3) rfl).1 (by decide)
  · rw [Option.eq_none_iff_forall_ne_some]
    intro meetingId hagain
    have hplace := honce (confirmedCalls.take 3) (confirmedCalls.take 4) _ _ "a" .«open» .«open» _ _
      rfl rfl hopened hagain
    exact absurd (congrArg List.length hplace) (by decide)

end MeetingLocks

end YawnApp.Desktop
