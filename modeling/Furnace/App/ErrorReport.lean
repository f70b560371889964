import Furnace.App.BatchObj
import Furnace.Vmi.ErrorFlag

namespace Furnace.App

open Furnace.Proto Furnace.Lib Furnace.Vmi

/-!
# How a failed batch is reported

`batch_obj.parse` compares the number of replies with the number of calls before it looks at the
error flag.  A batch that stops at an error is shorter than its request, unless the call that
failed is the last one and leaves a reply beside its error.

* `BatchObj.parseError` — the exception of `parse`, with what its text says.
* `FailsAt` — the VMI partition sets the error flag at a certain call.
* `LeavesReply` — the calls that leave a reply when they fail; `flagged_typed_iff`.
* `Reported`, `reported_iff` — **the failures that are reported by number and place**.
-/

/-! ### The exception -/

/-- The exceptions of `parse`. -/
inductive ParseError
  /-- `something is wrong, out: %d, in: %d` -/
  | somethingWrong (sent received : ℕ)
  /-- `got error: num:%d, loc:%d` -/
  | gotError (num loc : ℕ)
  deriving DecidableEq, Repr

/-- The exception that `parse` raises, if it raises any; a number that is not set reads as
    zero. -/
def BatchObj.parseError (bo : BatchObj) : Option ParseError :=
  if bo.request.type.length ≠ bo.rawIn.type.length then
    some (.somethingWrong bo.request.type.length bo.rawIn.type.length)
  else if bo.rawIn.error = some true then
    some (.gotError (bo.rawIn.errorNum.getD 0) (bo.rawIn.errorLoc.getD 0))
  else none

/-- `parse` returns exactly when there is nothing to raise. -/
theorem BatchObj.parse_ok_iff (bo : BatchObj) :
    (∃ bo', bo.parse = .ok bo') ↔ bo.parseError = none := by
  unfold BatchObj.parse BatchObj.parseError
  split_ifs <;> simp

/-! ### Failing calls -/

section Failing

variable {G : Type}

/-- The batch `msgIn` is processed up to call `i`, of type `t`, which sets the error flag with
    number `e`; the world before that call is `w`, the reply is `reply`. -/
structure FailsAt (env : Env G) (msgIn : VMIMessage) (w₀ : World G) (i t e : ℕ) (w : World G)
    (reply : VMIMessage) : Prop where
  size : msgIn.type.length ≤ maxTypes
  type : msgIn.type[i]? = some t
  step : ∃ l out l' w', Reaches env msgIn w₀ i l w out ∧ out.error = none ∧
    processSingle env t (countBefore t msgIn.type i) msgIn out l w = .ok (l', w', reply)
  error : reply.error = some true
  errorNum : reply.errorNum = some e

/-- A failing call ends the batch. -/
theorem FailsAt.processProtobuf {env : Env G} {msgIn reply : VMIMessage} {w₀ w : World G}
    {i t e : ℕ} (h : FailsAt env msgIn w₀ i t e w reply) :
    ∃ w', processProtobuf env msgIn w₀ = .ok (w', reply) := by
  obtain ⟨l, out, l', w', hreach, herr, hs⟩ := h.step
  refine ⟨w', ?_⟩
  have hstop : processTypes env msgIn (msgIn.type.drop (i + 1))
      (countsAfter (msgIn.type.take (i + 1))) { l' with msgno := l'.msgno + 1 } w' reply =
      .ok ({ l' with msgno := l'.msgno + 1 }, w', reply) := by
    cases msgIn.type.drop (i + 1) with
    | nil => rfl
    | cons t ts =>
      rw [processTypes, h.error]
      rfl
  unfold Vmi.processProtobuf
  rw [if_neg (not_lt.mpr h.size), processTypes_of_reaches hreach, processTypes_step h.type _ _ herr,
    hs, ok_bind]
  dsimp only
  rw [hstop]
  rfl

/-- Every reply with the error flag is one of a failing call. -/
theorem failsAt_of_processProtobuf {env : Env G} {msgIn reply : VMIMessage} {w₀ w' : World G}
    (h : Vmi.processProtobuf env msgIn w₀ = .ok (w', reply)) (herror : reply.error = some true) :
    ∃ i t e w, FailsAt env msgIn w₀ i t e w reply := by
  obtain ⟨j, l, hreach, hend⟩ := reaches_of_processProtobuf h
  cases hreach with
  | start => cases herror
  | @next i t l l' w _ out _ hreach herr ht hs =>
    have hsize : msgIn.type.length ≤ maxTypes := by
      rcases hend with ⟨-, hzero⟩ | ⟨hsize, -⟩
      · cases hzero
      · exact hsize
    have hnum : ∃ e, reply.errorNum = some e := by
      cases hc : Call.ofNum? t with
      | none =>
        rw [processSingle, hc] at hs
        cases hs
        exact ⟨t, rfl⟩
      | some c =>
        have htc := Call.num_of_ofNum? hc
        subst htc
        obtain ⟨r, -, rfl⟩ := processSingle_call hs
        cases hr : r.errorNum with
        | none =>
          rw [record_error, hr, herr] at herror
          cases herror
        | some e => exact ⟨e, by rw [record_errorNum, hr]; rfl⟩
    obtain ⟨e, he⟩ := hnum
    exact ⟨i, t, e, w, hsize, ht, ⟨l, out, l', w', hreach, herr, hs⟩, herror, he⟩

/-- The failing calls that leave a reply beside their error: those that clear an event or stop
    the plugin, a start while a plugin is running, and a registration that gets as far as its
    trap, or to a register that is not CR3. -/
def LeavesReply (env : Env G) (w : World G) (access : Except Fault Msg) : Call → Prop
  | .eventClear | .stopSyscall => True
  | .startSyscall => w.syscallPluginOwner ≠ none
  | .eventRegister =>
    w.events.entries.length < maxEvents ∧ (w.exec env (.malloc .trap)).1 = true ∧
      ((w.exec env (.malloc .trap)).2.exec env (.malloc .eventItem)).1 = true ∧
      ∃ m, access = .ok m ∧ (m.enumOr1 .eventType = fReg ∨ m.enumOr1 .eventType = fInt)
  | _ => False

section Bodies

variable {env : Env G} {access : Except Fault Msg} {w w' : World G} {r : Reply}

theorem eventClearBody_typed (h : eventClearBody env access w = .ok (w', r)) : r.typed = true := by
  obtain ⟨m, -, h⟩ := bind_eq_ok.mp h
  dsimp only at h
  split at h <;> (cases h; rfl)

theorem stopSyscallBody_typed (h : stopSyscallBody env access w = .ok (w', r)) :
    r.typed = true := by
  unfold stopSyscallBody at h
  split at h
  · cases h
    rfl
  · split at h
    · cases h
    · cases h
      rfl

theorem startSyscallBody_typed_iff (h : startSyscallBody env access w = .ok (w', r))
    (hr : r.errorNum ≠ none) : r.typed = true ↔ w.syscallPluginOwner ≠ none := by
  unfold startSyscallBody at h
  split at h
  · rename_i howner
    dsimp only at h
    split at h
    · cases h
      simp [Reply.stub, howner]
    · -- a plugin that is started reports no error
      obtain ⟨m, -, h⟩ := bind_eq_ok.mp h
      split at h
      · obtain ⟨owner, -, h⟩ := bind_eq_ok.mp h
        cases h
        exact absurd rfl hr
      · cases h
  · rename_i howner
    cases h
    simp [Reply.okWithError, howner]

/-- Whether a trap can be set or not, the reply is there. -/
theorem addTrapFor_typed {m : Msg} {kind : TrapKind} {obj : ℕ}
    (h : addTrapFor env m kind obj w = .ok (w', r)) : r.typed = true := by
  obtain ⟨owner, -, h⟩ := bind_eq_ok.mp h
  dsimp only at h
  split at h <;> (cases h; rfl)

theorem eventRegisterBody_typed_iff (h : eventRegisterBody env access w = .ok (w', r)) :
    r.typed = true ↔ LeavesReply env w access .eventRegister := by
  unfold eventRegisterBody at h
  unfold LeavesReply
  by_cases hfull : maxEvents ≤ w.events.entries.length
  · rw [if_pos hfull] at h
    cases h
    simp [Reply.fail, hfull]
  rw [if_neg hfull] at h
  have hroom : w.events.entries.length < maxEvents := not_le.mp hfull
  dsimp only at h
  by_cases hmalloc : (w.exec env (.malloc .trap)).1 = true ∧
      ((w.exec env (.malloc .trap)).2.exec env (.malloc .eventItem)).1 = true
  · rw [hmalloc.1, hmalloc.2] at h
    obtain ⟨m, hm, h⟩ := bind_eq_ok.mp h
    have hiff : (w.events.entries.length < maxEvents ∧ (w.exec env (.malloc .trap)).1 = true ∧
        ((w.exec env (.malloc .trap)).2.exec env (.malloc .eventItem)).1 = true ∧
        ∃ m, access = .ok m ∧ (m.enumOr1 .eventType = fReg ∨ m.enumOr1 .eventType = fInt)) ↔
        m.enumOr1 .eventType = fReg ∨ m.enumOr1 .eventType = fInt := by
      rw [hm]
      constructor
      · rintro ⟨-, -, -, m', heq, htype⟩
        cases heq
        exact htype
      · exact fun htype => ⟨hroom, hmalloc.1, hmalloc.2, m, rfl, htype⟩
    rw [hiff]
    split at h
    · rename_i htype
      refine iff_of_true ?_ (.inl htype)
      split at h
      · exact addTrapFor_typed h
      · cases h
        rfl
    · rename_i htype
      split at h
      · rename_i hint
        exact iff_of_true (addTrapFor_typed h) (.inr hint)
      · rename_i hint
        cases h
        simp [Reply.fail, htype, hint]
  · have hnot : (!((w.exec env (.malloc .trap)).1 &&
        ((w.exec env (.malloc .trap)).2.exec env (.malloc .eventItem)).1)) = true := by
      rw [Bool.not_eq_true', ← Bool.not_eq_true, Bool.and_eq_true]
      exact hmalloc
    rw [if_pos hnot] at h
    cases h
    refine iff_of_false (by simp [Reply.fail]) fun hleaves => hmalloc ⟨hleaves.2.1, hleaves.2.2.1⟩

end Bodies

/-- **Which failing calls leave a reply.** -/
theorem flagged_typed_iff {env : Env G} {c : Call} {index : ℕ} {msgIn msgOut : VMIMessage}
    {l l' : LinkState} {w w' : World G} {r : Reply}
    (h : (handlerOf c).run c env index msgIn msgOut l w = .ok (l', w', r))
    (hr : r.errorNum ≠ none) :
    r.typed = true ↔ LeavesReply env w (msgIn.request c index) c := by
  cases hreg : registryCall? c with
  | some rc =>
    rw [handlerOf_registryCall hreg] at h
    have hbody : rc.handler.body env (msgIn.request c index) w = .ok (w', r) := by
      have hlinked : (rc.handler : Handler G).linked = false := by cases rc <;> rfl
      rw [Handler.run_of_not_linked hlinked] at h
      obtain ⟨⟨w₁, r₁⟩, hb, heq⟩ := map_eq_ok.mp h
      cases heq
      exact hb
    cases c <;> cases hreg
    case eventRegister.refl => exact eventRegisterBody_typed_iff hbody
    case eventClear.refl => exact iff_of_true (eventClearBody_typed hbody) trivial
    case startSyscall.refl => exact startSyscallBody_typed_iff hbody hr
    case stopSyscall.refl =>
      have hstop : stopSyscallBody env (msgIn.request .stopSyscall index) w = .ok (w', r) := hbody
      exact iff_of_true (stopSyscallBody_typed hstop) trivial
  | none =>
    have hleaves : ¬ LeavesReply env w (msgIn.request c index) c := by
      cases c <;> first | exact id | cases hreg
    refine iff_of_false ?_ hleaves
    rcases Handler.run_body h with ⟨access, hbody⟩ | ⟨n, -, rfl⟩
    · by_cases hc : c ∈ unimplemented
      · -- the four handlers that are not implemented
        have hfail : r = .fail 1 := by
          simp only [unimplemented, List.mem_cons, List.not_mem_nil, or_false] at hc
          rcases hc with rfl | rfl | rfl | rfl <;> (cases hbody; rfl)
        rw [hfail]
        simp [Reply.fail]
      · exact absurd (handlerOf_unflagged hreg hc _ _ _ _ _ hbody) hr
    · simp [Reply.fail]

/-- The call that fails is one that leaves a reply. -/
def RepliesToo (env : Env G) (msgIn : VMIMessage) (i t : ℕ) (w : World G) : Prop :=
  ∃ c : Call, t = c.num ∧
    LeavesReply env w (msgIn.request c (countBefore c.num msgIn.type i)) c

section

variable {env : Env G} {msgIn reply : VMIMessage} {w₀ w : World G} {i t e : ℕ}

/-- **The length of the reply of a failed batch**: one type for each call before the one that
    failed, and one more exactly if that leaves a reply. -/
theorem FailsAt.type_length (h : FailsAt env msgIn w₀ i t e w reply) :
    RepliesToo env msgIn i t w ∧ reply.type.length = i + 1 ∨
      ¬ RepliesToo env msgIn i t w ∧ reply.type.length = i := by
  obtain ⟨l, out, l', w', hreach, herr, hs⟩ := h.step
  obtain ⟨rs, hp, -⟩ := hreach.isPrefix herr
  cases hc : Call.ofNum? t with
  | none =>
    -- the default case adds no type
    rw [processSingle, hc] at hs
    cases hs
    refine .inr ⟨?_, hp.type_length⟩
    rintro ⟨c, rfl, -⟩
    rw [Call.ofNum?_num] at hc
    cases hc
  | some c =>
    have htc := Call.num_of_ofNum? hc
    subst htc
    obtain ⟨r, hrun, hreply⟩ := processSingle_call hs
    have hr : r.errorNum ≠ none := by
      intro hnone
      have herror := h.error
      rw [hreply, record_error, hnone] at herror
      simp [herr] at herror
    have hiff : r.typed = true ↔ RepliesToo env msgIn i c.num w := by
      rw [flagged_typed_iff hrun hr]
      constructor
      · exact fun hleaves => ⟨c, rfl, hleaves⟩
      · rintro ⟨c', hnum, hleaves⟩
        cases Call.num_injective hnum
        exact hleaves
    have hlen : reply.type.length = i + (if r.typed then [c.replyNum] else []).length := by
      rw [hreply, record_type, List.length_append, hp.type_length]
    by_cases htyped : r.typed = true
    · refine .inl ⟨hiff.mp htyped, ?_⟩
      rw [hlen, if_pos htyped]
      rfl
    · refine .inr ⟨fun hleaves => htyped (hiff.mpr hleaves), ?_⟩
      rw [hlen, if_neg htyped]
      rfl

/-! ### Reports -/

/-- The exception of `parse`, when `bo` was sent and answered by `reply`. -/
def BatchObj.raised (bo : BatchObj) (reply : VMIMessage) : Option ParseError :=
  (bo.serialize.received reply).parseError

/-- The failure of call `i` with the number `e` is reported: `parse` raises an exception with
    that number and a location, and whenever the same batch raises this exception it is call `i`
    that has failed. -/
def Reported (G : Type) (bo : BatchObj) (reply : VMIMessage) (i e : ℕ) : Prop :=
  ∃ loc, bo.raised reply = some (.gotError e loc) ∧
    ∀ (env : Env G) w₀ i' t' e' w reply', FailsAt env bo.request w₀ i' t' e' w reply' →
      bo.raised reply' = some (.gotError e loc) → i' = i

/-- Which of its two exceptions `parse` raises for a batch that has failed. -/
theorem raised_of_failsAt {bo : BatchObj} (h : FailsAt env bo.request w₀ i t e w reply) :
    bo.request.type.length = reply.type.length ∧
        bo.raised reply = some (.gotError e (reply.errorLoc.getD 0)) ∨
      bo.request.type.length ≠ reply.type.length ∧
        bo.raised reply = some (.somethingWrong bo.request.type.length reply.type.length) := by
  by_cases hlen : bo.request.type.length = reply.type.length
  · refine .inl ⟨hlen, ?_⟩
    show (if bo.request.type.length ≠ reply.type.length then _
      else if reply.error = some true then _ else _) = _
    rw [if_neg (not_not.mpr hlen), if_pos h.error]
    show some (ParseError.gotError (reply.errorNum.getD 0) _) = _
    rw [h.errorNum]
    rfl
  · exact .inr ⟨hlen, if_pos hlen⟩

/-- A failure that is reported with a number is the one of the last call. -/
theorem last_of_gotError {bo : BatchObj} {num loc : ℕ}
    (h : FailsAt env bo.request w₀ i t e w reply)
    (hraised : bo.raised reply = some (.gotError num loc)) :
    i + 1 = bo.request.type.length ∧ RepliesToo env bo.request i t w := by
  have hlt : i < bo.request.type.length := (List.getElem?_eq_some_iff.mp h.type).1
  rcases raised_of_failsAt h with ⟨hlen, -⟩ | ⟨-, hwrong⟩
  · rcases h.type_length with ⟨hleaves, hi⟩ | ⟨-, hi⟩
    · exact ⟨by omega, hleaves⟩
    · omega
  · rw [hwrong] at hraised
    cases hraised

/-- **Reports of failures.** A failed batch is reported by number and place if and only if it is
    its last call that fails, and that call leaves a reply beside its error. -/
theorem reported_iff {bo : BatchObj} (h : FailsAt env bo.request w₀ i t e w reply) :
    Reported G bo reply i e ↔
      i + 1 = bo.request.type.length ∧ RepliesToo env bo.request i t w := by
  constructor
  · rintro ⟨loc, hraised, -⟩
    exact last_of_gotError h hraised
  · rintro ⟨hlast, hleaves⟩
    have hlen : bo.request.type.length = reply.type.length := by
      rcases h.type_length with ⟨-, hi⟩ | ⟨hnot, -⟩
      · omega
      · exact absurd hleaves hnot
    rcases raised_of_failsAt h with ⟨-, hraised⟩ | ⟨hne, -⟩
    · refine ⟨_, hraised, ?_⟩
      intro env' w₀' i' t' e' w' reply' h' hraised'
      obtain ⟨hlast', -⟩ := last_of_gotError h' hraised'
      omega
    · exact absurd hlen hne

end

end Failing

/-! ### A failure in front -/

/-- The batch object of additions that all succeed. -/
def batchOf (adds : List Addition) : BatchObj :=
  match adds.foldlM BatchObj.add BatchObj.new with
  | .ok bo => bo
  | .error _ => BatchObj.new

/-- The removal of an event that there is not. -/
def clearUnknown : Addition :=
  { name := "clear", msgtype := .eventClear, argv := [(.identifier, .u64 7)] }

def pauseGuest : Addition := { name := "pause", msgtype := .pauseVm }

theorem reported_iff_last : ∃ w reply,
    [pauseGuest, clearUnknown].foldlM BatchObj.add BatchObj.new =
        .ok (batchOf [pauseGuest, clearUnknown]) ∧
      FailsAt echoEnv (batchOf [pauseGuest, clearUnknown]).request (World.initial ()) 1
        Call.eventClear.num 1 w reply ∧
      (Reported Unit (batchOf [pauseGuest, clearUnknown]) reply 1 1 ↔
        1 + 1 = (batchOf [pauseGuest, clearUnknown]).request.type.length ∧
        RepliesToo echoEnv (batchOf [pauseGuest, clearUnknown]).request 1
          Call.eventClear.num w) := by
  have hfails : ∃ w reply, FailsAt echoEnv (batchOf [pauseGuest, clearUnknown]).request
      (World.initial ()) 1 Call.eventClear.num 1 w reply := by
    refine ⟨_, _, by decide, rfl, ⟨_, _, _, _, .next .start rfl rfl rfl, rfl, rfl⟩, ?_, ?_⟩ <;> rfl
  obtain ⟨w, reply, hfails⟩ := hfails
  exact ⟨w, reply, rfl, hfails, reported_iff hfails⟩

/-- **The number is lost.** A call that fails before the last one makes the reply too short, and
    `parse` reports the two lengths only. -/
theorem failure_not_reported : ∃ w reply,
    [clearUnknown, pauseGuest].foldlM BatchObj.add BatchObj.new =
        .ok (batchOf [clearUnknown, pauseGuest]) ∧
      FailsAt echoEnv (batchOf [clearUnknown, pauseGuest]).request (World.initial ()) 0
        Call.eventClear.num 1 w reply ∧
      (batchOf [clearUnknown, pauseGuest]).raised reply = some (.somethingWrong 2 1) ∧
      ¬ Reported Unit (batchOf [clearUnknown, pauseGuest]) reply 0 1 := by
  have hfails : ∃ w reply, FailsAt echoEnv (batchOf [clearUnknown, pauseGuest]).request
      (World.initial ()) 0 Call.eventClear.num 1 w reply ∧
      (batchOf [clearUnknown, pauseGuest]).raised reply = some (.somethingWrong 2 1) := by
    refine ⟨_, _, ⟨by decide, rfl, ⟨_, _, _, _, .start, rfl, rfl⟩, ?_, ?_⟩, ?_⟩ <;> rfl
  obtain ⟨w, reply, hfails, hraised⟩ := hfails
  refine ⟨w, reply, rfl, hfails, hraised, ?_⟩
  rintro ⟨loc, hgot, -⟩
  rw [hraised] at hgot
  cases hgot

end Furnace.App
