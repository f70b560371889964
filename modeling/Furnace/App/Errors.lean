import Furnace.App.Queries
import Furnace.Vmi.ErrorFlag

namespace Furnace.App

open Furnace.Proto Furnace.Lib Furnace.Vmi

/-!
# Errors on their way to the app

No API call looks at the error flag of a reply.  What an error does to the call depends on the
label of the reply field, which reads as a success when it is singular and not set, and on
whether the call looks at the status.

* `SingleCall` — the API calls that exchange one message; `SingleCall.sent` is the message.
* `ErrorRaised` — an error in the reply ends the call with an exception, and registers nothing.
* `Surfaces` — when it does.
-/

variable {G : Type}

/-! ### Single calls -/

/-- The API calls that exchange one message. -/
inductive SingleCall
  | api (a : ApiCall) | query (a : ApiQuery)

/-- The end of a single call. -/
structure CallAnswer (G : Type) where
  vmi : World G
  fe : FE
  result : Except PyError (Returned ⊕ Value)

/-- A single call, together with the VMI partition's part of it. -/
def SingleCall.run (env : Env G) (fe : FE) (w : World G) :
    SingleCall → Except Fault (CallAnswer G)
  | .api a => (a.run env fe w).map fun ans => ⟨ans.vmi, ans.fe, ans.result.map Sum.inl⟩
  | .query a => (a.run env fe w).map fun ans => ⟨ans.vmi, fe, ans.result.map Sum.inr⟩

/-- The request that an API call sends, when its checks pass. -/
def ApiCall.sent (fe : FE) : ApiCall → Option (Call × Msg)
  | .eventRegister d =>
    if d.callable ∧ d.eventType ≠ .be ∧ d.eventType ≠ .timer then
      d.request.toOption.map fun r => (.eventRegister, r.2)
    else none
  | .eventClear eid =>
    if eid ∈ fe.eventlist ∧ eid < 2 ^ 64 then
      some (.eventClear, Msg.empty.set .identifier (.u64 (.ofNat eid)))
    else none
  | .startSyscall callable sync =>
    if callable then
      (acceptSync sync).toOption.map fun s => (.startSyscall, Msg.empty.set .syncState (.enum s))
    else none
  | .stopSyscall eid => if eid ∈ fe.eventlist then some (.stopSyscall, Msg.empty) else none
  | .eventsStart => some (.eventsStart, Msg.empty.set .status (.i32 1))
  | .eventsStop => some (.eventsStop, Msg.empty.set .status (.i32 1))

/-- The message that a single call sends. -/
def SingleCall.sent (fe : FE) : SingleCall → Option VMIMessage
  | .api a => (a.sent fe).map fun r => VMIMessage.empty.addCall r.1 r.2
  | .query a => a.query.request.toOption

/-- A registration that is sent goes to the VMI partition. -/
theorem eventRegister_sent {fe : FE} {d : EventData} {c : Call} {m : Msg}
    (h : (ApiCall.eventRegister d).sent fe = some (c, m)) :
    c = .eventRegister ∧ ∃ eventType, ∀ (env : Env G) w,
      fe.eventRegister env d w = fe.registerVmi env eventType m w := by
  change (if _ then _ else _) = _ at h
  split at h
  · rename_i hsent
    obtain ⟨hcallable, hbe, htimer⟩ := hsent
    cases hreq : d.request with
    | error e =>
      rw [hreq] at h
      cases h
    | ok r =>
      obtain ⟨eventType, m'⟩ := r
      rw [hreq] at h
      cases h
      refine ⟨rfl, eventType, fun env w => ?_⟩
      unfold FE.eventRegister
      rw [hcallable]
      -- the types of `timerlist` are excluded, all others share one branch
      cases htype : d.eventType with
      | be => exact absurd htype hbe
      | timer => exact absurd htype htimer
      | _ =>
        dsimp only
        rw [hreq]
        rfl
  · cases h

/-- **What is sent is what is answered.** When an API call sends a request, its end depends on
    the VMI partition only through the answer. -/
theorem ApiCall.run_sent {fe : FE} {a : ApiCall} {c : Call} {m : Msg}
    (h : a.sent fe = some (c, m)) (w : World G) :
    ∃ f : World G × VMIMessage → Except Fault (Answer G), ∀ env,
      a.run env fe w = fe.exchange env c m w >>= f := by
  cases a with
  | eventRegister d =>
    obtain ⟨rfl, eventType, hrun⟩ := eventRegister_sent (G := G) h
    exact ⟨_, fun env => (hrun env w).trans rfl⟩
  | eventClear eid =>
    change (if _ then _ else _) = _ at h
    split at h
    · rename_i hsent
      obtain ⟨hmem, hlt⟩ := hsent
      cases h
      obtain ⟨e, he⟩ := Option.isSome_iff_exists.mp (AList.lookup_isSome.mpr hmem)
      exact ⟨_, fun env => by
        show fe.eventClear env eid w = _
        unfold FE.eventClear
        rw [he]
        dsimp only
        rw [if_neg (not_le.mpr hlt)]⟩
    · cases h
  | startSyscall callable sync =>
    change (if _ then _ else _) = _ at h
    split at h
    · rename_i hcallable
      cases hsync : acceptSync sync with
      | error e =>
        rw [hsync] at h
        cases h
      | ok s =>
        rw [hsync] at h
        cases h
        exact ⟨_, fun env => by
          show fe.startSyscall env callable sync w = _
          unfold FE.startSyscall
          rw [hcallable, hsync]
          rfl⟩
    · cases h
  | stopSyscall eid =>
    change (if _ then _ else _) = _ at h
    split at h
    · rename_i hmem
      cases h
      obtain ⟨e, he⟩ := Option.isSome_iff_exists.mp (AList.lookup_isSome.mpr hmem)
      exact ⟨_, fun env => by
        show fe.stopSyscall env eid w = _
        unfold FE.stopSyscall
        rw [he]⟩
    · cases h
  | eventsStart | eventsStop =>
    cases h
    exact ⟨_, fun env => rfl⟩

/-- An API call that sends nothing leaves the VMI partition alone. -/
theorem ApiCall.run_unsent {env : Env G} {fe : FE} {a : ApiCall} {w : World G} {ans : Answer G}
    (h : a.sent fe = none) (hrun : a.run env fe w = .ok ans) : ans.vmi = w := by
  cases a with
  | eventRegister d =>
    change fe.eventRegister env d w = _ at hrun
    unfold FE.eventRegister at hrun
    split at hrun
    · cases hrun
      rfl
    rename_i hcallable
    have hcallable : d.callable = true := by simpa using hcallable
    cases htype : d.eventType with
    | be =>
      rw [htype] at hrun
      cases hrun
      rfl
    | timer =>
      rw [htype] at hrun
      dsimp only at hrun
      split at hrun <;> (cases hrun; rfl)
    | _ =>
      -- the checks on the request have failed
      change (if _ then _ else _) = _ at h
      rw [if_pos ⟨hcallable, by simp [htype], by simp [htype]⟩] at h
      rw [htype] at hrun
      dsimp only at hrun
      cases hreq : d.request with
      | ok r =>
        rw [hreq] at h
        cases h
      | error e =>
        rw [hreq] at hrun
        cases hrun
        rfl
  | eventClear eid =>
    change (if _ then _ else _) = _ at h
    change fe.eventClear env eid w = _ at hrun
    unfold FE.eventClear at hrun
    cases he : fe.eventlist.lookup eid with
    | none =>
      rw [he] at hrun
      dsimp only at hrun
      split at hrun <;> (cases hrun; rfl)
    | some e =>
      have hmem : eid ∈ fe.eventlist := mem_of_lookup he
      rw [he] at hrun
      dsimp only at hrun
      split at hrun
      · cases hrun
        rfl
      · rename_i hlt
        rw [if_pos ⟨hmem, not_le.mp hlt⟩] at h
        cases h
  | startSyscall callable sync =>
    change (if _ then _ else _) = _ at h
    change fe.startSyscall env callable sync w = _ at hrun
    unfold FE.startSyscall at hrun
    split at hrun
    · cases hrun
      rfl
    · rename_i hcallable
      rw [if_pos (by simpa using hcallable)] at h
      cases hsync : acceptSync sync with
      | error e =>
        rw [hsync] at hrun
        cases hrun
        rfl
      | ok s =>
        rw [hsync] at h
        cases h
  | stopSyscall eid =>
    change (if _ then _ else _) = _ at h
    change fe.stopSyscall env eid w = _ at hrun
    unfold FE.stopSyscall at hrun
    split at h
    · cases h
    · rename_i hnot
      rw [AList.lookup_eq_none.mpr hnot] at hrun
      cases hrun
      rfl
  | eventsStart | eventsStop => cases h

/-! ### When an error surfaces -/

/-- An API call has raised, and registered nothing. -/
def Answer.Raised (ans : Answer G) (fe : FE) : Prop :=
  (∃ e, ans.result = .error e) ∧ ans.fe.eventlist = fe.eventlist

/-- An error that the VMI partition reports in its reply ends the call with an exception, and
    registers nothing. -/
def ErrorRaised (env : Env G) (fe : FE) (w : World G) (a : SingleCall) : Prop :=
  ∀ vmsg w' reply ans, a.sent fe = some vmsg → fe.sendDefaultReply env vmsg w = .ok (w', reply) →
    reply.error = some true → a.run env fe w = .ok ans →
      (∃ e, ans.result = .error e) ∧ ans.fe.eventlist = fe.eventlist

/-- The calls that raise when the VMI partition reports an error: not the three that are
    answered by a handler that is not implemented, and whose reply is singular; not
    `start_syscall` when it is going to find no memory; and not `stop_syscall` of an event in
    the list when no plugin runs. -/
def Surfaces (env : Env G) (fe : FE) (w : World G) : SingleCall → Prop
  | .query .getAccessMode | .query .getOstype | .query .getPageMode => False
  | .api (.startSyscall callable sync) =>
    callable = true → (acceptSync sync).isOk = true → w.syscallPluginOwner = none →
      (env.exec (.malloc .eventItem) w.guest).1 = true
  | .api (.stopSyscall eid) => eid ∈ fe.eventlist → w.syscallPluginOwner ≠ none
  | _ => True

theorem record_empty_error_iff (n loc : ℕ) (r : Reply) :
    (record VMIMessage.empty n r loc).error = some true ↔ r.errorNum ≠ none := by
  rw [record_error]
  cases r.errorNum with
  | none => simp
  | some e => simp

section Calls

variable {env : Env G} {fe : FE} {w w' : World G} {reply : VMIMessage} {ans : Answer G}

/-- The status of a repeated reply with an error is not a success. -/
theorem mgetStatus_flagged {c : RegistryCall} (hc : c ≠ .startSyscall) {m : Msg}
    (hex : fe.exchange env (registryCall c) m w = .ok (w', reply))
    (herr : reply.error = some true) : mgetStatus (registryCall c) reply ≠ .ok 0 := by
  obtain ⟨r, hcore, rfl⟩ := exchange_registry_record hex
  rw [record_empty_error_iff] at herr
  rcases registry_flagged hcore herr with ⟨hfailed, -⟩ | ⟨hstart, -⟩
  · exact mgetStatus_failed hfailed (record_empty_sub _ _ r)
  · exact absurd hstart hc

theorem registerVmi_raised {eventType : VmiType} {m : Msg}
    (hex : fe.exchange env .eventRegister m w = .ok (w', reply))
    (herr : reply.error = some true) (h : fe.registerVmi env eventType m w = .ok ans) :
    ans.Raised fe := by
  have hstatus : mgetStatus .eventRegister reply ≠ .ok 0 :=
    mgetStatus_flagged (c := .eventRegister) (by decide) hex herr
  obtain ⟨e, rfl⟩ := registerVmi_raised_of_status hex hstatus h
  exact ⟨⟨e, rfl⟩, rfl⟩

theorem eventClear_raised {eid : ℕ}
    (hex : fe.exchange env .eventClear (Msg.empty.set .identifier (.u64 (.ofNat eid))) w =
      .ok (w', reply)) (hmem : eid ∈ fe.eventlist) (hlt : eid < 2 ^ 64)
    (herr : reply.error = some true) (h : fe.eventClear env eid w = .ok ans) :
    ans.Raised fe := by
  have hstatus : mgetStatus .eventClear reply ≠ .ok 0 :=
    mgetStatus_flagged (c := .eventClear) (by decide) hex herr
  obtain ⟨e, rfl⟩ := eventClear_raised_of_status hmem (not_le.mpr hlt) hex hstatus h
  exact ⟨⟨e, rfl⟩, rfl⟩

/-- Without memory for the pseudo-event the reply of `start_syscall` reads as a success, with
    memory an error in it does not. -/
theorem startSyscall_getStatus {m : Msg}
    (hex : fe.exchange env .startSyscall m w = .ok (w', reply)) (herr : reply.error = some true) :
    getStatus .startSyscall reply = 0 ↔
      w.syscallPluginOwner = none ∧ (env.exec (.malloc .eventItem) w.guest).1 = false := by
  obtain ⟨r, hcore, rfl⟩ := exchange_registry_record (c := .startSyscall) hex
  rw [record_empty_error_iff] at herr
  have hsub := record_empty_sub (Call.replyNum .startSyscall) 0 r
  constructor
  · intro hzero
    rcases registry_flagged hcore herr with ⟨hfailed, hentry⟩ | ⟨-, howner, hstub⟩
    · exact absurd hzero (getStatus_failed hfailed (fun hnone => by cases hentry hnone) hsub)
    · refine ⟨howner, ?_⟩
      -- with memory the reply has its type
      by_contra hmalloc
      have htyped := startSyscall_typed (by simpa using hmalloc) hcore
      rw [hstub] at htyped
      cases htyped
  · rintro ⟨howner, hmalloc⟩
    have hstub := startSyscall_stub (w := { w with scratchIdent := fe.identR }) howner hmalloc hcore
    subst hstub
    rfl

/-- A registration of the plugin raises exactly when its reply does not read as a success. -/
theorem startSyscall_raised_iff {callable : Bool} {sync s : ℕ} (hcallable : callable = true)
    (hsync : acceptSync sync = .ok s)
    (hex : fe.exchange env .startSyscall (Msg.empty.set .syncState (.enum s)) w =
      .ok (w', reply)) (h : fe.startSyscall env callable sync w = .ok ans) :
    ans.Raised fe ↔ getStatus .startSyscall reply ≠ 0 := by
  unfold FE.startSyscall at h
  rw [hcallable, hsync] at h
  change fe.exchange env _ _ w >>= _ = _ at h
  rw [hex, ok_bind] at h
  dsimp only at h
  split at h
  · rename_i hzero
    cases h
    constructor
    · rintro ⟨⟨e, he⟩, -⟩
      cases he
    · exact fun hne => absurd hzero hne
  · rename_i hne
    cases h
    exact ⟨fun _ => hne, fun _ => ⟨⟨_, rfl⟩, rfl⟩⟩

/-- `stop_syscall` returns the status, whatever it is. -/
theorem stopSyscall_returned {eid : ℕ} (hmem : eid ∈ fe.eventlist)
    (h : fe.stopSyscall env eid w = .ok ans) : ∃ st, ans.result = .ok (.status st) := by
  obtain ⟨e, he⟩ := Option.isSome_iff_exists.mp (AList.lookup_isSome.mpr hmem)
  unfold FE.stopSyscall at h
  rw [he] at h
  obtain ⟨⟨w₁, reply₁⟩, -, h⟩ := bind_eq_ok.mp h
  cases h
  exact ⟨_, rfl⟩

/-- A query of a call that is not implemented is answered with an error and no reply. -/
theorem query_unimplemented {a : ApiQuery} {vmsg : VMIMessage} (hreq : a.query.request = .ok vmsg)
    (hcall : (handlerOf a.query.call : Handler G) = ⟨false, notImplementedBody⟩) :
    fe.sendDefaultReply env vmsg w = .ok ({ w with scratchIdent := fe.identR },
      record VMIMessage.empty a.query.call.replyNum (.fail 1) 0) := by
  have hasks := ApiQuery.asks hreq
  unfold FE.sendDefaultReply
  rw [processProtobuf_of_type hasks.type, Handler.run_unlinked _ _ _ _ _ _ _ _ hasks.unlinked,
    hcall]
  rfl

/-- A query that is answered with an error is one of the four that are not implemented. -/
theorem query_flagged {a : ApiQuery} {vmsg : VMIMessage} (hreq : a.query.request = .ok vmsg)
    (hsend : fe.sendDefaultReply env vmsg w = .ok (w', reply)) (herr : reply.error = some true) :
    a.query.call ∈ unimplemented := by
  obtain ⟨r, hcore, rfl⟩ := sendDefaultReply_run (ApiQuery.asks hreq) hsend
  rw [record_empty_error_iff] at herr
  by_contra hc
  have hreg : registryCall? a.query.call = none := by cases a <;> rfl
  exact herr (Handler.core_unflagged (handlerOf_unflagged hreg hc) hcore)

/-- Without a plugin and without memory for one, `START_SYSCALL` is answered by the stub. -/
theorem exchange_startSyscall_stub {s : ℕ} (howner : w.syscallPluginOwner = none)
    (hmalloc : (env.exec (.malloc .eventItem) w.guest).1 = false) :
    ∃ w', fe.exchange env .startSyscall (Msg.empty.set .syncState (.enum s)) w =
      .ok (w', record VMIMessage.empty 120 (.stub 1) 0) := by
  let w₀ : World G := { w with scratchIdent := fe.identR }
  have hallocated : (w₀.exec env (.malloc .eventItem)).1 = false := hmalloc
  have hnone : w₀.syscallPluginOwner = none := howner
  have hbody : startSyscallBody env (.ok (Msg.empty.set .syncState (.enum s))) w₀ =
      .ok ((w₀.exec env (.malloc .eventItem)).2, .stub 1) := by
    unfold startSyscallBody
    rw [hnone]
    dsimp only
    rw [hallocated]
    rfl
  refine ⟨(w₀.exec env (.malloc .eventItem)).2, ?_⟩
  unfold FE.exchange
  rw [processProtobuf_addCall_body rfl]
  change Except.map _ (startSyscallBody env _ w₀) = _
  rw [hbody]
  rfl

/-- Without a plugin, `STOP_SYSCALL` is refused. -/
theorem exchange_stopSyscall_refused (howner : w.syscallPluginOwner = none) :
    fe.exchange env .stopSyscall Msg.empty w = .ok ({ w with scratchIdent := fe.identR },
      record VMIMessage.empty 122 (.okWithError (statusOnly .failure) 1) 0) := by
  let w₀ : World G := { w with scratchIdent := fe.identR }
  have hnone : w₀.syscallPluginOwner = none := howner
  have hbody : stopSyscallBody env (.ok Msg.empty) w₀ =
      .ok (w₀, .okWithError (statusOnly .failure) 1) := by
    unfold stopSyscallBody
    rw [hnone]
  unfold FE.exchange
  rw [processProtobuf_addCall_body rfl]
  change Except.map _ (stopSyscallBody env (.ok Msg.empty) w₀) = _
  rw [hbody]
  rfl

/-! ### Call by call -/

/-- What it takes for the errors of an API call to surface. -/
theorem errorRaised_api {a : ApiCall} : ErrorRaised env fe w (.api a) ↔
    ∀ c m w' reply ans, a.sent fe = some (c, m) → fe.exchange env c m w = .ok (w', reply) →
      reply.error = some true → a.run env fe w = .ok ans → ans.Raised fe := by
  constructor
  · intro h c m w' reply ans hsent hex herr hrun
    have hsent' : (SingleCall.api a).sent fe = some (VMIMessage.empty.addCall c m) := by
      show (a.sent fe).map _ = _
      rw [hsent]
      rfl
    have hrun' : (SingleCall.api a).run env fe w =
        .ok ⟨ans.vmi, ans.fe, ans.result.map Sum.inl⟩ := by
      show (a.run env fe w).map _ = _
      rw [hrun]
      rfl
    obtain ⟨⟨e, he⟩, hlist⟩ := h _ w' reply _ hsent' hex herr hrun'
    refine ⟨?_, hlist⟩
    cases hres : ans.result with
    | error e' => exact ⟨e', rfl⟩
    | ok v =>
      change ans.result.map _ = _ at he
      rw [hres] at he
      cases he
  · intro h vmsg w' reply ans hsent hsend herr hrun
    obtain ⟨⟨c, m⟩, hrequest, rfl⟩ := Option.map_eq_some_iff.mp hsent
    obtain ⟨ans', hans, rfl⟩ := map_eq_ok.mp hrun
    obtain ⟨⟨e, he⟩, hlist⟩ := h c m w' reply ans' hrequest hsend herr hans
    refine ⟨⟨e, ?_⟩, hlist⟩
    show ans'.result.map _ = _
    rw [he]
    rfl

/-- What it takes for the errors of a query to surface. -/
theorem errorRaised_query {a : ApiQuery} : ErrorRaised env fe w (.query a) ↔
    ∀ vmsg w' reply, a.query.request = .ok vmsg →
      fe.sendDefaultReply env vmsg w = .ok (w', reply) → reply.error = some true →
        ∃ e, a.query.read reply = .error e := by
  have hrun : ∀ {vmsg w' reply}, a.query.request = .ok vmsg →
      fe.sendDefaultReply env vmsg w = .ok (w', reply) →
        (SingleCall.query a).run env fe w =
          .ok ⟨w', fe, (a.query.read reply).map Sum.inr⟩ := by
    intro vmsg w' reply hreq hsend
    show (a.run env fe w).map _ = _
    unfold ApiQuery.run
    rw [hreq]
    dsimp only
    rw [hsend]
    rfl
  constructor
  · intro h vmsg w' reply hreq hsend herr
    have hsent : (SingleCall.query a).sent fe = some vmsg := by
      show a.query.request.toOption = _
      rw [hreq]
      rfl
    obtain ⟨⟨e, he⟩, -⟩ := h vmsg w' reply _ hsent hsend herr (hrun hreq hsend)
    cases hread : a.query.read reply with
    | error e' => exact ⟨e', rfl⟩
    | ok v =>
      change (a.query.read reply).map _ = _ at he
      rw [hread] at he
      cases he
  · intro h vmsg w' reply ans hsent hsend herr hans
    have hreq : a.query.request = .ok vmsg := by
      change a.query.request.toOption = _ at hsent
      cases hreq : a.query.request with
      | error e =>
        rw [hreq] at hsent
        cases hsent
      | ok v =>
        rw [hreq] at hsent
        cases hsent
        rfl
    rw [hrun hreq hsend] at hans
    cases hans
    obtain ⟨e, he⟩ := h vmsg w' reply hreq hsend herr
    refine ⟨⟨e, ?_⟩, rfl⟩
    show (a.query.read reply).map _ = _
    rw [he]
    rfl

theorem errorRaised_eventRegister (d : EventData) :
    ErrorRaised env fe w (.api (.eventRegister d)) := by
  rw [errorRaised_api]
  intro c m w' reply ans hsent hex herr hrun
  obtain ⟨rfl, eventType, hreg⟩ := eventRegister_sent (G := G) hsent
  change fe.eventRegister env d w = _ at hrun
  rw [hreg] at hrun
  exact registerVmi_raised hex herr hrun

theorem errorRaised_eventClear (eid : ℕ) : ErrorRaised env fe w (.api (.eventClear eid)) := by
  rw [errorRaised_api]
  intro c m w' reply ans hsent hex herr hrun
  change (if _ then _ else _) = _ at hsent
  split at hsent
  · rename_i hlisted
    cases hsent
    exact eventClear_raised hex hlisted.1 hlisted.2 herr hrun
  · cases hsent

theorem errorRaised_startSyscall_iff (callable : Bool) (sync : ℕ) :
    ErrorRaised env fe w (.api (.startSyscall callable sync)) ↔
      (callable = true → (acceptSync sync).isOk = true → w.syscallPluginOwner = none →
        (env.exec (.malloc .eventItem) w.guest).1 = true) := by
  rw [errorRaised_api]
  constructor
  · intro h hcallable hok howner
    by_contra hmalloc
    have hmalloc : (env.exec (.malloc .eventItem) w.guest).1 = false := by simpa using hmalloc
    cases hsync : acceptSync sync with
    | error e =>
      rw [hsync] at hok
      cases hok
    | ok s =>
      obtain ⟨w', hex⟩ : ∃ w', fe.exchange env .startSyscall
          (Msg.empty.set .syncState (.enum s)) w = .ok (w', _) :=
        exchange_startSyscall_stub howner hmalloc
      have hsent : (ApiCall.startSyscall callable sync).sent fe =
          some (.startSyscall, Msg.empty.set .syncState (.enum s)) := by
        show (if _ then (acceptSync sync).toOption.map _ else _) = _
        rw [if_pos hcallable, hsync]
        rfl
      have hrun : ∃ ans, fe.startSyscall env callable sync w = .ok ans := by
        unfold FE.startSyscall
        rw [hcallable, hsync]
        show ∃ ans, fe.exchange env _ _ w >>= _ = .ok ans
        rw [hex]
        exact ⟨_, rfl⟩
      obtain ⟨ans, hrun⟩ := hrun
      have hraised := h _ _ w' _ ans hsent hex rfl hrun
      exact (startSyscall_raised_iff hcallable hsync hex hrun).mp hraised rfl
  · intro h c m w' reply ans hsent hex herr hrun
    change (if _ then _ else _) = _ at hsent
    split at hsent
    · rename_i hcallable
      cases hsync : acceptSync sync with
      | error e =>
        rw [hsync] at hsent
        cases hsent
      | ok s =>
        rw [hsync] at hsent
        cases hsent
        refine (startSyscall_raised_iff hcallable hsync hex hrun).mpr fun hzero => ?_
        obtain ⟨howner, hmalloc⟩ := (startSyscall_getStatus hex herr).mp hzero
        rw [h hcallable (by rw [hsync]; rfl) howner] at hmalloc
        cases hmalloc
    · cases hsent

theorem errorRaised_stopSyscall_iff (eid : ℕ) :
    ErrorRaised env fe w (.api (.stopSyscall eid)) ↔
      (eid ∈ fe.eventlist → w.syscallPluginOwner ≠ none) := by
  rw [errorRaised_api]
  constructor
  · intro h hmem howner
    have hex : fe.exchange env .stopSyscall Msg.empty w = _ := exchange_stopSyscall_refused howner
    have hsent : (ApiCall.stopSyscall eid).sent fe = some (.stopSyscall, Msg.empty) :=
      if_pos hmem
    have hrun : ∃ ans, fe.stopSyscall env eid w = .ok ans := by
      obtain ⟨e, he⟩ := Option.isSome_iff_exists.mp (AList.lookup_isSome.mpr hmem)
      unfold FE.stopSyscall
      rw [he]
      show ∃ ans, fe.exchange env _ _ w >>= _ = .ok ans
      rw [hex]
      exact ⟨_, rfl⟩
    obtain ⟨ans, hrun⟩ := hrun
    obtain ⟨⟨e, he⟩, -⟩ := h _ _ _ _ ans hsent hex rfl hrun
    obtain ⟨st, hst⟩ := stopSyscall_returned hmem hrun
    rw [hst] at he
    cases he
  · intro h c m w' reply ans hsent hex herr hrun
    change (if _ then _ else _) = _ at hsent
    split at hsent
    · rename_i hmem
      cases hsent
      -- a plugin that runs is stopped without an error
      obtain ⟨r, hcore, rfl⟩ := exchange_registry_record (c := .stopSyscall) hex
      rw [record_empty_error_iff] at herr
      exact absurd ((stopSyscall_flagged hcore).mp herr) (h hmem)
    · cases hsent

theorem errorRaised_events {b : Bool} {c : Call} {m : Msg} {a : ApiCall}
    (hsent : a.sent fe = some (c, m)) (hc : (handlerOf c : Handler G) = ⟨false, eventsBody b⟩) :
    ErrorRaised env fe w (.api a) := by
  rw [errorRaised_api]
  intro c' m' w' reply ans hsent' hex herr hrun
  rw [hsent] at hsent'
  cases hsent'
  -- the reply has no error
  obtain ⟨l, r, hrun, rfl⟩ := exchange_record hex
  rw [hc] at hrun
  cases hrun
  cases herr

/-- A query that is not implemented, and whose reply reads as a result. -/
theorem not_errorRaised_query {a : ApiQuery} {vmsg : VMIMessage} {v : Value}
    (hreq : a.query.request = .ok vmsg)
    (hcall : (handlerOf a.query.call : Handler G) = ⟨false, notImplementedBody⟩)
    (hread : a.query.read (record VMIMessage.empty a.query.call.replyNum (.fail 1) 0) = .ok v) :
    ¬ErrorRaised env fe w (.query a) := by
  intro h
  rw [errorRaised_query] at h
  obtain ⟨e, he⟩ := h vmsg _ _ hreq (query_unimplemented hreq hcall) rfl
  rw [hread] at he
  cases he

theorem errorRaised_query_iff (a : ApiQuery) : ErrorRaised env fe w (.query a) ↔
    a ≠ .getAccessMode ∧ a ≠ .getOstype ∧ a ≠ .getPageMode := by
  constructor
  · intro h
    refine ⟨?_, ?_, ?_⟩
    all_goals
      rintro rfl
      exact not_errorRaised_query rfl rfl rfl h
  · rintro ⟨haccess, hostype, hpage⟩
    rw [errorRaised_query]
    intro vmsg w' reply hreq hsend herr
    have hun := query_flagged hreq hsend herr
    cases a
    case getAccessMode => exact absurd rfl haccess
    case getOstype => exact absurd rfl hostype
    case getPageMode => exact absurd rfl hpage
    case getVcpureg vaddr pid =>
      -- the reply is repeated, and has no entry
      rw [query_unimplemented hreq rfl] at hsend
      cases hsend
      exact ⟨.indexError, rfl⟩
    all_goals
      dsimp only [ApiQuery.query, intQuery, statusQuery, effectQuery, getQuery] at hun
      exact absurd hun (by decide)

end Calls

/-- **Errors surface, but for five calls.** An error that the VMI partition reports in its reply
    ends a single call with an exception, and registers nothing, exactly when the call is not
    one of those that read such a reply as a success or return its status. -/
theorem error_raised_iff (env : Env G) (fe : FE) (w : World G) (a : SingleCall) :
    ErrorRaised env fe w a ↔ Surfaces env fe w a := by
  cases a with
  | api a =>
    cases a with
    | eventRegister d => exact iff_of_true (errorRaised_eventRegister d) trivial
    | eventClear eid => exact iff_of_true (errorRaised_eventClear eid) trivial
    | startSyscall callable sync => exact errorRaised_startSyscall_iff callable sync
    | stopSyscall eid => exact errorRaised_stopSyscall_iff eid
    | eventsStart => exact iff_of_true (errorRaised_events rfl rfl) trivial
    | eventsStop => exact iff_of_true (errorRaised_events rfl rfl) trivial
  | query a =>
    rw [errorRaised_query_iff]
    cases a
    case getAccessMode | getOstype | getPageMode => simp [Surfaces]
    all_goals exact iff_of_true ⟨nofun, nofun, nofun⟩ trivial

/-- A guest that answers, on a machine without memory for an event. -/
def noMemoryEnv : Env Unit where
  exec
    | .malloc .eventItem, g => (false, g)
    | op, g => echoEnv.exec op g
  fuel := 1

/-- A frontend with nothing registered. -/
def freshFrontend : FE := { identR := [102, 45, 114] }

/-- `get_access_mode` returns a value that no reply had, and `start_syscall` an identifier that
    the VMI partition did not give out, for a plugin that it did not start. -/
theorem error_raised_fails :
    (∃ vmsg w' reply, (SingleCall.query .getAccessMode).sent freshFrontend = some vmsg ∧
      freshFrontend.sendDefaultReply echoEnv vmsg (World.initial ()) = .ok (w', reply) ∧
      reply.error = some true ∧
      (SingleCall.query .getAccessMode).run echoEnv freshFrontend (World.initial ()) =
        .ok ⟨w', freshFrontend, .ok (.inr (.field (.u32 0)))⟩) ∧
    (∃ vmsg w' reply ans, (SingleCall.api (.startSyscall true 31)).sent freshFrontend = some vmsg ∧
      freshFrontend.sendDefaultReply noMemoryEnv vmsg (World.initial ()) = .ok (w', reply) ∧
      reply.error = some true ∧
      (SingleCall.api (.startSyscall true 31)).run noMemoryEnv freshFrontend (World.initial ()) =
        .ok ans ∧ ans.result = .ok (.inl (.identifier 0)) ∧ 0 ∈ ans.fe.eventlist) ∧
    ¬∀ (env : Env Unit) fe w a, ErrorRaised env fe w a := by
  refine ⟨⟨_, _, _, rfl, rfl, rfl, rfl⟩, ⟨_, _, _, _, rfl, rfl, rfl, rfl, rfl, ?_⟩, fun h => ?_⟩
  · exact List.mem_singleton.mpr rfl
  · have hquery := h echoEnv freshFrontend (World.initial ()) (.query .getAccessMode)
    exact ((errorRaised_query_iff _).mp hquery).1 rfl

end Furnace.App
