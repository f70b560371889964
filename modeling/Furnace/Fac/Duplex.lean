import Furnace.Fac.Client
import Furnace.Fac.Relay
import Furnace.Fac.Survival

namespace Furnace.Fac

open Furnace.Lib Furnace.Lib.PyText

/-!
# Both ways between the app and the backend

One loop of the facilities partition carries the messages of the backend to the app, those of
`notify` to the backend, and answers the synchronous calls of the app, `request`, `io_set` and
`io_get`.  The app has one socket for what it notifies and one for what it asks, and waits while
it asks.

* `notifyMessage`, `requestMessage` — what `notify` and `request` send.
* `Duplex.next` — the steps of the app, the facilities partition and the backend.
* `duplex_delivers` — **nothing is lost or doubled on either way** up to the first synchronous
  call; that call ends the runtime, and the app waits for ever.
-/

/-! ### The API calls -/

/-- The message of `notify`. -/
def notifyMessage (msg : Arg) : Except ApiError FacMessage := do
  checkEncoding msg
  let value ← msg.encode
  return .ofBeMsg ⟨vmiSuccess, .str value⟩

/-- The message of `request`: `str(msg)` of what the check has let pass is `msg`. -/
def requestMessage (msg : Arg) : Except ApiError FacMessage := notifyMessage msg

/-- What the backend gets of a text that was notified. -/
def noteOf (value : Str) : FacMessage := .ofBeMsg ⟨vmiSuccess, .str value⟩

/-- A synchronous call of the app. -/
inductive SyncCall
  | request (msg : Arg) | ioSet (key val : Arg) | ioGet (key : Arg)

/-- What a synchronous call sends, if it does not raise before. -/
def SyncCall.message : SyncCall → Except ApiError FacMessage
  | .request msg => requestMessage msg
  | .ioSet key val => (setArguments key val).map fun p => setRequest p.1 p.2
  | .ioGet key => (getArguments key).map getRequest

/-! ### The parties -/

/-- The app, the facilities partition and the sockets between them.  `down` is the way from the
    backend, with whether the runtime runs; `dealer` and `req` are the packets of the app that are
    not read yet.  `notified` is a ghost: the texts that the app has notified. -/
structure Duplex where
  down : RelayState := {}
  fac : Facilities
  dealer : List (List Bytes) := []
  req : Option (List Bytes) := none
  waiting : Bool := false
  notified : List Str := []

/-- What happens next: something on the way from the backend, a call of the app, or the runtime
    reads a packet of the app. -/
inductive DuplexInput
  | down (a : RelayInput) | notify (msg : Arg) | asks (c : SyncCall) | servesDealer | servesReq

/-- The app's thread takes part. -/
def DuplexInput.byApp : DuplexInput → Bool
  | .down .registers | .down (.receives _ _) | .notify _ | .asks _ => true
  | _ => false

namespace Duplex

/-- The runtime has read a packet, and handles it. -/
def served (s : Duplex) (r : Except PyError Facilities) : Duplex :=
  match r with
  | .ok f => { s with fac := f }
  | .error _ => { s with down := { s.down with running := false } }

/-- The step function; `wire` is `SerializeToString`, and `identD` and `identR` are the identities
    of the two sockets. -/
def next (env : Env) (wire : FacMessage → Bytes) (identD identR : Bytes) (s : Duplex)
    (i : DuplexInput) : Option Duplex :=
  if i.byApp ∧ s.waiting then none
  else match i with
  | .down a => (s.down.next a).map fun down => { s with down := down }
  | .notify msg =>
    if !s.down.looping then none
    else match msg, notifyMessage msg with
    | .text value, .ok M =>
      some { s with dealer := s.dealer ++ [packet false identD (wire M)]
                    notified := s.notified ++ [value] }
    | _, _ => some s
  | .asks c =>
    if !s.down.looping then none
    else match c.message with
    | .ok M => some { s with req := some (packet true identR (wire M)), waiting := true }
    | .error _ => some s
  | .servesDealer =>
    match s.down.running, s.dealer with
    | true, pkt :: rest => some ({ s with dealer := rest }.served (inboundFE env pkt s.fac))
    | _, _ => none
  | .servesReq =>
    match s.down.running, s.req with
    | true, some pkt => some ({ s with req := none }.served (inboundFE env pkt s.fac))
    | _, _ => none

end Duplex

/-- The three parties, in any order of steps. -/
def duplexSystem (env : Env) (wire : FacMessage → Bytes) (identD identR : Bytes) :
    TransitionSystem Duplex DuplexInput where
  init s := ∃ quota files, s = { fac := .fresh quota files }
  step s i s' := s.next env wire identD identR i = some s'

/-- The messages of the backend are fit to be relayed, and a text that is notified comes out of the
    serializer and the parser as it was. -/
def DuplexGuard (env : Env) (wire : FacMessage → Bytes) (s : Duplex) : DuplexInput → Prop
  | .down a => RelayGuard s.down a
  | .notify (.text value) => env.parse (wire (noteOf value)) = .ok (noteOf value)
  | _ => True

/-! ### The invariant -/

/-- What holds in every state.  The two ways do not touch each other: only the end of the runtime
    is common to them, so that the way from the backend is as if it were still running. -/
structure DuplexInv (env : Env) (wire : FacMessage → Bytes) (identD identR : Bytes)
    (s : Duplex) : Prop where
  down : RelayInv { s.down with running := true }
  up : ∃ sent pending, s.notified = sent ++ pending ∧ s.fac.forwarded = sent.map noteOf ∧
    s.dealer = pending.map (fun value => packet false identD (wire (noteOf value))) ∧
    ∀ value ∈ pending, env.parse (wire (noteOf value)) = .ok (noteOf value)
  asked : ∀ pkt, s.req = some pkt → s.waiting = true ∧ ∃ M, pkt = packet true identR (wire M)
  running : s.down.running = true ↔ ¬(s.waiting = true ∧ s.req = none)

/-- A text that comes alone goes on to the backend, and nothing else happens. -/
theorem inboundFE_note {env : Env} {raw : Bytes} {value : Str}
    (hraw : env.parse raw = .ok (noteOf value)) (ident : Bytes) (f : Facilities) :
    inboundFE env (packet false ident raw) f =
      .ok { f with fmsgOut := {}, forwarded := f.forwarded ++ [noteOf value] } := by
  refine (inboundFE_async hraw ident f _).mpr ⟨rfl, rfl⟩

/-- What the app reads does not depend on the runtime. -/
theorem receives_running {s s' : RelayState} {ch : Channel} {raises : Bool}
    (hs : s.next (.receives ch raises) = some s') :
    { s with running := true }.next (.receives ch raises) = some { s' with running := true } ∧
      s'.running = s.running := by
  unfold RelayState.next at hs ⊢
  dsimp only at hs ⊢
  cases hlooping : s.looping with
  | false =>
    rw [hlooping] at hs
    cases hs
  | true =>
    rw [hlooping] at hs
    cases houtbox : s.outbox ch with
    | nil =>
      rw [houtbox] at hs
      cases hs
    | cons fmsg rest =>
      rw [houtbox] at hs
      dsimp only at hs ⊢
      cases hreceives : frontendReceives ch s.beInfo fmsg with
      | error e =>
        rw [hreceives] at hs
        cases hs
        exact ⟨rfl, rfl⟩
      | ok ctx =>
        rw [hreceives] at hs
        cases ctx with
        | none =>
          cases hs
          exact ⟨rfl, rfl⟩
        | some ctx =>
          cases hs
          exact ⟨rfl, rfl⟩

/-- A runtime that is running is as if it were. -/
theorem RelayState.withRunning {s : RelayState} (h : s.running = true) :
    { s with running := true } = s := by
  cases s
  cases h
  rfl

section Steps

variable {env : Env} {wire : FacMessage → Bytes} {identD identR : Bytes} {s s' : Duplex}

/-- A step on the way from the backend. -/
theorem DuplexInv.stepDown (h : DuplexInv env wire identD identR s) {a : RelayInput}
    (hg : RelayGuard s.down a) {down : RelayState} (hs : s.down.next a = some down) :
    DuplexInv env wire identD identR { s with down := down } := by
  cases a with
  | arrives ch M =>
    cases hs
    exact ⟨arrives_inv h.down hg rfl, h.up, h.asked, h.running⟩
  | relays ch =>
    have hrunning : s.down.running = true := by
      cases hrun : s.down.running with
      | true => rfl
      | false =>
        unfold RelayState.next at hs
        rw [hrun] at hs
        cases hs
    have hold := h.down
    rw [RelayState.withRunning hrunning] at hold
    have hinv := relays_inv hold hs
    refine ⟨?_, h.up, h.asked, ?_⟩
    · show RelayInv { down with running := true }
      rw [RelayState.withRunning hinv.running]
      exact hinv
    · show down.running = true ↔ _
      rw [hinv.running]
      exact ⟨fun _ => h.running.mp hrunning, fun _ => rfl⟩
  | registers =>
    cases hs
    exact ⟨⟨⟨rfl, h.down.forwarded, h.down.invoked⟩, h.down.taken, h.down.single⟩, h.up, h.asked,
      h.running⟩
  | receives ch raises =>
    obtain ⟨hstep, hsame⟩ := receives_running hs
    refine ⟨receives_inv h.down hg hstep, h.up, h.asked, ?_⟩
    show down.running = true ↔ _
    rw [hsame]
    exact h.running

/-- A text is notified. -/
theorem DuplexInv.stepNotify (h : DuplexInv env wire identD identR s) {value : Str}
    (hwire : env.parse (wire (noteOf value)) = .ok (noteOf value)) :
    DuplexInv env wire identD identR
      { s with dealer := s.dealer ++ [packet false identD (wire (noteOf value))]
               notified := s.notified ++ [value] } := by
  obtain ⟨sent, pending, hnotified, hforwarded, hdealer, hparse⟩ := h.up
  refine ⟨h.down, ⟨sent, pending ++ [value], ?_, hforwarded, ?_, ?_⟩, h.asked, h.running⟩
  · rw [hnotified, List.append_assoc]
  · rw [hdealer, List.map_append]
    rfl
  · intro v hv
    rcases List.mem_append.mp hv with hv | hv
    · exact hparse v hv
    · rw [List.mem_singleton.mp hv]
      exact hwire

/-- The app asks, and waits. -/
theorem DuplexInv.stepAsks (h : DuplexInv env wire identD identR s) (hwaiting : s.waiting = false)
    (M : FacMessage) :
    DuplexInv env wire identD identR
      { s with req := some (packet true identR (wire M)), waiting := true } := by
  refine ⟨h.down, h.up, fun pkt hpkt => ⟨rfl, M, (Option.some.inj hpkt).symm⟩, ?_⟩
  have hrunning : s.down.running = true := by
    refine h.running.mpr fun hended => ?_
    rw [hwaiting] at hended
    exact absurd hended.1 (by decide)
  exact ⟨fun _ hended => (by cases hended.2), fun _ => hrunning⟩

/-- A text that was notified goes on to the backend. -/
theorem DuplexInv.stepDealer (h : DuplexInv env wire identD identR s) {pkt : List Bytes}
    {rest : List (List Bytes)} (hdealer : s.dealer = pkt :: rest) :
    DuplexInv env wire identD identR
      ({ s with dealer := rest }.served (inboundFE env pkt s.fac)) := by
  obtain ⟨sent, pending, hnotified, hforwarded, hpending, hparse⟩ := h.up
  cases pending with
  | nil =>
    rw [hdealer] at hpending
    cases hpending
  | cons value pending =>
    rw [hdealer, List.map_cons] at hpending
    obtain ⟨rfl, rfl⟩ := List.cons.inj hpending
    rw [inboundFE_note (hparse value (List.mem_cons_self ..))]
    refine ⟨h.down, ⟨sent ++ [value], pending, ?_, ?_, rfl, ?_⟩, h.asked, h.running⟩
    · show s.notified = _
      rw [hnotified, List.append_assoc]
      rfl
    · show s.fac.forwarded ++ [noteOf value] = _
      rw [hforwarded, List.map_append]
      rfl
    · exact fun v hv => hparse v (List.mem_cons_of_mem _ hv)

/-- The packet of a synchronous call ends the runtime. -/
theorem DuplexInv.stepReq (h : DuplexInv env wire identD identR s) {pkt : List Bytes}
    (hreq : s.req = some pkt) :
    DuplexInv env wire identD identR
      ({ s with req := none }.served (inboundFE env pkt s.fac)) := by
  obtain ⟨hwaiting, M, rfl⟩ := h.asked pkt hreq
  cases hserve : inboundFE env (packet true identR (wire M)) s.fac with
  | ok f => exact absurd ⟨f, hserve⟩ (inboundFE_sync env identR (wire M) s.fac)
  | error e =>
    refine ⟨h.down, h.up, nofun, ?_⟩
    exact ⟨nofun, fun hended => absurd ⟨hwaiting, rfl⟩ hended⟩

/-- Every step keeps the invariant. -/
theorem DuplexInv.step (h : DuplexInv env wire identD identR s) {i : DuplexInput}
    (hg : DuplexGuard env wire s i) (hs : s.next env wire identD identR i = some s') :
    DuplexInv env wire identD identR s' := by
  unfold Duplex.next at hs
  split at hs
  · cases hs
  next hfree =>
  cases i with
  | down a =>
    obtain ⟨down, hdown, rfl⟩ := Option.map_eq_some_iff.mp hs
    exact h.stepDown hg hdown
  | notify msg =>
    dsimp only at hs
    split at hs
    · cases hs
    cases msg with
    | text value =>
      cases hs
      exact h.stepNotify hg
    | surrogate =>
      cases hs
      exact h
    | other =>
      cases hs
      exact h
  | asks c =>
    dsimp only at hs
    split at hs
    · cases hs
    have hwaiting : s.waiting = false := by
      rw [← Bool.not_eq_true]
      exact fun hwaiting => hfree ⟨rfl, hwaiting⟩
    cases hmessage : c.message with
    | error e =>
      rw [hmessage] at hs
      cases hs
      exact h
    | ok M =>
      rw [hmessage] at hs
      cases hs
      exact h.stepAsks hwaiting M
  | servesDealer =>
    dsimp only at hs
    cases hrunning : s.down.running with
    | false =>
      rw [hrunning] at hs
      cases hs
    | true =>
      rw [hrunning] at hs
      cases hdealer : s.dealer with
      | nil =>
        rw [hdealer] at hs
        cases hs
      | cons pkt rest =>
        rw [hdealer] at hs
        cases hs
        exact h.stepDealer hdealer
  | servesReq =>
    dsimp only at hs
    cases hrunning : s.down.running with
    | false =>
      rw [hrunning] at hs
      cases hs
    | true =>
      rw [hrunning] at hs
      cases hreq : s.req with
      | none =>
        rw [hreq] at hs
        cases hs
      | some pkt =>
        rw [hreq] at hs
        cases hs
        exact h.stepReq hreq

/-- And so does every run. -/
theorem duplexInv_of_reach
    (h : Reach (duplexSystem env wire identD identR) (DuplexGuard env wire) s) :
    DuplexInv env wire identD identR s := by
  refine h.invariant (DuplexInv env wire identD identR) ?_ fun _ _ _ hinv hg hs => hinv.step hg hs
  rintro s ⟨quota, files, rfl⟩
  refine ⟨⟨⟨rfl, fun _ => rfl, fun _ => rfl⟩, fun _ => nofun, fun _ => nofun⟩,
    ⟨[], [], rfl, rfl, rfl, nofun⟩, nofun, ?_⟩
  exact ⟨fun _ hended => (by cases hended.1), fun _ => rfl⟩

end Steps

/-! ### A text, and then a question -/

/-- The bytes of the message that carries `"a"`. -/
def letterWire : Bytes := [8, 3, 34, 5, 8, 0, 18, 1, 97]

/-- An environment that parses them. -/
def letterEnv : Env :=
  { ackEnv with
    parse := fun raw => if raw = letterWire then .ok (noteOf ['a']) else .ok {}
    serialize := fun _ => [] }

/-- A serializer that writes them. -/
def letterBytes (M : FacMessage) : Bytes := if M.beMsg = [] then [] else letterWire

end Furnace.Fac
