import Furnace.App.BatchObj
import Furnace.Vmi.PluginRegistry

namespace Furnace.App

open Furnace.Proto Furnace.Lib Furnace.Vmi

/-!
# The registrations of the frontend

`FE.event_register`, `event_clear`, `start_syscall` and `stop_syscall`, with the request each
of them sends to the VMI partition and the reply it reads.  The frontend keeps the
registrations that the VMI partition knows in `eventlist`, under the identifiers that the VMI
partition gives out, and its own timers and the backend callback in `timerlist`, under
identifiers of its own.

A callback is known by the registration that installed it, and a registration by the
`event_item` that the VMI partition allocates for it.

* `ApiCall.run` — one API call, together with the VMI partition's part of it.
* `ApiStep` — everything an API call can do to `eventlist` and to the `events` map.
* `api_step` — every API call that returns or raises is such a step.
-/

variable {G : Type}

/-! ### State -/

/-- The event types that an app can name. -/
inductive EventType
  | reg | int | mem | timer | be | other
  deriving DecidableEq, Repr

/-- The event types that live in `eventlist`. -/
inductive VmiType
  | reg | int | syscallPlugin
  deriving DecidableEq, Repr

/-- The event types that live in `timerlist`. -/
inductive LocalType
  | timer | be
  deriving DecidableEq, Repr

/-- `ACTIVE` and `INACTIVE`. -/
inductive EventStatus
  | active | inactive
  deriving DecidableEq, Repr

/-- An entry of `eventlist`; `callback` is the registration that installed the callback. -/
structure Entry where
  eventType : VmiType
  callback : ℕ
  status : EventStatus
  deriving DecidableEq, Repr

/-- An entry of `timerlist`. -/
structure TimerEntry where
  eventType : LocalType
  status : EventStatus
  deriving DecidableEq, Repr

/-- The frontend: the identity of its REQ socket, and its registrations. -/
structure FE where
  identR : Bytes
  eventlist : AList fun _ : ℕ => Entry := ∅
  timerlist : AList fun _ : ℕ => TimerEntry := ∅
  nextTid : ℕ := 0
  beInfo : Bool := false

/-- What an API function returns. -/
inductive Returned
  | identifier (id : ℕ) | done | status (st : Int32) | nothing
  deriving DecidableEq, Repr

/-- The end of an API call: it returns or raises. -/
structure Answer (G : Type) where
  vmi : World G
  fe : FE
  result : Except PyError Returned

/-! ### Requests and replies -/

/-- `vmsg_helper` or `vmmsg_helper`, then `send_default_reply`: a message of one call. -/
def FE.exchange (fe : FE) (env : Env G) (c : Call) (m : Msg) (w : World G) :
    Except Fault (World G × VMIMessage) :=
  processProtobuf env (VMIMessage.empty.addCall c m) { w with scratchIdent := fe.identR }

/-- `mget_status`: of a repeated reply. -/
def mgetStatus (c : Call) (reply : VMIMessage) : Except PyError Int32 :=
  match (reply.sub c.replyNum)[0]? with
  | some m => .ok ((m.i32? .status).getD 0)
  | none => .error .indexError

/-- `get_status`: of a singular reply. -/
def getStatus (c : Call) (reply : VMIMessage) : Int32 :=
  (((reply.sub c.replyNum).headD Msg.empty).i32? .status).getD 0

/-- The `identifier` of the only reply sub-message. -/
def replyIdentifier (c : Call) (reply : VMIMessage) : ℕ :=
  identifier ((reply.sub c.replyNum).headD Msg.empty)

/-! ### `event_register` -/

/-- `ACCEPT_SYNC`. -/
def acceptSync : ℕ → Except PyError ℕ
  | 30 => .ok fSync
  | 31 => .ok fAsync
  | _ => .error .exception

/-- `ACCEPT_REG`. -/
def acceptReg : ℕ → Except PyError ℕ
  | 1 => .ok fCr3
  | _ => .error .exception

/-- `edata`, the argument of `event_register`; a key that is missing is `none`, and
    `timeValue` tells whether the time value is there and a number. -/
structure EventData where
  callable : Bool := true
  eventType : EventType
  timeValue : Bool := false
  sync : Option ℕ := none
  regType : Option ℕ := none
  bpPid : Option Int32 := none
  bpAddr : Option UInt64 := none

/-- `edata.pop(key)`. -/
def pop {α : Type} : Option α → Except PyError α
  | some v => .ok v
  | none => .error .keyError

/-- The checks on a registration that goes to the VMI partition, and its request. -/
def EventData.request (d : EventData) : Except PyError (VmiType × Msg) := do
  let sync ← pop d.sync
  let syncState ← acceptSync sync
  let m := Msg.empty.set .syncState (.enum syncState)
  match d.eventType with
  | .reg => do
    let regType ← pop d.regType
    let regValue ← acceptReg regType
    .ok (.reg, (m.set .eventType (.enum fReg)).set .regValue (.enum regValue))
  | .int => do
    let bpPid ← pop d.bpPid
    let bpAddr ← pop d.bpAddr
    -- pid 0 is the kernel, whose addresses are sign-extended
    let bpAddr := if bpPid = 0 then bpAddr ||| 0xffff000000000000 else bpAddr
    .ok (.int, (((m.set .eventType (.enum fInt)).set .bpPid (.i32 bpPid)).set .bpName
      (.str (literal "furnace"))).set .bpAddr (.u64 bpAddr))
  -- `MEM` is not supported, and any other type is unknown
  | _ => .error .exception

/-- `event_register_cr3` and `event_register_int`, and what `event_register` does with the
    identifier that they return. -/
def FE.registerVmi (fe : FE) (env : Env G) (eventType : VmiType) (m : Msg) (w : World G) :
    Except Fault (Answer G) := do
  -- the event that the VMI partition is going to allocate
  let callback := w.nextAlloc
  let (w, reply) ← fe.exchange env .eventRegister m w
  match mgetStatus .eventRegister reply with
  | .error e => .ok ⟨w, fe, .error e⟩
  | .ok status =>
    if status = 0 then
      -- an entry that is still there under the identifier is overwritten
      let eid := replyIdentifier .eventRegister reply
      let candidate : Entry := ⟨eventType, callback, .active⟩
      .ok ⟨w, { fe with eventlist := fe.eventlist.insert eid candidate }, .ok (.identifier eid)⟩
    else .ok ⟨w, fe, .error .exception⟩

/-- `event_register`. -/
def FE.eventRegister (fe : FE) (env : Env G) (d : EventData) (w : World G) :
    Except Fault (Answer G) :=
  if !d.callable then .ok ⟨w, fe, .error .exception⟩
  else match d.eventType with
  | .be =>
    let tid := fe.nextTid
    .ok ⟨w, { fe with nextTid := tid + 1, timerlist := fe.timerlist.insert tid ⟨.be, .active⟩,
                      beInfo := true }, .ok (.identifier tid)⟩
  | .timer =>
    let tid := fe.nextTid
    if d.timeValue then
      .ok ⟨w, { fe with nextTid := tid + 1,
                        timerlist := fe.timerlist.insert tid ⟨.timer, .active⟩ },
        .ok (.identifier tid)⟩
    -- `float` raises after the identifier has been taken
    else .ok ⟨w, { fe with nextTid := tid + 1 }, .error .exception⟩
  | _ =>
    match d.request with
    | .error e => .ok ⟨w, fe, .error e⟩
    | .ok (eventType, m) => fe.registerVmi env eventType m w

/-! ### `event_clear` -/

/-- `eventlist[eid]["status"] = INACTIVE`. -/
def FE.deactivate (fe : FE) (eid : ℕ) (e : Entry) : FE :=
  { fe with eventlist := fe.eventlist.insert eid { e with status := .inactive } }

/-- `event_clear`. -/
def FE.eventClear (fe : FE) (env : Env G) (eid : ℕ) (w : World G) : Except Fault (Answer G) :=
  match fe.eventlist.lookup eid with
  | some e =>
    -- protobuf does not take the number for a `uint64`
    if 2 ^ 64 ≤ eid then .ok ⟨w, fe, .error .valueError⟩
    else do
      let m := Msg.empty.set .identifier (.u64 (.ofNat eid))
      let (w, reply) ← fe.exchange env .eventClear m w
      match mgetStatus .eventClear reply with
      | .error e => .ok ⟨w, fe, .error e⟩
      | .ok status =>
        -- the entry stays, inactive, until the main loop cleans up
        if status = 0 then .ok ⟨w, fe.deactivate eid e, .ok .done⟩
        else .ok ⟨w, fe, .error .exception⟩
  | none =>
    match fe.timerlist.lookup eid with
    | some ⟨.timer, _⟩ =>
      .ok ⟨w, { fe with timerlist := fe.timerlist.insert eid ⟨.timer, .inactive⟩ }, .ok .done⟩
    -- the backend callback cannot be cleared, and an unknown identifier raises
    | some ⟨.be, _⟩ | none => .ok ⟨w, fe, .error .exception⟩

/-! ### `start_syscall` and `stop_syscall` -/

/-- `start_syscall`. -/
def FE.startSyscall (fe : FE) (env : Env G) (callable : Bool) (sync : ℕ) (w : World G) :
    Except Fault (Answer G) :=
  if !callable then .ok ⟨w, fe, .error .exception⟩
  else match acceptSync sync with
  | .error e => .ok ⟨w, fe, .error e⟩
  | .ok syncState => do
    let callback := w.nextAlloc
    let (w, reply) ← fe.exchange env .startSyscall (Msg.empty.set .syncState (.enum syncState)) w
    -- a reply without a status reads as `VMI_SUCCESS`
    if getStatus .startSyscall reply = 0 then
      let eid := replyIdentifier .startSyscall reply
      let candidate : Entry := ⟨.syscallPlugin, callback, .active⟩
      .ok ⟨w, { fe with eventlist := fe.eventlist.insert eid candidate }, .ok (.identifier eid)⟩
    else .ok ⟨w, fe, .error .exception⟩

/-- `stop_syscall`: the identifier only chooses the entry that becomes inactive. -/
def FE.stopSyscall (fe : FE) (env : Env G) (eid : ℕ) (w : World G) : Except Fault (Answer G) :=
  match fe.eventlist.lookup eid with
  | none => .ok ⟨w, fe, .error .exception⟩
  | some e => do
    -- the request does not carry the identifier, and the entry may be any event's
    let (w, reply) ← fe.exchange env .stopSyscall Msg.empty w
    let status := getStatus .stopSyscall reply
    .ok ⟨w, if status = 0 then fe.deactivate eid e else fe, .ok (.status status)⟩

/-! ### API calls -/

/-- The API calls that reach the registries, and those that start and stop the events. -/
inductive ApiCall
  | eventRegister (d : EventData) | eventClear (eid : ℕ)
  | startSyscall (callable : Bool) (sync : ℕ) | stopSyscall (eid : ℕ)
  | eventsStart | eventsStop

/-- An API call. -/
def ApiCall.run (env : Env G) (fe : FE) (w : World G) : ApiCall → Except Fault (Answer G)
  | .eventRegister d => fe.eventRegister env d w
  | .eventClear eid => fe.eventClear env eid w
  | .startSyscall callable sync => fe.startSyscall env callable sync w
  | .stopSyscall eid => fe.stopSyscall env eid w
  | .eventsStart => do
    let (w, _) ← fe.exchange env .eventsStart (Msg.empty.set .status (.i32 1)) w
    .ok ⟨w, fe, .ok .nothing⟩
  | .eventsStop => do
    let (w, _) ← fe.exchange env .eventsStop (Msg.empty.set .status (.i32 1)) w
    .ok ⟨w, fe, .ok .nothing⟩

/-! ### One exchange -/

/-- The call type of a registry call. -/
def registryCall : RegistryCall → Call
  | .eventRegister => .eventRegister
  | .eventClear => .eventClear
  | .startSyscall => .startSyscall
  | .stopSyscall => .stopSyscall

/-- The sub-messages of a reply that was recorded in an empty message. -/
theorem record_empty_sub (n loc : ℕ) (r : Reply) :
    (record VMIMessage.empty n r loc).sub n = r.entry.toList := by
  rw [record_sub]
  cases r.entry with
  | none => rfl
  | some m =>
    -- one entry, whether the field is repeated or not
    show (if n = n then VMIMessage.putList n [] m else _) = [m]
    rw [if_pos rfl, VMIMessage.putList]
    by_cases hrep : isRepeated n = true
    · simp [hrep]
    · simp [hrep]

/-- The world and the reply of an exchange are those of its handler. -/
theorem exchange_record {env : Env G} {fe : FE} {c : Call} {m : Msg} {w w' : World G}
    {reply : VMIMessage} (h : fe.exchange env c m w = .ok (w', reply)) :
    ∃ l r, (handlerOf c).run c env 0 (VMIMessage.empty.addCall c m) VMIMessage.empty {}
        { w with scratchIdent := fe.identR } = .ok (l, w', r) ∧
      reply = record VMIMessage.empty c.replyNum r 0 := by
  unfold FE.exchange at h
  rw [processProtobuf_addCall] at h
  obtain ⟨⟨l, w₁, r⟩, hrun, heq⟩ := map_eq_ok.mp h
  obtain ⟨rfl, rfl⟩ := Prod.mk.inj heq
  exact ⟨l, r, hrun, rfl⟩

theorem exchange_run {env : Env G} {fe : FE} {c : Call} {m : Msg} {w w' : World G}
    {reply : VMIMessage} (h : fe.exchange env c m w = .ok (w', reply)) :
    ∃ l r, (handlerOf c).run c env 0 (VMIMessage.empty.addCall c m) VMIMessage.empty {}
        { w with scratchIdent := fe.identR } = .ok (l, w', r) ∧
      reply.sub c.replyNum = r.entry.toList := by
  obtain ⟨l, r, hrun, rfl⟩ := exchange_record h
  exact ⟨l, r, hrun, record_empty_sub _ _ r⟩

/-- Starting or stopping the events sets the flag. -/
theorem exchange_events {env : Env G} {fe : FE} {c : Call} {b : Bool} {m : Msg} {w w' : World G}
    {reply : VMIMessage} (hc : (handlerOf c : Handler G) = ⟨false, eventsBody b⟩)
    (h : fe.exchange env c m w = .ok (w', reply)) :
    w' = { w with scratchIdent := fe.identR, eventsActive := b } := by
  obtain ⟨l, r, hrun, -⟩ := exchange_run h
  rw [hc] at hrun
  cases hrun
  rfl

/-- Pausing or resuming the guest is one external operation. -/
theorem exchange_effect {env : Env G} {fe : FE} {c : Call} {op : ExtOp} {m : Msg}
    {w w' : World G} {reply : VMIMessage}
    (hc : (handlerOf c : Handler G) = ⟨false, effectBody op⟩)
    (h : fe.exchange env c m w = .ok (w', reply)) :
    w' = ({ w with scratchIdent := fe.identR }.exec env op).2 := by
  obtain ⟨l, r, hrun, -⟩ := exchange_run h
  rw [hc] at hrun
  cases hrun
  rfl

/-- **A registry request of the frontend is one registry request.** -/
theorem exchange_registry_record {env : Env G} {fe : FE} {c : RegistryCall} {m : Msg}
    {w w' : World G} {reply : VMIMessage}
    (h : fe.exchange env (registryCall c) m w = .ok (w', reply)) :
    ∃ r, c.handler.core env (.ok m) { w with scratchIdent := fe.identR } = .ok (w', r) ∧
      reply = record VMIMessage.empty (registryCall c).replyNum r 0 := by
  have hhandler : (handlerOf (registryCall c) : Handler G) = c.handler := by
    cases c <;> rfl
  have hlinked : (handlerOf (registryCall c) : Handler G).linked = false := by
    cases c <;> rfl
  unfold FE.exchange at h
  rw [processProtobuf_addCall_body hlinked, hhandler, ← c.core_eq_body] at h
  obtain ⟨⟨w₁, r⟩, hcore, heq⟩ := map_eq_ok.mp h
  cases heq
  exact ⟨r, hcore, rfl⟩

theorem exchange_registry {env : Env G} {fe : FE} {c : RegistryCall} {m : Msg} {w w' : World G}
    {reply : VMIMessage} (h : fe.exchange env (registryCall c) m w = .ok (w', reply)) :
    ∃ r, c.handler.core env (.ok m) { w with scratchIdent := fe.identR } = .ok (w', r) ∧
      reply.sub (registryCall c).replyNum = r.entry.toList := by
  obtain ⟨r, hcore, rfl⟩ := exchange_registry_record h
  exact ⟨r, hcore, record_empty_sub _ _ r⟩

/-! ### What an API call can do -/

/-- The registry is as it was, up to events that were allocated in vain. -/
structure SameRegistry (w w' : World G) : Prop where
  events : w'.events = w.events
  owner : w'.syscallPluginOwner = w.syscallPluginOwner
  eventId : w'.syscallPluginEventId = w.syscallPluginEventId
  nextAlloc : w.nextAlloc ≤ w'.nextAlloc

/-- **What one API call does** to `eventlist` and to the registry. -/
inductive ApiStep (env : Env G) (fe : FE) (w : World G) : ApiCall → Answer G → Prop
  /-- The call fails, or is none of the VMI partition's business. -/
  | quiet {a : ApiCall} {ans : Answer G} (hlist : ans.fe.eventlist = fe.eventlist)
      (hsame : SameRegistry w ans.vmi)
      (hclear : ∀ eid, a = .eventClear eid → ans.result = .ok .done →
        fe.eventlist.lookup eid = none) : ApiStep env fe w a ans
  /-- An event is registered on both sides under the lowest free identifier. -/
  | registered {d : EventData} {ans : Answer G} (eventType : VmiType) (ei : EventItem)
      (hvmi : d.eventType ≠ .timer ∧ d.eventType ≠ .be)
      (hroom : w.events.entries.length < maxEvents) (hid : ei.id = firstFree w.events)
      (hobj : ei.obj = w.nextAlloc)
      (hlist : ans.fe.eventlist = fe.eventlist.insert ei.id ⟨eventType, w.nextAlloc, .active⟩)
      (hevents : ans.vmi.events = w.events.insert ei.id ei)
      (howner : ans.vmi.syscallPluginOwner = w.syscallPluginOwner)
      (heventId : ans.vmi.syscallPluginEventId = w.syscallPluginEventId)
      (halloc : ans.vmi.nextAlloc = w.nextAlloc + 1) : ApiStep env fe w (.eventRegister d) ans
  /-- An event is cleared on both sides. -/
  | cleared {eid : ℕ} {ans : Answer G} (e : Entry) (ei : EventItem)
      (he : fe.eventlist.lookup eid = some e) (hei : w.events.lookup eid = some ei)
      (hlist : ans.fe.eventlist = fe.eventlist.insert eid { e with status := .inactive })
      (hevents : ans.vmi.events = w.events.erase ei.id)
      (howner : ans.vmi.syscallPluginOwner = w.syscallPluginOwner)
      (heventId : ans.vmi.syscallPluginEventId = w.syscallPluginEventId)
      (halloc : ans.vmi.nextAlloc = w.nextAlloc) (hresult : ans.result = .ok .done) :
      ApiStep env fe w (.eventClear eid) ans
  /-- The VMI partition has no memory for the plugin; its reply reads as a success. -/
  | unallocated {callable : Bool} {sync : ℕ} {ans : Answer G}
      (howner : w.syscallPluginOwner = none)
      (hmalloc : (env.exec (.malloc .eventItem) w.guest).1 = false)
      (hlist : ans.fe.eventlist = fe.eventlist.insert 0 ⟨.syscallPlugin, w.nextAlloc, .active⟩)
      (hsame : SameRegistry w ans.vmi) : ApiStep env fe w (.startSyscall callable sync) ans
  /-- The plugin is started on both sides. -/
  | started {callable : Bool} {sync : ℕ} {ans : Answer G} (ei : EventItem)
      (howner : w.syscallPluginOwner = none) (hid : ei.id = firstFree w.events)
      (hlist : ans.fe.eventlist =
        fe.eventlist.insert (UInt64.ofNat ei.id).toNat ⟨.syscallPlugin, w.nextAlloc, .active⟩)
      (hevents : ans.vmi.events = w.events.insert ei.id ei)
      (howner' : ans.vmi.syscallPluginOwner ≠ none) :
      ApiStep env fe w (.startSyscall callable sync) ans
  /-- The plugin is stopped; the frontend takes the identifier it was given for the
      plugin's. -/
  | stopped {eid : ℕ} {ans : Answer G} (e : Entry) (he : fe.eventlist.lookup eid = some e)
      (howner : w.syscallPluginOwner ≠ none) (hmem : w.syscallPluginEventId ∈ w.events)
      (hlist : ans.fe.eventlist = fe.eventlist.insert eid { e with status := .inactive })
      (hevents : ans.vmi.events = w.events.erase w.syscallPluginEventId)
      (howner' : ans.vmi.syscallPluginOwner = none) : ApiStep env fe w (.stopSyscall eid) ans

/-- The status that the frontend reads from a failed reply is not `VMI_SUCCESS`. -/
theorem mgetStatus_failed {c : Call} {r : Reply} {reply : VMIMessage} (hr : r.Failed)
    (hsub : reply.sub c.replyNum = r.entry.toList) : mgetStatus c reply ≠ .ok 0 := by
  unfold mgetStatus
  rw [hsub]
  cases hentry : r.entry with
  | none => simp
  | some m =>
    show Except.ok ((m.i32? .status).getD 0) ≠ _
    rw [hr.2 m hentry]
    simp

theorem getStatus_failed {c : Call} {r : Reply} {reply : VMIMessage} (hr : r.Failed)
    (hentry : r.entry ≠ none) (hsub : reply.sub c.replyNum = r.entry.toList) :
    getStatus c reply ≠ 0 := by
  unfold getStatus
  rw [hsub]
  obtain ⟨m, hm⟩ := Option.ne_none_iff_exists'.mp hentry
  rw [hm]
  show (m.i32? .status).getD 0 ≠ 0
  rw [hr.2 m hm]
  simp

/-! ### Every call is such a step -/

/-- The registry, and what the plugin remembers, is as it was, up to events that were
    allocated in vain. -/
structure SamePlugin (w w' : World G) : Prop extends SameRegistry w w' where
  pluginEi : w'.syscallPluginEi = w.syscallPluginEi

theorem SamePlugin.refl (w : World G) : SamePlugin w w := ⟨⟨rfl, rfl, rfl, le_rfl⟩, rfl⟩

/-- **What one API call does** to the frontend, to the registry and to the plugin, with its
    result. -/
inductive CallStep (env : Env G) (fe : FE) (w : World G) : ApiCall → Answer G → Prop
  /-- The call raises, or registers and clears nothing. -/
  | quiet {a : ApiCall} {ans : Answer G} (n : ℕ) (hn : fe.nextTid ≤ n)
      (hfe : ans.fe = { fe with nextTid := n }) (hsame : SamePlugin w ans.vmi)
      (hresult : ∀ id, ans.result ≠ .ok (.identifier id)) (hclear : ∀ eid, a ≠ .eventClear eid) :
      CallStep env fe w a ans
  /-- A timer or the backend callback is registered under an identifier of the frontend's. -/
  | timer {d : EventData} {ans : Answer G} (kind : LocalType) (be : Bool)
      (hkind : d.eventType = .timer ∧ kind = .timer ∨ d.eventType = .be ∧ kind = .be)
      (hfe : ans.fe = { fe with nextTid := fe.nextTid + 1, beInfo := be
                                timerlist := fe.timerlist.insert fe.nextTid ⟨kind, .active⟩ })
      (hvmi : ans.vmi = w) (hresult : ans.result = .ok (.identifier fe.nextTid)) :
      CallStep env fe w (.eventRegister d) ans
  /-- An event is registered on both sides under the lowest free identifier. -/
  | registered {d : EventData} {ans : Answer G} (eventType : VmiType) (ei : EventItem)
      (hvmi : d.eventType ≠ .timer ∧ d.eventType ≠ .be)
      (hroom : w.events.entries.length < maxEvents) (hid : ei.id = firstFree w.events)
      (hobj : ei.obj = w.nextAlloc) (hevent : ei.event.isSome)
      (hfe : ans.fe =
        { fe with eventlist := fe.eventlist.insert ei.id ⟨eventType, w.nextAlloc, .active⟩ })
      (hevents : ans.vmi.events = w.events.insert ei.id ei)
      (howner : ans.vmi.syscallPluginOwner = w.syscallPluginOwner)
      (heventId : ans.vmi.syscallPluginEventId = w.syscallPluginEventId)
      (hpluginEi : ans.vmi.syscallPluginEi = w.syscallPluginEi)
      (halloc : ans.vmi.nextAlloc = w.nextAlloc + 1)
      (hresult : ans.result = .ok (.identifier ei.id)) : CallStep env fe w (.eventRegister d) ans
  /-- A timer is cleared, active or not. -/
  | timerCleared {eid : ℕ} {ans : Answer G} (hnone : fe.eventlist.lookup eid = none)
      (ht : ∃ status, fe.timerlist.lookup eid = some ⟨.timer, status⟩)
      (hfe : ans.fe = { fe with timerlist := fe.timerlist.insert eid ⟨.timer, .inactive⟩ })
      (hvmi : ans.vmi = w) (hresult : ans.result = .ok .done) :
      CallStep env fe w (.eventClear eid) ans
  /-- An event is cleared on both sides. -/
  | cleared {eid : ℕ} {ans : Answer G} (e : Entry) (ei : EventItem)
      (he : fe.eventlist.lookup eid = some e) (hei : w.events.lookup eid = some ei)
      (hfe : ans.fe = fe.deactivate eid e) (hevents : ans.vmi.events = w.events.erase ei.id)
      (howner : ans.vmi.syscallPluginOwner = w.syscallPluginOwner)
      (heventId : ans.vmi.syscallPluginEventId = w.syscallPluginEventId)
      (hpluginEi : ans.vmi.syscallPluginEi = w.syscallPluginEi)
      (halloc : ans.vmi.nextAlloc = w.nextAlloc) (hresult : ans.result = .ok .done) :
      CallStep env fe w (.eventClear eid) ans
  /-- Nothing is cleared: there is nothing under the identifier that can be. -/
  | notCleared {eid : ℕ} {ans : Answer G} (hfe : ans.fe = fe) (hsame : SamePlugin w ans.vmi)
      (hresult : ∃ e, ans.result = .error e)
      (hevent : eid ∈ fe.eventlist → 2 ^ 64 ≤ eid ∨ eid ∉ w.events)
      (htimer : eid ∉ fe.eventlist → ∀ status, fe.timerlist.lookup eid ≠ some ⟨.timer, status⟩) :
      CallStep env fe w (.eventClear eid) ans
  /-- The VMI partition has no memory for the plugin; its reply reads as a success. -/
  | unallocated {callable : Bool} {sync : ℕ} {ans : Answer G}
      (howner : w.syscallPluginOwner = none)
      (hmalloc : (env.exec (.malloc .eventItem) w.guest).1 = false)
      (hlist : ans.fe.eventlist = fe.eventlist.insert 0 ⟨.syscallPlugin, w.nextAlloc, .active⟩)
      (hsame : SameRegistry w ans.vmi) : CallStep env fe w (.startSyscall callable sync) ans
  /-- The plugin is started on both sides. -/
  | started {callable : Bool} {sync : ℕ} {ans : Answer G} (ei : EventItem)
      (howner : w.syscallPluginOwner = none) (hid : ei.id = firstFree w.events)
      (hobj : ei.obj = w.nextAlloc) (hevent : ei.event = none)
      (hfe : ans.fe = { fe with eventlist := fe.eventlist.insert (UInt64.ofNat ei.id).toNat
                                  ⟨.syscallPlugin, w.nextAlloc, .active⟩ })
      (hevents : ans.vmi.events = w.events.insert ei.id ei)
      (howner' : ans.vmi.syscallPluginOwner ≠ none)
      (heventId : ans.vmi.syscallPluginEventId = ei.id)
      (hpluginEi : ans.vmi.syscallPluginEi = some ei.obj)
      (halloc : ans.vmi.nextAlloc = w.nextAlloc + 1)
      (hresult : ans.result = .ok (.identifier (UInt64.ofNat ei.id).toNat)) :
      CallStep env fe w (.startSyscall callable sync) ans
  /-- The plugin is stopped; the frontend takes the identifier it was given for the
      plugin's. -/
  | stopped {eid : ℕ} {ans : Answer G} (e : Entry) (he : fe.eventlist.lookup eid = some e)
      (howner : w.syscallPluginOwner ≠ none) (hmem : w.syscallPluginEventId ∈ w.events)
      (hlist : ans.fe.eventlist = fe.eventlist.insert eid { e with status := .inactive })
      (hevents : ans.vmi.events = w.events.erase w.syscallPluginEventId)
      (howner' : ans.vmi.syscallPluginOwner = none) : CallStep env fe w (.stopSyscall eid) ans

section Steps

variable {env : Env G} {fe : FE} {w : World G}

/-- A call that raises before it sends anything. -/
theorem CallStep.raised {a : ApiCall} {e : PyError} (hclear : ∀ eid, a ≠ .eventClear eid) :
    CallStep env fe w a ⟨w, fe, .error e⟩ :=
  .quiet fe.nextTid le_rfl rfl (.refl w) nofun hclear

/-- A failed request leaves the registry and the plugin alone. -/
theorem samePlugin_refused {w' : World G} {ident : Bytes} {alloc : ℕ} {fl : List ℕ} {g : G}
    {new : List ExtOp}
    (hfl : alloc = w.nextAlloc ∧ fl = [] ∨
      alloc = w.nextAlloc + 1 ∧ (fl = [] ∨ fl = [w.nextAlloc]))
    (hw : w' = { w with guest := g, scratchIdent := ident, ops := w.ops ++ new,
                        nextAlloc := alloc, freed := w.freed ++ fl }) : SamePlugin w w' := by
  subst hw
  refine ⟨⟨rfl, rfl, rfl, ?_⟩, rfl⟩
  show w.nextAlloc ≤ alloc
  rcases hfl with ⟨rfl, -⟩ | ⟨rfl, -⟩ <;> omega

/-- A registration whose reply does not read as a success raises. -/
theorem registerVmi_raised_of_status {eventType : VmiType} {m : Msg} {w' : World G}
    {reply : VMIMessage} {ans : Answer G}
    (hex : fe.exchange env .eventRegister m w = .ok (w', reply))
    (hstatus : mgetStatus .eventRegister reply ≠ .ok 0)
    (h : fe.registerVmi env eventType m w = .ok ans) : ∃ e, ans = ⟨w', fe, .error e⟩ := by
  unfold FE.registerVmi at h
  rw [hex, ok_bind] at h
  dsimp only at h
  generalize mgetStatus .eventRegister reply = status at h hstatus
  cases status with
  | error e =>
    cases h
    exact ⟨e, rfl⟩
  | ok st =>
    have hne : st ≠ 0 := fun h0 => hstatus (congrArg Except.ok h0)
    dsimp only at h
    rw [if_neg hne] at h
    cases h
    exact ⟨.exception, rfl⟩

/-- So does the clearing of a registered event. -/
theorem eventClear_raised_of_status {eid : ℕ} {w' : World G} {reply : VMIMessage}
    {ans : Answer G} (hmem : eid ∈ fe.eventlist) (hlt : ¬2 ^ 64 ≤ eid)
    (hex : fe.exchange env .eventClear (Msg.empty.set .identifier (.u64 (.ofNat eid))) w =
      .ok (w', reply)) (hstatus : mgetStatus .eventClear reply ≠ .ok 0)
    (h : fe.eventClear env eid w = .ok ans) : ∃ e, ans = ⟨w', fe, .error e⟩ := by
  obtain ⟨e, he⟩ := Option.isSome_iff_exists.mp (AList.lookup_isSome.mpr hmem)
  unfold FE.eventClear at h
  rw [he] at h
  dsimp only at h
  rw [if_neg hlt, hex, ok_bind] at h
  dsimp only at h
  generalize mgetStatus .eventClear reply = status at h hstatus
  cases status with
  | error e' =>
    cases h
    exact ⟨e', rfl⟩
  | ok st =>
    have hne : st ≠ 0 := fun h0 => hstatus (congrArg Except.ok h0)
    dsimp only at h
    rw [if_neg hne] at h
    cases h
    exact ⟨.exception, rfl⟩

theorem registerVmi_step {d : EventData} {eventType : VmiType} {m : Msg} {ans : Answer G}
    (hvmi : d.eventType ≠ .timer ∧ d.eventType ≠ .be)
    (h : fe.registerVmi env eventType m w = .ok ans) :
    CallStep env fe w (.eventRegister d) ans := by
  have hrun := h
  unfold FE.registerVmi at h
  obtain ⟨⟨w', reply⟩, hex, h⟩ := bind_eq_ok.mp h
  have hex' : fe.exchange env (registryCall .eventRegister) m w = .ok (w', reply) := hex
  obtain ⟨r, hcore, hsub⟩ := exchange_registry hex'
  have hsub : reply.sub (Call.replyNum .eventRegister) = r.entry.toList := hsub
  -- a registration is refused, or it goes into the lowest free slot
  have hstep := registry_step hcore
  cases hstep with
  | refused g new alloc fl hr hentry hnew hfl hw =>
    have hsame : SamePlugin w w' := samePlugin_refused hfl hw
    obtain ⟨e, rfl⟩ := registerVmi_raised_of_status hex (mgetStatus_failed hr hsub) hrun
    exact .quiet fe.nextTid le_rfl rfl hsame nofun nofun
  | registered g new ei hroom hid hobj hevent hactive hsync hnew hw =>
    have hstatus : mgetStatus .eventRegister reply = .ok 0 := by
      unfold mgetStatus
      rw [hsub]
      rfl
    -- the identifier is below the limit on the number of events
    have hlt : ei.id < 2 ^ 64 := by
      have hle := firstFree_le_length w.events
      have hroom : w.events.entries.length < 200 := hroom
      have hid : ei.id = firstFree w.events := hid
      omega
    have heid : replyIdentifier .eventRegister reply = ei.id := by
      unfold replyIdentifier
      rw [hsub]
      show (UInt64.ofNat ei.id).toNat = ei.id
      rw [UInt64.toNat_ofNat']
      exact Nat.mod_eq_of_lt hlt
    dsimp only at h
    rw [hstatus] at h
    dsimp only at h
    rw [if_pos rfl, heid] at h
    cases h
    subst hw
    exact .registered eventType ei hvmi hroom hid hobj hevent rfl rfl rfl rfl rfl rfl rfl

theorem eventRegister_callStep {d : EventData} {ans : Answer G}
    (h : fe.eventRegister env d w = .ok ans) : CallStep env fe w (.eventRegister d) ans := by
  -- the event types of the VMI partition share one branch
  have hstep : d.eventType ≠ .timer ∧ d.eventType ≠ .be → ∀ ans,
      (match d.request with
      | .error e => .ok ⟨w, fe, .error e⟩
      | .ok (eventType, m) => fe.registerVmi env eventType m w :
        Except Fault (Answer G)) = .ok ans → CallStep env fe w (.eventRegister d) ans := by
    intro hvmi ans h
    split at h
    · cases h
      exact .raised nofun
    · exact registerVmi_step hvmi h
  unfold FE.eventRegister at h
  split at h
  · cases h
    exact .raised nofun
  cases htype : d.eventType with
  | be =>
    rw [htype] at h
    cases h
    exact .timer .be true (.inr ⟨htype, rfl⟩) rfl rfl rfl
  | timer =>
    rw [htype] at h
    dsimp only at h
    split at h
    · cases h
      exact .timer .timer fe.beInfo (.inl ⟨htype, rfl⟩) rfl rfl rfl
    · -- the identifier has been taken all the same
      cases h
      exact .quiet (fe.nextTid + 1) (Nat.le_succ _) rfl (.refl w) nofun nofun
  | reg | int | mem | other =>
    rw [htype] at h
    refine hstep ?_ ans h
    rw [htype]
    exact ⟨nofun, nofun⟩

/-- The VMI partition refuses to clear only what it does not have. -/
theorem eventClear_failed {m : Msg} {w' : World G} {r : Reply} (hr : r.Failed)
    (h : eventClearBody env (.ok m) w = .ok (w', r)) : identifier m ∉ w.events := by
  obtain ⟨m', hm', h⟩ := bind_eq_ok.mp h
  cases hm'
  dsimp only at h
  split at h
  · cases h
    exact absurd rfl hr.1
  · rename_i hnone
    intro hmem
    rw [← AList.lookup_isSome] at hmem
    have hnone' : w.events.lookup (identifier m) = none := hnone
    rw [hnone'] at hmem
    cases hmem

theorem eventClear_callStep {eid : ℕ} {ans : Answer G} (h : fe.eventClear env eid w = .ok ans) :
    CallStep env fe w (.eventClear eid) ans := by
  have hrun := h
  unfold FE.eventClear at h
  cases he : fe.eventlist.lookup eid with
  | none =>
    have hnot : eid ∉ fe.eventlist := AList.lookup_eq_none.mp he
    rw [he] at h
    dsimp only at h
    split at h
    · rename_i status htimer
      cases h
      exact .timerCleared he ⟨status, htimer⟩ rfl rfl rfl
    · rename_i status hbe
      cases h
      refine .notCleared rfl (.refl w) ⟨_, rfl⟩ (fun hmem => absurd hmem hnot) ?_
      intro _ status'
      rw [hbe]
      nofun
    · rename_i hnone
      cases h
      refine .notCleared rfl (.refl w) ⟨_, rfl⟩ (fun hmem => absurd hmem hnot) ?_
      intro _ status'
      rw [hnone]
      nofun
  | some e =>
    have hmem : eid ∈ fe.eventlist := mem_of_lookup he
    rw [he] at h
    dsimp only at h
    by_cases hbig : 2 ^ 64 ≤ eid
    · rw [if_pos hbig] at h
      cases h
      exact .notCleared rfl (.refl w) ⟨_, rfl⟩ (fun _ => .inl hbig) fun hnot => absurd hmem hnot
    rw [if_neg hbig] at h
    obtain ⟨⟨w', reply⟩, hex, h⟩ := bind_eq_ok.mp h
    have hex' : fe.exchange env (registryCall .eventClear) _ w = .ok (w', reply) := hex
    obtain ⟨r, hcore, hsub⟩ := exchange_registry hex'
    have hsub : reply.sub (Call.replyNum .eventClear) = r.entry.toList := hsub
    -- the guard has seen to it that the identifier arrives as it was sent
    have hid : identifier (Msg.empty.set .identifier (.u64 (.ofNat eid))) = eid := by
      show (UInt64.ofNat eid).toNat = eid
      rw [UInt64.toNat_ofNat']
      exact Nat.mod_eq_of_lt (by omega)
    have hstep := registry_step hcore
    cases hstep with
    | refused g new alloc fl hr hentry hnew hfl hw =>
      have hsame : SamePlugin w w' := samePlugin_refused hfl hw
      have hmissing : eid ∉ w.events := by
        have hfailed := eventClear_failed hr hcore
        rw [hid] at hfailed
        exact hfailed
      obtain ⟨e', rfl⟩ :=
        eventClear_raised_of_status hmem hbig hex (mgetStatus_failed hr hsub) hrun
      exact .notCleared rfl hsame ⟨_, rfl⟩ (fun _ => .inr hmissing) fun hnot => absurd hmem hnot
    | cleared g ei hei hw =>
      have hstatus : mgetStatus .eventClear reply = .ok 0 := by
        unfold mgetStatus
        rw [hsub]
        rfl
      rw [hid] at hei
      dsimp only at h
      rw [hstatus] at h
      dsimp only at h
      rw [if_pos rfl] at h
      cases h
      subst hw
      exact .cleared e ei he hei rfl rfl rfl rfl rfl rfl rfl

/-- With memory for the pseudo-event, `start_syscall` does not give up before it sets a
    status. -/
theorem startSyscall_typed {m : Msg} {w' : World G} {r : Reply}
    (hmalloc : (env.exec (.malloc .eventItem) w.guest).1 = true)
    (h : startSyscallBody env (.ok m) w = .ok (w', r)) : r.typed = true := by
  cases startSyscall_cases h with
  | running | started => rfl
  | noMemory howner hnone =>
    have hallocated : (w.exec env (.malloc .eventItem)).1 = true := hmalloc
    rw [hallocated] at hnone
    cases hnone

theorem startSyscall_callStep {callable : Bool} {sync : ℕ} {ans : Answer G}
    (h : fe.startSyscall env callable sync w = .ok ans) :
    CallStep env fe w (.startSyscall callable sync) ans := by
  unfold FE.startSyscall at h
  split at h
  · cases h
    exact .raised nofun
  split at h
  · cases h
    exact .raised nofun
  obtain ⟨⟨w', reply⟩, hex, h⟩ := bind_eq_ok.mp h
  have hex' : fe.exchange env (registryCall .startSyscall) _ w = .ok (w', reply) := hex
  obtain ⟨r, hcore, hsub⟩ := exchange_registry hex'
  have hsub : reply.sub (Call.replyNum .startSyscall) = r.entry.toList := hsub
  have hstep := registry_step hcore
  cases hstep with
  | refused g new alloc fl hr hentry hnew hfl hw =>
    have hsame : SamePlugin w w' := samePlugin_refused hfl hw
    have hstatus : getStatus .startSyscall reply ≠ 0 :=
      getStatus_failed hr (fun hnone => by cases hentry hnone) hsub
    dsimp only at h
    rw [if_neg hstatus] at h
    cases h
    exact .quiet fe.nextTid le_rfl rfl hsame nofun nofun
  | unallocated g howner hw =>
    have hstatus : getStatus .startSyscall reply = 0 := by
      unfold getStatus
      rw [hsub]
      rfl
    have heid : replyIdentifier .startSyscall reply = 0 := by
      unfold replyIdentifier
      rw [hsub]
      rfl
    have hmalloc : (env.exec (.malloc .eventItem) w.guest).1 = false := by
      -- otherwise the handler would have come to the end, and added its type
      by_contra htrue
      have hbody : startSyscallBody env _ { w with scratchIdent := fe.identR } = _ := hcore
      have := startSyscall_typed (by simpa using htrue) hbody
      cases this
    dsimp only at h
    rw [if_pos hstatus, heid] at h
    cases h
    subst hw
    exact .unallocated howner hmalloc rfl ⟨rfl, rfl, rfl, le_rfl⟩
  | started g new ei owner howner hid hobj hevent hnew hw =>
    have hstatus : getStatus .startSyscall reply = 0 := by
      unfold getStatus
      rw [hsub]
      rfl
    have heid : replyIdentifier .startSyscall reply = (UInt64.ofNat ei.id).toNat := by
      unfold replyIdentifier
      rw [hsub]
      rfl
    dsimp only at h
    rw [if_pos hstatus, heid] at h
    cases h
    subst hw
    exact .started ei howner hid hobj hevent rfl rfl (Option.some_ne_none owner) rfl rfl rfl rfl

theorem stopSyscall_callStep {eid : ℕ} {ans : Answer G} (h : fe.stopSyscall env eid w = .ok ans) :
    CallStep env fe w (.stopSyscall eid) ans := by
  unfold FE.stopSyscall at h
  cases he : fe.eventlist.lookup eid with
  | none =>
    rw [he] at h
    cases h
    exact .raised nofun
  | some e =>
    rw [he] at h
    obtain ⟨⟨w', reply⟩, hex, h⟩ := bind_eq_ok.mp h
    have hex' : fe.exchange env (registryCall .stopSyscall) _ w = .ok (w', reply) := hex
    obtain ⟨r, hcore, hsub⟩ := exchange_registry hex'
    have hsub : reply.sub (Call.replyNum .stopSyscall) = r.entry.toList := hsub
    have hstep := registry_step hcore
    cases hstep with
    | refused g new alloc fl hr hentry hnew hfl hw =>
      have hsame : SamePlugin w w' := samePlugin_refused hfl hw
      have hstatus : getStatus .stopSyscall reply ≠ 0 :=
        getStatus_failed hr (fun hnone => by cases hentry hnone) hsub
      dsimp only at h
      rw [if_neg hstatus] at h
      cases h
      exact .quiet fe.nextTid le_rfl rfl hsame nofun nofun
    | stopped g howner hmem hw =>
      have hstatus : getStatus .stopSyscall reply = 0 := by
        unfold getStatus
        rw [hsub]
        rfl
      dsimp only at h
      rw [if_pos hstatus] at h
      cases h
      subst hw
      exact .stopped e he howner hmem rfl rfl rfl

/-- Starting and stopping the events leaves the registry alone. -/
theorem events_samePlugin {c : Call} {b : Bool} {m : Msg} {w' : World G} {reply : VMIMessage}
    (hc : (handlerOf c : Handler G) = ⟨false, eventsBody b⟩)
    (h : fe.exchange env c m w = .ok (w', reply)) : SamePlugin w w' := by
  rw [exchange_events hc h]
  exact ⟨⟨rfl, rfl, rfl, le_rfl⟩, rfl⟩

/-- **Every API call is a call step.** -/
theorem call_step {a : ApiCall} {ans : Answer G} (h : a.run env fe w = .ok ans) :
    CallStep env fe w a ans := by
  cases a with
  | eventRegister d => exact eventRegister_callStep h
  | eventClear eid => exact eventClear_callStep h
  | startSyscall callable sync => exact startSyscall_callStep h
  | stopSyscall eid => exact stopSyscall_callStep h
  | eventsStart =>
    obtain ⟨⟨w', reply⟩, hex, h⟩ := bind_eq_ok.mp h
    cases h
    exact .quiet fe.nextTid le_rfl rfl (events_samePlugin rfl hex) nofun nofun
  | eventsStop =>
    obtain ⟨⟨w', reply⟩, hex, h⟩ := bind_eq_ok.mp h
    cases h
    exact .quiet fe.nextTid le_rfl rfl (events_samePlugin rfl hex) nofun nofun

/-- What a call step does to `eventlist` and to the registry. -/
theorem CallStep.apiStep {a : ApiCall} {ans : Answer G} (h : CallStep env fe w a ans) :
    ApiStep env fe w a ans := by
  cases h with
  | quiet n hn hfe hsame hresult hclear =>
    refine .quiet ?_ hsame.toSameRegistry fun eid heq => absurd heq (hclear eid)
    rw [hfe]
  | timer kind be hkind hfe hvmi hresult =>
    refine .quiet ?_ ?_ nofun
    · rw [hfe]
    · rw [hvmi]
      exact ⟨rfl, rfl, rfl, le_rfl⟩
  | registered eventType ei hvmi hroom hid hobj hevent hfe hevents howner heventId hpluginEi halloc
      hresult =>
    refine .registered eventType ei hvmi hroom hid hobj ?_ hevents howner heventId halloc
    rw [hfe]
  | timerCleared hnone ht hfe hvmi hresult =>
    refine .quiet ?_ ?_ ?_
    · rw [hfe]
    · rw [hvmi]
      exact ⟨rfl, rfl, rfl, le_rfl⟩
    · intro eid' heq _
      cases heq
      exact hnone
  | cleared e ei he hei hfe hevents howner heventId hpluginEi halloc hresult =>
    refine .cleared e ei he hei ?_ hevents howner heventId halloc hresult
    rw [hfe]
    rfl
  | notCleared hfe hsame hresult hevent htimer =>
    refine .quiet ?_ hsame.toSameRegistry ?_
    · rw [hfe]
    · intro eid' _ hdone
      obtain ⟨e, herror⟩ := hresult
      rw [herror] at hdone
      cases hdone
  | unallocated howner hmalloc hlist hsame => exact .unallocated howner hmalloc hlist hsame
  | started ei howner hid hobj hevent hfe hevents howner' heventId hpluginEi halloc hresult =>
    refine .started ei howner hid ?_ hevents howner'
    rw [hfe]
  | stopped e he howner hmem hlist hevents howner' =>
    exact .stopped e he howner hmem hlist hevents howner'

/-- **Every API call is an API step.** -/
theorem api_step {a : ApiCall} {ans : Answer G} (h : a.run env fe w = .ok ans) :
    ApiStep env fe w a ans :=
  (call_step h).apiStep

end Steps

end Furnace.App
