import Furnace.Lib.Transition
import Furnace.Vmi.Frame

namespace Furnace.Vmi

open Furnace.Proto Furnace.Lib

/-!
# Masked events

`EVENTS_START` and `EVENTS_STOP` set `events_active`, and `EVENTS_STOP` is documented to mask
every event: they still occur but are not sent.  The callbacks of the registered events look
at the flag, and `furnace_syscall_callback` does not.

* `eventsActive_of_reaches` — the flag is what the served `EVENTS_START` and `EVENTS_STOP`
  calls make it, and no other call changes it.
* `partitionSystem` — the VMI partition with all its clients and the guest, and a record of
  what it did in order.
* `masked_reach` — the runs that trace no system call while the events are stopped.
-/

variable {G : Type}

/-! ### The flag -/

/-- `events_active` after a call of the type `t`. -/
def flagAfter (b : Bool) (t : ℕ) : Bool :=
  if t = Call.eventsStart.num then true
  else if t = Call.eventsStop.num then false
  else b

/-- Whether a body leaves `events_active` alone. -/
def Body.KeepsFlag (body : Body G) : Prop :=
  ∀ env access w w' r, body env access w = .ok (w', r) → w'.eventsActive = w.eventsActive

/-- Operations on the guest leave the flag alone. -/
theorem Body.Performs.keepsFlag {body : Body G} (h : body.Performs) : body.KeepsFlag := by
  intro env access w w' r hbody
  obtain ⟨g, new, rfl, -⟩ := (h env access w w' r hbody).frame
  rfl

/-- What a handler does to the flag is what its body does: a rejected link does nothing. -/
theorem Handler.run_flag {h : Handler G} (hb : h.body.KeepsFlag) {c : Call} {env : Env G}
    {index : ℕ} {msgIn msgOut : VMIMessage} {l l' : LinkState} {w w' : World G} {r : Reply}
    (hr : h.run c env index msgIn msgOut l w = .ok (l', w', r)) :
    w'.eventsActive = w.eventsActive := by
  rcases Handler.run_body hr with ⟨access, hbody⟩ | ⟨n, rfl, -⟩
  · exact hb _ _ _ _ _ hbody
  · rfl

/-- The registry calls leave the flag alone, also when their request cannot be read. -/
theorem RegistryCall.handler_keepsFlag (c : RegistryCall) :
    (c.handler : Handler G).body.KeepsFlag := by
  intro env access w w' r h
  rw [← c.core_eq_body] at h
  obtain ⟨m, hread⟩ := registry_read h
  cases registry_step hread with
  | refused _ _ _ _ _ _ _ _ hw => rw [hw]
  | registered _ _ _ _ _ _ _ _ _ _ hw => rw [hw]
  | cleared _ _ _ hw => rw [hw]
  | unallocated _ _ hw => rw [hw]
  | started _ _ _ _ _ _ _ _ _ hw => rw [hw]
  | stopped _ _ _ hw => rw [hw]

/-- Every handler but the two that set the flag leaves it alone. -/
theorem handlerOf_keepsFlag {c : Call} (hstart : c ≠ .eventsStart) (hstop : c ≠ .eventsStop) :
    (handlerOf c : Handler G).body.KeepsFlag := by
  cases hreg : registryCall? c with
  | none => exact (handlerOf_operates hreg hstart hstop).performs.keepsFlag
  | some rc =>
    rw [handlerOf_registryCall hreg]
    exact rc.handler_keepsFlag

/-- One call: only `EVENTS_START` and `EVENTS_STOP` change the flag. -/
theorem processSingle_flag {env : Env G} {t index : ℕ} {msgIn msgOut out : VMIMessage}
    {l l' : LinkState} {w w' : World G}
    (h : processSingle env t index msgIn msgOut l w = .ok (l', w', out)) :
    w'.eventsActive = flagAfter w.eventsActive t := by
  cases hcall : Call.ofNum? t with
  | none =>
    unfold processSingle at h
    rw [hcall] at h
    cases h
    -- the two calls are known types
    have hne : ∀ c : Call, t ≠ c.num := by
      rintro c rfl
      rw [Call.ofNum?_num] at hcall
      cases hcall
    rw [flagAfter, if_neg (hne _), if_neg (hne _)]
  | some c =>
    obtain rfl := Call.num_of_ofNum? hcall
    obtain ⟨r, hrun, -⟩ := processSingle_call h
    by_cases hstart : c = .eventsStart
    · subst hstart
      cases hrun
      rfl
    by_cases hstop : c = .eventsStop
    · subst hstop
      cases hrun
      rfl
    have hne : ∀ c', c ≠ c' → c.num ≠ c'.num := fun c' hc hn => hc (Call.num_injective hn)
    rw [flagAfter, if_neg (hne _ hstart), if_neg (hne _ hstop)]
    exact Handler.run_flag (handlerOf_keepsFlag hstart hstop) hrun

/-- **The flag follows the calls.** Where the loop over a message has got to, the flag is what
    the calls before have made of it. -/
theorem eventsActive_of_reaches {env : Env G} {msgIn : VMIMessage} {w₀ w : World G} {i : ℕ}
    {l : LinkState} {out : VMIMessage} (h : Reaches env msgIn w₀ i l w out) :
    w.eventsActive = (msgIn.type.take i).foldl flagAfter w₀.eventsActive := by
  induction h with
  | start => rfl
  | @next i t l l' w w' out out' h herr ht hs ih =>
    have htake : msgIn.type.take (i + 1) = msgIn.type.take i ++ [t] := by
      rw [List.take_add_one, ht]
      rfl
    rw [htake, List.foldl_append, ← ih]
    exact processSingle_flag hs

/-! ### The partition and its callbacks -/

/-- An `EVENT` message, and the dealer identity of the client it goes to. -/
structure EventMessage where
  identifier : ℕ
  guestPaused : Bool
  owner : Bytes

/-- What the VMI partition does: it serves a call of the type `t`, an event callback pauses
    the guest, or it sends an event. -/
inductive Deed
  | served (t : ℕ) | paused | sent (m : EventMessage)

/-- The VMI partition, and what it has done so far. -/
structure Partition (G : Type) where
  vmi : World G
  trace : List Deed := []

/-- What happens next: a message arrives, the guest runs, or a trap fires. -/
inductive Stimulus (G : Type)
  | message (ident : Bytes) (m : VMIMessage) | guestRuns (g : G) | trap (k : ℕ) | syscall

namespace Partition

/-- The second half of an event callback: a synchronous event pauses the guest, and the
    message is sent. -/
def notify (env : Env G) (s : Partition G) (id syncState : ℕ) (owner : Bytes) : Partition G :=
  if syncState = fSync then
    { vmi := (s.vmi.exec env .pause).2, trace := s.trace ++ [.paused, .sent ⟨id, true, owner⟩] }
  else { s with trace := s.trace ++ [.sent ⟨id, false, owner⟩] }

/-- `furnace_cr3_callback` and `furnace_int_callback`, for the trap of the entry `k`. -/
def trapFires (env : Env G) (s : Partition G) (k : ℕ) : Option (Partition G) :=
  match s.vmi.events.lookup k with
  | none => none
  | some ei =>
    match ei.event, ei.owner with
    | some _, some owner =>
      if s.vmi.eventsActive == false || ei.active == false then some s
      else some (s.notify env ei.id ei.syncState owner)
    -- the pseudo-event of the plugin has neither
    | _, _ => none

/-- `furnace_syscall_callback`, once the plugin has set its traps. -/
def syscallTraced (env : Env G) (s : Partition G) : Option (Partition G) :=
  if ExtOp.newSyscalls ∈ s.vmi.ops then
    match s.vmi.syscallPluginOwner with
    | some owner =>
      -- `events_active` is not looked at
      some (s.notify env s.vmi.syscallPluginEventId s.vmi.syscallPluginSyncState owner)
    -- `strlen` of the NULL owner ends the partition
    | none => none
  else none

end Partition

/-- The loop over a message has come to its end at position `i`. -/
def Finished (m : VMIMessage) (i : ℕ) (out : VMIMessage) : Prop :=
  if maxTypes < m.type.length then i = 0 else i = m.type.length ∨ out.error.isSome

/-- **One step** of the VMI partition. -/
inductive PartitionStep (env : Env G) (s : Partition G) : Stimulus G → Partition G → Prop
  | message {ident : Bytes} {m out : VMIMessage} {w' : World G} {i : ℕ} {l : LinkState}
      (hrun : processProtobuf env m { s.vmi with scratchIdent := ident } = .ok (w', out))
      (hreach : Reaches env m { s.vmi with scratchIdent := ident } i l w' out)
      (hend : Finished m i out) :
      PartitionStep env s (.message ident m) ⟨w', s.trace ++ (m.type.take i).map .served⟩
  | guestRuns (g : G) :
    PartitionStep env s (.guestRuns g) { s with vmi := { s.vmi with guest := g } }
  | trap {k : ℕ} {s' : Partition G} (h : s.trapFires env k = some s') :
      PartitionStep env s (.trap k) s'
  | syscall {s' : Partition G} (h : s.syscallTraced env = some s') :
      PartitionStep env s .syscall s'

/-- The VMI partition with all its clients and the guest. -/
def partitionSystem (env : Env G) : TransitionSystem (Partition G) (Stimulus G) where
  init s := ∃ g, s = { vmi := World.initial g }
  step := PartitionStep env

/-- Every message that does not end the partition is a step. -/
theorem partitionStep_of_message {env : Env G} {s : Partition G} {ident : Bytes}
    {m out : VMIMessage} {w' : World G}
    (h : processProtobuf env m { s.vmi with scratchIdent := ident } = .ok (w', out)) :
    ∃ s', PartitionStep env s (.message ident m) s' ∧ s'.vmi = w' := by
  obtain ⟨i, l, hreach, hend⟩ := reaches_of_processProtobuf h
  refine ⟨_, .message h hreach ?_, rfl⟩
  unfold Finished
  rcases hend with ⟨hlong, rfl⟩ | ⟨hshort, hend⟩
  · rw [if_pos hlong]
  · rw [if_neg (by omega)]
    exact hend

/-! ### Masking -/

/-- `events_active` after a deed. -/
def Deed.flagAfter (b : Bool) : Deed → Bool
  | .served t => Vmi.flagAfter b t
  | .paused | .sent _ => b

/-- The value that the calls served so far have given to `events_active`. -/
def flagOf (ds : List Deed) : Bool := ds.foldl Deed.flagAfter false

/-- Whether a deed is one of an event callback. -/
def Deed.isEvent : Deed → Bool
  | .served _ => false
  | .paused | .sent _ => true

/-- **Masking.** `events_active` is what the last `EVENTS_START` or `EVENTS_STOP` made it, and
    no event callback paused the guest or sent a message while it was false. -/
structure Masked (s : Partition G) : Prop where
  flag : s.vmi.eventsActive = flagOf s.trace
  quiet : ∀ i d, s.trace[i]? = some d → d.isEvent = true → flagOf (s.trace.take i) = true

theorem flagOf_append_served (ds : List Deed) (ts : List ℕ) :
    flagOf (ds ++ ts.map .served) = ts.foldl flagAfter (flagOf ds) := by
  unfold flagOf
  rw [List.foldl_append, List.foldl_map]
  rfl

/-- The callbacks leave the flag alone. -/
theorem flagOf_append_events (ds : List Deed) {es : List Deed} (h : ∀ d ∈ es, d.isEvent = true) :
    flagOf (ds ++ es) = flagOf ds := by
  induction es generalizing ds with
  | nil => simp
  | cons e es ih =>
    have he : Deed.flagAfter (flagOf ds) e = flagOf ds := by
      have hevent := h e (by simp)
      cases e with
      | served t => cases hevent
      | paused => rfl
      | sent m => rfl
    have hstep : flagOf (ds ++ [e]) = flagOf ds := by
      unfold flagOf at he ⊢
      rw [List.foldl_append]
      exact he
    have hrest := ih (ds ++ [e]) fun d hd => h d (by simp [hd])
    rw [List.append_assoc] at hrest
    exact hrest.trans hstep

/-- A record that grows stays masked when each new event comes while the flag is set. -/
theorem quiet_append {ds es : List Deed}
    (h : ∀ i d, ds[i]? = some d → d.isEvent = true → flagOf (ds.take i) = true)
    (hnew : ∀ j d, es[j]? = some d → d.isEvent = true → flagOf (ds ++ es.take j) = true) :
    ∀ i d, (ds ++ es)[i]? = some d → d.isEvent = true → flagOf ((ds ++ es).take i) = true := by
  intro i d hd hevent
  by_cases hi : i < ds.length
  · rw [List.getElem?_append_left hi] at hd
    rw [List.take_append_of_le_length (by omega)]
    exact h i d hd hevent
  · rw [List.getElem?_append_right (by omega)] at hd
    rw [List.take_append, List.take_of_length_le (by omega)]
    exact hnew (i - ds.length) d hd hevent

section Steps

variable {env : Env G} {s s' : Partition G}

/-- A message is served. -/
theorem Masked.message (h : Masked s) {ident : Bytes} {m out : VMIMessage} {w' : World G} {i : ℕ}
    {l : LinkState} (hreach : Reaches env m { s.vmi with scratchIdent := ident } i l w' out) :
    Masked ⟨w', s.trace ++ (m.type.take i).map .served⟩ := by
  refine ⟨?_, quiet_append h.quiet ?_⟩
  · show w'.eventsActive = _
    have hfollows := eventsActive_of_reaches hreach
    rw [flagOf_append_served, ← h.flag]
    exact hfollows
  · intro j d hd hevent
    -- serving a call is no event
    rw [List.getElem?_map] at hd
    obtain ⟨t, -, rfl⟩ := Option.map_eq_some_iff.mp hd
    cases hevent

/-- An event is sent while the flag is set. -/
theorem Masked.events (h : Masked s) (hactive : s.vmi.eventsActive = true) {w' : World G}
    {es : List Deed} (hw : w'.eventsActive = s.vmi.eventsActive)
    (hes : ∀ d ∈ es, d.isEvent = true) : Masked ⟨w', s.trace ++ es⟩ := by
  have hflag : flagOf s.trace = true := h.flag.symm.trans hactive
  refine ⟨?_, quiet_append h.quiet ?_⟩
  · show w'.eventsActive = _
    rw [flagOf_append_events _ hes, hw]
    exact h.flag
  · intro j d _ _
    rw [flagOf_append_events _ fun d hd => hes d (List.mem_of_mem_take hd)]
    exact hflag

theorem Masked.notify (h : Masked s) (hactive : s.vmi.eventsActive = true) (id syncState : ℕ)
    (owner : Bytes) : Masked (s.notify env id syncState owner) := by
  unfold Partition.notify
  split
  · have hsame : (s.vmi.exec env .pause).2.eventsActive = s.vmi.eventsActive := rfl
    apply h.events hactive hsame
    simp [Deed.isEvent]
  · have hsame : s.vmi.eventsActive = s.vmi.eventsActive := rfl
    apply h.events hactive hsame
    simp [Deed.isEvent]

theorem Masked.trapFires (h : Masked s) {k : ℕ} (hs : s.trapFires env k = some s') : Masked s' := by
  unfold Partition.trapFires at hs
  split at hs
  · cases hs
  · rename_i ei hei
    split at hs
    · split at hs
      · cases hs
        exact h
      · -- the callback has looked at the flag
        rename_i hmask
        have hactive : s.vmi.eventsActive = true := by
          cases hflag : s.vmi.eventsActive with
          | true => rfl
          | false => simp [hflag] at hmask
        cases hs
        exact h.notify hactive _ _ _
    · cases hs

theorem Masked.syscallTraced (h : Masked s) (hactive : s.vmi.eventsActive = true)
    (hs : s.syscallTraced env = some s') : Masked s' := by
  unfold Partition.syscallTraced at hs
  split at hs
  · split at hs
    · cases hs
      exact h.notify hactive _ _ _
    · cases hs
  · cases hs

/-- A system call that is traced while the events are stopped is never masked. -/
theorem not_masked_syscallTraced (h : Masked s) (hinactive : s.vmi.eventsActive = false)
    (hs : s.syscallTraced env = some s') : ¬ Masked s' := by
  intro h'
  have hflag : flagOf s.trace = false := h.flag.symm.trans hinactive
  have hfirst : ∀ d es, d.isEvent = true → s'.trace = s.trace ++ d :: es → False := by
    intro d es hd htrace
    have hquiet := h'.quiet s.trace.length d (by simp [htrace]) hd
    rw [htrace, List.take_left, hflag] at hquiet
    cases hquiet
  unfold Partition.syscallTraced at hs
  split at hs
  · split at hs
    · cases hs
      unfold Partition.notify at hfirst
      split at hfirst
      · exact hfirst .paused _ rfl rfl
      · exact hfirst (.sent _) _ rfl rfl
    · cases hs
  · cases hs

end Steps

/-- The step does not trace a system call while the events are stopped. -/
def TracesActive (s : Partition G) (i : Stimulus G) : Prop :=
  i = .syscall → s.vmi.eventsActive = true

theorem tracesActive_message (s : Partition G) (ident : Bytes) (m : VMIMessage) :
    TracesActive s (.message ident m) := by
  intro h
  cases h

/-- **Stopped events are masked.** In every run, of any clients and any guest, in which no
    system call is traced while the events are stopped, the events are masked. -/
theorem masked_reach {env : Env G} {s : Partition G}
    (h : Reach (partitionSystem env) TracesActive s) : Masked s := by
  refine h.invariant Masked ?_ ?_
  · rintro s ⟨g, rfl⟩
    exact ⟨rfl, by simp⟩
  · intro s i s' hinv htraces hs
    cases hs with
    | message hrun hreach hend => exact hinv.message hreach
    | guestRuns g => exact ⟨hinv.flag, hinv.quiet⟩
    | trap hs => exact hinv.trapFires hs
    | syscall hs => exact hinv.syscallTraced (htraces rfl) hs

/-- A client. -/
def someClient : Bytes := [102, 48, 114]

/-- Its request to start the events. -/
def startEvents : VMIMessage := VMIMessage.empty.addCall .eventsStart Msg.empty

/-- Its request to trace the system calls. -/
def startTracing : VMIMessage := VMIMessage.empty.addCall .startSyscall Msg.empty

/-- A traced system call is sent to the owner of the plugin. -/
theorem syscallTraced_eq {env : Env G} {s : Partition G} {owner : Bytes}
    (hops : ExtOp.newSyscalls ∈ s.vmi.ops) (howner : s.vmi.syscallPluginOwner = some owner) :
    s.syscallTraced env = some (s.notify env s.vmi.syscallPluginEventId
      s.vmi.syscallPluginSyncState owner) := by
  unfold Partition.syscallTraced
  rw [if_pos hops, howner]

/-- What is sent is recorded. -/
theorem sent_mem_notify (env : Env G) (s : Partition G) (id syncState : ℕ) (owner : Bytes) :
    ∃ m, Deed.sent m ∈ (s.notify env id syncState owner).trace := by
  unfold Partition.notify
  split
  · exact ⟨⟨id, true, owner⟩, by simp⟩
  · exact ⟨⟨id, false, owner⟩, by simp⟩

/-- A client starts the events and the plugin, and a system call is traced. -/
theorem masked_startedEvents :
    ∃ s : Partition Unit, (∃ m, Deed.sent m ∈ s.trace) ∧ Masked s := by
  have hrun : ∃ w₁ out₁ w₂ out₂,
      processProtobuf echoEnv startEvents { World.initial () with scratchIdent := someClient } =
        .ok (w₁, out₁) ∧
      processProtobuf echoEnv startTracing { w₁ with scratchIdent := someClient } =
        .ok (w₂, out₂) ∧
      w₂.eventsActive = true ∧ ExtOp.newSyscalls ∈ w₂.ops ∧
      ∃ owner, w₂.syscallPluginOwner = some owner := by
    refine ⟨_, _, _, _, rfl, rfl, rfl, ?_, _, rfl⟩
    decide
  obtain ⟨w₁, out₁, w₂, out₂, hstart, htrace, hactive, hops, owner, howner⟩ := hrun
  have hinit : Reach (partitionSystem echoEnv) TracesActive { vmi := World.initial () } :=
    .init ⟨(), rfl⟩
  obtain ⟨s₁, hs₁, rfl⟩ := partitionStep_of_message (s := { vmi := World.initial () }) hstart
  obtain ⟨s₂, hs₂, rfl⟩ := partitionStep_of_message htrace
  have hreach : Reach (partitionSystem echoEnv) TracesActive s₂ :=
    .step (.step hinit (tracesActive_message _ _ _) hs₁) (tracesActive_message _ _ _) hs₂
  have hsyscall : s₂.syscallTraced echoEnv = some _ := syscallTraced_eq hops howner
  exact ⟨_, sent_mem_notify .., masked_reach (.step hreach (fun _ => hactive) (.syscall hsyscall))⟩

/-- **A traced system call is not masked.** A client starts the plugin and never starts the
    events; the first system call pauses the guest or is sent all the same. -/
theorem masked_fails :
    ∃ s : Partition Unit, Reach (partitionSystem echoEnv) (fun _ _ => True) s ∧
      s.vmi.eventsActive = false ∧ (∃ m, Deed.sent m ∈ s.trace) ∧ ¬ Masked s := by
  have hrun : ∃ w out,
      processProtobuf echoEnv startTracing { World.initial () with scratchIdent := someClient } =
        .ok (w, out) ∧
      w.eventsActive = false ∧ ExtOp.newSyscalls ∈ w.ops ∧
      ∃ owner, w.syscallPluginOwner = some owner := by
    refine ⟨_, _, rfl, rfl, ?_, _, rfl⟩
    decide
  obtain ⟨w, out, htrace, hinactive, hops, owner, howner⟩ := hrun
  have hinit : Reach (partitionSystem echoEnv) (fun _ _ => True) { vmi := World.initial () } :=
    .init ⟨(), rfl⟩
  obtain ⟨s, hs, rfl⟩ := partitionStep_of_message (s := { vmi := World.initial () }) htrace
  -- up to here everything is masked
  have hmasked : Masked s := by
    have hempty : Masked ({ vmi := World.initial () } : Partition Unit) := ⟨rfl, by simp⟩
    cases hs with
    | message hrun hreach hend => exact hempty.message hreach
  have hsyscall : s.syscallTraced echoEnv = some _ := syscallTraced_eq hops howner
  refine ⟨_, .step (.step hinit trivial hs) trivial (.syscall hsyscall), ?_, sent_mem_notify ..,
    not_masked_syscallTraced hmasked hinactive hsyscall⟩
  unfold Partition.notify
  split <;> exact hinactive

end Furnace.Vmi
