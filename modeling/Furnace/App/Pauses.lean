import Furnace.App.Loop

namespace Furnace.App

open Furnace.Proto Furnace.Lib Furnace.Vmi

/-!
# Guest pauses

The guest is paused by the event callbacks of the VMI partition, around every change of the
registry, and by the app; it is resumed by the same changes, by the app, and by the main loop
after each event that paused it.  DRAKVUF counts.

* `SameBalance` — as many pauses as resumes have been added; every registry request adds them
  in pairs.
* `Accounts` — what one step of a session does to the account.
* `pausesConserved_reach` — in every state of every run the pauses that are left over are
  those of the events in flight or being handled, and the app's own.
-/

variable {G : Type}

/-! ### Counting -/

/-- How often `drakvuf_pause` was called. -/
def pauses (w : World G) : ℕ := w.ops.count .pause

/-- How often `drakvuf_resume` was called. -/
def resumes (w : World G) : ℕ := w.ops.count .resume

/-- The pauses that are not resumed are as many as before. -/
def SameBalance (w w' : World G) : Prop := pauses w' + resumes w = pauses w + resumes w'

theorem SameBalance.of_ops {w w' : World G} (new : List ExtOp) (h : w'.ops = w.ops ++ new)
    (hnew : new.count .pause = new.count .resume) : SameBalance w w' := by
  unfold SameBalance pauses resumes
  rw [h, List.count_append, List.count_append]
  omega

theorem SameBalance.refl (w : World G) : SameBalance w w := rfl

section Registry

variable {env : Env G} {m : Msg} {w w' : World G} {r : Reply}

theorem addTrapFor_balance {kind : TrapKind} {obj : ℕ}
    (h : addTrapFor env m kind obj w = .ok (w', r)) : SameBalance w w' := by
  unfold addTrapFor at h
  obtain ⟨owner, -, h⟩ := bind_eq_ok.mp h
  dsimp only [addEvent] at h
  -- the guest is resumed whether the trap was set or not
  have hops : w'.ops = w.ops ++ [.pause, .addTrap ⟨kind, obj⟩, .resume] := by
    split at h <;> cases h <;> simp [World.exec]
  exact .of_ops _ hops (by simp)

theorem eventRegister_balance (h : eventRegisterBody env (.ok m) w = .ok (w', r)) :
    SameBalance w w' := by
  -- up to the trap nothing is paused
  have hquiet : ∀ w₁ : World G, w₁.ops = (w.allocated env).ops → SameBalance w w₁ := by
    intro w₁ hops
    refine .of_ops [.malloc .trap, .malloc .eventItem] ?_ rfl
    simpa [World.allocated] using hops
  cases eventRegister_cases h with
  | full hfull => exact .refl w
  | trap kind hroom htrap =>
    have hfirst := hquiet { w.allocated env with nextAlloc := w.nextAlloc + 1 } rfl
    have hset := addTrapFor_balance htrap
    unfold SameBalance at *
    omega
  | noMemory | otherRegister | otherType => exact hquiet _ rfl

theorem eventClear_balance (h : eventClearBody env (.ok m) w = .ok (w', r)) :
    SameBalance w w' := by
  obtain ⟨m', hm', h⟩ := bind_eq_ok.mp h
  cases hm'
  dsimp only at h
  split at h
  · rename_i ei hei
    cases h
    exact .of_ops [.pause, .removeTrap ei.event, .resume] (by simp) (by simp)
  · cases h
    exact .of_ops [.pause, .resume] (by simp) rfl

theorem startSyscall_balance (h : startSyscallBody env (.ok m) w = .ok (w', r)) :
    SameBalance w w' := by
  cases startSyscall_cases h with
  | running howner => exact .refl _
  | noMemory howner hmalloc => exact .of_ops [.malloc .eventItem] (by simp) rfl
  | started owner howner hmalloc hident hstarted hw =>
    -- the guest is resumed: a constructor that throws ends the partition
    refine .of_ops [.malloc .eventItem, .pause, .newSyscalls, .resume] ?_ rfl
    rw [hw]
    simp [World.starting, World.exec]

theorem stopSyscall_balance (h : stopSyscallBody env (.ok m) w = .ok (w', r)) :
    SameBalance w w' := by
  unfold stopSyscallBody at h
  split at h
  · cases h
    exact .refl _
  · split at h
    · cases h
    · cases h
      exact .of_ops [.pause, .deleteSyscalls, .resume] (by simp) rfl

/-- **A registry request pauses and resumes the guest equally often.** -/
theorem registry_balance {c : RegistryCall} (h : c.handler.core env (.ok m) w = .ok (w', r)) :
    SameBalance w w' := by
  cases c with
  | eventRegister => exact eventRegister_balance h
  | eventClear => exact eventClear_balance h
  | startSyscall => exact startSyscall_balance h
  | stopSyscall =>
    have hbody : stopSyscallBody env (.ok m) w = .ok (w', r) := h
    exact stopSyscall_balance hbody

end Registry

/-! ### The frontend's calls -/

section Calls

variable {env : Env G} {fe : FE} {w : World G}

/-- Pausing or resuming the guest is recorded. -/
theorem exchange_ops {c : Call} {op : ExtOp} {m : Msg} {w' : World G} {reply : VMIMessage}
    (hc : (handlerOf c : Handler G) = ⟨false, effectBody op⟩)
    (h : fe.exchange env c m w = .ok (w', reply)) : w'.ops = w.ops ++ [op] := by
  rw [exchange_effect hc h]
  rfl

theorem exchange_balance {c : RegistryCall} {m : Msg} {w' : World G} {reply : VMIMessage}
    (h : fe.exchange env (registryCall c) m w = .ok (w', reply)) : SameBalance w w' := by
  obtain ⟨r, hcore, -⟩ := exchange_registry h
  have hbalance := registry_balance hcore
  exact hbalance

theorem exchange_eventsBalance {c : Call} {b : Bool} {m : Msg} {w' : World G} {reply : VMIMessage}
    (hc : (handlerOf c : Handler G) = ⟨false, eventsBody b⟩)
    (h : fe.exchange env c m w = .ok (w', reply)) : SameBalance w w' := by
  rw [exchange_events hc h]
  exact .refl _

theorem registerVmi_balance {eventType : VmiType} {m : Msg} {ans : Answer G}
    (h : fe.registerVmi env eventType m w = .ok ans) : SameBalance w ans.vmi := by
  unfold FE.registerVmi at h
  obtain ⟨⟨w', reply⟩, hex, h⟩ := bind_eq_ok.mp h
  have hex' : fe.exchange env (registryCall .eventRegister) m w = .ok (w', reply) := hex
  have hbalance : SameBalance w w' := exchange_balance hex'
  dsimp only at h
  split at h
  · cases h
    exact hbalance
  · split at h <;> cases h <;> exact hbalance

theorem eventRegister_callBalance {d : EventData} {ans : Answer G}
    (h : fe.eventRegister env d w = .ok ans) : SameBalance w ans.vmi := by
  unfold FE.eventRegister at h
  split at h
  · cases h
    exact .refl _
  split at h
  · cases h
    exact .refl _
  · dsimp only at h
    split at h <;> cases h <;> exact .refl _
  · split at h
    · cases h
      exact .refl _
    · exact registerVmi_balance h

theorem eventClear_callBalance {eid : ℕ} {ans : Answer G}
    (h : fe.eventClear env eid w = .ok ans) : SameBalance w ans.vmi := by
  unfold FE.eventClear at h
  split at h
  · split at h
    · cases h
      exact .refl _
    · obtain ⟨⟨w', reply⟩, hex, h⟩ := bind_eq_ok.mp h
      have hex' : fe.exchange env (registryCall .eventClear) _ w = .ok (w', reply) := hex
      have hbalance : SameBalance w w' := exchange_balance hex'
      dsimp only at h
      split at h
      · cases h
        exact hbalance
      · split at h <;> cases h <;> exact hbalance
  · -- the frontend's own identifiers are none of the partition's business
    split at h <;> cases h <;> exact .refl _

theorem startSyscall_callBalance {callable : Bool} {sync : ℕ} {ans : Answer G}
    (h : fe.startSyscall env callable sync w = .ok ans) : SameBalance w ans.vmi := by
  unfold FE.startSyscall at h
  split at h
  · cases h
    exact .refl _
  split at h
  · cases h
    exact .refl _
  · obtain ⟨⟨w', reply⟩, hex, h⟩ := bind_eq_ok.mp h
    have hex' : fe.exchange env (registryCall .startSyscall) _ w = .ok (w', reply) := hex
    have hbalance : SameBalance w w' := exchange_balance hex'
    dsimp only at h
    split at h <;> cases h <;> exact hbalance

theorem stopSyscall_callBalance {eid : ℕ} {ans : Answer G}
    (h : fe.stopSyscall env eid w = .ok ans) : SameBalance w ans.vmi := by
  unfold FE.stopSyscall at h
  split at h
  · cases h
    exact .refl _
  · obtain ⟨⟨w', reply⟩, hex, h⟩ := bind_eq_ok.mp h
    have hex' : fe.exchange env (registryCall .stopSyscall) _ w = .ok (w', reply) := hex
    cases h
    exact exchange_balance hex'

/-- **No API call changes the balance**, whether it returns or raises. -/
theorem api_balance {a : ApiCall} {ans : Answer G} (h : a.run env fe w = .ok ans) :
    SameBalance w ans.vmi := by
  cases a with
  | eventRegister d => exact eventRegister_callBalance h
  | eventClear eid => exact eventClear_callBalance h
  | startSyscall callable sync => exact startSyscall_callBalance h
  | stopSyscall eid => exact stopSyscall_callBalance h
  | eventsStart =>
    obtain ⟨⟨w', reply⟩, hex, h⟩ := bind_eq_ok.mp h
    cases h
    exact exchange_eventsBalance rfl hex
  | eventsStop =>
    obtain ⟨⟨w', reply⟩, hex, h⟩ := bind_eq_ok.mp h
    cases h
    exact exchange_eventsBalance rfl hex

end Calls

/-! ### One step of a session -/

/-- The events in a queue that paused the guest. -/
def pausedIn (queue : List EventMsg) : ℕ := queue.countP (·.guestPaused)

/-- Whether an event that paused the guest is being handled. -/
def handling : Phase → ℕ
  | .event true => 1
  | _ => 0

/-- The events in flight or being handled that paused the guest. -/
def Session.outstanding (s : Session G) : ℕ := pausedIn s.queue + handling s.phase

/-- The events that paused the guest and are delivered in a step. -/
def deliveredBy (s s' : Session G) : Input G → ℕ
  | .polled _ => pausedIn s.queue - pausedIn s'.queue
  | _ => 0

/-- The resumes of the main loop in a step. -/
def resumedBy (s s' : Session G) : Input G → ℕ
  | .polled _ | .returned | .raised => resumes s'.vmi - resumes s.vmi
  | _ => 0

/-- **What one step does to the account.** -/
structure Accounts (s s' : Session G) (i : Input G) : Prop where
  balance : pauses s'.vmi + resumes s.vmi + s.outstanding =
    pauses s.vmi + resumes s'.vmi + s'.outstanding
  once : deliveredBy s s' i + handling s.phase = resumedBy s s' i + handling s'.phase

section Steps

variable {env : Env G} {s s' : Session G}

/-- A step that neither touches the queue nor leaves or enters the handling of an event. -/
theorem Accounts.quiet {i : Input G} (hbalance : SameBalance s.vmi s'.vmi)
    (hqueue : s'.queue = s.queue) (hphase : handling s'.phase = handling s.phase)
    (hdelivered : deliveredBy s s' i = 0) (hresumed : resumedBy s s' i = 0) :
    Accounts s s' i := by
  unfold SameBalance at hbalance
  constructor
  · unfold Session.outstanding
    rw [hqueue, hphase]
    omega
  · omega

/-- The loop moves on without a message and without handling one. -/
theorem Accounts.phase {i : Input G} {phase : Phase} (hbefore : handling s.phase = 0)
    (hafter : handling phase = 0) : Accounts s { s with phase := phase } i := by
  have hsame : handling phase = handling s.phase := hafter.trans hbefore.symm
  refine .quiet (.refl _) rfl hsame ?_ ?_
  · cases i <;> simp [deliveredBy]
  · cases i <;> simp [resumedBy]

/-- `if guest_paused: self.resume_vm()`: one resume or none. -/
theorem resumed_account {guestPaused : Bool} {phase : Phase}
    (h : s.resumed env guestPaused phase = some s') :
    pauses s'.vmi = pauses s.vmi ∧
    resumes s'.vmi = resumes s.vmi + (if guestPaused then 1 else 0) ∧
    s'.queue = s.queue ∧ s'.phase = phase := by
  unfold Session.resumed at h
  cases guestPaused with
  | false =>
    cases h
    exact ⟨rfl, rfl, rfl, rfl⟩
  | true =>
    rw [if_pos rfl] at h
    split at h
    · cases h
    · rename_i w reply hex
      cases h
      have hops : w.ops = s.vmi.ops ++ [.resume] := exchange_ops rfl hex
      refine ⟨?_, ?_, rfl, rfl⟩
      · show w.ops.count _ = s.vmi.ops.count _
        rw [hops]
        simp
      · show w.ops.count _ = s.vmi.ops.count _ + 1
        rw [hops]
        simp

theorem handling_event (guestPaused : Bool) :
    handling (.event guestPaused) = if guestPaused then 1 else 0 := by
  cases guestPaused <;> rfl

/-- A callback is over: an event that paused the guest is resumed once. -/
theorem Accounts.resumed {i : Input G} {guestPaused : Bool} {phase : Phase}
    (hi : i = .returned ∨ i = .raised) (hbefore : s.phase = .event guestPaused)
    (hafter : handling phase = 0) (h : s.resumed env guestPaused phase = some s') :
    Accounts s s' i := by
  obtain ⟨hpauses, hresumes, hqueue, hphase⟩ := resumed_account h
  have hone : handling s.phase = if guestPaused then 1 else 0 := by
    rw [hbefore, handling_event]
  have hzero : handling s'.phase = 0 := by
    rw [hphase, hafter]
  constructor
  · unfold Session.outstanding
    rw [hqueue]
    omega
  · have hdelivered : deliveredBy s s' i = 0 := by
      rcases hi with rfl | rfl <;> rfl
    have hresumed : resumedBy s s' i = resumes s'.vmi - resumes s.vmi := by
      rcases hi with rfl | rfl <;> rfl
    omega

/-- A callback of the VMI partition pauses the guest exactly when its message says so. -/
theorem Accounts.send {i : Input G} (hi : (∃ k, i = .trap k) ∨ i = .syscall)
    (id syncState source : ℕ) : Accounts s (s.send env id syncState source) i := by
  have hdelivered : ∀ s', deliveredBy s s' i = 0 := by
    intro s'
    rcases hi with ⟨k, rfl⟩ | rfl <;> rfl
  have hresumed : ∀ s', resumedBy s s' i = 0 := by
    intro s'
    rcases hi with ⟨k, rfl⟩ | rfl <;> rfl
  have hphase : (s.send env id syncState source).phase = s.phase := rfl
  constructor
  · unfold Session.outstanding
    rw [hphase]
    unfold Session.send
    dsimp only
    cases (syncState == fSync) with
    | true => simp [pauses, resumes, pausedIn]; omega
    | false => simp [pauses, resumes, pausedIn]
  · rw [hdelivered, hresumed, hphase]

theorem trapFires_account {k : ℕ} (h : s.trapFires env k = some s') : Accounts s s' (.trap k) := by
  unfold Session.trapFires at h
  split at h
  · cases h
  · split at h
    · split at h
      · cases h
        exact .send (.inl ⟨k, rfl⟩) _ _ _
      · cases h
        exact .quiet (.refl _) rfl rfl rfl rfl
    · cases h

theorem syscallTraced_account (h : s.syscallTraced env = some s') : Accounts s s' .syscall := by
  unfold Session.syscallTraced at h
  split at h
  · cases h
    exact .send (.inr rfl) _ _ _
  · cases h

theorem called_account {a : ApiCall} (h : s.called env a = some s') : Accounts s s' (.call a) := by
  unfold Session.called at h
  split at h
  · split at h
    · cases h
    · rename_i ans hans
      cases h
      exact .quiet (api_balance hans) rfl rfl rfl rfl
  · cases h

theorem afterCallback_account (h : s.afterCallback env = some s') :
    Accounts s s' .returned := by
  unfold Session.afterCallback at h
  split at h
  · rename_i guestPaused hphase
    exact .resumed (.inl rfl) hphase rfl h
  · rename_i hphase
    cases h
    exact .phase (by rw [hphase]; rfl) rfl
  · rename_i hphase
    cases h
    exact .phase (by rw [hphase]; rfl) rfl
  · rename_i todo size hphase
    cases h
    exact .phase (by rw [hphase]; rfl) rfl
  · cases h

theorem escaped_account (h : s.escaped env = some s') : Accounts s s' .raised := by
  unfold Session.escaped at h
  split at h
  · rename_i guestPaused hphase
    exact .resumed (.inr rfl) hphase rfl h
  · rename_i hphase
    cases h
    exact .phase (by rw [hphase]; rfl) rfl
  · rename_i hphase
    cases h
    exact .phase (by rw [hphase]; rfl) rfl
  · rename_i hphase
    cases h
    exact .phase (by rw [hphase]; rfl) rfl
  · rename_i todo size hphase
    cases h
    exact .phase (by rw [hphase]; rfl) rfl
  · cases h

theorem postAppInit_account (h : s.postAppInit = some s') : Accounts s s' .established := by
  unfold Session.postAppInit at h
  dsimp only at h
  split at h
  · rename_i hphase
    cases h
    refine .phase (by rw [hphase]; rfl) ?_
    split <;> rfl
  · cases h

/-- A message is taken from the queue: its callback starts, or the guest is resumed at once. -/
theorem dispatch_account {ready : Bool} (h : s.dispatch env ready = some s') :
    Accounts s s' (.polled ready) := by
  unfold Session.dispatch at h
  split at h
  · rename_i hphase
    have hzero : handling s.phase = 0 := by
      rw [hphase]
      rfl
    split at h
    · cases h
      exact .phase hzero rfl
    · cases h
    · rename_i m rest hqueue
      have hcount : pausedIn s.queue = pausedIn rest + (if m.guestPaused then 1 else 0) := by
        rw [hqueue]
        exact List.countP_cons
      split at h
      · cases h
        constructor
        · show pauses s.vmi + resumes s.vmi + (pausedIn s.queue + handling s.phase) =
            pauses s.vmi + resumes s.vmi + (pausedIn rest + handling (.event m.guestPaused))
          rw [handling_event]
          omega
        · show pausedIn s.queue - pausedIn rest + _ =
            (resumes s.vmi - resumes s.vmi) + handling (.event m.guestPaused)
          rw [handling_event]
          omega
      · -- the identifier is unknown to the frontend
        obtain ⟨hpauses, hresumes, hqueue', hphase'⟩ := resumed_account h
        have hpauses : pauses s'.vmi = pauses s.vmi := hpauses
        have hresumes : resumes s'.vmi = resumes s.vmi + (if m.guestPaused then 1 else 0) :=
          hresumes
        have hqueue' : s'.queue = rest := hqueue'
        have hzero' : handling s'.phase = 0 := by
          rw [hphase']
          rfl
        constructor
        · unfold Session.outstanding
          rw [hqueue']
          omega
        · show pausedIn s.queue - pausedIn s'.queue + _ = resumes s'.vmi - resumes s.vmi + _
          rw [hqueue']
          omega
  · cases h

theorem facilities_account {i : Input G} {ready : Bool} {here callback after : Phase}
    (hhere : handling here = 0) (hcallback : handling callback = 0) (hafter : handling after = 0)
    (h : s.facilities ready here callback after = some s') : Accounts s s' i := by
  unfold Session.facilities at h
  split at h
  · rename_i hphase
    cases h
    refine .phase (by rw [hphase]; exact hhere) ?_
    split
    · exact hcallback
    · exact hafter
  · cases h

theorem scanEvents_account (h : s.scanEvents = some s') : Accounts s s' .scanned := by
  unfold Session.scanEvents at h
  split at h
  · rename_i hphase
    cases h
    refine .quiet (.refl _) rfl ?_ rfl rfl
    rw [hphase]
    rfl
  · cases h

theorem nextTimer_account {due : Bool} (h : s.nextTimer due = some s') :
    Accounts s s' (.timer due) := by
  unfold Session.nextTimer at h
  split at h
  · rename_i todo size hphase
    have hzero : handling s.phase = 0 := by
      rw [hphase]
      rfl
    split at h
    · cases h
      exact .phase hzero rfl
    split at h
    · cases h
      exact .phase hzero rfl
    split at h
    · cases h
      exact .phase hzero rfl
    split at h
    · cases h
      exact .quiet (.refl _) rfl hzero.symm rfl rfl
    · split at h
      · cases h
        exact .phase hzero rfl
      · cases h
        exact .phase hzero rfl
  · cases h

theorem cleanUp_account (h : s.cleanUp = some s') : Accounts s s' .cleaned := by
  unfold Session.cleanUp at h
  split at h
  · rename_i hphase
    have hzero : handling s.phase = 0 := by
      rw [hphase]
      rfl
    split at h
    · cases h
      exact .quiet (.refl _) rfl hzero.symm rfl rfl
    · cases h
      exact .phase hzero rfl
  · cases h

/-- **Every step keeps the account.** -/
theorem session_account {i : Input G} (h : s.next env i = some s') : Accounts s s' i := by
  cases i with
  | guestRuns g =>
    cases h
    exact .quiet rfl rfl rfl rfl rfl
  | trap k => exact trapFires_account h
  | syscall => exact syscallTraced_account h
  | call a => exact called_account h
  | returned => exact afterCallback_account h
  | raised => exact escaped_account h
  | established => exact postAppInit_account h
  | polled ready => exact dispatch_account h
  | broadcast ready =>
    have hf : s.facilities ready .broadcast .broadcastCallback .notify = some s' := h
    exact facilities_account rfl rfl rfl hf
  | notify ready =>
    have hf : s.facilities ready .notify .notifyCallback .scan = some s' := h
    exact facilities_account rfl rfl rfl hf
  | scanned => exact scanEvents_account h
  | timer due => exact nextTimer_account h
  | cleaned => exact cleanUp_account h

end Steps

/-! ### Runs -/

/-- A session with the explicit calls of the app counted, and what the main loop has been
    delivered and has resumed. -/
structure Account (G : Type) where
  session : Session G
  explicitPauses : ℕ := 0
  explicitResumes : ℕ := 0
  delivered : ℕ := 0
  loopResumes : ℕ := 0

/-- A step of the session, or a call of `pause_vm` or `resume_vm`. -/
inductive PauseInput (G : Type)
  | step (i : Input G) | pauseVm | resumeVm

/-- `pause_vm` and `resume_vm`. -/
def FE.effect (fe : FE) (env : Env G) (c : Call) (w : World G) : Except Fault (World G) := do
  let (w, _) ← fe.exchange env c (Msg.empty.set .status (.i32 1)) w
  .ok w

/-- One app, which also pauses and resumes the guest itself. -/
def pauseSystem (env : Env G) : TransitionSystem (Account G) (PauseInput G) where
  init a := ∃ g identR, a = { session := Session.initial g identR }
  step a i a' := match i with
    | .step i => ∃ s, a.session.next env i = some s ∧
      a' = { a with session := s
                    delivered := a.delivered + deliveredBy a.session s i
                    loopResumes := a.loopResumes + resumedBy a.session s i }
    | .pauseVm => a.session.phase.runsApp = true ∧
      ∃ w, a.session.fe.effect env .pauseVm a.session.vmi = .ok w ∧
      a' = { a with session := { a.session with vmi := w }
                    explicitPauses := a.explicitPauses + 1 }
    | .resumeVm => a.session.phase.runsApp = true ∧
      ∃ w, a.session.fe.effect env .resumeVm a.session.vmi = .ok w ∧
      a' = { a with session := { a.session with vmi := w }
                    explicitResumes := a.explicitResumes + 1 }

/-- **The guest's pauses are conserved.** The pauses that are not resumed are those of the
    events in flight or being handled and the app's own, and every event that was delivered
    and is over has caused one resume of the main loop. -/
structure PausesConserved (a : Account G) : Prop where
  balance : (pauses a.session.vmi : ℤ) - resumes a.session.vmi =
    a.session.outstanding + a.explicitPauses - a.explicitResumes
  once : a.delivered = a.loopResumes + handling a.session.phase

theorem effect_ops {env : Env G} {fe : FE} {c : Call} {op : ExtOp} {w w' : World G}
    (hc : (handlerOf c : Handler G) = ⟨false, effectBody op⟩)
    (h : fe.effect env c w = .ok w') : w'.ops = w.ops ++ [op] := by
  obtain ⟨⟨w₁, reply⟩, hex, h⟩ := bind_eq_ok.mp h
  cases h
  exact exchange_ops hc hex

/-- **Pauses are conserved along a run**, of any registrations, any guest and an app that
    calls, returns and raises as it likes. -/
theorem pausesConserved_reach {env : Env G} {a : Account G}
    (h : Reach (pauseSystem env) (fun _ _ => True) a) : PausesConserved a := by
  refine h.invariant PausesConserved ?_ ?_
  · rintro a ⟨g, identR, rfl⟩
    exact ⟨by simp [pauses, resumes, Session.outstanding, Session.initial, World.initial, pausedIn,
      handling], rfl⟩
  · rintro a i a' ⟨hbalance, honce⟩ - hs
    cases i with
    | step i =>
      obtain ⟨s, hnext, rfl⟩ := hs
      obtain ⟨hbalance', honce'⟩ := session_account hnext
      constructor
      · show (pauses s.vmi : ℤ) - resumes s.vmi =
          s.outstanding + a.explicitPauses - a.explicitResumes
        omega
      · show a.delivered + deliveredBy a.session s i =
          a.loopResumes + resumedBy a.session s i + handling s.phase
        omega
    | pauseVm =>
      obtain ⟨-, w, heffect, rfl⟩ := hs
      have hops : w.ops = a.session.vmi.ops ++ [.pause] := effect_ops rfl heffect
      have hpauses : pauses w = pauses a.session.vmi + 1 := by
        simp [pauses, hops]
      have hresumes : resumes w = resumes a.session.vmi := by
        simp [resumes, hops]
      refine ⟨?_, honce⟩
      show (pauses w : ℤ) - resumes w =
        a.session.outstanding + (a.explicitPauses + 1 : ℕ) - a.explicitResumes
      omega
    | resumeVm =>
      obtain ⟨-, w, heffect, rfl⟩ := hs
      have hops : w.ops = a.session.vmi.ops ++ [.resume] := effect_ops rfl heffect
      have hpauses : pauses w = pauses a.session.vmi := by
        simp [pauses, hops]
      have hresumes : resumes w = resumes a.session.vmi + 1 := by
        simp [resumes, hops]
      refine ⟨?_, honce⟩
      show (pauses w : ℤ) - resumes w =
        a.session.outstanding + a.explicitPauses - (a.explicitResumes + 1 : ℕ)
      omega

/-- Every run of a session is a run with an account. -/
theorem reach_of_session {env : Env G} {is : List (Input G)} {a : Account G} {s : Session G}
    (hr : Reach (pauseSystem env) (fun _ _ => True) a)
    (h : is.foldlM (fun s i => s.next env i) a.session = some s) :
    ∃ a', Reach (pauseSystem env) (fun _ _ => True) a' ∧ a'.session = s := by
  induction is generalizing a with
  | nil =>
    cases h
    exact ⟨a, hr, rfl⟩
  | cons i is ih =>
    rw [List.foldlM_cons] at h
    obtain ⟨s₁, hnext, hrest⟩ := Option.bind_eq_some_iff.mp h
    have hstep : (pauseSystem env).step a (.step i) _ := ⟨s₁, hnext, rfl⟩
    exact ih (.step hr trivial hstep) hrest

/-- A synchronous event of the CR3 register is registered, fires once and is delivered. -/
def deliverOnce : List (Input Unit) :=
  [.call (.eventRegister { eventType := .reg, sync := some 30, regType := some 1 }),
    .call .eventsStart, .established, .trap 0, .polled true]

/-- While its callback runs, the pause of the event is the one that is left over. -/
theorem pausesConserved_handling :
    ∃ a : Account Unit, a.session.phase = .event true ∧ PausesConserved a := by
  have hrun : ∃ s, deliverOnce.foldlM (fun s i => s.next echoEnv i)
      (Session.initial () [102, 45, 114]) = some s ∧ s.phase = .event true := by
    refine ⟨_, rfl, ?_⟩
    rfl
  obtain ⟨s, hs, hphase⟩ := hrun
  have hinit : Reach (pauseSystem echoEnv) (fun _ _ => True)
      { session := Session.initial () [102, 45, 114] } := .init ⟨(), [102, 45, 114], rfl⟩
  obtain ⟨a, hreach, rfl⟩ := reach_of_session hinit hs
  exact ⟨a, hphase, pausesConserved_reach hreach⟩

end Furnace.App
