import Furnace.App.Frontend

namespace Furnace.App

open Furnace.Proto Furnace.Lib Furnace.Vmi

/-!
# The main loop

One app, its frontend and one VMI partition.  The app's constructor runs first, then
`FE.loop`: an `EVENT` message from the VMI partition, a broadcast and a directed message from
the facilities partition, the scan for inactive events, the timers, and the cleanup.  The app
runs in the constructor and in callbacks, where it makes any API calls; the guest runs and
its traps fire at any time.

* `Session` — the whole state, with three ghost fields: what was cleared, and what was
  invoked for which message.
* `Session.next` — the step function.
* `SessionStep` — what a step can do to the registrations and to the messages in flight.
-/

variable {G : Type}

/-! ### State -/

/-- An `EVENT` message in flight; `source` is the registration whose trap fired. -/
structure EventMsg where
  identifier : ℕ
  guestPaused : Bool
  source : ℕ
  deriving DecidableEq, Repr

/-- Where the frontend is. -/
inductive Phase
  | setup | poll | event (guestPaused : Bool) | broadcast | broadcastCallback
  | notify | notifyCallback | scan
  | timers (todo : List ℕ) (size : ℕ) | timerCallback (todo : List ℕ) (size : ℕ)
  | cleanup | dead
  deriving DecidableEq, Repr

/-- Whether the app's code runs. -/
def Phase.runsApp : Phase → Bool
  | .setup | .event _ | .broadcastCallback | .notifyCallback | .timerCallback _ _ => true
  | _ => false

/-- The parts of an iteration: around the poll, up to the scan for inactive events, and from
    there to the cleanup. -/
inductive Stage
  | outside | beforeScan | afterScan | dead
  deriving DecidableEq, Repr

def Phase.stage : Phase → Stage
  | .setup | .poll => .outside
  | .event _ | .broadcast | .broadcastCallback | .notify | .notifyCallback | .scan => .beforeScan
  | .timers _ _ | .timerCallback _ _ | .cleanup => .afterScan
  | .dead => .dead

/-- A callback that was invoked for a message, with whether the registration that installed
    it had been cleared by then. -/
structure Invocation where
  source : ℕ
  callback : ℕ
  cleared : Bool
  deriving DecidableEq, Repr

/-- The app, its frontend and the VMI partition.  `cleared` and `invoked` are ghosts. -/
structure Session (G : Type) where
  vmi : World G
  queue : List EventMsg := []
  fe : FE
  phase : Phase := .setup
  cleanupEids : List ℕ := []
  cleanupTids : List ℕ := []
  cleared : List ℕ := []
  invoked : List Invocation := []

/-- What happens next: the guest runs, a trap fires or a system call is traced, the app
    calls the API, returns or lets an exception out, or the frontend goes on. -/
inductive Input (G : Type)
  | guestRuns (g : G) | trap (k : ℕ) | syscall
  | call (a : ApiCall) | returned | raised
  | established | polled (ready : Bool) | broadcast (ready : Bool) | notify (ready : Bool)
  | scanned | timer (due : Bool) | cleaned

namespace Session

/-! ### Messages from the VMI partition -/

/-- The callbacks of the traps and of the syscall plugin: a synchronous event pauses the
    guest. -/
def send (env : Env G) (s : Session G) (id syncState source : ℕ) : Session G :=
  let guestPaused := syncState == fSync
  { s with vmi := if guestPaused then (s.vmi.exec env .pause).2 else s.vmi
           queue := s.queue ++ [⟨id, guestPaused, source⟩] }

/-- `furnace_cr3_callback` and `furnace_int_callback`. -/
def trapFires (env : Env G) (s : Session G) (k : ℕ) : Option (Session G) :=
  match s.vmi.events.lookup k with
  | none => none
  | some ei =>
    if ei.event.isSome then
      -- while the events are stopped the trap fires in vain
      if s.vmi.eventsActive && ei.active then some (s.send env ei.id ei.syncState ei.obj)
      else some s
    -- the pseudo-event of the plugin has no trap
    else none

/-- `furnace_syscall_callback`. -/
def syscallTraced (env : Env G) (s : Session G) : Option (Session G) :=
  match s.vmi.syscallPluginOwner, s.vmi.syscallPluginEi with
  | some _, some obj =>
    -- `events_active` does not hold system calls back
    some (s.send env s.vmi.syscallPluginEventId s.vmi.syscallPluginSyncState obj)
  | _, _ => none

/-! ### The app -/

/-- Which registration a call clears, if it returns `True` for one. -/
def clearedBy (s : Session G) (a : ApiCall) (result : Except PyError Returned) : List ℕ :=
  match a, result with
  | .eventClear eid, .ok .done => ((s.fe.eventlist.lookup eid).map Entry.callback).toList
  | _, _ => []

/-- The app calls the API; it may catch what the call raises. -/
def called (env : Env G) (s : Session G) (a : ApiCall) : Option (Session G) :=
  if s.phase.runsApp then
    -- a fault ends the VMI partition, and with it the run
    match a.run env s.fe s.vmi with
    | .error _ => none
    | .ok ans =>
      some { s with vmi := ans.vmi, fe := ans.fe
                    cleared := s.cleared ++ s.clearedBy a ans.result }
  else none

/-- `if guest_paused: self.resume_vm()`. -/
def resumed (env : Env G) (s : Session G) (guestPaused : Bool) (phase : Phase) :
    Option (Session G) :=
  if guestPaused then
    match s.fe.exchange env .resumeVm (Msg.empty.set .status (.i32 1)) s.vmi with
    | .error _ => none
    | .ok (w, _) => some { s with vmi := w, phase := phase }
  else some { s with phase := phase }

/-- A callback returns. -/
def afterCallback (env : Env G) (s : Session G) : Option (Session G) :=
  match s.phase with
  | .event guestPaused => s.resumed env guestPaused .broadcast
  | .broadcastCallback => some { s with phase := .notify }
  | .notifyCallback => some { s with phase := .scan }
  | .timerCallback todo size => some { s with phase := .timers todo size }
  | _ => none

/-- An exception leaves the app's code, and with it the constructor or the loop. -/
def escaped (env : Env G) (s : Session G) : Option (Session G) :=
  match s.phase with
  -- the `finally` clause resumes the guest before the exception goes on
  | .event guestPaused => s.resumed env guestPaused .dead
  | .setup | .broadcastCallback | .notifyCallback | .timerCallback _ _ =>
    some { s with phase := .dead }
  | _ => none

/-! ### The frontend -/

/-- `post_app_init`: more than one backend callback ends the frontend. -/
def postAppInit (s : Session G) : Option (Session G) :=
  let backends := s.fe.timerlist.entries.filter fun t => t.2.eventType = .be
  if s.phase = .setup then
    some { s with phase := if backends.length ≤ 1 then .poll else .dead }
  else none

/-- An `EVENT` message, if there is one: the callback under its identifier is invoked. -/
def dispatch (env : Env G) (s : Session G) (ready : Bool) : Option (Session G) :=
  if s.phase = .poll then
    match ready, s.queue with
    | false, _ => some { s with phase := .broadcast }
    | true, [] => none
    -- `eventlist[eid]` is taken whatever its status is
    | true, m :: rest =>
      match s.fe.eventlist.lookup m.identifier with
      | some e =>
        some { s with queue := rest, phase := .event m.guestPaused
                      invoked := s.invoked ++ [⟨m.source, e.callback, e.callback ∈ s.cleared⟩] }
      -- the `KeyError` is logged and the message dropped
      | none => { s with queue := rest }.resumed env m.guestPaused .broadcast
  else none

/-- A broadcast or a directed message from the facilities partition. -/
def facilities (s : Session G) (ready : Bool) (here callback after : Phase) :
    Option (Session G) :=
  if s.phase = here then
    some { s with phase := if ready && s.fe.beInfo then callback else after }
  else none

/-- The keys of `timerlist` in the order of the dict: they are given out in ascending order,
    and none is ever given out again. -/
def timerKeys (s : Session G) : List ℕ := (List.range s.fe.nextTid).filter (· ∈ s.fe.timerlist)

/-- The loop over `eventlist`. -/
def scanEvents (s : Session G) : Option (Session G) :=
  if s.phase = .scan then
    let inactive := s.fe.eventlist.keys.filter fun k =>
      (s.fe.eventlist.lookup k).any fun e => e.status = .inactive
    some { s with cleanupEids := s.cleanupEids ++ inactive
                  -- the iterator over the dict remembers its size
                  phase := .timers s.timerKeys s.fe.timerlist.keys.length }
  else none

/-- One turn of the loop over `timerlist`, which raises when the dict has grown. -/
def nextTimer (s : Session G) (due : Bool) : Option (Session G) :=
  match s.phase with
  | .timers todo size =>
    if s.fe.timerlist.keys.length ≠ size then some { s with phase := .dead }
    else match todo with
    | [] => some { s with phase := .cleanup }
    | tk :: todo =>
      match s.fe.timerlist.lookup tk with
      -- nothing deletes a timer during the loop, the source would raise
      | none => some { s with phase := .dead }
      | some tv =>
        if tv.status ≠ .active then
          some { s with cleanupTids := s.cleanupTids ++ [tk], phase := .timers todo size }
        else if tv.eventType = .timer ∧ due then
          some { s with phase := .timerCallback todo size }
        else some { s with phase := .timers todo size }
  | _ => none

/-- `del d[k]` for every key; a key that is missing raises. -/
def delAll {β : Type} (d : AList fun _ : ℕ => β) : List ℕ → Option (AList fun _ : ℕ => β)
  | [] => some d
  | k :: ks => if k ∈ d then delAll (d.erase k) ks else none

/-- The cleanup, and the end of the iteration. -/
def cleanUp (s : Session G) : Option (Session G) :=
  if s.phase = .cleanup then
    -- `pop` takes the identifiers from the end
    match delAll s.fe.eventlist s.cleanupEids.reverse,
      delAll s.fe.timerlist s.cleanupTids.reverse with
    | some eventlist, some timerlist =>
      some { s with fe := { s.fe with eventlist := eventlist, timerlist := timerlist }
                    cleanupEids := [], cleanupTids := [], phase := .poll }
    -- a `KeyError` leaves the loop
    | _, _ => some { s with phase := .dead }
  else none

/-- The step function; `none` when the input cannot happen, or ends the VMI partition. -/
def next (env : Env G) (s : Session G) : Input G → Option (Session G)
  | .guestRuns g => some { s with vmi := { s.vmi with guest := g } }
  | .trap k => s.trapFires env k
  | .syscall => s.syscallTraced env
  | .call a => s.called env a
  | .returned => s.afterCallback env
  | .raised => s.escaped env
  | .established => s.postAppInit
  | .polled ready => s.dispatch env ready
  | .broadcast ready => s.facilities ready .broadcast .broadcastCallback .notify
  | .notify ready => s.facilities ready .notify .notifyCallback .scan
  | .scanned => s.scanEvents
  | .timer due => s.nextTimer due
  | .cleaned => s.cleanUp

/-- A fresh VMI partition and the app's constructor. -/
def initial (g : G) (identR : Bytes) : Session G :=
  { vmi := World.initial g, fe := { identR := identR } }

end Session

/-- One app on one VMI partition. -/
def sessionSystem (env : Env G) : TransitionSystem (Session G) (Input G) where
  init s := ∃ g identR, s = Session.initial g identR
  step s a s' := s.next env a = some s'

/-! ### What a step can do -/

/-- **What one step does** to the registrations of both sides and to the messages in flight. -/
inductive SessionStep (env : Env G) (s : Session G) : Input G → Session G → Prop
  /-- The frontend moves on; at the poll, a message without an entry may be dropped. -/
  | moved {i : Input G} {s' : Session G} (hsame : SameRegistry s.vmi s'.vmi)
      (hlist : s'.fe.eventlist = s.fe.eventlist)
      (hqueue : s'.queue = s.queue ∨ s'.phase.stage = .beforeScan ∧ ∃ m, s.queue = m :: s'.queue)
      (hstage : s'.phase.stage = s.phase.stage ∨ s'.phase.stage = .dead ∨
        s.phase.stage = .outside ∧ s'.phase.stage = .beforeScan)
      (hcleanup : s'.cleanupEids = s.cleanupEids) (hcleared : s'.cleared = s.cleared)
      (hinvoked : s'.invoked = s.invoked) : SessionStep env s i s'
  /-- A registration, or the syscall plugin, sends a message. -/
  | sent {i : Input G} {s' : Session G} (m : EventMsg)
      (hfrom : s.vmi.syscallPluginOwner ≠ none ∨
        ∃ k ei, s.vmi.events.lookup k = some ei ∧ m.identifier = ei.id ∧ m.source = ei.obj)
      (hsame : SameRegistry s.vmi s'.vmi) (hlist : s'.fe.eventlist = s.fe.eventlist)
      (hqueue : s'.queue = s.queue ++ [m]) (hphase : s'.phase = s.phase)
      (hcleanup : s'.cleanupEids = s.cleanupEids) (hcleared : s'.cleared = s.cleared)
      (hinvoked : s'.invoked = s.invoked) : SessionStep env s i s'
  /-- The app calls the API. -/
  | called {a : ApiCall} {ans : Answer G} (hruns : s.phase.runsApp = true)
      (hstep : ApiStep env s.fe s.vmi a ans) :
      SessionStep env s (.call a) { s with vmi := ans.vmi, fe := ans.fe
                                           cleared := s.cleared ++ s.clearedBy a ans.result }
  /-- A message is dispatched. -/
  | dispatched {ready : Bool} (m : EventMsg) (rest : List EventMsg) (e : Entry)
      (hphase : s.phase = .poll) (hqueue : s.queue = m :: rest)
      (he : s.fe.eventlist.lookup m.identifier = some e) :
      SessionStep env s (.polled ready)
        { s with queue := rest, phase := .event m.guestPaused
                 invoked := s.invoked ++ [⟨m.source, e.callback, e.callback ∈ s.cleared⟩] }
  /-- The inactive events are put on the cleanup list. -/
  | scanned {s' : Session G} (hphase : s.phase = .scan) (hvmi : s'.vmi = s.vmi)
      (hlist : s'.fe.eventlist = s.fe.eventlist) (hqueue : s'.queue = s.queue)
      (hstage : s'.phase.stage = .afterScan)
      (hmem : ∀ k, k ∈ s'.cleanupEids ↔ k ∈ s.cleanupEids ∨
        ∃ e, s.fe.eventlist.lookup k = some e ∧ e.status = .inactive)
      (hcleared : s'.cleared = s.cleared) (hinvoked : s'.invoked = s.invoked) :
      SessionStep env s .scanned s'
  /-- The events on the cleanup list are deleted. -/
  | cleaned {s' : Session G} (hphase : s.phase = .cleanup) (hvmi : s'.vmi = s.vmi)
      (hlist : ∀ k e, s'.fe.eventlist.lookup k = some e ↔
        k ∉ s.cleanupEids ∧ s.fe.eventlist.lookup k = some e)
      (hqueue : s'.queue = s.queue) (hphase' : s'.phase = .poll) (hcleanup : s'.cleanupEids = [])
      (hcleared : s'.cleared = s.cleared) (hinvoked : s'.invoked = s.invoked) :
      SessionStep env s .cleaned s'

theorem SameRegistry.refl (w : World G) : SameRegistry w w := ⟨rfl, rfl, rfl, le_rfl⟩

/-- What is left after all keys of a list have been deleted. -/
theorem lookup_delAll {β : Type} {d d' : AList fun _ : ℕ => β} {ks : List ℕ}
    (h : Session.delAll d ks = some d') {k : ℕ} {b : β} :
    d'.lookup k = some b ↔ k ∉ ks ∧ d.lookup k = some b := by
  induction ks generalizing d with
  | nil =>
    cases h
    simp
  | cons k' ks ih =>
    rw [Session.delAll] at h
    split at h
    · rw [ih h, lookup_erase_eq_some, List.mem_cons, not_or]
      constructor
      · rintro ⟨hmem, hne, hb⟩
        exact ⟨⟨hne, hmem⟩, hb⟩
      · rintro ⟨⟨hne, hmem⟩, hb⟩
        exact ⟨hmem, hne, hb⟩
    · cases h

section Steps

variable {env : Env G} {s s' : Session G}

/-- Resuming the guest changes the phase and the guest. -/
theorem resumed_spec {guestPaused : Bool} {phase : Phase}
    (h : s.resumed env guestPaused phase = some s') :
    SamePlugin s.vmi s'.vmi ∧ s' = { s with vmi := s'.vmi, phase := phase } := by
  unfold Session.resumed at h
  split at h
  · split at h
    · cases h
    · rename_i w reply hex
      cases h
      refine ⟨?_, rfl⟩
      have hw := exchange_effect rfl hex
      rw [hw]
      exact ⟨⟨rfl, rfl, rfl, le_rfl⟩, rfl⟩
  · cases h
    exact ⟨.refl _, rfl⟩

theorem send_spec (id syncState source : ℕ) :
    SamePlugin s.vmi (s.send env id syncState source).vmi := by
  unfold Session.send
  dsimp only
  split
  · exact ⟨⟨rfl, rfl, rfl, le_rfl⟩, rfl⟩
  · exact .refl _

/-- The frontend goes from one phase to another. -/
theorem SessionStep.phase {i : Input G} {phase : Phase} (hstage : phase.stage = s.phase.stage ∨
    phase.stage = .dead ∨ s.phase.stage = .outside ∧ phase.stage = .beforeScan) :
    SessionStep env s i { s with phase := phase } :=
  .moved (SameRegistry.refl _) rfl (.inl rfl) hstage rfl rfl rfl

/-- The frontend resumes the guest and goes on. -/
theorem SessionStep.resumed {i : Input G} {guestPaused : Bool} {phase : Phase}
    (hstage : phase.stage = s.phase.stage ∨ phase.stage = .dead ∨
      s.phase.stage = .outside ∧ phase.stage = .beforeScan)
    (h : s.resumed env guestPaused phase = some s') : SessionStep env s i s' := by
  obtain ⟨hsame, hs'⟩ := resumed_spec h
  rw [hs']
  exact .moved hsame.toSameRegistry rfl (.inl rfl) hstage rfl rfl rfl

theorem trapFires_step {k : ℕ} (h : s.trapFires env k = some s') :
    SessionStep env s (.trap k) s' := by
  unfold Session.trapFires at h
  split at h
  · cases h
  · rename_i ei hei
    split at h
    · split at h
      · cases h
        refine .sent ⟨ei.id, ei.syncState == fSync, ei.obj⟩ (.inr ⟨k, ei, hei, rfl, rfl⟩)
          (send_spec _ _ _).toSameRegistry rfl rfl rfl rfl rfl rfl
      · cases h
        exact .moved (SameRegistry.refl _) rfl (.inl rfl) (.inl rfl) rfl rfl rfl
    · cases h

theorem syscallTraced_step (h : s.syscallTraced env = some s') :
    SessionStep env s .syscall s' := by
  unfold Session.syscallTraced at h
  split at h
  · rename_i owner obj howner _
    cases h
    -- the plugin's owner vouches for the sender
    have hne : s.vmi.syscallPluginOwner ≠ none := by
      rw [howner]
      exact Option.some_ne_none owner
    exact .sent ⟨_, _, _⟩ (.inl hne) (send_spec _ _ _).toSameRegistry rfl rfl rfl rfl rfl rfl
  · cases h

theorem called_step {a : ApiCall} (h : s.called env a = some s') :
    SessionStep env s (.call a) s' := by
  unfold Session.called at h
  split at h
  · rename_i hruns
    split at h
    · cases h
    · rename_i ans hans
      cases h
      exact .called hruns (api_step hans)
  · cases h

theorem afterCallback_step (h : s.afterCallback env = some s') :
    SessionStep env s .returned s' := by
  unfold Session.afterCallback at h
  split at h
  · rename_i guestPaused hphase
    refine .resumed (.inl ?_) h
    rw [hphase]
    rfl
  · rename_i hphase
    cases h
    refine .phase (.inl ?_)
    rw [hphase]
    rfl
  · rename_i hphase
    cases h
    refine .phase (.inl ?_)
    rw [hphase]
    rfl
  · rename_i todo size hphase
    cases h
    refine .phase (.inl ?_)
    rw [hphase]
    rfl
  · cases h

theorem escaped_step (h : s.escaped env = some s') : SessionStep env s .raised s' := by
  unfold Session.escaped at h
  split at h
  · exact .resumed (.inr (.inl rfl)) h
  · cases h
    exact .phase (.inr (.inl rfl))
  · cases h
    exact .phase (.inr (.inl rfl))
  · cases h
    exact .phase (.inr (.inl rfl))
  · cases h
    exact .phase (.inr (.inl rfl))
  · cases h

theorem postAppInit_step (h : s.postAppInit = some s') : SessionStep env s .established s' := by
  unfold Session.postAppInit at h
  dsimp only at h
  split at h
  · rename_i hphase
    cases h
    split
    · refine .phase (.inl ?_)
      rw [hphase]
      rfl
    · exact .phase (.inr (.inl rfl))
  · cases h

theorem dispatch_step {ready : Bool} (h : s.dispatch env ready = some s') :
    SessionStep env s (.polled ready) s' := by
  unfold Session.dispatch at h
  split at h
  · rename_i hphase
    have houtside : s.phase.stage = .outside := by
      rw [hphase]
      rfl
    split at h
    · cases h
      exact .phase (.inr (.inr ⟨houtside, rfl⟩))
    · cases h
    · rename_i m rest hqueue
      split at h
      · rename_i e he
        cases h
        exact .dispatched m rest e hphase hqueue he
      · -- the error is logged, and the guest is resumed all the same
        obtain ⟨hsame, hs'⟩ := resumed_spec h
        rw [hs']
        exact .moved hsame.toSameRegistry rfl (.inr ⟨rfl, m, hqueue⟩)
          (.inr (.inr ⟨houtside, rfl⟩)) rfl rfl rfl
  · cases h

theorem facilities_step {i : Input G} {ready : Bool} {here callback after : Phase}
    (hcallback : callback.stage = here.stage) (hafter : after.stage = here.stage)
    (h : s.facilities ready here callback after = some s') : SessionStep env s i s' := by
  unfold Session.facilities at h
  split at h
  · rename_i hphase
    cases h
    refine .phase (.inl ?_)
    rw [hphase]
    split
    · exact hcallback
    · exact hafter
  · cases h

theorem scanEvents_step (h : s.scanEvents = some s') : SessionStep env s .scanned s' := by
  unfold Session.scanEvents at h
  split at h
  · rename_i hphase
    cases h
    refine .scanned hphase rfl rfl rfl rfl ?_ rfl rfl
    intro k
    -- an identifier joins the list when its entry is there and inactive
    rw [List.mem_append, List.mem_filter, ← AList.mem_keys, ← AList.lookup_isSome]
    cases s.fe.eventlist.lookup k with
    | none => simp
    | some e => simp
  · cases h

theorem nextTimer_step {due : Bool} (h : s.nextTimer due = some s') :
    SessionStep env s (.timer due) s' := by
  unfold Session.nextTimer at h
  split at h
  · rename_i todo size hphase
    have hstage : s.phase.stage = .afterScan := by
      rw [hphase]
      rfl
    split at h
    · cases h
      exact .phase (.inr (.inl rfl))
    split at h
    · cases h
      exact .phase (.inl hstage.symm)
    split at h
    · cases h
      exact .phase (.inr (.inl rfl))
    split at h
    · cases h
      exact .moved (SameRegistry.refl _) rfl (.inl rfl) (.inl hstage.symm) rfl rfl rfl
    · split at h
      · cases h
        exact .phase (.inl hstage.symm)
      · cases h
        exact .phase (.inl hstage.symm)
  · cases h

theorem cleanUp_step (h : s.cleanUp = some s') : SessionStep env s .cleaned s' := by
  unfold Session.cleanUp at h
  split at h
  · rename_i hphase
    split at h
    · rename_i eventlist timerlist hevents htimers
      cases h
      refine .cleaned hphase rfl ?_ rfl rfl rfl rfl rfl
      intro k e
      show eventlist.lookup k = some e ↔ _
      rw [lookup_delAll hevents, List.mem_reverse]
    · cases h
      exact .phase (.inr (.inl rfl))
  · cases h

/-- **Every step is a session step.** -/
theorem session_step {i : Input G} (h : s.next env i = some s') : SessionStep env s i s' := by
  cases i with
  | guestRuns g =>
    cases h
    exact .moved ⟨rfl, rfl, rfl, le_rfl⟩ rfl (.inl rfl) (.inl rfl) rfl rfl rfl
  | trap k => exact trapFires_step h
  | syscall => exact syscallTraced_step h
  | call a => exact called_step h
  | returned => exact afterCallback_step h
  | raised => exact escaped_step h
  | established => exact postAppInit_step h
  | polled ready => exact dispatch_step h
  | broadcast ready =>
    have hf : s.facilities ready .broadcast .broadcastCallback .notify = some s' := h
    refine facilities_step ?_ ?_ hf
    · rfl
    · rfl
  | notify ready =>
    have hf : s.facilities ready .notify .notifyCallback .scan = some s' := h
    refine facilities_step ?_ ?_ hf
    · rfl
    · rfl
  | scanned => exact scanEvents_step h
  | timer due => exact nextTimer_step h
  | cleaned => exact cleanUp_step h

end Steps

end Furnace.App
