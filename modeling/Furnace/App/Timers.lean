import Furnace.App.Loop

namespace Furnace.App

open Furnace.Proto Furnace.Lib Furnace.Vmi

/-!
# Timers and the clock

A session in which the timers have their `time_value` and `last_called`, and the loop over
`timerlist` looks at the time of its iteration.  Times are any type with an addition and an order;
the clock may show anything.

* `Clocked` — the session with its times, and two ghosts: which timers were set `INACTIVE`, and
  the turns that the loop has given them.
* `Clocked.next` — the step function; it is the session's, with the times that decide which timer
  is due.
* `TimerStep`, `timerStep_of_run` — what an API call does to `timerlist`.
* `quiet_position` — what the other steps do to it, and to the loop's place in it.
-/

/-! ### State -/

/-- The `time_value` and the `last_called` of a timer. -/
structure TimerTimes (T : Type) where
  timeValue : T
  lastCalled : T

/-- A turn of the loop over `timerlist`, with what it found: the entry, its times, the time of the
    iteration, and whether the timer had been set `INACTIVE`. -/
structure Turn (T : Type) where
  tid : ℕ
  entry : TimerEntry
  times : Option (TimerTimes T)
  time : T
  inactivated : Bool
  fired : Bool

/-- A session with a clock.  `inactivated`, `past` and `turns` are ghosts: the timers that were
    set `INACTIVE`, the turns of the iterations before, and those of this iteration. -/
structure Clocked (G T : Type) where
  session : Session G
  times : ℕ → Option (TimerTimes T) := fun _ => none
  curtime : T
  inactivated : List ℕ := []
  past : List (Turn T) := []
  turns : List (Turn T) := []

/-- The callback of a timer runs. -/
def Phase.isTimerCallback : Phase → Bool
  | .timerCallback _ _ => true
  | _ => false

/-- The registration of a timer with a time value that is a number. -/
def EventData.registersTimer (d : EventData) : Bool :=
  d.callable && d.eventType = .timer && d.timeValue

/-- The timer whose turn it is, with its entry. -/
def Session.turnOf {G : Type} (s : Session G) : Option (ℕ × TimerEntry) :=
  match s.phase with
  | .timers (tk :: _) size =>
    if s.fe.timerlist.keys.length ≠ size then none
    else (s.fe.timerlist.lookup tk).map fun tv => (tk, tv)
  | _ => none

section Turned

variable {G T : Type}

namespace Clocked

/-! ### Turns -/

/-- After a turn: `last_called` is set before the callback runs. -/
def afterTurn (c : Clocked G T) (s : Session G) (tk : ℕ) (tv : TimerEntry) : Clocked G T :=
  let fired := s.phase.isTimerCallback
  let called := (c.times tk).map fun τ => { τ with lastCalled := c.curtime }
  { c with session := s
           times := if fired then Function.update c.times tk called else c.times
           turns := c.turns ++ [⟨tk, tv, c.times tk, c.curtime, tk ∈ c.inactivated, fired⟩] }

/-- A timer that fires has been called at the time of the iteration. -/
theorem times_afterTurn_self {c : Clocked G T} {s : Session G} {tk : ℕ} {tv : TimerEntry}
    (h : s.phase.isTimerCallback = true) : (c.afterTurn s tk tv).times tk =
      (c.times tk).map fun τ => { τ with lastCalled := c.curtime } := by
  show (if s.phase.isTimerCallback = true then Function.update c.times tk _ else c.times) tk = _
  rw [if_pos h, Function.update_self]

/-- All other times stay. -/
theorem times_afterTurn_of_ne {c : Clocked G T} {s : Session G} {tk tid : ℕ} {tv : TimerEntry}
    (h : ¬ (tid = tk ∧ s.phase.isTimerCallback = true)) :
    (c.afterTurn s tk tv).times tid = c.times tid := by
  show (if s.phase.isTimerCallback = true then Function.update c.times tk _ else c.times) tid = _
  split_ifs with hfired
  · exact Function.update_of_ne (fun htid => h ⟨htid, hfired⟩) _ _
  · rfl

end Clocked

end Turned

section Times

variable {G T : Type} [Zero T]

namespace Clocked

/-! ### Calls -/

/-- The times after a call: a new timer has never been called. -/
def timesAfter (c : Clocked G T) (a : ApiCall) (timeValue : T) : ℕ → Option (TimerTimes T) :=
  match a with
  | .eventRegister d =>
    if d.registersTimer then
      Function.update c.times c.session.fe.nextTid (some { timeValue, lastCalled := 0 })
    else c.times
  | _ => c.times

/-- Which timers a call sets `INACTIVE`. -/
def inactivatedBy (a : ApiCall) (fe : FE) : List ℕ :=
  match a with
  | .eventClear eid => if fe.timerlist.lookup eid = some ⟨.timer, .inactive⟩ then [eid] else []
  | _ => []

/-- Only the entry of a timer that is registered gets new times. -/
theorem timesAfter_of_ne {c : Clocked G T} {a : ApiCall} {x : T} {tid : ℕ}
    (h : tid ≠ c.session.fe.nextTid) :
    c.timesAfter a x tid = c.times tid := by
  unfold Clocked.timesAfter
  split
  · split
    · exact Function.update_of_ne h _ _
    · rfl
  · rfl

/-- A timer that a call has set `INACTIVE` is. -/
theorem lookup_of_mem_inactivatedBy {a : ApiCall} {fe : FE} {tid : ℕ}
    (h : tid ∈ inactivatedBy a fe) : fe.timerlist.lookup tid = some ⟨.timer, .inactive⟩ := by
  unfold inactivatedBy at h
  split at h
  · split at h
    · rename_i hinactive
      rw [List.mem_singleton.mp h]
      exact hinactive
    · cases h
  · cases h

end Clocked

end Times

section Clock

variable {G T : Type} [Zero T] [Add T] [LT T] [DecidableLT T]

/-- `tv["last_called"] + tv["time_value"] < curtime`. -/
def TimerTimes.due (τ : TimerTimes T) (curtime : T) : Bool :=
  decide (τ.lastCalled + τ.timeValue < curtime)

namespace Clocked

/-! ### Steps -/

/-- Whether the timer whose turn it is is due. -/
def due (c : Clocked G T) : Bool :=
  match c.session.phase with
  | .timers (tk :: _) _ => (c.times tk).any fun τ => τ.due c.curtime
  | _ => false

/-- One turn of the loop over `timerlist`. -/
def timerTurn (c : Clocked G T) : Option (Clocked G T) :=
  (c.session.nextTimer c.due).map fun s =>
    match c.session.turnOf with
    | none => { c with session := s }
    | some (tk, tv) => c.afterTurn s tk tv

/-- The app calls the API. -/
def called (env : Env G) (c : Clocked G T) (a : ApiCall) (timeValue : T) :
    Option (Clocked G T) :=
  (c.session.called env a).map fun s =>
    { c with session := s
             times := c.timesAfter a timeValue
             inactivated := c.inactivated ++ inactivatedBy a s.fe }

/-- `curtime = time.time()`, and the scan of `eventlist`. -/
def scanned (c : Clocked G T) (curtime : T) : Option (Clocked G T) :=
  c.session.scanEvents.map fun s =>
    { c with session := s, curtime := curtime, past := c.past ++ c.turns, turns := [] }

/-- A step in which the clock plays no part. -/
def plain (env : Env G) (c : Clocked G T) (i : Input G) : Option (Clocked G T) :=
  (c.session.next env i).map fun s => { c with session := s }

/-- The step function; the time goes with the inputs that need one, and whether a timer is due is
    for the clock to say. -/
def next (env : Env G) (c : Clocked G T) : Input G × T → Option (Clocked G T)
  | (.call a, timeValue) => c.called env a timeValue
  | (.scanned, curtime) => c.scanned curtime
  | (.timer _, _) => c.timerTurn
  | (i, _) => c.plain env i

/-- A step is a call, a scan, a turn, or one in which the clock plays no part. -/
theorem next_cases {env : Env G} {c c' : Clocked G T} {i : Input G} {x : T}
    (h : c.next env (i, x) = some c') :
    (∃ a, i = .call a ∧ c.called env a x = some c') ∨ c.scanned x = some c' ∨
      c.timerTurn = some c' ∨
      (∀ a, i ≠ .call a) ∧ i ≠ .scanned ∧ (∀ due, i ≠ .timer due) ∧ c.plain env i = some c' := by
  cases i with
  | call a => exact .inl ⟨a, rfl, h⟩
  | scanned => exact .inr (.inl h)
  | timer due => exact .inr (.inr (.inl h))
  | _ => exact .inr (.inr (.inr ⟨by simp, by simp, by simp, h⟩))

/-- **A step of a clocked session is a step of the session.** -/
theorem next_session {env : Env G} {c c' : Clocked G T} {i : Input G} {x : T}
    (h : c.next env (i, x) = some c') : ∃ i', c.session.next env i' = some c'.session := by
  rcases next_cases h with ⟨a, -, h⟩ | h | h | ⟨-, -, -, h⟩
  · obtain ⟨s, hs, rfl⟩ := Option.map_eq_some_iff.mp h
    exact ⟨.call a, hs⟩
  · obtain ⟨s, hs, rfl⟩ := Option.map_eq_some_iff.mp h
    exact ⟨.scanned, hs⟩
  · obtain ⟨s, hs, rfl⟩ := Option.map_eq_some_iff.mp h
    refine ⟨.timer c.due, ?_⟩
    rw [show c.session.next env (.timer c.due) = some s from hs]
    cases c.session.turnOf <;> rfl
  · obtain ⟨s, hs, rfl⟩ := Option.map_eq_some_iff.mp h
    exact ⟨i, hs⟩

end Clocked

end Clock

/-! ### What a call does to the timers -/

section Calls

variable {G : Type} {env : Env G} {fe : FE} {w : World G}

/-- The registration goes into `timerlist`. -/
def EventData.Local (d : EventData) : Prop :=
  d.callable = true ∧ (d.eventType = .be ∨ d.eventType = .timer ∧ d.timeValue = true)

/-- **What one API call does to `timerlist`.** -/
inductive TimerStep (fe : FE) : ApiCall → FE → Prop
  | kept {a : ApiCall} {fe' : FE} (htimers : fe'.timerlist = fe.timerlist)
      (htid : fe.nextTid ≤ fe'.nextTid) (hlocal : ∀ d, a = .eventRegister d → ¬ d.Local) :
      TimerStep fe a fe'
  | registered {d : EventData} {fe' : FE} (kind : LocalType) (hlocal : d.Local)
      (hkind : kind = .timer ↔ d.registersTimer = true)
      (htimers : fe'.timerlist = fe.timerlist.insert fe.nextTid ⟨kind, .active⟩)
      (htid : fe'.nextTid = fe.nextTid + 1) : TimerStep fe (.eventRegister d) fe'
  | cleared {eid : ℕ} {fe' : FE} (ht : ∃ status, fe.timerlist.lookup eid = some ⟨.timer, status⟩)
      (htimers : fe'.timerlist = fe.timerlist.insert eid ⟨.timer, .inactive⟩)
      (htid : fe'.nextTid = fe.nextTid) : TimerStep fe (.eventClear eid) fe'

/-- What the VMI partition has to do with goes into `eventlist`. -/
def EntersEvent (fe fe' : FE) : Prop :=
  fe' = fe ∨ ∃ eid e, fe' = { fe with eventlist := fe.eventlist.insert eid e }

theorem registerVmi_enters {eventType : VmiType} {m : Msg} {ans : Answer G}
    (h : fe.registerVmi env eventType m w = .ok ans) : EntersEvent fe ans.fe := by
  unfold FE.registerVmi at h
  obtain ⟨⟨w₁, reply⟩, -, h⟩ := bind_eq_ok.mp h
  dsimp only at h
  split at h
  · cases h
    exact .inl rfl
  · split at h
    · cases h
      exact .inr ⟨_, _, rfl⟩
    · cases h
      exact .inl rfl

theorem startSyscall_enters {callable : Bool} {sync : ℕ} {ans : Answer G}
    (h : fe.startSyscall env callable sync w = .ok ans) : EntersEvent fe ans.fe := by
  unfold FE.startSyscall at h
  split at h
  · cases h
    exact .inl rfl
  split at h
  · cases h
    exact .inl rfl
  · obtain ⟨⟨w₁, reply⟩, -, h⟩ := bind_eq_ok.mp h
    dsimp only at h
    split at h
    · cases h
      exact .inr ⟨_, _, rfl⟩
    · cases h
      exact .inl rfl

theorem stopSyscall_enters {eid : ℕ} {ans : Answer G}
    (h : fe.stopSyscall env eid w = .ok ans) : EntersEvent fe ans.fe := by
  unfold FE.stopSyscall at h
  split at h
  · cases h
    exact .inl rfl
  · obtain ⟨⟨w₁, reply⟩, -, h⟩ := bind_eq_ok.mp h
    cases h
    show EntersEvent fe (if _ then _ else _)
    split
    · exact .inr ⟨_, _, rfl⟩
    · exact .inl rfl

/-- Neither `timerlist` nor its next identifier changes. -/
theorem EntersEvent.kept {fe fe' : FE} {a : ApiCall} (h : EntersEvent fe fe')
    (hlocal : ∀ d, a = .eventRegister d → ¬ d.Local) : TimerStep fe a fe' := by
  rcases h with rfl | ⟨eid, e, rfl⟩
  · exact .kept rfl le_rfl hlocal
  · exact .kept rfl le_rfl hlocal

/-- An event that has an entry keeps one. -/
theorem EntersEvent.mem {fe fe' : FE} (h : EntersEvent fe fe') {k : ℕ} (hk : k ∈ fe.eventlist) :
    k ∈ fe'.eventlist := by
  rcases h with rfl | ⟨eid, e, rfl⟩
  · exact hk
  · exact (AList.mem_insert _).mpr (.inr hk)

theorem eventRegister_timerStep {d : EventData} {ans : Answer G}
    (h : fe.eventRegister env d w = .ok ans) :
    TimerStep fe (.eventRegister d) ans.fe ∧ ∀ k ∈ fe.eventlist, k ∈ ans.fe.eventlist := by
  unfold FE.eventRegister at h
  by_cases hcallable : d.callable = true
  · rw [hcallable] at h
    cases htype : d.eventType with
    | be =>
      rw [htype] at h
      cases h
      refine ⟨.registered .be ⟨hcallable, .inl htype⟩ ?_ rfl rfl, fun k hk => hk⟩
      simp [EventData.registersTimer, htype]
    | timer =>
      rw [htype] at h
      by_cases hvalue : d.timeValue = true
      · simp only [hvalue, if_true] at h
        cases h
        refine ⟨.registered .timer ⟨hcallable, .inr ⟨htype, hvalue⟩⟩ ?_ rfl rfl,
          fun k hk => hk⟩
        simp [EventData.registersTimer, htype, hvalue, hcallable]
      · simp only [hvalue] at h
        cases h
        refine ⟨.kept rfl (Nat.le_succ _) fun d' hd hlocal => ?_, fun k hk => hk⟩
        cases hd
        rcases hlocal.2 with hbe | ⟨-, hv⟩
        · rw [htype] at hbe
          cases hbe
        · exact hvalue hv
    | _ =>
      have hlocal : ∀ d', ApiCall.eventRegister d = .eventRegister d' → ¬ d'.Local := by
        intro d' hd hlocal
        cases hd
        rcases hlocal.2 with hbe | ⟨ht, -⟩
        · rw [htype] at hbe
          cases hbe
        · rw [htype] at ht
          cases ht
      rw [htype] at h
      dsimp only at h
      cases hreq : d.request with
      | error e =>
        rw [hreq] at h
        cases h
        exact ⟨.kept rfl le_rfl hlocal, fun k hk => hk⟩
      | ok r =>
        rw [hreq] at h
        have henters : EntersEvent fe ans.fe := registerVmi_enters h
        exact ⟨henters.kept hlocal, fun k hk => henters.mem hk⟩
  · have hfalse : d.callable = false := by simpa using hcallable
    rw [hfalse] at h
    cases h
    refine ⟨.kept rfl le_rfl fun d' hd hlocal => ?_, fun k hk => hk⟩
    cases hd
    exact hcallable hlocal.1

theorem eventClear_timerStep {eid : ℕ} {ans : Answer G} (h : fe.eventClear env eid w = .ok ans) :
    TimerStep fe (.eventClear eid) ans.fe ∧ ∀ k ∈ fe.eventlist, k ∈ ans.fe.eventlist := by
  unfold FE.eventClear at h
  have hlocal : ∀ d, ApiCall.eventClear eid = .eventRegister d → ¬ d.Local := by simp
  split at h
  · split at h
    · cases h
      exact ⟨.kept rfl le_rfl hlocal, fun k hk => hk⟩
    · obtain ⟨⟨w₁, reply⟩, -, h⟩ := bind_eq_ok.mp h
      dsimp only at h
      split at h
      · cases h
        exact ⟨.kept rfl le_rfl hlocal, fun k hk => hk⟩
      · split at h
        · cases h
          exact ⟨.kept rfl le_rfl hlocal, fun k hk => (AList.mem_insert _).mpr (.inr hk)⟩
        · cases h
          exact ⟨.kept rfl le_rfl hlocal, fun k hk => hk⟩
  · split at h
    · rename_i status ht
      cases h
      exact ⟨.cleared ⟨status, ht⟩ rfl rfl, fun k hk => hk⟩
    · cases h
      exact ⟨.kept rfl le_rfl hlocal, fun k hk => hk⟩
    · cases h
      exact ⟨.kept rfl le_rfl hlocal, fun k hk => hk⟩

/-- **Every API call is such a step**, and no call deletes an entry of `eventlist`. -/
theorem timerStep_of_run {a : ApiCall} {ans : Answer G} (h : a.run env fe w = .ok ans) :
    TimerStep fe a ans.fe ∧ ∀ k ∈ fe.eventlist, k ∈ ans.fe.eventlist := by
  cases a with
  | eventRegister d => exact eventRegister_timerStep h
  | eventClear eid => exact eventClear_timerStep h
  | startSyscall callable sync =>
    have henters : EntersEvent fe ans.fe := startSyscall_enters h
    exact ⟨henters.kept (by simp), fun k hk => henters.mem hk⟩
  | stopSyscall eid =>
    have henters : EntersEvent fe ans.fe := stopSyscall_enters h
    exact ⟨henters.kept (by simp), fun k hk => henters.mem hk⟩
  | eventsStart | eventsStop =>
    obtain ⟨⟨w₁, reply⟩, -, h⟩ := bind_eq_ok.mp h
    cases h
    exact ⟨.kept rfl le_rfl (by simp), fun k hk => hk⟩

end Calls

/-! ### What the other steps do -/

/-- Where an iteration is, as far as the timers go. -/
inductive Position
  | outside | turns (todo : List ℕ) (size : ℕ) | cleanup | dead
  deriving DecidableEq, Repr

def Phase.position : Phase → Position
  | .timers todo size | .timerCallback todo size => .turns todo size
  | .cleanup => .cleanup
  | .dead => .dead
  | _ => .outside

section Aside

variable {G : Type} {env : Env G} {s s' : Session G}

/-- A step that leaves the frontend and its cleanup lists alone, and the place of the iteration
    unless it ends the loop. -/
structure Aside (s s' : Session G) : Prop where
  fe : s'.fe = s.fe
  cleanupEids : s'.cleanupEids = s.cleanupEids
  cleanupTids : s'.cleanupTids = s.cleanupTids
  position : s'.phase.position = s.phase.position ∨ s'.phase = .dead

theorem Aside.phase {phase : Phase} (h : phase.position = s.phase.position ∨ phase = .dead) :
    Aside s { s with phase := phase } := ⟨rfl, rfl, rfl, h⟩

theorem Aside.resumed {guestPaused : Bool} {phase : Phase}
    (hphase : phase.position = s.phase.position ∨ phase = .dead)
    (h : s.resumed env guestPaused phase = some s') : Aside s s' := by
  obtain ⟨-, hs'⟩ := resumed_spec h
  rw [hs']
  exact ⟨rfl, rfl, rfl, hphase⟩

theorem trapFires_aside {k : ℕ} (h : s.trapFires env k = some s') : Aside s s' := by
  unfold Session.trapFires at h
  split at h
  · cases h
  · split at h
    · split at h <;> (cases h; exact ⟨rfl, rfl, rfl, .inl rfl⟩)
    · cases h

theorem syscallTraced_aside (h : s.syscallTraced env = some s') : Aside s s' := by
  unfold Session.syscallTraced at h
  split at h
  · cases h
    exact ⟨rfl, rfl, rfl, .inl rfl⟩
  · cases h

theorem afterCallback_aside (h : s.afterCallback env = some s') : Aside s s' := by
  unfold Session.afterCallback at h
  split at h
  · rename_i hphase
    refine .resumed (.inl ?_) h
    rw [hphase]
    rfl
  · rename_i hphase
    cases h
    refine .phase (.inl ?_)
    rw [hphase]
    rfl
  · rename_i hphase
    cases h
    refine .phase (.inl ?_)
    rw [hphase]
    rfl
  · rename_i hphase
    cases h
    refine .phase (.inl ?_)
    rw [hphase]
    rfl
  · cases h

theorem escaped_aside (h : s.escaped env = some s') : Aside s s' := by
  unfold Session.escaped at h
  split at h
  · exact .resumed (.inr rfl) h
  · cases h
    exact .phase (.inr rfl)
  · cases h
    exact .phase (.inr rfl)
  · cases h
    exact .phase (.inr rfl)
  · cases h
    exact .phase (.inr rfl)
  · cases h

theorem postAppInit_aside (h : s.postAppInit = some s') : Aside s s' := by
  unfold Session.postAppInit at h
  dsimp only at h
  split at h
  · rename_i hphase
    cases h
    split
    · refine .phase (.inl ?_)
      rw [hphase]
      rfl
    · exact .phase (.inr rfl)
  · cases h

theorem dispatch_aside {ready : Bool} (h : s.dispatch env ready = some s') : Aside s s' := by
  unfold Session.dispatch at h
  split at h
  · rename_i hphase
    have houtside : s.phase.position = .outside := by
      rw [hphase]
      rfl
    split at h
    · cases h
      exact .phase (.inl houtside.symm)
    · cases h
    · split at h
      · cases h
        exact ⟨rfl, rfl, rfl, .inl houtside.symm⟩
      · obtain ⟨-, hs'⟩ := resumed_spec h
        rw [hs']
        exact ⟨rfl, rfl, rfl, .inl houtside.symm⟩
  · cases h

theorem facilities_aside {ready : Bool} {here callback after : Phase}
    (hcallback : callback.position = here.position) (hafter : after.position = here.position)
    (h : s.facilities ready here callback after = some s') : Aside s s' := by
  unfold Session.facilities at h
  split at h
  · rename_i hphase
    cases h
    refine .phase (.inl ?_)
    rw [hphase]
    split
    · exact hcallback
    · exact hafter
  · cases h

/-- **What the steps do that are none of a call, a scan, a turn and a cleanup.** -/
theorem aside_of_next {i : Input G} (hcall : ∀ a, i ≠ .call a) (hscan : i ≠ .scanned)
    (hturn : ∀ due, i ≠ .timer due) (hclean : i ≠ .cleaned) (h : s.next env i = some s') :
    Aside s s' := by
  cases i with
  | guestRuns g =>
    cases h
    exact ⟨rfl, rfl, rfl, .inl rfl⟩
  | trap k => exact trapFires_aside h
  | syscall => exact syscallTraced_aside h
  | call a => exact absurd rfl (hcall a)
  | returned => exact afterCallback_aside h
  | raised => exact escaped_aside h
  | established => exact postAppInit_aside h
  | polled ready => exact dispatch_aside h
  | broadcast ready | notify ready =>
    change s.facilities ready _ _ _ = _ at h
    refine facilities_aside ?_ ?_ h
    · rfl
    · rfl
  | scanned => exact absurd rfl hscan
  | timer due => exact absurd rfl (hturn due)
  | cleaned => exact absurd rfl hclean

end Aside

/-! ### The loop over `timerlist` -/

section Turns

variable {G : Type}

/-- The keys of `timerlist`, each once. -/
theorem nodup_timerKeys (s : Session G) : s.timerKeys.Nodup := List.nodup_range.filter _

/-- **A turn of an entry that is there.** It is put on the cleanup list, or called, or left
    alone. -/
theorem nextTimer_turn {s : Session G} {tk size : ℕ} {todo : List ℕ} {tv : TimerEntry}
    (hphase : s.phase = .timers (tk :: todo) size)
    (hsize : size = s.fe.timerlist.keys.length)
    (htv : s.fe.timerlist.lookup tk = some tv) (due : Bool) :
    ∃ s', s.nextTimer due = some s' ∧ s'.fe = s.fe ∧ s'.cleanupEids = s.cleanupEids ∧
      (s'.cleanupTids = s.cleanupTids ∨ s'.cleanupTids = s.cleanupTids ++ [tk]) ∧
      (s'.phase = .timers todo size ∧ ¬ (tv.eventType = .timer ∧ tv.status = .active ∧ due = true) ∨
        s'.phase = .timerCallback todo size ∧ tv.eventType = .timer ∧ tv.status = .active ∧
          due = true) := by
  unfold Session.nextTimer
  rw [hphase]
  dsimp only
  rw [if_neg (not_not.mpr hsize.symm), htv]
  dsimp only
  by_cases hactive : tv.status = .active
  · rw [if_neg (not_not.mpr hactive)]
    by_cases hdue : tv.eventType = .timer ∧ due = true
    · rw [if_pos hdue]
      exact ⟨_, rfl, rfl, rfl, .inl rfl, .inr ⟨rfl, hdue.1, hactive, hdue.2⟩⟩
    · rw [if_neg hdue]
      exact ⟨_, rfl, rfl, rfl, .inl rfl, .inl ⟨rfl, fun h => hdue ⟨h.1, h.2.2⟩⟩⟩
  · rw [if_pos hactive]
    exact ⟨_, rfl, rfl, rfl, .inr rfl, .inl ⟨rfl, fun h => hactive h.2.1⟩⟩

/-- The last turn is over. -/
theorem nextTimer_end {s : Session G} {size : ℕ} (hphase : s.phase = .timers [] size)
    (hsize : size = s.fe.timerlist.keys.length) (due : Bool) :
    s.nextTimer due = some { s with phase := .cleanup } := by
  unfold Session.nextTimer
  rw [hphase]
  dsimp only
  rw [if_neg (not_not.mpr hsize.symm)]

/-- Entering an entry under a key that is there leaves the keys. -/
theorem length_keys_insert {β : Type} {d : AList fun _ : ℕ => β} {k : ℕ} (b : β) (h : k ∈ d) :
    (d.insert k b).keys.length = d.keys.length := by
  have hpos : 0 < d.keys.length := List.length_pos_of_mem (AList.mem_keys.mpr h)
  rw [AList.keys_insert, List.length_cons, List.length_erase_of_mem (AList.mem_keys.mpr h)]
  omega

/-- While the loop over `timerlist` is going on, the app runs in the callback of a timer. -/
theorem runsApp_position {phase : Phase} (h : phase.runsApp = true) :
    phase.position = .outside ∨ phase.isTimerCallback = true := by
  cases phase <;> first | exact .inl rfl | exact .inr rfl | cases h

end Turns

/-! ### The cleanup -/

/-- Keys that are there, each once, can be deleted. -/
theorem exists_delAll {β : Type} {d : AList fun _ : ℕ => β} {ks : List ℕ} (hnodup : ks.Nodup)
    (hmem : ∀ k ∈ ks, k ∈ d) : ∃ d', Session.delAll d ks = some d' := by
  induction ks generalizing d with
  | nil => exact ⟨d, rfl⟩
  | cons k ks ih =>
    obtain ⟨hk, hnodup⟩ := List.nodup_cons.mp hnodup
    rw [Session.delAll, if_pos (hmem k (List.mem_cons_self ..))]
    refine ih hnodup fun k' hk' => AList.mem_erase.mpr ⟨?_, hmem k' (List.mem_cons_of_mem _ hk')⟩
    rintro rfl
    exact hk hk'

end Furnace.App
