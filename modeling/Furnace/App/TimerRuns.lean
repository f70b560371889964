import Mathlib.Algebra.Order.Group.Abs
import Mathlib.Algebra.Order.Group.Int
import Mathlib.Algebra.Ring.Int.Defs
import Furnace.App.Timers

namespace Furnace.App

open Furnace.Proto Furnace.Lib Furnace.Vmi

/-!
# Which timers fire

The loop over `timerlist` raises when the dict has grown, so that a timer callback that registers
a timer ends the loop.  In all runs without such a callback, and without one that raises, the
timers are dispatched as they should be.

* `Behaves` — the condition on the timer callbacks.
* `Dispatches` — the loop goes on; every timer has one turn in each iteration, and fires in it
  exactly if it is due; two firings are more than the time value apart, and none comes after the
  timer was set `INACTIVE`.
* `dispatches_reach` — **whatever else happens, every state of such a run dispatches**.
-/

/-! ### The turns and the place of an iteration -/

section AtPlace

variable {G T : Type} {c : Clocked G T}

/-- The turns of all iterations. -/
def Clocked.allTurns (c : Clocked G T) : List (Turn T) := c.past ++ c.turns

/-- The turns are those before and this one. -/
theorem Clocked.allTurns_afterTurn (c : Clocked G T) (s : Session G) (tk : ℕ) (tv : TimerEntry) :
    (c.afterTurn s tk tv).allTurns = c.allTurns ++ [⟨tk, tv, c.times tk, c.curtime,
      decide (tk ∈ c.inactivated), s.phase.isTimerCallback⟩] :=
  (List.append_assoc _ _ _).symm

/-- What holds of the turns before and of this one holds of all. -/
theorem Clocked.forall_allTurns_afterTurn {s : Session G} {tk : ℕ} {tv : TimerEntry}
    {P : Turn T → Prop} (hold : ∀ u ∈ c.allTurns, P u)
    (hlast : P ⟨tk, tv, c.times tk, c.curtime, decide (tk ∈ c.inactivated),
      s.phase.isTimerCallback⟩) :
    ∀ u ∈ (c.afterTurn s tk tv).allTurns, P u := by
  rw [c.allTurns_afterTurn s tk tv]
  intro u hu
  rcases List.mem_append.mp hu with hu | hu
  · exact hold u hu
  · rwa [List.mem_singleton.mp hu]

/-- Between the scan and the cleanup: the entries that have had their turns, and what is on the
    cleanup lists. -/
structure Between (c : Clocked G T) (todo : List ℕ) : Prop where
  turns : c.turns.map Turn.tid ++ todo = c.session.timerKeys
  tidsNodup : c.session.cleanupTids.Nodup
  tids : ∀ tid ∈ c.session.cleanupTids, tid ∈ c.turns.map Turn.tid
  eidsNodup : c.session.cleanupEids.Nodup
  eids : ∀ eid ∈ c.session.cleanupEids, eid ∈ c.session.fe.eventlist

/-- What holds at the place where the iteration is. -/
def AtPlace (c : Clocked G T) : Prop :=
  match c.session.phase.position with
  | .outside => c.session.cleanupEids = [] ∧ c.session.cleanupTids = []
  | .turns todo size => size = c.session.fe.timerlist.keys.length ∧ Between c todo
  | .cleanup => Between c []
  | .dead => True

theorem atPlace_outside (hpos : c.session.phase.position = .outside) :
    AtPlace c ↔ c.session.cleanupEids = [] ∧ c.session.cleanupTids = [] := by
  rw [AtPlace, hpos]

theorem atPlace_turns {todo : List ℕ} {size : ℕ}
    (hpos : c.session.phase.position = .turns todo size) :
    AtPlace c ↔ size = c.session.fe.timerlist.keys.length ∧ Between c todo := by
  rw [AtPlace, hpos]

theorem atPlace_cleanup (hpos : c.session.phase.position = .cleanup) :
    AtPlace c ↔ Between c [] := by
  rw [AtPlace, hpos]

theorem atPlace_dead (hpos : c.session.phase.position = .dead) : AtPlace c := by
  rw [AtPlace, hpos]
  trivial

/-- A step that leaves the frontend alone keeps what holds of its cleanup lists. -/
theorem Between.aside {todo : List ℕ} {s : Session G} (h : Between c todo)
    (hs : Aside c.session s) : Between { c with session := s } todo where
  turns := by
    show _ = s.timerKeys
    unfold Session.timerKeys
    rw [hs.fe]
    exact h.turns
  tidsNodup := by
    show s.cleanupTids.Nodup
    rw [hs.cleanupTids]
    exact h.tidsNodup
  tids := by
    show ∀ tid ∈ s.cleanupTids, _
    rw [hs.cleanupTids]
    exact h.tids
  eidsNodup := by
    show s.cleanupEids.Nodup
    rw [hs.cleanupEids]
    exact h.eidsNodup
  eids := by
    show ∀ eid ∈ s.cleanupEids, eid ∈ s.fe.eventlist
    rw [hs.cleanupEids, hs.fe]
    exact h.eids

theorem AtPlace.aside {s : Session G} (h : AtPlace c) (hs : Aside c.session s) :
    AtPlace { c with session := s } := by
  rcases hs.position with hpos | hdead
  · cases hc : c.session.phase.position with
    | outside =>
      refine (atPlace_outside (hpos.trans hc)).mpr ?_
      show s.cleanupEids = [] ∧ s.cleanupTids = []
      rw [hs.cleanupEids, hs.cleanupTids]
      exact (atPlace_outside hc).mp h
    | turns todo size =>
      obtain ⟨hsize, hbetween⟩ := (atPlace_turns hc).mp h
      refine (atPlace_turns (hpos.trans hc)).mpr ⟨?_, hbetween.aside hs⟩
      show size = s.fe.timerlist.keys.length
      rw [hs.fe]
      exact hsize
    | cleanup => exact (atPlace_cleanup (hpos.trans hc)).mpr (((atPlace_cleanup hc).mp h).aside hs)
    | dead => exact atPlace_dead (hpos.trans hc)
  · exact atPlace_dead (congrArg Phase.position hdead)

end AtPlace

section Runs

variable {G T : Type} [AddCommGroup T] [LinearOrder T]

/-! ### Runs -/

/-- Sessions with a clock, which may show any time at any iteration. -/
def clockSystem (env : Env G) : TransitionSystem (Clocked G T) (Input G × T) where
  init c := ∃ g identR t, c = { session := Session.initial g identR, curtime := t }
  step c a c' := c.next env a = some c'

/-- The callback of a timer does not raise, and registers neither a timer nor a backend
    callback. -/
def Behaves (c : Clocked G T) (a : Input G × T) : Prop :=
  c.session.phase.isTimerCallback = true →
    a.1 ≠ .raised ∧ ∀ d, a.1 = .call (.eventRegister d) → ¬ d.Local

/-- The entry is an `ACTIVE` `TIMER`, and its time has come. -/
def Turn.Due (u : Turn T) : Prop :=
  u.entry.eventType = .timer ∧ u.entry.status = .active ∧
    ∃ τ, u.times = some τ ∧ τ.lastCalled + τ.timeValue < u.time

/-- **Timer dispatch, robust and exact.** -/
structure Dispatches (env : Env G) (c : Clocked G T) : Prop where
  /-- A turn does not raise: the next one follows, or the callback, or at the end the cleanup. -/
  turn : ∀ todo size, c.session.phase = .timers todo size → ∃ c', c.timerTurn = some c' ∧
    (todo = [] ∧ c'.session.phase = .cleanup ∨ ∃ tk rest, todo = tk :: rest ∧
      (c'.session.phase = .timers rest size ∨ c'.session.phase = .timerCallback rest size))
  /-- A callback that returns goes on to the next turn. -/
  returned : ∀ todo size t, c.session.phase = .timerCallback todo size →
    ∃ c', c.next env (.returned, t) = some c' ∧ c'.session.phase = .timers todo size
  /-- The cleanup does not raise either. -/
  cleanup : c.session.phase = .cleanup →
    ∃ s, c.session.cleanUp = some s ∧ s.phase = .poll
  /-- By then every entry of `timerlist` has had one turn, and nothing else has. -/
  once : c.session.phase = .cleanup → (c.turns.map Turn.tid).Nodup ∧
    ∀ tid, tid ∈ c.turns.map Turn.tid ↔ tid ∈ c.session.fe.timerlist
  time : ∀ u ∈ c.turns, u.time = c.curtime
  exact : ∀ u ∈ c.allTurns, u.fired = true ↔ u.Due
  apart : c.allTurns.Pairwise fun u v => u.tid = v.tid → u.fired = true → v.fired = true →
    ∀ τ, v.times = some τ → τ.timeValue < |v.time - u.time|
  active : ∀ u ∈ c.allTurns, u.fired = true → u.inactivated = false

/-! ### The invariant -/

/-- The invariant. -/
structure TimerInv (c : Clocked G T) : Prop where
  place : AtPlace c
  below : ∀ tid e, c.session.fe.timerlist.lookup tid = some e → tid < c.session.fe.nextTid
  timed : ∀ tid status, c.session.fe.timerlist.lookup tid = some ⟨.timer, status⟩ →
    ∃ τ, c.times tid = some τ
  stopped : ∀ tid ∈ c.inactivated, tid < c.session.fe.nextTid ∧
    ∀ e, c.session.fe.timerlist.lookup tid = some e → e.status = .inactive
  /-- A timer with a time value that is not negative was last called at its last firing. -/
  called : ∀ u ∈ c.allTurns, u.fired = true → u.tid < c.session.fe.nextTid ∧
    ∃ τ, c.times u.tid = some τ ∧ (0 ≤ τ.timeValue → u.time ≤ τ.lastCalled)
  time : ∀ u ∈ c.turns, u.time = c.curtime
  exact : ∀ u ∈ c.allTurns, u.fired = true ↔ u.Due
  apart : c.allTurns.Pairwise fun u v => u.tid = v.tid → u.fired = true → v.fired = true →
    ∀ τ, v.times = some τ → τ.timeValue < |v.time - u.time|
  active : ∀ u ∈ c.allTurns, u.fired = true → u.inactivated = false

variable {env : Env G} {c c' : Clocked G T}

theorem TimerInv.mem_timerKeys (h : TimerInv c) {tid : ℕ} :
    tid ∈ c.session.timerKeys ↔ tid ∈ c.session.fe.timerlist := by
  unfold Session.timerKeys
  rw [List.mem_filter, List.mem_range]
  constructor
  · rintro ⟨-, hmem⟩
    simpa using hmem
  · intro hmem
    obtain ⟨e, he⟩ := Option.isSome_iff_exists.mp (AList.lookup_isSome.mpr hmem)
    exact ⟨h.below tid e he, by simpa using hmem⟩

/-! ### Steps that are not turns -/

/-- A step that leaves the frontend alone. -/
theorem TimerInv.aside (h : TimerInv c) {s : Session G} (hs : Aside c.session s) :
    TimerInv { c with session := s } where
  place := h.place.aside hs
  below := by
    show ∀ tid e, s.fe.timerlist.lookup tid = some e → tid < s.fe.nextTid
    rw [hs.fe]
    exact h.below
  timed := by
    show ∀ tid status, s.fe.timerlist.lookup tid = some ⟨.timer, status⟩ → _
    rw [hs.fe]
    exact h.timed
  stopped := by
    show ∀ tid ∈ c.inactivated, tid < s.fe.nextTid ∧
      ∀ e, s.fe.timerlist.lookup tid = some e → e.status = .inactive
    rw [hs.fe]
    exact h.stopped
  called := by
    show ∀ u ∈ c.allTurns, u.fired = true → u.tid < s.fe.nextTid ∧ _
    rw [hs.fe]
    exact h.called
  time := h.time
  exact := h.exact
  apart := h.apart
  active := h.active

/-- What is on the cleanup lists can be deleted. -/
theorem TimerInv.exists_cleanUp (h : TimerInv c) (hphase : c.session.phase = .cleanup) :
    ∃ eventlist timerlist,
      Session.delAll c.session.fe.timerlist c.session.cleanupTids.reverse = some timerlist ∧
      c.session.cleanUp = some { c.session with
        fe := { c.session.fe with eventlist := eventlist, timerlist := timerlist }
        cleanupEids := [], cleanupTids := [], phase := .poll } := by
  have hbetween : Between c [] := (atPlace_cleanup (by rw [hphase]; rfl)).mp h.place
  obtain ⟨eventlist, hevents⟩ := exists_delAll (List.nodup_reverse.mpr hbetween.eidsNodup)
    fun k hk => hbetween.eids k (List.mem_reverse.mp hk)
  have htids : ∀ k ∈ c.session.cleanupTids.reverse, k ∈ c.session.fe.timerlist := by
    intro k hk
    rw [← h.mem_timerKeys, ← hbetween.turns, List.append_nil]
    exact hbetween.tids k (List.mem_reverse.mp hk)
  obtain ⟨timerlist, htimers⟩ := exists_delAll (List.nodup_reverse.mpr hbetween.tidsNodup) htids
  refine ⟨eventlist, timerlist, htimers, ?_⟩
  unfold Session.cleanUp
  rw [if_pos hphase, hevents, htimers]

/-- The cleanup. -/
theorem TimerInv.cleaned (h : TimerInv c) {s : Session G} (hs : c.session.cleanUp = some s) :
    TimerInv { c with session := s } := by
  have hphase : c.session.phase = .cleanup := by
    by_contra hne
    unfold Session.cleanUp at hs
    rw [if_neg hne] at hs
    cases hs
  obtain ⟨eventlist, timerlist, htimers, hclean⟩ := h.exists_cleanUp hphase
  rw [hclean] at hs
  cases hs
  -- what is left of `timerlist` was there before
  have hlookup : ∀ tid e, timerlist.lookup tid = some e →
      c.session.fe.timerlist.lookup tid = some e := by
    intro tid e he
    exact ((lookup_delAll htimers).mp he).2
  exact {
    place := ⟨rfl, rfl⟩
    below := fun tid e he => h.below tid e (hlookup tid e he)
    timed := fun tid status he => h.timed tid status (hlookup tid _ he)
    stopped := fun tid htid =>
      ⟨(h.stopped tid htid).1, fun e he => (h.stopped tid htid).2 e (hlookup tid e he)⟩
    called := h.called
    time := h.time
    exact := h.exact
    apart := h.apart
    active := h.active }

/-- The scan of `eventlist`, which begins an iteration. -/
theorem TimerInv.scanned (h : TimerInv c) {t : T} (hs : c.scanned t = some c') : TimerInv c' := by
  obtain ⟨s, hscan, rfl⟩ := Option.map_eq_some_iff.mp hs
  unfold Session.scanEvents at hscan
  split at hscan
  · rename_i hphase
    obtain ⟨heids, htids⟩ := (atPlace_outside (by rw [hphase]; rfl)).mp h.place
    cases hscan
    have hall : c.past ++ c.turns ++ [] = c.allTurns := List.append_nil _
    refine
      { place := ⟨rfl, ?_⟩
        below := h.below
        timed := h.timed
        stopped := h.stopped
        called := ?_
        time := nofun
        exact := ?_
        apart := ?_
        active := ?_ }
    · exact
        { turns := rfl
          tidsNodup := by
            show c.session.cleanupTids.Nodup
            rw [htids]
            exact List.nodup_nil
          tids := by
            show ∀ tid ∈ c.session.cleanupTids, _
            rw [htids]
            nofun
          eidsNodup := by
            show (c.session.cleanupEids ++ _).Nodup
            rw [heids, List.nil_append]
            exact c.session.fe.eventlist.keys_nodup.filter _
          eids := by
            show ∀ eid ∈ c.session.cleanupEids ++ _, eid ∈ c.session.fe.eventlist
            rw [heids, List.nil_append]
            exact fun eid heid => AList.mem_keys.mp (List.mem_filter.mp heid).1 }
    · show ∀ u ∈ c.past ++ c.turns ++ [], _
      rw [hall]
      exact h.called
    · show ∀ u ∈ c.past ++ c.turns ++ [], _
      rw [hall]
      exact h.exact
    · show (c.past ++ c.turns ++ []).Pairwise _
      rw [hall]
      exact h.apart
    · show ∀ u ∈ c.past ++ c.turns ++ [], _
      rw [hall]
      exact h.active
  · cases hscan

/-! ### Calls -/

/-- The keys stay when `timerlist` has the same ones, and only identifiers are used up. -/
theorem TimerInv.timerKeys_eq (h : TimerInv c) {s : Session G}
    (hmem : ∀ tid, tid ∈ s.fe.timerlist ↔ tid ∈ c.session.fe.timerlist)
    (htid : c.session.fe.nextTid ≤ s.fe.nextTid) : s.timerKeys = c.session.timerKeys := by
  obtain ⟨n, hn⟩ := Nat.exists_eq_add_of_le htid
  unfold Session.timerKeys
  rw [hn, List.range_add, List.filter_append]
  have hsame : (List.range c.session.fe.nextTid).filter (· ∈ s.fe.timerlist) =
      (List.range c.session.fe.nextTid).filter (· ∈ c.session.fe.timerlist) := by
    simp only [hmem]
  -- the identifiers that were used up are no keys
  have hnone : ((List.range n).map (c.session.fe.nextTid + ·)).filter
      (· ∈ s.fe.timerlist) = [] := by
    rw [List.filter_eq_nil_iff]
    intro tid htid hkey
    obtain ⟨k, -, rfl⟩ := List.mem_map.mp htid
    have hkey : c.session.fe.nextTid + k ∈ c.session.fe.timerlist := by
      rw [← hmem]
      simpa using hkey
    have hlt := List.mem_range.mp (List.mem_filter.mp (h.mem_timerKeys.mpr hkey)).1
    omega
  rw [hsame, hnone, List.append_nil]

/-- A call keeps the place of the iteration, when the keys of `timerlist` stay. -/
theorem TimerInv.called_place (h : TimerInv c) (s : Session G)
    (hphase : s.phase = c.session.phase) (heids : s.cleanupEids = c.session.cleanupEids)
    (htids : s.cleanupTids = c.session.cleanupTids) (hruns : c.session.phase.runsApp = true)
    (hlist : ∀ eid ∈ c.session.fe.eventlist, eid ∈ s.fe.eventlist)
    (hkeys : c.session.phase.isTimerCallback = true → s.timerKeys = c.session.timerKeys ∧
      s.fe.timerlist.keys.length = c.session.fe.timerlist.keys.length)
    (times : ℕ → Option (TimerTimes T)) (inactivated : List ℕ) :
    AtPlace { c with session := s, times := times, inactivated := inactivated } := by
  rcases runsApp_position hruns with hpos | hcallback
  · refine (atPlace_outside ((congrArg Phase.position hphase).trans hpos)).mpr ?_
    show s.cleanupEids = [] ∧ s.cleanupTids = []
    rw [heids, htids]
    exact (atPlace_outside hpos).mp h.place
  · obtain ⟨hsame, hlength⟩ := hkeys hcallback
    cases hp : c.session.phase with
    | timerCallback todo size =>
      obtain ⟨hsize, hbetween⟩ := (atPlace_turns (by rw [hp]; rfl)).mp h.place
      refine (atPlace_turns (congrArg Phase.position (hphase.trans hp))).mpr
        ⟨hsize.trans hlength.symm, ?_⟩
      exact
        { turns := hbetween.turns.trans hsame.symm
          tidsNodup := by
            show s.cleanupTids.Nodup
            rw [htids]
            exact hbetween.tidsNodup
          tids := by
            show ∀ tid ∈ s.cleanupTids, _
            rw [htids]
            exact hbetween.tids
          eidsNodup := by
            show s.cleanupEids.Nodup
            rw [heids]
            exact hbetween.eidsNodup
          eids := by
            show ∀ eid ∈ s.cleanupEids, eid ∈ s.fe.eventlist
            rw [heids]
            exact fun eid heid => hlist eid (hbetween.eids eid heid) }
    | _ =>
      rw [hp] at hcallback
      cases hcallback

section Timerlist

variable {a : ApiCall} {fe' : FE}

theorem TimerInv.step_below (h : TimerInv c) (hstep : TimerStep c.session.fe a fe') :
    c.session.fe.nextTid ≤ fe'.nextTid ∧
      ∀ tid e, fe'.timerlist.lookup tid = some e → tid < fe'.nextTid := by
  cases hstep with
  | kept htimers htid hlocal =>
    refine ⟨htid, fun tid e he => ?_⟩
    rw [htimers] at he
    have := h.below tid e he
    omega
  | registered kind hlocal hkind htimers htid =>
    refine ⟨by omega, fun tid e he => ?_⟩
    rw [htimers, lookup_insert_eq_some] at he
    rcases he with ⟨rfl, -⟩ | ⟨-, he⟩
    · omega
    · have := h.below tid e he
      omega
  | cleared ht htimers htid =>
    obtain ⟨status, ht⟩ := ht
    refine ⟨htid.ge, fun tid e he => ?_⟩
    rw [htimers, lookup_insert_eq_some] at he
    rw [htid]
    rcases he with ⟨rfl, -⟩ | ⟨-, he⟩
    · exact h.below _ _ ht
    · exact h.below tid e he

/-- A timer has times: those it had, or those it was registered with. -/
theorem TimerInv.step_timed (h : TimerInv c) (hstep : TimerStep c.session.fe a fe') {x : T}
    {tid : ℕ} {status : EventStatus} (he : fe'.timerlist.lookup tid = some ⟨.timer, status⟩) :
    ∃ τ, c.timesAfter a x tid = some τ := by
  have hold : ∀ st, c.session.fe.timerlist.lookup tid = some ⟨.timer, st⟩ →
      ∃ τ, c.timesAfter a x tid = some τ := by
    intro st hst
    rw [Clocked.timesAfter_of_ne (h.below _ _ hst).ne]
    exact h.timed tid st hst
  cases hstep with
  | kept htimers htid hlocal =>
    rw [htimers] at he
    exact hold _ he
  | registered kind hlocal hkind htimers htid =>
    rw [htimers, lookup_insert_eq_some] at he
    rcases he with ⟨rfl, hentry⟩ | ⟨-, he⟩
    · cases hentry
      have hregisters := hkind.mp rfl
      unfold Clocked.timesAfter
      dsimp only
      rw [if_pos hregisters, Function.update_self]
      exact ⟨_, rfl⟩
    · exact hold _ he
  | cleared ht htimers htid =>
    obtain ⟨st, ht⟩ := ht
    rw [htimers, lookup_insert_eq_some] at he
    rcases he with ⟨rfl, -⟩ | ⟨-, he⟩
    · exact hold _ ht
    · exact hold _ he

/-- What was set `INACTIVE` stays so: no call sets an entry back. -/
theorem TimerInv.step_stopped (h : TimerInv c) (hstep : TimerStep c.session.fe a fe') {tid : ℕ}
    (htid : tid ∈ c.inactivated) {e : TimerEntry} (he : fe'.timerlist.lookup tid = some e) :
    e.status = .inactive := by
  obtain ⟨hlt, hinactive⟩ := h.stopped tid htid
  cases hstep with
  | kept htimers _ hlocal =>
    rw [htimers] at he
    exact hinactive e he
  | registered kind hlocal hkind htimers _ =>
    rw [htimers, lookup_insert_eq_some] at he
    rcases he with ⟨rfl, -⟩ | ⟨-, he⟩
    · omega
    · exact hinactive e he
  | cleared ht htimers _ =>
    rw [htimers, lookup_insert_eq_some] at he
    rcases he with ⟨-, rfl⟩ | ⟨-, he⟩
    · rfl
    · exact hinactive e he

/-- A call that registers nothing in `timerlist` keeps its keys. -/
theorem TimerInv.step_keys (h : TimerInv c) (hstep : TimerStep c.session.fe a fe')
    (hlocal : ∀ d, a = .eventRegister d → ¬ d.Local) {s : Session G} (hs : s.fe = fe') :
    s.timerKeys = c.session.timerKeys ∧
      s.fe.timerlist.keys.length = c.session.fe.timerlist.keys.length := by
  subst hs
  cases hstep with
  | kept htimers htid _ => exact ⟨h.timerKeys_eq (fun tid => by rw [htimers]) htid, by rw [htimers]⟩
  | registered kind hregister => exact absurd hregister (hlocal _ rfl)
  | cleared ht htimers htid =>
    obtain ⟨status, ht⟩ := ht
    rename_i eid
    have hmem : eid ∈ c.session.fe.timerlist := mem_of_lookup ht
    refine ⟨h.timerKeys_eq (fun tid => ?_) htid.ge, ?_⟩
    · rw [htimers, AList.mem_insert]
      constructor
      · rintro (rfl | hk)
        · exact hmem
        · exact hk
      · exact .inr
    · rw [htimers]
      exact length_keys_insert _ hmem

end Timerlist

/-- A call. -/
theorem TimerInv.calls (h : TimerInv c) {a : ApiCall} {x : T} (hb : Behaves c (.call a, x))
    (hs : c.called env a x = some c') : TimerInv c' := by
  obtain ⟨s, hcall, rfl⟩ := Option.map_eq_some_iff.mp hs
  unfold Session.called at hcall
  split at hcall
  case isFalse => cases hcall
  rename_i hruns
  split at hcall
  · cases hcall
  rename_i ans hans
  cases hcall
  obtain ⟨hstep, hlist⟩ := timerStep_of_run hans
  obtain ⟨hle, hbelow⟩ := h.step_below hstep
  refine
    { place := h.called_place { c.session with vmi := ans.vmi, fe := ans.fe, cleared := _ } rfl rfl
        rfl hruns hlist (fun hcallback => ?_) _ _
      below := hbelow
      timed := fun tid status he => h.step_timed hstep he
      stopped := fun tid htid => ?_
      called := fun u hu hfired => ?_
      time := h.time
      exact := h.exact
      apart := h.apart
      active := h.active }
  · refine h.step_keys hstep (fun d hd => (hb hcallback).2 d ?_) rfl
    rw [hd]
  · rcases List.mem_append.mp htid with hold | hnew
    · have hlt := (h.stopped tid hold).1
      exact ⟨by show tid < ans.fe.nextTid; omega, fun e he => h.step_stopped hstep hold he⟩
    · have hnow := Clocked.lookup_of_mem_inactivatedBy hnew
      refine ⟨hbelow _ _ hnow, fun e he => ?_⟩
      have he : ans.fe.timerlist.lookup tid = some e := he
      rw [hnow] at he
      cases he
      rfl
  · obtain ⟨hlt, hτ⟩ := h.called u hu hfired
    refine ⟨by show u.tid < ans.fe.nextTid; omega, ?_⟩
    show ∃ τ, c.timesAfter a x u.tid = some τ ∧ _
    rw [Clocked.timesAfter_of_ne hlt.ne]
    exact hτ

/-! ### Turns -/

/-- The loop is where its invariant says. -/
theorem TimerInv.at_timers (h : TimerInv c) {todo : List ℕ} {size : ℕ}
    (hphase : c.session.phase = .timers todo size) :
    size = c.session.fe.timerlist.keys.length ∧ Between c todo :=
  (atPlace_turns (by rw [hphase]; rfl)).mp h.place

/-- The end of the loop. -/
theorem TimerInv.turn_nil (h : TimerInv c) {size : ℕ} (hphase : c.session.phase = .timers [] size) :
    c.timerTurn = some { c with session := { c.session with phase := .cleanup } } := by
  have hturn : c.session.turnOf = none := by
    unfold Session.turnOf
    rw [hphase]
  unfold Clocked.timerTurn
  rw [nextTimer_end hphase (h.at_timers hphase).1, hturn]
  rfl

/-- The end of the loop, which begins the cleanup. -/
theorem TimerInv.afterTurns (h : TimerInv c) {size : ℕ}
    (hphase : c.session.phase = .timers [] size) :
    TimerInv { c with session := { c.session with phase := .cleanup } } where
  place :=
    { turns := (h.at_timers hphase).2.turns
      tidsNodup := (h.at_timers hphase).2.tidsNodup
      tids := (h.at_timers hphase).2.tids
      eidsNodup := (h.at_timers hphase).2.eidsNodup
      eids := (h.at_timers hphase).2.eids }
  below := h.below
  timed := h.timed
  stopped := h.stopped
  called := h.called
  time := h.time
  exact := h.exact
  apart := h.apart
  active := h.active

/-- What a turn has done: the session `s` that it leaves, but for the times. -/
structure TurnTaken (c : Clocked G T) (tk : ℕ) (todo : List ℕ) (size : ℕ) (tv : TimerEntry)
    (s : Session G) : Prop where
  entry : c.session.fe.timerlist.lookup tk = some tv
  fe : s.fe = c.session.fe
  cleanupEids : s.cleanupEids = c.session.cleanupEids
  cleanupTids : s.cleanupTids = c.session.cleanupTids ∨
    s.cleanupTids = c.session.cleanupTids ++ [tk]
  phase : s.phase = .timers todo size ∨ s.phase = .timerCallback todo size
  fired : s.phase.isTimerCallback = true ↔ tv.eventType = .timer ∧ tv.status = .active ∧
    ∃ τ, c.times tk = some τ ∧ τ.lastCalled + τ.timeValue < c.curtime

/-- **A turn.** The entry is there, and its callback runs exactly if it is an active timer that is
    due. -/
theorem TimerInv.turn_cons (h : TimerInv c) {tk size : ℕ} {todo : List ℕ}
    (hphase : c.session.phase = .timers (tk :: todo) size) :
    ∃ tv s, TurnTaken c tk todo size tv s ∧ c.timerTurn = some (c.afterTurn s tk tv) := by
  obtain ⟨hsize, hbetween⟩ := h.at_timers hphase
  have hmem : tk ∈ c.session.fe.timerlist := by
    rw [← h.mem_timerKeys, ← hbetween.turns]
    simp
  obtain ⟨tv, htv⟩ := Option.isSome_iff_exists.mp (AList.lookup_isSome.mpr hmem)
  obtain ⟨s, hs, hfe, heids, htids, hnext⟩ := nextTimer_turn hphase hsize htv c.due
  have hdue : c.due = true ↔ ∃ τ, c.times tk = some τ ∧ τ.lastCalled + τ.timeValue < c.curtime := by
    unfold Clocked.due
    rw [hphase]
    dsimp only
    cases c.times tk with
    | none => simp
    | some τ => simp [TimerTimes.due]
  refine ⟨tv, s, ⟨htv, hfe, heids, htids, ?_, ?_⟩, ?_⟩
  · rcases hnext with ⟨hp, -⟩ | ⟨hp, -⟩
    · exact .inl hp
    · exact .inr hp
  · rw [← hdue]
    rcases hnext with ⟨hp, hnot⟩ | ⟨hp, hyes⟩
    · rw [hp]
      exact iff_of_false (by simp [Phase.isTimerCallback]) hnot
    · rw [hp]
      exact iff_of_true rfl hyes
  · have hturn : c.session.turnOf = some (tk, tv) := by
      unfold Session.turnOf
      rw [hphase]
      dsimp only
      rw [if_neg (not_not.mpr hsize.symm), htv]
      rfl
    unfold Clocked.timerTurn
    rw [hs, hturn]
    rfl

/-- The cleanup lists after a turn. -/
theorem TurnTaken.between {tk size : ℕ} {todo : List ℕ} {tv : TimerEntry} {s : Session G}
    (hturn : TurnTaken c tk todo size tv s) (hbetween : Between c (tk :: todo)) :
    Between (c.afterTurn s tk tv) todo := by
  have htidsOf : (c.afterTurn s tk tv).turns.map Turn.tid = c.turns.map Turn.tid ++ [tk] := by
    simp [Clocked.afterTurn]
  -- no entry has two turns
  have hnew : tk ∉ c.turns.map Turn.tid := by
    have hnodup : (c.turns.map Turn.tid ++ tk :: todo).Nodup := by
      rw [hbetween.turns]
      exact nodup_timerKeys _
    exact fun hmem => List.disjoint_of_nodup_append hnodup hmem (List.mem_cons_self ..)
  have hcleanup : s.cleanupTids.Nodup ∧
      ∀ tid ∈ s.cleanupTids, tid ∈ c.turns.map Turn.tid ++ [tk] := by
    rcases hturn.cleanupTids with he | he
    · rw [he]
      exact ⟨hbetween.tidsNodup, fun tid htid => List.mem_append_left _ (hbetween.tids tid htid)⟩
    · rw [he]
      refine ⟨?_, fun tid htid => ?_⟩
      · rw [← List.concat_eq_append]
        exact hbetween.tidsNodup.concat fun hmem => hnew (hbetween.tids tk hmem)
      · rcases List.mem_append.mp htid with hold | hlast
        · exact List.mem_append_left _ (hbetween.tids tid hold)
        · exact List.mem_append_right _ hlast
  exact
    { turns := by
        show (c.afterTurn s tk tv).turns.map Turn.tid ++ todo = s.timerKeys
        rw [htidsOf, List.append_assoc]
        unfold Session.timerKeys
        rw [hturn.fe]
        exact hbetween.turns
      tidsNodup := hcleanup.1
      tids := by
        rw [htidsOf]
        exact hcleanup.2
      eidsNodup := by
        show s.cleanupEids.Nodup
        rw [hturn.cleanupEids]
        exact hbetween.eidsNodup
      eids := by
        show ∀ eid ∈ s.cleanupEids, eid ∈ s.fe.eventlist
        rw [hturn.cleanupEids, hturn.fe]
        exact hbetween.eids }

/-- The place after a turn. -/
theorem TimerInv.place_afterTurn (h : TimerInv c) {tk size : ℕ} {todo : List ℕ} {tv : TimerEntry}
    {s : Session G} (hphase : c.session.phase = .timers (tk :: todo) size)
    (hturn : TurnTaken c tk todo size tv s) : AtPlace (c.afterTurn s tk tv) := by
  obtain ⟨hsize, hbetween⟩ := h.at_timers hphase
  have hpos : s.phase.position = .turns todo size := by
    rcases hturn.phase with hp | hp
    · rw [hp]
      rfl
    · rw [hp]
      rfl
  refine (atPlace_turns hpos).mpr ⟨?_, hturn.between hbetween⟩
  show size = s.fe.timerlist.keys.length
  rw [hturn.fe]
  exact hsize

/-- A timer that fires was not set `INACTIVE`. -/
theorem TimerInv.active_afterTurn (h : TimerInv c) {tk size : ℕ} {todo : List ℕ}
    {tv : TimerEntry} {s : Session G} (hturn : TurnTaken c tk todo size tv s) :
    ∀ u ∈ (c.afterTurn s tk tv).allTurns, u.fired = true → u.inactivated = false := by
  refine Clocked.forall_allTurns_afterTurn h.active fun hfired => decide_eq_false fun hmem => ?_
  obtain ⟨-, hactive, -⟩ := hturn.fired.mp hfired
  rw [(h.stopped tk hmem).2 tv hturn.entry] at hactive
  cases hactive

/-! ### The start, and what the invariant says -/

theorem timerInv_initial (g : G) (identR : Bytes) (t : T) :
    TimerInv ({ session := Session.initial g identR, curtime := t } : Clocked G T) where
  place := ⟨rfl, rfl⟩
  below := nofun
  timed := nofun
  stopped := nofun
  called := nofun
  time := nofun
  exact := nofun
  apart := List.Pairwise.nil
  active := nofun

theorem TimerInv.dispatches (h : TimerInv c) : Dispatches env c where
  turn todo size hphase := by
    cases todo with
    | nil => exact ⟨_, h.turn_nil hphase, .inl ⟨rfl, rfl⟩⟩
    | cons tk rest =>
      obtain ⟨tv, s, htaken, hturn⟩ := h.turn_cons hphase
      exact ⟨_, hturn, .inr ⟨tk, rest, rfl, htaken.phase⟩⟩
  returned todo size t hphase := by
    refine ⟨{ c with session := { c.session with phase := .timers todo size } }, ?_, rfl⟩
    show (c.session.afterCallback env).map _ = _
    unfold Session.afterCallback
    rw [hphase]
    rfl
  cleanup hphase := by
    obtain ⟨eventlist, timerlist, -, hclean⟩ := h.exists_cleanUp hphase
    exact ⟨_, hclean, rfl⟩
  once hphase := by
    have hturns := ((atPlace_cleanup (by rw [hphase]; rfl)).mp h.place).turns
    rw [List.append_nil] at hturns
    rw [hturns]
    exact ⟨nodup_timerKeys _, fun tid => h.mem_timerKeys⟩
  time := h.time
  exact := h.exact
  apart := h.apart
  active := h.active

end Runs

section Turns

variable {G T : Type} [AddCommGroup T] [LinearOrder T] [IsOrderedAddMonoid T] {c c' : Clocked G T}

/-- A timer that is due has not been called for longer than its time value. -/
theorem lt_abs_of_due {τ : TimerTimes T} {time t : T} (hdue : τ.lastCalled + τ.timeValue < t)
    (hlast : 0 ≤ τ.timeValue → time ≤ τ.lastCalled) : τ.timeValue < |t - time| := by
  by_cases hpos : 0 ≤ τ.timeValue
  · have hlt : time + τ.timeValue < t := lt_of_le_of_lt (add_le_add_left (hlast hpos) _) hdue
    exact lt_of_lt_of_le (lt_sub_iff_add_lt'.mpr hlt) (le_abs_self _)
  · exact lt_of_lt_of_le (not_le.mp hpos) (abs_nonneg _)

section AfterTurn

variable {tk size : ℕ} {todo : List ℕ} {tv : TimerEntry} {s : Session G}

/-- A timer has its time value after a turn, and was last called at this turn if it fired. -/
theorem TurnTaken.times {tid : ℕ} {τ : TimerTimes T} (hturn : TurnTaken c tk todo size tv s)
    (hτ : c.times tid = some τ) : ∃ τ', (c.afterTurn s tk tv).times tid = some τ' ∧
      τ'.timeValue = τ.timeValue ∧ (0 ≤ τ.timeValue → τ.lastCalled ≤ τ'.lastCalled) ∧
      (tid = tk → s.phase.isTimerCallback = true → τ'.lastCalled = c.curtime) := by
  by_cases hcall : tid = tk ∧ s.phase.isTimerCallback = true
  · obtain ⟨rfl, hcall⟩ := hcall
    obtain ⟨-, -, τ', hτ', hdue⟩ := hturn.fired.mp hcall
    rw [hτ] at hτ'
    cases hτ'
    rw [Clocked.times_afterTurn_self hcall, hτ]
    refine ⟨{ τ with lastCalled := c.curtime }, rfl, rfl, fun hpos => ?_, fun _ _ => rfl⟩
    -- it is called again: its last call was not later than this one
    exact (le_add_of_nonneg_right hpos).trans hdue.le
  · exact ⟨τ, (Clocked.times_afterTurn_of_ne hcall).trans hτ, rfl, fun _ => le_rfl,
      fun htid hfired => absurd ⟨htid, hfired⟩ hcall⟩

/-- After a turn every timer was last called at its last firing. -/
theorem TimerInv.called_afterTurn (h : TimerInv c) (hturn : TurnTaken c tk todo size tv s) :
    ∀ u ∈ (c.afterTurn s tk tv).allTurns, u.fired = true → u.tid < c.session.fe.nextTid ∧
      ∃ τ, (c.afterTurn s tk tv).times u.tid = some τ ∧
        (0 ≤ τ.timeValue → u.time ≤ τ.lastCalled) := by
  refine Clocked.forall_allTurns_afterTurn (fun u hu hfired => ?_) fun hfired => ?_
  · obtain ⟨hlt, τ, hτ, hle⟩ := h.called u hu hfired
    obtain ⟨τ', hτ', hvalue, hlast, -⟩ := hturn.times hτ
    refine ⟨hlt, τ', hτ', fun hpos => ?_⟩
    rw [hvalue] at hpos
    exact (hle hpos).trans (hlast hpos)
  · obtain ⟨-, -, τ, hτ, -⟩ := hturn.fired.mp hfired
    obtain ⟨τ', hτ', -, -, hnow⟩ := hturn.times hτ
    exact ⟨h.below tk tv hturn.entry, τ', hτ', fun _ => (hnow rfl hfired).ge⟩

/-- The firing of a turn lies away from all those before of its timer. -/
theorem TimerInv.apart_afterTurn (h : TimerInv c) (hturn : TurnTaken c tk todo size tv s) :
    (c.afterTurn s tk tv).allTurns.Pairwise fun u v => u.tid = v.tid → u.fired = true →
      v.fired = true → ∀ τ, v.times = some τ → τ.timeValue < |v.time - u.time| := by
  rw [c.allTurns_afterTurn s tk tv, List.pairwise_append]
  refine ⟨h.apart, List.pairwise_singleton _ _, ?_⟩
  intro u hu v hv htid hfu hfv τ hτ
  cases List.mem_singleton.mp hv
  obtain ⟨-, τ', hτ', hle⟩ := h.called u hu hfu
  obtain ⟨-, -, τ'', hτ'', hdue⟩ := hturn.fired.mp hfv
  rw [show u.tid = tk from htid] at hτ'
  have hτ : c.times tk = some τ := hτ
  rw [hτ] at hτ' hτ''
  cases hτ'
  cases hτ''
  exact lt_abs_of_due hdue hle

/-- The invariant after a turn. -/
theorem TimerInv.afterTurn (h : TimerInv c) (hphase : c.session.phase = .timers (tk :: todo) size)
    (hturn : TurnTaken c tk todo size tv s) : TimerInv (c.afterTurn s tk tv) where
  place := h.place_afterTurn hphase hturn
  below := by
    show ∀ tid e, s.fe.timerlist.lookup tid = some e → tid < s.fe.nextTid
    rw [hturn.fe]
    exact h.below
  timed := by
    intro tid status he
    have he : s.fe.timerlist.lookup tid = some ⟨.timer, status⟩ := he
    rw [hturn.fe] at he
    obtain ⟨τ, hτ⟩ := h.timed tid status he
    obtain ⟨τ', hτ', -⟩ := hturn.times hτ
    exact ⟨τ', hτ'⟩
  stopped := by
    show ∀ tid ∈ c.inactivated, tid < s.fe.nextTid ∧
      ∀ e, s.fe.timerlist.lookup tid = some e → e.status = .inactive
    rw [hturn.fe]
    exact h.stopped
  called := by
    show ∀ u ∈ (c.afterTurn s tk tv).allTurns, u.fired = true → u.tid < s.fe.nextTid ∧ _
    rw [hturn.fe]
    exact h.called_afterTurn hturn
  time u hu := by
    rcases List.mem_append.mp hu with hold | hlast
    · exact h.time u hold
    · rw [List.mem_singleton.mp hlast]
      rfl
  exact := Clocked.forall_allTurns_afterTurn h.exact hturn.fired
  apart := h.apart_afterTurn hturn
  active := h.active_afterTurn hturn

end AfterTurn

/-- A turn. -/
theorem TimerInv.turned (h : TimerInv c) (hs : c.timerTurn = some c') : TimerInv c' := by
  obtain ⟨todo, size, hphase⟩ : ∃ todo size, c.session.phase = .timers todo size := by
    obtain ⟨s, hnext, -⟩ := Option.map_eq_some_iff.mp hs
    unfold Session.nextTimer at hnext
    split at hnext
    · rename_i todo size hphase
      exact ⟨todo, size, hphase⟩
    · cases hnext
  cases todo with
  | nil =>
    rw [h.turn_nil hphase] at hs
    cases hs
    exact h.afterTurns hphase
  | cons tk todo =>
    obtain ⟨tv, s, htaken, hturn⟩ := h.turn_cons hphase
    rw [hturn] at hs
    cases hs
    exact h.afterTurn hphase htaken

/-! ### Runs -/

variable {env : Env G}

theorem TimerInv.step (h : TimerInv c) {a : Input G × T} (hb : Behaves c a)
    (hs : c.next env a = some c') : TimerInv c' := by
  obtain ⟨i, x⟩ := a
  rcases Clocked.next_cases hs with ⟨a, rfl, hs⟩ | hs | hs | ⟨hcall, hscan, hturn, hs⟩
  · exact h.calls hb hs
  · exact h.scanned hs
  · exact h.turned hs
  · obtain ⟨s, hnext, rfl⟩ := Option.map_eq_some_iff.mp hs
    by_cases hclean : i = .cleaned
    · subst hclean
      exact h.cleaned hnext
    · exact h.aside (aside_of_next hcall hscan hturn hclean hnext)

/-- **Timer dispatch.** In every run in which no timer callback raises or registers a timer or a
    backend callback, whatever else the app, the guest and the clock do, every state dispatches. -/
theorem dispatches_reach (h : Reach (clockSystem env) Behaves c) : Dispatches env c := by
  refine (h.invariant TimerInv ?_ ?_).dispatches
  · rintro c ⟨g, identR, t, rfl⟩
    exact timerInv_initial g identR t
  · intro c a c' hinv hb hs
    exact hinv.step hb hs

end Turns

/-! ### A timer that registers another -/

/-- The registration of a timer. -/
def aTimer : EventData := { eventType := .timer, timeValue := true }

/-- A session whose constructor has registered a timer with the time value 1. -/
def withTimer : Clocked Unit ℤ :=
  { session := { Session.initial () [114] with
      fe := { identR := [114], nextTid := 1
              timerlist := (∅ : AList fun _ : ℕ => TimerEntry).insert 0 ⟨.timer, .active⟩ } }
    times := Function.update (fun _ => none) 0 (some ⟨1, 0⟩), curtime := 0 }

theorem withTimer_eq : ({ session := Session.initial () [114], curtime := 0 } : Clocked Unit ℤ).next
    echoEnv (.call (.eventRegister aTimer), 1) = some withTimer := rfl

/-- An iteration at time 10, up to the callback of the timer. -/
def toCallback : List (Input Unit × ℤ) :=
  [(.established, 0), (.polled false, 0), (.broadcast false, 0), (.notify false, 0), (.scanned, 10),
    (.timer true, 0)]

/-- The callback clears its own timer, and the iteration ends. -/
def clearsItself : List (Input Unit × ℤ) :=
  toCallback ++ [(.call (.eventClear 0), 0), (.returned, 0), (.timer true, 0)]

theorem reach_withTimer {guard : Clocked Unit ℤ → Input Unit × ℤ → Prop}
    (hguard : ∀ c a, c.session.phase = .setup → guard c a) :
    Reach (clockSystem echoEnv) guard withTimer := by
  have hinit : Reach (clockSystem echoEnv) guard
      ({ session := Session.initial () [114], curtime := 0 } : Clocked Unit ℤ) :=
    .init ⟨(), [114], 0, rfl⟩
  exact .step hinit (hguard _ _ rfl) withTimer_eq

theorem dispatches_reach_clearsItself : ∃ c,
    clearsItself.foldlM (Clocked.next echoEnv) withTimer = some c ∧
      c.session.phase = .cleanup ∧ c.turns.map Turn.fired = [true] ∧ Dispatches echoEnv c := by
  have hstart : Reach (clockSystem echoEnv) Behaves withTimer :=
    reach_withTimer fun c a hphase hcallback => by
      rw [hphase] at hcallback
      cases hcallback
  have hbehaves : ∀ a ∈ clearsItself, ∀ c : Clocked Unit ℤ, Behaves c a := by
    intro a ha c _
    simp only [clearsItself, toCallback, List.cons_append, List.nil_append, List.mem_cons,
      List.not_mem_nil, or_false] at ha
    rcases ha with rfl | rfl | rfl | rfl | rfl | rfl | rfl | rfl | rfl <;>
      exact ⟨by simp, by simp⟩
  exact ⟨_, rfl, rfl, rfl,
    dispatches_reach (.of_foldlM (fun _ _ _ h => h) hbehaves hstart rfl)⟩

/-- The callback registers another timer. -/
def registersAnother : List (Input Unit × ℤ) :=
  toCallback ++ [(.call (.eventRegister aTimer), 1), (.returned, 0)]

/-- **The loop ends.** After a timer callback has registered a timer, the next turn of the loop
    raises. -/
theorem registration_ends_loop : ∃ c c' : Clocked Unit ℤ,
    registersAnother.foldlM (Clocked.next echoEnv) withTimer = some c ∧
      c.session.phase = .timers [] 1 ∧ c.timerTurn = some c' ∧ c'.session.phase = .dead ∧
      ¬ ∀ c : Clocked Unit ℤ, Reach (clockSystem echoEnv) (fun _ _ => True) c →
        Dispatches echoEnv c := by
  refine ⟨_, _, rfl, rfl, rfl, rfl, fun hall => ?_⟩
  have hstart : Reach (clockSystem echoEnv) (fun _ _ => True) withTimer :=
    reach_withTimer fun _ _ _ => trivial
  have hreach := Reach.of_foldlM (fun _ _ _ h => h) (fun _ _ _ => trivial) hstart
    (show registersAnother.foldlM (Clocked.next echoEnv) withTimer = some _ from rfl)
  obtain ⟨c', hturn, hnext⟩ := (hall _ hreach).turn [] 1 rfl
  cases hturn
  rcases hnext with ⟨-, hphase⟩ | ⟨tk, rest, hnil, -⟩
  · cases hphase
  · cases hnil

end Furnace.App
