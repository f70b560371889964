import Mathlib.Tactic.FinCases
import Furnace.App.Agreement

namespace Furnace.App

open Furnace.Proto Furnace.Lib Furnace.Vmi

/-!
# Events and the callbacks they reach

An `EVENT` message carries the identifier of its registration and nothing else, and it may be
in flight while that registration is cleared.  The loop looks only for an entry under the
identifier: neither whether the entry is active, nor whether it is the registration's own.

* `Current` — what is wanted of an invocation: the message is of the registration that
  installed the callback, and that registration has not been cleared.
* `KeepsCurrent` — the condition on the calls, in terms of the messages in flight.
* `invocations_current` — in every run whose calls meet it, every invocation is current.
-/

variable {G : Type}

/-! ### What is wanted -/

/-- The message was generated by the registration that installed the callback, which had not
    been cleared. -/
def Current (i : Invocation) : Prop := i.source = i.callback ∧ i.cleared = false

/-- The inputs of a session without the syscall plugin. -/
def WithoutPlugin : Input G → Prop
  | .call (.startSyscall _ _) | .call (.stopSyscall _) => False
  | _ => True

/-- The condition on a call: an event is not registered under an identifier that a message
    in flight carries, and outside the callbacks that come before the scan no event is cleared
    when the next message is one of its own. -/
def KeepsCurrent (s : Session G) (i : Input G) : Prop :=
  WithoutPlugin i ∧
  match i with
  | .call (.eventRegister d) => d.eventType ≠ .timer ∧ d.eventType ≠ .be →
    ∀ m ∈ s.queue, m.identifier ≠ firstFree s.vmi.events
  | .call (.eventClear eid) => s.phase.stage ≠ .beforeScan → eid ∈ s.fe.eventlist →
    ∀ m, s.queue.head? = some m → m.identifier ≠ eid
  | _ => True

/-- An inactive entry gets no more messages: the next one is not its own, or the entry will be
    gone before a message is looked at. -/
def Drained (s : Session G) (k : ℕ) : Prop :=
  (∀ m, s.queue.head? = some m → m.identifier ≠ k) ∨ s.phase.stage = .beforeScan ∨
    s.phase.stage = .afterScan ∧ k ∈ s.cleanupEids ∨ s.phase.stage = .dead

/-- The invariant. -/
structure DeliveryInv (s : Session G) : Prop where
  plugin : s.vmi.syscallPluginOwner = none
  key : ∀ k ei, s.vmi.events.lookup k = some ei → ei.id = k
  callbackBelow : ∀ k e, s.fe.eventlist.lookup k = some e → e.callback < s.vmi.nextAlloc
  clearedBelow : ∀ c ∈ s.cleared, c < s.vmi.nextAlloc
  distinct : ∀ k k' e e', s.fe.eventlist.lookup k = some e → s.fe.eventlist.lookup k' = some e' →
    e.callback = e'.callback → k = k'
  installed : ∀ k e ei, s.fe.eventlist.lookup k = some e → s.vmi.events.lookup k = some ei →
    e.callback = ei.obj
  inFlight : ∀ m ∈ s.queue, ∀ e, s.fe.eventlist.lookup m.identifier = some e →
    m.source = e.callback
  gone : ∀ k e, s.fe.eventlist.lookup k = some e → e.status = .inactive →
    s.vmi.events.lookup k = none
  live : ∀ k e, s.fe.eventlist.lookup k = some e → e.status = .active → e.callback ∉ s.cleared
  drained : ∀ k e, s.fe.eventlist.lookup k = some e → e.status = .inactive → Drained s k
  current : ∀ i ∈ s.invoked, Current i

theorem deliveryInv_initial (g : G) (identR : Bytes) : DeliveryInv (Session.initial g identR) where
  plugin := rfl
  key := by simp [Session.initial, World.initial]
  callbackBelow := by simp [Session.initial]
  clearedBelow := by simp [Session.initial]
  distinct := by simp [Session.initial]
  installed := by simp [Session.initial]
  inFlight := by simp [Session.initial]
  gone := by simp [Session.initial]
  live := by simp [Session.initial]
  drained := by simp [Session.initial]
  current := by simp [Session.initial]

/-! ### One step -/

section Steps

variable {env : Env G} {s s' : Session G}

/-- A step that leaves the registrations alone. -/
theorem DeliveryInv.of_same (h : DeliveryInv s) (hsame : SameRegistry s.vmi s'.vmi)
    (hlist : s'.fe.eventlist = s.fe.eventlist)
    (hinFlight : ∀ m ∈ s'.queue, ∀ e, s.fe.eventlist.lookup m.identifier = some e →
      m.source = e.callback)
    (hdrained : ∀ k e, s.fe.eventlist.lookup k = some e → e.status = .inactive → Drained s' k)
    (hcleared : s'.cleared = s.cleared) (hinvoked : ∀ i ∈ s'.invoked, Current i) :
    DeliveryInv s' where
  plugin := by
    rw [hsame.owner]
    exact h.plugin
  key := by
    rw [hsame.events]
    exact h.key
  callbackBelow := by
    rw [hlist]
    exact fun k e he => (h.callbackBelow k e he).trans_le hsame.nextAlloc
  clearedBelow := by
    rw [hcleared]
    exact fun c hc => (h.clearedBelow c hc).trans_le hsame.nextAlloc
  distinct := by
    rw [hlist]
    exact h.distinct
  installed := by
    rw [hlist, hsame.events]
    exact h.installed
  inFlight := by
    rw [hlist]
    exact hinFlight
  gone := by
    rw [hlist, hsame.events]
    exact h.gone
  live := by
    rw [hlist, hcleared]
    exact h.live
  drained := by
    rw [hlist]
    exact hdrained
  current := hinvoked

/-- The condition under which entries are drained depends on the messages in flight, the part
    of the iteration and the cleanup list. -/
theorem Drained.of_stage {k : ℕ} (h : Drained s k)
    (hqueue : s'.queue = s.queue ∨ s'.phase.stage = .beforeScan ∧ ∃ m, s.queue = m :: s'.queue)
    (hstage : s'.phase.stage = s.phase.stage ∨ s'.phase.stage = .dead ∨
      s.phase.stage = .outside ∧ s'.phase.stage = .beforeScan)
    (hcleanup : s'.cleanupEids = s.cleanupEids) : Drained s' k := by
  -- a message is dropped only on the way to the scan
  rcases hqueue with hqueue | ⟨hbefore, -⟩
  swap
  · exact .inr (.inl hbefore)
  rcases hstage with hsame | hdead | ⟨-, hbefore⟩
  · unfold Drained
    rw [hqueue, hsame, hcleanup]
    exact h
  · exact .inr (.inr (.inr hdead))
  · exact .inr (.inl hbefore)

/-- A message of another registration behind the others does not matter to an entry. -/
theorem Drained.of_sent {k : ℕ} {m : EventMsg} (h : Drained s k) (hne : m.identifier ≠ k)
    (hqueue : s'.queue = s.queue ++ [m]) (hphase : s'.phase = s.phase)
    (hcleanup : s'.cleanupEids = s.cleanupEids) : Drained s' k := by
  unfold Drained
  rw [hphase, hcleanup]
  rcases h with hnext | hrest
  · refine .inl fun m' hm' => ?_
    rw [hqueue] at hm'
    -- in an empty queue the new message is the next one
    cases hq : s.queue with
    | nil =>
      rw [hq] at hm'
      cases hm'
      exact hne
    | cons m₀ rest =>
      rw [hq] at hm'
      have hm' : m₀ = m' := Option.some.inj hm'
      rw [← hm']
      exact hnext m₀ (by rw [hq]; rfl)
  · exact .inr hrest

/-- The registration under the message's identifier sends it. -/
theorem DeliveryInv.enqueued (h : DeliveryInv s) {m : EventMsg} {ei : EventItem}
    (hei : s.vmi.events.lookup m.identifier = some ei) (hsource : m.source = ei.obj)
    (hsame : SameRegistry s.vmi s'.vmi) (hlist : s'.fe.eventlist = s.fe.eventlist)
    (hqueue : s'.queue = s.queue ++ [m]) (hphase : s'.phase = s.phase)
    (hcleanup : s'.cleanupEids = s.cleanupEids) (hcleared : s'.cleared = s.cleared)
    (hinvoked : s'.invoked = s.invoked) : DeliveryInv s' := by
  refine h.of_same hsame hlist ?_ ?_ hcleared ?_
  · rw [hqueue]
    intro m' hm' e he
    rcases List.mem_append.mp hm' with hold | hnew
    · exact h.inFlight m' hold e he
    · rw [List.mem_singleton.mp hnew] at he ⊢
      rw [hsource, h.installed _ e ei he hei]
  · intro k e he hinactive
    -- the sender is registered, an inactive entry's event is not
    have hne : m.identifier ≠ k := by
      rintro rfl
      rw [h.gone _ e he hinactive] at hei
      cases hei
    exact (h.drained k e he hinactive).of_sent hne hqueue hphase hcleanup
  · rw [hinvoked]
    exact h.current

/-- A registration sends a message. -/
theorem DeliveryInv.sent (h : DeliveryInv s) {m : EventMsg}
    (hfrom : s.vmi.syscallPluginOwner ≠ none ∨
      ∃ k ei, s.vmi.events.lookup k = some ei ∧ m.identifier = ei.id ∧ m.source = ei.obj)
    (hsame : SameRegistry s.vmi s'.vmi) (hlist : s'.fe.eventlist = s.fe.eventlist)
    (hqueue : s'.queue = s.queue ++ [m]) (hphase : s'.phase = s.phase)
    (hcleanup : s'.cleanupEids = s.cleanupEids) (hcleared : s'.cleared = s.cleared)
    (hinvoked : s'.invoked = s.invoked) : DeliveryInv s' := by
  rcases hfrom with howner | ⟨k, ei, hei, hid, hsource⟩
  · exact absurd h.plugin howner
  -- events sit under their own identifiers, so the message names the sender
  · have hkey : m.identifier = k := hid.trans (h.key k ei hei)
    rw [← hkey] at hei
    exact h.enqueued hei hsource hsame hlist hqueue hphase hcleanup hcleared hinvoked

/-- An event is registered. -/
theorem DeliveryInv.registered (h : DeliveryInv s) {ei : EventItem} {t : VmiType}
    (hid : ei.id = firstFree s.vmi.events) (hobj : ei.obj = s.vmi.nextAlloc)
    (hfree : ∀ m ∈ s.queue, m.identifier ≠ firstFree s.vmi.events)
    (hlist : s'.fe.eventlist = s.fe.eventlist.insert ei.id ⟨t, s.vmi.nextAlloc, .active⟩)
    (hevents : s'.vmi.events = s.vmi.events.insert ei.id ei)
    (howner : s'.vmi.syscallPluginOwner = s.vmi.syscallPluginOwner)
    (halloc : s'.vmi.nextAlloc = s.vmi.nextAlloc + 1) (hqueue : s'.queue = s.queue)
    (hphase : s'.phase = s.phase) (hcleanup : s'.cleanupEids = s.cleanupEids)
    (hcleared : s'.cleared = s.cleared) (hinvoked : s'.invoked = s.invoked) :
    DeliveryInv s' where
  plugin := by
    rw [howner]
    exact h.plugin
  key := by
    rw [hevents]
    intro k e hk
    rcases lookup_insert_eq_some.mp hk with ⟨rfl, rfl⟩ | ⟨-, hold⟩
    · rfl
    · exact h.key k e hold
  callbackBelow := by
    rw [hlist, halloc]
    intro k e he
    rcases lookup_insert_eq_some.mp he with ⟨-, rfl⟩ | ⟨-, hold⟩
    · exact Nat.lt_succ_self _
    · exact (h.callbackBelow k e hold).trans (Nat.lt_succ_self _)
  clearedBelow := by
    rw [hcleared, halloc]
    exact fun c hc => (h.clearedBelow c hc).trans (Nat.lt_succ_self _)
  distinct := by
    rw [hlist]
    intro k k' e e' he he' hsame
    -- no earlier entry has the new allocation
    have hnew : ∀ k e, s.fe.eventlist.lookup k = some e → e.callback ≠ s.vmi.nextAlloc :=
      fun k e he => (h.callbackBelow k e he).ne
    rcases lookup_insert_eq_some.mp he with ⟨rfl, rfl⟩ | ⟨-, hold⟩
    · rcases lookup_insert_eq_some.mp he' with ⟨rfl, -⟩ | ⟨-, hold'⟩
      · rfl
      · exact absurd hsame.symm (hnew k' e' hold')
    · rcases lookup_insert_eq_some.mp he' with ⟨-, rfl⟩ | ⟨-, hold'⟩
      · exact absurd hsame (hnew k e hold)
      · exact h.distinct k k' e e' hold hold' hsame
  installed := by
    rw [hlist, hevents]
    intro k e ei' he hei'
    rcases lookup_insert_eq_some.mp he with ⟨rfl, rfl⟩ | ⟨hne, hold⟩
    · rcases lookup_insert_eq_some.mp hei' with ⟨-, rfl⟩ | ⟨hne, -⟩
      · exact hobj.symm
      · exact absurd rfl hne
    · rcases lookup_insert_eq_some.mp hei' with ⟨heq, -⟩ | ⟨-, hold'⟩
      · exact absurd heq hne
      · exact h.installed k e ei' hold hold'
  inFlight := by
    rw [hlist, hqueue]
    intro m hm e he
    rcases lookup_insert_eq_some.mp he with ⟨heq, -⟩ | ⟨-, hold⟩
    -- no message in flight carries the recycled identifier
    · exact absurd (heq.trans hid) (hfree m hm)
    · exact h.inFlight m hm e hold
  gone := by
    rw [hlist, hevents]
    intro k e he hinactive
    rcases lookup_insert_eq_some.mp he with ⟨-, rfl⟩ | ⟨hne, hold⟩
    · cases hinactive
    · rw [AList.lookup_insert_ne hne]
      exact h.gone k e hold hinactive
  live := by
    rw [hlist, hcleared]
    intro k e he hactive hmem
    rcases lookup_insert_eq_some.mp he with ⟨-, rfl⟩ | ⟨-, hold⟩
    -- a new allocation has not been cleared yet
    · exact absurd (h.clearedBelow _ hmem) (Nat.lt_irrefl _)
    · exact h.live k e hold hactive hmem
  drained := by
    rw [hlist]
    intro k e he hinactive
    rcases lookup_insert_eq_some.mp he with ⟨-, rfl⟩ | ⟨-, hold⟩
    · cases hinactive
    · unfold Drained
      rw [hqueue, hphase, hcleanup]
      exact h.drained k e hold hinactive
  current := by
    rw [hinvoked]
    exact h.current

/-- Marking an entry inactive keeps every callback, and the other entries. -/
theorem lookup_deactivate {l : AList fun _ : ℕ => Entry} {eid k : ℕ} {e c : Entry}
    (he : l.lookup eid = some e)
    (hk : (l.insert eid { e with status := .inactive }).lookup k = some c) :
    ∃ c', l.lookup k = some c' ∧ c'.callback = c.callback ∧
      (k = eid ∧ c.status = .inactive ∨ k ≠ eid ∧ c' = c) := by
  rcases lookup_insert_eq_some.mp hk with ⟨rfl, rfl⟩ | ⟨hne, hold⟩
  · exact ⟨e, he, rfl, .inl ⟨rfl, rfl⟩⟩
  · exact ⟨c, hold, rfl, .inr ⟨hne, rfl⟩⟩

/-- An event is cleared. -/
theorem DeliveryInv.cleared (h : DeliveryInv s) {eid : ℕ} {e : Entry}
    (he : s.fe.eventlist.lookup eid = some e) (hdrained : Drained s' eid)
    (hlist : s'.fe.eventlist = s.fe.eventlist.insert eid { e with status := .inactive })
    (hevents : s'.vmi.events = s.vmi.events.erase eid)
    (howner : s'.vmi.syscallPluginOwner = s.vmi.syscallPluginOwner)
    (halloc : s'.vmi.nextAlloc = s.vmi.nextAlloc) (hqueue : s'.queue = s.queue)
    (hphase : s'.phase = s.phase) (hcleanup : s'.cleanupEids = s.cleanupEids)
    (hcleared : s'.cleared = s.cleared ++ [e.callback]) (hinvoked : s'.invoked = s.invoked) :
    DeliveryInv s' where
  plugin := by
    rw [howner]
    exact h.plugin
  key := by
    rw [hevents]
    exact fun k ei hk => h.key k ei (lookup_erase_eq_some.mp hk).2
  callbackBelow := by
    rw [hlist, halloc]
    intro k c hk
    obtain ⟨c', hold, hsame, -⟩ := lookup_deactivate he hk
    rw [← hsame]
    exact h.callbackBelow k c' hold
  clearedBelow := by
    rw [hcleared, halloc]
    intro c hc
    rcases List.mem_append.mp hc with hc | hc
    · exact h.clearedBelow c hc
    · rw [List.mem_singleton.mp hc]
      exact h.callbackBelow eid e he
  distinct := by
    rw [hlist]
    intro k k' c c' hk hk' hsame
    obtain ⟨d, hd, hdc, -⟩ := lookup_deactivate he hk
    obtain ⟨d', hd', hdc', -⟩ := lookup_deactivate he hk'
    exact h.distinct k k' d d' hd hd' (by rw [hdc, hdc', hsame])
  installed := by
    rw [hlist, hevents]
    intro k c ei hk hei
    obtain ⟨c', hold, hsame, -⟩ := lookup_deactivate he hk
    rw [← hsame]
    exact h.installed k c' ei hold (lookup_erase_eq_some.mp hei).2
  inFlight := by
    rw [hlist, hqueue]
    intro m hm c hc
    obtain ⟨c', hold, hsame, -⟩ := lookup_deactivate he hc
    rw [← hsame]
    exact h.inFlight m hm c' hold
  gone := by
    rw [hlist, hevents]
    intro k c hk hinactive
    obtain ⟨c', hold, -, ⟨rfl, -⟩ | ⟨hne, rfl⟩⟩ := lookup_deactivate he hk
    · exact AList.lookup_erase _ _
    · rw [AList.lookup_erase_ne hne]
      exact h.gone k c' hold hinactive
  live := by
    rw [hlist, hcleared]
    intro k c hk hactive hmem
    obtain ⟨c', hold, -, ⟨rfl, hinactive⟩ | ⟨hne, rfl⟩⟩ := lookup_deactivate he hk
    · rw [hactive] at hinactive
      cases hinactive
    · -- the callback that has just been cleared is that of another entry
      rcases List.mem_append.mp hmem with hmem | hmem
      · exact h.live k c' hold hactive hmem
      · exact hne (h.distinct k eid c' e hold he (List.mem_singleton.mp hmem))
  drained := by
    rw [hlist]
    intro k c hk hinactive
    obtain ⟨c', hold, -, ⟨rfl, -⟩ | ⟨-, rfl⟩⟩ := lookup_deactivate he hk
    · exact hdrained
    · unfold Drained
      rw [hqueue, hphase, hcleanup]
      exact h.drained k c' hold hinactive
  current := by
    rw [hinvoked]
    exact h.current

/-- An API call that meets the condition keeps the invariant. -/
theorem DeliveryInv.called (h : DeliveryInv s) {a : ApiCall} {ans : Answer G}
    (hg : KeepsCurrent s (.call a)) (hstep : ApiStep env s.fe s.vmi a ans) :
    DeliveryInv { s with vmi := ans.vmi, fe := ans.fe
                         cleared := s.cleared ++ s.clearedBy a ans.result } := by
  obtain ⟨hscope, hcall⟩ := hg
  cases hstep with
  | quiet hlist hsame hclear =>
    -- a quiet call clears nothing, a timer at most
    have hnil : s.clearedBy a ans.result = [] := by
      unfold Session.clearedBy
      split
      · rename_i eid hresult
        rw [hclear eid rfl hresult]
        rfl
      · rfl
    rw [hnil, List.append_nil]
    exact h.of_same hsame hlist h.inFlight h.drained rfl h.current
  | registered eventType ei hkind hroom hid hobj hlist hevents howner heventId halloc =>
    rw [show s.clearedBy (.eventRegister _) ans.result = [] from rfl, List.append_nil]
    exact h.registered hid hobj (hcall hkind) hlist hevents howner halloc rfl rfl rfl rfl rfl
  | cleared e ei he hei hlist hevents howner heventId halloc hresult =>
    rename_i eid
    have hclear : s.clearedBy (.eventClear eid) ans.result = [e.callback] := by
      rw [hresult]
      show ((s.fe.eventlist.lookup eid).map Entry.callback).toList = _
      rw [he]
      rfl
    rw [h.key eid ei hei] at hevents
    rw [hclear]
    refine h.cleared he ?_ hlist hevents howner halloc rfl rfl rfl rfl rfl
    -- before the scan the entry will be gone in time, elsewhere the condition helps
    by_cases hbefore : s.phase.stage = .beforeScan
    · exact .inr (.inl hbefore)
    · refine .inl (hcall hbefore ?_)
      exact mem_of_lookup he
  | unallocated => exact hscope.elim
  | started => exact hscope.elim
  | stopped => exact hscope.elim

/-- **A dispatch is current.** The message is the entry's own, and when the loop looks at the
    next message it is not of an inactive entry. -/
theorem DeliveryInv.dispatched (h : DeliveryInv s) {m : EventMsg} {rest : List EventMsg}
    {e : Entry} (hphase : s.phase = .poll) (hqueue : s.queue = m :: rest)
    (he : s.fe.eventlist.lookup m.identifier = some e) :
    DeliveryInv
      { s with queue := rest, phase := .event m.guestPaused
               invoked := s.invoked ++ [⟨m.source, e.callback, e.callback ∈ s.cleared⟩] } := by
  have hm : m ∈ s.queue := by
    rw [hqueue]
    exact List.mem_cons_self
  -- at the poll an inactive entry is drained only if the next message is not its own
  have hactive : e.status = .active := by
    cases hstatus : e.status with
    | active => rfl
    | inactive =>
      have hdrained := h.drained _ e he hstatus
      unfold Drained at hdrained
      rw [hphase] at hdrained
      rcases hdrained with hnext | hbefore | ⟨hafter, -⟩ | hdead
      · exact absurd rfl (hnext m (by rw [hqueue]; rfl))
      · cases hbefore
      · cases hafter
      · cases hdead
  refine h.of_same (SameRegistry.refl _) rfl ?_ (fun k e _ _ => .inr (.inl rfl)) rfl ?_
  · intro m' hm'
    refine h.inFlight m' ?_
    rw [hqueue]
    exact List.mem_cons_of_mem _ hm'
  · intro i hi
    rcases List.mem_append.mp hi with hi | hi
    · exact h.current i hi
    · rw [List.mem_singleton.mp hi]
      exact ⟨h.inFlight m hm e he, decide_eq_false (h.live _ e he hactive)⟩

/-- The loop deletes the entries on the cleanup list. -/
theorem DeliveryInv.cleaned (h : DeliveryInv s) (hstage : s.phase.stage = .afterScan)
    (hvmi : s'.vmi = s.vmi)
    (hlist : ∀ k e, s'.fe.eventlist.lookup k = some e ↔
      k ∉ s.cleanupEids ∧ s.fe.eventlist.lookup k = some e)
    (hqueue : s'.queue = s.queue) (hcleared : s'.cleared = s.cleared)
    (hinvoked : s'.invoked = s.invoked) : DeliveryInv s' where
  plugin := by
    rw [hvmi]
    exact h.plugin
  key := by
    rw [hvmi]
    exact h.key
  callbackBelow := by
    rw [hvmi]
    exact fun k e he => h.callbackBelow k e ((hlist k e).mp he).2
  clearedBelow := by
    rw [hcleared, hvmi]
    exact h.clearedBelow
  distinct k k' e e' he he' :=
    h.distinct k k' e e' ((hlist k e).mp he).2 ((hlist k' e').mp he').2
  installed := by
    rw [hvmi]
    exact fun k e ei he => h.installed k e ei ((hlist k e).mp he).2
  inFlight := by
    rw [hqueue]
    exact fun m hm e he => h.inFlight m hm e ((hlist _ e).mp he).2
  gone := by
    rw [hvmi]
    exact fun k e he => h.gone k e ((hlist k e).mp he).2
  live := by
    rw [hcleared]
    exact fun k e he => h.live k e ((hlist k e).mp he).2
  drained := by
    intro k e he hinactive
    obtain ⟨hnot, he'⟩ := (hlist k e).mp he
    -- an entry that was not deleted was not on the list, so the next message is not its own
    have hnext : ∀ m, s.queue.head? = some m → m.identifier ≠ k := by
      have hdrained := h.drained k e he' hinactive
      unfold Drained at hdrained
      rw [hstage] at hdrained
      rcases hdrained with hnext | hbefore | ⟨-, hmem⟩ | hdead
      · exact hnext
      · cases hbefore
      · exact absurd hmem hnot
      · cases hdead
    refine .inl ?_
    rw [hqueue]
    exact hnext
  current := by
    rw [hinvoked]
    exact h.current

/-- **One step.** A step that meets the condition keeps the invariant. -/
theorem DeliveryInv.step (h : DeliveryInv s) {i : Input G} (hg : KeepsCurrent s i)
    (hstep : SessionStep env s i s') : DeliveryInv s' := by
  cases hstep with
  | moved hsame hlist hqueue hstage hcleanup hcleared hinvoked =>
    have hmem : ∀ m ∈ s'.queue, m ∈ s.queue := by
      intro m hm
      rcases hqueue with hsameq | ⟨-, m₀, hcons⟩
      · rw [← hsameq]
        exact hm
      · rw [hcons]
        exact List.mem_cons_of_mem _ hm
    refine h.of_same hsame hlist (fun m hm => h.inFlight m (hmem m hm)) ?_ hcleared ?_
    · exact fun k e he hinactive => (h.drained k e he hinactive).of_stage hqueue hstage hcleanup
    · rw [hinvoked]
      exact h.current
  | sent m hfrom hsame hlist hqueue hphase hcleanup hcleared hinvoked =>
    exact h.sent hfrom hsame hlist hqueue hphase hcleanup hcleared hinvoked
  | called hruns hstep => exact h.called hg hstep
  | dispatched m rest e hphase hqueue he => exact h.dispatched hphase hqueue he
  | scanned hphase hvmi hlist hqueue hstage hmem hcleared hinvoked =>
    refine h.of_same (by rw [hvmi]; exact SameRegistry.refl _) hlist ?_ ?_ hcleared ?_
    · rw [hqueue]
      exact h.inFlight
    · intro k e he hinactive
      -- every inactive entry is on the list from now on
      exact .inr (.inr (.inl ⟨hstage, (hmem k).mpr (.inr ⟨e, he, hinactive⟩)⟩))
    · rw [hinvoked]
      exact h.current
  | cleaned hphase hvmi hlist hqueue hphase' hcleanup hcleared hinvoked =>
    exact h.cleaned (by rw [hphase]; rfl) hvmi hlist hqueue hcleared hinvoked

end Steps

/-! ### Whole runs -/

/-- **Events reach the callback they were registered for.** In every run whose calls meet the
    condition, every invocation of a callback is for a message that was generated by the
    registration that installed the callback, and that registration had not been cleared. -/
theorem invocations_current {env : Env G} {s : Session G}
    (h : Reach (sessionSystem env) KeepsCurrent s) : ∀ i ∈ s.invoked, Current i := by
  have hinv : DeliveryInv s := by
    refine h.invariant DeliveryInv ?_ ?_
    · rintro s ⟨g, identR, rfl⟩
      exact deliveryInv_initial g identR
    · intro s i s' hinv hg hs
      exact hinv.step hg (session_step hs)
  exact hinv.current

/-- The constructor registers an event, which fires and is dispatched. -/
theorem invocations_current_first :
    ∃ s : Session Unit, s.invoked = [⟨0, 0, false⟩] ∧ ∀ i ∈ s.invoked, Current i := by
  have hrun : ∃ s₁ s, (Session.initial () [102, 45, 114]).next echoEnv
      (.call (.eventRegister cr3Data)) = some s₁ ∧
      [.call .eventsStart, .established, .trap 0, .polled true].foldlM
        (fun s i => s.next echoEnv i) s₁ = some s ∧ s.invoked = [⟨0, 0, false⟩] := by
    refine ⟨_, _, rfl, rfl, ?_⟩
    rfl
  obtain ⟨s₁, s, hregister, hrest, hinvoked⟩ := hrun
  have hg : KeepsCurrent (Session.initial () [102, 45, 114]) (.call (.eventRegister cr3Data)) :=
    ⟨trivial, fun _ m hm => absurd hm List.not_mem_nil⟩
  have hreach : Reach (sessionSystem echoEnv) KeepsCurrent s := by
    refine .of_foldlM (fun _ _ _ h => h) ?_
      (.step (.init ⟨(), [102, 45, 114], rfl⟩) hg hregister) hrest
    intro i hi s
    fin_cases hi <;> exact ⟨trivial, trivial⟩
  exact ⟨s, hinvoked, invocations_current hreach⟩

/-- An event fires twice; the callback for the first message clears it and registers an event
    again, under the same identifier, and the second message comes in the next iteration. -/
def staleMessage : List (Input Unit) :=
  [.call .eventsStart, .call (.eventRegister cr3Data), .established, .trap 0, .trap 0,
    .polled true, .call (.eventClear 0), .call (.eventRegister cr3Data), .returned,
    .broadcast false, .notify false, .scanned, .timer false, .cleaned, .polled true]

/-- The second message invokes the callback of the second registration. -/
theorem invocations_current_fails :
    ¬∀ s : Session Unit, Reach (sessionSystem echoEnv) (fun _ i => WithoutPlugin i) s →
      ∀ i ∈ s.invoked, Current i := by
  intro hall
  have hrun : ∃ s, staleMessage.foldlM (fun s i => s.next echoEnv i)
      (Session.initial () [102, 45, 114]) = some s ∧
      s.invoked = [⟨0, 0, false⟩, ⟨0, 1, false⟩] := by
    refine ⟨_, rfl, ?_⟩
    rfl
  obtain ⟨s, hs, hinvoked⟩ := hrun
  have hreach : Reach (sessionSystem echoEnv) (fun _ i => WithoutPlugin i) s := by
    refine .of_foldlM (fun _ _ _ h => h) ?_ (.init ⟨(), [102, 45, 114], rfl⟩) hs
    intro i hi s
    fin_cases hi <;> trivial
  have hcurrent := hall s hreach ⟨0, 1, false⟩ (by rw [hinvoked]; simp)
  have h01 : (0 : ℕ) = 1 := hcurrent.1
  cases h01

end Furnace.App
