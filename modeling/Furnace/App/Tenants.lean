import Mathlib.Algebra.Order.BigOperators.Group.Finset
import Mathlib.Data.Fintype.Basic
import Furnace.App.Pauses
import Furnace.Vmi.Ownership

namespace Furnace.App

open Furnace.Proto Furnace.Lib Furnace.Vmi

/-!
# Any number of apps

The apps on one VMI partition share its registry and the guest's pauses.  Each has a frontend of
its own, and its events come over a socket of its own; an event whose owner is nobody's identity
is dropped by the ROUTER socket, after it has paused the guest.

* `TenancyStep` — the apps, their frontends and the guest, in any order.
* `Requested` — what a step of one app can do to the VMI partition that it shares.
* `tenants_account` — **in every run** no event is dropped, and the pauses of the guest are those
  of the events of all the apps, and of their explicit calls.
* `dead_app_pauses` — **an app that has died keeps the guest paused**, for all the other apps.
-/

variable {G ι : Type}

/-! ### State -/

/-- An app: its frontend, and the events on the way to it. -/
structure TenantApp where
  queue : List EventMsg := []
  fe : FE
  phase : Phase := .setup
  cleanupEids : List ℕ := []
  cleanupTids : List ℕ := []

/-- The app on the VMI partition.  The identities of its sockets never change. -/
def TenantApp.session (a : TenantApp) (u : Uuid) (w : World G) : Session G where
  vmi := w
  queue := a.queue
  fe := { a.fe with identR := u.identR }
  phase := a.phase
  cleanupEids := a.cleanupEids
  cleanupTids := a.cleanupTids

/-- What is the app's own. -/
def Session.app (s : Session G) : TenantApp where
  queue := s.queue
  fe := s.fe
  phase := s.phase
  cleanupEids := s.cleanupEids
  cleanupTids := s.cleanupTids

/-- The events in flight to an app or being handled that paused the guest. -/
def TenantApp.outstanding (a : TenantApp) : ℕ := pausedIn a.queue + handling a.phase

/-- The VMI partition and its apps.  The other fields are ghosts: the events that were dropped,
    and the apps' calls of `pause_vm` and `resume_vm`. -/
structure Tenancy (ι G : Type) where
  vmi : World G
  apps : ι → TenantApp
  dropped : ℕ := 0
  explicitPauses : ℕ := 0
  explicitResumes : ℕ := 0

/-- What happens next: the guest runs, a trap fires or a system call is traced, or something
    happens in or to an app. -/
inductive Happening (ι G : Type)
  | guestRuns (g : G) | trap (k : ℕ) | syscall
  | app (i : ι) (input : Input G) | pauseVm (i : ι) | resumeVm (i : ι)

/-- What the guest does does not happen in an app. -/
def Input.ofGuest : Input G → Bool
  | .guestRuns _ | .trap _ | .syscall => true
  | _ => false

section Steps

variable [DecidableEq ι]

namespace Tenancy

/-- An app has gone on. -/
def put (s : Tenancy ι G) (i : ι) (s' : Session G) : Tenancy ι G :=
  { s with vmi := s'.vmi, apps := Function.update s.apps i s'.app }

/-- The app with the index `i`. -/
def session (uuid : ι → Uuid) (s : Tenancy ι G) (i : ι) : Session G :=
  (s.apps i).session (uuid i) s.vmi

end Tenancy

/-- A callback sends an event, which goes to the app whose DEALER identity is the owner. -/
inductive Routed (env : Env G) (uuid : ι → Uuid) (s : Tenancy ι G) (owner : Bytes)
    (id syncState source : ℕ) : Tenancy ι G → Prop
  | delivered (i : ι) (howner : owner = (uuid i).identD) :
      Routed env uuid s owner id syncState source
        (s.put i ((s.session uuid i).send env id syncState source))
  | dropped (howner : ∀ i, owner ≠ (uuid i).identD) :
      Routed env uuid s owner id syncState source
        { s with vmi := if syncState = fSync then (s.vmi.exec env .pause).2 else s.vmi
                 dropped := s.dropped + 1 }

/-- **One step.** -/
inductive TenancyStep (env : Env G) (uuid : ι → Uuid) (s : Tenancy ι G) :
    Happening ι G → Tenancy ι G → Prop
  | guestRuns (g : G) :
      TenancyStep env uuid s (.guestRuns g) { s with vmi := { s.vmi with guest := g } }
  /-- While the events are stopped the trap fires in vain. -/
  | masked {k : ℕ} {ei : EventItem} (hei : s.vmi.events.lookup k = some ei)
      (hevent : ei.event ≠ none) (hmasked : (s.vmi.eventsActive && ei.active) = false) :
      TenancyStep env uuid s (.trap k) s
  | fired {k : ℕ} {ei : EventItem} {owner : Bytes} {s' : Tenancy ι G}
      (hei : s.vmi.events.lookup k = some ei) (hevent : ei.event ≠ none)
      (hactive : (s.vmi.eventsActive && ei.active) = true) (howner : ei.owner = some owner)
      (hrouted : Routed env uuid s owner ei.id ei.syncState ei.obj s') :
      TenancyStep env uuid s (.trap k) s'
  | traced {owner : Bytes} {obj : ℕ} {s' : Tenancy ι G}
      (howner : s.vmi.syscallPluginOwner = some owner) (hobj : s.vmi.syscallPluginEi = some obj)
      (hrouted : Routed env uuid s owner s.vmi.syscallPluginEventId s.vmi.syscallPluginSyncState
        obj s') : TenancyStep env uuid s .syscall s'
  | app {i : ι} {input : Input G} {s' : Session G} (hown : input.ofGuest = false)
      (hnext : (s.session uuid i).next env input = some s') :
      TenancyStep env uuid s (.app i input) (s.put i s')
  | pauseVm {i : ι} {w : World G} (hruns : (s.apps i).phase.runsApp = true)
      (heffect : (s.session uuid i).fe.effect env .pauseVm s.vmi = .ok w) :
      TenancyStep env uuid s (.pauseVm i)
        { s with vmi := w, explicitPauses := s.explicitPauses + 1 }
  | resumeVm {i : ι} {w : World G} (hruns : (s.apps i).phase.runsApp = true)
      (heffect : (s.session uuid i).fe.effect env .resumeVm s.vmi = .ok w) :
      TenancyStep env uuid s (.resumeVm i)
        { s with vmi := w, explicitResumes := s.explicitResumes + 1 }

/-- The apps on a fresh VMI partition. -/
def tenancySystem (env : Env G) (uuid : ι → Uuid) :
    TransitionSystem (Tenancy ι G) (Happening ι G) where
  init s := ∃ g, s = { vmi := World.initial g
                       apps := fun i => { fe := { identR := (uuid i).identR } } }
  step := TenancyStep env uuid

end Steps

/-! ### What an app can do to the partition -/

/-- **What a step of an app does to the VMI partition**: at most one request of its frontend. -/
inductive Requested (env : Env G) (fe : FE) (w : World G) : World G → Prop
  | nothing : Requested env fe w w
  | effect (op : ExtOp) : Requested env fe w ({ w with scratchIdent := fe.identR }.exec env op).2
  | events (b : Bool) :
      Requested env fe w { w with scratchIdent := fe.identR, eventsActive := b }
  | registry {c : RegistryCall} {m : Msg} {w' : World G} {r : Reply}
      (hcore : c.handler.core env (.ok m) { w with scratchIdent := fe.identR } = .ok (w', r)) :
      Requested env fe w w'

section Requests

variable {env : Env G} {fe : FE} {w : World G}

theorem exchange_requested {c : RegistryCall} {m : Msg} {w' : World G} {reply : VMIMessage}
    (h : fe.exchange env (registryCall c) m w = .ok (w', reply)) : Requested env fe w w' := by
  obtain ⟨r, hcore, -⟩ := exchange_registry h
  exact .registry hcore

theorem registerVmi_requested {eventType : VmiType} {m : Msg} {ans : Answer G}
    (h : fe.registerVmi env eventType m w = .ok ans) : Requested env fe w ans.vmi := by
  unfold FE.registerVmi at h
  obtain ⟨⟨w', reply⟩, hex, h⟩ := bind_eq_ok.mp h
  have hrequested : Requested env fe w w' := exchange_requested (c := .eventRegister) hex
  dsimp only at h
  split at h
  · cases h
    exact hrequested
  · split at h <;> cases h <;> exact hrequested

theorem eventRegister_requested {d : EventData} {ans : Answer G}
    (h : fe.eventRegister env d w = .ok ans) : Requested env fe w ans.vmi := by
  unfold FE.eventRegister at h
  split at h
  · cases h
    exact .nothing
  split at h
  · cases h
    exact .nothing
  · dsimp only at h
    split at h <;> cases h <;> exact .nothing
  · split at h
    · cases h
      exact .nothing
    · exact registerVmi_requested h

theorem eventClear_requested {eid : ℕ} {ans : Answer G}
    (h : fe.eventClear env eid w = .ok ans) : Requested env fe w ans.vmi := by
  unfold FE.eventClear at h
  split at h
  · split at h
    · cases h
      exact .nothing
    · obtain ⟨⟨w', reply⟩, hex, h⟩ := bind_eq_ok.mp h
      have hrequested : Requested env fe w w' := exchange_requested (c := .eventClear) hex
      dsimp only at h
      split at h
      · cases h
        exact hrequested
      · split at h <;> cases h <;> exact hrequested
  · split at h <;> cases h <;> exact .nothing

theorem startSyscall_requested {callable : Bool} {sync : ℕ} {ans : Answer G}
    (h : fe.startSyscall env callable sync w = .ok ans) : Requested env fe w ans.vmi := by
  unfold FE.startSyscall at h
  split at h
  · cases h
    exact .nothing
  split at h
  · cases h
    exact .nothing
  · obtain ⟨⟨w', reply⟩, hex, h⟩ := bind_eq_ok.mp h
    have hrequested : Requested env fe w w' := exchange_requested (c := .startSyscall) hex
    dsimp only at h
    split at h <;> cases h <;> exact hrequested

theorem stopSyscall_requested {eid : ℕ} {ans : Answer G}
    (h : fe.stopSyscall env eid w = .ok ans) : Requested env fe w ans.vmi := by
  unfold FE.stopSyscall at h
  split at h
  · cases h
    exact .nothing
  · obtain ⟨⟨w', reply⟩, hex, h⟩ := bind_eq_ok.mp h
    cases h
    exact exchange_requested (c := .stopSyscall) hex

/-- An API call is at most one request, whether it returns or raises. -/
theorem api_requested {a : ApiCall} {ans : Answer G} (h : a.run env fe w = .ok ans) :
    Requested env fe w ans.vmi := by
  cases a with
  | eventRegister d => exact eventRegister_requested h
  | eventClear eid => exact eventClear_requested h
  | startSyscall callable sync => exact startSyscall_requested h
  | stopSyscall eid => exact stopSyscall_requested h
  | eventsStart =>
    obtain ⟨⟨w', reply⟩, hex, h⟩ := bind_eq_ok.mp h
    cases h
    rw [exchange_events rfl hex]
    exact .events _
  | eventsStop =>
    obtain ⟨⟨w', reply⟩, hex, h⟩ := bind_eq_ok.mp h
    cases h
    rw [exchange_events rfl hex]
    exact .events _

theorem resumed_requested {s s' : Session G} {guestPaused : Bool} {phase : Phase}
    (h : s.resumed env guestPaused phase = some s') : Requested env s.fe s.vmi s'.vmi := by
  unfold Session.resumed at h
  split at h
  · split at h
    · cases h
    · rename_i w reply hex
      cases h
      rw [exchange_effect rfl hex]
      exact .effect .resume
  · cases h
    exact .nothing

/-- **A step of an app is at most one request.** -/
theorem next_requested {s s' : Session G} {input : Input G} (hown : input.ofGuest = false)
    (h : s.next env input = some s') : Requested env s.fe s.vmi s'.vmi := by
  cases input with
  | guestRuns | trap | syscall => cases hown
  | call a =>
    have hcalled : s.called env a = some s' := h
    unfold Session.called at hcalled
    split at hcalled
    · split at hcalled
      · cases hcalled
      · rename_i ans hans
        cases hcalled
        exact api_requested hans
    · cases hcalled
  | returned =>
    have hafter : s.afterCallback env = some s' := h
    unfold Session.afterCallback at hafter
    split at hafter
    · exact resumed_requested hafter
    all_goals
      cases hafter
      try exact .nothing
  | raised =>
    have hescaped : s.escaped env = some s' := h
    unfold Session.escaped at hescaped
    split at hescaped
    · exact resumed_requested hescaped
    all_goals
      cases hescaped
      try exact .nothing
  | polled ready =>
    have hdispatch : s.dispatch env ready = some s' := h
    unfold Session.dispatch at hdispatch
    split at hdispatch
    · split at hdispatch
      · cases hdispatch
        exact .nothing
      · cases hdispatch
      · split at hdispatch
        · cases hdispatch
          exact .nothing
        · have hrequested := resumed_requested hdispatch
          exact hrequested
    · cases hdispatch
  | established =>
    have hinit : s.postAppInit = some s' := h
    unfold Session.postAppInit at hinit
    obtain ⟨-, hs'⟩ := Option.ite_none_right_eq_some.mp hinit
    cases hs'
    exact .nothing
  | broadcast ready =>
    obtain ⟨-, hs'⟩ := Option.ite_none_right_eq_some.mp h
    cases hs'
    exact .nothing
  | notify ready =>
    obtain ⟨-, hs'⟩ := Option.ite_none_right_eq_some.mp h
    cases hs'
    exact .nothing
  | scanned =>
    obtain ⟨-, hs'⟩ := Option.ite_none_right_eq_some.mp h
    cases hs'
    exact .nothing
  | timer due =>
    have htimer : s.nextTimer due = some s' := h
    unfold Session.nextTimer at htimer
    split at htimer
    · split at htimer
      · cases htimer
        exact .nothing
      split at htimer
      · cases htimer
        exact .nothing
      split at htimer
      · cases htimer
        exact .nothing
      split at htimer
      · cases htimer
        exact .nothing
      · split at htimer <;> cases htimer <;> exact .nothing
    · cases htimer
  | cleaned =>
    obtain ⟨-, hclean⟩ := Option.ite_none_right_eq_some.mp h
    split at hclean <;> cases hclean <;> exact .nothing

end Requests

/-! ### Owners -/

/-- Whoever an event would go to is one of the apps. -/
structure OwnersKnown (uuid : ι → Uuid) (w : World G) : Prop where
  events : ∀ k ei tr, w.events.lookup k = some ei → ei.event = some tr →
    ∃ i, ei.owner = some (uuid i).identD
  plugin : ∀ owner, w.syscallPluginOwner = some owner → ∃ i, owner = (uuid i).identD

section Owners

variable {env : Env G} {m : Msg} {w w' : World G} {r : Reply} {uuid : ι → Uuid}

/-- A plugin that runs after a request ran before it, or is that of the client that is served. -/
theorem registry_pluginOwner {c : RegistryCall} (h : c.handler.core env (.ok m) w = .ok (w', r))
    {owner : Bytes} (howner : w'.syscallPluginOwner = some owner) :
    w.syscallPluginOwner = some owner ∨ ownerOf w.scratchIdent = .ok owner := by
  by_cases hc : c = .startSyscall
  · subst hc
    cases startSyscall_cases h with
    | running | noMemory => exact .inl howner
    | started owner' hnone hmalloc hident hstarted hw =>
      subst hw
      cases howner
      exact .inr hident
  · cases registry_step h with
    | refused g new alloc fl hr hentry hnew hfl hw =>
      subst hw
      exact .inl howner
    | registered g new ei hroom hid hobj hevent hactive hsync hnew hw =>
      subst hw
      exact .inl howner
    | cleared g ei hei hw =>
      subst hw
      exact .inl howner
    | unallocated | started => exact absurd rfl hc
    | stopped g hrunning hmem hw =>
      subst hw
      cases howner

/-- A request of an app makes it the owner of what it registers. -/
theorem OwnersKnown.requested (h : OwnersKnown uuid w) {fe : FE} {i : ι}
    (hident : fe.identR = (uuid i).identR) (hs : Requested env fe w w') : OwnersKnown uuid w' := by
  have hown : ∀ owner, ownerOf fe.identR = .ok owner → owner = (uuid i).identD := by
    intro owner howner
    rw [hident, (uuid i).ownerOf_identR] at howner
    cases howner
    rfl
  cases hs with
  | nothing | effect | events => exact ⟨h.events, h.plugin⟩
  | registry hcore =>
    constructor
    · intro k ei tr hk hevent
      rcases registry_owner hcore hk hevent with hold | ⟨-, owner, howner, hei⟩
      · exact h.events k ei tr hold hevent
      · exact ⟨i, by rw [hei, hown owner howner]⟩
    · intro owner howner
      rcases registry_pluginOwner hcore howner with hold | hnew
      · exact h.plugin owner hold
      · exact ⟨i, hown owner hnew⟩

end Owners

/-! ### The account -/

/-- **The account of the guest's pauses.**  No event is dropped, and the pauses that are not
    resumed are those of the events in flight to any app or being handled, and of the explicit
    calls of any app. -/
structure TenancyAccount [Fintype ι] (uuid : ι → Uuid) (s : Tenancy ι G) : Prop where
  owners : OwnersKnown uuid s.vmi
  delivered : s.dropped = 0
  balance : pauses s.vmi + s.explicitResumes =
    resumes s.vmi + ∑ i, (s.apps i).outstanding + s.explicitPauses

section Account

variable [Fintype ι] [DecidableEq ι] {env : Env G} {uuid : ι → Uuid} {s s' : Tenancy ι G}

/-- One app goes on, the others stay as they are. -/
theorem sum_outstanding_put (s : Tenancy ι G) (i : ι) (s' : Session G) :
    ∑ j, ((s.put i s').apps j).outstanding + (s.apps i).outstanding =
      ∑ j, (s.apps j).outstanding + s'.outstanding := by
  rw [← Finset.add_sum_erase _ _ (Finset.mem_univ i),
    ← Finset.add_sum_erase _ (fun j => (s.apps j).outstanding) (Finset.mem_univ i)]
  have hothers : ∑ j ∈ Finset.univ.erase i, ((s.put i s').apps j).outstanding =
      ∑ j ∈ Finset.univ.erase i, (s.apps j).outstanding := by
    refine Finset.sum_congr rfl fun j hj => ?_
    show (Function.update s.apps i s'.app j).outstanding = _
    rw [Function.update_of_ne (Finset.ne_of_mem_erase hj)]
  have hown : ((s.put i s').apps i).outstanding = s'.outstanding := by
    show (Function.update s.apps i s'.app i).outstanding = _
    rw [Function.update_self]
    rfl
  rw [hothers, hown]
  omega

/-- An app goes on, or gets an event. -/
theorem TenancyAccount.put (h : TenancyAccount uuid s) {i : ι} {s' : Session G} {input : Input G}
    (haccount : Accounts (s.session uuid i) s' input) (howners : OwnersKnown uuid s'.vmi) :
    TenancyAccount uuid (s.put i s') := by
  refine ⟨howners, h.delivered, ?_⟩
  have hsum := sum_outstanding_put s i s'
  have hstep := haccount.balance
  have hbefore : (s.session uuid i).outstanding = (s.apps i).outstanding := rfl
  have hvmi : (s.session uuid i).vmi = s.vmi := rfl
  rw [hbefore, hvmi] at hstep
  have hbalance := h.balance
  show pauses s'.vmi + s.explicitResumes = resumes s'.vmi + _ + s.explicitPauses
  omega

/-- An event goes to its owner. -/
theorem TenancyAccount.routed (h : TenancyAccount uuid s) {owner : Bytes} {id syncState source : ℕ}
    (hknown : ∃ i, owner = (uuid i).identD)
    (hrouted : Routed env uuid s owner id syncState source s') : TenancyAccount uuid s' := by
  cases hrouted with
  | delivered i howner =>
    refine h.put (.send (.inr rfl) id syncState source) ?_
    have howners := h.owners
    unfold Session.send
    dsimp only
    split <;> exact ⟨howners.events, howners.plugin⟩
  | dropped howner =>
    obtain ⟨i, hi⟩ := hknown
    exact absurd hi (howner i)

omit [DecidableEq ι] in
/-- An explicit call. -/
theorem TenancyAccount.effect (h : TenancyAccount uuid s) {i : ι} {c : Call} {op : ExtOp}
    (hc : (handlerOf c : Handler G) = ⟨false, effectBody op⟩) {w : World G}
    (heffect : (s.session uuid i).fe.effect env c s.vmi = .ok w) :
    OwnersKnown uuid w ∧ w.ops = s.vmi.ops ++ [op] := by
  refine ⟨?_, effect_ops hc heffect⟩
  obtain ⟨⟨w₁, reply⟩, hex, hw⟩ := bind_eq_ok.mp heffect
  cases hw
  have hrequested : Requested env (s.session uuid i).fe s.vmi w := by
    rw [exchange_effect hc hex]
    exact .effect op
  exact h.owners.requested rfl hrequested

/-- **One step keeps the account.** -/
theorem TenancyAccount.step (h : TenancyAccount uuid s) {a : Happening ι G}
    (hs : TenancyStep env uuid s a s') : TenancyAccount uuid s' := by
  cases hs with
  | guestRuns g => exact ⟨⟨h.owners.events, h.owners.plugin⟩, h.delivered, h.balance⟩
  | masked hei hevent hmasked => exact h
  | fired hei hevent hactive howner hrouted =>
    obtain ⟨tr, htr⟩ := Option.ne_none_iff_exists'.mp hevent
    obtain ⟨i, hi⟩ := h.owners.events _ _ tr hei htr
    rw [howner] at hi
    exact h.routed ⟨i, Option.some.inj hi⟩ hrouted
  | traced howner hobj hrouted => exact h.routed (h.owners.plugin _ howner) hrouted
  | app hown hnext =>
    exact h.put (session_account hnext) (h.owners.requested rfl (next_requested hown hnext))
  | pauseVm hruns heffect =>
    obtain ⟨howners, hops⟩ := h.effect rfl heffect
    refine ⟨howners, h.delivered, ?_⟩
    have hbalance := h.balance
    simp [pauses, resumes, hops] at hbalance ⊢
    omega
  | resumeVm hruns heffect =>
    obtain ⟨howners, hops⟩ := h.effect rfl heffect
    refine ⟨howners, h.delivered, ?_⟩
    have hbalance := h.balance
    simp [pauses, resumes, hops] at hbalance ⊢
    omega

theorem tenancyAccount_reach (h : Reach (tenancySystem env uuid) (fun _ _ => True) s) :
    TenancyAccount uuid s := by
  refine h.invariant (TenancyAccount uuid) ?_ fun s a s' hinv _ hs => hinv.step hs
  rintro s ⟨g, rfl⟩
  refine ⟨⟨nofun, nofun⟩, rfl, ?_⟩
  simp [pauses, resumes, World.initial, TenantApp.outstanding, pausedIn, handling]

/-- **The account of any number of apps.**  In every run of any apps on one VMI partition, in any
    order of their calls, callbacks, returns and exceptions and of the guest's traps and system
    calls: no event is dropped, and the pauses of the guest are those of the apps. -/
theorem tenants_account (h : Reach (tenancySystem env uuid) (fun _ _ => True) s) :
    s.dropped = 0 ∧ (pauses s.vmi : ℤ) - resumes s.vmi =
      ∑ i, (s.apps i).outstanding + s.explicitPauses - s.explicitResumes := by
  have haccount := tenancyAccount_reach h
  refine ⟨haccount.delivered, ?_⟩
  have hbalance := haccount.balance
  omega

end Account

/-! ### Apps that have died -/

section Dead

variable [DecidableEq ι] {env : Env G} {uuid : ι → Uuid} {s s' : Tenancy ι G}

/-- A frontend that has ended does nothing. -/
theorem next_dead {s : Session G} (hdead : s.phase = .dead) {input : Input G}
    (hown : input.ofGuest = false) : s.next env input = none := by
  cases input with
  | guestRuns | trap | syscall => cases hown
  | call | returned | raised | established | polled | broadcast | notify | scanned | timer |
      cleaned =>
    simp [Session.next, Session.called, Session.afterCallback, Session.escaped,
      Session.postAppInit, Session.dispatch, Session.facilities, Session.scanEvents,
      Session.nextTimer, Session.cleanUp, hdead, Phase.runsApp]

/-- Nothing takes an event from an app that has died. -/
theorem TenancyStep.dead {a : Happening ι G} (hs : TenancyStep env uuid s a s') {i : ι}
    (hdead : (s.apps i).phase = .dead) : (s'.apps i).phase = .dead ∧
      (s.apps i).outstanding ≤ (s'.apps i).outstanding := by
  have hrouted : ∀ {owner id syncState source s'},
      Routed env uuid s owner id syncState source s' → (s'.apps i).phase = .dead ∧
        (s.apps i).outstanding ≤ (s'.apps i).outstanding := by
    rintro owner id syncState source s' (⟨j, howner⟩ | howner)
    · by_cases hj : i = j
      · subst hj
        show (Function.update s.apps i _ i).phase = .dead ∧
          _ ≤ (Function.update s.apps i _ i).outstanding
        rw [Function.update_self]
        refine ⟨hdead, ?_⟩
        show pausedIn (s.apps i).queue + handling (s.apps i).phase ≤
          pausedIn ((s.apps i).queue ++ [_]) + handling (s.apps i).phase
        unfold pausedIn
        rw [List.countP_append]
        omega
      · show (Function.update s.apps j _ i).phase = .dead ∧
          _ ≤ (Function.update s.apps j _ i).outstanding
        rw [Function.update_of_ne hj]
        exact ⟨hdead, le_rfl⟩
    · exact ⟨hdead, le_rfl⟩
  cases hs with
  | guestRuns | masked | pauseVm | resumeVm => exact ⟨hdead, le_rfl⟩
  | fired hei hevent hactive howner hsent => exact hrouted hsent
  | traced howner hobj hsent => exact hrouted hsent
  | @app j input s' hown hnext =>
    have hj : i ≠ j := by
      rintro rfl
      rw [next_dead hdead hown] at hnext
      cases hnext
    show (Function.update s.apps j _ i).phase = .dead ∧
      _ ≤ (Function.update s.apps j _ i).outstanding
    rw [Function.update_of_ne hj]
    exact ⟨hdead, le_rfl⟩

/-- **An app that has died keeps the guest paused.**  Whatever happens later, the pauses of the
    synchronous events that were on their way to it are never resumed: only an explicit
    `resume_vm` of another app makes up for them. -/
theorem dead_app_pauses [Fintype ι]
    (h : Reach (tenancySystem env uuid) (fun _ _ => True) s) {i : ι}
    (hdead : (s.apps i).phase = .dead)
    (hlater : Relation.ReflTransGen (fun s s' => ∃ a, TenancyStep env uuid s a s') s s') :
    ((s.apps i).outstanding : ℤ) + s'.explicitPauses - s'.explicitResumes ≤
      pauses s'.vmi - resumes s'.vmi := by
  have hkept : Reach (tenancySystem env uuid) (fun _ _ => True) s' ∧
      (s'.apps i).phase = .dead ∧ (s.apps i).outstanding ≤ (s'.apps i).outstanding := by
    induction hlater with
    | refl => exact ⟨h, hdead, le_rfl⟩
    | tail hsteps hstep ih =>
      obtain ⟨hreach, hstill, hle⟩ := ih
      obtain ⟨a, hstep⟩ := hstep
      obtain ⟨hstill', hle'⟩ := hstep.dead hstill
      exact ⟨.step hreach trivial hstep, hstill', hle.trans hle'⟩
  obtain ⟨hreach, -, hle⟩ := hkept
  have hall : (s'.apps i).outstanding ≤ ∑ j, (s'.apps j).outstanding :=
    Finset.single_le_sum (f := fun j => (s'.apps j).outstanding) (fun _ _ => Nat.zero_le _)
      (Finset.mem_univ i)
  have hbalance := (tenancyAccount_reach hreach).balance
  omega

end Dead

/-! ### Two apps -/

/-- The apps `0` and `1`. -/
def twoApps (b : Bool) : Uuid :=
  ⟨if b then [49] else [48], by cases b <;> decide⟩

/-- Two apps that have not done anything. -/
def twoFresh : Tenancy Bool Unit where
  vmi := World.initial ()
  apps b := { fe := { identR := (twoApps b).identR } }

/-- The first app registers a synchronous event of the CR3 register and dies in its constructor;
    the second starts the events; and the event fires. -/
theorem reach_orphaned : ∃ s : Tenancy Bool Unit,
    Reach (tenancySystem echoEnv twoApps) (fun _ _ => True) s ∧
      (s.apps false).phase = .dead ∧ (s.apps false).outstanding = 1 ∧
      s.explicitPauses = 0 ∧ s.explicitResumes = 0 := by
  have hrun : ∃ s₁ s₂ s₃ ei,
      (twoFresh.session twoApps false).next echoEnv (.call (.eventRegister
        { eventType := .reg, sync := some 30, regType := some 1 })) = some s₁ ∧
      ((twoFresh.put false s₁).session twoApps false).next echoEnv .raised = some s₂ ∧
      (((twoFresh.put false s₁).put false s₂).session twoApps true).next echoEnv
        (.call .eventsStart) = some s₃ ∧
      s₃.vmi.events.lookup 0 = some ei ∧ ei.event ≠ none ∧
      (s₃.vmi.eventsActive && ei.active) = true ∧ ei.owner = some (twoApps false).identD ∧
      ei.syncState = fSync ∧ s₂.phase = .dead ∧ s₂.queue = [] := by
    refine ⟨_, _, _, _, rfl, rfl, rfl, rfl, ?_, ?_, ?_, ?_, ?_, ?_⟩
    all_goals decide +kernel
  obtain ⟨s₁, s₂, s₃, ei, h₁, h₂, h₃, hei, hevent, hactive, howner, hsync, hdead, hqueue⟩ := hrun
  have hreach : Reach (tenancySystem echoEnv twoApps) (fun _ _ => True)
      (((twoFresh.put false s₁).put false s₂).put true s₃) :=
    .step (.step (.step (.init ⟨(), rfl⟩) trivial (.app rfl h₁)) trivial (.app rfl h₂)) trivial
      (.app rfl h₃)
  refine ⟨_, .step hreach trivial (.fired hei hevent hactive howner (.delivered false rfl)),
    hdead, ?_, rfl, rfl⟩
  show pausedIn (s₂.queue ++ [⟨ei.id, ei.syncState == fSync, ei.obj⟩]) + handling s₂.phase = 1
  rw [hqueue, hsync, hdead]
  rfl

/-- The event of the first app is among those of all. -/
theorem tenants_account_orphaned : ∃ s : Tenancy Bool Unit, (s.apps false).outstanding = 1 ∧
    (pauses s.vmi : ℤ) - resumes s.vmi = ∑ b, (s.apps b).outstanding := by
  obtain ⟨s, hreach, -, hone, hpauses, hresumes⟩ := reach_orphaned
  have haccount := (tenants_account hreach).2
  rw [hpauses, hresumes] at haccount
  exact ⟨s, hone, by simpa using haccount⟩

/-- The pause of its event is still there after another step. -/
theorem dead_app_pauses_orphaned : ∃ s s' : Tenancy Bool Unit, (s.apps false).phase = .dead ∧
    TenancyStep echoEnv twoApps s (.guestRuns ()) s' ∧
    (1 : ℤ) ≤ pauses s'.vmi - resumes s'.vmi := by
  obtain ⟨s, hreach, hdead, hone, hpauses, hresumes⟩ := reach_orphaned
  refine ⟨s, _, hdead, .guestRuns (), ?_⟩
  have hlater := dead_app_pauses hreach hdead (.single ⟨_, .guestRuns ()⟩)
  rw [hone] at hlater
  dsimp only at hlater
  rw [hpauses, hresumes] at hlater
  simpa using hlater

end Furnace.App
