import Furnace.App.Agreement

namespace Furnace.App

open Furnace.Proto Furnace.Lib Furnace.Vmi

/-!
# One identifier, one registration

`event_register` and `start_syscall` return an identifier and `event_clear` takes one.  The
identifiers of timers and of the backend callback are counted up by the frontend, those of
events are the lowest free ones of the VMI partition, and `event_clear` looks for a number
among the events first.  Nothing keeps the two apart.

* `Registration` — what an identifier was returned for; `Registration.Active` tells whether
  it still fires.
* `ledgerSystem` — a session with a book of the registrations that the app has made and not
  cleared.
* `namesOne_reach` — in the runs that give out no identifier twice, the book and the session
  agree: `event_clear` has cleared exactly what it was asked to.
-/

variable {G : Type}

/-! ### Registrations -/

/-- What a registration is of; events are known by the allocation of their `event_item`. -/
inductive Source
  | timer | backend | event (obj : ℕ) | plugin (obj : ℕ)
  deriving DecidableEq

/-- A registration, under the identifier that was returned for it. -/
structure Registration where
  id : ℕ
  source : Source
  deriving DecidableEq

/-- The registration is active: its entry in `timerlist` is, the event's trap is set, the
    plugin runs. -/
def Registration.Active (s : Session G) (ρ : Registration) : Prop :=
  match ρ.source with
  | .timer => s.fe.timerlist.lookup ρ.id = some ⟨.timer, .active⟩
  | .backend => s.fe.timerlist.lookup ρ.id = some ⟨.be, .active⟩
  | .event obj => ∃ ei, s.vmi.events.lookup ρ.id = some ei ∧ ei.event.isSome ∧ ei.obj = obj
  | .plugin obj => s.vmi.syscallPluginOwner ≠ none ∧ s.vmi.syscallPluginEventId = ρ.id ∧
      s.vmi.syscallPluginEi = some obj

/-- What the VMI partition sends under the identifier goes to the registration's callback. -/
def Registration.Listed (fe : FE) (ρ : Registration) : Prop :=
  match ρ.source with
  | .timer | .backend => True
  | .event obj | .plugin obj =>
    ∃ e, fe.eventlist.lookup ρ.id = some e ∧ e.callback = obj ∧ e.status = .active

/-! ### The book -/

/-- A session, the registrations that were made and not cleared, and those of them that
    `event_clear` has refused to clear. -/
structure Books (G : Type) where
  session : Session G
  live : List Registration := []
  refused : List Registration := []

/-- What an `event_register` of these data registers. -/
def sourceOf (s : Session G) (d : EventData) : Source :=
  match d.eventType with
  | .timer => .timer
  | .be => .backend
  | _ => .event s.vmi.nextAlloc

/-- The book after a call: an identifier that is returned names a new registration, and
    `event_clear` strikes out what its identifier names. -/
def entered (s : Session G) (live : List Registration) :
    ApiCall → Except PyError Returned → List Registration
  | .eventRegister d, .ok (.identifier id) => live ++ [⟨id, sourceOf s d⟩]
  | .startSyscall _ _, .ok (.identifier id) => live ++ [⟨id, .plugin s.vmi.nextAlloc⟩]
  | .eventClear eid, .ok .done => live.filter (·.id ≠ eid)
  | _, _ => live

/-- The live registrations that a call refuses to clear; the backend callback, for which
    `event_clear` is documented to raise, is not one of them. -/
def turnedDown (live : List Registration) :
    ApiCall → Except PyError Returned → List Registration
  | .eventClear eid, .error _ => live.filter fun ρ => ρ.id = eid ∧ ρ.source ≠ .backend
  | _, _ => []

/-- One app, whose registrations are kept book of. -/
def ledgerSystem (env : Env G) : TransitionSystem (Books G) (Input G) where
  init b := ∃ g identR, b = { session := Session.initial g identR }
  step b i b' := b.session.next env i = some b'.session ∧ match i with
    | .call a => ∃ ans, a.run env b.session.fe b.session.vmi = .ok ans ∧
      b'.live = entered b.session b.live a ans.result ∧
      b'.refused = b.refused ++ turnedDown b.live a ans.result
    | _ => b'.live = b.live ∧ b'.refused = b.refused

/-- **One identifier, one registration.** The identifiers of the live registrations are
    distinct; the registrations that fire are the live ones, and they reach their callbacks;
    `event_clear` has refused none of them. -/
structure NamesOne (b : Books G) : Prop where
  distinct : (b.live.map (·.id)).Nodup
  live_iff : ∀ ρ, ρ ∈ b.live ↔ ρ.Active b.session
  listed : ∀ ρ ∈ b.live, ρ.Listed b.session.fe
  refused : b.refused = []

/-- The frontend has an active timer, or the backend callback, under the identifier. -/
def ActiveLocal (fe : FE) (id : ℕ) : Prop :=
  ∃ e, fe.timerlist.lookup id = some e ∧ e.status = .active

/-- The condition on a call: an identifier is not given out while the other side has it, the
    calls keep the two sides in agreement, the plugin is not stopped, and `event_clear` is
    not given the identifier of the running plugin, or of an active timer while a cleared
    event of the same identifier awaits its deletion. -/
def KeepsNames (env : Env G) (b : Books G) : Input G → Prop
  | .call a => KeepsAgreement env b.session (.call a) ∧
    (TakesSlot a → ¬ ActiveLocal b.session.fe (firstFree b.session.vmi.events)) ∧
    match a with
    | .eventRegister d => d.eventType = .timer ∨ d.eventType = .be →
      b.session.fe.nextTid ∉ b.session.vmi.events
    | .eventClear eid =>
      (b.session.vmi.syscallPluginOwner ≠ none → eid ≠ b.session.vmi.syscallPluginEventId) ∧
      (b.session.fe.timerlist.lookup eid = some ⟨.timer, .active⟩ → eid ∉ b.session.fe.eventlist)
    | .stopSyscall _ => False
    | _ => True
  | _ => True

/-! ### Steps that are not calls -/

/-- What a step that is not a call does to the registrations. -/
inductive QuietStep (s s' : Session G) : Prop
  /-- Nothing; an inactive timer may be put on the cleanup list. -/
  | kept (hplugin : SamePlugin s.vmi s'.vmi) (hfe : s'.fe = s.fe)
      (htids : ∀ tid ∈ s'.cleanupTids, tid ∈ s.cleanupTids ∨
        ∃ e, s.fe.timerlist.lookup tid = some e ∧ e.status = .inactive)
  /-- What is on the cleanup lists is deleted. -/
  | cleaned (hvmi : s'.vmi = s.vmi) (htid : s'.fe.nextTid = s.fe.nextTid)
      (hevents : ∀ k e, s'.fe.eventlist.lookup k = some e ↔
        k ∉ s.cleanupEids ∧ s.fe.eventlist.lookup k = some e)
      (htimers : ∀ tid e, s'.fe.timerlist.lookup tid = some e ↔
        tid ∉ s.cleanupTids ∧ s.fe.timerlist.lookup tid = some e)
      (htids : s'.cleanupTids = [])

section Quiet

variable {env : Env G} {s s' : Session G}

theorem QuietStep.same (hplugin : SamePlugin s.vmi s'.vmi) (hfe : s'.fe = s.fe)
    (htids : s'.cleanupTids = s.cleanupTids) : QuietStep s s' := by
  refine .kept hplugin hfe fun tid htid => .inl ?_
  rw [← htids]
  exact htid

theorem QuietStep.phase (phase : Phase) : QuietStep s { s with phase := phase } :=
  .same (.refl _) rfl rfl

theorem QuietStep.resumed {guestPaused : Bool} {phase : Phase}
    (h : s.resumed env guestPaused phase = some s') : QuietStep s s' := by
  obtain ⟨hsame, hs'⟩ := resumed_spec h
  rw [hs']
  exact .same hsame rfl rfl

theorem trapFires_quiet {k : ℕ} (h : s.trapFires env k = some s') : QuietStep s s' := by
  unfold Session.trapFires at h
  split at h
  · cases h
  · split at h
    · split at h <;> cases h
      · exact .same (send_spec _ _ _) rfl rfl
      · exact .same (.refl _) rfl rfl
    · cases h

theorem syscallTraced_quiet (h : s.syscallTraced env = some s') : QuietStep s s' := by
  unfold Session.syscallTraced at h
  split at h
  · cases h
    exact .same (send_spec _ _ _) rfl rfl
  · cases h

theorem afterCallback_quiet (h : s.afterCallback env = some s') : QuietStep s s' := by
  unfold Session.afterCallback at h
  split at h
  · exact .resumed h
  · cases h
    exact .phase _
  · cases h
    exact .phase _
  · cases h
    exact .phase _
  · cases h

theorem escaped_quiet (h : s.escaped env = some s') : QuietStep s s' := by
  unfold Session.escaped at h
  split at h
  · exact .resumed h
  · cases h
    exact .phase _
  · cases h
    exact .phase _
  · cases h
    exact .phase _
  · cases h
    exact .phase _
  · cases h

theorem dispatch_quiet {ready : Bool} (h : s.dispatch env ready = some s') : QuietStep s s' := by
  unfold Session.dispatch at h
  split at h
  · split at h
    · cases h
      exact .phase _
    · cases h
    · split at h
      · cases h
        exact .same (.refl _) rfl rfl
      · obtain ⟨hsame, hs'⟩ := resumed_spec h
        rw [hs']
        exact .same hsame rfl rfl
  · cases h

theorem nextTimer_quiet {due : Bool} (h : s.nextTimer due = some s') : QuietStep s s' := by
  unfold Session.nextTimer at h
  split at h
  · split at h
    · cases h
      exact .phase _
    split at h
    · cases h
      exact .phase _
    split at h
    · cases h
      exact .phase _
    · rename_i tk todo tv htv
      split at h
      · rename_i hinactive
        cases h
        refine .kept (.refl _) rfl fun tid htid => ?_
        -- the timer that is put on the list is not active
        rcases List.mem_append.mp htid with hold | hnew
        · exact .inl hold
        · rw [List.mem_singleton.mp hnew]
          refine .inr ⟨tv, htv, ?_⟩
          cases hstatus : tv.status with
          | active => exact absurd hstatus hinactive
          | inactive => rfl
      · split at h
        · cases h
          exact .phase _
        · cases h
          exact .phase _
  · cases h

theorem cleanUp_quiet (h : s.cleanUp = some s') : QuietStep s s' := by
  unfold Session.cleanUp at h
  split at h
  · split at h
    · rename_i eventlist timerlist hevents htimers
      cases h
      refine .cleaned rfl rfl ?_ ?_ rfl
      · intro k e
        show eventlist.lookup k = some e ↔ _
        rw [lookup_delAll hevents, List.mem_reverse]
      · intro tid e
        show timerlist.lookup tid = some e ↔ _
        rw [lookup_delAll htimers, List.mem_reverse]
    · cases h
      exact .phase _
  · cases h

/-- **Every step that is not a call is quiet.** -/
theorem quiet_step {i : Input G} (hi : ∀ a, i ≠ .call a) (h : s.next env i = some s') :
    QuietStep s s' := by
  cases i with
  | guestRuns g =>
    cases h
    exact .same ⟨⟨rfl, rfl, rfl, le_rfl⟩, rfl⟩ rfl rfl
  | trap k => exact trapFires_quiet h
  | syscall => exact syscallTraced_quiet h
  | call a => exact absurd rfl (hi a)
  | returned => exact afterCallback_quiet h
  | raised => exact escaped_quiet h
  | established =>
    change s.postAppInit = some s' at h
    unfold Session.postAppInit at h
    dsimp only at h
    split at h
    · cases h
      exact .phase _
    · cases h
  | polled ready => exact dispatch_quiet h
  | broadcast ready | notify ready =>
    change Session.facilities _ _ _ _ _ = _ at h
    unfold Session.facilities at h
    split at h
    · cases h
      exact .phase _
    · cases h
  | scanned =>
    change s.scanEvents = some s' at h
    unfold Session.scanEvents at h
    split at h
    · cases h
      exact .same (.refl _) rfl rfl
    · cases h
  | timer due => exact nextTimer_quiet h
  | cleaned => exact cleanUp_quiet h

end Quiet

/-! ### The invariant -/

/-- The invariant: besides what is wanted, the sides agree, the plugin's entry is the one with
    a NULL trap, timers have identifiers below the next one, and what is on their cleanup list
    is inactive. -/
structure LedgerInv (b : Books G) : Prop extends NamesOne b where
  agreement : AgreementInv b.session
  plugin : b.session.vmi.syscallPluginOwner ≠ none → ∃ ei,
    b.session.vmi.events.lookup b.session.vmi.syscallPluginEventId = some ei ∧ ei.event = none
  pseudo : ∀ k ei, b.session.vmi.events.lookup k = some ei → ei.event = none →
    b.session.vmi.syscallPluginOwner ≠ none ∧ b.session.vmi.syscallPluginEventId = k
  below : ∀ tid e, b.session.fe.timerlist.lookup tid = some e → tid < b.session.fe.nextTid
  awaiting : ∀ tid ∈ b.session.cleanupTids, tid < b.session.fe.nextTid ∧
    ∀ e, b.session.fe.timerlist.lookup tid = some e → e.status = .inactive
  small : ∀ k ∈ b.session.vmi.events, k < 2 ^ 64

theorem ledgerInv_initial (g : G) (identR : Bytes) :
    LedgerInv { session := Session.initial g identR } where
  distinct := List.nodup_nil
  live_iff ρ := by
    obtain ⟨id, source⟩ := ρ
    cases source <;> simp [Registration.Active, Session.initial, World.initial]
  listed := by simp
  refused := rfl
  agreement := agreementInv_initial g identR
  plugin := by simp [Session.initial, World.initial]
  pseudo := by simp [Session.initial, World.initial]
  below := by simp [Session.initial]
  awaiting := by simp [Session.initial]
  small := by simp [Session.initial, World.initial, AList.notMem_empty]

section Steps

variable {env : Env G} {b b' : Books G}

/-- A live registration has its identifier on one of the two sides. -/
theorem LedgerInv.taken (h : LedgerInv b) {ρ : Registration} (hρ : ρ ∈ b.live) :
    ρ.id ∈ b.session.vmi.events ∨ ActiveLocal b.session.fe ρ.id := by
  have hactive := (h.live_iff ρ).mp hρ
  obtain ⟨id, source⟩ := ρ
  cases source with
  | timer => exact .inr ⟨_, hactive, rfl⟩
  | backend => exact .inr ⟨_, hactive, rfl⟩
  | event obj =>
    obtain ⟨ei, hei, -, -⟩ := hactive
    exact .inl (mem_of_lookup hei)
  | plugin obj =>
    obtain ⟨howner, rfl, -⟩ := hactive
    obtain ⟨ei, hei, -⟩ := h.plugin howner
    exact .inl (mem_of_lookup hei)

/-- The identifier that the VMI partition gives out next names nothing. -/
theorem LedgerInv.firstFree_new (h : LedgerInv b)
    (hlocal : ¬ ActiveLocal b.session.fe (firstFree b.session.vmi.events)) {ρ : Registration}
    (hρ : ρ ∈ b.live) : ρ.id ≠ firstFree b.session.vmi.events := by
  intro hid
  rcases h.taken hρ with hmem | hactive
  · rw [hid] at hmem
    exact firstFree_not_mem _ hmem
  · rw [hid] at hactive
    exact hlocal hactive

/-- The identifier that the frontend gives out next names nothing. -/
theorem LedgerInv.nextTid_new (h : LedgerInv b)
    (hevents : b.session.fe.nextTid ∉ b.session.vmi.events) {ρ : Registration}
    (hρ : ρ ∈ b.live) : ρ.id ≠ b.session.fe.nextTid := by
  intro hid
  rcases h.taken hρ with hmem | ⟨e, he, -⟩
  · rw [hid] at hmem
    exact hevents hmem
  · have hlt : ρ.id < b.session.fe.nextTid := h.below ρ.id e he
    omega

/-- A new identifier keeps the identifiers distinct. -/
theorem nodup_ids_append {live : List Registration} (h : (live.map (·.id)).Nodup)
    {ρ : Registration} (hnew : ∀ ρ' ∈ live, ρ'.id ≠ ρ.id) :
    ((live ++ [ρ]).map (·.id)).Nodup := by
  rw [List.map_append, List.nodup_append]
  refine ⟨h, List.nodup_singleton _, ?_⟩
  intro a ha c hc hac
  obtain ⟨ρ', hρ', rfl⟩ := List.mem_map.mp ha
  have hid : ρ'.id = ρ.id := hac.trans (List.mem_singleton.mp hc)
  exact hnew ρ' hρ' hid

theorem nodup_ids_filter {live : List Registration} (h : (live.map (·.id)).Nodup)
    (p : Registration → Bool) : ((live.filter p).map (·.id)).Nodup :=
  h.sublist (List.filter_sublist.map _)

/-- The two sides stay in agreement. -/
theorem LedgerInv.agreement_step (h : LedgerInv b) {i : Input G} (hg : KeepsNames env b i)
    (hs : b.session.next env i = some b'.session) : AgreementInv b'.session := by
  refine h.agreement.step ?_ (session_step hs)
  cases i with
  | call a => exact hg.1
  | _ => trivial

/-- Nothing is registered or cleared; an inactive timer may be put on the cleanup list. -/
theorem LedgerInv.unchanged (h : LedgerInv b) (hagree : AgreementInv b'.session) {n : ℕ}
    (hn : b.session.fe.nextTid ≤ n) (hfe : b'.session.fe = { b.session.fe with nextTid := n })
    (hplugin : SamePlugin b.session.vmi b'.session.vmi)
    (htids : ∀ tid ∈ b'.session.cleanupTids, tid ∈ b.session.cleanupTids ∨
      ∃ e, b.session.fe.timerlist.lookup tid = some e ∧ e.status = .inactive)
    (hlive : b'.live = b.live) (hrefused : b'.refused = b.refused) : LedgerInv b' := by
  refine ⟨⟨?_, fun ρ => ?_, ?_, ?_⟩, hagree, ?_, ?_, ?_, ?_, ?_⟩
  · rw [hlive]
    exact h.distinct
  · rw [hlive, h.live_iff ρ]
    unfold Registration.Active
    rw [hfe, hplugin.events, hplugin.owner, hplugin.eventId, hplugin.pluginEi]
  · rw [hlive, hfe]
    exact h.listed
  · rw [hrefused]
    exact h.refused
  · rw [hplugin.events, hplugin.owner, hplugin.eventId]
    exact h.plugin
  · rw [hplugin.events, hplugin.owner, hplugin.eventId]
    exact h.pseudo
  · rw [hfe]
    exact fun tid e he => (h.below tid e he).trans_le hn
  · rw [hfe]
    intro tid htid
    rcases htids tid htid with hold | ⟨e', he', hinactive⟩
    · exact ⟨(h.awaiting tid hold).1.trans_le hn, (h.awaiting tid hold).2⟩
    · refine ⟨(h.below tid e' he').trans_le hn, fun e he => ?_⟩
      rw [he] at he'
      cases he'
      exact hinactive
  · rw [hplugin.events]
    exact h.small

/-- The loop deletes what is on its cleanup lists. -/
theorem LedgerInv.cleaned (h : LedgerInv b) (hagree : AgreementInv b'.session)
    (hvmi : b'.session.vmi = b.session.vmi)
    (htid : b'.session.fe.nextTid = b.session.fe.nextTid)
    (hevents : ∀ k e, b'.session.fe.eventlist.lookup k = some e ↔
      k ∉ b.session.cleanupEids ∧ b.session.fe.eventlist.lookup k = some e)
    (htimers : ∀ tid e, b'.session.fe.timerlist.lookup tid = some e ↔
      tid ∉ b.session.cleanupTids ∧ b.session.fe.timerlist.lookup tid = some e)
    (htids : b'.session.cleanupTids = []) (hlive : b'.live = b.live)
    (hrefused : b'.refused = b.refused) : LedgerInv b' := by
  -- what is active awaits no deletion
  have htimer : ∀ tid kind, b'.session.fe.timerlist.lookup tid = some ⟨kind, .active⟩ ↔
      b.session.fe.timerlist.lookup tid = some ⟨kind, .active⟩ := by
    intro tid kind
    rw [htimers]
    refine ⟨fun hboth => hboth.2, fun he => ⟨fun hmem => ?_, he⟩⟩
    have hinactive := (h.awaiting tid hmem).2 _ he
    cases hinactive
  have hentry : ∀ k e, e.status = .active → b.session.fe.eventlist.lookup k = some e →
      b'.session.fe.eventlist.lookup k = some e := by
    intro k e hactive he
    refine (hevents k e).mpr ⟨fun hmem => ?_, he⟩
    obtain ⟨e', he', hinactive⟩ := h.agreement.awaiting k hmem
    rw [he] at he'
    cases he'
    rw [hactive] at hinactive
    cases hinactive
  refine ⟨⟨?_, fun ρ => ?_, ?_, ?_⟩, hagree, ?_, ?_, ?_, ?_, ?_⟩
  · rw [hlive]
    exact h.distinct
  · rw [hlive, h.live_iff ρ]
    obtain ⟨id, source⟩ := ρ
    unfold Registration.Active
    rw [hvmi]
    cases source with
    | timer => exact (htimer id .timer).symm
    | backend => exact (htimer id .be).symm
    | event obj => rfl
    | plugin obj => rfl
  · rw [hlive]
    intro ρ hρ
    have hlisted := h.listed ρ hρ
    obtain ⟨id, source⟩ := ρ
    cases source with
    | timer => trivial
    | backend => trivial
    | event obj | plugin obj =>
      obtain ⟨e, he, hcallback, hactive⟩ := hlisted
      exact ⟨e, hentry id e hactive he, hcallback, hactive⟩
  · rw [hrefused]
    exact h.refused
  · rw [hvmi]
    exact h.plugin
  · rw [hvmi]
    exact h.pseudo
  · intro tid e he
    rw [htid]
    exact h.below tid e ((htimers tid e).mp he).2
  · rw [htids]
    intro tid hmem
    cases hmem
  · rw [hvmi]
    exact h.small

/-- A step that is not a call. -/
theorem LedgerInv.quiet (h : LedgerInv b) (hagree : AgreementInv b'.session)
    (hs : QuietStep b.session b'.session) (hlive : b'.live = b.live)
    (hrefused : b'.refused = b.refused) : LedgerInv b' := by
  cases hs with
  | kept hplugin hfe htids => exact h.unchanged hagree le_rfl hfe hplugin htids hlive hrefused
  | cleaned hvmi htid hevents htimers htids =>
    exact h.cleaned hagree hvmi htid hevents htimers htids hlive hrefused

/-! ### Calls -/

/-- What an entry of `timerlist` is a registration of. -/
def localSource : LocalType → Source
  | .timer => .timer
  | .be => .backend

theorem sourceOf_local {s : Session G} {d : EventData} {kind : LocalType}
    (h : d.eventType = .timer ∧ kind = .timer ∨ d.eventType = .be ∧ kind = .be) :
    sourceOf s d = localSource kind := by
  unfold sourceOf
  rcases h with ⟨htype, rfl⟩ | ⟨htype, rfl⟩
  · rw [htype]
    rfl
  · rw [htype]
    rfl

/-- A timer or the backend callback is registered. -/
theorem LedgerInv.timer (h : LedgerInv b) (hagree : AgreementInv b'.session) {kind : LocalType}
    {be : Bool}
    (hfe : b'.session.fe =
      { b.session.fe with
        nextTid := b.session.fe.nextTid + 1, beInfo := be
        timerlist := b.session.fe.timerlist.insert b.session.fe.nextTid ⟨kind, .active⟩ })
    (hfree : b.session.fe.nextTid ∉ b.session.vmi.events)
    (hvmi : b'.session.vmi = b.session.vmi)
    (htids : b'.session.cleanupTids = b.session.cleanupTids)
    (hlive : b'.live = b.live ++ [⟨b.session.fe.nextTid, localSource kind⟩])
    (hrefused : b'.refused = b.refused) : LedgerInv b' := by
  have hnew : ∀ ρ ∈ b.live, ρ.id ≠ b.session.fe.nextTid := fun ρ hρ => h.nextTid_new hfree hρ
  -- the identifier has never been given out to a timer
  have hold : ∀ tid e, b.session.fe.timerlist.lookup tid = some e → tid ≠ b.session.fe.nextTid := by
    intro tid e he
    exact (h.below tid e he).ne
  have htimer : ∀ tid kind', b'.session.fe.timerlist.lookup tid = some ⟨kind', .active⟩ ↔
      b.session.fe.timerlist.lookup tid = some ⟨kind', .active⟩ ∨
        tid = b.session.fe.nextTid ∧ kind' = kind := by
    intro tid kind'
    rw [hfe]
    show (b.session.fe.timerlist.insert b.session.fe.nextTid _).lookup tid = _ ↔ _
    rw [lookup_insert_eq_some]
    constructor
    · rintro (⟨rfl, heq⟩ | ⟨-, he⟩)
      · cases heq
        exact .inr ⟨rfl, rfl⟩
      · exact .inl he
    · rintro (he | ⟨rfl, rfl⟩)
      · exact .inr ⟨hold tid _ he, he⟩
      · exact .inl ⟨rfl, rfl⟩
  refine ⟨⟨?_, fun ρ => ?_, ?_, ?_⟩, hagree, ?_, ?_, ?_, ?_, ?_⟩
  · rw [hlive]
    exact nodup_ids_append h.distinct hnew
  · rw [hlive, List.mem_append, List.mem_singleton, h.live_iff ρ]
    obtain ⟨id, src⟩ := ρ
    unfold Registration.Active
    rw [hvmi]
    cases src with
    | timer => cases kind <;> simp [htimer, localSource]
    | backend => cases kind <;> simp [htimer, localSource]
    | event obj => cases kind <;> simp [localSource]
    | plugin obj => cases kind <;> simp [localSource]
  · rw [hlive]
    intro ρ hρ
    rcases List.mem_append.mp hρ with hρ | hρ
    · have hlisted := h.listed ρ hρ
      rw [hfe]
      exact hlisted
    · rw [List.mem_singleton.mp hρ]
      cases kind <;> trivial
  · rw [hrefused]
    exact h.refused
  · rw [hvmi]
    exact h.plugin
  · rw [hvmi]
    exact h.pseudo
  · intro tid e he
    rw [hfe] at he ⊢
    show tid < b.session.fe.nextTid + 1
    rcases lookup_insert_eq_some.mp he with ⟨rfl, -⟩ | ⟨-, he⟩
    · omega
    · have hlt : tid < b.session.fe.nextTid := h.below tid e he
      omega
  · rw [htids, hfe]
    intro tid hmem
    obtain ⟨hlt, hinactive⟩ := h.awaiting tid hmem
    refine ⟨hlt.trans (Nat.lt_succ_self _), fun e he => ?_⟩
    rcases lookup_insert_eq_some.mp he with ⟨rfl, -⟩ | ⟨-, he⟩
    · omega
    · exact hinactive e he
  · rw [hvmi]
    exact h.small

/-- A registration takes the lowest free identifier of the VMI partition, where no other live
    registration is. -/
theorem LedgerInv.inserted (h : LedgerInv b) (hagree : AgreementInv b'.session) {ei : EventItem}
    {c : Entry} {source : Source} (hid : ei.id = firstFree b.session.vmi.events)
    (hlocal : ¬ ActiveLocal b.session.fe (firstFree b.session.vmi.events))
    (hsource : source = .event ei.obj ∨ source = .plugin ei.obj)
    (hc : c.callback = ei.obj ∧ c.status = .active)
    (hfe : b'.session.fe =
      { b.session.fe with eventlist := b.session.fe.eventlist.insert ei.id c })
    (hevents : b'.session.vmi.events = b.session.vmi.events.insert ei.id ei)
    (hactive : ∀ ρ : Registration,
      ρ.Active b'.session ↔ ρ.Active b.session ∨ ρ = ⟨ei.id, source⟩)
    (hplugin : b'.session.vmi.syscallPluginOwner ≠ none → ∃ ei,
      b'.session.vmi.events.lookup b'.session.vmi.syscallPluginEventId = some ei ∧ ei.event = none)
    (hpseudo : ∀ k ei, b'.session.vmi.events.lookup k = some ei → ei.event = none →
      b'.session.vmi.syscallPluginOwner ≠ none ∧ b'.session.vmi.syscallPluginEventId = k)
    (htids : b'.session.cleanupTids = b.session.cleanupTids)
    (hlive : b'.live = b.live ++ [⟨ei.id, source⟩]) (hrefused : b'.refused = b.refused) :
    LedgerInv b' := by
  have hnew : ∀ ρ ∈ b.live, ρ.id ≠ ei.id := by
    intro ρ hρ
    rw [hid]
    exact h.firstFree_new hlocal hρ
  refine ⟨⟨?_, fun ρ => ?_, ?_, ?_⟩, hagree, hplugin, hpseudo, ?_, ?_, ?_⟩
  · rw [hlive]
    exact nodup_ids_append h.distinct hnew
  · rw [hlive, List.mem_append, List.mem_singleton, h.live_iff ρ]
    exact (hactive ρ).symm
  · rw [hlive]
    intro ρ hρ
    rcases List.mem_append.mp hρ with hρ | hρ
    · -- the entries of the others are where they were
      have hlisted := h.listed ρ hρ
      have hne : ρ.id ≠ ei.id := hnew ρ hρ
      obtain ⟨id, src⟩ := ρ
      rw [hfe]
      cases src with
      | timer => trivial
      | backend => trivial
      | event obj | plugin obj =>
        obtain ⟨e, he, hcallback, hstatus⟩ := hlisted
        exact ⟨e, lookup_insert_eq_some.mpr (.inr ⟨hne, he⟩), hcallback, hstatus⟩
    · rw [List.mem_singleton.mp hρ, hfe]
      have hentry : (b.session.fe.eventlist.insert ei.id c).lookup ei.id = some c :=
        lookup_insert_eq_some.mpr (.inl ⟨rfl, rfl⟩)
      rcases hsource with rfl | rfl <;> exact ⟨c, hentry, hc.1, hc.2⟩
  · rw [hrefused]
    exact h.refused
  · rw [hfe]
    exact h.below
  · rw [htids, hfe]
    exact h.awaiting
  · rw [hevents]
    intro k hk
    rcases AList.mem_insert _ |>.mp hk with rfl | hk
    · -- there are few events, so the lowest free slot is low
      have hle := firstFree_le_length b.session.vmi.events
      have hfew : b.session.vmi.events.entries.length ≤ 200 + 1 := h.agreement.few
      omega
    · exact h.small k hk

/-- An event is registered. -/
theorem LedgerInv.registered (h : LedgerInv b) (hagree : AgreementInv b'.session)
    {ei : EventItem} {c : Entry} (hid : ei.id = firstFree b.session.vmi.events)
    (hlocal : ¬ ActiveLocal b.session.fe (firstFree b.session.vmi.events))
    (hevent : ei.event.isSome) (hc : c.callback = ei.obj ∧ c.status = .active)
    (hfe : b'.session.fe =
      { b.session.fe with eventlist := b.session.fe.eventlist.insert ei.id c })
    (hevents : b'.session.vmi.events = b.session.vmi.events.insert ei.id ei)
    (howner : b'.session.vmi.syscallPluginOwner = b.session.vmi.syscallPluginOwner)
    (heventId : b'.session.vmi.syscallPluginEventId = b.session.vmi.syscallPluginEventId)
    (hpluginEi : b'.session.vmi.syscallPluginEi = b.session.vmi.syscallPluginEi)
    (htids : b'.session.cleanupTids = b.session.cleanupTids)
    (hlive : b'.live = b.live ++ [⟨ei.id, .event ei.obj⟩]) (hrefused : b'.refused = b.refused) :
    LedgerInv b' := by
  have hfree : ∀ k e, b.session.vmi.events.lookup k = some e → k ≠ ei.id := by
    intro k e he
    rw [hid]
    exact ne_firstFree_of_lookup he
  refine h.inserted hagree hid hlocal (.inl rfl) hc hfe hevents (fun ρ => ?_) ?_ ?_ htids
    hlive hrefused
  · obtain ⟨id, src⟩ := ρ
    unfold Registration.Active
    rw [hfe, hevents, howner, heventId, hpluginEi]
    cases src with
    | timer => simp
    | backend => simp
    | plugin obj => simp
    | event obj =>
      constructor
      · rintro ⟨e, he, hsome, rfl⟩
        rcases lookup_insert_eq_some.mp he with ⟨rfl, rfl⟩ | ⟨-, hold⟩
        · exact .inr rfl
        · exact .inl ⟨e, hold, hsome, rfl⟩
      · rintro (⟨e, he, hsome, rfl⟩ | heq)
        · exact ⟨e, lookup_insert_eq_some.mpr (.inr ⟨hfree id e he, he⟩), hsome, rfl⟩
        · cases heq
          exact ⟨ei, lookup_insert_eq_some.mpr (.inl ⟨rfl, rfl⟩), hevent, rfl⟩
  · rw [howner, heventId, hevents]
    intro hne
    obtain ⟨e, he, hnull⟩ := h.plugin hne
    exact ⟨e, lookup_insert_eq_some.mpr (.inr ⟨hfree _ e he, he⟩), hnull⟩
  · rw [howner, heventId, hevents]
    intro k e he hnull
    rcases lookup_insert_eq_some.mp he with ⟨-, rfl⟩ | ⟨-, hold⟩
    · rw [hnull] at hevent
      cases hevent
    · exact h.pseudo k e hold hnull

/-- The plugin is started. -/
theorem LedgerInv.started (h : LedgerInv b) (hagree : AgreementInv b'.session)
    {ei : EventItem} {c : Entry} (hid : ei.id = firstFree b.session.vmi.events)
    (hlocal : ¬ ActiveLocal b.session.fe (firstFree b.session.vmi.events))
    (hevent : ei.event = none) (hc : c.callback = ei.obj ∧ c.status = .active)
    (hfe : b'.session.fe =
      { b.session.fe with eventlist := b.session.fe.eventlist.insert ei.id c })
    (hevents : b'.session.vmi.events = b.session.vmi.events.insert ei.id ei)
    (howner : b.session.vmi.syscallPluginOwner = none)
    (howner' : b'.session.vmi.syscallPluginOwner ≠ none)
    (heventId : b'.session.vmi.syscallPluginEventId = ei.id)
    (hpluginEi : b'.session.vmi.syscallPluginEi = some ei.obj)
    (htids : b'.session.cleanupTids = b.session.cleanupTids)
    (hlive : b'.live = b.live ++ [⟨ei.id, .plugin ei.obj⟩]) (hrefused : b'.refused = b.refused) :
    LedgerInv b' := by
  have hfree : ∀ k e, b.session.vmi.events.lookup k = some e → k ≠ ei.id := by
    intro k e he
    rw [hid]
    exact ne_firstFree_of_lookup he
  have hbound : (b.session.vmi.events.insert ei.id ei).lookup ei.id = some ei :=
    lookup_insert_eq_some.mpr (.inl ⟨rfl, rfl⟩)
  refine h.inserted hagree hid hlocal (.inr rfl) hc hfe hevents (fun ρ => ?_) ?_ ?_ htids
    hlive hrefused
  · obtain ⟨id, src⟩ := ρ
    unfold Registration.Active
    rw [hfe, hevents, heventId, hpluginEi]
    cases src with
    | timer => simp
    | backend => simp
    | event obj =>
      constructor
      · rintro ⟨e, he, hsome, rfl⟩
        rcases lookup_insert_eq_some.mp he with ⟨-, rfl⟩ | ⟨-, hold⟩
        · -- the pseudo-event has no trap
          rw [hevent] at hsome
          cases hsome
        · exact .inl ⟨e, hold, hsome, rfl⟩
      · rintro (⟨e, he, hsome, rfl⟩ | heq)
        · exact ⟨e, lookup_insert_eq_some.mpr (.inr ⟨hfree id e he, he⟩), hsome, rfl⟩
        · cases heq
    | plugin obj =>
      constructor
      · rintro ⟨-, rfl, hobj⟩
        cases hobj
        exact .inr rfl
      · rintro (⟨hne, -, -⟩ | heq)
        · exact absurd howner hne
        · cases heq
          exact ⟨howner', rfl, rfl⟩
  · rw [heventId, hevents]
    exact fun _ => ⟨ei, hbound, hevent⟩
  · rw [heventId, hevents]
    intro k e he hnull
    rcases lookup_insert_eq_some.mp he with ⟨rfl, -⟩ | ⟨-, hold⟩
    · exact ⟨howner', rfl⟩
    · -- there was no plugin before
      exact absurd howner (h.pseudo k e hold hnull).1

/-- Live registrations under one identifier are one. -/
theorem NamesOne.unique (h : NamesOne b) {ρ ρ' : Registration} (hρ : ρ ∈ b.live)
    (hρ' : ρ' ∈ b.live) (hid : ρ.id = ρ'.id) : ρ = ρ' :=
  List.inj_on_of_nodup_map h.distinct hρ hρ' hid

/-- The registrations under one identifier are struck out. -/
theorem NamesOne.struck (h : NamesOne b) {eid : ℕ}
    (hactive : ∀ ρ : Registration, ρ.Active b'.session ↔ ρ.Active b.session ∧ ρ.id ≠ eid)
    (hlisted : ∀ ρ : Registration, ρ.Listed b.session.fe → ρ.id ≠ eid → ρ.Listed b'.session.fe)
    (hlive : b'.live = b.live.filter (·.id ≠ eid)) (hrefused : b'.refused = b.refused) :
    NamesOne b' where
  distinct := by
    rw [hlive]
    exact nodup_ids_filter h.distinct _
  live_iff ρ := by
    rw [hlive, List.mem_filter, hactive ρ, h.live_iff ρ, decide_eq_true_eq]
  listed := by
    rw [hlive]
    intro ρ hρ
    obtain ⟨hmem, hne⟩ := List.mem_filter.mp hρ
    exact hlisted ρ (h.listed ρ hmem) (of_decide_eq_true hne)
  refused := by
    rw [hrefused]
    exact h.refused

/-- What is in the VMI partition under the identifier is in `eventlist`. -/
theorem LedgerInv.mem_eventlist (h : LedgerInv b) {k : ℕ} (hk : k ∈ b.session.vmi.events) :
    k ∈ b.session.fe.eventlist := by
  obtain ⟨e, he, -⟩ := (h.agreement.agree k).mpr hk
  exact mem_of_lookup he

/-- A timer is cleared. -/
theorem LedgerInv.timerCleared (h : LedgerInv b) (hagree : AgreementInv b'.session) {eid : ℕ}
    (hnone : eid ∉ b.session.fe.eventlist) (hlt : eid < b.session.fe.nextTid)
    (hfe : b'.session.fe =
      { b.session.fe with timerlist := b.session.fe.timerlist.insert eid ⟨.timer, .inactive⟩ })
    (hvmi : b'.session.vmi = b.session.vmi)
    (htids : b'.session.cleanupTids = b.session.cleanupTids)
    (hlive : b'.live = b.live.filter (·.id ≠ eid)) (hrefused : b'.refused = b.refused) :
    LedgerInv b' := by
  have hfree : eid ∉ b.session.vmi.events := fun hmem => hnone (h.mem_eventlist hmem)
  have htimer : ∀ tid kind, b'.session.fe.timerlist.lookup tid = some ⟨kind, .active⟩ ↔
      b.session.fe.timerlist.lookup tid = some ⟨kind, .active⟩ ∧ tid ≠ eid := by
    intro tid kind
    rw [hfe]
    show (b.session.fe.timerlist.insert eid _).lookup tid = _ ↔ _
    rw [lookup_insert_eq_some]
    constructor
    · rintro (⟨-, heq⟩ | ⟨hne, he⟩)
      · cases heq
      · exact ⟨he, hne⟩
    · rintro ⟨he, hne⟩
      exact .inr ⟨hne, he⟩
  refine ⟨h.toNamesOne.struck (fun ρ => ?_) (fun ρ hlisted _ => ?_) hlive hrefused, hagree, ?_,
    ?_, ?_, ?_, ?_⟩
  · obtain ⟨id, source⟩ := ρ
    unfold Registration.Active
    rw [hvmi]
    cases source with
    | timer => exact htimer id .timer
    | backend => exact htimer id .be
    | event obj =>
      refine ⟨fun hactive => ⟨hactive, ?_⟩, fun hboth => hboth.1⟩
      obtain ⟨ei, hei, -⟩ := hactive
      rintro rfl
      exact hfree (mem_of_lookup hei)
    | plugin obj =>
      refine ⟨fun hactive => ⟨hactive, ?_⟩, fun hboth => hboth.1⟩
      obtain ⟨howner, hid, -⟩ := hactive
      obtain ⟨ei, hei, -⟩ := h.plugin howner
      rw [hid] at hei
      rintro rfl
      exact hfree (mem_of_lookup hei)
  · rw [hfe]
    exact hlisted
  · rw [hvmi]
    exact h.plugin
  · rw [hvmi]
    exact h.pseudo
  · rw [hfe]
    intro tid e he
    rcases lookup_insert_eq_some.mp he with ⟨rfl, -⟩ | ⟨-, hold⟩
    · exact hlt
    · exact h.below tid e hold
  · rw [htids, hfe]
    intro tid hmem
    obtain ⟨hbelow, hinactive⟩ := h.awaiting tid hmem
    refine ⟨hbelow, fun e he => ?_⟩
    rcases lookup_insert_eq_some.mp he with ⟨-, rfl⟩ | ⟨-, hold⟩
    · rfl
    · exact hinactive e hold
  · rw [hvmi]
    exact h.small

/-- The live registration of an event. -/
theorem LedgerInv.event_live (h : LedgerInv b) {k : ℕ} {ei : EventItem}
    (hei : b.session.vmi.events.lookup k = some ei)
    (hplugin : b.session.vmi.syscallPluginOwner ≠ none →
      k ≠ b.session.vmi.syscallPluginEventId) : ⟨k, .event ei.obj⟩ ∈ b.live := by
  refine (h.live_iff _).mpr ⟨ei, hei, ?_, rfl⟩
  cases hevent : ei.event with
  | some trap => rfl
  | none =>
    -- only the plugin's entry has no trap
    obtain ⟨howner, hid⟩ := h.pseudo k ei hei hevent
    exact absurd hid.symm (hplugin howner)

/-- An event is cleared. -/
theorem LedgerInv.eventCleared (h : LedgerInv b) (hagree : AgreementInv b'.session) {eid : ℕ}
    {e : Entry} {ei : EventItem} (hei : b.session.vmi.events.lookup eid = some ei)
    (hplugin : b.session.vmi.syscallPluginOwner ≠ none →
      eid ≠ b.session.vmi.syscallPluginEventId)
    (hfe : b'.session.fe = b.session.fe.deactivate eid e)
    (hevents : b'.session.vmi.events = b.session.vmi.events.erase ei.id)
    (howner : b'.session.vmi.syscallPluginOwner = b.session.vmi.syscallPluginOwner)
    (heventId : b'.session.vmi.syscallPluginEventId = b.session.vmi.syscallPluginEventId)
    (hpluginEi : b'.session.vmi.syscallPluginEi = b.session.vmi.syscallPluginEi)
    (htids : b'.session.cleanupTids = b.session.cleanupTids)
    (hlive : b'.live = b.live.filter (·.id ≠ eid)) (hrefused : b'.refused = b.refused) :
    LedgerInv b' := by
  have hkey : ei.id = eid := h.agreement.key eid ei hei
  rw [hkey] at hevents
  have hone : (⟨eid, .event ei.obj⟩ : Registration) ∈ b.live := h.event_live hei hplugin
  -- nothing else is live under the identifier
  have hlocal : ∀ ρ : Registration, ρ.Active b.session → ρ.source = .timer ∨ ρ.source = .backend →
      ρ.id ≠ eid := by
    intro ρ hactive hsource hid
    have heq : ρ = ⟨eid, .event ei.obj⟩ := h.unique ((h.live_iff ρ).mpr hactive) hone hid
    rw [heq] at hsource
    rcases hsource with hsource | hsource <;> cases hsource
  refine ⟨h.toNamesOne.struck (fun ρ => ?_) (fun ρ hlisted hne => ?_) hlive hrefused, hagree, ?_,
    ?_, ?_, ?_, ?_⟩
  · have hthis : ρ.Active b.session → ρ.source = .timer ∨ ρ.source = .backend → ρ.id ≠ eid :=
      hlocal ρ
    obtain ⟨id, source⟩ := ρ
    unfold Registration.Active at hthis ⊢
    rw [hfe, hevents, howner, heventId, hpluginEi]
    cases source with
    | timer => exact ⟨fun hactive => ⟨hactive, hthis hactive (.inl rfl)⟩, fun hboth => hboth.1⟩
    | backend => exact ⟨fun hactive => ⟨hactive, hthis hactive (.inr rfl)⟩, fun hboth => hboth.1⟩
    | event obj =>
      constructor
      · rintro ⟨ei', hei', hsome, rfl⟩
        obtain ⟨hne, hold⟩ := lookup_erase_eq_some.mp hei'
        exact ⟨⟨ei', hold, hsome, rfl⟩, hne⟩
      · rintro ⟨⟨ei', hei', hsome, rfl⟩, hne⟩
        exact ⟨ei', lookup_erase_eq_some.mpr ⟨hne, hei'⟩, hsome, rfl⟩
    | plugin obj =>
      refine ⟨fun hactive => ⟨hactive, ?_⟩, fun hboth => hboth.1⟩
      obtain ⟨hruns, hid, -⟩ := hactive
      rintro rfl
      exact hplugin hruns hid.symm
  · obtain ⟨id, source⟩ := ρ
    rw [hfe]
    cases source with
    | timer => trivial
    | backend => trivial
    | event obj | plugin obj =>
      obtain ⟨e', he', hcallback, hstatus⟩ := hlisted
      exact ⟨e', lookup_insert_eq_some.mpr (.inr ⟨hne, he'⟩), hcallback, hstatus⟩
  · rw [hevents, howner, heventId]
    intro hruns
    obtain ⟨ei', hei', hnull⟩ := h.plugin hruns
    exact ⟨ei', lookup_erase_eq_some.mpr ⟨(hplugin hruns).symm, hei'⟩, hnull⟩
  · rw [hevents, howner, heventId]
    exact fun k ei' hei' => h.pseudo k ei' (lookup_erase_eq_some.mp hei').2
  · rw [hfe]
    exact h.below
  · rw [htids, hfe]
    exact h.awaiting
  · rw [hevents]
    exact fun k hk => h.small k (AList.mem_erase.mp hk).2

/-- `event_clear` refuses none of the live registrations: it finds an identifier on neither
    side only if it names nothing, or the backend callback. -/
theorem LedgerInv.turnedDown_eq (h : LedgerInv b) {eid : ℕ}
    (hevent : eid ∈ b.session.fe.eventlist → 2 ^ 64 ≤ eid ∨ eid ∉ b.session.vmi.events)
    (htimer : eid ∉ b.session.fe.eventlist →
      ∀ status, b.session.fe.timerlist.lookup eid ≠ some ⟨.timer, status⟩)
    (hawaits : b.session.fe.timerlist.lookup eid = some ⟨.timer, .active⟩ →
      eid ∉ b.session.fe.eventlist) (e : PyError) :
    turnedDown b.live (.eventClear eid) (.error e) = [] := by
  have hfree : eid ∉ b.session.vmi.events := by
    intro hmem
    rcases hevent (h.mem_eventlist hmem) with hbig | hnot
    · have hsmall := h.small eid hmem
      omega
    · exact hnot hmem
  refine List.filter_eq_nil_iff.mpr fun ρ hρ hboth => ?_
  obtain ⟨hid, hsource⟩ := of_decide_eq_true hboth
  have hactive := (h.live_iff ρ).mp hρ
  obtain ⟨id, source⟩ := ρ
  cases hid
  cases source with
  | timer => exact htimer (hawaits hactive) .active hactive
  | backend => exact hsource rfl
  | event obj =>
    obtain ⟨ei, hei, -⟩ := hactive
    exact hfree (mem_of_lookup hei)
  | plugin obj =>
    obtain ⟨howner, hpid, -⟩ := hactive
    obtain ⟨ei, hei, -⟩ := h.plugin howner
    rw [hpid] at hei
    exact hfree (mem_of_lookup hei)

/-- What a call leaves to the session. -/
theorem called_answer {s s' : Session G} {a : ApiCall} {ans : Answer G}
    (h : s.called env a = some s') (hans : a.run env s.fe s.vmi = .ok ans) :
    s'.fe = ans.fe ∧ s'.vmi = ans.vmi ∧ s'.cleanupTids = s.cleanupTids := by
  unfold Session.called at h
  rw [hans] at h
  split at h
  · cases h
    exact ⟨rfl, rfl, rfl⟩
  · cases h

/-- A call that returns no identifier and clears nothing is not entered. -/
theorem entered_quiet (s : Session G) (live : List Registration) {a : ApiCall}
    {r : Except PyError Returned} (hresult : ∀ id, r ≠ .ok (.identifier id))
    (hclear : ∀ eid, a ≠ .eventClear eid) :
    entered s live a r = live ∧ turnedDown live a r = [] := by
  constructor
  · unfold entered
    split
    · exact absurd rfl (hresult _)
    · exact absurd rfl (hresult _)
    · exact absurd rfl (hclear _)
    · rfl
  · unfold turnedDown
    split
    · exact absurd rfl (hclear _)
    · rfl

/-- A call that meets the condition. -/
theorem LedgerInv.called (h : LedgerInv b) {a : ApiCall} {ans : Answer G}
    (hg : KeepsNames env b (.call a)) (hagree : AgreementInv b'.session)
    (hstep : CallStep env b.session.fe b.session.vmi a ans) (hfe' : b'.session.fe = ans.fe)
    (hvmi' : b'.session.vmi = ans.vmi) (htids : b'.session.cleanupTids = b.session.cleanupTids)
    (hlive : b'.live = entered b.session b.live a ans.result)
    (hrefused : b'.refused = b.refused ++ turnedDown b.live a ans.result) : LedgerInv b' := by
  obtain ⟨hkeeps, hslot, hcall⟩ := hg
  have hwaits : ∀ tid ∈ b'.session.cleanupTids, tid ∈ b.session.cleanupTids ∨
      ∃ e, b.session.fe.timerlist.lookup tid = some e ∧ e.status = .inactive := by
    intro tid htid
    rw [htids] at htid
    exact .inl htid
  cases hstep with
  | quiet n hn hfe hsame hresult hclear =>
    obtain ⟨hentered, hturned⟩ := entered_quiet b.session b.live hresult hclear
    rw [hentered] at hlive
    rw [hturned, List.append_nil] at hrefused
    exact h.unchanged hagree hn (hfe'.trans hfe) (by rw [hvmi']; exact hsame)
      hwaits hlive hrefused
  | timer kind be hkind hfe hvmi hresult =>
    rename_i d
    rw [hresult] at hlive hrefused
    have hfree : b.session.fe.nextTid ∉ b.session.vmi.events :=
      hcall (hkind.imp (fun hboth => hboth.1) fun hboth => hboth.1)
    have hlive' : b'.live = b.live ++ [⟨b.session.fe.nextTid, localSource kind⟩] := by
      rw [← sourceOf_local hkind]
      exact hlive
    exact h.timer hagree (hfe'.trans hfe) hfree (hvmi'.trans hvmi) htids hlive'
      (hrefused.trans (List.append_nil _))
  | registered eventType ei hkind hroom hid hobj hevent hfe hevents howner heventId hpluginEi
      halloc hresult =>
    rename_i d
    rw [hresult] at hlive hrefused
    have hsource : sourceOf b.session d = .event ei.obj := by
      rw [hobj]
      unfold sourceOf
      split
      · exact absurd ‹_› hkind.1
      · exact absurd ‹_› hkind.2
      · rfl
    have hlive' : b'.live = b.live ++ [⟨ei.id, .event ei.obj⟩] := by
      rw [← hsource]
      exact hlive
    rw [← hvmi'] at hevents howner heventId hpluginEi
    exact h.registered hagree hid (hslot hkind) hevent ⟨hobj.symm, rfl⟩ (hfe'.trans hfe) hevents
      howner heventId hpluginEi htids hlive' (hrefused.trans (List.append_nil _))
  | timerCleared hnone ht hfe hvmi hresult =>
    rename_i eid
    rw [hresult] at hlive hrefused
    obtain ⟨status, ht⟩ := ht
    exact h.timerCleared hagree (AList.lookup_eq_none.mp hnone) (h.below eid _ ht) (hfe'.trans hfe)
      (hvmi'.trans hvmi) htids hlive (hrefused.trans (List.append_nil _))
  | cleared e ei he hei hfe hevents howner heventId hpluginEi halloc hresult =>
    rw [hresult] at hlive hrefused
    rw [← hvmi'] at hevents howner heventId hpluginEi
    exact h.eventCleared hagree hei hcall.1 (hfe'.trans hfe) hevents howner heventId hpluginEi htids
      hlive (hrefused.trans (List.append_nil _))
  | notCleared hfe hsame hresult hevent htimer =>
    obtain ⟨e, hresult⟩ := hresult
    rw [hresult] at hlive
    rw [hresult, h.turnedDown_eq hevent htimer hcall.2 e, List.append_nil] at hrefused
    exact h.unchanged hagree le_rfl (hfe'.trans hfe) (by rw [hvmi']; exact hsame)
      hwaits hlive hrefused
  -- the condition rules this one out
  | unallocated howner hmalloc hlist hsame =>
    have htrue := hkeeps.2 howner
    rw [hmalloc] at htrue
    cases htrue
  | started ei howner hid hobj hevent hfe hevents howner' heventId hpluginEi halloc hresult =>
    -- the identifier fits the field of the reply: there are not that many events
    have hlt : ei.id < 2 ^ 64 := by
      have hle := firstFree_le_length b.session.vmi.events
      have hroom : b.session.vmi.events.entries.length ≤ 200 := h.agreement.room howner
      omega
    have harrives : (UInt64.ofNat ei.id).toNat = ei.id := by
      rw [UInt64.toNat_ofNat']
      exact Nat.mod_eq_of_lt hlt
    rw [harrives] at hfe hresult
    rw [hresult] at hlive hrefused
    have hlive' : b'.live = b.live ++ [⟨ei.id, .plugin ei.obj⟩] := by
      rw [hobj]
      exact hlive
    rw [← hvmi'] at hevents howner' heventId hpluginEi
    exact h.started hagree hid (hslot trivial) hevent ⟨hobj.symm, rfl⟩ (hfe'.trans hfe) hevents
      howner howner' heventId hpluginEi htids hlive' (hrefused.trans (List.append_nil _))
  -- so it does with this one
  | stopped e he howner hmem hlist hevents howner' => exact hcall.elim

/-- **One step.** A step that meets the condition keeps the invariant. -/
theorem LedgerInv.step (h : LedgerInv b) {i : Input G} (hg : KeepsNames env b i)
    (hs : (ledgerSystem env).step b i b') : LedgerInv b' := by
  obtain ⟨hnext, hbook⟩ := hs
  have hagree := h.agreement_step hg hnext
  cases i with
  | call a =>
    obtain ⟨ans, hans, hlive, hrefused⟩ := hbook
    obtain ⟨hfe, hvmi, htids⟩ := called_answer hnext hans
    exact h.called hg hagree (call_step hans) hfe hvmi htids hlive hrefused
  | _ =>
    refine h.quiet hagree (quiet_step ?_ hnext) hbook.1 hbook.2
    intro a ha
    cases ha

end Steps

/-! ### Whole runs -/

/-- The books of a run of the session. -/
theorem reach_ledger {env : Env G} {guard : Books G → Input G → Prop} {a : ApiCall}
    {ans : Answer G} {b : Books G} {s : Session G} (hr : Reach (ledgerSystem env) guard b)
    (hg : guard b (.call a)) (hans : a.run env b.session.fe b.session.vmi = .ok ans)
    (hs : b.session.next env (.call a) = some s) :
    Reach (ledgerSystem env) guard ⟨s, entered b.session b.live a ans.result,
      b.refused ++ turnedDown b.live a ans.result⟩ :=
  .step hr hg ⟨hs, ans, hans, rfl, rfl⟩

/-- **One identifier, one registration.** In every run that meets the condition, the live
    registrations have identifiers of their own, and `event_clear` has cleared what its
    identifier names, nothing less and nothing more. -/
theorem namesOne_reach {env : Env G} {b : Books G}
    (h : Reach (ledgerSystem env) (KeepsNames env) b) : NamesOne b := by
  have hinv : LedgerInv b := by
    refine h.invariant LedgerInv ?_ ?_
    · rintro b ⟨g, identR, rfl⟩
      exact ledgerInv_initial g identR
    · intro b i b' hinv hg hs
      exact hinv.step hg hs
  exact hinv.toNamesOne

/-- While nothing is on the frontend's list of timers, and nothing awaits its deletion, an event can
    be registered. -/
theorem keepsNames_cr3Data {b : Books Unit} (htimers : b.session.fe.timerlist = ∅)
    (hcleanup : b.session.cleanupEids = []) :
    KeepsNames echoEnv b (.call (.eventRegister cr3Data)) := by
  refine ⟨⟨fun _ => ?_, trivial⟩, fun _ => ?_, fun hlocal => ?_⟩
  · rw [hcleanup]
    exact List.not_mem_nil
  · rintro ⟨e, he, -⟩
    rw [htimers] at he
    cases he
  · rcases hlocal with hlocal | hlocal <;> cases hlocal

/-- And any identifier can be cleared while no plugin runs. -/
theorem keepsNames_eventClear {b : Books Unit} (htimers : b.session.fe.timerlist = ∅)
    (howner : b.session.vmi.syscallPluginOwner = none) (eid : ℕ) :
    KeepsNames echoEnv b (.call (.eventClear eid)) := by
  refine ⟨⟨False.elim, trivial⟩, False.elim, fun hne => absurd howner hne, fun htimer => ?_⟩
  rw [htimers] at htimer
  cases htimer

/-- Two events are registered, and then the first of them is cleared. -/
theorem namesOne_registered : ∃ b b' : Books Unit,
    b.live = [⟨0, .event 0⟩, ⟨1, .event 1⟩] ∧ NamesOne b ∧
      b'.live = [⟨1, .event 1⟩] ∧ NamesOne b' := by
  have hrun : ∃ ans₁ s₁ ans₂ s₂ ans₃ s₃,
      (ApiCall.eventRegister cr3Data).run echoEnv { identR := [102, 45, 114] }
        (World.initial ()) = .ok ans₁ ∧
      (Session.initial () [102, 45, 114]).next echoEnv (.call (.eventRegister cr3Data)) =
        some s₁ ∧
      ans₁.result = .ok (.identifier 0) ∧ s₁.fe.timerlist = ∅ ∧ s₁.cleanupEids = [] ∧
      (ApiCall.eventRegister cr3Data).run echoEnv s₁.fe s₁.vmi = .ok ans₂ ∧
      s₁.next echoEnv (.call (.eventRegister cr3Data)) = some s₂ ∧
      ans₂.result = .ok (.identifier 1) ∧ s₂.fe.timerlist = ∅ ∧
      s₂.vmi.syscallPluginOwner = none ∧ sourceOf s₁ cr3Data = .event 1 ∧
      (ApiCall.eventClear 0).run echoEnv s₂.fe s₂.vmi = .ok ans₃ ∧
      s₂.next echoEnv (.call (.eventClear 0)) = some s₃ ∧ ans₃.result = .ok .done := by
    refine ⟨_, _, _, _, _, _, rfl, rfl, ?_, ?_, ?_, rfl, rfl, ?_, ?_, ?_, ?_, rfl, rfl, ?_⟩
    all_goals rfl
  obtain ⟨ans₁, s₁, ans₂, s₂, ans₃, s₃, hans₁, hs₁, hresult₁, htimers₁, hcleanup₁, hans₂, hs₂,
    hresult₂, htimers₂, howner₂, hsource, hans₃, hs₃, hresult₃⟩ := hrun
  have hinit : Reach (ledgerSystem echoEnv) (KeepsNames echoEnv)
      { session := Session.initial () [102, 45, 114] } := .init ⟨(), [102, 45, 114], rfl⟩
  have hreach₁ := reach_ledger hinit (keepsNames_cr3Data rfl rfl) hans₁ hs₁
  have hreach₂ := reach_ledger hreach₁ (keepsNames_cr3Data htimers₁ hcleanup₁) hans₂ hs₂
  have hreach₃ := reach_ledger hreach₂ (keepsNames_eventClear htimers₂ howner₂ 0) hans₃ hs₃
  have hfirst : sourceOf (Session.initial () [102, 45, 114]) cr3Data = .event 0 := rfl
  refine ⟨_, _, ?_, namesOne_reach hreach₂, ?_, namesOne_reach hreach₃⟩
  · rw [hresult₁, hresult₂]
    simp [entered, hfirst, hsource]
  · rw [hresult₁, hresult₂, hresult₃]
    simp [entered, hsource]

/-- The constructor registers a timer and then an event: both are returned the identifier 0,
    and clearing it clears the event and leaves the timer. -/
theorem namesOne_fails :
    ¬∀ b : Books Unit, Reach (ledgerSystem echoEnv) (fun _ _ => True) b → NamesOne b := by
  intro hall
  have hrun : ∃ ans₁ s₁ ans₂ s₂ ans₃ s₃,
      (ApiCall.eventRegister timerData).run echoEnv { identR := [102, 45, 114] }
        (World.initial ()) = .ok ans₁ ∧
      (Session.initial () [102, 45, 114]).next echoEnv (.call (.eventRegister timerData)) =
        some s₁ ∧
      ans₁.result = .ok (.identifier 0) ∧
      (ApiCall.eventRegister cr3Data).run echoEnv s₁.fe s₁.vmi = .ok ans₂ ∧
      s₁.next echoEnv (.call (.eventRegister cr3Data)) = some s₂ ∧
      ans₂.result = .ok (.identifier 0) ∧
      (ApiCall.eventClear 0).run echoEnv s₂.fe s₂.vmi = .ok ans₃ ∧
      s₂.next echoEnv (.call (.eventClear 0)) = some s₃ ∧
      ans₃.result = .ok .done ∧
      s₃.fe.timerlist.lookup 0 = some ⟨.timer, .active⟩ := by
    refine ⟨_, _, _, _, _, _, rfl, rfl, ?_, rfl, rfl, ?_, rfl, rfl, ?_, ?_⟩
    · rfl
    · rfl
    · rfl
    · rfl
  obtain ⟨ans₁, s₁, ans₂, s₂, ans₃, s₃, hans₁, hs₁, hresult₁, hans₂, hs₂, hresult₂, hans₃, hs₃,
    hresult₃, htimer⟩ := hrun
  have hinit : Reach (ledgerSystem echoEnv) (fun _ _ => True)
      { session := Session.initial () [102, 45, 114] } := .init ⟨(), [102, 45, 114], rfl⟩
  have hreach₁ := reach_ledger hinit trivial hans₁ hs₁
  have hreach₂ := reach_ledger hreach₁ trivial hans₂ hs₂
  have hnames := hall _ (reach_ledger hreach₂ trivial hans₃ hs₃)
  -- the book has lost both of them, and the timer is still there
  have hlive := (hnames.live_iff ⟨0, .timer⟩).mpr htimer
  rw [hresult₁, hresult₂, hresult₃] at hlive
  cases hlive

end Furnace.App
