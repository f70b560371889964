import Furnace.App.Loop

namespace Furnace.App

open Furnace.Proto Furnace.Lib Furnace.Vmi

/-!
# The two sides agree on live registrations

An identifier is active in `eventlist` exactly when the VMI partition has an event under it.
The VMI partition recycles an identifier at once, while the frontend deletes an inactive
entry by its identifier and after the timers have run; so a timer that registers an event can
be given an identifier that is about to be deleted.  Two more calls can separate the sides:
`stop_syscall` stops the plugin but marks whatever identifier it is given, and a
`start_syscall` for which the VMI partition has no memory reads as a success.

* `Agrees` — what is wanted of every state.
* `KeepsAgreement` — the condition on the calls.
* `registrations_agree` — every run whose calls meet it keeps the sides in agreement.
-/

variable {G : Type}

/-! ### Active identifiers -/

/-- The identifier has an active entry. -/
def Active (eventlist : AList fun _ : ℕ => Entry) (k : ℕ) : Prop :=
  ∃ e, eventlist.lookup k = some e ∧ e.status = .active

theorem active_insert {l : AList fun _ : ℕ => Entry} {k j : ℕ} {e : Entry}
    (he : e.status = .active) : Active (l.insert k e) j ↔ j = k ∨ Active l j := by
  constructor
  · rintro ⟨e', he', hactive⟩
    rcases lookup_insert_eq_some.mp he' with ⟨rfl, -⟩ | ⟨-, hold⟩
    · exact .inl rfl
    · exact .inr ⟨e', hold, hactive⟩
  · intro h
    -- the entry may have been there before, active or not
    by_cases hjk : j = k
    · exact ⟨e, lookup_insert_eq_some.mpr (.inl ⟨hjk, rfl⟩), he⟩
    · rcases h with rfl | ⟨e', he', hactive⟩
      · exact absurd rfl hjk
      · exact ⟨e', lookup_insert_eq_some.mpr (.inr ⟨hjk, he'⟩), hactive⟩

theorem active_insert_inactive {l : AList fun _ : ℕ => Entry} {k j : ℕ} {e : Entry}
    (he : e.status = .inactive) : Active (l.insert k e) j ↔ j ≠ k ∧ Active l j := by
  constructor
  · rintro ⟨e', he', hactive⟩
    rcases lookup_insert_eq_some.mp he' with ⟨-, rfl⟩ | ⟨hne, hold⟩
    · rw [he] at hactive
      cases hactive
    · exact ⟨hne, e', hold, hactive⟩
  · rintro ⟨hne, e', he', hactive⟩
    exact ⟨e', lookup_insert_eq_some.mpr (.inr ⟨hne, he'⟩), hactive⟩

/-! ### Agreement -/

/-- The active identifiers of the frontend are the identifiers of the VMI partition. -/
def Agrees (s : Session G) : Prop := ∀ k, Active s.fe.eventlist k ↔ k ∈ s.vmi.events

/-- Whether a call asks the VMI partition for an identifier. -/
def TakesSlot : ApiCall → Prop
  | .eventRegister d => d.eventType ≠ .timer ∧ d.eventType ≠ .be
  | .startSyscall _ _ => True
  | _ => False

/-- The condition on a call: it is not given an identifier that awaits deletion, memory for
    the plugin is there when it is started, and the plugin is stopped under its own
    identifier. -/
def KeepsAgreement (env : Env G) (s : Session G) : Input G → Prop
  | .call a => (TakesSlot a → firstFree s.vmi.events ∉ s.cleanupEids) ∧
    match a with
    | .startSyscall _ _ => s.vmi.syscallPluginOwner = none →
      (env.exec (.malloc .eventItem) s.vmi.guest).1 = true
    | .stopSyscall eid => eid ∈ s.fe.eventlist → s.vmi.syscallPluginOwner ≠ none →
      eid = s.vmi.syscallPluginEventId
    | _ => True
  | _ => True

/-- The invariant: the sides agree, what awaits deletion is inactive, events sit under their
    own identifiers, and there are few of them. -/
structure AgreementInv (s : Session G) : Prop where
  agree : Agrees s
  awaiting : ∀ k ∈ s.cleanupEids, ∃ e, s.fe.eventlist.lookup k = some e ∧ e.status = .inactive
  key : ∀ k ei, s.vmi.events.lookup k = some ei → ei.id = k
  few : s.vmi.events.entries.length ≤ maxEvents + 1
  room : s.vmi.syscallPluginOwner = none → s.vmi.events.entries.length ≤ maxEvents

theorem agreementInv_initial (g : G) (identR : Bytes) :
    AgreementInv (Session.initial g identR) where
  agree k := by simp [Session.initial, World.initial, Active, AList.notMem_empty]
  awaiting := by simp [Session.initial]
  key := by simp [Session.initial, World.initial]
  few := by simp [Session.initial, World.initial]
  room := by simp [Session.initial, World.initial]

/-- The invariant speaks of the registrations only. -/
theorem AgreementInv.of_same {s s' : Session G} (h : AgreementInv s)
    (hsame : SameRegistry s.vmi s'.vmi) (hlist : s'.fe.eventlist = s.fe.eventlist)
    (hcleanup : s'.cleanupEids = s.cleanupEids) : AgreementInv s' where
  agree k := by
    rw [hlist, hsame.events]
    exact h.agree k
  awaiting := by
    rw [hlist, hcleanup]
    exact h.awaiting
  key := by
    rw [hsame.events]
    exact h.key
  few := by
    rw [hsame.events]
    exact h.few
  room := by
    rw [hsame.events, hsame.owner]
    exact h.room

/-! ### One step -/

section Steps

variable {env : Env G} {s s' : Session G}

/-- An entry that awaits deletion keeps waiting when another identifier is filled. -/
theorem awaiting_insert {ks : List ℕ} {l : AList fun _ : ℕ => Entry} {id : ℕ} {c : Entry}
    (h : ∀ k ∈ ks, ∃ e, l.lookup k = some e ∧ e.status = .inactive)
    (hid : id ∉ ks ∨ c.status = .inactive) :
    ∀ k ∈ ks, ∃ e, (l.insert id c).lookup k = some e ∧ e.status = .inactive := by
  intro k hk
  by_cases hkid : k = id
  · subst hkid
    rcases hid with hnot | hinactive
    · exact absurd hk hnot
    · exact ⟨c, lookup_insert_eq_some.mpr (.inl ⟨rfl, rfl⟩), hinactive⟩
  · obtain ⟨e, he, hinactive⟩ := h k hk
    exact ⟨e, lookup_insert_eq_some.mpr (.inr ⟨hkid, he⟩), hinactive⟩

/-- An event in the lowest free slot, active on the other side. -/
theorem AgreementInv.insert (h : AgreementInv s) {ei : EventItem} {c : Entry}
    (hid : ei.id = firstFree s.vmi.events) (hfree : firstFree s.vmi.events ∉ s.cleanupEids)
    (hc : c.status = .active) (hlist : s'.fe.eventlist = s.fe.eventlist.insert ei.id c)
    (hevents : s'.vmi.events = s.vmi.events.insert ei.id ei)
    (hcleanup : s'.cleanupEids = s.cleanupEids)
    (hroom : s.vmi.events.entries.length < maxEvents ∨
      s.vmi.events.entries.length ≤ maxEvents ∧ s'.vmi.syscallPluginOwner ≠ none) :
    AgreementInv s' := by
  -- the slot was free, so the map grows by one
  have hlen : s'.vmi.events.entries.length = s.vmi.events.entries.length + 1 := by
    rw [hevents, hid]
    exact length_insert_of_not_mem _ _ (firstFree_not_mem _)
  have hkey : ∀ k e, s'.vmi.events.lookup k = some e → e.id = k := by
    rw [hevents]
    intro k e hk
    rcases lookup_insert_eq_some.mp hk with ⟨rfl, rfl⟩ | ⟨-, hold⟩
    · rfl
    · exact h.key k e hold
  refine ⟨fun k => ?_, ?_, hkey, ?_, fun hnone => ?_⟩
  · rw [hlist, hevents, active_insert hc, AList.mem_insert, h.agree k]
  · rw [hlist, hcleanup, hid]
    exact awaiting_insert h.awaiting (.inl hfree)
  · rcases hroom with hlt | ⟨hle, -⟩ <;> omega
  · rcases hroom with hlt | ⟨-, howner⟩
    · omega
    · exact absurd hnone howner

/-- An event is taken away, and the entry under its identifier is marked inactive. -/
theorem AgreementInv.erase (h : AgreementInv s) {id : ℕ} {c : Entry} (hmem : id ∈ s.vmi.events)
    (hc : c.status = .inactive) (hlist : s'.fe.eventlist = s.fe.eventlist.insert id c)
    (hevents : s'.vmi.events = s.vmi.events.erase id)
    (hcleanup : s'.cleanupEids = s.cleanupEids) : AgreementInv s' := by
  have hlen : s'.vmi.events.entries.length ≤ maxEvents := by
    have hone := length_erase_of_mem s.vmi.events hmem
    have hfew := h.few
    rw [hevents]
    omega
  refine ⟨fun k => ?_, ?_, ?_, hlen.trans (Nat.le_succ _), fun _ => hlen⟩
  · rw [hlist, hevents, active_insert_inactive hc, AList.mem_erase, h.agree k]
  · rw [hlist, hcleanup]
    exact awaiting_insert h.awaiting (.inr hc)
  · rw [hevents]
    exact fun k e hk => h.key k e (lookup_erase_eq_some.mp hk).2

/-- The scan puts inactive entries on the cleanup list. -/
theorem AgreementInv.scanned (h : AgreementInv s) (hvmi : s'.vmi = s.vmi)
    (hlist : s'.fe.eventlist = s.fe.eventlist)
    (hmem : ∀ k, k ∈ s'.cleanupEids ↔
      k ∈ s.cleanupEids ∨ ∃ e, s.fe.eventlist.lookup k = some e ∧ e.status = .inactive) :
    AgreementInv s' where
  agree k := by
    rw [hlist, hvmi]
    exact h.agree k
  awaiting := by
    rw [hlist]
    intro k hk
    rcases (hmem k).mp hk with hold | hinactive
    · exact h.awaiting k hold
    · exact hinactive
  key := by
    rw [hvmi]
    exact h.key
  few := by
    rw [hvmi]
    exact h.few
  room := by
    rw [hvmi]
    exact h.room

/-- The loop deletes the entries on the cleanup list. -/
theorem AgreementInv.cleaned (h : AgreementInv s) (hvmi : s'.vmi = s.vmi)
    (hlist : ∀ k e, s'.fe.eventlist.lookup k = some e ↔
      k ∉ s.cleanupEids ∧ s.fe.eventlist.lookup k = some e)
    (hcleanup : s'.cleanupEids = []) : AgreementInv s' where
  agree k := by
    rw [hvmi, ← h.agree k]
    constructor
    · rintro ⟨e, he, hactive⟩
      exact ⟨e, ((hlist k e).mp he).2, hactive⟩
    · rintro ⟨e, he, hactive⟩
      -- only inactive entries are deleted
      have hnot : k ∉ s.cleanupEids := by
        intro hk
        obtain ⟨e', he', hinactive⟩ := h.awaiting k hk
        rw [he] at he'
        cases he'
        rw [hactive] at hinactive
        cases hinactive
      exact ⟨e, (hlist k e).mpr ⟨hnot, he⟩, hactive⟩
  awaiting := by
    rw [hcleanup]
    exact fun k hk => absurd hk List.not_mem_nil
  key := by
    rw [hvmi]
    exact h.key
  few := by
    rw [hvmi]
    exact h.few
  room := by
    rw [hvmi]
    exact h.room

/-- An API call that meets the condition keeps the invariant. -/
theorem AgreementInv.called (h : AgreementInv s) {a : ApiCall} {ans : Answer G}
    (hg : KeepsAgreement env s (.call a)) (hstep : ApiStep env s.fe s.vmi a ans)
    (hvmi : s'.vmi = ans.vmi) (hfe : s'.fe = ans.fe) (hcleanup : s'.cleanupEids = s.cleanupEids) :
    AgreementInv s' := by
  obtain ⟨hslot, hcall⟩ := hg
  cases hstep with
  | quiet hlist hsame hclear =>
    exact h.of_same (by rw [hvmi]; exact hsame) (by rw [hfe]; exact hlist) hcleanup
  | registered eventType ei hkind hroom hid hobj hlist hevents howner heventId halloc =>
    exact h.insert hid (hslot hkind) rfl (by rw [hfe]; exact hlist) (by rw [hvmi]; exact hevents)
      hcleanup (.inl hroom)
  | cleared e ei he hei hlist hevents howner heventId halloc hresult =>
    rename_i eid
    -- the VMI partition erases under the event's own identifier
    have hkey : ei.id = eid := h.key eid ei hei
    rw [hkey] at hevents
    refine h.erase ?_ rfl (by rw [hfe]; exact hlist) (by rw [hvmi]; exact hevents) hcleanup
    exact mem_of_lookup hei
  -- the condition rules this one out
  | unallocated howner hmalloc hlist hsame =>
    have htrue := hcall howner
    rw [hmalloc] at htrue
    cases htrue
  | started ei howner hid hlist hevents howner' =>
    -- the identifier fits the field of the reply: there are not that many events
    have hlt : ei.id < 2 ^ 64 := by
      have hle := firstFree_le_length s.vmi.events
      have hroom : s.vmi.events.entries.length ≤ 200 := h.room howner
      omega
    rw [UInt64.toNat_ofNat', Nat.mod_eq_of_lt hlt] at hlist
    exact h.insert hid (hslot trivial) rfl (by rw [hfe]; exact hlist) (by rw [hvmi]; exact hevents)
      hcleanup (.inr ⟨h.room howner, by rw [hvmi]; exact howner'⟩)
  | stopped e he howner hmem hlist hevents howner' =>
    rename_i eid
    have hin : eid ∈ s.fe.eventlist := mem_of_lookup he
    -- the identifier that becomes inactive is the plugin's
    have heid := hcall hin howner
    subst heid
    exact h.erase hmem rfl (by rw [hfe]; exact hlist) (by rw [hvmi]; exact hevents) hcleanup

/-- **One step.** A step that meets the condition keeps the invariant. -/
theorem AgreementInv.step (h : AgreementInv s) {i : Input G} (hg : KeepsAgreement env s i)
    (hstep : SessionStep env s i s') : AgreementInv s' := by
  cases hstep with
  | moved hsame hlist hqueue hstage hcleanup hcleared hinvoked =>
    exact h.of_same hsame hlist hcleanup
  | sent m hfrom hsame hlist hqueue hphase hcleanup hcleared hinvoked =>
    exact h.of_same hsame hlist hcleanup
  | called hruns hstep => exact h.called hg hstep rfl rfl rfl
  | dispatched m rest e hphase hqueue he => exact h.of_same (SameRegistry.refl _) rfl rfl
  | scanned hphase hvmi hlist hqueue hstage hmem hcleared hinvoked =>
    exact h.scanned hvmi hlist hmem
  | cleaned hphase hvmi hlist hqueue hphase' hcleanup hcleared hinvoked =>
    exact h.cleaned hvmi hlist hcleanup

end Steps

/-! ### Whole runs -/

/-- Every run whose calls meet the condition keeps the invariant. -/
theorem agreementInv_reach {env : Env G} {s : Session G}
    (h : Reach (sessionSystem env) (KeepsAgreement env) s) : AgreementInv s := by
  refine h.invariant AgreementInv ?_ ?_
  · rintro s ⟨g, identR, rfl⟩
    exact agreementInv_initial g identR
  · intro s i s' hinv hg hs
    exact hinv.step hg (session_step hs)

/-- **The frontend and the VMI partition agree.** In every run whose calls meet the
    condition, the active identifiers are those of the VMI partition's events, and nothing on
    the cleanup list is active. -/
theorem registrations_agree {env : Env G} {s : Session G}
    (h : Reach (sessionSystem env) (KeepsAgreement env) s) :
    Agrees s ∧ ∀ k ∈ s.cleanupEids, ¬Active s.fe.eventlist k := by
  have hinv := agreementInv_reach h
  refine ⟨hinv.agree, fun k hk hactive => ?_⟩
  obtain ⟨e, he, hinactive⟩ := hinv.awaiting k hk
  obtain ⟨e', he', hactive⟩ := hactive
  rw [he] at he'
  cases he'
  rw [hinactive] at hactive
  cases hactive

/-- A registration of the CR3 register. -/
def cr3Data : EventData := { eventType := .reg, sync := some 31, regType := some 1 }

/-- A timer. -/
def timerData : EventData := { eventType := .timer, timeValue := true }

/-- The constructor registers an event. -/
theorem registrations_agree_registered :
    ∃ s : Session Unit, Active s.fe.eventlist 0 ∧ Agrees s ∧
      ∀ k ∈ s.cleanupEids, ¬Active s.fe.eventlist k := by
  have hrun : ∃ s,
      (Session.initial () [102, 45, 114]).next echoEnv (.call (.eventRegister cr3Data)) = some s ∧
      s.fe.eventlist.lookup 0 = some ⟨.reg, 0, .active⟩ := by
    refine ⟨_, rfl, ?_⟩
    rfl
  obtain ⟨s, hs, hlookup⟩ := hrun
  have hg : KeepsAgreement echoEnv (Session.initial () [102, 45, 114])
      (.call (.eventRegister cr3Data)) := ⟨fun _ => List.not_mem_nil, trivial⟩
  have hreach : Reach (sessionSystem echoEnv) (KeepsAgreement echoEnv) s :=
    .step (.init ⟨(), [102, 45, 114], rfl⟩) hg hs
  exact ⟨s, ⟨_, hlookup, rfl⟩, registrations_agree hreach⟩

/-- The constructor registers an event and a timer and clears the event; the timer, between
    the scan and the cleanup, registers an event again. -/
def reregister : List (Input Unit) :=
  [.call (.eventRegister cr3Data), .call (.eventRegister timerData), .call (.eventClear 0),
    .established, .polled false, .broadcast false, .notify false, .scanned, .timer true,
    .call (.eventRegister cr3Data), .returned, .timer true, .cleaned]

/-- The new event is deleted by the frontend and stays with the VMI partition. -/
theorem registrations_agree_fails :
    ¬∀ s : Session Unit, Reach (sessionSystem echoEnv) (fun _ _ => True) s → s.phase = .poll →
      Agrees s := by
  intro hall
  have hrun : ∃ s, reregister.foldlM (fun s i => s.next echoEnv i)
      (Session.initial () [102, 45, 114]) = some s ∧ s.phase = .poll ∧
      s.fe.eventlist.lookup 0 = none ∧ (s.vmi.events.lookup 0).isSome = true := by
    refine ⟨_, rfl, ?_, ?_, ?_⟩
    · rfl
    · rfl
    · rfl
  obtain ⟨s, hs, hphase, hnone, hsome⟩ := hrun
  have hreach : Reach (sessionSystem echoEnv) (fun _ _ => True) s :=
    .of_foldlM (fun _ _ _ h => h) (fun _ _ _ => trivial) (.init ⟨(), [102, 45, 114], rfl⟩) hs
  obtain ⟨e, he, -⟩ := (hall s hreach hphase 0).mpr (AList.lookup_isSome.mp hsome)
  rw [hnone] at he
  cases he

end Furnace.App
