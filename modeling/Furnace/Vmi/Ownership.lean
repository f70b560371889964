import Furnace.Vmi.Frame
import Furnace.Vmi.Masking
import Furnace.Vmi.Traps
import Mathlib.Data.List.TakeWhile

namespace Furnace.Vmi

open Furnace.Proto Furnace.Lib

/-!
# Who receives an event

An app has two sockets, with the identities `u-r` and `u-d`.  A registration stores the second
one, made from a copy of the first; the trap it sets holds a raw pointer to it.  When the trap
fires, the event goes to the identity that the pointer leads to.

* `eventCallback` — the callbacks of the CR3 and breakpoint events, through the raw pointer.
* `clientSystem` — the VMI partition under the messages of any apps, on a guest with DRAKVUF,
  with a ghost record of whose message made each allocation.
* `OwnedInv` — the entries of the registry belong to the apps that created them.
* `events_to_owner` — **an event goes to the app whose message registered it**, under the
  identifier of a live registration.
-/

variable {G : Type}

/-! ### Apps -/

/-- The UUID of an app: an argument on its command line, hence without a NUL. -/
structure Uuid where
  bytes : Bytes
  noNul : 0 ∉ bytes

/-- The identity of an app's REQ socket, `u-r`. -/
def Uuid.identR (u : Uuid) : Bytes := u.bytes ++ literal "-r"

/-- The identity of an app's DEALER socket, `u-d`. -/
def Uuid.identD (u : Uuid) : Bytes := u.bytes ++ literal "-d"

/-- The C string of an app's identity is the whole identity. -/
theorem Uuid.cStr_identR (u : Uuid) : cStr u.identR = u.identR := by
  have hliteral : ∀ b ∈ literal "-r", b ≠ 0 := by decide +kernel
  unfold cStr
  rw [List.takeWhile_eq_self_iff]
  intro b hb
  rcases List.mem_append.mp hb with hb | hb
  · have hne : b ≠ 0 := fun h => u.noNul (h ▸ hb)
    simpa using hne
  · simpa using hliteral b hb

/-- The owner that `event_register` makes of an app's identity. -/
theorem Uuid.ownerOf_identR (u : Uuid) : ownerOf u.identR = .ok u.identD := by
  have hr : literal "-r" = literal "-" ++ literal "r" := by decide +kernel
  have hd : literal "-d" = literal "-" ++ literal "d" := by decide +kernel
  have hlast : (literal "r").length = 1 := by decide +kernel
  have hdrop : u.identR.dropLast = u.bytes ++ literal "-" := by
    unfold Uuid.identR
    rw [hr, ← List.append_assoc, List.dropLast_eq_take, List.length_append, hlast]
    exact List.take_left
  have hne : ¬ u.identR.isEmpty = true := by
    unfold Uuid.identR
    rw [hr]
    simp [hlast, ← List.length_eq_zero_iff]
  unfold ownerOf
  rw [if_neg hne, hdrop, Uuid.identD, hd, List.append_assoc]

/-! ### Callbacks -/

/-- The `event_item` at an address, while it is registered. -/
def eventItemAt (w : World G) (obj : ℕ) : Option EventItem :=
  (w.events.entries.find? fun e => e.2.obj == obj).map fun e => e.2

/-- `furnace_cr3_callback` and `furnace_int_callback`, for a trap that fires: `none` when its
    pointer leads to no registration, or to one without an owner. -/
def eventCallback (env : Env G) (t : Trap) (w : World G) :
    Option (World G × Option EventMessage) :=
  match eventItemAt w t.data with
  | none => none
  | some ei =>
    if w.eventsActive == false || ei.active == false then some (w, none)
    else
      match ei.owner with
      | none => none
      | some owner =>
        if ei.syncState = fSync then
          some ((w.exec env .pause).2, some ⟨ei.id, true, owner⟩)
        else some (w, some ⟨ei.id, false, owner⟩)

/-- The pointer to an entry leads to it. -/
theorem eventItemAt_obj {w : World G} (h : Allocated w) {k : ℕ} {ei : EventItem}
    (hk : w.events.lookup k = some ei) : eventItemAt w ei.obj = some ei := by
  unfold eventItemAt
  cases hfind : w.events.entries.find? fun e => e.2.obj == ei.obj with
  | none =>
    have hmem : (⟨k, ei⟩ : Sigma fun _ : ℕ => EventItem) ∈ w.events.entries :=
      AList.mem_lookup_iff.mp hk
    have hnone := List.find?_eq_none.mp hfind _ hmem
    simp at hnone
  | some e =>
    have hobj : e.2.obj = ei.obj := by
      simpa using List.find?_some hfind
    have hlookup : w.events.lookup e.1 = some e.2 :=
      AList.mem_lookup_iff.mpr (List.mem_of_find?_eq_some hfind)
    -- an allocation is in one slot only
    obtain rfl := h.distinct _ _ _ _ hlookup hk hobj
    rw [hk] at hlookup
    exact hlookup.symm

/-! ### Runs -/

/-- The VMI partition, and whose message made each allocation. -/
structure Clientele (G : Type) where
  vmi : World (Traced G)
  creator : ℕ → Option Uuid := fun _ => none

/-- What happens next: a message of an app arrives, the guest runs, or a trap fires. -/
inductive Occasion (G : Type)
  | message (u : Uuid) (m : VMIMessage) | guestRuns (g : G) | fires (t : Trap)

/-- Who made the allocations, after a message of `u` has made those from `n` to `n'`. -/
def creatorAfter (creator : ℕ → Option Uuid) (u : Uuid) (n n' : ℕ) (o : ℕ) : Option Uuid :=
  if n ≤ o ∧ o < n' then some u else creator o

/-- **One step.** A trap fires only while it is installed. -/
inductive ClientStep (d : Drakvuf G) (s : Clientele G) : Occasion G → Clientele G → Prop
  | message {u : Uuid} {m out : VMIMessage} {w' : World (Traced G)}
      (hrun : processProtobuf d.toEnv m { s.vmi with scratchIdent := cStr u.identR } =
        .ok (w', out)) :
      ClientStep d s (.message u m)
        ⟨w', creatorAfter s.creator u s.vmi.nextAlloc w'.nextAlloc⟩
  | guestRuns (g : G) :
      ClientStep d s (.guestRuns g)
        { s with vmi := { s.vmi with guest := { s.vmi.guest with inner := g } } }
  | fires {t : Trap} {w' : World (Traced G)} {em : Option EventMessage}
      (ht : .event t ∈ s.vmi.guest.table.installed)
      (hcall : eventCallback d.toEnv t s.vmi = some (w', em)) :
      ClientStep d s (.fires t) { s with vmi := w' }

/-- The VMI partition with its apps. -/
def clientSystem (d : Drakvuf G) : TransitionSystem (Clientele G) (Occasion G) where
  init s := ∃ g, s = { vmi := World.initial ⟨g, {}⟩ }
  step := ClientStep d

/-- The step does not stop a syscall plugin. -/
def KeepsPlugin : Occasion G → Prop
  | .message _ m => Call.stopSyscall.num ∉ m.type
  | _ => True

/-! ### What a call does to the entries -/

section Entries

variable {env : Env G} {m : Msg} {w w' : World G} {r : Reply}

/-- The second half of a registration stores the client's other identity. -/
theorem addTrapFor_owner {kind : TrapKind} {obj : ℕ}
    (h : addTrapFor env m kind obj w = .ok (w', r)) {k : ℕ} {ei : EventItem}
    (hk : w'.events.lookup k = some ei) :
    w.events.lookup k = some ei ∨
      ei.obj = obj ∧ ∃ owner, ownerOf w.scratchIdent = .ok owner ∧ ei.owner = some owner := by
  unfold addTrapFor at h
  obtain ⟨owner, howner, h⟩ := bind_eq_ok.mp h
  dsimp only [addEvent] at h
  split at h
  · cases h
    rcases lookup_insert_eq_some.mp hk with ⟨-, rfl⟩ | ⟨-, hold⟩
    · exact .inr ⟨rfl, owner, howner, rfl⟩
    · exact .inl hold
  · -- the new entry has been taken back
    obtain ⟨hw', -⟩ := Prod.mk.inj (Except.ok.inj h)
    have hsame : w'.events = w.events := by
      rw [← hw']
      exact erase_insert_of_not_mem _ _ (firstFree_not_mem w.events)
    rw [hsame] at hk
    exact .inl hk

theorem eventRegister_owner (h : eventRegisterBody env (.ok m) w = .ok (w', r)) {k : ℕ}
    {ei : EventItem} (hk : w'.events.lookup k = some ei) :
    w.events.lookup k = some ei ∨
      ei.obj = w.nextAlloc ∧
        ∃ owner, ownerOf w.scratchIdent = .ok owner ∧ ei.owner = some owner := by
  cases eventRegister_cases h with
  | trap kind hroom htrap =>
    have howner := addTrapFor_owner htrap hk
    exact howner
  | full | noMemory | otherRegister | otherType => exact .inl hk

/-- **A registry request and the owners.** A new entry that has a trap is a new allocation, and
    belongs to the client that is served. -/
theorem registry_owner {c : RegistryCall} (h : c.handler.core env (.ok m) w = .ok (w', r))
    {k : ℕ} {ei : EventItem} {tr : Trap} (hk : w'.events.lookup k = some ei)
    (hevent : ei.event = some tr) :
    w.events.lookup k = some ei ∨
      ei.obj = w.nextAlloc ∧
        ∃ owner, ownerOf w.scratchIdent = .ok owner ∧ ei.owner = some owner := by
  have hstep := registry_step h
  cases hstep with
  | refused g new alloc fl hr hentry hnew hfl hw =>
    subst hw
    exact .inl hk
  | registered g new ei' hroom hid hobj hev hactive hsync hnew hw =>
    exact eventRegister_owner h hk
  | cleared g ei' hei hw =>
    subst hw
    exact .inl (lookup_erase_eq_some.mp hk).2
  | unallocated g howner hw =>
    subst hw
    exact .inl hk
  | started g new ei' owner howner hid hobj hev hnew hw =>
    subst hw
    rcases lookup_insert_eq_some.mp hk with ⟨-, rfl⟩ | ⟨-, hold⟩
    · -- the pseudo-event has no trap
      rw [hev] at hevent
      cases hevent
    · exact .inl hold
  | stopped g howner hmem hw =>
    subst hw
    exact .inl (lookup_erase_eq_some.mp hk).2

/-- A registry request only ever allocates more, and serves the same client. -/
theorem RegistryStep.alloc {c : RegistryCall} (hs : RegistryStep w m c w' r) :
    w.nextAlloc ≤ w'.nextAlloc ∧ w'.scratchIdent = w.scratchIdent := by
  cases hs with
  | refused g new alloc fl hr hentry hnew hfl hw =>
    subst hw
    refine ⟨?_, rfl⟩
    show w.nextAlloc ≤ alloc
    rcases hfl with ⟨rfl, -⟩ | ⟨rfl, -⟩ <;> omega
  | registered g new ei hroom hid hobj hevent hactive hsync hnew hw =>
    subst hw
    exact ⟨Nat.le_succ _, rfl⟩
  | cleared g ei hei hw =>
    subst hw
    exact ⟨le_rfl, rfl⟩
  | unallocated g howner hw =>
    subst hw
    exact ⟨le_rfl, rfl⟩
  | started g new ei owner howner hid hobj hevent hnew hw =>
    subst hw
    exact ⟨Nat.le_succ _, rfl⟩
  | stopped g howner hmem hw =>
    subst hw
    exact ⟨le_rfl, rfl⟩

end Entries

/-! ### The invariant -/

section Invariant

variable {d : Drakvuf G}

/-- Operations that are not the registry's leave the traps installed. -/
theorem Performs.table {w w' : World (Traced G)} (h : Performs d.toEnv w w') :
    w'.guest.table = w.guest.table := by
  induction h with
  | refl => rfl
  | @exec w' _ op hop ih =>
    rw [← ih]
    cases op
    case addTrap | removeTrap | newSyscalls => cases hop
    all_goals rfl

/-- The invariant depends on the registry and the table of traps only. -/
theorem TrapInv.congr {w w' : World (Traced G)} (h : TrapInv w) (hevents : w'.events = w.events)
    (halloc : w'.nextAlloc = w.nextAlloc) (hfreed : w'.freed = w.freed)
    (howner : w'.syscallPluginOwner = w.syscallPluginOwner)
    (htable : w'.guest.table = w.guest.table) : TrapInv w' := by
  refine ⟨⟨?_, ?_, ?_, ?_, ?_, ?_⟩, ?_, ?_, ?_⟩
  · rw [hevents]; exact h.entries.key
  · rw [hevents, halloc]; exact h.entries.below
  · rw [hevents]; exact h.entries.distinct
  · rw [hevents, hfreed]; exact h.entries.live
  · rw [hfreed, halloc]; exact h.entries.freedBelow
  · rw [hfreed]; exact h.entries.freedOnce
  · rw [hevents]; exact h.data
  · rw [howner, htable]; exact h.running
  · rw [hevents, howner, htable]; exact h.installed

/-- What holds in the middle of a message of `u` that started with the allocations below `n`:
    an entry with a trap belongs to its creator, or to `u` when it is newer. -/
structure Serving (creator : ℕ → Option Uuid) (u : Uuid) (n : ℕ) (w : World (Traced G)) :
    Prop where
  traps : TrapInv w
  served : w.scratchIdent = u.identR
  alloc : n ≤ w.nextAlloc
  owned : ∀ k ei tr, w.events.lookup k = some ei → ei.event = some tr →
    ∃ v, creatorAfter creator u n w.nextAlloc ei.obj = some v ∧ ei.owner = some v.identD

/-- **One call** of a message that stops no plugin. -/
theorem Serving.call {creator : ℕ → Option Uuid} {u : Uuid} {n t index : ℕ}
    {msgIn msgOut out : VMIMessage} {l l' : LinkState} {w w' : World (Traced G)}
    (h : Serving creator u n w) (ht : t ≠ Call.stopSyscall.num)
    (hs : processSingle d.toEnv t index msgIn msgOut l w = .ok (l', w', out)) :
    Serving creator u n w' := by
  rcases processSingle_effect hs with hoperates | ⟨b, rfl⟩ | ⟨c, rc, m, r, rfl, hreg, hcore⟩
  · have htable := hoperates.performs.table
    obtain ⟨g, new, rfl, -⟩ := hoperates.performs.frame
    exact ⟨h.traps.congr rfl rfl rfl rfl htable, h.served, h.alloc, h.owned⟩
  · exact ⟨h.traps.congr rfl rfl rfl rfl rfl, h.served, h.alloc, h.owned⟩
  · have hstep := registry_step hcore
    obtain ⟨hle, hserved⟩ := hstep.alloc
    have hleaves : rc = .stopSyscall → w.syscallPluginOwner = none := by
      rintro rfl
      cases c <;> cases hreg
      exact absurd rfl ht
    refine ⟨h.traps.step hleaves hstep (trap_step hcore), hserved.trans h.served,
      h.alloc.trans hle, fun k ei tr hk hevent => ?_⟩
    have hbelow : ei.obj < w'.nextAlloc :=
      (h.traps.step hleaves hstep (trap_step hcore)).entries.below k ei hk
    rcases registry_owner hcore hk hevent with hold | ⟨hobj, owner, howner, hei⟩
    · -- an entry that was there before
      obtain ⟨v, hv, hei⟩ := h.owned k ei tr hold hevent
      refine ⟨v, ?_, hei⟩
      have hlt : ei.obj < w.nextAlloc := h.traps.entries.below k ei hold
      rw [← hv]
      unfold creatorAfter
      by_cases hn : n ≤ ei.obj
      · rw [if_pos ⟨hn, hbelow⟩, if_pos ⟨hn, hlt⟩]
      · rw [if_neg (fun hc => hn hc.1), if_neg (fun hc => hn hc.1)]
    · -- the registration that this request has made
      rw [h.served, u.ownerOf_identR] at howner
      cases howner
      have hn : n ≤ ei.obj := hobj ▸ h.alloc
      refine ⟨u, ?_, hei⟩
      unfold creatorAfter
      rw [if_pos ⟨hn, hbelow⟩]

/-- **The invariant.** The traps match the registry, and every entry with a trap belongs to the
    app that created it. -/
structure OwnedInv (s : Clientele G) : Prop where
  traps : TrapInv s.vmi
  owned : ∀ k ei tr, s.vmi.events.lookup k = some ei → ei.event = some tr →
    ∃ u, s.creator ei.obj = some u ∧ ei.owner = some u.identD

/-- A message is served. -/
theorem OwnedInv.message {s : Clientele G} (h : OwnedInv s) {u : Uuid} {m out : VMIMessage}
    {w' : World (Traced G)} (hm : Call.stopSyscall.num ∉ m.type)
    (hrun : processProtobuf d.toEnv m { s.vmi with scratchIdent := cStr u.identR } =
      .ok (w', out)) :
    OwnedInv ⟨w', creatorAfter s.creator u s.vmi.nextAlloc w'.nextAlloc⟩ := by
  have hserving : ∀ {i l w out},
      Reaches d.toEnv m { s.vmi with scratchIdent := cStr u.identR } i l w out →
      Serving s.creator u s.vmi.nextAlloc w := by
    intro i l w out hreach
    induction hreach with
    | start =>
      refine ⟨h.traps.congr rfl rfl rfl rfl rfl, u.cStr_identR, le_rfl, fun k ei tr hk hevent => ?_⟩
      obtain ⟨v, hv, hei⟩ := h.owned k ei tr hk hevent
      refine ⟨v, ?_, hei⟩
      -- nothing has been allocated yet
      unfold creatorAfter
      rw [if_neg fun hnew => absurd hnew.1 (not_le.mpr hnew.2)]
      exact hv
    | next hreach herr ht hs ih =>
      refine ih.call ?_ hs
      rintro rfl
      exact hm (List.mem_of_getElem? ht)
  obtain ⟨i, l, hreach, -⟩ := reaches_of_processProtobuf hrun
  exact ⟨(hserving hreach).traps, (hserving hreach).owned⟩

/-- A callback changes the guest at most. -/
theorem eventCallback_frame {t : Trap} {w w' : World (Traced G)} {em : Option EventMessage}
    (h : eventCallback d.toEnv t w = some (w', em)) : Performs d.toEnv w w' := by
  unfold eventCallback at h
  split at h
  · cases h
  · split at h
    · cases h
      exact .refl
    · split at h
      · cases h
      · split at h
        · cases h
          exact .one rfl
        · cases h
          exact .refl

theorem OwnedInv.step {s s' : Clientele G} {a : Occasion G} (h : OwnedInv s)
    (hkeeps : KeepsPlugin a) (hs : ClientStep d s a s') : OwnedInv s' := by
  cases hs with
  | message hrun => exact h.message hkeeps hrun
  | guestRuns g => exact ⟨h.traps.congr rfl rfl rfl rfl rfl, h.owned⟩
  | fires ht hcall =>
    have hperforms := eventCallback_frame hcall
    have htable := hperforms.table
    obtain ⟨g, new, rfl, -⟩ := hperforms.frame
    exact ⟨h.traps.congr rfl rfl rfl rfl htable, h.owned⟩

theorem ownedInv_reach {s : Clientele G}
    (h : Reach (clientSystem d) (fun _ a => KeepsPlugin a) s) : OwnedInv s := by
  refine h.invariant OwnedInv ?_ ?_
  · rintro s ⟨g, rfl⟩
    refine ⟨trapInv_initial g, ?_⟩
    intro k ei tr hk
    simp [World.initial] at hk
  · intro s a s' hinv hkeeps hs
    exact hinv.step hkeeps hs

end Invariant

/-! ### Where events go -/

/-- **An event goes to the app that registered it.** In every run of apps that register and
    clear events (and do anything else but stop a syscall plugin), whenever an installed trap
    fires its callback finds the registration through the raw pointer; and an event that it
    sends carries the identifier of a live registration, of that very trap, and is addressed to
    the DEALER socket of the app whose message created the registration. -/
theorem events_to_owner {d : Drakvuf G} {s : Clientele G}
    (h : Reach (clientSystem d) (fun _ a => KeepsPlugin a) s) {t : Trap}
    (ht : .event t ∈ s.vmi.guest.table.installed) :
    ∃ w' em, eventCallback d.toEnv t s.vmi = some (w', em) ∧
      ∀ e, em = some e → ∃ ei u, s.vmi.events.lookup e.identifier = some ei ∧
        ei.event = some t ∧ s.creator ei.obj = some u ∧ e.owner = u.identD := by
  have hinv : OwnedInv s := ownedInv_reach h
  obtain ⟨k, ei, tr, hk, hevent, heq⟩ : EntryTrap s.vmi.events (.event t) := by
    rcases (hinv.traps.installed _).mp ht with hentry | ⟨-, hplugin⟩
    · exact hentry
    · -- the trap of an event is not the plugin's
      cases hplugin
  cases heq
  obtain ⟨u, hu, howner⟩ := hinv.owned k ei t hk hevent
  have hdata : t.data = ei.obj := hinv.traps.data k ei t hk hevent
  have hitem : eventItemAt s.vmi t.data = some ei := by
    rw [hdata]
    exact eventItemAt_obj hinv.traps.entries hk
  have hid : ei.id = k := hinv.traps.entries.key k ei hk
  have hlive : s.vmi.events.lookup ei.id = some ei := hid ▸ hk
  unfold eventCallback
  rw [hitem]
  dsimp only
  by_cases hmasked : (s.vmi.eventsActive == false || ei.active == false) = true
  · rw [if_pos hmasked]
    refine ⟨_, _, rfl, fun e he => ?_⟩
    cases he
  · rw [if_neg hmasked, howner]
    dsimp only
    by_cases hsync : ei.syncState = fSync
    · rw [if_pos hsync]
      refine ⟨_, _, rfl, fun e he => ?_⟩
      cases he
      exact ⟨ei, u, hlive, hevent, hu, rfl⟩
    · rw [if_neg hsync]
      refine ⟨_, _, rfl, fun e he => ?_⟩
      cases he
      exact ⟨ei, u, hlive, hevent, hu, rfl⟩

/-- An app. -/
def someApp : Uuid := ⟨[102, 48], by decide⟩

/-- It starts the events and registers one for CR3. -/
def startAndRegister : VMIMessage :=
  (VMIMessage.empty.addCall .eventsStart Msg.empty).addCall .eventRegister
    ((Msg.empty.set .eventType (.enum fReg)).set .regValue (.enum fCr3))

/-- The trap that this registration sets. -/
def firstTrap : Trap := ⟨.cr3, 0⟩

/-- An app's event comes back to it. -/
theorem events_to_owner_registered :
    ∃ s : Clientele Unit, s.vmi.eventsActive = true ∧ s.creator 0 = some someApp ∧
      ∃ w' em, eventCallback echoDrakvuf.toEnv firstTrap s.vmi = some (w', em) ∧
        ∀ e, em = some e → ∃ ei u, s.vmi.events.lookup e.identifier = some ei ∧
          ei.event = some firstTrap ∧ s.creator ei.obj = some u ∧ e.owner = u.identD := by
  have hrun : ∃ w out, processProtobuf echoDrakvuf.toEnv startAndRegister
      { freshPartition with scratchIdent := cStr someApp.identR } = .ok (w, out) ∧
      w.eventsActive = true ∧ w.nextAlloc = 1 ∧
      .event firstTrap ∈ w.guest.table.installed := by
    refine ⟨_, _, rfl, rfl, rfl, ?_⟩
    decide
  obtain ⟨w, out, hrun, hactive, halloc, hmem⟩ := hrun
  have hkeeps : KeepsPlugin (.message someApp startAndRegister : Occasion Unit) := by
    show Call.stopSyscall.num ∉ startAndRegister.type
    decide
  have hreach : Reach (clientSystem echoDrakvuf) (fun _ a => KeepsPlugin a) _ :=
    .step (.init ⟨(), rfl⟩) hkeeps (.message hrun)
  refine ⟨_, hactive, ?_, events_to_owner hreach hmem⟩
  show creatorAfter _ someApp 0 w.nextAlloc 0 = _
  rw [halloc]
  rfl

end Furnace.Vmi
