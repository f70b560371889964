import Furnace.Vmi.Frame
import Furnace.Vmi.Masking
import Furnace.Vmi.PluginRegistry

namespace Furnace.Vmi

open Furnace.Proto Furnace.Lib

/-!
# The event map

The `events` map over runs of requests: its keys, the identifiers stored in its entries and
those reported to the clients stay in step, and its size is bounded by `max_events` where the
bound is checked.

* `MapKept` — what one registry request may do to the map.
* `events_representation` — **every entry sits under its own identifier**, and every request
  of every run keeps to `MapKept`.
* `events_limit` — the map stays within `max_events` in every run that starts no syscall plugin
  while the map is full; `startSyscall` does not check the limit that `event_register` checks.
-/

variable {G : Type}

/-! ### Keys and identifiers -/

/-- The reply tells the client of a failure: by the error flag, or by its status. -/
def Reply.Refused (r : Reply) : Prop :=
  r.errorNum ≠ none ∨ ∃ m, r.entry = some m ∧ m.i32? .status = some Status.failure.code

/-- Every entry is stored under its own identifier. -/
def KeysMatch (events : AList fun _ : ℕ => EventItem) : Prop :=
  ∀ k ei, events.lookup k = some ei → ei.id = k

/-- **What one registry request may do** to the map of `w`, which is that of `w'` afterwards. -/
structure MapKept (w : World G) (a : Request) (w' : World G) (r : Reply) : Prop where
  /-- A new entry is in the slot that was the lowest free one. -/
  lowest : ∀ k ei, w'.events.lookup k = some ei →
    w.events.lookup k = some ei ∨ IsLeast {i | i ∉ w.events} k
  /-- A request that is refused leaves the map as it was. -/
  refused : r.Refused → w'.events = w.events
  /-- A registration changes no entry but the one whose identifier it returns. -/
  registered : a.call = .eventRegister → ¬ r.Refused →
    ∃ m id, r.entry = some m ∧ m.u64? .identifier = some id ∧
      ∀ k, k ≠ id.toNat → w'.events.lookup k = w.events.lookup k
  /-- A clear changes no entry but the one whose identifier it was given. -/
  cleared : a.call = .eventClear → ¬ r.Refused →
    ∀ k, k ≠ identifier a.m → w'.events.lookup k = w.events.lookup k

theorem keysMatch_initial (g : G) : KeysMatch (World.initial g).events := by
  intro k ei h
  simp [World.initial] at h

theorem KeysMatch.insert {events : AList fun _ : ℕ => EventItem} (h : KeysMatch events)
    (ei : EventItem) : KeysMatch (events.insert ei.id ei) := by
  intro k e hk
  rcases lookup_insert_eq_some.mp hk with ⟨rfl, rfl⟩ | ⟨-, hold⟩
  · rfl
  · exact h k e hold

theorem KeysMatch.erase {events : AList fun _ : ℕ => EventItem} (h : KeysMatch events) (k : ℕ) :
    KeysMatch (events.erase k) :=
  fun k' e hk' => h k' e (lookup_erase_eq_some.mp hk').2

section Step

variable {w w' : World G} {m : Msg} {c : RegistryCall} {r : Reply}

/-- One request keeps entries under their identifiers. -/
theorem RegistryStep.keysMatch (hs : RegistryStep w m c w' r) (h : KeysMatch w.events) :
    KeysMatch w'.events := by
  cases hs with
  | refused g new alloc fl hr hentry hnew hfl hw =>
    subst hw
    exact h
  | registered g new ei hroom hid hobj hevent hactive hsync hnew hw =>
    subst hw
    exact h.insert ei
  | cleared g ei hei hw =>
    subst hw
    exact h.erase ei.id
  | unallocated g howner hw =>
    subst hw
    exact h
  | started g new ei owner howner hid hobj hevent hnew hw =>
    subst hw
    exact h.insert ei
  | stopped g howner hmem hw =>
    subst hw
    exact h.erase _

/-- A reply with a success status and no error is not a refusal. -/
theorem Reply.not_refused_ok {m : Msg} (h : m.i32? .status = some Status.success.code) :
    ¬ (Reply.ok m).Refused := by
  rintro (hnum | ⟨m', hm', hfail⟩)
  · exact hnum rfl
  · cases hm'
    rw [h] at hfail
    cases hfail

/-- An entry goes into the lowest free slot, and the others stay. -/
theorem lowest_insert {events : AList fun _ : ℕ => EventItem} {ei e : EventItem} {k : ℕ}
    (hid : ei.id = firstFree events) (hk : (events.insert ei.id ei).lookup k = some e) :
    events.lookup k = some e ∨ IsLeast {i | i ∉ events} k := by
  rcases lookup_insert_eq_some.mp hk with ⟨rfl, -⟩ | ⟨-, hold⟩
  · right
    rw [hid]
    exact firstFree_isLeast events
  · exact .inl hold

/-- An identifier that `event_register` hands out survives the 64 bits of its field. -/
theorem toNat_firstFree {events : AList fun _ : ℕ => EventItem}
    (hroom : events.entries.length < maxEvents) :
    (UInt64.ofNat (firstFree events)).toNat = firstFree events := by
  have hle : firstFree events ≤ events.entries.length := firstFree_le_length events
  have hmax : maxEvents = 200 := rfl
  rw [UInt64.toNat_ofNat']
  omega

/-- **One request keeps to the map's rules.** -/
theorem RegistryStep.mapKept {a : Request} (hs : RegistryStep w a.m a.call w' r)
    (h : KeysMatch w.events) : MapKept w a w' r := by
  obtain ⟨ident, call, m⟩ := a
  cases hs with
  | refused g new alloc fl hr hentry hnew hfl hw =>
    subst hw
    have hrefused : r.Refused := .inl hr.1
    exact ⟨fun k ei hk => .inl hk, fun _ => rfl, fun _ hnot => absurd hrefused hnot,
      fun _ hnot => absurd hrefused hnot⟩
  | registered g new ei hroom hid hobj hevent hactive hsync hnew hw =>
    subst hw
    refine ⟨fun k e hk => lowest_insert hid hk, fun hr => ?_, fun _ _ => ?_, fun hcall => ?_⟩
    · exact absurd hr (Reply.not_refused_ok rfl)
    · refine ⟨_, .ofNat ei.id, rfl, rfl, fun k hk => ?_⟩
      rw [hid, toNat_firstFree hroom, ← hid] at hk
      exact AList.lookup_insert_ne hk
    · cases hcall
  | cleared g ei hei hw =>
    subst hw
    refine ⟨fun k e hk => .inl (lookup_erase_eq_some.mp hk).2, fun hr => ?_, fun hcall => ?_,
      fun _ _ k hk => ?_⟩
    · exact absurd hr (Reply.not_refused_ok rfl)
    · cases hcall
    · -- the slot that is emptied is the one that was found
      rw [← h _ _ hei] at hk
      exact AList.lookup_erase_ne hk
  | unallocated g howner hw =>
    subst hw
    refine ⟨fun k ei hk => .inl hk, fun _ => rfl, fun hcall => ?_, fun hcall => ?_⟩
    · cases hcall
    · cases hcall
  | started g new ei owner howner hid hobj hevent hnew hw =>
    subst hw
    refine ⟨fun k e hk => lowest_insert hid hk, fun hr => ?_, fun hcall => ?_, fun hcall => ?_⟩
    · exact absurd hr (Reply.not_refused_ok rfl)
    · cases hcall
    · cases hcall
  | stopped g howner hmem hw =>
    subst hw
    refine ⟨fun k e hk => .inl (lookup_erase_eq_some.mp hk).2, fun hr => ?_, fun hcall => ?_,
      fun hcall => ?_⟩
    · exact absurd hr (Reply.not_refused_ok rfl)
    · cases hcall
    · cases hcall

end Step

/-- Every run of requests keeps entries under their identifiers. -/
theorem keysMatch_reach {env : Env G} {w : World G}
    (h : Reach (registrySystem env) (fun _ _ => True) w) : KeysMatch w.events := by
  refine h.invariant (fun w => KeysMatch w.events) ?_ ?_
  · rintro w ⟨g, rfl⟩
    exact keysMatch_initial g
  · rintro w a w' hinv - ⟨g, r, hserve⟩
    exact (registry_step hserve).keysMatch hinv

/-- **The map's representation.** In every state of every run of registry requests, each entry
    sits under its own identifier; and whatever is asked next of whichever guest, the new entry
    gets the lowest free slot, a refused request leaves the map alone, and a registration or a
    clear touches no entry but its own. -/
theorem events_representation {env : Env G} {w : World G}
    (h : Reach (registrySystem env) (fun _ _ => True) w) :
    KeysMatch w.events ∧
    ∀ g a w' r, serve env a { w with guest := g } = .ok (w', r) → MapKept w a w' r := by
  have hkeys : KeysMatch w.events := keysMatch_reach h
  refine ⟨hkeys, fun g a w' r hserve => ?_⟩
  have hkept : MapKept { w with guest := g, scratchIdent := a.ident } a w' r :=
    (registry_step hserve).mapKept hkeys
  exact ⟨hkept.lowest, hkept.refused, hkept.registered, hkept.cleared⟩

/-- The rules at the state a started plugin leaves. -/
theorem events_representation_started :
    ∃ w : World Unit, w.events.lookup 0 ≠ none ∧ KeysMatch w.events ∧
      ∀ g a w' r, serve echoEnv a { w with guest := g } = .ok (w', r) → MapKept w a w' r := by
  have hrun : ∃ w r, serve echoEnv startRequest { World.initial () with guest := () } = .ok (w, r) ∧
      w.events.lookup 0 ≠ none := by
    refine ⟨_, _, rfl, ?_⟩
    decide
  obtain ⟨w, r, hserve, hbound⟩ := hrun
  have hreach : Reach (registrySystem echoEnv) (fun _ _ => True) w :=
    .step (.init ⟨(), rfl⟩) trivial ⟨(), r, hserve⟩
  exact ⟨w, hbound, events_representation hreach⟩

/-! ### The limit -/

section Limit

variable {env : Env G}

/-- No `START_SYSCALL` of the message is served, and given its memory, while the map is full
    and no plugin runs. -/
def RespectsLimit (env : Env G) (s : Partition G) : Stimulus G → Prop
  | .message ident m => m.type.length ≤ maxTypes → ∀ i l w out,
      Reaches env m { s.vmi with scratchIdent := ident } i l w out → out.error = none →
      m.type[i]? = some Call.startSyscall.num → w.syscallPluginOwner = none →
      (w.exec env (.malloc .eventItem)).1 = true → w.events.entries.length < maxEvents
  | _ => True

/-- Without memory for the pseudo-event, `start_syscall` leaves the map alone. -/
theorem startSyscall_unallocated {w w' : World G} {m : Msg} {r : Reply}
    (halloc : ¬(w.exec env (.malloc .eventItem)).1 = true)
    (h : startSyscallBody env (.ok m) w = .ok (w', r)) : w'.events = w.events := by
  cases startSyscall_cases h with
  | running | noMemory => rfl
  | started owner _ hmalloc => exact absurd hmalloc halloc

/-- One registry request keeps to the limit, unless it starts the plugin in a full map. -/
theorem registry_limit {w w' : World G} {m : Msg} {c : RegistryCall} {r : Reply}
    (h : w.events.entries.length ≤ maxEvents)
    (hstart : c = .startSyscall → w.syscallPluginOwner = none →
      (w.exec env (.malloc .eventItem)).1 = true → w.events.entries.length < maxEvents)
    (hs : c.handler.core env (.ok m) w = .ok (w', r)) :
    w'.events.entries.length ≤ maxEvents := by
  have herase : ∀ k, (w.events.erase k).entries.length ≤ maxEvents := by
    intro k
    refine le_trans ?_ h
    by_cases hk : k ∈ w.events
    · have := length_erase_of_mem w.events hk
      omega
    · show (w.events.entries.kerase k).length ≤ _
      rw [List.kerase_of_notMem_keys hk]
  have hinsert : ∀ ei : EventItem, ei.id = firstFree w.events →
      w.events.entries.length < maxEvents →
      (w.events.insert ei.id ei).entries.length ≤ maxEvents := by
    intro ei hid hroom
    rw [hid, length_insert_of_not_mem _ _ (firstFree_not_mem w.events)]
    omega
  cases registry_step hs with
  | refused g new alloc fl hr hentry hnew hfl hw =>
    subst hw
    exact h
  | registered g new ei hroom hid hobj hevent hactive hsync hnew hw =>
    subst hw
    exact hinsert ei hid hroom
  | cleared g ei hei hw =>
    subst hw
    exact herase ei.id
  | unallocated g howner hw =>
    subst hw
    exact h
  | started g new ei owner howner hid hobj hevent hnew hw =>
    by_cases halloc : (w.exec env (.malloc .eventItem)).1 = true
    · -- the memory is there, so the map has room
      subst hw
      exact hinsert ei hid (hstart rfl howner halloc)
    · have hbody : startSyscallBody env (.ok m) w = _ := hs
      rw [startSyscall_unallocated halloc hbody]
      exact h
  | stopped g howner hmem hw =>
    subst hw
    exact herase _

/-- One call of a message keeps to the limit. -/
theorem processSingle_limit {t index : ℕ} {msgIn msgOut out : VMIMessage} {l l' : LinkState}
    {w w' : World G} (h : w.events.entries.length ≤ maxEvents)
    (hstart : t = Call.startSyscall.num → w.syscallPluginOwner = none →
      (w.exec env (.malloc .eventItem)).1 = true → w.events.entries.length < maxEvents)
    (hs : processSingle env t index msgIn msgOut l w = .ok (l', w', out)) :
    w'.events.entries.length ≤ maxEvents := by
  rcases processSingle_effect hs with hoperates | ⟨b, rfl⟩ | ⟨c, rc, m, r, rfl, hreg, hcore⟩
  · obtain ⟨g, new, rfl, -⟩ := hoperates.performs.frame
    exact h
  · exact h
  · refine registry_limit h ?_ hcore
    rintro rfl
    apply hstart
    cases c <;> cases hreg
    rfl

/-- **Inside a message** that respects the limit, the map stays within it. -/
theorem limit_of_reaches {s : Partition G} {ident : Bytes} {m : VMIMessage}
    (h : s.vmi.events.entries.length ≤ maxEvents) (hlen : m.type.length ≤ maxTypes)
    (hm : RespectsLimit env s (.message ident m)) {i : ℕ} {l : LinkState} {w : World G}
    {out : VMIMessage} (hreach : Reaches env m { s.vmi with scratchIdent := ident } i l w out) :
    w.events.entries.length ≤ maxEvents := by
  induction hreach with
  | start => exact h
  | next hreach herr ht hs ih =>
    refine processSingle_limit ih ?_ hs
    rintro rfl
    exact hm hlen _ _ _ _ hreach herr ht

/-- An event callback leaves the map alone. -/
theorem notify_events (s : Partition G) (id syncState : ℕ) (owner : Bytes) :
    (s.notify env id syncState owner).vmi.events = s.vmi.events := by
  unfold Partition.notify
  split <;> rfl

theorem trapFires_events {s s' : Partition G} {k : ℕ} (h : s.trapFires env k = some s') :
    s'.vmi.events = s.vmi.events := by
  unfold Partition.trapFires at h
  split at h
  · cases h
  · split at h
    · split at h
      · cases h
        rfl
      · cases h
        exact notify_events ..
    · cases h

theorem syscallTraced_events {s s' : Partition G} (h : s.syscallTraced env = some s') :
    s'.vmi.events = s.vmi.events := by
  unfold Partition.syscallTraced at h
  split at h
  · split at h
    · cases h
      exact notify_events ..
    · cases h
  · cases h

theorem limit_step {s s' : Partition G} {a : Stimulus G}
    (h : s.vmi.events.entries.length ≤ maxEvents) (hlimit : RespectsLimit env s a)
    (hs : PartitionStep env s a s') : s'.vmi.events.entries.length ≤ maxEvents := by
  cases hs with
  | @message ident m out w' i l hrun hreach hend =>
    by_cases hlong : maxTypes < m.type.length
    · -- nothing is processed
      rw [Finished, if_pos hlong] at hend
      subst hend
      cases hreach
      exact h
    · exact limit_of_reaches h (by omega) hlimit hreach
  | guestRuns g => exact h
  | trap hs =>
    rw [trapFires_events hs]
    exact h
  | syscall hs =>
    rw [syscallTraced_events hs]
    exact h

end Limit

/-! A client fills the map. -/

/-- A registration of a CR3 event. -/
def registerCr3 : VMIMessage :=
  VMIMessage.empty.addCall .eventRegister
    ((Msg.empty.set .eventType (.enum fReg)).set .regValue (.enum fCr3))

/-- A message of one call that is not `START_SYSCALL` respects the limit. -/
theorem registerCr3_respectsLimit (s : Partition Unit) (ident : Bytes) :
    RespectsLimit echoEnv s (.message ident registerCr3) := by
  intro _ i l w out _ _ ht
  have hmem : Call.startSyscall.num ∈ registerCr3.type := List.mem_of_getElem? ht
  exact absurd hmem (by decide)

/-- A registration that finds room adds an entry. -/
theorem registerCr3_run (w : World Unit) (hroom : w.events.entries.length < maxEvents) :
    ∃ w' out,
      processProtobuf echoEnv registerCr3 { w with scratchIdent := someClient } = .ok (w', out) ∧
      w'.events.entries.length = w.events.entries.length + 1 ∧
      w'.syscallPluginOwner = w.syscallPluginOwner := by
  have hnot : ¬ maxEvents ≤ w.events.entries.length := by omega
  have hbody : ∃ w' r, eventRegisterBody echoEnv
      (.ok ((Msg.empty.set .eventType (.enum fReg)).set .regValue (.enum fCr3)))
        { w with scratchIdent := someClient } = .ok (w', r) ∧
      (∃ ei, w'.events = w.events.insert (firstFree w.events) ei) ∧
      w'.syscallPluginOwner = w.syscallPluginOwner := by
    unfold eventRegisterBody
    rw [if_neg hnot]
    exact ⟨_, _, rfl, ⟨_, rfl⟩, rfl⟩
  obtain ⟨w', r, hbody, ⟨ei, hevents⟩, howner⟩ := hbody
  refine ⟨w', record VMIMessage.empty Call.eventRegister.replyNum r 0, ?_, ?_, howner⟩
  · unfold registerCr3
    rw [processProtobuf_addCall_body rfl]
    show Except.map _ (eventRegisterBody _ _ _) = _
    rw [hbody]
    rfl
  · rw [hevents, length_insert_of_not_mem _ _ (firstFree_not_mem w.events)]

/-- The start of the plugin respects the limit where there is room. -/
theorem startTracing_respectsLimit {s : Partition Unit} (ident : Bytes)
    (hroom : s.vmi.events.entries.length < maxEvents) :
    RespectsLimit echoEnv s (.message ident startTracing) := by
  intro _ i l w out hreach _ ht
  have hi : i < 1 := (List.getElem?_eq_some_iff.mp ht).1
  obtain rfl : i = 0 := by omega
  cases hreach
  exact fun _ _ => hroom

/-- Starting the plugin adds an entry, however many there are. -/
theorem startTracing_run (w : World Unit) (howner : w.syscallPluginOwner = none) :
    ∃ w' out,
      processProtobuf echoEnv startTracing { w with scratchIdent := someClient } = .ok (w', out) ∧
      w'.events.entries.length = w.events.entries.length + 1 := by
  have hbody : ∃ w' r, startSyscallBody echoEnv (.ok Msg.empty)
        { w with scratchIdent := someClient } = .ok (w', r) ∧
      ∃ ei, w'.events = w.events.insert (firstFree w.events) ei := by
    unfold startSyscallBody
    dsimp only
    rw [howner]
    exact ⟨_, _, rfl, ⟨_, rfl⟩⟩
  obtain ⟨w', r, hbody, ei, hevents⟩ := hbody
  refine ⟨w', record VMIMessage.empty Call.startSyscall.replyNum r 0, ?_, ?_⟩
  · unfold startTracing
    rw [processProtobuf_addCall_body rfl]
    show Except.map _ (startSyscallBody _ _ _) = _
    rw [hbody]
    rfl
  · rw [hevents, length_insert_of_not_mem _ _ (firstFree_not_mem w.events)]

/-- **The limit.** In every run, of any clients and any guest, in which no `START_SYSCALL` is
    served in a full map while no plugin runs, the map has at most `max_events` entries: in
    every state between two messages, and at every position of the next message. -/
theorem events_limit {env : Env G} {s : Partition G}
    (h : Reach (partitionSystem env) (RespectsLimit env) s) :
    s.vmi.events.entries.length ≤ maxEvents ∧
    ∀ ident m, RespectsLimit env s (.message ident m) → m.type.length ≤ maxTypes →
      ∀ i l w out, Reaches env m { s.vmi with scratchIdent := ident } i l w out →
        w.events.entries.length ≤ maxEvents := by
  have hbound : s.vmi.events.entries.length ≤ maxEvents := by
    refine h.invariant (fun s => s.vmi.events.entries.length ≤ maxEvents) ?_ ?_
    · rintro s ⟨g, rfl⟩
      exact Nat.zero_le _
    · intro s a s' hinv hlimit hs
      exact limit_step hinv hlimit hs
  exact ⟨hbound, fun ident m hm hlen i l w out hreach => limit_of_reaches hbound hlen hm hreach⟩

/-- After `n` registrations the map has `n` entries, and no plugin runs. -/
theorem registered_reach {guard : Partition Unit → Stimulus Unit → Prop}
    (hguard : ∀ s, guard s (.message someClient registerCr3)) (n : ℕ) (hn : n ≤ maxEvents) :
    ∃ s : Partition Unit, Reach (partitionSystem echoEnv) guard s ∧
      s.vmi.events.entries.length = n ∧ s.vmi.syscallPluginOwner = none := by
  induction n with
  | zero => exact ⟨{ vmi := World.initial () }, .init ⟨(), rfl⟩, rfl, rfl⟩
  | succ n ih =>
    obtain ⟨s, hreach, hlen, howner⟩ := ih (by omega)
    obtain ⟨w, out, hrun, hlen', howner'⟩ := registerCr3_run s.vmi (by omega)
    obtain ⟨s', hs', rfl⟩ := partitionStep_of_message hrun
    exact ⟨s', .step hreach (hguard s) hs', by omega, howner'.trans howner⟩

/-- The limit is reached by all registrations but one and the start of the plugin. -/
theorem events_limit_registered :
    ∃ s : Partition Unit, s.vmi.events.entries.length = maxEvents ∧
      s.vmi.events.entries.length ≤ maxEvents ∧
      ∀ ident m, RespectsLimit echoEnv s (.message ident m) → m.type.length ≤ maxTypes →
        ∀ i l w out, Reaches echoEnv m { s.vmi with scratchIdent := ident } i l w out →
          w.events.entries.length ≤ maxEvents := by
  obtain ⟨s, hreach, hlen, howner⟩ := registered_reach
    (fun s => registerCr3_respectsLimit s someClient) (maxEvents - 1) (Nat.sub_le ..)
  obtain ⟨w, out, hrun, hlen'⟩ := startTracing_run s.vmi howner
  obtain ⟨s', hs', rfl⟩ := partitionStep_of_message hrun
  have hroom : s.vmi.events.entries.length < maxEvents := by
    rw [hlen]
    decide
  have hfull : s'.vmi.events.entries.length = maxEvents := by
    rw [hlen', hlen]
    rfl
  exact ⟨s', hfull, events_limit (.step hreach (startTracing_respectsLimit _ hroom) hs')⟩

/-- **The limit is exceeded** by a client that fills the map and then starts the plugin. -/
theorem events_limit_fails :
    ¬∀ s : Partition Unit, Reach (partitionSystem echoEnv) (fun _ _ => True) s →
      s.vmi.events.entries.length ≤ maxEvents := by
  intro hall
  obtain ⟨s, hreach, hlen, howner⟩ := @registered_reach (fun _ _ => True) (fun _ => trivial)
    maxEvents le_rfl
  obtain ⟨w, out, hrun, hlen'⟩ := startTracing_run s.vmi howner
  obtain ⟨s', hs', rfl⟩ := partitionStep_of_message hrun
  have hbound := hall s' (.step hreach trivial hs')
  omega

end Furnace.Vmi
