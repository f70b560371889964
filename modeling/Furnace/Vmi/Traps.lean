import Mathlib.Data.Finset.Basic
import Furnace.Vmi.PluginRegistry

namespace Furnace.Vmi

open Furnace.Proto Furnace.Lib

/-!
# The traps in DRAKVUF

Which traps DRAKVUF has installed for Furnace.  An event sets one trap, which `event_clear`
removes.  The constructor of the syscall plugin sets a trap for each system call; its
destructor frees these traps and does not remove them.

* `Drakvuf` — a guest's DRAKVUF: adding a trap may fail, and nothing but adding and removing
  changes what is installed.  `Drakvuf.toEnv` is the environment it makes.
* `TrapsMatch` — the installed traps are those of the live entries, and those of the plugin
  exactly while it runs.
* `trapsMatch_reach` — the runs that do not stop the running plugin; `not_trapsMatch_stop` —
  a stop always leaves its traps behind.
-/

variable {G : Type}

/-! ### What is installed -/

/-- A trap that is installed for Furnace: the trap of an event, or the `i`th trap of the
    `n`th syscall plugin. -/
inductive Installed
  | event (t : Trap) | plugin (n i : ℕ)
  deriving DecidableEq

/-- The traps that are installed, how many plugins have been constructed, and the number of
    traps of the latest one. -/
structure TrapTable where
  installed : Finset Installed := ∅
  plugins : ℕ := 0
  pluginTraps : ℕ := 0

/-- A guest with DRAKVUF's traps in it. -/
structure Traced (G : Type) where
  inner : G
  table : TrapTable := {}

/-- DRAKVUF on a guest: `create_trap_config` makes so many traps (`0` when it gives NULL), and
    `drakvuf_add_trap` answers whether it has installed the trap. -/
structure Drakvuf (G : Type) where
  env : Env G
  trapConfig : G → ℕ
  addTrap : Installed → G → Bool × G

/-- A trap is installed. -/
def TrapTable.add (tab : TrapTable) (t : Installed) : TrapTable :=
  { tab with installed := insert t tab.installed }

/-- A trap is removed; NULL is no trap. -/
def TrapTable.remove (tab : TrapTable) : Option Trap → TrapTable
  | some t => { tab with installed := tab.installed.erase (.event t) }
  | none => tab

/-- The traps of the latest plugin. -/
def TrapTable.OfPlugin (tab : TrapTable) : Installed → Prop
  | .event _ => False
  | .plugin n i => n = tab.plugins ∧ i < tab.pluginTraps

namespace Drakvuf

/-- `drakvuf_add_trap`. -/
def add (d : Drakvuf G) (t : Installed) (g : Traced G) : Bool × Traced G :=
  ((d.addTrap t g.inner).1, ⟨(d.addTrap t g.inner).2,
    if (d.addTrap t g.inner).1 then g.table.add t else g.table⟩)

/-- The loop of `syscalls::syscalls` over its traps: it throws at the first that cannot be
    added. -/
def addAll (d : Drakvuf G) : List Installed → Traced G → Bool × Traced G
  | [], g => (true, g)
  | t :: ts, g =>
    let (added, g) := d.add t g
    if added then d.addAll ts g else (false, g)

/-- `syscalls::syscalls`. -/
def newSyscalls (d : Drakvuf G) (g : Traced G) : Bool × Traced G :=
  let count := d.trapConfig g.inner
  let n := g.table.plugins + 1
  let g := { g with table := { g.table with plugins := n, pluginTraps := count } }
  if count = 0 then (false, g)
  else d.addAll ((List.range count).map (.plugin n)) g

/-- The environment that DRAKVUF makes. -/
def toEnv (d : Drakvuf G) : Env (Traced G) where
  exec
    | .addTrap t, g => d.add (.event t) g
    | .removeTrap t, g => ((), ⟨(d.env.exec (.removeTrap t) g.inner).2, g.table.remove t⟩)
    | .newSyscalls, g => d.newSyscalls g
    -- among them the destructor, which only frees
    | op, g => ((d.env.exec op g.inner).1, ⟨(d.env.exec op g.inner).2, g.table⟩)
  fuel := d.env.fuel

theorem add_table_added {d : Drakvuf G} {t : Installed} {g : Traced G}
    (h : (d.add t g).1 = true) : (d.add t g).2.table = g.table.add t := by
  have hadded : (d.addTrap t g.inner).1 = true := h
  simp [add, hadded]

theorem add_table_refused {d : Drakvuf G} {t : Installed} {g : Traced G}
    (h : ¬ (d.add t g).1 = true) : (d.add t g).2.table = g.table := by
  have hrefused : ¬ (d.addTrap t g.inner).1 = true := h
  simp [add, hrefused]

/-- What the constructor leaves installed when it does not throw. -/
theorem addAll_spec {d : Drakvuf G} {ts : List Installed} {g : Traced G}
    (h : (d.addAll ts g).1 = true) :
    (∀ t, t ∈ (d.addAll ts g).2.table.installed ↔ t ∈ g.table.installed ∨ t ∈ ts) ∧
    (d.addAll ts g).2.table.plugins = g.table.plugins ∧
    (d.addAll ts g).2.table.pluginTraps = g.table.pluginTraps := by
  induction ts generalizing g with
  | nil => simp [addAll]
  | cons t ts ih =>
    have hadded : (d.addTrap t g.inner).1 = true := by
      by_contra hnot
      rw [addAll] at h
      simp [add, hnot] at h
    have hstep : d.addAll (t :: ts) g = d.addAll ts ⟨(d.addTrap t g.inner).2, g.table.add t⟩ := by
      rw [addAll]
      simp [add, hadded]
    rw [hstep] at h ⊢
    obtain ⟨hmem, hplugins, htraps⟩ := ih h
    refine ⟨fun t' => ?_, hplugins, htraps⟩
    rw [hmem t']
    simp only [TrapTable.add, Finset.mem_insert, List.mem_cons]
    tauto

/-- The traps of a plugin that has been constructed are installed. -/
theorem newSyscalls_spec {d : Drakvuf G} {g : Traced G} (h : (d.newSyscalls g).1 = true) :
    0 < (d.newSyscalls g).2.table.pluginTraps ∧
    ∀ t, t ∈ (d.newSyscalls g).2.table.installed ↔
      t ∈ g.table.installed ∨ (d.newSyscalls g).2.table.OfPlugin t := by
  unfold newSyscalls at h ⊢
  dsimp only at h ⊢
  by_cases hzero : d.trapConfig g.inner = 0
  · rw [if_pos hzero] at h
    cases h
  · rw [if_neg hzero] at h ⊢
    obtain ⟨hmem, hplugins, htraps⟩ := addAll_spec h
    refine ⟨by rw [htraps]; exact Nat.pos_of_ne_zero hzero, fun t => ?_⟩
    rw [hmem t]
    cases t with
    | event t => simp [TrapTable.OfPlugin]
    | plugin n i =>
      simp only [TrapTable.OfPlugin, hplugins, htraps, List.mem_map, List.mem_range,
        Installed.plugin.injEq]
      constructor
      · rintro (hold | ⟨j, hj, rfl, rfl⟩)
        · exact .inl hold
        · exact .inr ⟨rfl, hj⟩
      · rintro (hold | ⟨rfl, hi⟩)
        · exact .inl hold
        · exact .inr ⟨i, hi, rfl, rfl⟩

end Drakvuf

/-! ### What a request does to the traps -/

/-- **What one registry request does** to the entries and to the installed traps. -/
inductive TrapStep (w : World (Traced G)) : RegistryCall → World (Traced G) → Prop
  /-- Nothing, as a failed registration that has taken its entry back. -/
  | kept {c : RegistryCall} {w' : World (Traced G)} (hevents : w'.events = w.events)
      (howner : w'.syscallPluginOwner = w.syscallPluginOwner)
      (htable : w'.guest.table = w.guest.table) : TrapStep w c w'
  /-- An event is registered and its trap is installed. -/
  | installed {w' : World (Traced G)} (ei : EventItem) (t : Trap) (hevent : ei.event = some t)
      (hdata : t.data = ei.obj) (hobj : ei.obj = w.nextAlloc) (hid : ei.id = firstFree w.events)
      (hevents : w'.events = w.events.insert ei.id ei)
      (howner : w'.syscallPluginOwner = w.syscallPluginOwner)
      (htable : w'.guest.table = w.guest.table.add (.event t)) : TrapStep w .eventRegister w'
  /-- An entry is cleared and its trap is removed. -/
  | removed {w' : World (Traced G)} (k : ℕ) (ei : EventItem) (hei : w.events.lookup k = some ei)
      (hevents : w'.events = w.events.erase ei.id)
      (howner : w'.syscallPluginOwner = w.syscallPluginOwner)
      (htable : w'.guest.table = w.guest.table.remove ei.event) : TrapStep w .eventClear w'
  /-- The plugin is constructed. -/
  | started {w' : World (Traced G)} (ei : EventItem) (hevent : ei.event = none)
      (hid : ei.id = firstFree w.events) (hevents : w'.events = w.events.insert ei.id ei)
      (howner : w.syscallPluginOwner = none) (howner' : w'.syscallPluginOwner ≠ none)
      (htraps : 0 < w'.guest.table.pluginTraps)
      (htable : ∀ t, t ∈ w'.guest.table.installed ↔
        t ∈ w.guest.table.installed ∨ w'.guest.table.OfPlugin t) : TrapStep w .startSyscall w'
  /-- The plugin is deleted, and its traps stay. -/
  | stopped {w' : World (Traced G)} (howner : w.syscallPluginOwner ≠ none)
      (howner' : w'.syscallPluginOwner = none) (htable : w'.guest.table = w.guest.table) :
      TrapStep w .stopSyscall w'

section Inversion

variable {d : Drakvuf G} {m : Msg} {w w' : World (Traced G)} {r : Reply}

/-- The second half of a registration. -/
theorem addTrapFor_trapStep {kind : TrapKind} {obj : ℕ} {w₀ : World (Traced G)}
    (hobj : obj = w₀.nextAlloc) (hevents : w.events = w₀.events)
    (howner : w.syscallPluginOwner = w₀.syscallPluginOwner)
    (htable : w.guest.table = w₀.guest.table)
    (h : addTrapFor d.toEnv m kind obj w = .ok (w', r)) :
    TrapStep w₀ .eventRegister w' := by
  unfold addTrapFor at h
  obtain ⟨owner, -, h⟩ := bind_eq_ok.mp h
  dsimp only [addEvent] at h
  split at h
  · rename_i hadded
    obtain ⟨hw', -⟩ := Prod.mk.inj (Except.ok.inj h)
    refine .installed ⟨firstFree w₀.events, m.enumOr1 .syncState, true, some ⟨kind, obj⟩,
      some owner, obj⟩ ⟨kind, obj⟩ rfl rfl hobj rfl ?_ ?_ ?_
    · rw [← hw', ← hevents]
      rfl
    · rw [← hw', ← howner]
      rfl
    · rw [← hw', ← htable]
      exact Drakvuf.add_table_added hadded
  · rename_i hrefused
    obtain ⟨hw', -⟩ := Prod.mk.inj (Except.ok.inj h)
    refine .kept ?_ ?_ ?_
    · rw [← hw', ← hevents]
      exact erase_insert_of_not_mem _ _ (firstFree_not_mem w.events)
    · rw [← hw', ← howner]
      rfl
    · rw [← hw', ← htable]
      exact Drakvuf.add_table_refused hrefused

theorem eventRegister_trapStep (h : eventRegisterBody d.toEnv (.ok m) w = .ok (w', r)) :
    TrapStep w .eventRegister w' := by
  cases eventRegister_cases h with
  | trap kind hroom htrap => refine addTrapFor_trapStep ?_ ?_ ?_ ?_ htrap <;> rfl
  | full | noMemory | otherRegister | otherType => exact .kept rfl rfl rfl

theorem eventClear_trapStep (h : eventClearBody d.toEnv (.ok m) w = .ok (w', r)) :
    TrapStep w .eventClear w' := by
  obtain ⟨m', hm', h⟩ := bind_eq_ok.mp h
  cases hm'
  dsimp only at h
  split at h
  · rename_i ei hei
    cases h
    exact .removed _ ei hei rfl rfl rfl
  · cases h
    exact .kept rfl rfl rfl

theorem startSyscall_trapStep (h : startSyscallBody d.toEnv (.ok m) w = .ok (w', r)) :
    TrapStep w .startSyscall w' := by
  cases startSyscall_cases h with
  | running | noMemory => exact .kept rfl rfl rfl
  | started owner howner hmalloc hident hstarted hw =>
    obtain ⟨htraps, hmem⟩ := Drakvuf.newSyscalls_spec hstarted
    refine .started ⟨firstFree w.events, m.enumOr1 .syncState, true, none, none, w.nextAlloc⟩ rfl
      rfl ?_ howner ?_ ?_ ?_
    · rw [hw]
      rfl
    · rw [hw]
      exact Option.some_ne_none owner
    · rw [hw]
      exact htraps
    · rw [hw]
      exact hmem

/-- A running plugin is deleted, and the table of traps stays as it is. -/
theorem stopSyscall_running (h : stopSyscallBody d.toEnv (.ok m) w = .ok (w', r))
    (howner : w.syscallPluginOwner ≠ none) :
    w'.syscallPluginOwner = none ∧ w'.guest.table = w.guest.table := by
  unfold stopSyscallBody at h
  split at h
  · rename_i hnone
    exact absurd hnone howner
  · split at h
    · cases h
    · cases h
      exact ⟨rfl, rfl⟩

theorem stopSyscall_trapStep (h : stopSyscallBody d.toEnv (.ok m) w = .ok (w', r)) :
    TrapStep w .stopSyscall w' := by
  by_cases howner : w.syscallPluginOwner = none
  · unfold stopSyscallBody at h
    rw [howner] at h
    cases h
    exact .kept rfl rfl rfl
  · obtain ⟨howner', htable⟩ := stopSyscall_running h howner
    exact .stopped howner howner' htable

/-- **Every request is such a step.** -/
theorem trap_step {c : RegistryCall} (h : c.handler.core d.toEnv (.ok m) w = .ok (w', r)) :
    TrapStep w c w' := by
  cases c with
  | eventRegister => exact eventRegister_trapStep h
  | eventClear => exact eventClear_trapStep h
  | startSyscall => exact startSyscall_trapStep h
  | stopSyscall =>
    have hbody : stopSyscallBody d.toEnv (.ok m) w = .ok (w', r) := h
    exact stopSyscall_trapStep hbody

end Inversion

/-! ### The traps and the registry -/

/-- The trap of a live entry. -/
def EntryTrap (events : AList fun _ : ℕ => EventItem) (t : Installed) : Prop :=
  ∃ k ei tr, events.lookup k = some ei ∧ ei.event = some tr ∧ t = .event tr

/-- **The traps match the registry.** Installed are the traps of the live entries, and the
    plugin's traps exactly while it runs; no trap that calls back for the plugin is installed
    while the plugin has no owner. -/
structure TrapsMatch (w : World (Traced G)) : Prop where
  installed : ∀ t, t ∈ w.guest.table.installed ↔
    EntryTrap w.events t ∨ w.syscallPluginOwner ≠ none ∧ w.guest.table.OfPlugin t
  owned : ∀ n i, .plugin n i ∈ w.guest.table.installed → w.syscallPluginOwner ≠ none

/-- The VMI partition under registry requests, on a guest with DRAKVUF. -/
def trapSystem (d : Drakvuf G) : TransitionSystem (World (Traced G)) Request where
  init w := ∃ g, w = World.initial ⟨g, {}⟩
  step w a w' := ∃ g r,
    serve d.toEnv a { w with guest := { w.guest with inner := g } } = .ok (w', r)

/-- The request does not stop a running plugin. -/
def LeavesPlugin (w : World (Traced G)) (a : Request) : Prop :=
  a.call = .stopSyscall → w.syscallPluginOwner = none

/-- A new entry goes into a free slot and brings its trap. -/
theorem entryTrap_insert {events : AList fun _ : ℕ => EventItem} {ei : EventItem}
    (hid : ei.id = firstFree events) {t : Installed} :
    EntryTrap (events.insert ei.id ei) t ↔
      EntryTrap events t ∨ ∃ tr, ei.event = some tr ∧ t = .event tr := by
  constructor
  · rintro ⟨k, e, tr, hk, hevent, rfl⟩
    rcases lookup_insert_eq_some.mp hk with ⟨-, rfl⟩ | ⟨-, hold⟩
    · exact .inr ⟨tr, hevent, rfl⟩
    · exact .inl ⟨k, e, tr, hold, hevent, rfl⟩
  · rintro (⟨k, e, tr, hk, hevent, rfl⟩ | ⟨tr, hevent, rfl⟩)
    · -- the slot was free, so the entry is another one
      have hne : k ≠ ei.id := by
        rw [hid]
        exact ne_firstFree_of_lookup hk
      exact ⟨k, e, tr, lookup_insert_eq_some.mpr (.inr ⟨hne, hk⟩), hevent, rfl⟩
    · exact ⟨ei.id, ei, tr, lookup_insert_eq_some.mpr (.inl ⟨rfl, rfl⟩), hevent, rfl⟩

/-- The invariant: besides the entries, the trap of an entry names the entry, and a running
    plugin has traps. -/
structure TrapInv (w : World (Traced G)) : Prop where
  entries : Allocated w
  data : ∀ k ei tr, w.events.lookup k = some ei → ei.event = some tr → tr.data = ei.obj
  running : w.syscallPluginOwner ≠ none → 0 < w.guest.table.pluginTraps
  installed : ∀ t, t ∈ w.guest.table.installed ↔
    EntryTrap w.events t ∨ w.syscallPluginOwner ≠ none ∧ w.guest.table.OfPlugin t

theorem TrapInv.trapsMatch {w : World (Traced G)} (h : TrapInv w) : TrapsMatch w := by
  refine ⟨h.installed, fun n i hmem => ?_⟩
  rcases (h.installed _).mp hmem with ⟨k, ei, tr, -, -, heq⟩ | ⟨howner, -⟩
  · cases heq
  · exact howner

theorem trapInv_initial (g : G) : TrapInv (World.initial (⟨g, {}⟩ : Traced G)) where
  entries := allocated_initial _
  data := by simp [World.initial]
  running := by simp [World.initial]
  installed := by simp [World.initial, EntryTrap]

section Step

variable {w w' : World (Traced G)} {m : Msg} {c : RegistryCall} {r : Reply}

/-- A request that stops no running plugin keeps the entries allocated. -/
theorem Allocated.step (h : Allocated w) (hleaves : c = .stopSyscall → w.syscallPluginOwner = none)
    (hs : RegistryStep w m c w' r) : Allocated w' := by
  cases hs with
  | refused g new alloc fl hr hentry hnew hfl hw =>
    subst hw
    exact h.refused hfl rfl rfl rfl
  | registered g new ei hroom hid hobj hevent hactive hsync hnew hw =>
    subst hw
    exact h.insert hid hobj rfl rfl rfl
  | cleared g ei hei hw =>
    subst hw
    rw [h.key _ _ hei]
    exact h.erase hei rfl rfl rfl
  | unallocated g howner hw =>
    subst hw
    exact h.refused (.inl ⟨rfl, rfl⟩) rfl rfl (List.append_nil _).symm
  | started g new ei owner howner hid hobj hevent hnew hw =>
    subst hw
    exact h.insert hid hobj rfl rfl rfl
  | stopped g howner hmem hw => exact absurd (hleaves rfl) howner

/-- The traps of the entries after one of them has been cleared. -/
theorem TrapInv.entryTrap_erase (h : TrapInv w) {k : ℕ} {ei : EventItem}
    (hei : w.events.lookup k = some ei) {t : Installed} :
    EntryTrap (w.events.erase ei.id) t ↔
      EntryTrap w.events t ∧ ∀ tr, ei.event = some tr → t ≠ .event tr := by
  have hkey : ei.id = k := h.entries.key k ei hei
  rw [hkey]
  constructor
  · rintro ⟨k', e, tr, hk', hevent, rfl⟩
    obtain ⟨hne, hold⟩ := lookup_erase_eq_some.mp hk'
    refine ⟨⟨k', e, tr, hold, hevent, rfl⟩, fun tr' hevent' heq => ?_⟩
    -- one trap names one entry
    cases heq
    have hdata : tr.data = ei.obj := h.data k ei tr hei hevent'
    have hdata' : tr.data = e.obj := h.data k' e tr hold hevent
    exact hne (h.entries.distinct k' k e ei hold hei (hdata'.symm.trans hdata))
  · rintro ⟨⟨k', e, tr, hk', hevent, rfl⟩, hother⟩
    have hne : k' ≠ k := by
      rintro rfl
      rw [hei] at hk'
      cases hk'
      exact hother tr hevent rfl
    exact ⟨k', e, tr, lookup_erase_eq_some.mpr ⟨hne, hk'⟩, hevent, rfl⟩

/-- The table after a trap has been removed. -/
theorem mem_remove {tab : TrapTable} {t : Option Trap} {t' : Installed} :
    t' ∈ (tab.remove t).installed ↔ t' ∈ tab.installed ∧ ∀ tr, t = some tr → t' ≠ .event tr := by
  cases t with
  | none => simp [TrapTable.remove]
  | some tr =>
    simp only [TrapTable.remove, Finset.mem_erase, Option.some.injEq, forall_eq']
    exact and_comm

theorem ofPlugin_remove {tab : TrapTable} {t : Option Trap} {t' : Installed} :
    (tab.remove t).OfPlugin t' ↔ tab.OfPlugin t' := by
  cases t <;> cases t' <;> rfl

/-- **One request.** A request that does not stop the running plugin keeps the invariant. -/
theorem TrapInv.step (h : TrapInv w) (hleaves : c = .stopSyscall → w.syscallPluginOwner = none)
    (hr : RegistryStep w m c w' r) (hs : TrapStep w c w') : TrapInv w' := by
  have hentries : Allocated w' := h.entries.step hleaves hr
  cases hs with
  | kept hevents howner htable =>
    refine ⟨hentries, ?_, ?_, ?_⟩
    · rw [hevents]
      exact h.data
    · rw [howner, htable]
      exact h.running
    · rw [hevents, howner, htable]
      exact h.installed
  | installed ei t hevent hdata hobj hid hevents howner htable =>
    refine ⟨hentries, ?_, ?_, fun t' => ?_⟩
    · rw [hevents]
      intro k e tr hk htr
      rcases lookup_insert_eq_some.mp hk with ⟨-, rfl⟩ | ⟨-, hold⟩
      · rw [hevent] at htr
        cases htr
        exact hdata
      · exact h.data k e tr hold htr
    · rw [howner, htable]
      exact h.running
    · have hplugin : (w.guest.table.add (.event t)).OfPlugin t' ↔ w.guest.table.OfPlugin t' := by
        cases t' <;> rfl
      rw [hevents, howner, htable, entryTrap_insert hid, hplugin]
      simp only [TrapTable.add, Finset.mem_insert, h.installed t', hevent, Option.some.injEq,
        exists_eq_left']
      tauto
  | removed k ei hei hevents howner htable =>
    refine ⟨hentries, ?_, ?_, fun t' => ?_⟩
    · rw [hevents]
      exact fun k' e tr hk' => h.data k' e tr (lookup_erase_eq_some.mp hk').2
    · rw [howner, htable]
      cases ei.event <;> exact h.running
    · rw [hevents, howner, htable, h.entryTrap_erase hei, mem_remove, ofPlugin_remove,
        h.installed t']
      -- the trap of an event is not the plugin's
      have hother : w.guest.table.OfPlugin t' → ∀ tr, ei.event = some tr → t' ≠ .event tr := by
        rintro hplugin tr - rfl
        exact hplugin
      tauto
  | started ei hevent hid hevents howner howner' htraps htable =>
    refine ⟨hentries, ?_, fun _ => htraps, fun t' => ?_⟩
    · rw [hevents]
      intro k e tr hk htr
      rcases lookup_insert_eq_some.mp hk with ⟨-, rfl⟩ | ⟨-, hold⟩
      · rw [hevent] at htr
        cases htr
      · exact h.data k e tr hold htr
    · -- no plugin ran before, so only the entries had traps
      rw [htable, h.installed t', hevents, entryTrap_insert hid, hevent]
      simp [howner, howner']
  | stopped howner howner' htable => exact absurd (hleaves rfl) howner

end Step

/-- The guest, and who is served, do not matter. -/
theorem TrapInv.of_guest {w : World (Traced G)} (h : TrapInv w) (g : G) (ident : Bytes) :
    TrapInv { w with guest := { w.guest with inner := g }, scratchIdent := ident } :=
  ⟨⟨h.entries.key, h.entries.below, h.entries.distinct, h.entries.live, h.entries.freedBelow,
    h.entries.freedOnce⟩, h.data, h.running, h.installed⟩

theorem trapInv_reach {d : Drakvuf G} {w : World (Traced G)}
    (h : Reach (trapSystem d) LeavesPlugin w) : TrapInv w := by
  refine h.invariant TrapInv ?_ ?_
  · rintro w ⟨g, rfl⟩
    exact trapInv_initial g
  · rintro w a w' hinv hleaves ⟨g, r, hserve⟩
    have hcore : a.call.handler.core d.toEnv (.ok a.m)
        { w with guest := { w.guest with inner := g }, scratchIdent := a.ident } = .ok (w', r) :=
      hserve
    exact (hinv.of_guest g a.ident).step hleaves (registry_step hcore) (trap_step hcore)

/-- **The traps match the registry.** In every state of a run in which no request stops the
    running plugin, installed are exactly the traps of the live entries, and those of the
    plugin while it runs. -/
theorem trapsMatch_reach {d : Drakvuf G} {w : World (Traced G)}
    (h : Reach (trapSystem d) LeavesPlugin w) : TrapsMatch w :=
  (trapInv_reach h).trapsMatch

/-- Stopping the running plugin always leaves its traps installed. -/
theorem not_trapsMatch_stop {d : Drakvuf G} {w w' : World (Traced G)} {a : Request} {r : Reply}
    (h : TrapInv w) (hcall : a.call = .stopSyscall) (howner : w.syscallPluginOwner ≠ none)
    (hs : serve d.toEnv a w = .ok (w', r)) : ¬ TrapsMatch w' := by
  intro hmatch
  unfold serve at hs
  rw [hcall] at hs
  have hbody : stopSyscallBody d.toEnv (.ok a.m) { w with scratchIdent := a.ident } = .ok (w', r) :=
    hs
  obtain ⟨howner', htable⟩ := stopSyscall_running hbody howner
  -- the first trap of the plugin is still there
  have hmem : Installed.plugin w.guest.table.plugins 0 ∈ w.guest.table.installed :=
    (h.installed _).mpr (.inr ⟨howner, rfl, h.running howner⟩)
  have hmem' : Installed.plugin w.guest.table.plugins 0 ∈ w'.guest.table.installed := by
    rw [htable]
    exact hmem
  exact hmatch.owned _ _ hmem' howner'

/-- A guest whose DRAKVUF traces one system call and installs every trap. -/
def echoDrakvuf : Drakvuf Unit where
  env := echoEnv
  trapConfig _ := 1
  addTrap _ g := (true, g)

/-- A fresh VMI partition on that guest. -/
def freshPartition : World (Traced Unit) := World.initial { inner := () }

/-- With the plugin started its trap is installed. -/
theorem trapsMatch_started :
    ∃ w : World (Traced Unit), .plugin 1 0 ∈ w.guest.table.installed ∧ TrapsMatch w := by
  have hrun : ∃ w r, serve echoDrakvuf.toEnv startRequest
      { freshPartition with guest := { freshPartition.guest with inner := () } } = .ok (w, r) ∧
      .plugin 1 0 ∈ w.guest.table.installed := by
    refine ⟨_, _, rfl, ?_⟩
    decide
  obtain ⟨w, r, hserve, hmem⟩ := hrun
  have hleaves : LeavesPlugin freshPartition startRequest :=
    fun hcall => by cases hcall
  have hreach : Reach (trapSystem echoDrakvuf) LeavesPlugin w :=
    .step (.init ⟨(), rfl⟩) hleaves ⟨(), r, hserve⟩
  exact ⟨w, hmem, trapsMatch_reach hreach⟩

/-- **A stopped plugin leaves its traps.** After a start and a stop the plugin has no owner,
    and its freed trap is still installed. -/
theorem trapsMatch_fails :
    ∃ w : World (Traced Unit), Reach (trapSystem echoDrakvuf) (fun _ _ => True) w ∧
      w.syscallPluginOwner = none ∧ .plugin 1 0 ∈ w.guest.table.installed ∧ ¬ TrapsMatch w := by
  have hrun : ∃ w₁ r₁ w₂ r₂, serve echoDrakvuf.toEnv startRequest
      { freshPartition with guest := { freshPartition.guest with inner := () } } = .ok (w₁, r₁) ∧
      serve echoDrakvuf.toEnv stopRequest
        { w₁ with guest := { w₁.guest with inner := () } } = .ok (w₂, r₂) ∧
      w₂.syscallPluginOwner = none ∧ .plugin 1 0 ∈ w₂.guest.table.installed := by
    refine ⟨_, _, _, _, rfl, rfl, rfl, ?_⟩
    decide
  obtain ⟨w₁, r₁, w₂, r₂, hstart, hstop, howner, hmem⟩ := hrun
  have hreach : Reach (trapSystem echoDrakvuf) (fun _ _ => True) w₂ :=
    .step (.step (.init ⟨(), rfl⟩) trivial ⟨(), r₁, hstart⟩) trivial ⟨(), r₂, hstop⟩
  exact ⟨w₂, hreach, howner, hmem, fun hmatch => hmatch.owned _ _ hmem howner⟩

end Furnace.Vmi
