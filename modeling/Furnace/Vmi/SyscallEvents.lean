import Furnace.Vmi.Masking
import Furnace.Vmi.Syscalls

namespace Furnace.Vmi

open Furnace.Proto Furnace.Lib

/-!
# What an app is told of the system calls

A trap of the syscall plugin fires when the guest makes a system call.  On Linux its callback hands
the call on to `furnace_syscall_callback`, which sends an event to the app that has started the
plugin; on Windows it fetches the arguments and prints them, and hands on nothing.

* `SyscallHost.fires` — a trap of the plugin fires.
* `tracingSystem` — the requests of any clients, and the system calls of the guest.
* `syscalls_delivered` — **on Linux the app is told once of each system call**, and on Windows of
  none.
-/

variable {G : Type}

/-! ### The callbacks -/

/-- The VMI partition with a running plugin.  `reports` is what `furnace_syscall_callback` has done;
    `fired` is a ghost: the traps that have fired. -/
structure Tracing (G : Type) where
  vmi : World (Traced G)
  reports : List Deed := []
  fired : List SyscallTrap := []

/-- Trap `i` of plugin `n` fires: `linux_cb`, `win_cb`. -/
def SyscallHost.fires (h : SyscallHost G) (s : Tracing G) (n i : ℕ) : Option (Tracing G) :=
  -- the traps of an earlier plugin refer to memory that has been freed
  if .plugin n i ∉ s.vmi.guest.table.installed ∨ n ≠ s.vmi.guest.table.plugins then none
  else match h.traps[i]? with
  | none => none
  | some t =>
    match t.cb with
    -- what is fetched is printed
    | .winCb _ => some { s with fired := s.fired ++ [t] }
    | .linuxCb =>
      ((⟨s.vmi, s.reports⟩ : Partition (Traced G)).syscallTraced h.toDrakvuf.toEnv).map fun p =>
        ⟨p.vmi, p.trace, s.fired ++ [t]⟩

/-- What happens next: a client's request is served, or the guest makes a system call. -/
inductive TracingInput
  | request (a : Request) | fires (n i : ℕ)

/-- The state with another guest inside. -/
def Tracing.withGuest (s : Tracing G) (g : G) : Tracing G :=
  { s with vmi := { s.vmi with guest := { s.vmi.guest with inner := g } } }

/-- The VMI partition under requests and system calls. -/
def tracingSystem (h : SyscallHost G) : TransitionSystem (Tracing G) TracingInput where
  init s := ∃ g, s = { vmi := World.initial ⟨g, {}⟩ }
  step s i s' := ∃ g, match i with
    | .request a => ∃ w r,
      serve h.toDrakvuf.toEnv a (s.withGuest g).vmi = .ok (w, r) ∧ s' = { s with vmi := w }
    | .fires n i => h.fires (s.withGuest g) n i = some s'

/-- No request stops the running plugin. -/
def TracingGuard (s : Tracing G) : TracingInput → Prop
  | .request a => LeavesPlugin s.vmi a
  | .fires _ _ => True

/-- What is done over one system call. -/
def World.report (w : World G) : List Deed :=
  match w.syscallPluginOwner with
  | none => []
  | some owner =>
    if w.syscallPluginSyncState = fSync then
      [.paused, .sent ⟨w.syscallPluginEventId, true, owner⟩]
    else [.sent ⟨w.syscallPluginEventId, false, owner⟩]

/-- The callback of a trap is that of the guest's system. -/
theorem cb_createTrapConfig {k : Kernel} {symbols : List Sym} {t : SyscallTrap}
    (ht : t ∈ createTrapConfig k symbols) : t.cb = .linuxCb ↔ k.os = .linux := by
  unfold createTrapConfig at ht
  cases hos : k.os with
  | windows =>
    rw [hos] at ht
    dsimp only at ht
    split at ht
    · cases ht
    · rw [trapLoop_eq, List.mem_reverse, List.mem_map] at ht
      obtain ⟨s, -, rfl⟩ := ht
      exact ⟨nofun, nofun⟩
  | linux =>
    rw [hos] at ht
    dsimp only at ht
    split at ht
    · cases ht
    · rw [trapLoop_eq, List.mem_reverse, List.mem_map] at ht
      obtain ⟨s, -, rfl⟩ := ht
      exact ⟨fun _ => rfl, fun _ => rfl⟩
  | other =>
    rw [hos] at ht
    cases ht

theorem SyscallHost.cb_traps {h : SyscallHost G} {t : SyscallTrap} (ht : t ∈ h.traps) :
    t.cb = .linuxCb ↔ h.kernel.os = .linux := by
  unfold SyscallHost.traps at ht
  split at ht
  · cases ht
  · exact cb_createTrapConfig ht

/-! ### Requests -/

section Requests

variable {w w' : World G} {m : Msg} {c : RegistryCall} {r : Reply}

/-- A request that does not stop the running plugin leaves it as it is. -/
theorem RegistryStep.report_eq (hs : RegistryStep w m c w' r)
    (hleaves : c = .stopSyscall → w.syscallPluginOwner = none)
    (howner : w.syscallPluginOwner ≠ none) :
    w'.syscallPluginOwner = w.syscallPluginOwner ∧ w'.report = w.report := by
  cases hs with
  | refused g new alloc fl hr hentry hnew hfl hw =>
    rw [hw]
    exact ⟨rfl, rfl⟩
  | registered g new ei hroom hid hobj hevent hactive hsync hnew hw =>
    rw [hw]
    exact ⟨rfl, rfl⟩
  | cleared g ei hei hw =>
    rw [hw]
    exact ⟨rfl, rfl⟩
  | unallocated g hnone hw => exact absurd hnone howner
  | started g new ei owner hnone hid hobj hevent hnew hw => exact absurd hnone howner
  | stopped g hrunning hmem hw => exact absurd (hleaves rfl) hrunning

/-- A plugin that runs has been constructed. -/
theorem startSyscall_constructed {env : Env G}
    (hrun : startSyscallBody env (.ok m) w = .ok (w', r))
    (hw : w.syscallPluginOwner ≠ none → .newSyscalls ∈ w.ops)
    (howner' : w'.syscallPluginOwner ≠ none) : .newSyscalls ∈ w'.ops := by
  cases startSyscall_cases hrun with
  | running howner => exact hw howner
  | noMemory howner hmalloc => exact absurd howner howner'
  | started owner howner hmalloc hident hstarted hw' =>
    rw [hw']
    simp

end Requests

/-! ### The invariant -/

/-- What holds in every state. -/
structure TracingInv (h : SyscallHost G) (s : Tracing G) : Prop where
  traps : TrapInv s.vmi
  count : CountsTraps h s.vmi
  constructed : s.vmi.syscallPluginOwner ≠ none → .newSyscalls ∈ s.vmi.ops
  running : s.fired ≠ [] → s.vmi.syscallPluginOwner ≠ none
  known : ∀ t ∈ s.fired, t ∈ h.traps
  reports : s.reports =
    if h.kernel.os = .linux then s.fired.flatMap fun _ => s.vmi.report else []

section Steps

variable {h : SyscallHost G} {s s' : Tracing G}

/-- The guest runs. -/
theorem TracingInv.withGuest (hinv : TracingInv h s) (g : G) : TracingInv h (s.withGuest g) :=
  ⟨hinv.traps.of_guest g s.vmi.scratchIdent, hinv.count, hinv.constructed, hinv.running,
    hinv.known, hinv.reports⟩

/-- A request is served. -/
theorem TracingInv.request (hinv : TracingInv h s) {a : Request} (hleaves : LeavesPlugin s.vmi a)
    (g : G) {w : World (Traced G)} {r : Reply}
    (hserve : serve h.toDrakvuf.toEnv a (s.withGuest g).vmi = .ok (w, r)) :
    TracingInv h { s with vmi := w } := by
  have hcore : a.call.handler.core h.toDrakvuf.toEnv (.ok a.m)
      { (s.withGuest g).vmi with scratchIdent := a.ident } = .ok (w, r) := hserve
  have hstep := registry_step hcore
  have htraps := (hinv.traps.of_guest g a.ident).step hleaves hstep (trap_step hcore)
  -- the plugin goes on as it was
  have hkept : s.fired ≠ [] →
      w.syscallPluginOwner = s.vmi.syscallPluginOwner ∧ w.report = s.vmi.report :=
    fun hfired => hstep.report_eq hleaves (hinv.running hfired)
  refine ⟨htraps, countsTraps_serve hinv.count g hserve, fun howner' => ?_, fun hfired => ?_,
    hinv.known, ?_⟩
  · by_cases hc : a.call = .startSyscall
    · rw [hc] at hcore
      exact startSyscall_constructed hcore hinv.constructed howner'
    · have howner := ((trap_step hcore).pluginTraps hc howner').1
      -- what has been performed stays performed
      obtain ⟨new, hops, -⟩ := registry_sized hcore
      rw [hops]
      exact List.mem_append_left _ (hinv.constructed howner)
  · show w.syscallPluginOwner ≠ none
    rw [(hkept hfired).1]
    exact hinv.running hfired
  · show s.reports = if _ then s.fired.flatMap fun _ => w.report else []
    by_cases hfired : s.fired = []
    · rw [hinv.reports, hfired]
      rfl
    · rw [(hkept hfired).2]
      exact hinv.reports

/-- What `furnace_syscall_callback` does while the plugin runs. -/
theorem syscallTraced_report (env : Env G) {w : World G} (reports : List Deed) {owner : Bytes}
    (howner : w.syscallPluginOwner = some owner) (hops : .newSyscalls ∈ w.ops) :
    ∃ w', (⟨w, reports⟩ : Partition G).syscallTraced env = some ⟨w', reports ++ w.report⟩ ∧
      (w' = w ∨ w' = (w.exec env .pause).2) := by
  rw [syscallTraced_eq (s := ⟨w, reports⟩) hops howner]
  unfold Partition.notify World.report
  rw [howner]
  dsimp only
  split
  · exact ⟨_, rfl, .inr rfl⟩
  · exact ⟨_, rfl, .inl rfl⟩

/-- A trap fires: it is one of the kernel's, and what is done is the report of it, on Linux. -/
theorem TracingInv.fires_eq (hinv : TracingInv h s) {n i : ℕ}
    (hmem : .plugin n i ∈ s.vmi.guest.table.installed) : ∃ t ∈ h.traps, ∃ w',
      h.fires s n i = some ⟨w', s.reports ++ if t.cb = .linuxCb then s.vmi.report else [],
        s.fired ++ [t]⟩ ∧
      s.vmi.syscallPluginOwner ≠ none ∧
      (w' = s.vmi ∨ w' = (s.vmi.exec h.toDrakvuf.toEnv .pause).2) := by
  have hof : s.vmi.syscallPluginOwner ≠ none ∧ s.vmi.guest.table.OfPlugin (.plugin n i) := by
    rcases (hinv.traps.installed _).mp hmem with ⟨k, ei, tr, -, -, heq⟩ | hof
    · cases heq
    · exact hof
  obtain ⟨howner, hn, hi⟩ := hof
  rw [hinv.count howner] at hi
  have hget : h.traps[i]? = some h.traps[i] := List.getElem?_eq_getElem hi
  have hin : h.traps[i] ∈ h.traps := List.getElem_mem hi
  obtain ⟨owner, hsome⟩ := Option.ne_none_iff_exists'.mp howner
  unfold SyscallHost.fires
  rw [if_neg (by rintro (hnot | hnot); exacts [hnot hmem, hnot hn]), hget]
  dsimp only
  cases hcb : h.traps[i].cb with
  | winCb index =>
    refine ⟨h.traps[i], hin, s.vmi, ?_, howner, .inl rfl⟩
    rw [hcb, if_neg nofun, List.append_nil]
  | linuxCb =>
    obtain ⟨w', htraced, hw'⟩ := syscallTraced_report h.toDrakvuf.toEnv s.reports hsome
      (hinv.constructed howner)
    refine ⟨h.traps[i], hin, w', ?_, howner, hw'⟩
    dsimp only
    rw [htraced, hcb, if_pos rfl]
    rfl

/-- The invariant does not depend on the guest that a pause leaves. -/
theorem TracingInv.paused (hinv : TracingInv h s) {w' : World (Traced G)}
    (hw' : w' = s.vmi ∨ w' = (s.vmi.exec h.toDrakvuf.toEnv .pause).2) :
    TracingInv h { s with vmi := w' } := by
  rcases hw' with rfl | rfl
  · exact hinv
  · have htraps := hinv.traps
    refine ⟨⟨⟨htraps.entries.key, htraps.entries.below, htraps.entries.distinct,
      htraps.entries.live, htraps.entries.freedBelow, htraps.entries.freedOnce⟩, htraps.data,
      htraps.running, htraps.installed⟩, hinv.count, fun howner => ?_, hinv.running, hinv.known,
      hinv.reports⟩
    exact List.mem_append_left _ (hinv.constructed howner)

/-- A trap fires. -/
theorem TracingInv.fires (hinv : TracingInv h s) {n i : ℕ} (hfires : h.fires s n i = some s') :
    TracingInv h s' := by
  have hmem : .plugin n i ∈ s.vmi.guest.table.installed := by
    by_contra hnot
    unfold SyscallHost.fires at hfires
    rw [if_pos (.inl hnot)] at hfires
    cases hfires
  obtain ⟨t, ht, w', heq, howner, hw'⟩ := hinv.fires_eq hmem
  rw [heq] at hfires
  cases hfires
  have hpaused := hinv.paused hw'
  -- a pause changes nothing that is reported
  have hreport : w'.syscallPluginOwner = s.vmi.syscallPluginOwner ∧ w'.report = s.vmi.report := by
    rcases hw' with rfl | rfl <;> exact ⟨rfl, rfl⟩
  refine ⟨hpaused.traps, hpaused.count, hpaused.constructed, fun _ => ?_, fun t' ht' => ?_, ?_⟩
  · show w'.syscallPluginOwner ≠ none
    rw [hreport.1]
    exact howner
  · rcases List.mem_append.mp ht' with hold | hnew
    · exact hinv.known t' hold
    · rw [List.mem_singleton.mp hnew]
      exact ht
  · show s.reports ++ _ = if _ then (s.fired ++ [t]).flatMap fun _ => w'.report else []
    rw [hinv.reports, hreport.2]
    by_cases hos : h.kernel.os = .linux
    · rw [if_pos hos, if_pos hos, if_pos ((SyscallHost.cb_traps ht).mpr hos), List.flatMap_append,
        List.flatMap_singleton]
    · rw [if_neg hos, if_neg hos, if_neg fun hcb => hos ((SyscallHost.cb_traps ht).mp hcb),
        List.append_nil]

/-- The invariant holds in every state of a run. -/
theorem tracingInv_reach (hreach : Reach (tracingSystem h) TracingGuard s) : TracingInv h s := by
  refine hreach.invariant (TracingInv h) ?_ ?_
  · rintro s ⟨g, rfl⟩
    refine ⟨trapInv_reach (d := h.toDrakvuf) (.init ⟨g, rfl⟩), fun howner => absurd rfl howner,
      fun howner => absurd rfl howner, fun hfired => absurd rfl hfired, nofun, ?_⟩
    exact (ite_self _).symm
  · rintro s (a | ⟨n, i⟩) s' hinv hguard ⟨g, hs⟩
    · obtain ⟨w, r, hserve, rfl⟩ := hs
      exact hinv.request hguard g hserve
    · exact (hinv.withGuest g).fires hs

/-- **The app is told of the system calls.**  In every state of a run in which no request stops the
    running plugin, each trap of the plugin that is installed can fire; what has fired are traps of
    the kernel's system calls; and what has been done for them is, on Linux, one report for each to
    the app that has started the plugin, and on Windows nothing. -/
theorem syscalls_delivered (hreach : Reach (tracingSystem h) TracingGuard s) :
    (∀ n i, .plugin n i ∈ s.vmi.guest.table.installed → ∃ s', h.fires s n i = some s') ∧
    (∀ t ∈ s.fired, t ∈ h.traps) ∧
    s.reports = if h.kernel.os = .linux then s.fired.flatMap fun _ => s.vmi.report else [] := by
  have hinv := tracingInv_reach hreach
  refine ⟨fun n i hmem => ?_, hinv.known, hinv.reports⟩
  obtain ⟨t, -, w', heq, -, -⟩ := hinv.fires_eq hmem
  exact ⟨_, heq⟩

end Steps

/-- The plugin is started, and the one system call is made once. -/
theorem syscalls_delivered_oneCall : ∃ s : Tracing Unit, s.fired.length = 1 ∧
    s.reports = [.paused, .sent ⟨0, true, startRequest.ident⟩] := by
  have hrun : ∃ w r, serve oneCallHost.toDrakvuf.toEnv startRequest
      { freshPartition with guest := { freshPartition.guest with inner := () } } = .ok (w, r) ∧
      .plugin 1 0 ∈ w.guest.table.installed ∧
      w.syscallPluginOwner = some startRequest.ident ∧ w.syscallPluginSyncState = fSync ∧
      w.syscallPluginEventId = 0 := by
    have hnew : (oneCallHost.toDrakvuf.newSyscalls freshPartition.guest).1 = true := by
      decide +kernel
    have hmem : .plugin 1 0 ∈
        (oneCallHost.toDrakvuf.newSyscalls freshPartition.guest).2.table.installed := by
      decide +kernel
    exact ⟨_, _, if_pos hnew, hmem, by decide +kernel, rfl, by decide +kernel⟩
  obtain ⟨w, r, hserve, hmem, howner, hsync, hid⟩ := hrun
  have hreport : w.report = [.paused, .sent ⟨0, true, startRequest.ident⟩] := by
    unfold World.report
    rw [howner, hsync, hid]
    rfl
  have hleaves : TracingGuard { vmi := freshPartition } (.request startRequest) :=
    fun hcall => by cases hcall
  have hstarted : Reach (tracingSystem oneCallHost) TracingGuard { vmi := w } :=
    .step (.init ⟨(), rfl⟩) hleaves ⟨(), w, r, hserve, rfl⟩
  obtain ⟨t, ht, w', hfires, -, hw'⟩ :=
    (tracingInv_reach hstarted).fires_eq hmem
  have hreach : Reach (tracingSystem oneCallHost) TracingGuard _ :=
    .step hstarted (a := .fires 1 0) trivial ⟨(), hfires⟩
  refine ⟨_, ?_, (syscalls_delivered hreach).2.2.trans ?_⟩
  · rfl
  · rw [if_pos (show oneCallHost.kernel.os = .linux from rfl)]
    rcases hw' with rfl | rfl <;> exact (List.append_nil _).trans hreport

end Furnace.Vmi
