import Furnace.Vmi.Traps

namespace Furnace.Vmi

open Furnace.Proto Furnace.Lib

/-!
# The syscall plugin

The plugin sets a trap on every system call that the symbols of the guest's kernel name.  The
symbols have addresses relative to the kernel image; the traps are set where the kernel has been
loaded.

* `createTrapConfig` — the traps, the last symbol first.
* `SyscallHost.construct` — the constructor: it throws at the first trap that cannot be set, and
  leaves those before it.
* `SyscallHost.toDrakvuf` — the DRAKVUF that a guest with these symbols makes; `construct_refines`.
* `syscalls_traced` — **in every run** the traps that the running plugin has installed are those of
  the system calls, one for each, at their addresses in the guest.
-/

variable {G : Type}

/-! ### The traps -/

/-- `struct symbol`. -/
structure Sym where
  name : Bytes
  rva : UInt64
  deriving DecidableEq

/-- `os_t`, as far as the plugin tells systems apart. -/
inductive OsType
  | windows | linux | other
  deriving DecidableEq

/-- The callback of a trap, with the `syscall_index` of its wrapper, which is `-1` for a system call
    whose arguments are not known. -/
inductive Callback
  | linuxCb | winCb (syscallIndex : Option ℕ)
  deriving DecidableEq

/-- The members of a `drakvuf_trap_t` that differ between the traps of the plugin. -/
structure SyscallTrap where
  pid : ℕ
  addr : UInt64
  image : Bytes
  name : Bytes
  cb : Callback
  deriving DecidableEq

/-- What the plugin finds out about its guest: the symbols of the Rekall profile (`none` if it
    cannot be read), where the kernel is, the relative address of `_text`, and the names of
    `win_syscalls`. -/
structure Kernel where
  symbols : Option (List Sym)
  os : OsType
  kernelBase : UInt64
  textRva : Option UInt64
  winSyscalls : List Bytes

/-- The trap of a system call of Windows. -/
def windowsTrap (k : Kernel) (s : Sym) : SyscallTrap where
  pid := 4
  addr := k.kernelBase + s.rva
  image := literal "ntoskrnl.exe"
  name := s.name
  cb := .winCb (k.winSyscalls.idxOf? s.name)

/-- The trap of a system call of Linux. -/
def linuxTrap (kaslr : UInt64) (s : Sym) : SyscallTrap where
  pid := 0
  addr := s.rva + kaslr
  image := literal "linux"
  name := s.name
  cb := .linuxCb

/-- The loop over the symbols: it skips some, and puts the trap of each other one in front. -/
def trapLoop (skip : Sym → Bool) (trap : Sym → SyscallTrap) (symbols : List Sym) :
    List SyscallTrap :=
  symbols.foldl (fun ret s => if skip s then ret else trap s :: ret) []

/-- `create_trap_config`. -/
def createTrapConfig (k : Kernel) (symbols : List Sym) : List SyscallTrap :=
  match k.os with
  | .windows =>
    if k.kernelBase = 0 then []
    else trapLoop (fun s => !(literal "Nt").isPrefixOf s.name) (windowsTrap k) symbols
  | .linux =>
    match k.textRva with
    | none => []
    | some rva =>
      let kaslr := k.kernelBase - rva
      -- the symbol of the table itself is no system call
      trapLoop (fun s => !(literal "sys_").isPrefixOf s.name || s.name == literal "sys_call_table")
        (linuxTrap kaslr) symbols
  | .other => []

/-! ### What they are -/

/-- The symbol is that of a system call, and its address can be told. -/
def Kernel.IsSyscall (k : Kernel) (s : Sym) : Prop :=
  (k.os = .windows ∧ k.kernelBase ≠ 0 ∧ literal "Nt" <+: s.name) ∨
    (k.os = .linux ∧ k.textRva ≠ none ∧ literal "sys_" <+: s.name ∧
      s.name ≠ literal "sys_call_table")

instance (k : Kernel) (s : Sym) : Decidable (k.IsSyscall s) :=
  inferInstanceAs (Decidable (_ ∨ _))

/-- The address that the image of the kernel was linked for. -/
def Kernel.imageBase (k : Kernel) : UInt64 :=
  match k.os with
  | .linux => k.textRva.getD 0
  | _ => 0

/-- The trap sits on the system call: it is as far from the kernel in the guest as the symbol is
    from the kernel image. -/
structure Kernel.TrapOf (k : Kernel) (s : Sym) (t : SyscallTrap) : Prop where
  name : t.name = s.name
  addr : t.addr - k.kernelBase = s.rva - k.imageBase

/-- The loop keeps the symbols that it does not skip, in reverse. -/
theorem trapLoop_eq (skip : Sym → Bool) (trap : Sym → SyscallTrap) (symbols : List Sym) :
    trapLoop skip trap symbols = ((symbols.filter fun s => !skip s).map trap).reverse := by
  have hloop : ∀ ret, symbols.foldl (fun ret s => if skip s then ret else trap s :: ret) ret =
      ((symbols.filter fun s => !skip s).map trap).reverse ++ ret := by
    induction symbols with
    | nil => exact fun ret => rfl
    | cons s symbols ih =>
      intro ret
      rw [List.foldl_cons, ih]
      cases hskip : skip s <;> simp [hskip]
  rw [trapLoop, hloop, List.append_nil]

/-- **The traps are those of the system calls**, each at its place, the last symbol first. -/
theorem createTrapConfig_spec (k : Kernel) (symbols : List Sym) :
    List.Forall₂ k.TrapOf (symbols.filter fun s => decide (k.IsSyscall s))
      (createTrapConfig k symbols).reverse := by
  have hloop : ∀ (skip : Sym → Bool) (trap : Sym → SyscallTrap),
      (∀ s, (!skip s) = decide (k.IsSyscall s)) → (∀ s, k.TrapOf s (trap s)) →
      List.Forall₂ k.TrapOf (symbols.filter fun s => decide (k.IsSyscall s))
        (trapLoop skip trap symbols).reverse := by
    intro skip trap hskip htrap
    rw [trapLoop_eq, List.reverse_reverse, funext hskip, List.forall₂_map_right_iff,
      List.forall₂_same]
    exact fun s _ => htrap s
  have hnone : (∀ s, ¬k.IsSyscall s) → symbols.filter (fun s => decide (k.IsSyscall s)) = [] := by
    intro hnot
    simp [hnot]
  unfold createTrapConfig
  cases hos : k.os with
  | windows =>
    dsimp only
    by_cases hbase : k.kernelBase = 0
    · rw [if_pos hbase, hnone (by simp [Kernel.IsSyscall, hos, hbase])]
      exact .nil
    · rw [if_neg hbase]
      refine hloop _ _ (fun s => ?_) fun s => ⟨rfl, ?_⟩
      · simp [Kernel.IsSyscall, hos, hbase, ← List.isPrefixOf_iff_prefix]
      · unfold Kernel.imageBase windowsTrap
        rw [hos]
        dsimp only
        grind
  | linux =>
    dsimp only
    cases htext : k.textRva with
    | none =>
      rw [hnone (by simp [Kernel.IsSyscall, hos, htext])]
      exact .nil
    | some rva =>
      dsimp only
      refine hloop _ _ (fun s => ?_) fun s => ⟨rfl, ?_⟩
      · rw [Bool.eq_iff_iff]
        simp [Kernel.IsSyscall, hos, htext, ← List.isPrefixOf_iff_prefix]
      · unfold Kernel.imageBase linuxTrap
        rw [hos, htext]
        dsimp only [Option.getD_some]
        grind
  | other =>
    rw [hnone (by simp [Kernel.IsSyscall, hos])]
    exact .nil

/-! ### The constructor -/

/-- A guest with its kernel, and whether DRAKVUF sets a trap of an event or of the plugin. -/
structure SyscallHost (G : Type) where
  env : Env G
  kernel : Kernel
  addEvent : Trap → G → Bool × G
  addTrap : SyscallTrap → G → Bool × G

namespace SyscallHost

/-- The traps that the constructor makes; NULL is no traps. -/
def traps (h : SyscallHost G) : List SyscallTrap :=
  match h.kernel.symbols with
  | none => []
  | some symbols => createTrapConfig h.kernel symbols

/-- The loop of the constructor: whether it comes to its end, and the traps that it has set. -/
def addTraps (h : SyscallHost G) : List SyscallTrap → G → Bool × List SyscallTrap × G
  | [], g => (true, [], g)
  | t :: ts, g =>
    let (added, g) := h.addTrap t g
    if added then
      let (done, set, g) := h.addTraps ts g
      (done, t :: set, g)
    else (false, [], g)

/-- `syscalls::syscalls`: `false` is an exception. -/
def construct (h : SyscallHost G) (g : G) : Bool × List SyscallTrap × G :=
  if h.traps.isEmpty then (false, [], g) else h.addTraps h.traps g

/-- The DRAKVUF of such a guest. -/
def toDrakvuf (h : SyscallHost G) : Drakvuf G where
  env := h.env
  trapConfig _ := h.traps.length
  addTrap
    | .event t, g => h.addEvent t g
    | .plugin _ i, g =>
      match h.traps[i]? with
      | some t => h.addTrap t g
      | none => (false, g)

theorem addTraps_cons (h : SyscallHost G) (t : SyscallTrap) (ts : List SyscallTrap) (g : G) :
    h.addTraps (t :: ts) g =
      if (h.addTrap t g).1 then
        ((h.addTraps ts (h.addTrap t g).2).1, t :: (h.addTraps ts (h.addTrap t g).2).2.1,
          (h.addTraps ts (h.addTrap t g).2).2.2)
      else (false, [], (h.addTrap t g).2) := rfl

/-- What is set is what the loop has begun with. -/
theorem addTraps_set (h : SyscallHost G) (ts : List SyscallTrap) (g : G) :
    (h.addTraps ts g).2.1 <+: ts ∧ ((h.addTraps ts g).1 = true ↔ (h.addTraps ts g).2.1 = ts) := by
  induction ts generalizing g with
  | nil => simp [addTraps]
  | cons t ts ih =>
    rw [addTraps_cons]
    split
    · obtain ⟨hset, hdone⟩ := ih (h.addTrap t g).2
      simpa using ⟨hset, hdone⟩
    · simp

/-- The loop over the traps from number `n` on is that of the abstract constructor. -/
theorem addAll_addTraps (h : SyscallHost G) (p n : ℕ) (ts : List SyscallTrap) (g : Traced G)
    (hts : h.traps.drop n = ts) :
    (h.toDrakvuf.addAll ((List.range' n ts.length).map (.plugin p)) g).1 =
        (h.addTraps ts g.inner).1 ∧
      (h.toDrakvuf.addAll ((List.range' n ts.length).map (.plugin p)) g).2.inner =
        (h.addTraps ts g.inner).2.2 ∧
      ∀ t,
        t ∈ (h.toDrakvuf.addAll ((List.range' n ts.length).map (.plugin p)) g).2.table.installed ↔
          t ∈ g.table.installed ∨
          ∃ i, n ≤ i ∧ i < n + (h.addTraps ts g.inner).2.1.length ∧ t = .plugin p i := by
  induction ts generalizing n g with
  | nil =>
    refine ⟨rfl, rfl, fun t => ?_⟩
    simp only [List.length_nil, List.range'_zero, List.map_nil, Drakvuf.addAll, addTraps,
      Nat.add_zero]
    constructor
    · exact .inl
    · rintro (hold | ⟨i, hle, hlt, -⟩)
      · exact hold
      · omega
  | cons t ts ih =>
    have hget : h.traps[n]? = some t := by
      rw [← List.head?_drop, hts]
      rfl
    have hrest : h.traps.drop (n + 1) = ts := by
      rw [← List.drop_drop, hts]
      rfl
    have hadd : h.toDrakvuf.addTrap (.plugin p n) g.inner = h.addTrap t g.inner := by
      show (match h.traps[n]? with | some t => h.addTrap t g.inner | none => (false, g.inner)) = _
      rw [hget]
    rw [List.length_cons, List.range'_succ, List.map_cons, Drakvuf.addAll, addTraps_cons]
    unfold Drakvuf.add
    rw [hadd]
    dsimp only
    cases hadded : (h.addTrap t g.inner).1 with
    | false =>
      refine ⟨rfl, rfl, fun t' => ?_⟩
      simp only [Bool.false_eq_true, ↓reduceIte, List.length_nil, Nat.add_zero]
      constructor
      · exact .inl
      · rintro (hold | ⟨i, hle, hlt, -⟩)
        · exact hold
        · omega
    | true =>
      simp only [↓reduceIte]
      obtain ⟨hdone, hinner, hmem⟩ :=
        ih (n + 1) ⟨(h.addTrap t g.inner).2, g.table.add (.plugin p n)⟩ hrest
      dsimp only at hmem
      refine ⟨hdone, hinner, fun t' => ?_⟩
      rw [hmem t', TrapTable.add, Finset.mem_insert, List.length_cons]
      constructor
      · rintro ((rfl | hold) | ⟨i, hle, hlt, rfl⟩)
        · exact .inr ⟨n, le_refl n, by omega, rfl⟩
        · exact .inl hold
        · exact .inr ⟨i, by omega, by omega, rfl⟩
      · rintro (hold | ⟨i, hle, hlt, rfl⟩)
        · exact .inl (.inr hold)
        · by_cases heq : i = n
          · exact .inl (.inl (by rw [heq]))
          · exact .inr ⟨i, by omega, by omega, rfl⟩

/-- A guest in which another plugin has been counted. -/
def counted (h : SyscallHost G) (g : Traced G) : Traced G :=
  { g with table := { g.table with
      plugins := g.table.plugins + 1, pluginTraps := h.traps.length } }

theorem newSyscalls_eq (h : SyscallHost G) (g : Traced G) :
    h.toDrakvuf.newSyscalls g =
      if h.traps.length = 0 then (false, h.counted g)
      else h.toDrakvuf.addAll ((List.range h.traps.length).map (.plugin (g.table.plugins + 1)))
        (h.counted g) := rfl

/-- **The constructor refines the abstract one**: it throws in the same cases, and sets the first
    traps of its list under the numbers of the list; all of them exactly when it does not throw. -/
theorem construct_refines (h : SyscallHost G) (g : Traced G) :
    (h.toDrakvuf.newSyscalls g).1 = (h.construct g.inner).1 ∧
      (h.toDrakvuf.newSyscalls g).2.inner = (h.construct g.inner).2.2 ∧
      (h.construct g.inner).2.1 <+: h.traps ∧
      ((h.construct g.inner).1 = true ↔
        h.traps ≠ [] ∧ (h.construct g.inner).2.1 = h.traps) ∧
      ∀ t, t ∈ (h.toDrakvuf.newSyscalls g).2.table.installed ↔
        t ∈ g.table.installed ∨ ∃ i < (h.construct g.inner).2.1.length,
          t = .plugin (g.table.plugins + 1) i := by
  rw [newSyscalls_eq, construct]
  by_cases hnil : h.traps = []
  · simp [hnil, counted]
  · have hlen : ¬h.traps.length = 0 := by simpa using hnil
    have hempty : ¬h.traps.isEmpty = true := by simpa using hnil
    obtain ⟨hset, hdone⟩ := h.addTraps_set h.traps g.inner
    obtain ⟨hfirst, hinner, hmem⟩ :=
      h.addAll_addTraps (g.table.plugins + 1) 0 h.traps (h.counted g) List.drop_zero
    rw [← List.range_eq_range'] at hfirst hinner hmem
    rw [if_neg hlen, if_neg hempty]
    refine ⟨hfirst, hinner, hset, ?_, fun t => ?_⟩
    · rw [hdone]
      exact ⟨fun heq => ⟨hnil, heq⟩, fun heq => heq.2⟩
    · rw [hmem t]
      simp [counted]

/-- The number of traps that is noted of the plugin. -/
theorem newSyscalls_pluginTraps (h : SyscallHost G) {g : Traced G}
    (hdone : (h.toDrakvuf.newSyscalls g).1 = true) :
    (h.toDrakvuf.newSyscalls g).2.table.pluginTraps = h.traps.length := by
  rw [newSyscalls_eq] at hdone ⊢
  split at hdone
  · cases hdone
  · rename_i hlen
    rw [if_neg hlen]
    exact (Drakvuf.addAll_spec hdone).2.2

end SyscallHost

/-! ### Runs -/

section Runs

variable {h : SyscallHost G} {w w' : World (Traced G)}

/-- A plugin that runs after another request ran before it, with as many traps. -/
theorem TrapStep.pluginTraps {c : RegistryCall} (hs : TrapStep w c w') (hc : c ≠ .startSyscall)
    (howner' : w'.syscallPluginOwner ≠ none) : w.syscallPluginOwner ≠ none ∧
      w'.guest.table.pluginTraps = w.guest.table.pluginTraps := by
  cases hs with
  | kept hevents howner htable =>
    rw [htable, ← howner]
    exact ⟨howner', rfl⟩
  | installed ei t hevent hdata hobj hid hevents howner htable =>
    rw [htable, ← howner]
    exact ⟨howner', rfl⟩
  | removed k ei hei hevents howner htable =>
    rw [htable, ← howner]
    cases ei.event <;> exact ⟨howner', rfl⟩
  | started => exact absurd rfl hc
  | stopped howner hnone htable => exact absurd hnone howner'

/-- A plugin that runs after a request to start one has the traps of the kernel. -/
theorem startSyscall_pluginTraps {m : Msg} {r : Reply}
    (hrun : startSyscallBody h.toDrakvuf.toEnv (.ok m) w = .ok (w', r))
    (hw : w.syscallPluginOwner ≠ none → w.guest.table.pluginTraps = h.traps.length)
    (howner' : w'.syscallPluginOwner ≠ none) :
    w'.guest.table.pluginTraps = h.traps.length := by
  cases startSyscall_cases hrun with
  | running | noMemory => exact hw howner'
  | started owner howner hmalloc hident hstarted hw' =>
    rw [hw']
    exact h.newSyscalls_pluginTraps hstarted

/-- While the plugin runs, it has as many traps as the kernel has system calls. -/
def CountsTraps (h : SyscallHost G) (w : World (Traced G)) : Prop :=
  w.syscallPluginOwner ≠ none → w.guest.table.pluginTraps = h.traps.length

theorem countsTraps_serve {a : Request} {r : Reply} (hw : CountsTraps h w) (g : G)
    (hserve : serve h.toDrakvuf.toEnv a { w with guest := { w.guest with inner := g } } =
      .ok (w', r)) : CountsTraps h w' := by
  intro howner'
  have hcore : a.call.handler.core h.toDrakvuf.toEnv (.ok a.m)
      { w with guest := { w.guest with inner := g }, scratchIdent := a.ident } =
      .ok (w', r) := hserve
  by_cases hc : a.call = .startSyscall
  · rw [hc] at hcore
    exact startSyscall_pluginTraps hcore hw howner'
  · obtain ⟨howner, htraps⟩ := (trap_step hcore).pluginTraps hc howner'
    rw [htraps]
    exact hw howner

/-- **The system calls are traced.**  In every state of a run in which no request stops the running
    plugin, the plugin's traps that are installed while it runs are those of its system calls, one
    for each, at the place of the call in the guest; and none is installed while it does not. -/
theorem syscalls_traced (hreach : Reach (trapSystem h.toDrakvuf) LeavesPlugin w) :
    (w.syscallPluginOwner = none → ∀ n i, .plugin n i ∉ w.guest.table.installed) ∧
    (w.syscallPluginOwner ≠ none →
      ∃ symbols traps, h.kernel.symbols = some symbols ∧
        List.Forall₂ h.kernel.TrapOf (symbols.filter fun s => decide (h.kernel.IsSyscall s))
          traps ∧ traps ≠ [] ∧ h.traps = traps.reverse ∧
        ∀ n i, .plugin n i ∈ w.guest.table.installed ↔
          n = w.guest.table.plugins ∧ i < traps.length) := by
  have hmatch := trapsMatch_reach hreach
  have hcount : CountsTraps h w := by
    refine hreach.invariant (CountsTraps h) ?_ ?_
    · rintro w ⟨g, rfl⟩ howner
      exact absurd rfl howner
    · rintro w a w' hinv - ⟨g, r, hserve⟩
      exact countsTraps_serve hinv g hserve
  refine ⟨fun hnone n i hmem => hmatch.owned n i hmem hnone, fun howner => ?_⟩
  have hpos : 0 < h.traps.length := by
    rw [← hcount howner]
    exact (trapInv_reach hreach).running howner
  cases hsymbols : h.kernel.symbols with
  | none =>
    unfold SyscallHost.traps at hpos
    rw [hsymbols] at hpos
    exact absurd hpos (Nat.lt_irrefl 0)
  | some symbols =>
    have htraps : h.traps = createTrapConfig h.kernel symbols := by
      unfold SyscallHost.traps
      rw [hsymbols]
    refine ⟨symbols, h.traps.reverse, rfl, ?_, ?_, (List.reverse_reverse _).symm, fun n i => ?_⟩
    · rw [htraps]
      exact createTrapConfig_spec h.kernel symbols
    · simpa [List.length_pos_iff] using hpos
    · rw [hmatch.installed, List.length_reverse, ← hcount howner]
      constructor
      · rintro (⟨k, ei, tr, -, -, heq⟩ | ⟨-, hplugin⟩)
        · cases heq
        · exact hplugin
      · exact fun hplugin => .inr ⟨howner, hplugin⟩

end Runs

/-! ### A kernel with one system call -/

/-- A Linux guest with the symbols of one system call and of the table. -/
def oneCallHost : SyscallHost Unit where
  env := echoEnv
  kernel := {
    symbols := some [⟨literal "sys_read", 24⟩, ⟨literal "sys_call_table", 32⟩]
    os := .linux, kernelBase := 4096, textRva := some 8, winSyscalls := [] }
  addEvent _ g := (true, g)
  addTrap _ g := (true, g)

example : oneCallHost.traps = [⟨0, 4112, literal "linux", literal "sys_read", .linuxCb⟩] := by
  decide +kernel

/-- Started there, the plugin traces it. -/
theorem syscalls_traced_oneCall : ∃ w : World (Traced Unit),
    w.syscallPluginOwner ≠ none ∧ ∃ symbols traps,
      oneCallHost.kernel.symbols = some symbols ∧
      List.Forall₂ oneCallHost.kernel.TrapOf
        (symbols.filter fun s => decide (oneCallHost.kernel.IsSyscall s)) traps ∧
      ∀ n i, .plugin n i ∈ w.guest.table.installed ↔
        n = w.guest.table.plugins ∧ i < traps.length := by
  have hrun : ∃ w r, serve oneCallHost.toDrakvuf.toEnv startRequest
      { freshPartition with guest := { freshPartition.guest with inner := () } } = .ok (w, r) ∧
      w.syscallPluginOwner ≠ none := by
    have hnew : (oneCallHost.toDrakvuf.newSyscalls freshPartition.guest).1 = true := by
      decide +kernel
    refine ⟨_, _, if_pos hnew, ?_⟩
    exact Option.some_ne_none _
  obtain ⟨w, r, hserve, howner⟩ := hrun
  have hleaves : LeavesPlugin freshPartition startRequest := fun hcall => by cases hcall
  have hreach : Reach (trapSystem oneCallHost.toDrakvuf) LeavesPlugin w :=
    .step (.init ⟨(), rfl⟩) hleaves ⟨(), r, hserve⟩
  obtain ⟨symbols, traps, hsymbols, htraps, -, -, hmem⟩ := (syscalls_traced hreach).2 howner
  exact ⟨w, howner, symbols, traps, hsymbols, htraps, hmem⟩

end Furnace.Vmi
