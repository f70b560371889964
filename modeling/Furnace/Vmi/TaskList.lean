import Furnace.Lib.Chain
import Furnace.Vmi.Handlers

namespace Furnace.Vmi

open Furnace.Proto Furnace.Lib

/-!
# The walk along the task list

`process_process_list` follows the next pointers of the guest's task list, one read ahead of
the entry that it reports.  The pointers are the guest's: nothing but a failed read or the
head of the list stops the walk.

* `KernelMemory` — a guest that holds still: its pointers, numbers and strings by address, and
  where its task list begins.
* `processList_returns_iff` — the walk returns exactly when the list ends or closes.
* `processList_circular` — on a circular list it reports every entry once, in order.
-/

variable {G : Type}

/-- What the walk reads of a guest: the 64-bit words, the 32-bit words and the strings at the
    addresses that can be read, the address of `init_task` and the offsets of its members. -/
structure KernelMemory where
  pointer : UInt64 → Option UInt64
  word : UInt64 → Option UInt32
  string : UInt64 → Option Bytes
  initTask : UInt64
  tasksOffset : UInt64
  nameOffset : UInt64
  pidOffset : UInt64

namespace KernelMemory

/-- The environment answers from the memory, in every state of the guest. -/
structure Serves (k : KernelMemory) (env : Env G) : Prop where
  initTask : ∀ g, (env.exec (.translateKsym2v (literal "init_task")) g).1.2.getD 0 = k.initTask
  tasksOffset : ∀ g, (env.exec (.getOffset (literal "linux_tasks")) g).1.2.getD 0 = k.tasksOffset
  nameOffset : ∀ g, (env.exec (.getOffset (literal "linux_name")) g).1.2.getD 0 = k.nameOffset
  pidOffset : ∀ g, (env.exec (.getOffset (literal "linux_pid")) g).1.2.getD 0 = k.pidOffset
  pointer : ∀ a v g, k.pointer a = some v →
    (env.exec (.readAddr (.va a 0)) g).1 = (.success, some v)
  stuck : ∀ a g, k.pointer a = none → (env.exec (.readAddr (.va a 0)) g).1.1 = .failure
  word : ∀ a v g, k.word a = some v →
    (env.exec (.readNum .w32 (.va a 0)) g).1 = (.success, some v.toUInt64)
  string : ∀ a g, (env.exec (.readStr (.va a 0)) g).1 = k.string a

/-- The first entry of the task list, the one in `init_task`. -/
def listHead (k : KernelMemory) : UInt64 := k.initTask + k.tasksOffset

/-- An entry with a name that can be read. -/
def Named (k : KernelMemory) (entry : UInt64) : Prop :=
  k.string (entry - k.tasksOffset + k.nameOffset) ≠ none

/-- The process whose task structure an entry of the list is in. -/
def process (k : KernelMemory) (entry : UInt64) : Process where
  pid := ((k.word (entry - k.tasksOffset + k.pidOffset)).getD 0).toInt32
  name := (k.string (entry - k.tasksOffset + k.nameOffset)).getD []
  processBlockPtr := entry - k.tasksOffset

/-- The task list ends at a pointer that cannot be read, or comes back to its head, and every
    entry before that has a name. -/
def ListEnds (k : KernelMemory) : Prop :=
  ∃ n, EndsWithin k.pointer k.listHead k.Named n k.listHead

/-- What the read of the entry after `cur` gave: its status, and the entry if it succeeded. -/
def ReadAhead (k : KernelMemory) (cur next : UInt64) (st : Status) : Prop :=
  match k.pointer cur with
  | some v => st = .success ∧ next = v
  | none => st = .failure

end KernelMemory

section Walk

variable {k : KernelMemory} {env : Env G}

/-- The loop of the walk, for the guest `k`. -/
def walkFrom (k : KernelMemory) (env : Env G) (fuel : ℕ) (cur next : UInt64) (pid : Int32)
    (procs : List Process) (st : Status) (w : World G) :
    Except Fault (List Process × Status × World G) :=
  processLoop env k.listHead k.tasksOffset k.pidOffset k.nameOffset fuel cur next pid procs st w

/-- The read of a pointer, in the two forms in which the walk makes it. -/
theorem KernelMemory.Serves.readAhead (hk : k.Serves env) (cur keep : UInt64) (g : G) :
    k.ReadAhead cur ((env.exec (.readAddr (.va cur 0)) g).1.2.getD keep)
      (env.exec (.readAddr (.va cur 0)) g).1.1 := by
  unfold KernelMemory.ReadAhead
  cases hv : k.pointer cur with
  | none => exact hk.stuck cur g hv
  | some v =>
    rw [hk.pointer cur v g hv]
    exact ⟨rfl, rfl⟩

/-- **One turn of the loop.** It reports the entry, reads ahead, and leaves if the next entry
    is the head. -/
theorem walkFrom_succ (hk : k.Serves env) (fuel : ℕ) (cur : UInt64) {next : UInt64} (pid : Int32)
    (procs : List Process) (w : World G) :
    ∃ pid' next' st' w', k.ReadAhead next next' st' ∧
      (∀ v, k.word (cur - k.tasksOffset + k.pidOffset) = some v → pid' = v.toInt32) ∧
      walkFrom k env (fuel + 1) cur next pid procs .success w =
        match k.string (cur - k.tasksOffset + k.nameOffset) with
        | none => .error .nullDereference
        | some name =>
          if next = k.listHead then
            .ok (procs ++ [⟨pid', name, cur - k.tasksOffset⟩], st', w')
          else walkFrom k env fuel next next' pid'
            (procs ++ [⟨pid', name, cur - k.tasksOffset⟩]) st' w' := by
  let readPid : ExtOp := .readNum .w32 (.va (cur - k.tasksOffset + k.pidOffset) 0)
  let readName : ExtOp := .readStr (.va (cur - k.tasksOffset + k.nameOffset) 0)
  obtain ⟨⟨⟨sp, p⟩, g₁⟩, hpid⟩ : ∃ r, env.exec readPid w.guest = r := ⟨_, rfl⟩
  obtain ⟨⟨name, g₂⟩, hname⟩ : ∃ r, env.exec readName g₁ = r := ⟨_, rfl⟩
  obtain ⟨⟨⟨sn, next'⟩, g₃⟩, hnext⟩ : ∃ r, env.exec (.readAddr (.va next 0)) g₂ = r :=
    ⟨_, rfl⟩
  have hahead := hk.readAhead next next g₂
  have hstring := hk.string (cur - k.tasksOffset + k.nameOffset) g₁
  rw [hnext] at hahead
  rw [hname] at hstring
  refine ⟨(p.map fun v => v.toUInt32.toInt32).getD pid, next'.getD next, sn,
    { w with guest := g₃
             ops := w.ops ++ [readPid] ++ [readName] ++ [.readAddr (.va next 0)] },
    hahead, fun v hv => ?_, ?_⟩
  · have hword := hk.word _ v w.guest hv
    rw [hpid] at hword
    have hp : p = some v.toUInt64 := congrArg Prod.snd hword
    rw [hp]
    simp
  · unfold walkFrom
    rw [processLoop]
    simp only [World.exec, hpid, hname, hnext, ← hstring, readPid, readName] at *
    cases name <;> rfl

/-- A loop that is entered after a failed read ends at once. -/
theorem walkFrom_failure (fuel : ℕ) (cur next : UInt64) (pid : Int32) (procs : List Process)
    (w : World G) :
    walkFrom k env (fuel + 1) cur next pid procs .failure w = .ok (procs, .failure, w) := by
  unfold walkFrom
  rw [processLoop]

/-- The reply to the processes that the walk reports. -/
def processListReply (procs : List Process) (st : Status) : Reply :=
  .ok ((if procs.isEmpty then Msg.empty else Msg.empty.set .process (.processes procs)).set .status
    (.i32 st.code))

/-- The handler is the loop from the head of the list, with the pointer behind it read. -/
theorem processProcessList_run (hk : k.Serves env) (c : Call) (index : ℕ)
    (msgIn msgOut : VMIMessage) (l : LinkState) (w : World G) :
    ∃ next st w₁, k.ReadAhead k.listHead next st ∧
      processProcessList.run c env index msgIn msgOut l w =
        (walkFrom k env env.fuel k.listHead next 0 [] st w₁).map fun r =>
          (l, r.2.2, processListReply r.1 r.2.1) := by
  let w₁ := (w.exec env (.translateKsym2v (literal "init_task"))).2
  let w₂ := (w₁.exec env (.getOffset (literal "linux_tasks"))).2
  let w₃ := (w₂.exec env (.getOffset (literal "linux_name"))).2
  let w₄ := (w₃.exec env (.getOffset (literal "linux_pid"))).2
  refine ⟨_, _, (w₄.exec env (.readAddr (.va k.listHead 0))).2,
    hk.readAhead k.listHead 0 w₄.guest, ?_⟩
  rw [Handler.run_of_not_linked rfl]
  -- the four answers are those of the memory
  have hbody : processListBody env (msgIn.request c index) w =
      (walkFrom k env env.fuel k.listHead
        ((env.exec (.readAddr (.va k.listHead 0)) w₄.guest).1.2.getD 0) 0 []
        (env.exec (.readAddr (.va k.listHead 0)) w₄.guest).1.1
        (w₄.exec env (.readAddr (.va k.listHead 0))).2 >>= fun r =>
          .ok (r.2.2, processListReply r.1 r.2.1)) := by
    unfold walkFrom KernelMemory.listHead
    rw [← hk.initTask w.guest, ← hk.tasksOffset w₁.guest, ← hk.nameOffset w₂.guest,
      ← hk.pidOffset w₃.guest]
    rfl
  show (processListBody env (msgIn.request c index) w).map _ = _
  rw [hbody]
  generalize walkFrom k env env.fuel k.listHead _ 0 [] _ _ = walked
  cases walked <;> rfl

/-- What was read ahead of an entry, by the pointer in it. -/
theorem KernelMemory.ReadAhead.of_some {cur next v : UInt64} {st : Status}
    (h : k.ReadAhead cur next st) (hv : k.pointer cur = some v) : st = .success ∧ next = v := by
  unfold KernelMemory.ReadAhead at h
  rwa [hv] at h

theorem KernelMemory.ReadAhead.of_none {cur next : UInt64} {st : Status}
    (h : k.ReadAhead cur next st) (hv : k.pointer cur = none) : st = .failure := by
  unfold KernelMemory.ReadAhead at h
  rwa [hv] at h

/-! ### Does the walk end? -/

/-- A loop that returns has come to an end of the list. -/
theorem endsWithin_of_walkFrom (hk : k.Serves env) {fuel : ℕ} {cur next : UInt64} {pid : Int32}
    {procs : List Process} {st : Status} {w : World G} {r : List Process × Status × World G}
    (hahead : k.ReadAhead cur next st)
    (h : walkFrom k env fuel cur next pid procs st w = .ok r) :
    ∃ n, EndsWithin k.pointer k.listHead k.Named n cur := by
  induction fuel generalizing cur next pid procs st w with
  | zero => cases h
  | succ fuel ih =>
    cases hv : k.pointer cur with
    | none => exact ⟨0, endsWithin_of_stuck hv⟩
    | some v =>
      obtain ⟨rfl, rfl⟩ := hahead.of_some hv
      obtain ⟨pid', next', st', w', hahead', -, hturn⟩ := walkFrom_succ hk fuel cur pid procs w
      rw [hturn] at h
      cases hname : k.string (cur - k.tasksOffset + k.nameOffset) with
      | none =>
        rw [hname] at h
        cases h
      | some name =>
        have hnamed : k.Named cur := by
          unfold KernelMemory.Named
          rw [hname]
          simp
        rw [hname] at h
        dsimp only at h
        by_cases hhead : next = k.listHead
        · exact ⟨0, (endsWithin_zero hv).mpr ⟨hnamed, hhead⟩⟩
        · rw [if_neg hhead] at h
          obtain ⟨n, hn⟩ := ih hahead' h
          exact ⟨n + 1, (endsWithin_succ hv).mpr ⟨hnamed, hn⟩⟩

/-- The loop returns if no step leads on. -/
theorem walkFrom_of_stuck {fuel : ℕ} (hfuel : 0 < fuel) {cur next : UInt64} (pid : Int32)
    (procs : List Process) {st : Status} (w : World G) (hahead : k.ReadAhead cur next st)
    (hv : k.pointer cur = none) :
    ∃ r, walkFrom k env fuel cur next pid procs st w = .ok r := by
  obtain ⟨fuel, rfl⟩ : ∃ f, fuel = f + 1 := ⟨fuel - 1, by omega⟩
  rw [hahead.of_none hv]
  exact ⟨_, walkFrom_failure ..⟩

/-- A loop that comes to an end of the list returns. -/
theorem walkFrom_of_endsWithin (hk : k.Serves env) {n fuel : ℕ} (hfuel : n < fuel)
    {cur next : UInt64} (pid : Int32) (procs : List Process) {st : Status} (w : World G)
    (hahead : k.ReadAhead cur next st)
    (hends : EndsWithin k.pointer k.listHead k.Named n cur) :
    ∃ r, walkFrom k env fuel cur next pid procs st w = .ok r := by
  induction n generalizing fuel cur next pid procs st w with
  | zero =>
    cases hv : k.pointer cur with
    | none => exact walkFrom_of_stuck hfuel pid procs w hahead hv
    | some v =>
      obtain ⟨fuel, rfl⟩ : ∃ f, fuel = f + 1 := ⟨fuel - 1, by omega⟩
      obtain ⟨rfl, rfl⟩ := hahead.of_some hv
      obtain ⟨hnamed, hhead⟩ := (endsWithin_zero hv).mp hends
      obtain ⟨name, hname⟩ := Option.ne_none_iff_exists'.mp hnamed
      obtain ⟨pid', next', st', w', -, -, hturn⟩ := walkFrom_succ hk fuel cur pid procs w
      rw [hturn, hname]
      exact ⟨_, if_pos hhead⟩
  | succ n ih =>
    cases hv : k.pointer cur with
    | none => exact walkFrom_of_stuck (by omega) pid procs w hahead hv
    | some v =>
      obtain ⟨fuel, rfl⟩ : ∃ f, fuel = f + 1 := ⟨fuel - 1, by omega⟩
      obtain ⟨rfl, rfl⟩ := hahead.of_some hv
      obtain ⟨hnamed, hrest⟩ := (endsWithin_succ hv).mp hends
      obtain ⟨name, hname⟩ := Option.ne_none_iff_exists'.mp hnamed
      obtain ⟨pid', next', st', w', hahead', -, hturn⟩ := walkFrom_succ hk fuel cur pid procs w
      rw [hturn, hname]
      dsimp only
      by_cases hhead : next = k.listHead
      · exact ⟨_, if_pos hhead⟩
      · rw [if_neg hhead]
        exact ih (by omega) _ _ _ hahead' hrest

end Walk

/-- **When the walk along the task list returns.** For every memory, and every address of
    `init_task` and offsets of its members: the process list is returned after finitely many
    turns exactly when the list ends or comes back to its head, all entries before having a
    name. -/
theorem processList_returns_iff {k : KernelMemory} {env : Env G} (hk : k.Serves env) (index : ℕ)
    (msgIn msgOut : VMIMessage) (l : LinkState) (w : World G) :
    (∃ fuel r, processProcessList.run .processList { env with fuel := fuel } index msgIn msgOut l
      w = .ok r) ↔ k.ListEnds := by
  have hk' : ∀ fuel, k.Serves { env with fuel := fuel } := fun _ => { hk with }
  constructor
  · rintro ⟨fuel, r, h⟩
    obtain ⟨next, st, w₁, hahead, hrun⟩ :=
      processProcessList_run (hk' fuel) .processList index msgIn msgOut l w
    rw [hrun] at h
    obtain ⟨r', hwalk, -⟩ := map_eq_ok.mp h
    exact endsWithin_of_walkFrom (hk' fuel) hahead hwalk
  · rintro ⟨n, hends⟩
    obtain ⟨next, st, w₁, hahead, hrun⟩ :=
      processProcessList_run (hk' (n + 1)) .processList index msgIn msgOut l w
    obtain ⟨r, hwalk⟩ :=
      walkFrom_of_endsWithin (hk' (n + 1)) (Nat.lt_succ_self n) 0 [] w₁ hahead hends
    refine ⟨n + 1, (l, r.2.2, processListReply r.1 r.2.1), ?_⟩
    rw [hrun, hwalk]
    rfl

/-- A guest whose first entry leads to one that points to itself. -/
def trap : KernelMemory where
  pointer _ := some 8
  word _ := some 0
  string _ := some []
  initTask := 0
  tasksOffset := 0
  nameOffset := 0
  pidOffset := 0

/-- That guest, for a loop of at most `fuel` turns. -/
def trapEnv (fuel : ℕ) : Env Unit where
  exec op g := match op with
    | .readAddr _ => ((.success, some 8), g)
    | .readNum _ _ => ((.success, some 0), g)
    | op => echoEnv.exec op g
  fuel := fuel

theorem trap_serves (fuel : ℕ) : trap.Serves (trapEnv fuel) where
  initTask _ := rfl
  tasksOffset _ := rfl
  nameOffset _ := rfl
  pidOffset _ := rfl
  pointer a v g h := by
    cases h
    rfl
  stuck a g h := by cases h
  word a v g h := by
    cases h
    rfl
  string _ _ := rfl

/-- The loop never leaves the second entry. -/
theorem trap_walkFrom (bound fuel : ℕ) (pid : Int32) (procs : List Process) (w : World Unit) :
    walkFrom trap (trapEnv bound) fuel 8 8 pid procs .success w = .error .diverged := by
  induction fuel generalizing pid procs w with
  | zero => rfl
  | succ fuel ih => exact ih _ _ _

/-- A cycle that does not go through the head keeps the handler in its loop. -/
theorem processList_returns_fails : trap.pointer 0 = some 8 ∧ trap.pointer 8 = some 8 ∧
    ∀ fuel, trap.Serves (trapEnv fuel) ∧
      processProcessList.run .processList (trapEnv fuel) 0
        (VMIMessage.empty.addCall .processList Msg.empty) VMIMessage.empty {}
        (World.initial ()) = .error .diverged := by
  refine ⟨rfl, rfl, fun fuel => ⟨trap_serves fuel, ?_⟩⟩
  obtain ⟨next, st, w₁, hahead, hrun⟩ := processProcessList_run (trap_serves fuel) .processList 0
    (VMIMessage.empty.addCall .processList Msg.empty) VMIMessage.empty {} (World.initial ())
  -- the first entry leads to the second, which leads to itself
  obtain ⟨rfl, rfl⟩ := hahead.of_some rfl
  have hwalk : walkFrom trap (trapEnv fuel) fuel trap.listHead 8 0 [] .success w₁ =
      .error .diverged := by
    cases fuel with
    | zero => rfl
    | succ fuel => exact trap_walkFrom (fuel + 1) fuel _ _ _
  rw [hrun]
  show (walkFrom trap (trapEnv fuel) fuel trap.listHead 8 0 [] .success w₁).map _ = _
  rw [hwalk]
  rfl

/-- The condition for this guest. -/
theorem processList_returns_iff_trap :
    (∃ fuel r, processProcessList.run .processList { trapEnv 0 with fuel := fuel } 0
      (VMIMessage.empty.addCall .processList Msg.empty) VMIMessage.empty {} (World.initial ()) =
        .ok r) ↔ trap.ListEnds :=
  processList_returns_iff (trap_serves 0) ..

/-! ### A circular list -/

/-- An entry whose pid and name can be read. -/
def KernelMemory.Readable (k : KernelMemory) (entry : UInt64) : Prop :=
  k.word (entry - k.tasksOffset + k.pidOffset) ≠ none ∧ k.Named entry

/-- The task list is circular: its `entries`, all different, lead from the head one to the
    other and back to the head. -/
structure KernelMemory.Circular (k : KernelMemory) (entries : List UInt64) : Prop where
  head : entries.head? = some k.listHead
  nodup : entries.Nodup
  chain : List.IsChain (fun a b => k.pointer a = some b) (entries ++ [k.listHead])

section Circular

variable {k : KernelMemory} {env : Env G}

/-- What a turn of the loop reports of an entry that can be read. -/
theorem KernelMemory.Readable.process_eq {entry : UInt64} (h : k.Readable entry) :
    ∃ v name, k.word (entry - k.tasksOffset + k.pidOffset) = some v ∧
      k.string (entry - k.tasksOffset + k.nameOffset) = some name ∧
      k.process entry = ⟨v.toInt32, name, entry - k.tasksOffset⟩ := by
  obtain ⟨v, hv⟩ := Option.ne_none_iff_exists'.mp h.1
  obtain ⟨name, hname⟩ := Option.ne_none_iff_exists'.mp h.2
  refine ⟨v, name, hv, hname, ?_⟩
  unfold KernelMemory.process
  rw [hv, hname]
  rfl

/-- **The rest of the walk.** From an entry of a list that leads back to the head, the loop
    reports that entry and all behind it. -/
theorem walkFrom_chain (hk : k.Serves env) (hhead : k.pointer k.listHead ≠ none)
    {rest : List UInt64} {cur next : UInt64} {fuel : ℕ} (pid : Int32) (procs : List Process)
    (w : World G)
    (hchain : List.IsChain (fun a b => k.pointer a = some b) (cur :: rest ++ [k.listHead]))
    (hrest : k.listHead ∉ rest) (hread : ∀ a ∈ cur :: rest, k.Readable a)
    (hfuel : rest.length < fuel) (hahead : k.ReadAhead cur next .success) :
    ∃ w', walkFrom k env fuel cur next pid procs .success w =
      .ok (procs ++ (cur :: rest).map k.process, .success, w') := by
  -- the induction is on the entries that are left
  induction rest generalizing cur next fuel pid procs w with
  | nil =>
    obtain ⟨fuel, rfl⟩ : ∃ f, fuel = f + 1 := ⟨fuel - 1, by omega⟩
    have hv : k.pointer cur = some k.listHead := by simpa using hchain
    obtain ⟨-, rfl⟩ := hahead.of_some hv
    obtain ⟨v, name, hword, hname, hprocess⟩ := (hread cur (List.mem_cons_self ..)).process_eq
    obtain ⟨pid', next', st', w', hahead', hpid, hturn⟩ := walkFrom_succ hk fuel cur pid procs w
    -- the pointer behind the last entry is that of the head, which has been read before
    obtain ⟨u, hu⟩ := Option.ne_none_iff_exists'.mp hhead
    obtain ⟨rfl, -⟩ := hahead'.of_some hu
    rw [hturn, hname, hpid v hword]
    exact ⟨w', by rw [List.map_singleton, hprocess]; exact if_pos rfl⟩
  | cons b rest ih =>
    obtain ⟨fuel, rfl⟩ : ∃ f, fuel = f + 1 := ⟨fuel - 1, by omega⟩
    obtain ⟨hv, hchain'⟩ : k.pointer cur = some b ∧
        List.IsChain (fun a b => k.pointer a = some b) (b :: rest ++ [k.listHead]) := by
      simpa using hchain
    obtain ⟨-, rfl⟩ := hahead.of_some hv
    obtain ⟨v, name, hword, hname, hprocess⟩ := (hread cur (List.mem_cons_self ..)).process_eq
    obtain ⟨pid', next', st', w', hahead', hpid, hturn⟩ := walkFrom_succ hk fuel cur pid procs w
    rw [List.mem_cons, not_or] at hrest
    -- the entry behind `b` can be read, so the loop goes on
    obtain ⟨u, hu⟩ : ∃ u, k.pointer next = some u := by
      cases rest with
      | nil => exact ⟨k.listHead, by simpa using hchain'⟩
      | cons c rest => exact ⟨c, (List.isChain_cons_cons.mp hchain').1⟩
    obtain ⟨rfl, -⟩ := hahead'.of_some hu
    obtain ⟨w'', hwalk⟩ := ih pid' (procs ++ [⟨pid', name, cur - k.tasksOffset⟩]) w' hchain'
      hrest.2 (fun a ha => hread a (List.mem_cons_of_mem _ ha)) (by simpa using hfuel) hahead'
    refine ⟨w'', ?_⟩
    rw [hturn, hname]
    dsimp only
    rw [if_neg (fun h => hrest.1 h.symm), hwalk, hpid v hword, ← hprocess]
    simp

/-- **The process list is complete and free of duplicates.** On a circular task list, all of
    whose entries can be read, the status is that of success, and the processes are those of
    the entries, in order, the first of them being `init_task`. -/
theorem processList_circular (hk : k.Serves env) {entries : List UInt64}
    (hlist : k.Circular entries) (hread : ∀ a ∈ entries, k.Readable a)
    (hfuel : entries.length ≤ env.fuel) (index : ℕ) (msgIn msgOut : VMIMessage) (l : LinkState)
    (w : World G) :
    (∃ w', processProcessList.run .processList env index msgIn msgOut l w =
      .ok (l, w', processListReply (entries.map k.process) .success)) ∧
    (entries.map fun a => (k.process a).processBlockPtr).Nodup ∧
    ((entries.map k.process).head?).map Process.processBlockPtr = some k.initTask := by
  obtain ⟨hhead, hnodup, hchain⟩ := hlist
  cases entries with
  | nil => cases hhead
  | cons cur rest =>
    obtain rfl : cur = k.listHead := Option.some.inj hhead
    refine ⟨?_, ?_, ?_⟩
    · obtain ⟨next, st, w₁, hahead, hrun⟩ :=
        processProcessList_run hk .processList index msgIn msgOut l w
      obtain ⟨v, hv⟩ : ∃ v, k.pointer k.listHead = some v := by
        cases rest with
        | nil => exact ⟨k.listHead, by simpa using hchain⟩
        | cons b rest => exact ⟨b, (List.isChain_cons_cons.mp hchain).1⟩
      obtain ⟨rfl, -⟩ := hahead.of_some hv
      obtain ⟨w', hwalk⟩ := walkFrom_chain hk (by rw [hv]; simp) 0 [] w₁ hchain
        (List.nodup_cons.mp hnodup).1 hread hfuel hahead
      refine ⟨w', ?_⟩
      rw [hrun, hwalk]
      rfl
    · -- different entries are in different structures
      refine hnodup.map fun a b hab => ?_
      have hab : a - k.tasksOffset = b - k.tasksOffset := hab
      simpa using hab
    · show some (k.initTask + k.tasksOffset - k.tasksOffset) = _
      simp

/-- A guest with two tasks. -/
def twoTasks : KernelMemory where
  pointer a := some (if a = 0 then 8 else 0)
  word a := some a.toUInt32
  string _ := some []
  initTask := 0
  tasksOffset := 0
  nameOffset := 0
  pidOffset := 0

/-- That guest. -/
def twoTasksEnv : Env Unit where
  exec op g := match op with
    | .readAddr l => ((.success, some (if l.address = 0 then 8 else 0)), g)
    | .readNum _ l => ((.success, some l.address.toUInt32.toUInt64), g)
    | op => echoEnv.exec op g
  fuel := 2

theorem twoTasks_serves : twoTasks.Serves twoTasksEnv where
  initTask _ := rfl
  tasksOffset _ := rfl
  nameOffset _ := rfl
  pidOffset _ := rfl
  pointer a v g h := by
    cases h
    rfl
  stuck a g h := by cases h
  word a v g h := by
    cases h
    rfl
  string _ _ := rfl

/-- Its task list. -/
theorem twoTasks_circular : twoTasks.Circular [0, 8] where
  head := rfl
  nodup := by decide
  chain := by simp [twoTasks, KernelMemory.listHead]

/-- The process list of this guest. -/
theorem processList_circular_twoTasks :
    (∃ w', processProcessList.run .processList twoTasksEnv 0
        (VMIMessage.empty.addCall .processList Msg.empty) VMIMessage.empty {} (World.initial ()) =
      .ok ({}, w', processListReply [⟨0, [], 0⟩, ⟨8, [], 8⟩] .success)) ∧
    ([0, 8].map fun a => (twoTasks.process a).processBlockPtr).Nodup ∧
    (([0, 8].map twoTasks.process).head?).map Process.processBlockPtr = some 0 :=
  processList_circular twoTasks_serves twoTasks_circular
    (fun a _ => ⟨Option.some_ne_none _, Option.some_ne_none _⟩) (by decide) 0 _ _ {}
    (World.initial ())

end Circular

end Furnace.Vmi
