import Furnace.App.TaskBatches

namespace Furnace.App

open Furnace.Proto Furnace.Lib Furnace.Vmi

/-!
# Three process lists of one guest

An app can list the processes of a guest by single calls, by batches, or by `fe.process_list`.  The
walks of an app compare 48 bits of a pointer with the whole head of the list: where the head has
more of them, the comparison never holds, and the walk goes on round the list until it gives up.

* `visited_circular` — what the walk of an app comes to on a circular list.
* `doPslist_circular` — **the dict is complete and in order**, whether the comparison holds or not.
* `processList_agrees` — `fe.process_list` gives the same processes, if no two have one pid.
-/

variable {G : Type}

/-- What the app has looked up of the guest. -/
def lookupsOf (k : KernelMemory) : TaskLookups :=
  ⟨k.nameOffset, k.pidOffset, k.tasksOffset, k.initTask⟩

/-- The item of a dict for a process. -/
def processItem (p : Process) : ℤ × ℤ × Value :=
  (p.processBlockPtr.toNat, p.pid.toUInt32.toNat, .field (.str p.name))

/-- Different processes have different items. -/
theorem processItem_injective : Function.Injective processItem := by
  rintro ⟨pid, name, ptr⟩ ⟨pid', name', ptr'⟩ heq
  unfold processItem at heq
  simp only [Prod.mk.injEq, Nat.cast_inj, UInt64.toNat_inj, UInt32.toNat_inj, Value.field.injEq,
    Val.str.injEq] at heq
  obtain ⟨rfl, hpid, rfl⟩ := heq
  rw [← pid.toInt32_toUInt32, hpid, pid'.toInt32_toUInt32]

/-- A circular list that an app can list: all its entries can be read, lie with their names, pids
    and processes in the address space, and only the head can be taken for the head. -/
structure Listable (k : KernelMemory) (entries : List UInt64) : Prop where
  circular : k.Circular entries
  readable : ∀ a ∈ entries, k.Readable a
  head : IsAddress (lookupsOf k).listHead
  reaches : ∀ a ∈ entries, (lookupsOf k).Reaches a
  inside : ∀ a ∈ entries, k.tasksOffset ≤ a
  distinct : ∀ a ∈ entries, (lookupsOf k).isHead a = true → a = k.listHead
  short : entries.length ≤ maxi + 1

section Circular

variable {k : KernelMemory} {env : Env G} {rd : Readings} {held : G → Prop}
  {entries : List UInt64}

/-- The sum of Python's is that of C, if it is an address. -/
theorem addressOf_listHead (h : IsAddress (lookupsOf k).listHead) :
    addressOf (lookupsOf k).listHead = k.listHead := by
  have hsum : (lookupsOf k).listHead = k.initTask.toNat + k.tasksOffset.toNat := rfl
  rw [← UInt64.toNat_inj]
  have hof := toNat_addressOf h
  have hlt := h.2
  unfold KernelMemory.listHead
  rw [UInt64.toNat_add]
  omega

/-- The address of a member of the process, counted by Python and by C. -/
theorem addressOf_member {a tasks member : UInt64}
    (h : IsAddress (a.toNat - tasks.toNat + member.toNat)) :
    addressOf (a.toNat - tasks.toNat + member.toNat) = a - tasks + member := by
  rw [← UInt64.toNat_inj]
  have hof := toNat_addressOf h
  obtain ⟨hpos, hlt⟩ := h
  have ha := a.toNat_lt
  have htasks := tasks.toNat_lt
  have hmember := member.toNat_lt
  rw [UInt64.toNat_add, UInt64.toNat_sub]
  omega

/-- What is read of a guest is what its memory holds. -/
theorem HeldBy.pointer_eq (hk : k.Serves env) (hheld : rd.HeldBy env held) {g : G} (hg : held g)
    {a v : UInt64} (hv : k.pointer a = some v) : rd.pointer a = v := by
  have hread := (hheld.pointer g a hg).1
  rw [hk.pointer a v g hv] at hread
  exact hread.symm

theorem HeldBy.word_eq (hk : k.Serves env) (hheld : rd.HeldBy env held) {g : G} (hg : held g)
    {a : UInt64} {v : UInt32} (hv : k.word a = some v) : rd.word a = v := by
  have hread := (hheld.word g a hg).1
  rw [hk.word a v g hv] at hread
  simpa using hread.symm

theorem HeldBy.string_eq (hk : k.Serves env) (hheld : rd.HeldBy env held) {g : G} (hg : held g)
    {a : UInt64} {str : Bytes} (hstr : k.string a = some str) : rd.string a = str := by
  have hread := (hheld.string g a hg).1
  rw [hk.string a g, hstr] at hread
  exact hread.symm

/-- The entries of a circular list are a cycle. -/
theorem Listable.cycle (h : Listable k entries) (hk : k.Serves env) (hheld : rd.HeldBy env held)
    {g : G} (hg : held g) : Cycle rd.pointer k.listHead entries := by
  refine ⟨h.circular.head, h.circular.chain.imp ?_⟩
  intro a b hab
  exact HeldBy.pointer_eq hk hheld hg hab

/-- The item for an entry is the process that the guest has there. -/
theorem Listable.item_eq (h : Listable k entries) (hk : k.Serves env) (hheld : rd.HeldBy env held)
    {g : G} (hg : held g) {a : UInt64} (ha : a ∈ entries) :
    (lookupsOf k).item rd a = processItem (k.process a) := by
  obtain ⟨v, name, hword, hname, hprocess⟩ := (h.readable a ha).process_eq
  obtain ⟨hpid, hnameAt⟩ := h.reaches a ha
  have hinside := h.inside a ha
  have hkey : (a.toNat : ℤ) - k.tasksOffset.toNat = (a - k.tasksOffset).toNat := by
    rw [UInt64.toNat_sub_of_le _ _ hinside]
    have : k.tasksOffset.toNat ≤ a.toNat := hinside
    omega
  have hpidOf : addressOf ((lookupsOf k).pidAt a.toNat) = a - k.tasksOffset + k.pidOffset :=
    addressOf_member hpid
  have hnameOf : addressOf ((lookupsOf k).nameAt a.toNat) = a - k.tasksOffset + k.nameOffset :=
    addressOf_member hnameAt
  unfold TaskLookups.item
  rw [hpidOf, hnameOf, HeldBy.word_eq hk hheld hg hword, HeldBy.string_eq hk hheld hg hname,
    hprocess]
  refine Prod.ext hkey (Prod.ext ?_ rfl)
  show (v.toNat : ℤ) = v.toInt32.toUInt32.toNat
  rw [UInt32.toUInt32_toInt32]

/-- **What the walk comes to.**  If the head is below `2^48` the walk goes round the list once;
    otherwise it goes on until it gives up, and sees no entry that it has not seen. -/
theorem visited_circular (h : Listable k entries) (hk : k.Serves env)
    (hheld : rd.HeldBy env held) {g : G} (hg : held g) :
    ∃ again, (lookupsOf k).visited rd = entries ++ again ∧ (∀ a ∈ again, a ∈ entries) ∧
      ((lookupsOf k).visited rd).length =
        if (lookupsOf k).listHead < 2 ^ 48 then entries.length else maxi + 1 := by
  have hcycle := h.cycle hk hheld hg
  obtain ⟨rest, hentries⟩ : ∃ rest, entries = k.listHead :: rest := by
    have hhead := h.circular.head
    cases entries with
    | nil => cases hhead
    | cons b rest =>
      cases hhead
      exact ⟨rest, rfl⟩
  have hnodup := h.circular.nodup
  have htail : ∀ a ∈ entries.tail, ¬(lookupsOf k).isHead a = true := by
    intro a ha hstop
    have heq := h.distinct a (List.mem_of_mem_tail ha) hstop
    rw [hentries] at ha hnodup
    exact (List.nodup_cons.mp hnodup).1 (heq ▸ ha)
  unfold TaskLookups.visited TaskLookups.visitedFrom
  rw [addressOf_listHead h.head]
  obtain ⟨again, hvisit, hagain⟩ := visit_cycle hcycle htail h.short
  refine ⟨again, hvisit, hagain, ?_⟩
  have hof : ((k.listHead.toNat : ℕ) : ℤ) = (lookupsOf k).listHead := by
    rw [← addressOf_listHead h.head]
    exact toNat_addressOf h.head
  by_cases hlow : (lookupsOf k).listHead < 2 ^ 48
  · have hstops : ∀ a ∈ entries, (lookupsOf k).isHead a = true ↔ a = k.listHead := by
      intro a ha
      refine ⟨h.distinct a ha, ?_⟩
      rintro rfl
      have hpos := h.head.1
      unfold TaskLookups.isHead low48
      rw [decide_eq_true_eq, hof]
      omega
    rw [if_pos hlow, visit_cycle_once hcycle hstops hnodup h.short]
  -- the comparison never holds
  · rw [if_neg hlow]
    have hle := length_visit_le rd.pointer (lookupsOf k).isHead maxi k.listHead
    by_contra hne
    have hstop := stop_of_short (Nat.lt_of_le_of_ne hle hne)
    unfold TaskLookups.isHead low48 at hstop
    rw [decide_eq_true_eq] at hstop
    omega

/-- The app can walk along such a list. -/
theorem Listable.walkable (h : Listable k entries) (hk : k.Serves env)
    (hheld : rd.HeldBy env held) {g : G} (hg : held g) : (lookupsOf k).Walkable rd := by
  obtain ⟨again, hvisited, hagain, -⟩ := visited_circular h hk hheld hg
  refine ⟨h.head, ?_⟩
  rw [hvisited]
  intro a ha
  rcases List.mem_append.mp ha with ha | ha
  · exact h.reaches a ha
  · exact h.reaches a (hagain a ha)

/-- The items of a list have different keys. -/
theorem Listable.nodup_keys (h : Listable k entries) :
    ((entries.map fun a => processItem (k.process a)).map Prod.fst).Nodup := by
  rw [List.map_map]
  refine h.circular.nodup.map fun a b hab => ?_
  have hptr : ((a - k.tasksOffset).toNat : ℤ) = (b - k.tasksOffset).toNat := hab
  have hsub : a - k.tasksOffset = b - k.tasksOffset := UInt64.toNat_inj.mp (by omega)
  simpa using hsub

/-- The dict of a list. -/
theorem Listable.stored_eq (h : Listable k entries) (hk : k.Serves env)
    (hheld : rd.HeldBy env held) {g : G} (hg : held g) :
    (lookupsOf k).stored rd ((lookupsOf k).visited rd) [] =
      entries.map fun a => processItem (k.process a) := by
  obtain ⟨again, hvisited, hagain, -⟩ := visited_circular h hk hheld hg
  have hitems : ((lookupsOf k).visited rd).map ((lookupsOf k).item rd) =
      (entries.map fun a => processItem (k.process a)) ++
        again.map fun a => processItem (k.process a) := by
    rw [hvisited, List.map_append]
    congr 1
    · exact List.map_congr_left fun a ha => h.item_eq hk hheld hg ha
    · exact List.map_congr_left fun a ha => h.item_eq hk hheld hg (hagain a ha)
  have hstored : (lookupsOf k).stored rd ((lookupsOf k).visited rd) [] =
      (((lookupsOf k).visited rd).map ((lookupsOf k).item rd)).foldl
        (fun d e => PyText.assign e.1 e.2 d) [] := by
    rw [List.foldl_map]
    rfl
  rw [hstored, hitems]
  refine PyText.foldl_assign_again h.nodup_keys ?_
  intro e he
  obtain ⟨a, ha, rfl⟩ := List.mem_map.mp he
  exact List.mem_map.mpr ⟨a, hagain a ha, rfl⟩

/-- **`do_pslist` on a circular list** stores every process once, in order, and as many calls as
    the comparison makes necessary: it goes round once, or gives up after a hundred and one
    entries. -/
theorem doPslist_circular (h : Listable k entries) (hk : k.Serves env)
    (hheld : rd.HeldBy env held) (pause : Bool) {t : Tenant G PsList}
    (hg : held (t.afterIf env pause .pause).vmi.guest) (hempty : t.self.pslist = []) :
    ∃ t', Runs (doPslist env (lookupsOf k) pause) t (.ok .unit) t' ∧
      t'.self.pslist = (entries.map fun a => processItem (k.process a)) ∧
      t'.self.calls = t.self.calls ++ [1 + 3 *
        if (lookupsOf k).listHead < 2 ^ 48 then entries.length else maxi + 1] := by
  obtain ⟨-, t', _, -, hstored, hreturns, -⟩ := doPslist_runs hheld pause hg (lookupsOf k)
  have hwalk := h.walkable hk hheld hg
  obtain ⟨hrun, hcalls, -⟩ := hreturns hwalk
  obtain ⟨-, -, -, hlength⟩ := visited_circular h hk hheld hg
  rw [hwalk.listed, hempty, h.stored_eq hk hheld hg] at hstored
  rw [hlength] at hcalls
  exact ⟨t', hrun, hstored, hcalls⟩

/-- `fe.process_list`, on a circular list: a pid that two processes have is that of the later. -/
theorem processList_runs (h : Listable k entries) (hk : k.Serves env)
    (hfuel : entries.length ≤ env.fuel) (fe : FE) (w : World G) :
    ∃ w', ApiQuery.processList.run env fe w = .ok ⟨w', .ok (.pslist ((entries.map k.process).foldl
      (fun d p => PyText.assign p.pid (p.name, p.processBlockPtr) d) []))⟩ := by
  -- the request has a type, and no message
  obtain ⟨w', hrun⟩ := (processList_circular hk h.circular h.readable hfuel 0
    (VMIMessage.empty.addType (Call.processList).num) VMIMessage.empty {} (fe.asking w)).1
  refine ⟨w', ?_⟩
  have hread : pslistResult (record VMIMessage.empty (Call.processList).replyNum
      (processListReply (entries.map k.process) .success) 0) =
      .ok (.pslist ((entries.map k.process).foldl
        (fun d p => PyText.assign p.pid (p.name, p.processBlockPtr) d) [])) := by
    unfold pslistResult processListReply
    rw [firstReply_record rfl, ok_bind]
    cases entries.map k.process <;> rfl
  rw [← hread]
  show (processProtobuf env _ (fe.asking w) >>= _) = _
  rw [processProtobuf_of_type (c := .processList) rfl]
  show ((processProcessList.run .processList env 0 _ VMIMessage.empty {} (fe.asking w)).map _ >>=
    _) = _
  rw [hrun]
  rfl

/-- **The lists agree.**  On a circular list that holds still, `do_pslist` stores every process
    once and in order, whatever number of rounds the comparison leads to; the dict of
    `fe.process_list` has the same processes in the same order exactly when no two of them have one
    pid. -/
theorem processList_agrees (h : Listable k entries) (hk : k.Serves env)
    (hheld : rd.HeldBy env held) (pause : Bool) {t : Tenant G PsList}
    (hg : held (t.afterIf env pause .pause).vmi.guest) (hempty : t.self.pslist = [])
    (hfuel : entries.length ≤ env.fuel) (w : World G) :
    ∃ t' w' d, Runs (doPslist env (lookupsOf k) pause) t (.ok .unit) t' ∧
      ApiQuery.processList.run env t.fe w = .ok ⟨w', .ok (.pslist d)⟩ ∧
      t'.self.pslist = (entries.map fun a => processItem (k.process a)) ∧
      (t'.self.pslist = d.map (fun e => processItem ⟨e.1, e.2.1, e.2.2⟩) ↔
        (entries.map fun a => (k.process a).pid).Nodup) ∧
      t'.self.calls = t.self.calls ++ [1 + 3 *
        if (lookupsOf k).listHead < 2 ^ 48 then entries.length else maxi + 1] := by
  obtain ⟨t', hrun, hstored, hcalls⟩ := doPslist_circular h hk hheld pause hg hempty
  obtain ⟨w', hlist⟩ := processList_runs h hk hfuel t.fe w
  refine ⟨t', w', _, hrun, hlist, hstored, ?_, hcalls⟩
  -- both dicts are made from the processes
  let assigned := entries.map fun a =>
    ((k.process a).pid, (k.process a).name, (k.process a).processBlockPtr)
  have hfold : (entries.map k.process).foldl
      (fun d p => PyText.assign p.pid (p.name, p.processBlockPtr) d) [] =
      assigned.foldl (fun d e => PyText.assign e.1 e.2 d) [] := by
    rw [List.foldl_map, List.foldl_map]
  have hitems : (entries.map fun a => processItem (k.process a)) =
      assigned.map fun e => processItem ⟨e.1, e.2.1, e.2.2⟩ := by
    rw [List.map_map]
    rfl
  have hinj : Function.Injective fun e : Int32 × Bytes × UInt64 =>
      processItem ⟨e.1, e.2.1, e.2.2⟩ := by
    intro e e' heq
    have := processItem_injective heq
    simp only [Process.mk.injEq] at this
    exact Prod.ext this.1 (Prod.ext this.2.1 this.2.2)
  have hpids : assigned.map Prod.fst = entries.map fun a => (k.process a).pid := by
    rw [List.map_map]
    rfl
  rw [hstored, hfold, hitems, ← hpids, hinj.list_map.eq_iff, eq_comm]
  exact PyText.foldl_assign_eq_iff

end Circular

/-! ### Two tasks -/

theorem twoTasks_listable : Listable twoTasks [0, 8] where
  circular := twoTasks_circular
  readable _ _ := ⟨Option.some_ne_none _, Option.some_ne_none _⟩
  head := by decide
  reaches := List.forall_mem_cons.mpr ⟨by decide, List.forall_mem_singleton.mpr (by decide)⟩
  inside := List.forall_mem_cons.mpr ⟨by decide, List.forall_mem_singleton.mpr (by decide)⟩
  distinct := List.forall_mem_cons.mpr ⟨by decide, List.forall_mem_singleton.mpr (by decide)⟩
  short := by decide

/-- Both ways list the two. -/
theorem processList_agrees_twoTasks : ∃ t' w' d,
    Runs (doPslist twoTasksEnv (lookupsOf twoTasks) false) (echoTenant PsList {}) (.ok .unit) t' ∧
    ApiQuery.processList.run twoTasksEnv ⟨[1], ∅, ∅, 0, false⟩ (World.initial ()) =
      .ok ⟨w', .ok (.pslist d)⟩ ∧
    t'.self.pslist = [(0, 0, .field (.str [])), (8, 8, .field (.str []))] ∧
    t'.self.pslist = d.map fun e => processItem ⟨e.1, e.2.1, e.2.2⟩ := by
  obtain ⟨t', w', d, hrun, hlist, hstored, hagree, -⟩ :=
    processList_agrees (t := echoTenant PsList {}) twoTasks_listable twoTasks_serves
      twoTasksReadings_heldBy false trivial rfl (by decide) (World.initial ())
  exact ⟨t', w', d, hrun, hlist, hstored, hagree.mpr (by decide)⟩

end Furnace.App
