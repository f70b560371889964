import Furnace.App.Tenant
import Furnace.Lib.Visit
import Furnace.Vmi.TaskList

namespace Furnace.App

open Furnace.Proto Furnace.Lib Furnace.Vmi

/-!
# A process list, read call by call

The app `app_pslist_single` walks along the guest's task list with three API calls for each entry,
and reads one pointer ahead.  It compares the low 48 bits of a pointer with the head of the list,
and gives up after a hundred rounds.

* `doPslist` — the walk, with what it stores in the app and counts.
* `TaskLookups.visited` — the entries that it comes to: a walk of bounded length.
* `doPslist_runs` — **what the walk does**, on every guest that holds still: it stores the visited
  entries in order, up to the first one whose name or pid lies outside the address space.
-/

variable {G S : Type}

/-! ### The app -/

/-- `self.lookups`, as the API calls return them. -/
structure TaskLookups where
  nameOffset : UInt64
  pidOffset : UInt64
  tasksOffset : UInt64
  initTask : UInt64

/-- The members of the app that the walk uses.  `pslist` is a dict, as the list of its items. -/
structure PsList where
  pslist : List (ℤ × ℤ × Value) := []
  calls : List ℕ := []
  procs : List ℕ := []

namespace TaskLookups

/-- `list_head`: a sum of Python's, which does not wrap around. -/
def listHead (lk : TaskLookups) : ℤ := lk.initTask.toNat + lk.tasksOffset.toNat

/-- `cur_proc + pid_offset`. -/
def pidAt (lk : TaskLookups) (cur : ℤ) : ℤ := cur - lk.tasksOffset.toNat + lk.pidOffset.toNat

/-- `cur_proc + name_offset`. -/
def nameAt (lk : TaskLookups) (cur : ℤ) : ℤ := cur - lk.tasksOffset.toNat + lk.nameOffset.toNat

end TaskLookups

/-- `n & 0xffffffffffff`. -/
def low48 (n : ℤ) : ℤ := n % 2 ^ 48

/-- `maxi`. -/
def maxi : ℕ := 100

/-- `if pause: fe.pause_vm()`, and the same of `resume_vm`. -/
def askIf (env : Env G) (pause : Bool) (q : ApiQuery) : AppM G S PUnit :=
  if pause then do
    let _ ← ask env q
    pure .unit
  else pure .unit

/-- One round up to the comparison: the entry `cur` is stored under the address of its process,
    and the pointer in the entry `next` is read. -/
def pslistRound (env : Env G) (lk : TaskLookups) (cur next : ℤ) : AppM G PsList ℤ := do
  let pid ← askInt env (.read32Va (.ok (lk.pidAt cur)) (.ok 0))
  let procname ← ask env (.readStrVa (.ok (lk.nameAt cur)) (.ok 0))
  setSelf fun s =>
    { s with pslist := PyText.assign (cur - lk.tasksOffset.toNat) (pid, procname) s.pslist }
  askInt env (.readAddrVa (.ok next) (.ok 0))

/-- The loop, with `left` rounds to go after the next: the numbers of calls and processes. -/
def pslistLoop (env : Env G) (lk : TaskLookups) : ℕ → ℤ → ℤ → ℕ → ℕ → AppM G PsList (ℕ × ℕ)
  | 0, cur, next, calls, procs => do
    let _ ← pslistRound env lk cur next
    -- `i > maxi`
    pure (calls + 3, procs)
  | left + 1, cur, next, calls, procs => do
    let next' ← pslistRound env lk cur next
    -- the last process is not counted
    if low48 next = lk.listHead then pure (calls + 3, procs)
    else pslistLoop env lk left next next' (calls + 3) (procs + 1)

/-- `do_pslist`. -/
def doPslist (env : Env G) (lk : TaskLookups) (pause : Bool) : AppM G PsList PUnit := do
  askIf env pause .pauseVm
  let next ← askInt env (.readAddrVa (.ok lk.listHead) (.ok 0))
  let counts ← pslistLoop env lk maxi lk.listHead next 1 0
  setSelf fun s => { s with calls := s.calls ++ [counts.1], procs := s.procs ++ [counts.2] }
  askIf env pause .resumeVm

/-- After an operation that the app makes if it is to pause the guest. -/
def Tenant.afterIf (t : Tenant G S) (env : Env G) (pause : Bool) (op : ExtOp) : Tenant G S :=
  if pause then t.after env op else t

@[simp] theorem afterIf_self (t : Tenant G S) (env : Env G) (pause : Bool) (op : ExtOp) :
    (t.afterIf env pause op).self = t.self := by
  cases pause <;> rfl

theorem afterIf_ops (t : Tenant G S) (env : Env G) (pause : Bool) (op : ExtOp) :
    (t.afterIf env pause op).vmi.ops = t.vmi.ops ++ if pause then [op] else [] := by
  cases pause
  · exact (List.append_nil _).symm
  · rfl

theorem askIf_runs {env : Env G} {t : Tenant G S} {q : ApiQuery} {op : ExtOp}
    (h : Runs (ask env q) t (.ok .nothing) (t.after env op)) (pause : Bool) :
    Runs (askIf env pause q) t (.ok .unit) (t.afterIf env pause op) := by
  cases pause with
  | false => exact runs_pure _ _
  | true => exact h.bind (runs_pure _ _)

/-! ### The entries -/

namespace TaskLookups

/-- The pid and the name of the process of an entry are inside the address space. -/
def Reaches (lk : TaskLookups) (a : UInt64) : Prop :=
  IsAddress (lk.pidAt a.toNat) ∧ IsAddress (lk.nameAt a.toNat)

instance (lk : TaskLookups) (a : UInt64) : Decidable (lk.Reaches a) :=
  inferInstanceAs (Decidable (_ ∧ _))

/-- Whether the walk takes a pointer for that to the head of the list. -/
def isHead (lk : TaskLookups) (a : UInt64) : Bool := decide (low48 a.toNat = lk.listHead)

/-- The entries from `a` on, as far as `left` further ones. -/
def visitedFrom (lk : TaskLookups) (rd : Readings) (left : ℕ) (a : UInt64) : List UInt64 :=
  visit rd.pointer lk.isHead left a

/-- The entries of the whole walk. -/
def visited (lk : TaskLookups) (rd : Readings) : List UInt64 :=
  lk.visitedFrom rd maxi (addressOf lk.listHead)

/-- The item for an entry. -/
def item (lk : TaskLookups) (rd : Readings) (a : UInt64) : ℤ × ℤ × Value :=
  (a.toNat - lk.tasksOffset.toNat, (rd.word (addressOf (lk.pidAt a.toNat))).toNat,
    .field (.str (rd.string (addressOf (lk.nameAt a.toNat)))))

/-- The entries are stored one after the other. -/
def stored (lk : TaskLookups) (rd : Readings) (es : List UInt64)
    (d : List (ℤ × ℤ × Value)) : List (ℤ × ℤ × Value) :=
  es.foldl (fun d a => PyText.assign (lk.item rd a).1 (lk.item rd a).2 d) d

end TaskLookups

/-! ### What reading does -/

/-- The operations that only read the guest. -/
def IsRead : ExtOp → Prop
  | .readAddr _ | .readNum _ _ | .readStr _ => True
  | _ => False

/-- From `t` to `t'` the app has read a guest that holds still, and done nothing else to it. -/
structure Looked (held : G → Prop) (t t' : Tenant G S) : Prop where
  held : held t'.vmi.guest
  fe : t'.fe = t.fe
  reads : ∃ ops, t'.vmi.ops = t.vmi.ops ++ ops ∧ ∀ op ∈ ops, IsRead op

section Looked

variable {held : G → Prop} {t t₁ t₂ : Tenant G S}

theorem Looked.refl (h : held t.vmi.guest) : Looked held t t :=
  ⟨h, rfl, [], by simp, nofun⟩

theorem Looked.trans (h₁ : Looked held t t₁) (h₂ : Looked held t₁ t₂) : Looked held t t₂ := by
  obtain ⟨ops₁, hops₁, hread₁⟩ := h₁.reads
  obtain ⟨ops₂, hops₂, hread₂⟩ := h₂.reads
  refine ⟨h₂.held, h₂.fe.trans h₁.fe, ops₁ ++ ops₂, ?_, ?_⟩
  · rw [hops₂, hops₁, List.append_assoc]
  · intro op hop
    rcases List.mem_append.mp hop with hop | hop
    · exact hread₁ op hop
    · exact hread₂ op hop

theorem Looked.setSelf (h : Looked held t t₁) (s : S) : Looked held t { t₁ with self := s } :=
  ⟨h.held, h.fe, h.reads⟩

theorem Looked.after {env : Env G} {op : ExtOp} (hop : IsRead op)
    (h : held (env.exec op t.vmi.guest).2) : Looked held t (t.after env op) := by
  refine ⟨h, rfl, [op], rfl, ?_⟩
  intro op' hmem
  rw [List.mem_singleton] at hmem
  rwa [hmem]

end Looked

/-! ### The walk -/

section Walk

variable {env : Env G} {t : Tenant G PsList} {rd : Readings} {held : G → Prop} {lk : TaskLookups}

/-- **One round** stores its entry. -/
theorem pslistRound_runs (hheld : rd.HeldBy env held) (hg : held t.vmi.guest) {cur : UInt64}
    (hcur : lk.Reaches cur) (next : UInt64) :
    ∃ t', Runs (pslistRound env lk cur.toNat next.toNat) t (.ok (rd.pointer next).toNat) t' ∧
      Looked held t t' ∧
      t'.self = { t.self with pslist := lk.stored rd [cur] t.self.pslist } := by
  obtain ⟨hpid, hname⟩ := hcur
  let pidOp : ExtOp := .readNum .w32 (.va (addressOf (lk.pidAt cur.toNat)) 0)
  let nameOp : ExtOp := .readStr (.va (addressOf (lk.nameAt cur.toNat)) 0)
  have hlook₁ : Looked held t (t.after env pidOp) := .after trivial (hheld.word _ _ hg).2
  have hlook₂ : Looked held t ((t.after env pidOp).after env nameOp) :=
    hlook₁.trans (.after trivial (hheld.string _ _ hlook₁.held).2)
  let t₃ : Tenant G PsList := { (t.after env pidOp).after env nameOp with
    self := { t.self with pslist := lk.stored rd [cur] t.self.pslist } }
  have hlook₃ : Looked held t t₃ := hlook₂.setSelf _
  have hread₁ := read32Va_runs (t := t) hheld hg (addressOf (lk.pidAt cur.toNat))
  have hread₂ := readStrVa_runs hheld hlook₁.held (addressOf (lk.nameAt cur.toNat))
  have hread₃ := readAddrVa_runs hheld hlook₃.held next
  rw [toNat_addressOf hpid] at hread₁
  rw [toNat_addressOf hname] at hread₂
  exact ⟨_, hread₁.bind (hread₂.bind (Runs.bind (runs_modify _ _) hread₃)),
    hlook₃.trans (.after trivial (hheld.pointer _ _ hlook₃.held).2), rfl⟩

/-- A round for an entry that reaches outside the address space raises before it stores. -/
theorem pslistRound_raises (hheld : rd.HeldBy env held) (hg : held t.vmi.guest) {cur : UInt64}
    (hcur : ¬lk.Reaches cur) (next : ℤ) :
    ∃ t', Runs (pslistRound env lk cur.toNat next) t (.error .valueError) t' ∧
      Looked held t t' ∧ t'.self = t.self := by
  by_cases hpid : IsAddress (lk.pidAt cur.toNat)
  · have hname : ¬IsAddress (lk.nameAt cur.toNat) := fun h => hcur ⟨hpid, h⟩
    have hread := read32Va_runs (t := t) hheld hg (addressOf (lk.pidAt cur.toNat))
    rw [toNat_addressOf hpid] at hread
    exact ⟨_, hread.bind (Runs.bind_raises (readStrVa_refused hname)),
      Looked.after trivial (hheld.word _ _ hg).2, rfl⟩
  · exact ⟨t, Runs.bind_raises (read32Va_refused hpid), .refl hg, rfl⟩

/-- The entries that are stored: those before the first that reaches outside. -/
def TaskLookups.reached (lk : TaskLookups) (es : List UInt64) : List UInt64 :=
  es.takeWhile fun a => decide (lk.Reaches a)

@[simp] theorem TaskLookups.reached_nil (lk : TaskLookups) : lk.reached [] = [] := rfl

theorem TaskLookups.reached_cons {a : UInt64} (ha : lk.Reaches a) (es : List UInt64) :
    lk.reached (a :: es) = a :: lk.reached es := by
  simp [TaskLookups.reached, ha]

theorem TaskLookups.reached_cons_of_not {a : UInt64} (ha : ¬lk.Reaches a) (es : List UInt64) :
    lk.reached (a :: es) = [] := by
  simp [TaskLookups.reached, ha]

/-- **The loop** stores the entries that it reaches, and returns if these are all. -/
theorem pslistLoop_runs (hheld : rd.HeldBy env held) (hg : held t.vmi.guest)
    (lk : TaskLookups) (left : ℕ) (cur : UInt64) (calls procs : ℕ) :
    ∃ t', Runs (pslistLoop env lk left cur.toNat (rd.pointer cur).toNat calls procs) t
        (if lk.reached (lk.visitedFrom rd left cur) = lk.visitedFrom rd left cur then
          .ok (calls + 3 * (lk.visitedFrom rd left cur).length,
            procs + (lk.visitedFrom rd left cur).length - 1)
        else .error .valueError) t' ∧
      Looked held t t' ∧ t'.self = { t.self with
        pslist := lk.stored rd (lk.reached (lk.visitedFrom rd left cur)) t.self.pslist } := by
  unfold TaskLookups.visitedFrom
  induction left generalizing cur calls procs t with
  | zero =>
    by_cases hcur : lk.Reaches cur
    · obtain ⟨t', hrun, hlook, hself⟩ := pslistRound_runs hheld hg hcur (rd.pointer cur)
      refine ⟨t', ?_, hlook, ?_⟩
      · rw [visit, lk.reached_cons hcur, lk.reached_nil, if_pos rfl]
        exact hrun.bind (runs_pure _ _)
      · rw [hself, visit, lk.reached_cons hcur]
        rfl
    · obtain ⟨t', hrun, hlook, hself⟩ := pslistRound_raises hheld hg hcur (rd.pointer cur).toNat
      refine ⟨t', ?_, hlook, ?_⟩
      · rw [visit, lk.reached_cons_of_not hcur]
        exact Runs.bind_raises hrun
      · rw [hself, visit, lk.reached_cons_of_not hcur]
        rfl
  | succ left ih =>
    by_cases hcur : lk.Reaches cur
    · obtain ⟨t₁, hrun, hlook, hself⟩ := pslistRound_runs hheld hg hcur (rd.pointer cur)
      by_cases hhead : low48 (rd.pointer cur).toNat = lk.listHead
      · have hstop : lk.isHead (rd.pointer cur) = true := decide_eq_true hhead
        refine ⟨t₁, ?_, hlook, ?_⟩
        · rw [visit_succ_of_stop hstop, lk.reached_cons hcur, lk.reached_nil, if_pos rfl]
          refine hrun.bind ?_
          rw [if_pos hhead]
          exact runs_pure _ _
        · rw [hself, visit_succ_of_stop hstop, lk.reached_cons hcur]
          rfl
      · have hgo : ¬lk.isHead (rd.pointer cur) = true := by simpa [TaskLookups.isHead] using hhead
        obtain ⟨t', hrest, hlook', hself'⟩ :=
          ih (t := t₁) hlook.held (rd.pointer cur) (calls + 3) (procs + 1)
        refine ⟨t', ?_, hlook.trans hlook', ?_⟩
        · rw [visit_succ_of_not_stop hgo, lk.reached_cons hcur]
          refine hrun.bind ?_
          rw [if_neg hhead]
          simp only [List.cons.injEq, true_and, List.length_cons]
          have hcalls : calls + 3 + 3 * (visit rd.pointer lk.isHead left (rd.pointer cur)).length =
              calls + 3 * ((visit rd.pointer lk.isHead left (rd.pointer cur)).length + 1) := by
            omega
          have hprocs : procs + 1 + (visit rd.pointer lk.isHead left (rd.pointer cur)).length - 1 =
              procs + ((visit rd.pointer lk.isHead left (rd.pointer cur)).length + 1) - 1 := by
            omega
          rw [← hcalls, ← hprocs]
          exact hrest
        · rw [hself', hself, visit_succ_of_not_stop hgo, lk.reached_cons hcur]
          rfl
    · obtain ⟨t', hrun, hlook, hself⟩ := pslistRound_raises hheld hg hcur (rd.pointer cur).toNat
      obtain ⟨rest, hrest⟩ := visit_eq_cons rd.pointer lk.isHead (left + 1) cur
      refine ⟨t', ?_, hlook, ?_⟩
      · rw [hrest, lk.reached_cons_of_not hcur]
        exact Runs.bind_raises hrun
      · rw [hself, hrest, lk.reached_cons_of_not hcur]
        rfl

/-- The walk comes to its end: the head of the list is an address, and all visited entries have
    their names and pids inside the address space. -/
structure TaskLookups.Walkable (lk : TaskLookups) (rd : Readings) : Prop where
  head : IsAddress lk.listHead
  entries : ∀ a ∈ lk.visited rd, lk.Reaches a

theorem TaskLookups.reached_eq_iff (lk : TaskLookups) (es : List UInt64) :
    lk.reached es = es ↔ ∀ a ∈ es, lk.Reaches a := by
  simp [TaskLookups.reached, List.takeWhile_eq_self_iff]

/-- The entries that the app stores. -/
def TaskLookups.listed (lk : TaskLookups) (rd : Readings) : List UInt64 :=
  if IsAddress lk.listHead then lk.reached (lk.visited rd) else []

theorem TaskLookups.Walkable.listed (h : lk.Walkable rd) : lk.listed rd = lk.visited rd := by
  rw [TaskLookups.listed, if_pos h.head]
  exact (lk.reached_eq_iff _).mpr h.entries

/-- **What the walk does**, on every guest that holds still once it is paused.  It stores what it
    has visited, in order, at most a hundred and one entries; apart from reads it does nothing but
    pause and resume the guest.  It returns exactly when all that it visits is inside the address
    space; otherwise it raises, and leaves the guest paused. -/
theorem doPslist_runs (hheld : rd.HeldBy env held) (pause : Bool)
    (hg : held (t.afterIf env pause .pause).vmi.guest) (lk : TaskLookups) :
    (lk.listed rd).length ≤ 101 ∧
    ∃ t' reads, (∀ op ∈ reads, IsRead op) ∧
      t'.self.pslist = lk.stored rd (lk.listed rd) t.self.pslist ∧
      (lk.Walkable rd → Runs (doPslist env lk pause) t (.ok .unit) t' ∧
        t'.self.calls = t.self.calls ++ [1 + 3 * (lk.visited rd).length] ∧
        t'.self.procs = t.self.procs ++ [(lk.visited rd).length - 1] ∧
        t'.vmi.ops = t.vmi.ops ++ (if pause then [.pause] else []) ++ reads ++
          if pause then [.resume] else []) ∧
      (¬lk.Walkable rd → Runs (doPslist env lk pause) t (.error .valueError) t' ∧
        t'.self.calls = t.self.calls ∧ t'.self.procs = t.self.procs ∧
        t'.vmi.ops = t.vmi.ops ++ (if pause then [.pause] else []) ++ reads) := by
  have hlength : (lk.listed rd).length ≤ 101 := by
    rw [TaskLookups.listed]
    split
    · exact (List.takeWhile_prefix _).length_le.trans (length_visit_le _ _ _ _)
    · exact Nat.zero_le _
  refine ⟨hlength, ?_⟩
  have hpause := askIf_runs (pauseVm_runs env t) pause
  generalize ht₁ : t.afterIf env pause .pause = t₁ at hpause hg
  have hself₁ : t₁.self = t.self := by rw [← ht₁, afterIf_self]
  have hops₁ : t₁.vmi.ops = t.vmi.ops ++ if pause then [.pause] else [] := by
    rw [← ht₁, afterIf_ops]
  by_cases hhead : IsAddress lk.listHead
  · have hread := readAddrVa_runs hheld hg (addressOf lk.listHead)
    rw [toNat_addressOf hhead] at hread
    have hlook : Looked held t₁ (t₁.after env (.readAddr (.va (addressOf lk.listHead) 0))) :=
      .after trivial (hheld.pointer _ _ hg).2
    obtain ⟨t₂, hloop, hlook₂, hself₂⟩ :=
      pslistLoop_runs hheld hlook.held lk maxi (addressOf lk.listHead) 1 0
    rw [toNat_addressOf hhead] at hloop
    obtain ⟨reads, hops, hreads⟩ := (hlook.trans hlook₂).reads
    have hlisted : lk.listed rd = lk.reached (lk.visited rd) := if_pos hhead
    by_cases hwalk : lk.Walkable rd
    · have hall : lk.reached (lk.visitedFrom rd maxi (addressOf lk.listHead)) =
          lk.visitedFrom rd maxi (addressOf lk.listHead) :=
        (lk.reached_eq_iff _).mpr hwalk.entries
      rw [if_pos hall] at hloop
      let t₃ : Tenant G PsList := { t₂ with self := { t₂.self with
        calls := t₂.self.calls ++ [1 + 3 * (lk.visited rd).length]
        procs := t₂.self.procs ++ [0 + (lk.visited rd).length - 1] } }
      have hresume := askIf_runs (resumeVm_runs env t₃) pause
      refine ⟨t₃.afterIf env pause .resume, reads, hreads, ?_, fun _ => ⟨?_, ?_, ?_, ?_⟩,
        fun h => absurd hwalk h⟩
      · rw [afterIf_self, hlisted, ← hself₁]
        show t₂.self.pslist = _
        rw [hself₂]
        rfl
      · exact hpause.bind (hread.bind (hloop.bind (Runs.bind (runs_modify _ _) hresume)))
      · rw [afterIf_self, ← hself₁]
        show t₂.self.calls ++ _ = _
        rw [hself₂]
        rfl
      · rw [afterIf_self, ← hself₁]
        show t₂.self.procs ++ [0 + (lk.visited rd).length - 1] = _
        rw [hself₂, Nat.zero_add]
        rfl
      · rw [afterIf_ops]
        show t₂.vmi.ops ++ _ = _
        rw [hops, hops₁]
    · have hnot : ¬lk.reached (lk.visitedFrom rd maxi (addressOf lk.listHead)) =
          lk.visitedFrom rd maxi (addressOf lk.listHead) :=
        fun h => hwalk ⟨hhead, (lk.reached_eq_iff _).mp h⟩
      rw [if_neg hnot] at hloop
      refine ⟨t₂, reads, hreads, ?_, fun h => absurd h hwalk, fun _ => ⟨?_, ?_, ?_, ?_⟩⟩
      · rw [hlisted, ← hself₁, hself₂]
        rfl
      · exact hpause.bind (hread.bind (Runs.bind_raises hloop))
      · rw [← hself₁, hself₂]
        rfl
      · rw [← hself₁, hself₂]
        rfl
      · rw [hops, hops₁]
  -- the head of the list is beyond all addresses
  · have hwalk : ¬lk.Walkable rd := fun h => hhead h.head
    have hlisted : lk.listed rd = [] := if_neg hhead
    refine ⟨t₁, [], nofun, ?_, fun h => absurd h hwalk, fun _ => ⟨?_, ?_, ?_, ?_⟩⟩
    · rw [hlisted, hself₁]
      rfl
    · exact hpause.bind (Runs.bind_raises (readAddrVa_refused hhead))
    · rw [hself₁]
    · rw [hself₁]
    · rw [hops₁, List.append_nil]

end Walk

/-! ### A list of two entries -/

/-- What the guest with two tasks reads. -/
def twoTasksReadings : Readings where
  pointer a := if a = 0 then 8 else 0
  word a := a.toUInt32
  string _ := []

theorem twoTasksReadings_heldBy : twoTasksReadings.HeldBy twoTasksEnv fun _ => True where
  pointer _ _ _ := ⟨rfl, trivial⟩
  word _ a _ := ⟨UInt32.toUInt32_toUInt64 a.toUInt32, trivial⟩
  string _ _ _ := ⟨rfl, trivial⟩

/-- What the app has looked up of that guest. -/
def twoTasksLookups : TaskLookups := ⟨0, 0, 0, 0⟩

theorem twoTasks_walkable : twoTasksLookups.Walkable twoTasksReadings where
  head := by decide
  entries := List.forall_mem_cons.mpr ⟨by decide, List.forall_mem_singleton.mpr (by decide)⟩

/-- An app with nothing listed. -/
def echoTenant (S : Type) (self : S) : Tenant Unit S :=
  ⟨World.initial (), ⟨[1], ∅, ∅, 0, false⟩, self⟩

end Furnace.App
