import Furnace.App.TaskLists

namespace Furnace.App

open Furnace.Proto Furnace.Lib Furnace.Vmi

/-!
# A list of kernel modules

The app `app_modlist` walks along the guest's list of modules, from its head, and logs names.  It
reads the next pointer first, and leaves the loop before it has logged the name that belongs to
the entry it stands at.

* `doModlist` — the walk, with what it logs.
* `doModlist_runs` — what is logged, on every guest that holds still: the names at all entries of
  the walk but the last.
* `modlist_circular` — **on a circular list** the head is logged as if it were a module, and the
  last module is not logged.
-/

variable {G : Type}

/-! ### The app -/

/-- The loop, with `left` names to go. -/
def modlistLoop (env : Env G) (listHead : ℤ) : ℕ → ℤ → AppM G (List Value) PUnit
  | 0, next => do
    let _ ← askInt env (.readAddrVa (.ok next) (.ok 0))
    -- `i > maxi`
    pure .unit
  | left + 1, next => do
    let tmpNext ← askInt env (.readAddrVa (.ok next) (.ok 0))
    if low48 tmpNext = listHead then pure .unit
    else
      let modname ← ask env (.readStrVa (.ok (next + 16)) (.ok 0))
      setSelf (· ++ [modname])
      modlistLoop env listHead left tmpNext

/-- `do_modlist`; the state of the app is what it has logged. -/
def doModlist (env : Env G) (listHead : ℤ) : AppM G (List Value) PUnit := do
  let _ ← ask env .pauseVm
  modlistLoop env listHead (maxi + 1) listHead
  let _ ← ask env .resumeVm
  pure .unit

/-! ### The entries -/

/-- Whether the walk takes a pointer for that to the head of the list. -/
def isListHead (listHead a : UInt64) : Bool := decide (low48 a.toNat = listHead.toNat)

/-- The name at an entry is inside the address space. -/
def HasName (a : UInt64) : Prop := IsAddress (a.toNat + 16)

instance (a : UInt64) : Decidable (HasName a) := inferInstanceAs (Decidable (IsAddress _))

/-- The line for an entry. -/
def moduleLine (rd : Readings) (a : UInt64) : Value :=
  .field (.str (rd.string (addressOf (a.toNat + 16))))

/-- The entries of a walk at which a name is logged. -/
def loggedFrom (rd : Readings) (listHead : UInt64) (left : ℕ) (a : UInt64) : List UInt64 :=
  (visit rd.pointer (isListHead listHead) left a).dropLast

/-- The entries before the first whose name is outside the address space. -/
def named (es : List UInt64) : List UInt64 := es.takeWhile fun a => decide (HasName a)

theorem named_cons {a : UInt64} (ha : HasName a) (es : List UInt64) :
    named (a :: es) = a :: named es := by
  simp [named, ha]

theorem named_cons_of_not {a : UInt64} (ha : ¬HasName a) (es : List UInt64) :
    named (a :: es) = [] := by
  simp [named, ha]

theorem named_eq_iff (es : List UInt64) : named es = es ↔ ∀ a ∈ es, HasName a := by
  simp [named, List.takeWhile_eq_self_iff]

/-- How the walk ends: it raises at the first name outside the address space. -/
def namesOutcome : List UInt64 → Except PyError PUnit
  | [] => .ok .unit
  | a :: es => if HasName a then namesOutcome es else .error .valueError

theorem namesOutcome_of_all {es : List UInt64} (h : ∀ a ∈ es, HasName a) :
    namesOutcome es = .ok .unit := by
  induction es with
  | nil => rfl
  | cons a es ih =>
    obtain ⟨ha, hes⟩ := List.forall_mem_cons.mp h
    rw [namesOutcome, if_pos ha, ih hes]

theorem namesOutcome_of_not_all {es : List UInt64} (h : ¬∀ a ∈ es, HasName a) :
    namesOutcome es = .error .valueError := by
  induction es with
  | nil => exact absurd nofun h
  | cons a es ih =>
    rw [namesOutcome]
    split
    · next ha => exact ih fun hes => h (List.forall_mem_cons.mpr ⟨ha, hes⟩)
    · rfl

section Walk

variable {env : Env G} {t : Tenant G (List Value)} {rd : Readings} {held : G → Prop}
  {listHead : UInt64}

theorem loggedFrom_of_stop {left : ℕ} {a : UInt64}
    (h : isListHead listHead (rd.pointer a) = true) : loggedFrom rd listHead (left + 1) a = [] := by
  rw [loggedFrom, visit_succ_of_stop h]
  rfl

theorem loggedFrom_of_not_stop {left : ℕ} {a : UInt64}
    (h : ¬isListHead listHead (rd.pointer a) = true) :
    loggedFrom rd listHead (left + 1) a = a :: loggedFrom rd listHead left (rd.pointer a) := by
  obtain ⟨rest, hrest⟩ := visit_eq_cons rd.pointer (isListHead listHead) left (rd.pointer a)
  rw [loggedFrom, visit_succ_of_not_stop h, loggedFrom, hrest]
  rfl

/-- **The loop** logs the names that it can, and returns if these are all. -/
theorem modlistLoop_runs (hheld : rd.HeldBy env held) (hg : held t.vmi.guest)
    (listHead : UInt64) (left : ℕ) (a : UInt64) :
    ∃ t', Runs (modlistLoop env listHead.toNat left a.toNat) t
        (namesOutcome (loggedFrom rd listHead left a)) t' ∧
      Looked held t t' ∧
      t'.self = t.self ++ (named (loggedFrom rd listHead left a)).map (moduleLine rd) := by
  induction left generalizing a t with
  | zero =>
    have hlook : Looked held t (t.after env (.readAddr (.va a 0))) :=
      .after trivial (hheld.pointer _ _ hg).2
    refine ⟨_, ?_, hlook, (List.append_nil _).symm⟩
    exact (readAddrVa_runs hheld hg a).bind (runs_pure _ _)
  | succ left ih =>
    have hread := readAddrVa_runs (t := t) hheld hg a
    have hlook₁ : Looked held t (t.after env (.readAddr (.va a 0))) :=
      .after trivial (hheld.pointer _ _ hg).2
    by_cases hhead : low48 (rd.pointer a).toNat = listHead.toNat
    · refine ⟨_, ?_, hlook₁, ?_⟩
      · rw [loggedFrom_of_stop (decide_eq_true hhead)]
        refine hread.bind ?_
        rw [if_pos hhead]
        exact runs_pure _ _
      · rw [loggedFrom_of_stop (decide_eq_true hhead)]
        exact (List.append_nil _).symm
    · have hgo : ¬isListHead listHead (rd.pointer a) = true := by simpa [isListHead] using hhead
      rw [loggedFrom_of_not_stop hgo]
      by_cases hname : HasName a
      · let nameOp : ExtOp := .readStr (.va (addressOf (a.toNat + 16)) 0)
        have hlook₂ : Looked held t ((t.after env (.readAddr (.va a 0))).after env nameOp) :=
          hlook₁.trans (.after trivial (hheld.string _ _ hlook₁.held).2)
        have hstr := readStrVa_runs hheld hlook₁.held (addressOf (a.toNat + 16))
        rw [toNat_addressOf hname] at hstr
        obtain ⟨t', hrest, hlook, hself⟩ := ih (t := { (t.after env (.readAddr (.va a 0))).after
          env nameOp with self := t.self ++ [moduleLine rd a] }) hlook₂.held (rd.pointer a)
        refine ⟨t', ?_, (hlook₂.setSelf _).trans hlook, ?_⟩
        · refine hread.bind ?_
          rw [if_neg hhead]
          refine hstr.bind (Runs.bind (runs_modify _ _) ?_)
          rw [namesOutcome, if_pos hname]
          exact hrest
        · rw [hself, named_cons hname, List.map_cons, List.append_assoc]
          rfl
      -- the name is refused before anything is asked
      · refine ⟨_, ?_, hlook₁, ?_⟩
        · refine hread.bind ?_
          rw [if_neg hhead, namesOutcome, if_neg hname]
          exact Runs.bind_raises (readStrVa_refused hname)
        · rw [named_cons_of_not hname]
          exact (List.append_nil _).symm

/-- The entries at which the app logs a name. -/
def logged (rd : Readings) (listHead : UInt64) : List UInt64 :=
  loggedFrom rd listHead (maxi + 1) listHead

/-- **What is logged**, on every guest that holds still once it is paused: the names at all entries
    of the walk but the last, at most a hundred and one.  Apart from reads the app does nothing but
    pause and resume the guest.  If a name is outside the address space, it raises there, and
    leaves the guest paused. -/
theorem doModlist_runs (hheld : rd.HeldBy env held) (hg : held (t.after env .pause).vmi.guest)
    (listHead : UInt64) : (logged rd listHead).length ≤ 101 ∧ ∃ t' reads,
      (∀ op ∈ reads, IsRead op) ∧
      t'.self = t.self ++ (named (logged rd listHead)).map (moduleLine rd) ∧
      ((∀ a ∈ logged rd listHead, HasName a) →
        Runs (doModlist env listHead.toNat) t (.ok .unit) t' ∧
        t'.vmi.ops = t.vmi.ops ++ [.pause] ++ reads ++ [.resume]) ∧
      ((¬∀ a ∈ logged rd listHead, HasName a) →
        Runs (doModlist env listHead.toNat) t (.error .valueError) t' ∧
        t'.vmi.ops = t.vmi.ops ++ [.pause] ++ reads) := by
  have hlength : (logged rd listHead).length ≤ 101 := by
    have hle := length_visit_le rd.pointer (isListHead listHead) (maxi + 1) listHead
    rw [logged, loggedFrom, List.length_dropLast]
    unfold maxi at hle ⊢
    omega
  refine ⟨hlength, ?_⟩
  have hpause := pauseVm_runs env t
  obtain ⟨t₁, hloop, hlook, hself⟩ := modlistLoop_runs hheld hg listHead (maxi + 1) listHead
  obtain ⟨reads, hops, hreads⟩ := hlook.reads
  by_cases hall : ∀ a ∈ loggedFrom rd listHead (maxi + 1) listHead, HasName a
  · rw [namesOutcome_of_all hall] at hloop
    refine ⟨t₁.after env .resume, reads, hreads, hself, fun _ => ⟨?_, ?_⟩, fun h => absurd hall h⟩
    · exact hpause.bind (hloop.bind ((resumeVm_runs env t₁).bind (runs_pure _ _)))
    · rw [after_ops, hops, after_ops]
  · rw [namesOutcome_of_not_all hall] at hloop
    refine ⟨t₁, reads, hreads, hself, fun h => absurd h hall, fun _ => ⟨?_, ?_⟩⟩
    · exact hpause.bind (Runs.bind_raises hloop)
    · rw [hops, after_ops]

end Walk

/-! ### Circular lists -/

section Circular

variable {rd : Readings} {listHead : UInt64} {entries : List UInt64}

/-- **What is logged of a circular list.**  If the head of the list is below `2 ^ 48`, the walk
    goes round once: the head is logged, and the last entry is not.  Otherwise it goes round and
    round until it gives up, after a hundred and one names. -/
theorem logged_circular (h : Cycle rd.pointer listHead entries) (hnodup : entries.Nodup)
    (hdistinct : ∀ a ∈ entries, isListHead listHead a = true → a = listHead)
    (hshort : entries.length ≤ maxi + 2) :
    (∀ a ∈ logged rd listHead, a ∈ entries) ∧
      if listHead.toNat < 2 ^ 48 then logged rd listHead = entries.dropLast
      else (logged rd listHead).length = maxi + 1 ∧
        ∀ i < maxi + 1, (logged rd listHead)[i]? = entries[i % entries.length]? := by
  have hhead : listHead ∈ entries := List.mem_of_mem_head? h.1
  have hinside : ∀ b ∈ visit rd.pointer (isListHead listHead) (maxi + 1) listHead, b ∈ entries :=
    visit_subset (fun b hb => h.next_mem hb) hhead
  refine ⟨fun a ha => hinside a (List.dropLast_subset _ ha), ?_⟩
  unfold logged loggedFrom
  split
  · next hlt =>
    have hstops : ∀ a ∈ entries, isListHead listHead a = true ↔ a = listHead := by
      intro a ha
      refine ⟨hdistinct a ha, ?_⟩
      rintro rfl
      unfold isListHead low48
      rw [decide_eq_true_eq]
      omega
    rw [visit_cycle_once h hstops hnodup hshort]
  -- no pointer of 48 bits is the head
  · next hge =>
    have hle := length_visit_le rd.pointer (isListHead listHead) (maxi + 1) listHead
    have hlength : (visit rd.pointer (isListHead listHead) (maxi + 1) listHead).length =
        maxi + 2 := by
      by_contra hne
      have hstop := stop_of_short (Nat.lt_of_le_of_ne hle hne)
      unfold isListHead low48 at hstop
      rw [decide_eq_true_eq] at hstop
      omega
    refine ⟨by rw [List.length_dropLast, hlength]; rfl, fun i hi => ?_⟩
    rw [List.getElem?_dropLast, hlength, if_pos (by omega), getElem?_visit (by omega),
      h.getElem?_mod]

variable {G : Type} {env : Env G} {t : Tenant G (List Value)} {held : G → Prop}

/-- **`do_modlist` on a circular list**, the head and the modules, whose names are all inside the
    address space.  If the head is below `2 ^ 48` the app logs a name for each entry but the
    last; otherwise it logs a hundred and one names, round after round: the
    one numbered `i` is for entry `i` modulo the number of entries. -/
theorem modlist_circular (hheld : rd.HeldBy env held) (hg : held (t.after env .pause).vmi.guest)
    (h : Cycle rd.pointer listHead entries) (hnodup : entries.Nodup)
    (hdistinct : ∀ a ∈ entries, isListHead listHead a = true → a = listHead)
    (hshort : entries.length ≤ maxi + 2) (hnames : ∀ a ∈ entries, HasName a) :
    ∃ t' es, Runs (doModlist env listHead.toNat) t (.ok .unit) t' ∧
      t'.self = t.self ++ es.map (moduleLine rd) ∧ (∀ a ∈ es, a ∈ entries) ∧
      if listHead.toNat < 2 ^ 48 then es = entries.dropLast
      else es.length = maxi + 1 ∧ ∀ i < maxi + 1, es[i]? = entries[i % entries.length]? := by
  obtain ⟨-, t', reads, -, hself, hreturns, -⟩ := doModlist_runs hheld hg listHead
  obtain ⟨hsub, hlogged⟩ := logged_circular h hnodup hdistinct hshort
  have hall : ∀ a ∈ logged rd listHead, HasName a := fun a ha => hnames a (hsub a ha)
  rw [(named_eq_iff _).mpr hall] at hself
  exact ⟨t', logged rd listHead, (hreturns hall).1, hself, hsub, hlogged⟩

end Circular

/-- A list with one module: the head is logged, and the module is not. -/
theorem modlist_circular_twoTasks : ∃ t', Runs (doModlist twoTasksEnv 0)
      (echoTenant (List Value) []) (.ok .unit) t' ∧ t'.self = [.field (.str [])] := by
  have hcycle : Cycle twoTasksReadings.pointer 0 [0, 8] := ⟨rfl, by decide⟩
  obtain ⟨t', es, hrun, hself, -, hes⟩ := modlist_circular (t := echoTenant (List Value) [])
    twoTasksReadings_heldBy trivial hcycle (by decide)
    (List.forall_mem_cons.mpr ⟨by decide, List.forall_mem_singleton.mpr (by decide)⟩) (by decide)
    (List.forall_mem_cons.mpr ⟨by decide, List.forall_mem_singleton.mpr (by decide)⟩)
  rw [if_pos (by decide)] at hes
  rw [hes] at hself
  exact ⟨t', hrun, hself⟩

end Furnace.App
