import Furnace.Lib.Lines
import Furnace.Vmi.Framing
import Furnace.Vmi.Syscalls

namespace Furnace.Vmi

open Furnace.Proto Furnace.Lib

/-!
# Which system calls are traced

The constructor that DRAKVUF itself uses takes the name of a file with a filter: a line for each
system call that is to be traced.

* `readSyscallsFilter` — the names in the file; a line may end as on Unix or as on Windows, and
  empty lines are passed over.
* `keys_fileOf` — a file that is written from names is read back as these names.
* `filtered_traps` — **the plugin traces the system calls of the file**, whether the file can be
  read or not, and whether the profile has symbols or not.
-/

/-! ### The code -/

/-- The end of a line: `\n` or `\r`. -/
def isLineEnd (b : UInt8) : Bool := b == 10 || b == 13

/-- The key that a line adds to the table, if it adds one. -/
def lineKey (l : Bytes) : Option Bytes :=
  let line := l.rdropWhile isLineEnd
  if line = [] then none else some (cStr line)

/-- `read_syscalls_filter`, of a file that may not open: the keys of the table. -/
def readSyscallsFilter : Option Bytes → Option (List Bytes)
  | none => none
  | some file => some ((lines 10 file).filterMap lineKey)

/-- `filter_symbols`: without symbols there is nothing to allocate, which counts as a failure. -/
def filterSymbols (symbols : List Sym) (file : Option Bytes) : Option (List Sym) :=
  match readSyscallsFilter file with
  | none => none
  | some table =>
    if symbols.length = 0 then none else some (symbols.filter fun s => s.name ∈ table)

/-- The traps of the constructor with a filter, `none` for no filter at all; it throws if there
    are none. -/
def configuredTraps (k : Kernel) (filter : Option (Option Bytes)) : List SyscallTrap :=
  match k.symbols with
  | none => []
  | some symbols =>
    match filter with
    | none => createTrapConfig k symbols
    | some file =>
      match filterSymbols symbols file with
      | none => []
      | some filtered => createTrapConfig k filtered

/-! ### The file -/

/-- A name that a line can hold. -/
structure IsName (n : Bytes) : Prop where
  line : 10 ∉ n
  string : 0 ∉ n
  last : n.getLast? ≠ some 13

/-- What may end a line: `\n`, after any number of `\r`. -/
def IsEnd (e : Bytes) : Prop := ∃ m, e = List.replicate m 13 ++ [10]

/-- A file of `rows`, each a name and the end of its line, and a last name without one. -/
def fileOf (rows : List (Bytes × Bytes)) (last : Bytes) : Bytes :=
  rows.flatMap (fun r => r.1 ++ r.2) ++ last

/-- The key of a name, whatever the end of its line. -/
theorem lineKey_append {n e : Bytes} (hn : IsName n) (he : ∀ b ∈ e, isLineEnd b = true) :
    lineKey (n ++ e) = if n = [] then none else some n := by
  have hlast : ∀ b, n.getLast? = some b → ¬isLineEnd b = true := by
    intro b hb hend
    unfold isLineEnd at hend
    rcases Bool.or_eq_true_iff.mp hend with heq | heq
    · rw [beq_iff_eq] at heq
      exact hn.line (heq ▸ List.mem_of_getLast? hb)
    · rw [beq_iff_eq] at heq
      exact hn.last (heq ▸ hb)
  unfold lineKey
  rw [rdropWhile_append he hlast]
  dsimp only
  rw [cStr_eq_self_iff.mpr hn.string]

/-- The keys of a file are its names, those that are not empty. -/
theorem keys_fileOf {rows : List (Bytes × Bytes)} {last : Bytes}
    (hrows : ∀ r ∈ rows, IsName r.1 ∧ IsEnd r.2) (hlast : IsName last) :
    (lines 10 (fileOf rows last)).filterMap lineKey =
      (rows.map Prod.fst ++ [last]).filter fun n => decide (n ≠ []) := by
  unfold fileOf
  induction rows with
  | nil =>
    have hkey := lineKey_append hlast (show ∀ b ∈ ([] : Bytes), isLineEnd b = true from nofun)
    rw [List.append_nil] at hkey
    rw [List.flatMap_nil, List.nil_append, lines_last hlast.line]
    by_cases hnil : last = []
    · rw [if_pos hnil, hnil]
      rfl
    · rw [if_neg hnil] at hkey ⊢
      simp [hkey, hnil]
  | cons r rows ih =>
    obtain ⟨n, e⟩ := r
    have hrow := hrows (n, e) (List.mem_cons_self ..)
    dsimp only at hrow
    obtain ⟨hname, m, rfl⟩ := hrow
    have hne : ∀ b ∈ List.replicate m 13 ++ [10], isLineEnd b = true := by
      intro b hb
      rcases List.mem_append.mp hb with hb | hb
      · rw [List.eq_of_mem_replicate hb]
        rfl
      · rw [List.mem_singleton.mp hb]
        rfl
    have hnot : 10 ∉ n ++ List.replicate m 13 := by
      rw [List.mem_append, not_or]
      refine ⟨hname.line, fun hb => ?_⟩
      have heq : (10 : UInt8) = 13 := List.eq_of_mem_replicate hb
      exact absurd heq (by decide)
    have hkey := lineKey_append hname hne
    -- the file is the first row and the file of the others
    have hfile : ((n, List.replicate m 13 ++ [10]) :: rows).flatMap (fun r => r.1 ++ r.2) ++ last =
        n ++ List.replicate m 13 ++ 10 :: (rows.flatMap (fun r => r.1 ++ r.2) ++ last) := by
      simp
    rw [hfile, lines_append hnot, List.append_assoc, List.map_cons, List.cons_append,
      List.filter_cons]
    rw [← ih fun r hr => hrows r (List.mem_cons_of_mem _ hr)]
    by_cases hnil : n = []
    · rw [if_pos hnil] at hkey
      rw [List.filterMap_cons_none hkey]
      simp [hnil]
    · rw [if_neg hnil] at hkey
      rw [List.filterMap_cons_some hkey]
      simp [hnil]

/-- A system call has a name. -/
theorem Kernel.IsSyscall.name_ne_nil {k : Kernel} {s : Sym} (h : k.IsSyscall s) : s.name ≠ [] := by
  intro hnil
  have hnt : literal "Nt" ≠ [] := by decide +kernel
  have hsys : literal "sys_" ≠ [] := by decide +kernel
  rcases h with ⟨-, -, hname⟩ | ⟨-, -, hname, -⟩
  · rw [hnil, List.prefix_nil] at hname
    exact hnt hname
  · rw [hnil, List.prefix_nil] at hname
    exact hsys hname

/-- **The filter decides what is traced.**  With a file of such rows the traps are those of the
    system calls that the file names, at their places; with a file that cannot be read there are
    none, and the constructor throws. -/
theorem filtered_traps {k : Kernel} {symbols : List Sym} (hk : k.symbols = some symbols)
    {rows : List (Bytes × Bytes)} {last : Bytes} (hrows : ∀ r ∈ rows, IsName r.1 ∧ IsEnd r.2)
    (hlast : IsName last) :
    List.Forall₂ k.TrapOf
      (symbols.filter fun s => decide (k.IsSyscall s ∧ s.name ∈ rows.map Prod.fst ++ [last]))
      (configuredTraps k (some (some (fileOf rows last)))).reverse ∧
    configuredTraps k (some none) = [] := by
  have hread : readSyscallsFilter (some (fileOf rows last)) =
      some ((rows.map Prod.fst ++ [last]).filter fun n => decide (n ≠ [])) :=
    congrArg some (keys_fileOf hrows hlast)
  have hnone : configuredTraps k (some none) = [] := by
    unfold configuredTraps
    rw [hk]
    rfl
  refine ⟨?_, hnone⟩
  unfold configuredTraps filterSymbols
  rw [hk]
  dsimp only
  rw [hread]
  dsimp only
  by_cases hempty : symbols.length = 0
  · rw [List.length_eq_zero_iff.mp hempty]
    exact .nil
  · rw [if_neg hempty]
    have hspec := createTrapConfig_spec k (symbols.filter fun s =>
      decide (s.name ∈ (rows.map Prod.fst ++ [last]).filter fun n => decide (n ≠ [])))
    have hselect : (symbols.filter fun s =>
        decide (k.IsSyscall s ∧ s.name ∈ rows.map Prod.fst ++ [last])) =
        (symbols.filter fun s => decide (s.name ∈ (rows.map Prod.fst ++ [last]).filter
          fun n => decide (n ≠ []))).filter fun s => decide (k.IsSyscall s) := by
      rw [List.filter_filter]
      refine List.filter_congr fun s _ => ?_
      rw [← Bool.decide_and, decide_eq_decide, List.mem_filter, decide_eq_true_eq]
      exact ⟨fun h => ⟨h.1, h.2, h.1.name_ne_nil⟩, fun h => ⟨h.1, h.2.1⟩⟩
    rw [hselect]
    exact hspec

/-- The rows of a file, as Windows ends them: a call that the guest does not have, and one that it
    has. -/
def windowsRows : List (Bytes × Bytes) :=
  [(literal "sys_write", [13, 10]), (literal "sys_read", [13, 10])]

/-- The one system call of the guest is traced, at its place. -/
theorem filtered_traps_oneCall :
    List.Forall₂ oneCallHost.kernel.TrapOf [⟨literal "sys_read", 24⟩]
      (configuredTraps oneCallHost.kernel (some (some (fileOf windowsRows [])))).reverse ∧
    configuredTraps oneCallHost.kernel (some none) = [] := by
  have hrows : ∀ r ∈ windowsRows, IsName r.1 ∧ IsEnd r.2 := by
    intro r hr
    rcases List.mem_cons.mp hr with rfl | hr
    · exact ⟨⟨by decide +kernel, by decide +kernel, by decide +kernel⟩, 1, rfl⟩
    · rw [List.mem_singleton.mp hr]
      exact ⟨⟨by decide +kernel, by decide +kernel, by decide +kernel⟩, 1, rfl⟩
  have hselect : ([⟨literal "sys_read", 24⟩, ⟨literal "sys_call_table", 32⟩] : List Sym).filter
      (fun s => decide (oneCallHost.kernel.IsSyscall s ∧
        s.name ∈ windowsRows.map Prod.fst ++ [[]])) = [⟨literal "sys_read", 24⟩] := by
    decide +kernel
  rw [← hselect]
  exact filtered_traps rfl hrows ⟨by decide, by decide, by decide⟩

end Furnace.Vmi
