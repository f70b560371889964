import Furnace.Inspector.Writer
import Furnace.Lib.Libgen
import Furnace.Lib.Transition

namespace Furnace.Inspector

open Furnace.Lib Furnace.Lib.PyText Furnace.Lib.Libgen

/-!
# Running an inspector

The master source with the generated text in its place: `build_syscall_libseccomp_filter`,
the filter of the traced process, and the event loop of `main`, the tracer.  Both are read as
the C compiler reads them, with the numbers and constants of the system headers.

* `Header` — the headers.
* `Generated.compile` — the program; the text of some policies does not compile.
* `Program.action` — what the filter does with a call.
* `Program.stop` — what the tracer does at a seccomp stop.
* `inspectorSystem` — the runs of the tracer.
* `Program.stop_of_unmapped` — at policy level 1 a call outside the policy map ends the
  run, whatever the switch says about it.
-/

/-! ### Compiling -/

/-- The system headers: the number `__NR_s` of a call, a register of `sys/reg.h`, and the
    other integer constants. -/
structure Header where
  nr : Str → Option ℕ
  reg : Str → Option ℕ
  const : Str → Option ℤ
  open_only : ∀ s n, nr "open".toList = some n → nr s = some n → s = "open".toList

/-- Text that can stand behind `__NR_`. -/
def isName (s : Str) : Bool := s ≠ [] && s.all fun c => c.isAlphanum || c = '_'

/-- The bytes of a text in the file that is compiled. -/
def encode (s : Str) : CStr := s.flatMap String.utf8EncodeChar

/-- The string that a text between double quotes stands for, if it stands for itself.  The
    mark is that of the substitution after this one. -/
def literal? (s : Str) : Option CStr :=
  if '"' ∈ s ∨ '\\' ∈ s ∨ Char.ofNat 0 ∈ s ∨ contains "//POLICY_MAP_LIST".toList s then none
  else some (encode s)

/-- What the filter does with a call. -/
inductive Action
  | kill | allow | trace
  deriving DecidableEq, Repr

/-- A test of the `open` list, as a C condition on `path` and `base`. -/
inductive OpenCond
  | strncmpPath (item : CStr)
  | strcmpPath (item : CStr)
  | strcmpBase (item : CStr)
  | both (dirname basename : CStr)
  deriving DecidableEq, Repr

/-- A case of the traced switch statements, and the register that it reads a string from. -/
structure TracedStmt where
  nr : ℕ
  reg : Option ℕ
  deriving DecidableEq, Repr

/-- A case of the test statements: the inner switch is on the process identifier. -/
structure TestStmt where
  nr : ℕ
  reg : Option ℕ
  consts : List ℤ
  deriving DecidableEq, Repr

/-- An inspector, compiled. -/
structure Program where
  rules : List (ℕ × Action)
  openNr : ℕ
  openList : List OpenCond
  traced : List TracedStmt
  tests : List TestStmt
  policyMapList : List ℕ
  deriving DecidableEq, Repr

namespace Header

variable (H : Header)

/-- `__NR_{s}`. -/
def nr? (s : Str) : Option ℕ := if isName s then H.nr s else none

def rule? : Rule → Option (ℕ × Action)
  | .allow s => (H.nr? s).map fun n => (n, .allow)
  | .trace s => (H.nr? s).map fun n => (n, .trace)

def func? : FuncLine → Option (Option ℕ)
  | .empty => some none
  | .readRegString reg => if isName reg then (H.reg reg).map some else none

def arg? : ArgValue → Option ℤ
  -- the text of the policy stands in the `case` as it is
  | .text s => H.const s
  | .int n => some n

def traced? (c : TracedCase) : Option TracedStmt := do
  .some { nr := ← H.nr? c.call, reg := ← H.func? c.func }

/-- A switch on the array `orig_file` does not compile, and neither do two equal cases. -/
def test? (c : TestCase) : Option TestStmt := do
  let nr ← H.nr? c.call
  let reg ← H.func? c.func
  let consts ← c.switchBody.mapM H.arg?
  if c.switchLine = .pid ∧ consts.Nodup then some { nr, reg, consts } else none

end Header

def OpenTest.cond? : OpenTest → Option OpenCond
  | .dirnameGlob item => (literal? item).map .strncmpPath
  | .dirname item => (literal? item).map .strcmpPath
  | .basename item => (literal? item).map .strcmpBase
  | .exactpath dir base => do
    .some (.both (← literal? dir) (← literal? base))

/-- The C compiler on the master source with the generated text.  The cases of the outer
    switch have to be distinct, and `__NR_open` is one of them. -/
def Generated.compile (H : Header) (g : Generated) : Option Program := do
  let openNr ← H.nr "open".toList
  let rules ← g.rules.mapM H.rule?
  let openList ← g.openOut.mapM OpenTest.cond?
  let traced ← g.switchOut.mapM H.traced?
  let tests ← g.testOut.mapM H.test?
  let policyMapList ← g.policyMapOut.mapM H.nr?
  if (openNr :: (traced.map TracedStmt.nr ++ tests.map TestStmt.nr)).Nodup then
    some { rules, openNr, openList, traced, tests, policyMapList }
  else none

/-! ### The filter -/

/-- What the filter does with a call: the first rule for it holds, and without any the
    process is killed. -/
def Program.action (insp : Program) (n : ℕ) : Action :=
  match insp.rules.find? (·.1 = n) with
  | some r => r.2
  | none => .kill

/-! ### The tracer -/

/-- `PATH_MAX`, the size of `orig_file`. -/
def PATH_MAX : ℕ := 4096

/-- `RDI` of `sys/reg.h`. -/
def RDI : ℕ := 14

/-- A seccomp stop: the process, the number of the call, and the string that each register
    points to, as far as it is the address of one. -/
structure Stop where
  pid : ℤ
  sysno : ℕ
  str : ℕ → Option CStr

/-- `read_reg_string`, which ends the tracer where `PTRACE_PEEKTEXT` returns `-1`: on an
    address that cannot be read, and on eight bytes that are all ones. -/
def readRegString (a : Stop) (reg : ℕ) : Option CStr :=
  (a.str reg).bind fun s =>
    if (List.range (s.length / 8)).any fun k => (s.drop (8 * k)).take 8 = List.replicate 8 0xff
    then none
    else some s

/-- The variables of the tracer that live through its loop, and whether the loop runs. -/
structure Tracer where
  policyLevel : ℕ := 0
  policyMap : List ℕ := []
  jmax : ℕ := 0
  running : Bool := true

/-- How the body of the loop ends: it goes on to `PTRACE_CONT`, it returns, which kills the
    traced processes, or it is left by `exit(1)`. -/
inductive Verdict
  | resumed | disallowed | failed
  deriving DecidableEq, Repr

/-- A test of the `open` list. -/
def OpenCond.holds (path base : CStr) : OpenCond → Bool
  | .strncmpPath item => item.isPrefixOf path
  | .strcmpPath item => item = path
  | .strcmpBase item => item = base
  | .both dir item => dir = path && item = base

/-- `"ESTABLISHED"`. -/
def established : CStr := encode "ESTABLISHED".toList

namespace Program

variable (insp : Program)

/-- The `__NR_open` case. -/
def openCase (t : Tracer) (origFile : CStr) : Verdict × Tracer :=
  if t.policyLevel = 1 then
    let path := dirname origFile
    -- `orig_file` has been cut by `dirname` when `basename` reads it
    let base := basename (afterDirname origFile)
    if insp.openList.any (OpenCond.holds path base) then (.resumed, t) else (.disallowed, t)
  -- the application announces the end of its initialization
  else if t.policyLevel = 0 ∧ origFile = established then
    (.resumed, { t with policyLevel := 1, policyMap := t.policyMap ++ insp.policyMapList })
  else (.resumed, t)

/-- The switch on the number of the call. -/
def switch (t : Tracer) (a : Stop) : Verdict × Tracer :=
  if a.sysno = insp.openNr then
    match readRegString a RDI with
    | some origFile => insp.openCase t origFile
    | none => (.failed, t)
  else
    -- the cases are distinct, so the first match is the only one
    match insp.traced.find? (·.nr = a.sysno) with
    | some c => (reading a c.reg .resumed, t)
    | none =>
      match insp.tests.find? (·.nr = a.sysno) with
      | some c => (reading a c.reg (if a.pid ∈ c.consts then .resumed else .disallowed), t)
      -- the `default` case prints the call and lets it go on
      | none => (.resumed, t)
where
  reading (a : Stop) (reg : Option ℕ) (verdict : Verdict) : Verdict :=
    -- `read_reg_string` may end the tracer
    match reg with
    | some r => if (readRegString a r).isSome then verdict else .failed
    | none => verdict

/-- A seccomp stop: the front end filter, then the switch. -/
def stop (t : Tracer) (a : Stop) : Verdict × Tracer :=
  -- the filter comes before the switch, also for the calls that the switch checks
  if t.policyLevel = 1 ∧ a.sysno ∉ t.policyMap then (.disallowed, t)
  else insp.switch t a

/-- What `waitpid` can report: a process makes a call, one exits, there is another event,
    which the tracer only prints, or there is no process left. -/
inductive Event
  | call (a : Stop)
  | exited
  | other
  | failed

/-- One round of the event loop.  Only the calls that the filter traces stop. -/
def next (t : Tracer) : Event → Tracer
  | .call a =>
    if insp.action a.sysno = .trace then
      { (insp.stop t a).2 with running := (insp.stop t a).1 = .resumed }
    else t
  -- the eleventh exit ends the tracer
  | .exited => { t with jmax := t.jmax + 1, running := t.jmax + 1 ≤ 10 }
  | .other => t
  | .failed => { t with running := false }

end Program

/-- The runs of a generated inspector. -/
def inspectorSystem (insp : Program) : TransitionSystem Tracer Program.Event where
  init t := t = {}
  step t e t' := t.running = true ∧ t' = insp.next t e

/-! ### The policy map -/

variable {insp : Program}

/-- A call outside the policy map ends the run at policy level 1. -/
theorem Program.stop_of_unmapped {t : Tracer} {a : Stop} (hlevel : t.policyLevel = 1)
    (hmap : a.sysno ∉ t.policyMap) : insp.stop t a = (.disallowed, t) := by
  rw [Program.stop, if_pos ⟨hlevel, hmap⟩]

/-- The policy map is loaded from the policy. -/
def MapLoaded (insp : Program) (t : Tracer) : Prop := ∀ n ∈ t.policyMap, n ∈ insp.policyMapList

theorem Program.openCase_loaded {t : Tracer} {origFile : CStr} (ht : MapLoaded insp t) :
    MapLoaded insp (insp.openCase t origFile).2 := by
  rw [Program.openCase]
  dsimp only
  split_ifs
  · exact ht
  · exact ht
  -- the map is filled at the step to level 1
  · intro n hn
    rcases List.mem_append.mp hn with hn | hn
    · exact ht n hn
    · exact hn
  · exact ht

/-- Only the `open` case changes the tracer's variables. -/
theorem Program.stop_loaded {t : Tracer} {a : Stop} (ht : MapLoaded insp t) :
    MapLoaded insp (insp.stop t a).2 := by
  rw [Program.stop]
  split_ifs
  · exact ht
  · rw [Program.switch]
    split_ifs
    · split
      · exact Program.openCase_loaded ht
      · exact ht
    · split
      · exact ht
      · split
        · exact ht
        · exact ht

/-- In every run the policy map holds calls of the policy only. -/
theorem reach_mapLoaded {t : Tracer} (hr : Reach (inspectorSystem insp) (fun _ _ => True) t) :
    MapLoaded insp t := by
  refine hr.invariant (MapLoaded insp) ?_ ?_
  · rintro t rfl n hn
    cases hn
  · rintro t e t' ht - ⟨-, rfl⟩
    cases e with
    | call a =>
      rw [Program.next]
      split_ifs
      · exact Program.stop_loaded ht
      · exact ht
    | exited => exact ht
    | other => exact ht
    | failed => exact ht

/-! ### The `open` list -/

/-- For an absolute path the tests of the `open` list see the directory part twice: as `path`,
    and its last component as `base`. -/
theorem Program.openCase_absolute {t : Tracer} {origFile : CStr} (hlevel : t.policyLevel = 1)
    (habs : origFile.head? = some slash) :
    (insp.openCase t origFile).1 = .resumed ↔
      ∃ c ∈ insp.openList, c.holds (dirname origFile) (basename (dirname origFile)) = true := by
  rw [Program.openCase, if_pos hlevel, afterDirname_of_absolute habs, ← List.any_eq_true]
  dsimp only
  split_ifs with h
  · simp [h]
  · simp [h]

end Furnace.Inspector
