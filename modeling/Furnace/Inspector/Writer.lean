import Furnace.Inspector.Policy

namespace Furnace.Inspector

open Furnace.Lib Furnace.Lib.PyText

/-!
# Writing an inspector

`main` of the policy writer: the C text that it puts at the six marks of the master source.
Each f-string of the Python code is a constructor or a record with the values that the
f-string interpolates; the debug output of the C code is left out.

* `tracedStep`, `testStep` — one round of the loops over `traced_list` and `test_dict`.
* `writeInspector` — everything that is generated.
* `rules_spec` — the seccomp rules: one for each `ALLOW` line and one for each `A TRACE` line
  of a call without an `A TEST_ARGS` block.

The loops share `func_line`, and `main` never resets it, `switch_line` or `switch_body`: a
register that is neither `PTR` nor `INT` leaves what an earlier round assigned.
-/

/-! ### The generated text -/

/-- `rc |= seccomp_rule_add(*ctx, .., SCMP_SYS({s}), 0);` with `SCMP_ACT_ALLOW` or
    `SCMP_ACT_TRACE(2)`. -/
inductive Rule
  | allow (s : Str)
  | trace (s : Str)
  deriving DecidableEq, Repr

/-- `func_line`: nothing, or `read_reg_string({reg}, pid, orig_file);`. -/
inductive FuncLine
  | empty
  | readRegString (reg : Str)
  deriving DecidableEq, Repr

/-- `case __NR_{call}:` with its `func_line`. -/
structure TracedCase where
  call : Str
  func : FuncLine
  deriving DecidableEq, Repr

/-- `switch_line`: what the inner switch of a test is on. -/
inductive SwitchLine
  | origFile
  | pid
  deriving DecidableEq, Repr

/-- `case __NR_{call}:` with its `func_line` and an inner switch, whose cases pass and whose
    default ends the tracer. -/
structure TestCase where
  call : Str
  func : FuncLine
  switchLine : SwitchLine
  switchBody : List ArgValue
  deriving DecidableEq, Repr

/-- `if (..) break;` with `strncmp("{item}", path, ..)`, `strcmp("{item}", path)`,
    `strcmp("{item}", base)`, or both of the last. -/
inductive OpenTest
  | dirnameGlob (item : Str)
  | dirname (item : Str)
  | basename (item : Str)
  | exactpath (dirname basename : Str)
  deriving DecidableEq, Repr

/-- The text for each mark of the master source. -/
structure Generated where
  allowOut : List Rule
  ruleAddOut : List Rule
  switchOut : List TracedCase
  testOut : List TestCase
  openOut : List OpenTest
  policyMapOut : List Str
  deriving DecidableEq, Repr

/-- The rules of the seccomp filter, in the order in which they are added. -/
def Generated.rules (g : Generated) : List Rule := g.allowOut ++ g.ruleAddOut

/-! ### The loops -/

/-- The value of a variable of `main`. -/
def bound {α : Type} : Option α → Except PyError α
  | some a => .ok a
  | none => .error .unboundLocalError

/-- `func_line` after a register of the given type has been looked at. -/
def funcLineOf (cast : Cast) (funcLine : Option FuncLine) : Option FuncLine :=
  if cast.casttype = "PTR".toList then some (.readRegString cast.reg)
  else if cast.casttype = "INT".toList then some .empty
  -- any other type leaves what an earlier round assigned
  else funcLine

/-- The variables of the loop over `traced_list`. -/
structure Traced where
  funcLine : Option FuncLine := none
  ruleAddOut : List Rule := []
  switchOut : List TracedCase := []

/-- One entry of `traced_list`.  A call without a register raises `IndexError` after its rule
    has been added, and the tracer's `default` case is left to it. -/
def tracedStep (testDict : List (Str × List ArgDict)) (w : Traced) (s : Trace) :
    Except PyError Traced :=
  -- a call with a test gets neither a rule nor a case
  if s.call ∈ testDict.map Prod.fst then .ok w
  else
    let w := { w with ruleAddOut := w.ruleAddOut ++ [.trace s.call] }
    match s.cast with
    | none => .ok w
    | some cast => do
      let funcLine := funcLineOf cast w.funcLine
      let func ← bound funcLine
      .ok { w with funcLine, switchOut := w.switchOut ++ [{ call := s.call, func }] }

/-- The variables of the loop over `test_dict`. -/
structure Tested where
  funcLine : Option FuncLine
  switchLine : Option SwitchLine := none
  switchBody : Option (List ArgValue) := none
  testOut : List TestCase := []

/-- `switch_line` and `switch_body` after the popped entry of a block has been looked at. -/
def switchOf (argdict : ArgDict) (w : Tested) : Option SwitchLine × Option (List ArgValue) :=
  if argdict.cast.casttype = "PTR".toList then (some .origFile, w.switchBody)
  else if argdict.cast.casttype = "INT".toList then (some .pid, some [argdict.arg])
  -- so here: the switch of an earlier block, with its cases
  else (w.switchLine, w.switchBody)

/-- One block of `test_dict`: the last entry is popped first. -/
def testStep (w : Tested) (block : Str × List ArgDict) : Except PyError Tested :=
  match block.2.getLast? with
  | none => .error .indexError
  | some argdict => do
    let funcLine := funcLineOf argdict.cast w.funcLine
    let (switchLine, body) := switchOf argdict w
    -- the other entries are appended, to the cases of an earlier block for a `PTR`
    let body := body.map (· ++ block.2.dropLast.map ArgDict.arg)
    let switchBody ← bound body
    let func ← bound funcLine
    let line ← bound switchLine
    let test : TestCase := { call := block.1, func, switchLine := line, switchBody }
    .ok { funcLine, switchLine, switchBody := body, testOut := w.testOut ++ [test] }

/-- The tests of the `open` block, by kind of rule. -/
def openTests (d : OpenDict) : List OpenTest :=
  d.dirnameGlob.map .dirnameGlob ++ d.dirname.map .dirname ++ d.basename.map .basename ++
    -- split when the inspector is written, not when it runs
    d.exactpath.map fun p => .exactpath (osDirname p) (osBasename p)

/-- `main`, from the policy to the generated text. -/
def writeInspector (pol : Policy) : Except PyError Generated := do
  let traced ← pol.tracedList.foldlM (tracedStep pol.testDict) {}
  let tested ← pol.testDict.foldlM testStep { funcLine := traced.funcLine }
  .ok { allowOut := pol.allowList.map .allow
        ruleAddOut := traced.ruleAddOut
        switchOut := traced.switchOut
        testOut := tested.testOut
        openOut := openTests pol.openDict
        policyMapOut := pol.policyMapList }

/-! ### The rules -/

/-- The calls of `traced_list` that get a rule. -/
def tracedCalls (pol : Policy) : List Str :=
  (pol.tracedList.map Trace.call).filter (· ∉ pol.testDict.map Prod.fst)

/-- The entries of `traced_list` for these calls. -/
def Policy.traces (pol : Policy) : List Trace :=
  pol.tracedList.filter (·.call ∉ pol.testDict.map Prod.fst)

theorem tracedStep_rules {testDict : List (Str × List ArgDict)} {w w' : Traced} {s : Trace}
    (h : tracedStep testDict w s = .ok w') :
    w'.ruleAddOut = w.ruleAddOut ++
      (([s.call].filter (· ∉ testDict.map Prod.fst)).map .trace) := by
  rw [tracedStep] at h
  by_cases hmem : s.call ∈ testDict.map Prod.fst
  · rw [if_pos hmem] at h
    cases h
    rw [List.filter_singleton]
    simp [hmem]
  · rw [if_neg hmem] at h
    -- the rule is added whatever becomes of the register
    have hkeep : [s.call].filter (· ∉ testDict.map Prod.fst) = [s.call] := by
      rw [List.filter_singleton]
      simp [hmem]
    rw [hkeep]
    dsimp only at h
    split at h
    · cases h
      rfl
    · obtain ⟨func, -, h⟩ := bind_eq_ok.mp h
      cases h
      rfl

theorem foldlM_tracedStep_rules {testDict : List (Str × List ArgDict)} {ts : List Trace}
    {w w' : Traced} (h : ts.foldlM (tracedStep testDict) w = .ok w') :
    w'.ruleAddOut = w.ruleAddOut ++
      (((ts.map Trace.call).filter (· ∉ testDict.map Prod.fst)).map .trace) := by
  induction ts generalizing w with
  | nil =>
    cases h
    exact (List.append_nil _).symm
  | cons t ts ih =>
    rw [List.foldlM_cons] at h
    obtain ⟨w₁, h₁, h⟩ := bind_eq_ok.mp h
    rw [ih h, tracedStep_rules h₁, List.append_assoc, ← List.map_append, ← List.filter_append]
    rfl

/-- **The filter of a policy.** -/
theorem rules_spec {pol : Policy} {g : Generated} (h : writeInspector pol = .ok g) :
    g.rules = pol.allowList.map .allow ++ (tracedCalls pol).map .trace := by
  obtain ⟨traced, htraced, h⟩ := bind_eq_ok.mp h
  obtain ⟨tested, -, h⟩ := bind_eq_ok.mp h
  cases h
  show _ ++ traced.ruleAddOut = _
  rw [foldlM_tracedStep_rules htraced]
  rfl

/-- The policy map of an inspector is that of its policy. -/
theorem writeInspector_policyMapOut {pol : Policy} {g : Generated}
    (h : writeInspector pol = .ok g) : g.policyMapOut = pol.policyMapList := by
  obtain ⟨traced, -, h⟩ := bind_eq_ok.mp h
  obtain ⟨tested, -, h⟩ := bind_eq_ok.mp h
  cases h
  rfl

end Furnace.Inspector
