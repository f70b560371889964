import Mathlib.Data.List.Forall2
import Furnace.Inspector.Coverage
import Furnace.Inspector.Tracer

namespace Furnace.Inspector

open Furnace.Lib Furnace.Lib.PyText

/-!
# The tests of arguments

What becomes of an `A TEST_ARGS` block of integers, from the lines of the policy to the case of
the tracer's switch.

* `testArgsBlock_values` — the block in the text is the entry of `test_dict`.
* `testStep_values` — the entry becomes a case with the same values, the last one first.
* `stop_value` — **what the case tests**: the process identifier.
* `argTested_iff` — so the argument is tested only where the two happen to agree.
-/

/-! ### The block -/

/-- The entry of a line `R_INT:v`. -/
def valueEntry (reg : Str) (v : ℤ) : ArgDict :=
  { cast := ⟨reg, "INT".toList⟩, trans := none, arg := .int v }

/-- A line `R_INT:v`, where `v` is a number or names a constant of a module. -/
def ValueLine (modules : Modules) (reg : Str) (l : Str) (v : ℤ) : Prop :=
  doArgProcessing modules (words l) = .ok (valueEntry reg v)

example (modules : Modules) :
    ValueLine modules "RSI".toList "    RSI_INT:21524".toList 21524 := by rfl

theorem ValueLine.ne_close {modules : Modules} {reg l : Str} {v : ℤ}
    (h : ValueLine modules reg l v) : l ≠ ['}'] := by
  rintro rfl
  cases h

/-- The lines of a block become its entry of `test_dict`. -/
theorem testArgsBlock_values {modules : Modules} {reg : Str} {body : List Str} {vs : List ℤ}
    (hbody : List.Forall₂ (ValueLine modules reg) body vs) {v : Locals} (hout : v.out ≠ none)
    (call : Str) (arglist : List ArgDict) (rest : List Str) :
    testArgsBlock modules v call arglist (body ++ ['}'] :: rest) =
      parseLines modules { v with
        testDict := assign call (arglist ++ vs.map (valueEntry reg)) v.testDict } rest := by
  induction hbody generalizing arglist with
  | nil =>
    rw [List.nil_append, testArgsBlock, if_pos rfl, if_neg hout, List.map_nil, List.append_nil]
  | @cons l x body vs hl _ ih =>
    rw [List.cons_append, testArgsBlock, if_neg hl.ne_close]
    unfold ValueLine at hl
    rw [hl, ok_bind, ih, List.append_assoc]
    rfl

/-! ### The case -/

/-- The case of a block: the last value stands first. -/
def valueCase (call : Str) (vs : List ℤ) (last : ℤ) : TestCase :=
  { call, func := .empty, switchLine := .pid, switchBody := (last :: vs).map .int }

/-- A block of integers becomes a case on the process identifier. -/
theorem testStep_values {call reg : Str} {vs : List ℤ} {w w' : Tested}
    (h : testStep w (call, vs.map (valueEntry reg)) = .ok w') :
    ∃ init last, vs = init ++ [last] ∧ w'.testOut = w.testOut ++ [valueCase call init last] := by
  rcases List.eq_nil_or_concat vs with rfl | ⟨init, last, hvs⟩
  · cases h
  rw [List.concat_eq_append] at hvs
  subst hvs
  refine ⟨init, last, rfl, ?_⟩
  unfold testStep at h
  rw [List.map_append, List.map_singleton] at h
  dsimp only at h
  rw [List.getLast?_concat, List.dropLast_concat] at h
  -- the type of the popped entry is `INT`
  have hfunc : funcLineOf (valueEntry reg last).cast w.funcLine = some .empty := by rfl
  have hswitch : switchOf (valueEntry reg last) w = (some .pid, some [.int last]) := by rfl
  dsimp only at h
  rw [hfunc, hswitch] at h
  cases h
  simp [valueCase, valueEntry, Function.comp_def]

/-- Every round keeps the cases before it. -/
theorem testStep_keeps {w w' : Tested} {block : Str × List ArgDict}
    (h : testStep w block = .ok w') : w.testOut <+: w'.testOut := by
  unfold testStep at h
  split at h
  · cases h
  · obtain ⟨body, -, h⟩ := bind_eq_ok.mp h
    obtain ⟨func, -, h⟩ := bind_eq_ok.mp h
    obtain ⟨line, -, h⟩ := bind_eq_ok.mp h
    cases h
    exact List.prefix_append _ _

theorem foldlM_testStep_keeps {blocks : List (Str × List ArgDict)} {w w' : Tested}
    (h : blocks.foldlM testStep w = .ok w') : w.testOut <+: w'.testOut := by
  induction blocks generalizing w with
  | nil =>
    cases h
    exact List.prefix_rfl
  | cons block blocks ih =>
    rw [List.foldlM_cons] at h
    obtain ⟨w₁, hstep, hrest⟩ := bind_eq_ok.mp h
    exact (testStep_keeps hstep).trans (ih hrest)

/-- Each block of integers has its case. -/
theorem foldlM_testStep_values {blocks : List (Str × List ArgDict)} {call reg : Str} {vs : List ℤ}
    {w w' : Tested} (h : blocks.foldlM testStep w = .ok w')
    (hblock : (call, vs.map (valueEntry reg)) ∈ blocks) :
    ∃ init last, vs = init ++ [last] ∧ valueCase call init last ∈ w'.testOut := by
  induction blocks generalizing w with
  | nil => cases hblock
  | cons block blocks ih =>
    rw [List.foldlM_cons] at h
    obtain ⟨w₁, hstep, hrest⟩ := bind_eq_ok.mp h
    rcases List.mem_cons.mp hblock with rfl | hblock
    · obtain ⟨init, last, hvs, hout⟩ := testStep_values hstep
      refine ⟨init, last, hvs, (foldlM_testStep_keeps hrest).subset ?_⟩
      rw [hout]
      simp
    · exact ih hrest hblock

/-- **From the policy to the text**: a block of integers becomes a case. -/
theorem writeInspector_values {pol : Policy} {g : Generated} (h : writeInspector pol = .ok g)
    {call reg : Str} {vs : List ℤ} (hblock : (call, vs.map (valueEntry reg)) ∈ pol.testDict) :
    ∃ init last, vs = init ++ [last] ∧ valueCase call init last ∈ g.testOut := by
  obtain ⟨traced, -, h⟩ := bind_eq_ok.mp h
  obtain ⟨tested, htested, h⟩ := bind_eq_ok.mp h
  cases h
  exact foldlM_testStep_values htested hblock

/-! ### The compiled case -/

theorem mapM_arg?_int (H : Header) (vs : List ℤ) : (vs.map .int).mapM H.arg? = some vs := by
  induction vs with
  | nil => rfl
  | cons v vs ih =>
    rw [List.map_cons, List.mapM_cons, ih]
    rfl

/-- Without a register that a string is read from. -/
theorem test?_valueCase {H : Header} {call : Str} {init : List ℤ} {last : ℤ} {c : TestStmt}
    (h : H.test? (valueCase call init last) = some c) :
    H.nr call = some c.nr ∧ c.reg = none ∧ c.consts = last :: init := by
  obtain ⟨nr, hnr, h⟩ := Option.bind_eq_some_iff.mp h
  obtain ⟨reg, hreg, h⟩ := Option.bind_eq_some_iff.mp h
  obtain ⟨consts, hconsts, h⟩ := Option.bind_eq_some_iff.mp h
  have hcases : consts = last :: init := by
    have hmap := mapM_arg?_int H (last :: init)
    exact Option.some.inj (hconsts.symm.trans hmap)
  cases hreg
  split_ifs at h
  cases h
  rw [Header.nr?] at hnr
  split_ifs at hnr
  exact ⟨hnr, rfl, hcases⟩

/-- The cases of the outer switch are distinct, and each test is one of them. -/
theorem compile_tests {H : Header} {g : Generated} {insp : Program} (h : g.compile H = some insp) :
    (insp.openNr :: (insp.traced.map TracedStmt.nr ++ insp.tests.map TestStmt.nr)).Nodup ∧
      g.testOut.mapM H.test? = some insp.tests := by
  obtain ⟨openNr, -, h⟩ := Option.bind_eq_some_iff.mp h
  obtain ⟨rules, -, h⟩ := Option.bind_eq_some_iff.mp h
  obtain ⟨openList, -, h⟩ := Option.bind_eq_some_iff.mp h
  obtain ⟨traced, -, h⟩ := Option.bind_eq_some_iff.mp h
  obtain ⟨tests, htests, h⟩ := Option.bind_eq_some_iff.mp h
  obtain ⟨map, -, h⟩ := Option.bind_eq_some_iff.mp h
  split_ifs at h with hnodup
  cases h
  exact ⟨hnodup, htests⟩

/-- A test is the first case for its call. -/
theorem find?_test {tests : List TestStmt} (hnodup : (tests.map TestStmt.nr).Nodup) {c : TestStmt}
    (hc : c ∈ tests) : tests.find? (·.nr = c.nr) = some c := by
  induction tests with
  | nil => cases hc
  | cons c₁ tests ih =>
    rw [List.map_cons, List.nodup_cons] at hnodup
    rcases List.mem_cons.mp hc with rfl | hc
    · exact List.find?_cons_of_pos (by simp)
    · have hne : c₁.nr ≠ c.nr := fun heq => hnodup.1 (heq ▸ List.mem_map_of_mem hc)
      rw [List.find?_cons_of_neg (by simpa using hne)]
      exact ih hnodup.2 hc

/-! ### The stop -/

/-- A seccomp stop, with the registers that `PTRACE_PEEKUSER` reads. -/
structure RegStop extends Stop where
  user : ℕ → Int64

/-- `read_reg_int`: the register is cut to an `int`. -/
def readRegInt (a : RegStop) (reg : ℕ) : ℤ := (a.user reg).toInt32.toInt

variable {H : Header} {pol : Policy} {g : Generated} {insp : Program} {call reg : Str}
  {vs : List ℤ} {t : Tracer}

/-- **What the case tests**: the process identifier, whatever the registers hold. -/
theorem stop_value (hw : writeInspector pol = .ok g) (hc : g.compile H = some insp)
    (hblock : (call, vs.map (valueEntry reg)) ∈ pol.testDict) {a : Stop}
    (hcall : H.nr call = some a.sysno) (hfilter : t.policyLevel = 1 → a.sysno ∈ t.policyMap) :
    insp.stop t a = (if a.pid ∈ vs then .resumed else .disallowed, t) := by
  obtain ⟨init, last, rfl, htext⟩ := writeInspector_values hw hblock
  obtain ⟨hnodup, htests⟩ := compile_tests hc
  obtain ⟨c, hmem, hcompiled⟩ := exists_mem_of_mapM htests htext
  obtain ⟨hnr, hreg, hconsts⟩ := test?_valueCase hcompiled
  have hsys : a.sysno = c.nr := Option.some.inj (hcall.symm.trans hnr)
  -- the other cases of the switch are for other calls
  rw [List.nodup_cons, List.nodup_append] at hnodup
  obtain ⟨hopen, -, hnodupTests, hdisjoint⟩ := hnodup
  have hmemNr : c.nr ∈ insp.tests.map TestStmt.nr := List.mem_map_of_mem hmem
  have hnotOpen : a.sysno ≠ insp.openNr := by
    rintro heq
    rw [← heq, hsys] at hopen
    exact hopen (List.mem_append_right _ hmemNr)
  have htraced : insp.traced.find? (·.nr = a.sysno) = none := by
    rw [List.find?_eq_none]
    intro c' hc' heq
    exact hdisjoint c'.nr (List.mem_map_of_mem hc') c.nr hmemNr
      (by rw [← hsys]; exact of_decide_eq_true heq)
  have htest : insp.tests.find? (·.nr = a.sysno) = some c := by
    rw [hsys]
    exact find?_test hnodupTests hmem
  have hiff : a.pid ∈ c.consts ↔ a.pid ∈ init ++ [last] := by
    rw [hconsts]
    simp [or_comm]
  unfold Program.stop
  rw [if_neg fun h => h.2 (hfilter h.1)]
  unfold Program.switch
  rw [if_neg hnotOpen, htraced]
  dsimp only
  rw [htest]
  dsimp only
  rw [hreg]
  show (if a.pid ∈ c.consts then Verdict.resumed else .disallowed, t) = _
  by_cases hpid : a.pid ∈ init ++ [last]
  · rw [if_pos (hiff.mpr hpid), if_pos hpid]
  · rw [if_neg (fun h => hpid (hiff.mp h)), if_neg hpid]

/-- The stop is let through if the register holds one of the values, and ends the tracer
    otherwise. -/
def ArgTested (H : Header) (insp : Program) (t : Tracer) (a : RegStop) (reg : Str)
    (vs : List ℤ) : Prop :=
  ∃ r, H.reg reg = some r ∧
    (insp.stop t a.toStop).1 = if readRegInt a r ∈ vs then .resumed else .disallowed

/-- **The argument is tested** exactly where the process identifier agrees with it. -/
theorem argTested_iff (hw : writeInspector pol = .ok g) (hc : g.compile H = some insp)
    (hblock : (call, vs.map (valueEntry reg)) ∈ pol.testDict) {a : RegStop} {r : ℕ}
    (hreg : H.reg reg = some r) (hcall : H.nr call = some a.sysno)
    (hfilter : t.policyLevel = 1 → a.sysno ∈ t.policyMap) :
    ArgTested H insp t a reg vs ↔ (a.pid ∈ vs ↔ readRegInt a r ∈ vs) := by
  have hstop := stop_value hw hc hblock hcall hfilter
  unfold ArgTested
  rw [hstop]
  constructor
  · rintro ⟨r', hr', hverdict⟩
    obtain rfl : r = r' := Option.some.inj (hreg.symm.trans hr')
    constructor
    · intro hpid
      by_contra harg
      rw [if_pos hpid, if_neg harg] at hverdict
      cases hverdict
    · intro harg
      by_contra hpid
      rw [if_neg hpid, if_pos harg] at hverdict
      cases hverdict
  · intro hiff
    refine ⟨r, hreg, ?_⟩
    by_cases hpid : a.pid ∈ vs
    · rw [if_pos hpid, if_pos (hiff.mp hpid)]
    · rw [if_neg hpid, if_neg fun harg => hpid (hiff.mpr harg)]

/-! ### A policy with a test -/

/-- The numbers of the calls and registers of `ioctlTested`. -/
def ioctlHeader : Header where
  nr s := if s = "open".toList then some 2 else if s = "stat".toList then some 4 else
    if s = "ioctl".toList then some 16 else none
  reg s := if s = "RSI".toList then some 13 else none
  const _ := none
  open_only s n hopen hs := by
    rw [if_pos rfl] at hopen
    cases hopen
    by_contra hne
    rw [if_neg hne] at hs
    split_ifs at hs
    · cases hs
    · cases hs

def ioctlProgram : Program where
  rules := [(4, .trace)]
  openNr := 2
  openList := [.strcmpPath (encode "/etc".toList)]
  traced := []
  tests := [{ nr := 16, reg := none, consts := [21505] }]
  policyMapList := []

/-- A process calls `ioctl` with a request in `RSI`. -/
def ioctlOf (pid : ℤ) (request : Int64) : RegStop where
  pid := pid
  sysno := 16
  str _ := none
  user _ := request

/-- The terminal request that the policy names is disallowed, and another one is let through for
    the process whose identifier is its number. -/
theorem argTested_fails :
    parsePolicy noModules ioctlTested = .ok ioctlTestedPolicy ∧
      writeInspector ioctlTestedPolicy = .ok ioctlTestedGenerated ∧
      ioctlTestedGenerated.compile ioctlHeader = some ioctlProgram ∧
      ("ioctl".toList, [21505].map (valueEntry "RSI".toList)) ∈ ioctlTestedPolicy.testDict ∧
      readRegInt (ioctlOf 100 21505) 13 = 21505 ∧
      (ioctlProgram.stop {} (ioctlOf 100 21505).toStop).1 = .disallowed ∧
      ¬ArgTested ioctlHeader ioctlProgram {} (ioctlOf 100 21505) "RSI".toList [21505] ∧
      (ioctlProgram.stop {} (ioctlOf 21505 0).toStop).1 = .resumed := by
  have hstop : (ioctlProgram.stop {} (ioctlOf 100 21505).toStop).1 = .disallowed := by rfl
  refine ⟨parsePolicy_ioctlTested, rfl, by decide +kernel, by decide, rfl, hstop, ?_, rfl⟩
  rintro ⟨r, hr, hverdict⟩
  cases hr
  rw [hstop] at hverdict
  exact absurd hverdict (by decide)

/-- A process with another identifier is rightly disallowed another request. -/
theorem argTested_iff_otherRequest :
    ArgTested ioctlHeader ioctlProgram {} (ioctlOf 100 0) "RSI".toList [21505] := by
  have hcompile : ioctlTestedGenerated.compile ioctlHeader = some ioctlProgram := by decide +kernel
  have hwrite : writeInspector ioctlTestedPolicy = .ok ioctlTestedGenerated := by rfl
  have hblock : ("ioctl".toList, [21505].map (valueEntry "RSI".toList)) ∈
      ioctlTestedPolicy.testDict := by decide
  exact (argTested_iff hwrite hcompile hblock rfl rfl (by decide)).mpr (by decide)

end Furnace.Inspector
