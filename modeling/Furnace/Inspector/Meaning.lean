import Mathlib.Data.List.Infix
import Furnace.Inspector.Confinement

namespace Furnace.Inspector

open Furnace.Lib Furnace.Lib.PyText Furnace.Lib.Libgen

/-!
# What a policy means

A policy read as a machine of its own, over the names of the calls, and the inspector that is
written and compiled from it, which runs as this machine does.

* `Policy.action` — whether a call is killed, let through or traced.
* `Policy.stop` — what a traced call comes to.  The rules for `open` and the values of the
  `A TEST_ARGS` blocks have no part in it.
* `casesOf` — the registers that strings are read from, where a register of an unknown type is
  taken for the one before it.
* `compiled_traces` — **the inspector means the policy**: over any sequence of events it comes
  to the same outcomes.
-/

/-! ### The machine -/

/-- The number `n` is that of one of the calls. -/
def Header.Names (H : Header) (calls : List Str) (n : ℕ) : Prop :=
  ∃ s ∈ calls, H.nr? s = some n

instance (H : Header) (calls : List Str) (n : ℕ) : Decidable (H.Names calls n) :=
  inferInstanceAs (Decidable (∃ s ∈ calls, _))

/-- No two calls have one number. -/
def Header.Distinct (H : Header) : Prop :=
  ∀ s s' n, H.nr s = some n → H.nr s' = some n → s = s'

/-- What becomes of a register of a known type: its string is read, or nothing. -/
def Trace.func? (s : Trace) : Option FuncLine := s.cast.bind fun cast => funcLineOf cast none

/-- The last register of a known type. -/
def lastFunc (ts : List Trace) : Option FuncLine := (ts.filterMap Trace.func?).getLast?

/-- The call of the last line, if that has a register, with what is read for it. -/
def caseOf? (ts : List Trace) : Option TracedCase :=
  ts.getLast?.bind fun s => s.cast.bind fun _ => (lastFunc ts).map (⟨s.call, ·⟩)

/-- The calls of the lines with a register. -/
def casesOf (ts : List Trace) : List TracedCase := ts.inits.filterMap caseOf?

namespace Policy

variable (pol : Policy) (H : Header)

/-- What the filter does with a call. -/
def action (n : ℕ) : Action :=
  if H.Names pol.allowList n then .allow
  else if H.Names (tracedCalls pol) n then .trace
  else .kill

/-- The register that a string is read from for a call. -/
def stringReg? (n : ℕ) : Option ℕ :=
  ((casesOf pol.traces).find? (H.nr? ·.call = some n)).bind fun c => (H.func? c.func).join

/-- What a traced call comes to, and whether the initialization is over. -/
def stop (initialized : Bool) (a : Stop) : Verdict × Bool :=
  if initialized = true ∧ ¬H.Names pol.policyMapList a.sysno then (.disallowed, true)
  -- `open` has no `1 TRACE` line
  else if H.nr "open".toList = some a.sysno then
    match readRegString a RDI with
    | some file => (.resumed, initialized || file = established)
    | none => (.failed, initialized)
  else (Program.switch.reading a (pol.stringReg? H a.sysno) .resumed, initialized)

end Policy

/-- The state of the machine. -/
structure Phase where
  initialized : Bool := false
  exits : ℕ := 0
  running : Bool := true

/-- What an event comes to. -/
inductive Outcome
  | killed | passed | stopped (verdict : Verdict) | noted
  deriving DecidableEq, Repr

/-- What a call comes to that the filter treats so. -/
def Action.outcome (verdict : Verdict) : Action → Outcome
  | .kill => .killed
  | .allow => .passed
  | .trace => .stopped verdict

namespace Policy

variable (pol : Policy) (H : Header)

def outcome (p : Phase) : Program.Event → Outcome
  | .call a => (pol.action H a.sysno).outcome (pol.stop H p.initialized a).1
  | .exited | .other | .failed => .noted

def next (p : Phase) : Program.Event → Phase
  | .call a =>
    if pol.action H a.sysno = .trace then
      { p with initialized := (pol.stop H p.initialized a).2
               running := (pol.stop H p.initialized a).1 = .resumed }
    else p
  | .exited => { p with exits := p.exits + 1, running := p.exits + 1 ≤ 10 }
  | .other => p
  | .failed => { p with running := false }

/-- What the events of a run come to, until the machine stops. -/
def run (p : Phase) : List Program.Event → List Outcome
  | [] => []
  | e :: es => if p.running then pol.outcome H p e :: run (pol.next H p e) es else []

end Policy

/-! ### The inspector -/

/-- What an event comes to. -/
def Program.outcome (insp : Program) (t : Tracer) : Program.Event → Outcome
  | .call a => (insp.action a.sysno).outcome (insp.stop t a).1
  | .exited | .other | .failed => .noted

/-- What the events of a run come to, until the tracer ends.  After a string that does not fit
    into `orig_file` it may be anything. -/
inductive Program.Traces (insp : Program) : Tracer → List Program.Event → List Outcome → Prop
  | nil {t : Tracer} : Traces insp t [] []
  | ended {t : Tracer} {e : Program.Event} {es : List Program.Event}
      (hended : t.running = false) : Traces insp t (e :: es) []
  | round {t : Tracer} {e : Program.Event} {es : List Program.Event} {outs : List Outcome}
      (hrunning : t.running = true) (hfits : ¬Overruns insp t e)
      (hrest : Traces insp (insp.next t e) es outs) :
      Traces insp t (e :: es) (insp.outcome t e :: outs)
  | overrun {t : Tracer} {e : Program.Event} {es : List Program.Event} {outs : List Outcome}
      (hrunning : t.running = true) (hover : Overruns insp t e) : Traces insp t (e :: es) outs

/-- The strings of the event fit into `orig_file`. -/
def Program.Event.Fits : Program.Event → Prop
  | .call a => ∀ reg s, readRegString a reg = some s → s.length < PATH_MAX
  | .exited | .other | .failed => True

/-! ### What is written -/

theorem bound_eq_ok {α : Type} {x : Option α} {a : α} : bound x = .ok a ↔ x = some a := by
  cases x with
  | none => simp [bound]
  | some b => simp [bound]

/-- A register of an unknown type leaves what is there. -/
theorem funcLineOf_eq (cast : Cast) (funcLine : Option FuncLine) :
    funcLineOf cast funcLine = (funcLineOf cast none).or funcLine := by
  unfold funcLineOf
  split_ifs <;> rfl

theorem lastFunc_concat (ts : List Trace) (s : Trace) :
    lastFunc (ts ++ [s]) = s.func?.or (lastFunc ts) := by
  unfold lastFunc
  rw [List.filterMap_append, List.getLast?_append]
  cases hs : s.func? with
  | none => simp [hs]
  | some func => simp [hs]

theorem casesOf_concat (ts : List Trace) (s : Trace) :
    casesOf (ts ++ [s]) = casesOf ts ++ (caseOf? (ts ++ [s])).toList := by
  unfold casesOf
  rw [List.inits_append, List.filterMap_append]
  show _ ++ [ts ++ [s]].filterMap caseOf? = _
  rw [List.filterMap_cons]
  cases caseOf? (ts ++ [s]) with
  | none => rfl
  | some c => rfl

theorem caseOf?_concat (ts : List Trace) (s : Trace) :
    caseOf? (ts ++ [s]) = s.cast.bind fun _ => (lastFunc (ts ++ [s])).map (⟨s.call, ·⟩) := by
  unfold caseOf?
  rw [List.getLast?_concat]
  rfl

/-- A call without a test: its register is the one that is read from now on, if its type is
    known. -/
theorem tracedStep_kept {testDict : List (Str × List ArgDict)} {s : Trace} {w w' : Traced}
    (hkept : s.call ∉ testDict.map Prod.fst) (h : tracedStep testDict w s = .ok w') :
    w'.funcLine = s.func?.or w.funcLine ∧
      w'.switchOut = w.switchOut ++
        (s.cast.bind fun _ => w'.funcLine.map (⟨s.call, ·⟩)).toList := by
  unfold tracedStep at h
  rw [if_neg hkept] at h
  dsimp only at h
  unfold Trace.func?
  cases hcast : s.cast with
  | none =>
    rw [hcast] at h
    cases h
    simp
  | some cast =>
    rw [hcast] at h
    obtain ⟨func, hbound, h⟩ := bind_eq_ok.mp h
    cases h
    have hline : funcLineOf cast w.funcLine = some func := bound_eq_ok.mp hbound
    rw [Option.bind_some, Option.bind_some, ← funcLineOf_eq, hline]
    exact ⟨rfl, rfl⟩

/-- **The traced switch statements.** -/
theorem foldlM_tracedStep_cases {testDict : List (Str × List ArgDict)} {ts : List Trace}
    {w : Traced} (h : ts.foldlM (tracedStep testDict) {} = .ok w) :
    w.funcLine = lastFunc (ts.filter (·.call ∉ testDict.map Prod.fst)) ∧
      w.switchOut = casesOf (ts.filter (·.call ∉ testDict.map Prod.fst)) := by
  induction ts using List.reverseRecOn generalizing w with
  | nil =>
    cases h
    exact ⟨rfl, rfl⟩
  | append_singleton ts s ih =>
    rw [List.foldlM_append] at h
    obtain ⟨w₁, hw₁, h⟩ := bind_eq_ok.mp h
    obtain ⟨hfunc, hswitch⟩ := ih hw₁
    rw [List.foldlM_cons] at h
    obtain ⟨w₂, hstep, hw⟩ := bind_eq_ok.mp h
    cases hw
    rw [List.filter_append]
    by_cases htested : s.call ∈ testDict.map Prod.fst
    · have hdropped : [s].filter (·.call ∉ testDict.map Prod.fst) = [] := by
        simp [htested]
      rw [tracedStep, if_pos htested] at hstep
      cases hstep
      rw [hdropped, List.append_nil]
      exact ⟨hfunc, hswitch⟩
    · have hkept : [s].filter (·.call ∉ testDict.map Prod.fst) = [s] := by
        simp [htested]
      obtain ⟨hfunc', hswitch'⟩ := tracedStep_kept htested hstep
      have hlast : w.funcLine = lastFunc (ts.filter (·.call ∉ testDict.map Prod.fst) ++ [s]) := by
        rw [hfunc', hfunc, lastFunc_concat]
      rw [hkept, casesOf_concat, caseOf?_concat, ← hlast, hswitch', hswitch]
      exact ⟨rfl, rfl⟩

/-- Every test is that of a block. -/
theorem foldlM_testStep_call {blocks : List (Str × List ArgDict)} {w w' : Tested}
    (h : blocks.foldlM testStep w = .ok w') :
    w'.testOut.map TestCase.call = w.testOut.map TestCase.call ++ blocks.map Prod.fst := by
  induction blocks generalizing w with
  | nil =>
    cases h
    exact (List.append_nil _).symm
  | cons block blocks ih =>
    rw [List.foldlM_cons] at h
    obtain ⟨w₁, hstep, hrest⟩ := bind_eq_ok.mp h
    have hcall : w₁.testOut.map TestCase.call = w.testOut.map TestCase.call ++ [block.1] := by
      unfold testStep at hstep
      split at hstep
      · cases hstep
      · obtain ⟨body, -, hstep⟩ := bind_eq_ok.mp hstep
        obtain ⟨func, -, hstep⟩ := bind_eq_ok.mp hstep
        obtain ⟨line, -, hstep⟩ := bind_eq_ok.mp hstep
        cases hstep
        exact List.map_append
    rw [ih hrest, hcall, List.append_assoc]
    rfl

/-- What is written for the switch of the tracer. -/
theorem writeInspector_switch {pol : Policy} {g : Generated} (h : writeInspector pol = .ok g) :
    g.switchOut = casesOf pol.traces ∧
      g.testOut.map TestCase.call = pol.testDict.map Prod.fst := by
  obtain ⟨traced, htraced, h⟩ := bind_eq_ok.mp h
  obtain ⟨tested, htested, h⟩ := bind_eq_ok.mp h
  cases h
  exact ⟨(foldlM_tracedStep_cases htraced).2, foldlM_testStep_call htested⟩

/-! ### What is compiled -/

/-- The parts of a program are those of the text. -/
structure CompiledFrom (H : Header) (g : Generated) (insp : Program) : Prop where
  openNr : H.nr "open".toList = some insp.openNr
  rules : g.rules.mapM H.rule? = some insp.rules
  traced : g.switchOut.mapM H.traced? = some insp.traced
  tests : g.testOut.mapM H.test? = some insp.tests
  policyMap : g.policyMapOut.mapM H.nr? = some insp.policyMapList

theorem Generated.compile_parts {H : Header} {g : Generated} {insp : Program}
    (h : g.compile H = some insp) : CompiledFrom H g insp := by
  obtain ⟨openNr, hopen, h⟩ := Option.bind_eq_some_iff.mp h
  obtain ⟨rules, hrules, h⟩ := Option.bind_eq_some_iff.mp h
  obtain ⟨openList, -, h⟩ := Option.bind_eq_some_iff.mp h
  obtain ⟨traced, htraced, h⟩ := Option.bind_eq_some_iff.mp h
  obtain ⟨tests, htests, h⟩ := Option.bind_eq_some_iff.mp h
  obtain ⟨map, hmap, h⟩ := Option.bind_eq_some_iff.mp h
  split_ifs at h
  cases h
  exact ⟨hopen, hrules, htraced, htests, hmap⟩

section Compiled

variable {H : Header} {pol : Policy} {g : Generated} {insp : Program} {n : ℕ}

theorem Header.nr_of_nr? {s : Str} (h : H.nr? s = some n) : H.nr s = some n := by
  unfold Header.nr? at h
  split_ifs at h
  exact h

theorem find?_of_names {calls : List Str} (h : H.Names calls n) :
    ∃ s, calls.find? (H.nr? · = some n) = some s ∧ H.nr? s = some n := by
  have hsome : (calls.find? (H.nr? · = some n)).isSome := by
    rw [List.find?_isSome]
    obtain ⟨s, hs, hnr⟩ := h
    exact ⟨s, hs, by simpa using hnr⟩
  obtain ⟨s, hs⟩ := Option.isSome_iff_exists.mp hsome
  exact ⟨s, hs, by simpa using List.find?_some hs⟩

theorem find?_of_not_names {calls : List Str} (h : ¬H.Names calls n) :
    calls.find? (H.nr? · = some n) = none := by
  rw [List.find?_eq_none]
  intro s hs hnr
  exact h ⟨s, hs, by simpa using hnr⟩

/-- The call of a rule. -/
def Rule.call : Rule → Str
  | .allow s | .trace s => s

/-- **The filter** does what the policy says. -/
theorem action_eq (hw : writeInspector pol = .ok g) (hc : CompiledFrom H g insp) :
    insp.action n = pol.action H n := by
  have hrule : ∀ r m, H.rule? r = some m →
      decide (H.nr? r.call = some n) = decide (m.1 = n) := by
    rintro (s | s) r hr
    · obtain ⟨m, hm, rfl⟩ := Option.map_eq_some_iff.mp hr
      simp [Rule.call, hm]
    · obtain ⟨m, hm, rfl⟩ := Option.map_eq_some_iff.mp hr
      simp [Rule.call, hm]
  have hallow : (pol.allowList.map Rule.allow).find? (H.nr? ·.call = some n) =
      (pol.allowList.find? (H.nr? · = some n)).map .allow := List.find?_map ..
  have htrace : ((tracedCalls pol).map Rule.trace).find? (H.nr? ·.call = some n) =
      ((tracedCalls pol).find? (H.nr? · = some n)).map .trace := List.find?_map ..
  unfold Program.action Policy.action
  rw [find?_mapM hc.rules hrule, rules_spec hw, List.find?_append, hallow, htrace]
  by_cases hallowed : H.Names pol.allowList n
  · obtain ⟨s, hs, hnr⟩ := find?_of_names hallowed
    have hout : H.rule? (.allow s) = some (n, .allow) := by
      show (H.nr? s).map _ = _
      rw [hnr]
      rfl
    rw [if_pos hallowed, hs, Option.map_some, Option.some_or, Option.bind_some, hout]
  · rw [if_neg hallowed, find?_of_not_names hallowed, Option.map_none, Option.none_or]
    by_cases htraced : H.Names (tracedCalls pol) n
    · obtain ⟨s, hs, hnr⟩ := find?_of_names htraced
      have hout : H.rule? (.trace s) = some (n, .trace) := by
        show (H.nr? s).map _ = _
        rw [hnr]
        rfl
      rw [if_pos htraced, hs, Option.map_some, Option.bind_some, hout]
    · rw [if_neg htraced, find?_of_not_names htraced]
      rfl

/-- The policy map. -/
theorem mem_policyMapList_iff (hw : writeInspector pol = .ok g) (hc : CompiledFrom H g insp) :
    n ∈ insp.policyMapList ↔ H.Names pol.policyMapList n := by
  have hmap := hc.policyMap
  rw [writeInspector_policyMapOut hw] at hmap
  constructor
  · exact exists_of_mem_mapM hmap
  · rintro ⟨s, hs, hnr⟩
    obtain ⟨m, hm, heq⟩ := exists_mem_of_mapM hmap hs
    rw [hnr] at heq
    cases heq
    exact hm

/-- A case of the traced switch statements. -/
theorem traced?_eq_some {c : TracedCase} {stmt : TracedStmt} (h : H.traced? c = some stmt) :
    H.nr? c.call = some stmt.nr ∧ H.func? c.func = some stmt.reg := by
  obtain ⟨nr, hnr, h⟩ := Option.bind_eq_some_iff.mp h
  obtain ⟨reg, hreg, h⟩ := Option.bind_eq_some_iff.mp h
  cases h
  exact ⟨hnr, hreg⟩

/-- A test of a call. -/
theorem nr?_of_test? {c : TestCase} {stmt : TestStmt} (h : H.test? c = some stmt) :
    H.nr? c.call = some stmt.nr := by
  obtain ⟨nr, hnr, h⟩ := Option.bind_eq_some_iff.mp h
  obtain ⟨reg, -, h⟩ := Option.bind_eq_some_iff.mp h
  obtain ⟨consts, -, h⟩ := Option.bind_eq_some_iff.mp h
  split_ifs at h
  cases h
  exact hnr

/-- A traced call has no test. -/
theorem find?_tests (hw : writeInspector pol = .ok g) (hc : CompiledFrom H g insp)
    (hdistinct : H.Distinct) (htraced : H.Names (tracedCalls pol) n) :
    insp.tests.find? (·.nr = n) = none := by
  rw [List.find?_eq_none]
  intro stmt hstmt hn
  have hn : stmt.nr = n := by simpa using hn
  obtain ⟨c, hc', htest⟩ := exists_of_mem_mapM hc.tests hstmt
  obtain ⟨s, hs, hnr⟩ := htraced
  -- the two names are one
  have hcall : s = c.call := by
    refine hdistinct s c.call n (Header.nr_of_nr? hnr) ?_
    rw [← hn]
    exact Header.nr_of_nr? (nr?_of_test? htest)
  have htested : c.call ∈ pol.testDict.map Prod.fst := by
    rw [← (writeInspector_switch hw).2]
    exact List.mem_map_of_mem hc'
  rw [hcall, tracedCalls, List.mem_filter] at hs
  exact absurd htested (by simpa using hs.2)

/-- **The switch** on a traced call other than `open`. -/
theorem switch_eq (hw : writeInspector pol = .ok g) (hc : CompiledFrom H g insp)
    (hdistinct : H.Distinct) {t : Tracer} {a : Stop}
    (htraced : H.Names (tracedCalls pol) a.sysno) (hopen : a.sysno ≠ insp.openNr) :
    insp.switch t a =
      (Program.switch.reading a (pol.stringReg? H a.sysno) .resumed, t) := by
  have hcase : ∀ c stmt, H.traced? c = some stmt →
      decide (H.nr? c.call = some a.sysno) = decide (stmt.nr = a.sysno) := by
    intro c stmt h
    rw [(traced?_eq_some h).1]
    simp
  have hfind := find?_mapM hc.traced hcase
  rw [(writeInspector_switch hw).1] at hfind
  unfold Program.switch Policy.stringReg?
  rw [if_neg hopen, find?_tests hw hc hdistinct htraced]
  cases hstmt : insp.traced.find? (·.nr = a.sysno) with
  | none =>
    rw [hstmt] at hfind
    cases hcase : (casesOf pol.traces).find? (H.nr? ·.call = some a.sysno) with
    | none => rfl
    | some c =>
      rw [hcase] at hfind
      -- every case has been compiled
      have hmem : c ∈ g.switchOut := by
        rw [(writeInspector_switch hw).1]
        exact List.mem_of_find?_eq_some hcase
      obtain ⟨stmt, -, hsome⟩ := exists_mem_of_mapM hc.traced hmem
      exact absurd (hfind.trans hsome) nofun
  | some stmt =>
    rw [hstmt] at hfind
    obtain ⟨c, hc', htraced?⟩ := Option.bind_eq_some_iff.mp hfind.symm
    dsimp only
    rw [hc', Option.bind_some, (traced?_eq_some htraced?).2]
    rfl

/-! ### Runs -/

/-- The tracer is where the machine is. -/
structure Represents (insp : Program) (t : Tracer) (p : Phase) : Prop where
  level : t.policyLevel = if p.initialized then 1 else 0
  map : t.policyMap = if p.initialized then insp.policyMapList else []
  exits : t.jmax = p.exits
  running : t.running = p.running

/-- A traced call before the announcement. -/
theorem stop_starting (hw : writeInspector pol = .ok g) (hc : CompiledFrom H g insp)
    (hdistinct : H.Distinct) {t : Tracer} (hlevel : t.policyLevel = 0) {a : Stop}
    (htraced : H.Names (tracedCalls pol) a.sysno) :
    insp.stop t a = ((pol.stop H false a).1,
      if (pol.stop H false a).2 then
        { t with policyLevel := 1, policyMap := t.policyMap ++ insp.policyMapList }
      else t) := by
  have hne : ¬t.policyLevel = 1 := by omega
  unfold Program.stop Policy.stop
  rw [if_neg fun h => hne h.1, if_neg fun h => Bool.false_ne_true h.1]
  by_cases hopen : a.sysno = insp.openNr
  · rw [if_pos (by rw [hc.openNr, hopen])]
    unfold Program.switch
    rw [if_pos hopen]
    cases readRegString a RDI with
    | none => rfl
    | some file =>
      dsimp only
      unfold Program.openCase
      rw [if_neg hne]
      by_cases hest : file = established
      · rw [if_pos ⟨hlevel, hest⟩, if_pos (by simp [hest])]
      · rw [if_neg fun h => hest h.2, if_neg (by simp [hest])]
  · rw [if_neg (by rw [hc.openNr]; exact fun h => hopen (Option.some.inj h).symm),
      switch_eq hw hc hdistinct htraced hopen]
    rfl

/-- A traced call after it. -/
theorem stop_initialized (hw : writeInspector pol = .ok g) (hc : CompiledFrom H g insp)
    (hdistinct : H.Distinct) (hunmapped : insp.openNr ∉ insp.policyMapList) {t : Tracer}
    (hlevel : t.policyLevel = 1) (hmap : t.policyMap = insp.policyMapList) {a : Stop}
    (htraced : H.Names (tracedCalls pol) a.sysno) :
    insp.stop t a = ((pol.stop H true a).1, t) ∧ (pol.stop H true a).2 = true := by
  unfold Policy.stop
  by_cases hmem : a.sysno ∈ insp.policyMapList
  · have hnames : H.Names pol.policyMapList a.sysno := (mem_policyMapList_iff hw hc).mp hmem
    have hopen : a.sysno ≠ insp.openNr := fun h => hunmapped (h ▸ hmem)
    unfold Program.stop
    rw [if_neg fun h => h.2 (hmap ▸ hmem), if_neg fun h => h.2 hnames,
      if_neg (by rw [hc.openNr]; exact fun h => hopen (Option.some.inj h).symm),
      switch_eq hw hc hdistinct htraced hopen]
    exact ⟨rfl, rfl⟩
  · have hnames : ¬H.Names pol.policyMapList a.sysno :=
      fun h => hmem ((mem_policyMapList_iff hw hc).mpr h)
    rw [Program.stop_of_unmapped hlevel (hmap ▸ hmem), if_pos ⟨rfl, hnames⟩]
    exact ⟨rfl, rfl⟩

/-- **A traced call** comes to what the policy says. -/
theorem stop_eq (hw : writeInspector pol = .ok g) (hc : CompiledFrom H g insp)
    (hdistinct : H.Distinct) (hunmapped : insp.openNr ∉ insp.policyMapList) {t : Tracer}
    {p : Phase} (hrep : Represents insp t p) {a : Stop}
    (htraced : H.Names (tracedCalls pol) a.sysno) :
    (insp.stop t a).1 = (pol.stop H p.initialized a).1 ∧
      Represents insp (insp.stop t a).2
        { p with initialized := (pol.stop H p.initialized a).2 } := by
  obtain ⟨hlevel, hmap, hexits, hrunning⟩ := hrep
  cases hinit : p.initialized with
  | false =>
    rw [hinit] at hlevel hmap
    rw [stop_starting hw hc hdistinct hlevel htraced]
    refine ⟨rfl, ?_⟩
    dsimp only
    cases (pol.stop H false a).2 with
    | false => exact ⟨hlevel, hmap, hexits, hrunning⟩
    | true =>
      refine ⟨rfl, ?_, hexits, hrunning⟩
      show t.policyMap ++ insp.policyMapList = insp.policyMapList
      rw [hmap]
      rfl
  | true =>
    rw [hinit] at hlevel hmap
    obtain ⟨hstop, hstill⟩ := stop_initialized hw hc hdistinct hunmapped hlevel hmap htraced
    rw [hstop, hstill]
    exact ⟨rfl, hlevel, hmap, hexits, hrunning⟩

/-- One event. -/
theorem next_represents (hw : writeInspector pol = .ok g) (hc : CompiledFrom H g insp)
    (hdistinct : H.Distinct) (hunmapped : insp.openNr ∉ insp.policyMapList) {t : Tracer}
    {p : Phase} (hrep : Represents insp t p) (e : Program.Event) :
    insp.outcome t e = pol.outcome H p e ∧
      Represents insp (insp.next t e) (pol.next H p e) := by
  cases e with
  | call a =>
    unfold Program.outcome Program.next Policy.outcome Policy.next
    dsimp only
    rw [action_eq hw hc]
    cases haction : pol.action H a.sysno with
    | kill => exact ⟨rfl, hrep⟩
    | allow => exact ⟨rfl, hrep⟩
    | trace =>
      have htraced : H.Names (tracedCalls pol) a.sysno := by
        unfold Policy.action at haction
        split_ifs at haction with hallowed htraced
        exact htraced
      obtain ⟨hverdict, hstop⟩ := stop_eq hw hc hdistinct hunmapped hrep htraced
      rw [hverdict, if_pos rfl, if_pos rfl]
      exact ⟨rfl, hstop.level, hstop.map, hstop.exits, rfl⟩
  | exited =>
    refine ⟨rfl, hrep.level, hrep.map, ?_, ?_⟩
    · show t.jmax + 1 = p.exits + 1
      rw [hrep.exits]
    · show decide (t.jmax + 1 ≤ 10) = decide (p.exits + 1 ≤ 10)
      rw [hrep.exits]
  | other => exact ⟨rfl, hrep⟩
  | failed => exact ⟨rfl, hrep.level, hrep.map, hrep.exits, rfl⟩

/-- A string that fits does not overrun `orig_file`. -/
theorem not_overruns_of_fits {t : Tracer} {e : Program.Event} (h : e.Fits) :
    ¬Overruns insp t e := by
  cases e with
  | call a =>
    rintro ⟨-, -, reg, s, -, hread, hlen⟩
    exact absurd (h reg s hread) (Nat.not_lt.mpr hlen)
  | exited | other | failed => exact id

theorem traces_iff (hw : writeInspector pol = .ok g) (hc : CompiledFrom H g insp)
    (hdistinct : H.Distinct) (hunmapped : insp.openNr ∉ insp.policyMapList)
    {es : List Program.Event} (hfits : ∀ e ∈ es, e.Fits) {t : Tracer} {p : Phase}
    (hrep : Represents insp t p) {outs : List Outcome} :
    insp.Traces t es outs ↔ outs = pol.run H p es := by
  induction es generalizing t p outs with
  | nil =>
    constructor
    · rintro ⟨⟩
      rfl
    · rintro rfl
      exact .nil
  | cons e es ih =>
    have hnot : ¬Overruns insp t e := not_overruns_of_fits (hfits e (List.mem_cons_self ..))
    have hrest : ∀ e' ∈ es, e'.Fits := fun e' he => hfits e' (List.mem_cons_of_mem _ he)
    obtain ⟨hout, hnext⟩ := next_represents hw hc hdistinct hunmapped hrep e
    unfold Policy.run
    rw [← hrep.running]
    cases hrunning : t.running with
    | false =>
      rw [if_neg Bool.false_ne_true]
      constructor
      · intro h
        cases h with
        | ended => rfl
        | round hrun => exact absurd (hrunning.symm.trans hrun) Bool.false_ne_true
        | overrun hrun => exact absurd (hrunning.symm.trans hrun) Bool.false_ne_true
      · rintro rfl
        exact .ended hrunning
    | true =>
      rw [if_pos rfl, ← hout]
      constructor
      · intro h
        cases h with
        | ended hended => exact absurd (hended.symm.trans hrunning) Bool.false_ne_true
        | round _ _ h => rw [(ih hrest hnext).mp h]
        | overrun _ hover => exact absurd hover hnot
      · rintro rfl
        exact .round hrunning hnot ((ih hrest hnext).mpr rfl)

variable {modules : Modules} {raw : Str}

/-- **The inspector means the policy.**  Of every policy that is accepted, and whose inspector is
    written and compiled, over every sequence of events whose strings fit into `orig_file`: the
    events come to what they come to in the policy. -/
theorem compiled_traces (hp : parsePolicy modules raw = .ok pol) (hw : writeInspector pol = .ok g)
    (hc : g.compile H = some insp) (hdistinct : H.Distinct) {es : List Program.Event}
    (hfits : ∀ e ∈ es, e.Fits) {outs : List Outcome} :
    insp.Traces {} es outs ↔ outs = pol.run H {} es :=
  traces_iff hw (Generated.compile_parts hc) hdistinct (open_unmapped hp hw hc) hfits
    ⟨rfl, rfl, rfl, rfl⟩

end Compiled

/-! ### A policy that traces `open` -/

example : casesOf [⟨"execve".toList, some ⟨"RDI".toList, "PTR".toList⟩⟩,
      ⟨"connect".toList, some ⟨"RSI".toList, "ADDR".toList⟩⟩] =
    [⟨"execve".toList, .readRegString "RDI".toList⟩,
      ⟨"connect".toList, .readRegString "RDI".toList⟩] := by decide

theorem distinct_openHeader : openHeader.Distinct := by
  intro s s' n h h'
  unfold openHeader at h h'
  dsimp only at h h'
  split_ifs at h h' <;> grind

theorem fits_openOf {path : CStr} (h : path.length < PATH_MAX) :
    (Program.Event.call (openOf path)).Fits := by
  intro reg s hread
  obtain ⟨s', hs', hread⟩ := Option.bind_eq_some_iff.mp hread
  cases hs'
  split_ifs at hread
  cases hread
  exact h

/-- The announcement, a call that is let through, a path that a rule of the policy lists, and
    what would come after it. -/
theorem compiled_traces_openTraced :
    openTracedProgram.Traces {}
      [.call (openOf established), .call ⟨100, 7, fun _ => none⟩, .call (openOf passwd), .other]
      [.stopped .resumed, .passed, .stopped .disallowed] := by
  have hfits : ∀ e ∈ [Program.Event.call (openOf established), .call ⟨100, 7, fun _ => none⟩,
      .call (openOf passwd), .other], e.Fits :=
    List.forall_mem_cons.mpr ⟨fits_openOf (by decide +kernel),
      List.forall_mem_cons.mpr ⟨fun _ _ hread => absurd hread nofun,
        List.forall_mem_cons.mpr ⟨fits_openOf (by decide +kernel),
          List.forall_mem_singleton.mpr trivial⟩⟩⟩
  exact (compiled_traces parsePolicy_openTraced rfl compile_openTraced distinct_openHeader
    hfits).mpr (by decide +kernel)

end Furnace.Inspector
