import Furnace.Inspector.FilePolicy

namespace Furnace.Inspector

open Furnace.Lib Furnace.Lib.PyText Furnace.Lib.Libgen

/-!
# Confinement after the initialization

All traced processes share one policy level.  Once one of them has opened `ESTABLISHED`, a
process goes on after a stop only if its call is in the policy map and, for `open`, if one
of the generated tests holds.

The string that a stop is about is copied into `orig_file`, whose size nothing compares with
the string's: a longer string runs over the variables of `main`, and what the tracer does
after that is anyone's guess.

* `Overruns` — a stop whose string does not fit.
* `confinementSystem` — the runs of the tracer, with a record of the stops since the
  announcement; a stop that overruns leads to any tracer state.
* `confined_reach` — the runs without such a stop are confined.
-/

/-- The register whose string the switch reads for a call. -/
def Program.stringReg? (insp : Program) (n : ℕ) : Option ℕ :=
  if n = insp.openNr then some RDI
  else match insp.traced.find? (·.nr = n) with
    | some c => c.reg
    | none => (insp.tests.find? (·.nr = n)).bind (·.reg)

/-- The event is a stop whose string does not fit into `orig_file`. -/
def Overruns (insp : Program) (t : Tracer) : Program.Event → Prop
  | .call a =>
    insp.action a.sysno = .trace ∧ ¬ (t.policyLevel = 1 ∧ a.sysno ∉ t.policyMap) ∧
      ∃ reg s, insp.stringReg? a.sysno = some reg ∧ readRegString a reg = some s ∧
        PATH_MAX ≤ s.length
  | _ => False

/-- The event is the stop at which `ESTABLISHED` is opened. -/
def Announces (insp : Program) (t : Tracer) : Program.Event → Prop
  | .call a =>
    insp.action a.sysno = .trace ∧ t.policyLevel = 0 ∧ a.sysno = insp.openNr ∧
      readRegString a RDI = some established
  | _ => False

/-- The stop of an event, if it is one. -/
def stopOf? (insp : Program) : Program.Event → Option Stop
  | .call a => if insp.action a.sysno = .trace then some a else none
  | _ => none

/-- The tracer, whether it has seen the announcement, and the stops since then, each with
    whether the tracer was still running after it, so that `PTRACE_CONT` follows. -/
structure Watched where
  tracer : Tracer := {}
  announced : Bool := false
  stops : List (Stop × Bool) := []

/-- The runs of a generated inspector. -/
def confinementSystem (insp : Program) : TransitionSystem Watched Program.Event where
  init s := s = {}
  step s e s' :=
    s.tracer.running = true ∧
    (¬ Overruns insp s.tracer e → s'.tracer = insp.next s.tracer e) ∧
    (s'.announced = true ↔ s.announced = true ∨ Announces insp s.tracer e) ∧
    (¬ s.announced → s'.stops = s.stops) ∧
    (s.announced → s'.stops = s.stops ++
      (stopOf? insp e).toList.map fun a => (a, s'.tracer.running))

/-- A call is in the policy map and, if it is `open`, one of the generated tests holds. -/
def Permitted (insp : Program) (t : Tracer) (a : Stop) : Prop :=
  a.sysno ∈ t.policyMap ∧ (a.sysno = insp.openNr → ∃ origFile,
    readRegString a RDI = some origFile ∧ ∃ c ∈ insp.openList,
      c.holds (dirname origFile) (basename (afterDirname origFile)) = true)

/-- **Confinement.** Since the announcement the policy level is 1, the policy map is the one
    of the policy, every stop after which the tracer goes on was permitted, and after any
    other stop the tracer has ended. -/
structure Confined (insp : Program) (s : Watched) : Prop where
  level : s.tracer.policyLevel = 1
  map : s.tracer.policyMap = insp.policyMapList
  resumed : ∀ a, (a, true) ∈ s.stops → Permitted insp s.tracer a
  ended : ∀ a, (a, false) ∈ s.stops → s.tracer.running = false

/-! ### One stop -/

variable {insp : Program} {t : Tracer} {a : Stop}

/-- At policy level 1 an `open` goes on only when one of the tests holds. -/
theorem Program.openCase_level_one (hlevel : t.policyLevel = 1) (origFile : CStr) :
    (insp.openCase t origFile).2 = t ∧ ((insp.openCase t origFile).1 = .resumed →
      ∃ c ∈ insp.openList,
        c.holds (dirname origFile) (basename (afterDirname origFile)) = true) := by
  rw [Program.openCase, if_pos hlevel]
  dsimp only
  split_ifs with hany
  · exact ⟨rfl, fun _ => List.any_eq_true.mp hany⟩
  · simp

/-- At policy level 1 a stop changes no variable, and goes on only when it is permitted. -/
theorem Program.stop_level_one (hlevel : t.policyLevel = 1) :
    (insp.stop t a).2 = t ∧ ((insp.stop t a).1 = .resumed → Permitted insp t a) := by
  by_cases hmap : a.sysno ∈ t.policyMap
  · have hfilter : ¬ (t.policyLevel = 1 ∧ a.sysno ∉ t.policyMap) := by simp [hmap]
    rw [Program.stop, if_neg hfilter, Program.switch]
    by_cases hopen : a.sysno = insp.openNr
    · rw [if_pos hopen]
      cases hread : readRegString a RDI with
      | none => simp
      | some origFile =>
        obtain ⟨hsame, htest⟩ := @Program.openCase_level_one insp t hlevel origFile
        exact ⟨hsame, fun hres => ⟨hmap, fun _ => ⟨origFile, hread, htest hres⟩⟩⟩
    · rw [if_neg hopen]
      have hother : Permitted insp t a := ⟨hmap, fun h => absurd h hopen⟩
      split
      · exact ⟨rfl, fun _ => hother⟩
      · split
        · exact ⟨rfl, fun _ => hother⟩
        · exact ⟨rfl, fun _ => hother⟩
  · rw [Program.stop_of_unmapped hlevel hmap]
    simp

/-- At policy level 0 only the announcement changes variables. -/
theorem Program.stop_level_zero (hlevel : t.policyLevel = 0) :
    (a.sysno = insp.openNr ∧ readRegString a RDI = some established →
      insp.stop t a = (.resumed,
        { t with policyLevel := 1, policyMap := t.policyMap ++ insp.policyMapList })) ∧
    (¬ (a.sysno = insp.openNr ∧ readRegString a RDI = some established) →
      (insp.stop t a).2 = t) := by
  have hne : ¬ t.policyLevel = 1 := by omega
  have hfilter : ¬ (t.policyLevel = 1 ∧ a.sysno ∉ t.policyMap) := fun h => hne h.1
  rw [Program.stop, if_neg hfilter, Program.switch]
  by_cases hopen : a.sysno = insp.openNr
  · rw [if_pos hopen]
    cases hread : readRegString a RDI with
    | none => simp
    | some origFile =>
      show (_ → insp.openCase t origFile = _) ∧ (_ → (insp.openCase t origFile).2 = t)
      rw [Program.openCase, if_neg hne]
      by_cases hest : origFile = established
      · rw [if_pos ⟨hlevel, hest⟩]
        simp [hopen, hest]
      · rw [if_neg fun h => hest h.2]
        simp [hest]
  · rw [if_neg hopen]
    refine ⟨fun h => absurd h.1 hopen, fun _ => ?_⟩
    split
    · rfl
    · split <;> rfl

/-! ### One round -/

/-- The invariant of a run: nothing has happened before the announcement, and the tracer is
    confined after it. -/
structure ConfinementInv (insp : Program) (s : Watched) : Prop where
  before : ¬ s.announced → s.tracer.policyLevel = 0 ∧ s.tracer.policyMap = [] ∧ s.stops = []
  after : s.announced → Confined insp s

/-- A round before the announcement. -/
theorem confinementInv_before {s s' : Watched} {e : Program.Event} (hbefore : ¬ s.announced)
    (h : ConfinementInv insp s) (hfits : ¬ Overruns insp s.tracer e)
    (hs : (confinementSystem insp).step s e s') : ConfinementInv insp s' := by
  obtain ⟨-, htracer, hann, hstops, -⟩ := hs
  have ht := htracer hfits
  have hst := hstops hbefore
  obtain ⟨hlevel, hmap, hnil⟩ := h.before hbefore
  by_cases hnow : Announces insp s.tracer e
  · -- this is the announcement
    refine ⟨fun hnot => absurd (hann.mpr (.inr hnow)) hnot, fun _ => ?_⟩
    cases e with
    | call a =>
      obtain ⟨htrace, -, hopen, hread⟩ := hnow
      have hstop := (Program.stop_level_zero hlevel).1 ⟨hopen, hread⟩
      rw [Program.next, if_pos htrace, hstop] at ht
      refine ⟨?_, ?_, ?_, ?_⟩
      · rw [ht]
      · rw [ht, hmap]
        rfl
      · simp [hst, hnil]
      · simp [hst, hnil]
    | exited | other | failed => exact hnow.elim
  · have hstill : ¬ s'.announced := by
      rw [hann]
      rintro (h | h)
      · exact hbefore h
      · exact hnow h
    refine ⟨fun _ => ?_, fun h => absurd h hstill⟩
    rw [hst]
    cases e with
    | call a =>
      by_cases htrace : insp.action a.sysno = .trace
      · have hstop := (Program.stop_level_zero hlevel).2 fun h => hnow ⟨htrace, hlevel, h⟩
        rw [Program.next, if_pos htrace, hstop] at ht
        rw [ht]
        exact ⟨hlevel, hmap, hnil⟩
      · rw [Program.next, if_neg htrace] at ht
        rw [ht]
        exact ⟨hlevel, hmap, hnil⟩
    | exited | other | failed =>
      rw [ht]
      exact ⟨hlevel, hmap, hnil⟩

/-- A round after the announcement. -/
theorem confinementInv_after {s s' : Watched} {e : Program.Event} (hafter : s.announced)
    (h : ConfinementInv insp s) (hfits : ¬ Overruns insp s.tracer e)
    (hs : (confinementSystem insp).step s e s') : ConfinementInv insp s' := by
  obtain ⟨hrunning, htracer, hann, -, hstops⟩ := hs
  have ht := htracer hfits
  have hst := hstops hafter
  obtain ⟨hlevel, hmap, hresumed, hended⟩ := h.after hafter
  -- the tracer is running, so that all earlier stops were permitted
  have hnone : ∀ a, (a, false) ∉ s.stops := by
    intro a ha
    rw [hended a ha] at hrunning
    cases hrunning
  refine ⟨fun hnot => absurd (hann.mpr (.inl hafter)) hnot, fun _ => ?_⟩
  -- a round that is no stop leaves the record as it is
  have hquiet : stopOf? insp e = none → s'.tracer.policyLevel = s.tracer.policyLevel →
      s'.tracer.policyMap = s.tracer.policyMap → Confined insp s' := by
    intro hstop hl hm
    rw [hstop] at hst
    have hsame : s'.stops = s.stops := by simpa using hst
    refine ⟨hl.trans hlevel, hm.trans hmap, fun a ha => ?_, fun a ha => ?_⟩
    · rw [hsame] at ha
      obtain ⟨hin, hopen⟩ := hresumed a ha
      exact ⟨hm ▸ hin, hopen⟩
    · rw [hsame] at ha
      exact absurd ha (hnone a)
  cases e with
  | call a =>
    by_cases htrace : insp.action a.sysno = .trace
    · obtain ⟨hsame, hperm⟩ := @Program.stop_level_one insp s.tracer a hlevel
      rw [Program.next, if_pos htrace, hsame] at ht
      have hsplit : s'.stops = s.stops ++ [(a, s'.tracer.running)] := by
        rw [hst, stopOf?, if_pos htrace]
        rfl
      refine ⟨?_, ?_, fun b hb => ?_, fun b hb => ?_⟩
      · rw [ht]
        exact hlevel
      · rw [ht]
        exact hmap
      · -- an earlier stop, or this one
        have hpermitted : Permitted insp s.tracer b := by
          rw [hsplit] at hb
          rcases List.mem_append.mp hb with hb | hb
          · exact hresumed b hb
          · obtain ⟨rfl, hrun⟩ := Prod.mk.inj (List.mem_singleton.mp hb)
            rw [ht] at hrun
            exact hperm (by simpa using hrun.symm)
        rw [ht]
        exact hpermitted
      · rw [hsplit] at hb
        rcases List.mem_append.mp hb with hb | hb
        · exact absurd hb (hnone b)
        · obtain ⟨-, hrun⟩ := Prod.mk.inj (List.mem_singleton.mp hb)
          exact hrun.symm
    · refine hquiet (by simp [stopOf?, htrace]) ?_ ?_ <;> rw [ht, Program.next, if_neg htrace]
  | exited | other | failed => refine hquiet rfl ?_ ?_ <;> rw [ht] <;> rfl

/-! ### Runs -/

/-- **Confinement along a run.** In every run whose strings all fit into `orig_file`, of any
    processes in any order, the tracer is confined from the announcement on. -/
theorem confined_reach {s : Watched}
    (hr : Reach (confinementSystem insp) (fun s e => ¬ Overruns insp s.tracer e) s)
    (hann : s.announced) : Confined insp s := by
  have hinv : ConfinementInv insp s := by
    refine Reach.invariant (ConfinementInv insp) ?_ ?_ hr
    · rintro s rfl
      exact ⟨fun _ => ⟨rfl, rfl, rfl⟩, fun h => by cases h⟩
    · intro s e s' h hfits hs
      by_cases hs' : s.announced
      · exact confinementInv_after hs' h hfits hs
      · exact confinementInv_before hs' h hfits hs
  exact hinv.after hann

/-! ### A policy that goes on tracing `stat` -/

/-- `stat` is traced, and stays in use after the announcement. -/
def statTraced : Str :=
  ("ALLOW poll\nA TRACE open\nA TRACE stat RDI_PTR\n1 TRACE stat\n1 TEST_ARGS open \x7b\n" ++
    " RDI_PTR:dirname|/etc\n\x7d").toList

def statTracedPolicy : Policy where
  allowList := ["poll".toList]
  testDict := []
  openDict := { dirname := ["/etc".toList] }
  policyMapList := ["stat".toList]
  tracedList := [{ call := "open".toList, cast := none },
    { call := "stat".toList, cast := some ⟨"RDI".toList, "PTR".toList⟩ }]

def statTracedGenerated : Generated where
  allowOut := [.allow "poll".toList]
  ruleAddOut := [.trace "open".toList, .trace "stat".toList]
  switchOut := [{ call := "stat".toList, func := .readRegString "RDI".toList }]
  testOut := []
  openOut := [.dirname "/etc".toList]
  policyMapOut := ["stat".toList]

/-- The numbers of the calls and registers of `statTraced`. -/
def statHeader : Header where
  nr s := if s = "open".toList then some 2 else if s = "stat".toList then some 4 else
    if s = "poll".toList then some 7 else none
  reg s := if s = "RDI".toList then some RDI else none
  const _ := none
  open_only s n hopen hs := by
    rw [if_pos rfl] at hopen
    cases hopen
    by_contra hne
    rw [if_neg hne] at hs
    split_ifs at hs
    · cases hs
    · cases hs

def statTracedProgram : Program where
  rules := [(7, .allow), (2, .trace), (4, .trace)]
  openNr := 2
  openList := [.strcmpPath (encode "/etc".toList)]
  traced := [{ nr := 4, reg := some RDI }]
  tests := []
  policyMapList := [4]

theorem parsePolicy_statTraced : parsePolicy noModules statTraced = .ok statTracedPolicy := by rfl

theorem compile_statTraced : statTracedGenerated.compile statHeader = some statTracedProgram := by
  decide +kernel

/-- A stop of process `pid` at `stat` of the given path. -/
def statOf (pid : ℤ) (path : CStr) : Stop where
  pid := pid
  sysno := 4
  str _ := some path

/-- The state after the announcement and the given stops. -/
def sinceAnnounced (running : Bool) (stops : List (Stop × Bool)) : Watched where
  tracer := { policyLevel := 1, policyMap := [4], running }
  announced := true
  stops

/-- A string that fits is no overrun. -/
theorem not_overruns_of_length (path : CStr) (hlen : path.length < PATH_MAX)
    (hstr : ∀ reg, a.str reg = some path) : ¬ Overruns insp t (.call a) := by
  rintro ⟨-, -, reg, s, -, hread, hs⟩
  obtain ⟨s', hs', hread⟩ := Option.bind_eq_some_iff.mp hread
  rw [hstr] at hs'
  cases hs'
  split_ifs at hread
  cases hread
  omega

theorem step_announced : (confinementSystem statTracedProgram).step {}
    (.call (openOf established)) (sinceAnnounced true []) :=
  ⟨rfl, fun _ => rfl, ⟨fun _ => .inr ⟨rfl, rfl, rfl, rfl⟩, fun _ => rfl⟩, fun _ => rfl,
    fun h => by cases h⟩

/-- After the announcement a `stat` of `/etc/passwd` is let through, of any process. -/
theorem step_statOf (pid : ℤ) (stops : List (Stop × Bool)) :
    (confinementSystem statTracedProgram).step (sinceAnnounced true stops)
      (.call (statOf pid passwd)) (sinceAnnounced true (stops ++ [(statOf pid passwd, true)])) :=
  ⟨rfl, fun _ => rfl, ⟨fun _ => .inl rfl, fun _ => rfl⟩, fun h => absurd rfl h, fun _ => rfl⟩

/-- An `open` of it ends the tracer. -/
theorem step_openOf (stops : List (Stop × Bool)) :
    (confinementSystem statTracedProgram).step (sinceAnnounced true stops)
      (.call (openOf passwd)) (sinceAnnounced false (stops ++ [(openOf passwd, false)])) :=
  ⟨rfl, fun _ => rfl, ⟨fun _ => .inl rfl, fun _ => rfl⟩, fun h => absurd rfl h, fun _ => rfl⟩

/-- Two processes go on after a `stat`, and an `open` ends the run. -/
theorem confined_statTraced : Confined statTracedProgram (sinceAnnounced false
    [(statOf 100 passwd, true), (statOf 101 passwd, true), (openOf passwd, false)]) := by
  have hpasswd : passwd.length < PATH_MAX := by decide
  have hann : Reach (confinementSystem statTracedProgram)
      (fun s e => ¬ Overruns statTracedProgram s.tracer e) (sinceAnnounced true []) :=
    .step (.init rfl) (not_overruns_of_length established (by decide) fun _ => rfl)
      step_announced
  have hstat := hann.step (not_overruns_of_length passwd hpasswd fun _ => rfl) (step_statOf 100 [])
  have hstats := hstat.step (not_overruns_of_length passwd hpasswd fun _ => rfl) (step_statOf 101 _)
  exact confined_reach (hstats.step (not_overruns_of_length passwd hpasswd fun _ => rfl)
    (step_openOf _)) rfl

/-- A path that is one letter over and over is read to its end. -/
theorem readRegString_replicate (pid : ℤ) (n reg : ℕ) :
    readRegString (statOf pid (List.replicate n 97)) reg = some (List.replicate n 97) := by
  have hword : ∀ k, ((List.replicate n (97 : UInt8)).drop (8 * k)).take 8 ≠
      List.replicate 8 0xff := by
    intro k h
    rw [List.drop_replicate, List.take_replicate, List.replicate_inj] at h
    obtain ⟨hlen, h0 | h97⟩ := h
    · omega
    · cases h97
  show (if _ then none else some (List.replicate n (97 : UInt8))) = _
  rw [if_neg]
  rw [List.any_eq_true]
  rintro ⟨k, -, hk⟩
  exact hword k (by simpa only [decide_eq_true_eq] using hk)

/-- A path of `PATH_MAX` bytes, for which `orig_file` has one byte too few. -/
def longPath : CStr := List.replicate PATH_MAX 97

theorem overruns_longPath : Overruns statTracedProgram (sinceAnnounced true []).tracer
    (.call (statOf 100 longPath)) :=
  ⟨rfl, by decide, RDI, longPath, rfl, readRegString_replicate 100 PATH_MAX RDI,
    (List.length_replicate ..).ge⟩

/-- **A path that does not fit undoes the confinement.** Under a policy that is accepted, written
    and compiled, a process calls `stat` with a path of `PATH_MAX` bytes after the announcement;
    the tracer may go on at policy level 0. -/
theorem overrun_unconfines :
    parsePolicy noModules statTraced = .ok statTracedPolicy ∧
      writeInspector statTracedPolicy = .ok statTracedGenerated ∧
      statTracedGenerated.compile statHeader = some statTracedProgram ∧
      ∃ s : Watched, Reach (confinementSystem statTracedProgram) (fun _ _ => True) s ∧
        s.announced = true ∧ s.stops = [(statOf 100 longPath, true)] ∧
        s.tracer.running = true ∧ s.tracer.policyLevel = 0 ∧
        ¬ Confined statTracedProgram s := by
  have hann : Reach (confinementSystem statTracedProgram) (fun _ _ => True)
      (sinceAnnounced true []) := .step (.init rfl) trivial step_announced
  have hstep : (confinementSystem statTracedProgram).step (sinceAnnounced true [])
      (.call (statOf 100 longPath)) ⟨{}, true, [(statOf 100 longPath, true)]⟩ :=
    ⟨rfl, fun h => absurd overruns_longPath h, ⟨fun _ => .inl rfl, fun _ => rfl⟩,
      fun h => absurd rfl h, fun _ => rfl⟩
  refine ⟨parsePolicy_statTraced, rfl, compile_statTraced, _, .step hann trivial hstep, rfl, rfl,
    rfl, rfl, fun h => ?_⟩
  have hlevel := h.level
  cases hlevel

end Furnace.Inspector
