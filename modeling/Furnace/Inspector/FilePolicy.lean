import Furnace.Inspector.Coverage
import Furnace.Inspector.Tracer

namespace Furnace.Inspector

open Furnace.Lib Furnace.Lib.PyText Furnace.Lib.Libgen

/-!
# The file policy after initialization

What the `1 TEST_ARGS open` block of a policy says about a path, read from the text of the
policy, against what an `open` stop at policy level 1 comes to.

* `OpenRule.Matches` — when a path matches a rule, by the POSIX parts of the path.
* `Written` — the rules in the text of a policy.
* `open_unmapped` — `open` is never in the policy map of an inspector.
* `open_enforced_iff` — an `open` stop at policy level 1 is disallowed by the front end filter,
  so the policy is enforced for a path exactly when no rule matches it.
-/

/-! ### Rules -/

/-- The kinds of rules. -/
inductive RuleKind
  | dirname | dirnameGlob | basename | exactpath
  deriving DecidableEq, Repr

/-- The word for a kind of rule. -/
def RuleKind.word : RuleKind → Str
  | .dirname => "dirname".toList
  | .dirnameGlob => "dirname_glob".toList
  | .basename => "basename".toList
  | .exactpath => "exactpath".toList

/-- `dirname|D`, `dirname_glob|D`, `basename|B` or `exactpath|P`. -/
structure OpenRule where
  kind : RuleKind
  arg : Str
  deriving DecidableEq, Repr

/-- The paths that match a rule. -/
def OpenRule.Matches (r : OpenRule) (path : CStr) : Prop :=
  match r.kind with
  | .dirname => dirname path = encode r.arg
  | .dirnameGlob => encode r.arg <+: dirname path
  | .basename => basename path = encode r.arg
  | .exactpath => dirname path = dirname (encode r.arg) ∧ basename path = basename (encode r.arg)

instance OpenRule.decidableMatches (path : CStr) : (r : OpenRule) → Decidable (r.Matches path)
  | ⟨.dirname, _⟩ | ⟨.basename, _⟩ => inferInstanceAs (Decidable (_ = _))
  | ⟨.dirnameGlob, _⟩ => inferInstanceAs (Decidable (_ <+: _))
  | ⟨.exactpath, _⟩ => inferInstanceAs (Decidable (_ ∧ _))

/-- A line `[register]_[type]:kind|arg` of a block; a comma may follow the rule. -/
def RuleLine (l : Str) (r : OpenRule) : Prop :=
  ∃ regpair comma : Str, ':' ∉ regpair ∧ regpair.head? ≠ some '#' ∧ ',' ∉ r.arg ∧
    (comma = [] ∨ comma = [',']) ∧
    strip l = regpair ++ ':' :: (r.kind.word ++ '|' :: (r.arg ++ comma))

/-- The policy has the rule in a `1 TEST_ARGS open` block. -/
def Written (raw : Str) (r : OpenRule) : Prop :=
  ∃ before header body close after, pieces '\n' raw = before ++ header :: (body ++ close :: after) ∧
    words header = ["1".toList, "TEST_ARGS".toList, "open".toList, ['{']] ∧
    strip close = ['}'] ∧ (∀ b ∈ body, strip b ≠ ['}']) ∧ ∃ b ∈ body, RuleLine b r

/-- The path matches a rule of the policy. -/
def Listed (raw : Str) (path : CStr) : Prop := ∃ r, Written raw r ∧ r.Matches path

/-! ### Stops -/

/-- A stop at `open(path)`. -/
structure OpenStop (insp : Program) (a : Stop) (path : CStr) : Prop where
  sysno : a.sysno = insp.openNr
  string : a.str RDI = some path
  terminated : 0 ∉ path
  short : path.length < PATH_MAX

variable {H : Header} {modules : Modules} {raw : Str} {pol : Policy} {g : Generated}
  {insp : Program}

/-- The numbers of a compiled inspector are those of the headers. -/
theorem compile_numbers (h : g.compile H = some insp) :
    H.nr "open".toList = some insp.openNr ∧
      ∀ n ∈ insp.policyMapList, ∃ s ∈ g.policyMapOut, H.nr s = some n := by
  obtain ⟨openNr, hopen, h⟩ := Option.bind_eq_some_iff.mp h
  obtain ⟨rules, -, h⟩ := Option.bind_eq_some_iff.mp h
  obtain ⟨openList, -, h⟩ := Option.bind_eq_some_iff.mp h
  obtain ⟨traced, -, h⟩ := Option.bind_eq_some_iff.mp h
  obtain ⟨tests, -, h⟩ := Option.bind_eq_some_iff.mp h
  obtain ⟨map, hmap, h⟩ := Option.bind_eq_some_iff.mp h
  split_ifs at h
  cases h
  refine ⟨hopen, fun n hn => ?_⟩
  -- an entry of the map is the number of a name that the policy lists
  obtain ⟨s, hs, hnr⟩ := exists_of_mem_mapM hmap hn
  rw [Header.nr?] at hnr
  split_ifs at hnr
  exact ⟨s, hs, hnr⟩

/-- **`open` is unmapped.** No accepted policy puts `open` in the policy map. -/
theorem open_unmapped (hp : parsePolicy modules raw = .ok pol) (hw : writeInspector pol = .ok g)
    (hc : g.compile H = some insp) : insp.openNr ∉ insp.policyMapList := by
  obtain ⟨hopen, hmap⟩ := compile_numbers hc
  intro hmem
  obtain ⟨s, hs, hnr⟩ := hmap _ hmem
  -- no other call has the number of `open`
  have hs' : s = "open".toList := H.open_only s _ hopen hnr
  rw [writeInspector_policyMapOut hw, hs'] at hs
  exact open_not_mem_policyMapList hp hs

/-- In every run an `open` stop at policy level 1 ends the run. -/
theorem open_disallowed (hp : parsePolicy modules raw = .ok pol)
    (hw : writeInspector pol = .ok g) (hc : g.compile H = some insp) {t : Tracer}
    (hr : Reach (inspectorSystem insp) (fun _ _ => True) t) (hlevel : t.policyLevel = 1)
    {a : Stop} (ha : a.sysno = insp.openNr) : insp.stop t a = (.disallowed, t) := by
  refine Program.stop_of_unmapped hlevel fun hmem => ?_
  rw [ha] at hmem
  exact open_unmapped hp hw hc (reach_mapLoaded hr _ hmem)

/-- **Enforcement of the file policy.** In every run of a generated inspector, an `open(path)`
    stop at policy level 1 is resumed if and only if a rule matches the path, exactly when no
    rule matches the path. -/
theorem open_enforced_iff (hp : parsePolicy modules raw = .ok pol)
    (hw : writeInspector pol = .ok g) (hc : g.compile H = some insp) {t : Tracer}
    (hr : Reach (inspectorSystem insp) (fun _ _ => True) t) (hlevel : t.policyLevel = 1)
    {a : Stop} {path : CStr} (ha : OpenStop insp a path) :
    ((insp.stop t a).1 = .resumed ↔ Listed raw path) ↔ ¬ Listed raw path := by
  have hstop : insp.stop t a = (.disallowed, t) := open_disallowed hp hw hc hr hlevel ha.sysno
  -- the stop is never resumed, so it is right for the unlisted paths only
  have hnot : ¬ (insp.stop t a).1 = .resumed := by
    rw [hstop]
    exact nofun
  constructor
  · intro h hlisted
    exact hnot (h.mpr hlisted)
  · intro hunlisted
    exact iff_of_false hnot hunlisted

/-! ### A listed path that is disallowed -/

/-- The numbers of the calls of `openTraced`. -/
def openHeader : Header where
  nr s := if s = "open".toList then some 2 else if s = "poll".toList then some 7 else none
  reg _ := none
  const _ := none
  open_only s n hopen hs := by
    rw [if_pos rfl] at hopen
    cases hopen
    by_contra hne
    rw [if_neg hne] at hs
    split_ifs at hs
    cases hs

def openTracedProgram : Program where
  rules := [(7, .allow), (2, .trace)]
  openNr := 2
  openList := [.strcmpPath (encode "/etc".toList)]
  traced := []
  tests := []
  policyMapList := []

/-- `/etc/passwd`. -/
def passwd : CStr := encode "/etc/passwd".toList

/-- A stop at `open` of the given path. -/
def openOf (path : CStr) : Stop where
  pid := 100
  sysno := 2
  str _ := some path

/-- The tracer once the application has opened `ESTABLISHED`. -/
def levelOne : Tracer := { policyLevel := 1 }

theorem reach_levelOne :
    Reach (inspectorSystem openTracedProgram) (fun _ _ => True) levelOne := by
  have hstep : openTracedProgram.next {} (.call (openOf established)) = levelOne := by rfl
  exact .step (.init rfl) trivial ⟨rfl, hstep.symm⟩

theorem openStop_passwd : OpenStop openTracedProgram (openOf passwd) passwd where
  sysno := rfl
  string := rfl
  terminated := by decide
  short := by decide

theorem compile_openTraced : openTracedGenerated.compile openHeader = some openTracedProgram := by
  decide +kernel

theorem open_enforced_iff_passwd :
    ((openTracedProgram.stop levelOne (openOf passwd)).1 = .resumed ↔ Listed openTraced passwd) ↔
      ¬ Listed openTraced passwd := by
  exact open_enforced_iff parsePolicy_openTraced rfl compile_openTraced reach_levelOne rfl
    openStop_passwd

theorem open_enforced_fails :
    parsePolicy noModules openTraced = .ok openTracedPolicy ∧
      writeInspector openTracedPolicy = .ok openTracedGenerated ∧
      openTracedGenerated.compile openHeader = some openTracedProgram ∧
      Reach (inspectorSystem openTracedProgram) (fun _ _ => True) levelOne ∧
      levelOne.policyLevel = 1 ∧ OpenStop openTracedProgram (openOf passwd) passwd ∧
      openTracedProgram.action 2 = .trace ∧ Listed openTraced passwd ∧
      (openTracedProgram.stop levelOne (openOf passwd)).1 = .disallowed ∧
      ¬ ((openTracedProgram.stop levelOne (openOf passwd)).1 = .resumed ↔
        Listed openTraced passwd) := by
  -- the only rule is for the directory of the path
  have hlisted : Listed openTraced passwd := by
    refine ⟨⟨.dirname, "/etc".toList⟩, ?_, by decide +kernel⟩
    refine ⟨["ALLOW poll".toList, "A TRACE open".toList], "1 TEST_ARGS open \x7b".toList,
      [" RDI_PTR:dirname|/etc".toList], ['}'], [], by decide, by decide, by decide, by decide, ?_⟩
    exact ⟨_, List.mem_singleton.mpr rfl, "RDI_PTR".toList, [], by decide, by decide, by decide,
      .inl rfl, by decide⟩
  have hstop : (openTracedProgram.stop levelOne (openOf passwd)).1 = .disallowed := by rfl
  refine ⟨parsePolicy_openTraced, rfl, compile_openTraced, reach_levelOne, rfl, openStop_passwd,
    rfl, hlisted, hstop, fun h => ?_⟩
  have hresumed := h.mpr hlisted
  rw [hstop] at hresumed
  cases hresumed

end Furnace.Inspector
