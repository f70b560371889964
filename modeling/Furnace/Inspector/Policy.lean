import Furnace.Lib.Outcome
import Furnace.Lib.PyText

namespace Furnace.Inspector

open Furnace.Lib Furnace.Lib.PyText

/-!
# Reading a policy

`parse_policy` of the policy writer: a loop over the lines of the policy file that looks at
the words of each line, and two inner loops that read the blocks between `{` and `}`.

* `dispatch` — the `if` chain on the words of one line.
* `parseLines`, `testArgsBlock`, `openBlock` — the three loops; each hands the lines that it
  has not read to the next.
* `parsePolicy` — the whole function.
* `LineStep`, `dispatch_step` — what one line can do.
* `open_not_mem_policyMapList` — no accepted policy has `open` in its policy map: a line that
  starts with `1` and has `open` for its third word starts a block, whatever its second word.

Python raises `UnboundLocalError` when a variable is read that no line has assigned yet, so
those variables are options.
-/

/-- The exceptions that end `parse_policy` and `main`. -/
inductive PyError
  | indexError | valueError | keyError | unboundLocalError
  | importError | attributeError | typeError
  deriving DecidableEq, Repr

/-- `int(getattr(__import__(mod), const_name))`: the modules the policy writer can import. -/
abbrev Modules := Str → Str → Except PyError ℤ

/-- `xs[i]`. -/
def item (xs : List Str) (i : ℕ) : Except PyError Str :=
  match xs[i]? with
  | some x => .ok x
  | none => .error .indexError

theorem item_eq_ok {xs : List Str} {i : ℕ} {x : Str} : item xs i = .ok x ↔ xs[i]? = some x := by
  unfold item
  cases xs[i]? with
  | none => simp
  | some y => simp

/-- `a, b = s.split(c)`. -/
def pair (c : Char) (s : Str) : Except PyError (Str × Str) :=
  match pieces c s with
  | [a, b] => .ok (a, b)
  | _ => .error .valueError

/-! ### What a policy holds -/

/-- The register of an argument and how it is to be read. -/
structure Cast where
  reg : Str
  casttype : Str
  deriving DecidableEq, Repr

/-- An entry of `traced_list`: a call and, possibly, an argument to print. -/
structure Trace where
  call : Str
  cast : Option Cast
  deriving DecidableEq, Repr

/-- The value of an argument that is tested for: text of the policy, or a number. -/
inductive ArgValue
  | text (s : Str)
  | int (n : ℤ)
  deriving DecidableEq, Repr

/-- One accepted value of an argument. -/
structure ArgDict where
  cast : Cast
  trans : Option Str
  arg : ArgValue
  deriving DecidableEq, Repr

/-- The rules for `open`, by kind. -/
structure OpenDict where
  dirname : List Str := []
  dirnameGlob : List Str := []
  basename : List Str := []
  exactpath : List Str := []
  deriving DecidableEq, Repr

/-- `argdict[trans].append(path)`. -/
def OpenDict.append (d : OpenDict) (kind path : Str) : Except PyError OpenDict :=
  if kind = "dirname".toList then .ok { d with dirname := d.dirname ++ [path] }
  else if kind = "dirname_glob".toList then .ok { d with dirnameGlob := d.dirnameGlob ++ [path] }
  else if kind = "basename".toList then .ok { d with basename := d.basename ++ [path] }
  else if kind = "exactpath".toList then .ok { d with exactpath := d.exactpath ++ [path] }
  else .error .keyError

/-- What `parse_policy` returns.  Its `init_list` and `postinit_list` are always empty. -/
structure Policy where
  allowList : List Str
  testDict : List (Str × List ArgDict)
  openDict : OpenDict
  policyMapList : List Str
  tracedList : List Trace
  deriving DecidableEq, Repr

/-! ### Lines -/

/-- `do_trace_processing`: `A TRACE connect RDI_INT`. -/
def doTraceProcessing (tokens : List Str) : Except PyError Trace := do
  let s ← item tokens 2
  match tokens[3]? with
  | some t =>
    let (reg, casttype) ← pair '_' t
    .ok { call := s, cast := some { reg, casttype } }
  -- the `IndexError` of a missing register is caught
  | none => .ok { call := s, cast := none }

/-- `do_arg_processing`: `RDI_PTR:dirname|/usr/lib64,`, `RSI_INT:module_termios.TCGETS` or
    `RSI_INT:21524`. -/
def doArgProcessing (modules : Modules) (lookTokens : List Str) : Except PyError ArgDict := do
  let l := without ',' (← item lookTokens 0)
  let (regpair, argpair) ← pair ':' l
  let (reg, casttype) ← pair '_' regpair
  if '|' ∈ argpair then
    let (kind, arg) ← pair '|' argpair
    .ok { cast := { reg, casttype }, trans := some kind, arg := .text arg }
  -- anywhere in the argument, not just in front
  else if contains "module".toList argpair then
    let (modpair, constName) ← pair '.' argpair
    let (_, mod) ← pair '_' modpair
    let constValue ← modules mod constName
    .ok { cast := { reg, casttype }, trans := none, arg := .int constValue }
  else
    match toInt argpair with
    | some n => .ok { cast := { reg, casttype }, trans := none, arg := .int n }
    | none => .error .valueError

/-- The variables of `parse_policy`.  `out` is the last `A TRACE` entry, which the ends of
    the blocks print; `rule` is the last `trans, path` of an `open` block. -/
structure Locals where
  allowList : List Str := []
  tracedList : List Trace := []
  testDict : List (Str × List ArgDict) := []
  policyMapList : List Str := []
  openDict : Option OpenDict := none
  out : Option Trace := none
  rule : Option (Str × Str) := none
  deriving DecidableEq, Repr

/-- Where the loop goes after a line. -/
inductive Next
  | line (v : Locals)
  | testArgs (v : Locals) (call : Str)
  | openBlock (v : Locals)
  deriving DecidableEq, Repr

/-- One line of the policy, outside the blocks. -/
def dispatch (v : Locals) (l : Str) : Except PyError Next :=
  match words l with
  | [] => .ok (.line v)
  | t :: ts =>
    let tokens := t :: ts
    if t.head? = some '#' then .ok (.line v)
    else if t = "ALLOW".toList then do
      let s ← item tokens 1
      .ok (.line { v with allowList := v.allowList ++ [s] })
    else if t = "A".toList then do
      let kind ← item tokens 1
      if kind = "TRACE".toList then
        let out ← doTraceProcessing tokens
        .ok (.line { v with tracedList := v.tracedList ++ [out], out := some out })
      else if kind = "TEST_ARGS".toList then
        let call ← item tokens 2
        .ok (.testArgs v call)
      -- an `A` line of another kind is passed over
      else .ok (.line v)
    else do
      -- the third word is looked at before the first
      let call ← item tokens 2
      if call = "open".toList ∧ t = "1".toList then .ok (.openBlock v)
      else if t = "1".toList then
        let kind ← item tokens 1
        if kind = "TRACE".toList then
          .ok (.line { v with policyMapList := v.policyMapList ++ [call] })
        -- an unknown line is printed, and so is one of level 0
        else .ok (.line v)
      else .ok (.line v)

/-- One line of an `open` block.  A line without a colon raises `IndexError`, which is passed
    over, so that the rule before it is entered once more. -/
def openRule (v : Locals) (argdict : OpenDict) (l : Str) : Except PyError (Locals × OpenDict) :=
  match (pieces ':' l)[1]? with
  | some r =>
    match pieces '|' r with
    | [kind, path] => enter kind path
    -- the unpacking fails: `finally` meets an unset `path` first, if there is none
    | _ =>
      match v.rule with
      | none => .error .unboundLocalError
      | some _ => .error .valueError
  | none =>
    match v.rule with
    | none => .error .unboundLocalError
    | some (kind, path) => enter kind path
where
  enter (kind path : Str) : Except PyError (Locals × OpenDict) := do
    let path := without ',' path
    let argdict ← argdict.append kind path
    .ok ({ v with rule := some (kind, path) }, argdict)

/-! ### The loops -/

mutual

/-- The loop over the lines, outside the blocks. -/
def parseLines (modules : Modules) : Locals → List Str → Except PyError Locals
  | v, [] => .ok v
  | v, l :: rest => do
    match ← dispatch v l with
    | .line v => parseLines modules v rest
    | .testArgs v call => testArgsBlock modules v call [] rest
    | .openBlock v => openBlock modules v {} rest

/-- The loop over the lines of an `A TEST_ARGS` block; `lines[lookaheadline]` raises when the
    block is not closed, and `out` is printed where it is. -/
def testArgsBlock (modules : Modules) :
    Locals → Str → List ArgDict → List Str → Except PyError Locals
  | _, _, _, [] => .error .indexError
  | v, call, arglist, l :: rest =>
    -- unlike the end of an `open` block, this one must stand alone on its line
    if l = ['}'] then
      if v.out = none then .error .unboundLocalError
      else parseLines modules { v with testDict := assign call arglist v.testDict } rest
    else do
      let argdict ← doArgProcessing modules (words l)
      testArgsBlock modules v call (arglist ++ [argdict]) rest

/-- The loop over the lines of an `open` block. -/
def openBlock (modules : Modules) : Locals → OpenDict → List Str → Except PyError Locals
  | _, _, [] => .error .indexError
  | v, argdict, l :: rest =>
    if strip l = ['}'] then
      if v.out = none then .error .unboundLocalError
      else parseLines modules { v with openDict := some argdict } rest
    else do
      let (v, argdict) ← openRule v argdict l
      openBlock modules v argdict rest

end

/-- `parse_policy` on the text of the file. -/
def parsePolicy (modules : Modules) (raw : Str) : Except PyError Policy := do
  let v ← parseLines modules {} (pieces '\n' raw)
  match v.openDict with
  | none => .error .unboundLocalError
  | some openDict =>
    .ok { allowList := v.allowList, testDict := v.testDict, openDict,
          policyMapList := v.policyMapList, tracedList := v.tracedList }

/-! ### What one line can do -/

/-- The effects of a line outside the blocks, by kind of line. -/
inductive LineStep (v : Locals) : Next → Prop
  | skip : LineStep v (.line v)
  | allow (s : Str) : LineStep v (.line { v with allowList := v.allowList ++ [s] })
  | trace (out : Trace) :
      LineStep v (.line { v with tracedList := v.tracedList ++ [out], out := some out })
  | testArgs (call : Str) : LineStep v (.testArgs v call)
  | openBlock : LineStep v (.openBlock v)
  | level1 (call : Str) (hcall : call ≠ "open".toList) :
      LineStep v (.line { v with policyMapList := v.policyMapList ++ [call] })

/-- The third word of a line is the call that is traced. -/
theorem doTraceProcessing_call {tokens : List Str} {out : Trace}
    (h : doTraceProcessing tokens = .ok out) : item tokens 2 = .ok out.call := by
  obtain ⟨s, hs, h⟩ := bind_eq_ok.mp h
  rw [hs]
  split at h
  · obtain ⟨r, -, h⟩ := bind_eq_ok.mp h
    cases h
    rfl
  · cases h
    rfl

/-! The lines by their first word. -/

section Dispatch

variable {v : Locals} {l t : Str} {ts : List Str} {n : Next}

theorem dispatch_comment (hw : words l = t :: ts) (ht : t.head? = some '#') :
    dispatch v l = .ok (.line v) := by
  rw [dispatch, hw]
  exact if_pos ht

theorem dispatch_allow (hw : words l = "ALLOW".toList :: ts) (h : dispatch v l = .ok n) :
    ∃ s, ts[0]? = some s ∧ n = .line { v with allowList := v.allowList ++ [s] } := by
  rw [dispatch, hw] at h
  dsimp only at h
  rw [if_neg (by decide), if_pos rfl] at h
  obtain ⟨s, hs, hn⟩ := bind_eq_ok.mp h
  cases hn
  exact ⟨s, item_eq_ok.mp hs, rfl⟩

/-- An `A` line: `TRACE`, `TEST_ARGS`, or nothing. -/
theorem dispatch_all (hw : words l = "A".toList :: ts) (h : dispatch v l = .ok n) :
    (∃ out, ts[0]? = some "TRACE".toList ∧ ts[1]? = some out.call ∧
        n = .line { v with tracedList := v.tracedList ++ [out], out := some out }) ∨
      (∃ call, ts[0]? = some "TEST_ARGS".toList ∧ ts[1]? = some call ∧ n = .testArgs v call) ∨
      ts[0]? ≠ some "TRACE".toList ∧ ts[0]? ≠ some "TEST_ARGS".toList ∧ n = .line v := by
  rw [dispatch, hw] at h
  dsimp only at h
  rw [if_neg (by decide), if_neg (by decide), if_pos rfl] at h
  obtain ⟨kind, hkind, hn⟩ := bind_eq_ok.mp h
  have hkind : ts[0]? = some kind := item_eq_ok.mp hkind
  split_ifs at hn with htrace htest
  · obtain ⟨out, hout, hn⟩ := bind_eq_ok.mp hn
    cases hn
    exact .inl ⟨out, by rw [hkind, htrace], item_eq_ok.mp (doTraceProcessing_call hout), rfl⟩
  · obtain ⟨call, hcall, hn⟩ := bind_eq_ok.mp hn
    cases hn
    exact .inr (.inl ⟨call, by rw [hkind, htest], item_eq_ok.mp hcall, rfl⟩)
  · cases hn
    rw [hkind]
    exact .inr (.inr ⟨fun he => htrace (Option.some.inj he), fun he => htest (Option.some.inj he),
      rfl⟩)

/-- A line of a policy level: a `1` line of `open` starts a block, another `1 TRACE` line
    enters its call, and no other line does anything. -/
theorem dispatch_level (hw : words l = t :: ts) (ht : t.head? ≠ some '#')
    (hallow : t ≠ "ALLOW".toList) (hall : t ≠ "A".toList) (h : dispatch v l = .ok n) :
    ∃ call, ts[1]? = some call ∧
      ((t = "1".toList ∧ call = "open".toList ∧ n = .openBlock v) ∨
        (t = "1".toList ∧ call ≠ "open".toList ∧ ts[0]? = some "TRACE".toList ∧
          n = .line { v with policyMapList := v.policyMapList ++ [call] }) ∨
        (t = "1".toList → call ≠ "open".toList ∧ ts[0]? ≠ some "TRACE".toList) ∧ n = .line v) := by
  rw [dispatch, hw] at h
  dsimp only at h
  rw [if_neg ht, if_neg hallow, if_neg hall] at h
  obtain ⟨call, hcall, hn⟩ := bind_eq_ok.mp h
  refine ⟨call, item_eq_ok.mp hcall, ?_⟩
  by_cases hlevel : t = "1".toList
  · by_cases hopen : call = "open".toList
    · rw [if_pos ⟨hopen, hlevel⟩] at hn
      cases hn
      exact .inl ⟨hlevel, hopen, rfl⟩
    · rw [if_neg (fun hc => hopen hc.1), if_pos hlevel] at hn
      obtain ⟨kind, hkind, hn⟩ := bind_eq_ok.mp hn
      have hkind : ts[0]? = some kind := item_eq_ok.mp hkind
      split_ifs at hn with htrace
      · cases hn
        exact .inr (.inl ⟨hlevel, hopen, by rw [hkind, htrace], rfl⟩)
      · cases hn
        refine .inr (.inr ⟨fun _ => ⟨hopen, ?_⟩, rfl⟩)
        rw [hkind]
        exact fun he => htrace (Option.some.inj he)
  · rw [if_neg (fun hc => hlevel hc.2), if_neg hlevel] at hn
    cases hn
    exact .inr (.inr ⟨fun he => absurd he hlevel, rfl⟩)

/-- **Inversion of `dispatch`.** -/
theorem dispatch_step (h : dispatch v l = .ok n) : LineStep v n := by
  cases hw : words l with
  | nil =>
    rw [dispatch, hw] at h
    cases h
    exact .skip
  | cons t ts =>
    by_cases hcomment : t.head? = some '#'
    · rw [dispatch_comment hw hcomment] at h
      cases h
      exact .skip
    by_cases hallow : t = "ALLOW".toList
    · rw [hallow] at hw
      obtain ⟨s, -, rfl⟩ := dispatch_allow hw h
      exact .allow s
    by_cases hall : t = "A".toList
    · rw [hall] at hw
      obtain ⟨out, -, -, rfl⟩ | ⟨call, -, -, rfl⟩ | ⟨-, -, rfl⟩ := dispatch_all hw h
      · exact .trace out
      · exact .testArgs call
      · exact .skip
    obtain ⟨call, -, ⟨-, -, rfl⟩ | ⟨-, hopen, -, rfl⟩ | ⟨-, rfl⟩⟩ :=
      dispatch_level hw hcomment hallow hall h
    · exact .openBlock
    · exact .level1 call hopen
    · exact .skip

end Dispatch

/-- An `open` rule only changes `trans, path` and the rules of its block. -/
theorem openRule_frame {v v' : Locals} {d d' : OpenDict} {l : Str}
    (h : openRule v d l = .ok (v', d')) : ∃ r, v' = { v with rule := r } := by
  have enter : ∀ kind path, openRule.enter v d kind path = .ok (v', d') →
      ∃ r, v' = { v with rule := r } := by
    intro kind path he
    obtain ⟨d₁, -, he⟩ := bind_eq_ok.mp he
    cases he
    exact ⟨_, rfl⟩
  rw [openRule] at h
  split at h
  · split at h
    · exact enter _ _ h
    · split at h <;> cases h
  · split at h
    · cases h
    · exact enter _ _ h

/-! ### The policy map -/

/-- `open` has no entry in the policy map list. -/
def OpenUnlisted (v : Locals) : Prop := "open".toList ∉ v.policyMapList

theorem LineStep.openUnlisted {v v' : Locals} (h : LineStep v (.line v')) (hv : OpenUnlisted v) :
    OpenUnlisted v' := by
  cases h with
  | skip => exact hv
  | allow s => exact hv
  | trace out => exact hv
  | level1 call hcall =>
    show "open".toList ∉ v.policyMapList ++ [call]
    rw [List.mem_append, List.mem_singleton]
    rintro (hmem | heq)
    · exact hv hmem
    · exact hcall heq.symm

/-- None of the three loops enters `open`.  By induction on the lines that are left. -/
theorem loops_openUnlisted (modules : Modules) (ls : List Str) :
    (∀ v v', OpenUnlisted v → parseLines modules v ls = .ok v' → OpenUnlisted v') ∧
      (∀ v call arglist v', OpenUnlisted v → testArgsBlock modules v call arglist ls = .ok v' →
        OpenUnlisted v') ∧
      (∀ v d v', OpenUnlisted v → openBlock modules v d ls = .ok v' → OpenUnlisted v') := by
  induction ls with
  | nil =>
    refine ⟨fun v v' hv h => ?_, fun v call arglist v' _ h => ?_, fun v d v' _ h => ?_⟩
    · rw [parseLines] at h
      cases h
      exact hv
    · rw [testArgsBlock] at h
      cases h
    · rw [openBlock] at h
      cases h
  | cons l rest ih =>
    obtain ⟨ihLines, ihTest, ihOpen⟩ := ih
    refine ⟨fun v v' hv h => ?_, fun v call arglist v' hv h => ?_, fun v d v' hv h => ?_⟩
    · rw [parseLines] at h
      obtain ⟨n, hn, h⟩ := bind_eq_ok.mp h
      have hstep := dispatch_step hn
      -- a line hands over to the loop that its block needs
      match n, hstep with
      | .line v₁, hstep => exact ihLines v₁ v' (hstep.openUnlisted hv) h
      | .testArgs _ call, .testArgs _ => exact ihTest v call [] v' hv h
      | .openBlock _, .openBlock => exact ihOpen v {} v' hv h
    · rw [testArgsBlock] at h
      split_ifs at h
      · exact ihLines { v with testDict := assign call arglist v.testDict } v' hv h
      · obtain ⟨argdict, -, h⟩ := bind_eq_ok.mp h
        exact ihTest v call _ v' hv h
    · rw [openBlock] at h
      split_ifs at h
      · exact ihLines { v with openDict := some d } v' hv h
      · obtain ⟨⟨v₁, d₁⟩, hrule, h⟩ := bind_eq_ok.mp h
        obtain ⟨r, rfl⟩ := openRule_frame hrule
        exact ihOpen { v with rule := r } d₁ v' hv h

/-- **`open` is never in the policy map.** -/
theorem open_not_mem_policyMapList {modules : Modules} {raw : Str} {pol : Policy}
    (h : parsePolicy modules raw = .ok pol) : "open".toList ∉ pol.policyMapList := by
  obtain ⟨v, hv, h⟩ := bind_eq_ok.mp h
  have hinit : OpenUnlisted {} := by
    show "open".toList ∉ []
    exact List.not_mem_nil
  have hfinal : OpenUnlisted v := (loops_openUnlisted modules _).1 {} v hinit hv
  split at h
  · cases h
  · cases h
    exact hfinal

end Furnace.Inspector
