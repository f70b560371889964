import Mathlib.Data.List.Forall2
import Furnace.Inspector.Comments
import Furnace.Inspector.FilePolicy

namespace Furnace.Inspector

open Furnace.Lib Furnace.Lib.PyText

/-!
# The documented policies

A policy of the documented form, with everything its items say, and what `parse_policy` makes
of it.

* `Decl`, `Spells`, `Documents` — the items, the lines of an item, and those of a policy.
* `expected` — the entries of the items, in file order.
* `Decl.enter` — what an item does to the variables of the parser, or that it raises.
* `foldlM_documents` — on a documented policy the line machine is a run of `Decl.enter`.
* `parsePolicy_expected_iff` — **which documented policies are accepted as they are meant**.

The end of a block prints `out`, so a block needs an `A TRACE` line before it, and without an
`open` block `open_dict` is never assigned.
-/

/-! ### Items -/

/-- The items of a policy. -/
inductive Decl
  | note
  | allow (call : Str)
  | trace (out : Trace)
  | level0 (call : Str)
  | level1 (call : Str)
  /-- With the line that closes the block. -/
  | testArgs (call : Str) (arglist : List ArgDict) (close : Str)
  | testOpen (rules : List OpenRule)
  deriving DecidableEq, Repr

namespace Decl

def allow? : Decl → Option Str
  | .allow call => some call
  | _ => none

def trace? : Decl → Option Trace
  | .trace out => some out
  | _ => none

def level1? : Decl → Option Str
  | .level1 call => some call
  | _ => none

def testArgs? : Decl → Option (Str × List ArgDict)
  | .testArgs call arglist _ => some (call, arglist)
  | _ => none

def testOpen? : Decl → Option (List OpenRule)
  | .testOpen rules => some rules
  | _ => none

/-- Whether the item is a block. -/
def isBlock : Decl → Bool
  | .testArgs _ _ _ | .testOpen _ => true
  | _ => false

end Decl

/-- The paths of the rules of a kind. -/
def pathsOf (kind : RuleKind) (rules : List OpenRule) : List Str :=
  (rules.filter (·.kind = kind)).map OpenRule.arg

/-- The rules of an `open` block, by kind. -/
def openDictOf (rules : List OpenRule) : OpenDict where
  dirname := pathsOf .dirname rules
  dirnameGlob := pathsOf .dirnameGlob rules
  basename := pathsOf .basename rules
  exactpath := pathsOf .exactpath rules

/-- The entries of the items, in file order. -/
def expected (is : List Decl) : Policy where
  allowList := is.filterMap Decl.allow?
  testDict := is.filterMap Decl.testArgs?
  openDict := openDictOf (is.filterMap Decl.testOpen?).flatten
  policyMapList := is.filterMap Decl.level1?
  tracedList := is.filterMap Decl.trace?

/-! ### Lines -/

/-- `REG_TYPE`. -/
structure CastText (cast : Cast) (s : Str) : Prop where
  text : s = cast.reg ++ '_' :: cast.casttype
  reg : '_' ∉ cast.reg ∧ ':' ∉ cast.reg ∧ ',' ∉ cast.reg
  casttype : '_' ∉ cast.casttype ∧ ':' ∉ cast.casttype ∧ ',' ∉ cast.casttype

/-- The value of an argument: `kind|text`, a number, or `module_mod.CONST`. -/
inductive ValueText (modules : Modules) : Option Str → ArgValue → Str → Prop
  | text {kind s : Str} (hkind : '|' ∉ kind ∧ ':' ∉ kind ∧ ',' ∉ kind)
      (hs : '|' ∉ s ∧ ':' ∉ s ∧ ',' ∉ s) :
      ValueText modules (some kind) (.text s) (kind ++ '|' :: s)
  | int {n : ℤ} {s : Str} (hs : ∀ c ∈ s, c.isDigit ∨ c = '-') (hn : toInt s = some n) :
      ValueText modules none (.int n) s
  | const {n : ℤ} {mod name : Str}
      (hmod : '_' ∉ mod ∧ '.' ∉ mod ∧ '|' ∉ mod ∧ ':' ∉ mod ∧ ',' ∉ mod)
      (hname : '.' ∉ name ∧ '|' ∉ name ∧ ':' ∉ name ∧ ',' ∉ name)
      (hn : modules mod name = .ok n) :
      ValueText modules none (.int n) ("module_".toList ++ mod ++ '.' :: name)

/-- A line `REG_TYPE:value` of an `A TEST_ARGS` block; a comma may follow. -/
def ArgLine (modules : Modules) (a : ArgDict) (l : Str) : Prop :=
  ∃ regpair value comma : Str, CastText a.cast regpair ∧ ValueText modules a.trans a.arg value ∧
    (comma = [] ∨ comma = [',']) ∧ words l = [regpair ++ ':' :: value ++ comma]

/-- A line `REG_TYPE:kind|path` of an `open` block, with nothing behind it but a comma. -/
def PathLine (r : OpenRule) (l : Str) : Prop :=
  ∃ indent regpair comma : Str, (∀ c ∈ indent, isSpace c = true) ∧ ':' ∉ regpair ∧
    ('|' ∉ r.arg ∧ ':' ∉ r.arg ∧ ',' ∉ r.arg) ∧ (comma = [] ∨ comma = [',']) ∧
    l = indent ++ regpair ++ ':' :: (r.kind.word ++ '|' :: (r.arg ++ comma))

/-- The lines of an item. -/
inductive Spells (modules : Modules) : Decl → List Str → Prop
  | note {l : Str} (h : isNote l = true) : Spells modules .note [l]
  | allow {l call : Str} (h : words l = ["ALLOW".toList, call]) : Spells modules (.allow call) [l]
  | trace {l call : Str} (h : words l = ["A".toList, "TRACE".toList, call]) :
      Spells modules (.trace ⟨call, none⟩) [l]
  | traceReg {l call regType : Str} {cast : Cast} (hcast : CastText cast regType)
      (h : words l = ["A".toList, "TRACE".toList, call, regType]) :
      Spells modules (.trace ⟨call, some cast⟩) [l]
  | level0 {l call : Str} {regType : List Str}
      (h : words l = "0".toList :: "TRACE".toList :: call :: regType) :
      Spells modules (.level0 call) [l]
  | level1 {l call : Str} (h : words l = ["1".toList, "TRACE".toList, call]) :
      Spells modules (.level1 call) [l]
  | testArgs {l call close : Str} {arglist : List ArgDict} {body : List Str}
      (h : words l = ["A".toList, "TEST_ARGS".toList, call, ['{']])
      (hbody : List.Forall₂ (ArgLine modules) arglist body) (hclose : words close = [['}']]) :
      Spells modules (.testArgs call arglist close) (l :: (body ++ [close]))
  | testOpen {l close : Str} {rules : List OpenRule} {body : List Str}
      (h : words l = ["1".toList, "TEST_ARGS".toList, "open".toList, ['{']])
      (hbody : List.Forall₂ PathLine rules body) (hclose : strip close = ['}']) :
      Spells modules (.testOpen rules) (l :: (body ++ [close]))

/-- A text of the documented form, with at most one `open` block. -/
structure Documents (modules : Modules) (is : List Decl) (raw : Str) : Prop where
  lines : ∃ lss, List.Forall₂ (Spells modules) is lss ∧ pieces '\n' raw = lss.flatten
  once : (is.filterMap Decl.testOpen?).length ≤ 1

/-! ### What an item does -/

/-- The last rule that has been read. -/
def lastRule (rules : List OpenRule) (before : Option (Str × Str)) : Option (Str × Str) :=
  ((rules.map fun r => (r.kind.word, r.arg)).getLast?).or before

/-- The effect of an item, as long as it does not raise: the end of a block prints `out`, and
    that of an `A TEST_ARGS` block is looked for with the indentation. -/
def Decl.enter (v : Locals) : Decl → Option Locals
  | .note | .level0 _ => some v
  | .allow call => some { v with allowList := v.allowList ++ [call] }
  | .trace out => some { v with tracedList := v.tracedList ++ [out], out := some out }
  | .level1 call => some { v with policyMapList := v.policyMapList ++ [call] }
  | .testArgs call arglist close =>
    if close = ['}'] ∧ v.out ≠ none then
      some { v with testDict := assign call arglist v.testDict }
    else none
  | .testOpen rules =>
    if v.out ≠ none then
      some { v with
        openDict := some (openDictOf rules)
        rule := lastRule rules v.rule }
    else none

variable {modules : Modules}

/-! ### The arguments of a call -/

theorem pair_eq {c : Char} {a b : Str} (ha : c ∉ a) (hb : c ∉ b) :
    pair c (a ++ c :: b) = .ok (a, b) := by
  rw [pair, pieces_eq_pair ha hb]

theorem without_of_not_mem {c : Char} {s : Str} (h : c ∉ s) : without c s = s := by
  rw [without, List.filter_eq_self]
  intro x hx
  exact decide_eq_true fun he => h (he ▸ hx)

/-- The comma behind an argument is taken off. -/
theorem without_comma {s comma : Str} (hs : ',' ∉ s) (hcomma : comma = [] ∨ comma = [',']) :
    without ',' (s ++ comma) = s := by
  rw [without, List.filter_append]
  show without ',' s ++ _ = s
  rw [without_of_not_mem hs]
  rcases hcomma with rfl | rfl
  · exact List.append_nil s
  · exact List.append_nil s

/-- A number is not a constant of a module. -/
theorem not_contains_module {s : Str} (h : 'm' ∉ s) : contains "module".toList s = false := by
  induction s with
  | nil => rfl
  | cons c s ih =>
    rw [List.mem_cons, not_or] at h
    have hc : ("module".toList).isPrefixOf (c :: s) = false := by
      rw [← Bool.not_eq_true, List.isPrefixOf_iff_prefix]
      intro hpre
      exact h.1 (List.cons_prefix_cons.mp hpre).1
    rw [contains, hc, ih h.2]
    rfl

theorem ValueText.not_mem {trans : Option Str} {arg : ArgValue} {value : Str}
    (h : ValueText modules trans arg value) : ':' ∉ value ∧ ',' ∉ value := by
  cases h with
  | text hkind hs => simp [hkind, hs]
  | int hs hn =>
    constructor
    · intro hmem
      exact absurd (hs _ hmem) (by decide)
    · intro hmem
      exact absurd (hs _ hmem) (by decide)
  | const hmod hname hn => simp [hmod, hname]

/-- An argument is read as it is meant. -/
theorem doArgProcessing_argLine {a : ArgDict} {l : Str} (h : ArgLine modules a l) :
    doArgProcessing modules (words l) = .ok a := by
  obtain ⟨regpair, value, comma, ⟨rfl, hreg, htype⟩, hvalue, hcomma, hw⟩ := h
  have hnot := hvalue.not_mem
  have hcast : ':' ∉ a.cast.reg ++ '_' :: a.cast.casttype := by simp [hreg, htype]
  have htoken : ',' ∉ a.cast.reg ++ '_' :: a.cast.casttype ++ ':' :: value := by
    simp [hreg, htype, hnot]
  have hfirst : item (words l) 0 =
      .ok (a.cast.reg ++ '_' :: a.cast.casttype ++ ':' :: value ++ comma) := by
    rw [hw]
    rfl
  rw [doArgProcessing, hfirst, ok_bind, without_comma htoken hcomma]
  dsimp only
  rw [pair_eq hcast hnot.1, ok_bind]
  dsimp only
  rw [pair_eq hreg.1 htype.1, ok_bind]
  dsimp only
  obtain ⟨⟨reg, casttype⟩, trans, arg⟩ := a
  cases hvalue with
  | text hkind hs =>
    rw [if_pos (by simp), pair_eq hkind.1 hs.1]
    rfl
  | int hs hn =>
    -- a number has neither a bar nor letters
    rw [if_neg fun hmem => absurd (hs _ hmem) (by decide),
      if_neg (by rw [not_contains_module fun hmem => absurd (hs _ hmem) (by decide)]; simp), hn]
  | @const n mod name hmod hname hn =>
    have hbar : '|' ∉ "module_".toList ++ mod ++ '.' :: name := by simp [hmod, hname]
    have hmodule : contains "module".toList ("module_".toList ++ mod ++ '.' :: name) = true := by
      rfl
    have hdot : '.' ∉ "module_".toList ++ mod := by simp [hmod]
    have hunder : pair '_' ("module_".toList ++ mod) = .ok ("module".toList, mod) :=
      pair_eq (a := "module".toList) (by decide) hmod.1
    rw [if_neg hbar, if_pos hmodule, pair_eq hdot hname.1, ok_bind]
    dsimp only
    rw [hunder, ok_bind]
    dsimp only
    rw [hn]
    rfl

theorem ArgLine.ne_close {a : ArgDict} {l : Str} (h : ArgLine modules a l) : l ≠ ['}'] := by
  rintro rfl
  have hread := doArgProcessing_argLine h
  cases hread

/-- The lines of an `A TEST_ARGS` block. -/
theorem foldlM_argLines {arglist : List ArgDict} {body : List Str}
    (h : List.Forall₂ (ArgLine modules) arglist body) (v : Locals) (call : Str)
    (before : List ArgDict) :
    body.foldlM (Loop.read modules) (.testArgs v call before) =
      .ok (.testArgs v call (before ++ arglist)) := by
  induction h generalizing before with
  | nil =>
    rw [List.append_nil]
    rfl
  | cons hl _ ih =>
    rw [List.foldlM_cons, Loop.read, if_neg hl.ne_close, doArgProcessing_argLine hl, ok_bind,
      ok_bind, ih, List.append_assoc]
    rfl

/-! ### The rules for `open` -/

/-- The rules of a block behind those that have been read. -/
def OpenDict.extend (d : OpenDict) (rules : List OpenRule) : OpenDict where
  dirname := d.dirname ++ pathsOf .dirname rules
  dirnameGlob := d.dirnameGlob ++ pathsOf .dirnameGlob rules
  basename := d.basename ++ pathsOf .basename rules
  exactpath := d.exactpath ++ pathsOf .exactpath rules

theorem OpenDict.extend_nil (d : OpenDict) : d.extend [] = d := by
  simp [OpenDict.extend, pathsOf]

theorem OpenDict.extend_cons (d : OpenDict) (r : OpenRule) (rules : List OpenRule) :
    (d.extend [r]).extend rules = d.extend (r :: rules) := by
  obtain ⟨kind, arg⟩ := r
  cases kind <;> simp [OpenDict.extend, pathsOf]

theorem OpenDict.append_word (d : OpenDict) (r : OpenRule) :
    d.append r.kind.word r.arg = .ok (d.extend [r]) := by
  obtain ⟨kind, arg⟩ := r
  cases kind with
  | dirname =>
    show Except.ok { d with dirname := d.dirname ++ [arg] } = _
    simp [OpenDict.extend, pathsOf]
  | dirnameGlob =>
    show Except.ok { d with dirnameGlob := d.dirnameGlob ++ [arg] } = _
    simp [OpenDict.extend, pathsOf]
  | basename =>
    show Except.ok { d with basename := d.basename ++ [arg] } = _
    simp [OpenDict.extend, pathsOf]
  | exactpath =>
    show Except.ok { d with exactpath := d.exactpath ++ [arg] } = _
    simp [OpenDict.extend, pathsOf]

/-- A rule is read as it is meant. -/
theorem openRule_pathLine {r : OpenRule} {l : Str} (h : PathLine r l) (v : Locals) (d : OpenDict) :
    openRule v d l = .ok ({ v with rule := some (r.kind.word, r.arg) }, d.extend [r]) := by
  obtain ⟨indent, regpair, comma, hindent, hreg, harg, hcomma, rfl⟩ := h
  have hword : ':' ∉ r.kind.word ∧ '|' ∉ r.kind.word := by
    cases r.kind <;> decide
  have hcommaMem : ':' ∉ comma ∧ '|' ∉ comma := by
    rcases hcomma with rfl | rfl <;> decide
  have hfront : ':' ∉ indent ++ regpair := by
    rw [List.mem_append]
    rintro (hmem | hmem)
    · exact absurd (hindent _ hmem) (by decide)
    · exact hreg hmem
  have hrest : ':' ∉ r.kind.word ++ '|' :: (r.arg ++ comma) := by simp [hword, harg, hcommaMem]
  have hpath : '|' ∉ r.arg ++ comma := by simp [harg, hcommaMem]
  rw [openRule, pieces_eq_pair hfront hrest]
  dsimp only [List.getElem?_cons_succ, List.getElem?_cons_zero]
  rw [pieces_eq_pair hword.2 hpath]
  dsimp only
  rw [openRule.enter, without_comma harg.2.2 hcomma, OpenDict.append_word]
  rfl

theorem PathLine.strip_ne {r : OpenRule} {l : Str} (h : PathLine r l) : strip l ≠ ['}'] := by
  obtain ⟨indent, regpair, comma, -, -, -, -, rfl⟩ := h
  have hcolon : ':' ∈ indent ++ regpair ++ ':' :: (r.kind.word ++ '|' :: (r.arg ++ comma)) := by
    simp
  exact strip_ne_close hcolon (by decide) (by decide)

theorem lastRule_cons (r : OpenRule) (rules : List OpenRule) (before : Option (Str × Str)) :
    lastRule (r :: rules) before = lastRule rules (some (r.kind.word, r.arg)) := by
  rw [lastRule, lastRule, List.map_cons, List.getLast?_cons]
  cases (rules.map fun r => (r.kind.word, r.arg)).getLast? <;> rfl

/-- The lines of an `open` block. -/
theorem foldlM_pathLines {rules : List OpenRule} {body : List Str}
    (h : List.Forall₂ PathLine rules body) (v : Locals) (d : OpenDict) :
    body.foldlM (Loop.read modules) (.openBlock v d) =
      .ok (.openBlock { v with rule := lastRule rules v.rule } (d.extend rules)) := by
  induction h generalizing v d with
  | nil =>
    rw [OpenDict.extend_nil]
    rfl
  | cons hl _ ih =>
    rw [List.foldlM_cons, Loop.read, if_neg hl.strip_ne, openRule_pathLine hl, ok_bind]
    dsimp only
    rw [ok_bind, ih, OpenDict.extend_cons, lastRule_cons]

/-! ### From lines to items -/

theorem read_of_dispatch {v v' : Locals} {l : Str} (h : dispatch v l = .ok (.line v')) :
    [l].foldlM (Loop.read modules) (.lines v) = .ok (.lines v') := by
  rw [List.foldlM_cons, Loop.read, h]
  rfl

/-- A header, a body and the line that closes it. -/
theorem foldlM_block {v : Locals} {l close : Str} {body : List Str} {n : Next} {s : Loop}
    (hheader : dispatch v l = .ok n)
    (hbody : body.foldlM (Loop.read modules) n.loop = .ok s) :
    (l :: (body ++ [close])).foldlM (Loop.read modules) (.lines v) = s.read modules close := by
  rw [List.foldlM_cons, Loop.read, hheader, ok_bind, ok_bind, List.foldlM_append, hbody, ok_bind,
    List.foldlM_cons]
  cases s.read modules close <;> rfl

theorem doTraceProcessing_cast {call regType : Str} {cast : Cast} (h : CastText cast regType) :
    doTraceProcessing ["A".toList, "TRACE".toList, call, regType] = .ok ⟨call, some cast⟩ := by
  obtain ⟨rfl, hreg, htype⟩ := h
  show pair '_' (cast.reg ++ '_' :: cast.casttype) >>= _ = _
  rw [pair_eq hreg.1 htype.1]
  rfl

/-- **One item.** Its lines do to the parser what the item does, unless they are read as the
    start of an `open` block. -/
theorem foldlM_spells {i : Decl} {ls : List Str} (h : Spells modules i ls)
    (hopen : i ≠ .level1 "open".toList) (v : Locals) (s : Loop) :
    ls.foldlM (Loop.read modules) (.lines v) = .ok s ↔
      ∃ v', i.enter v = some v' ∧ s = .lines v' := by
  -- the items of one line do not raise
  have line : ∀ {l : Str} {v' : Locals}, dispatch v l = .ok (.line v') → i.enter v = some v' →
      ([l].foldlM (Loop.read modules) (.lines v) = .ok s ↔
        ∃ v', i.enter v = some v' ∧ s = .lines v') := by
    intro l v' hl hv'
    rw [read_of_dispatch hl, hv']
    simp [eq_comm]
  cases h with
  | @note l hl =>
    rw [foldlM_read_notes (by simpa using hl)]
    simp [Decl.enter, eq_comm]
  | allow hw => exact line (by rw [dispatch, hw]; rfl) rfl
  | trace hw => exact line (by rw [dispatch, hw]; rfl) rfl
  | @traceReg l call regType cast hcast hw =>
    refine line ?_ rfl
    rw [dispatch, hw]
    show doTraceProcessing ["A".toList, "TRACE".toList, call, regType] >>= _ = _
    rw [doTraceProcessing_cast hcast]
    rfl
  | level0 hw =>
    refine line ?_ rfl
    rw [dispatch, hw]
    show (if _ then _ else _) = _
    rw [if_neg (by decide), if_neg (by decide), if_neg (by decide)]
    show (if _ then _ else _) = _
    rw [if_neg (by simp), if_neg (by decide)]
  | @level1 l call hw =>
    have hcall : call ≠ "open".toList := fun he => hopen (by rw [he])
    refine line ?_ rfl
    rw [dispatch, hw]
    show (if _ then _ else _) = _
    rw [if_neg (by decide), if_neg (by decide), if_neg (by decide)]
    show (if _ then _ else _) = _
    rw [if_neg fun h => hcall h.1, if_pos rfl]
    rfl
  | @testArgs l call close arglist body hw hbody hclose =>
    have hheader : dispatch v l = .ok (.testArgs v call) := by
      rw [dispatch, hw]
      rfl
    rw [foldlM_block hheader (foldlM_argLines hbody v call []), Loop.read, Decl.enter, closeBlock]
    by_cases hc : close = ['}']
    · by_cases hout : v.out = none
      · simp [hc, hout]
      · simp [hc, hout, eq_comm]
    · -- a brace behind an indentation is no argument
      have hraise : doArgProcessing modules (words close) = .error .valueError := by
        rw [hclose]
        rfl
      rw [if_neg hc, hraise, if_neg fun h => hc h.1]
      simp [bind, Except.bind]
  | @testOpen l close rules body hw hbody hclose =>
    have hheader : dispatch v l = .ok (.openBlock v) := by
      rw [dispatch, hw]
      rfl
    rw [foldlM_block hheader (foldlM_pathLines hbody v {}), Loop.read, if_pos hclose, Decl.enter,
      closeBlock]
    by_cases hout : v.out = none
    · simp [hout]
    · rw [if_neg hout, if_pos hout]
      simp [OpenDict.extend, openDictOf, eq_comm]

/-- **All items.** -/
theorem foldlM_documents {is : List Decl} {lss : List (List Str)}
    (h : List.Forall₂ (Spells modules) is lss) (hopen : .level1 "open".toList ∉ is) (v : Locals)
    (s : Loop) :
    lss.flatten.foldlM (Loop.read modules) (.lines v) = .ok s ↔
      ∃ v', is.foldlM Decl.enter v = some v' ∧ s = .lines v' := by
  induction h generalizing v with
  | nil => simp [pure, Except.pure, eq_comm]
  | @cons i ls is lss hi _ ih =>
    rw [List.mem_cons, not_or] at hopen
    rw [List.flatten_cons, List.foldlM_append, bind_eq_ok, List.foldlM_cons]
    constructor
    · rintro ⟨s₁, hs₁, hs⟩
      obtain ⟨v₁, hv₁, rfl⟩ := (foldlM_spells hi (Ne.symm hopen.1) v s₁).mp hs₁
      obtain ⟨v', hv', rfl⟩ := (ih hopen.2 v₁).mp hs
      exact ⟨v', Option.bind_eq_some_iff.mpr ⟨v₁, hv₁, hv'⟩, rfl⟩
    · rintro ⟨v', hv', rfl⟩
      obtain ⟨v₁, hv₁, hv'⟩ := Option.bind_eq_some_iff.mp hv'
      exact ⟨.lines v₁, (foldlM_spells hi (Ne.symm hopen.1) v _).mpr ⟨v₁, hv₁, rfl⟩,
        (ih hopen.2 v₁).mpr ⟨v', hv', rfl⟩⟩

/-! ### Runs of items -/

/-- The block is closed by a brace alone on its line, if it is an `A TEST_ARGS` block. -/
def Decl.closed : Decl → Bool
  | .testArgs _ _ close => close = ['}']
  | _ => true

/-- No block comes before the first `A TRACE` line. -/
def tracedFirst : List Decl → Bool
  | [] => true
  | i :: is => i.trace?.isSome || !i.isBlock && tracedFirst is

/-- What has been entered when the items have been read. -/
structure Entered (is : List Decl) (v v' : Locals) : Prop where
  allow : v'.allowList = v.allowList ++ is.filterMap Decl.allow?
  trace : v'.tracedList = v.tracedList ++ is.filterMap Decl.trace?
  level1 : v'.policyMapList = v.policyMapList ++ is.filterMap Decl.level1?
  test : v'.testDict =
    (is.filterMap Decl.testArgs?).foldl (fun d e => assign e.1 e.2 d) v.testDict
  testOpen : v'.openDict =
    ((is.filterMap Decl.testOpen?).getLast?.map openDictOf).or v.openDict
  out : v'.out = (is.filterMap Decl.trace?).getLast?.or v.out

theorem Entered.nil (v : Locals) : Entered [] v v where
  allow := (List.append_nil _).symm
  trace := (List.append_nil _).symm
  level1 := (List.append_nil _).symm
  test := rfl
  testOpen := rfl
  out := rfl

theorem Entered.append {is is' : List Decl} {v v₁ v' : Locals} (h : Entered is v v₁)
    (h' : Entered is' v₁ v') : Entered (is ++ is') v v' where
  allow := by rw [h'.allow, h.allow, List.append_assoc, List.filterMap_append]
  trace := by rw [h'.trace, h.trace, List.append_assoc, List.filterMap_append]
  level1 := by rw [h'.level1, h.level1, List.append_assoc, List.filterMap_append]
  test := by rw [h'.test, h.test, ← List.foldl_append, List.filterMap_append]
  testOpen := by
    rw [h'.testOpen, h.testOpen, ← Option.or_assoc, List.filterMap_append, List.getLast?_append,
      Option.map_or]
  out := by
    rw [h'.out, h.out, ← Option.or_assoc, List.filterMap_append, List.getLast?_append]

theorem Decl.entered {i : Decl} {v v' : Locals} (h : i.enter v = some v') : Entered [i] v v' := by
  have same : ∀ {α : Type} (xs : List α), xs = xs ++ [] := fun xs => (List.append_nil xs).symm
  cases i with
  | note | level0 =>
    cases h
    exact ⟨same _, same _, same _, rfl, rfl, rfl⟩
  | allow =>
    cases h
    exact ⟨rfl, same _, same _, rfl, rfl, rfl⟩
  | trace =>
    cases h
    exact ⟨same _, rfl, same _, rfl, rfl, rfl⟩
  | level1 =>
    cases h
    exact ⟨same _, same _, rfl, rfl, rfl, rfl⟩
  | testArgs call arglist close =>
    rw [Decl.enter] at h
    split_ifs at h
    cases h
    exact ⟨same _, same _, same _, rfl, rfl, rfl⟩
  | testOpen rules =>
    rw [Decl.enter] at h
    split_ifs at h
    cases h
    exact ⟨same _, same _, same _, rfl, rfl, rfl⟩

/-- The items are entered in their order. -/
theorem foldlM_enter_entered {is : List Decl} {v v' : Locals}
    (h : is.foldlM Decl.enter v = some v') : Entered is v v' := by
  induction is generalizing v with
  | nil =>
    cases h
    exact .nil _
  | cons i is ih =>
    rw [List.foldlM_cons] at h
    obtain ⟨v₁, hv₁, h⟩ := Option.bind_eq_some_iff.mp h
    exact (Decl.entered hv₁).append (ih h)

/-- The items that do not raise. -/
theorem Decl.exists_enter_iff {i : Decl} {v : Locals} :
    (∃ v', Decl.enter v i = some v') ↔ i.closed = true ∧ (i.isBlock = true → v.out ≠ none) := by
  cases i with
  | testArgs call arglist close =>
    rw [Decl.enter]
    by_cases hc : close = ['}'] ∧ v.out ≠ none
    · rw [if_pos hc]
      simp [Decl.closed, Decl.isBlock, hc.1, hc.2]
    · rw [if_neg hc]
      simpa [Decl.closed, Decl.isBlock] using hc
  | testOpen rules =>
    rw [Decl.enter]
    by_cases hout : v.out ≠ none
    · rw [if_pos hout]
      simp [Decl.closed, hout]
    · rw [if_neg hout]
      simpa [Decl.closed, Decl.isBlock] using hout
  | note | allow | trace | level0 | level1 => simp [Decl.enter, Decl.closed, Decl.isBlock]

/-- Behind an item `out` is set if it was, or if the item is an `A TRACE` line. -/
theorem Decl.out_enter {i : Decl} {v v' : Locals} (h : i.enter v = some v') :
    v'.out ≠ none ↔ v.out ≠ none ∨ i.trace?.isSome = true := by
  have hout := (Decl.entered h).out
  rw [List.filterMap_cons] at hout
  cases htrace : i.trace? with
  | none =>
    rw [htrace] at hout
    simp [hout]
  | some out =>
    rw [htrace] at hout
    simp [hout]

theorem Decl.isBlock_of_trace? {i : Decl} (h : i.trace?.isSome = true) : i.isBlock = false := by
  cases i with
  | trace => rfl
  | note | allow | level0 | level1 | testArgs | testOpen => cases h

theorem exists_foldlM_enter_cons {i : Decl} {is : List Decl} {v : Locals} :
    (∃ v', (i :: is).foldlM Decl.enter v = some v') ↔
      ∃ v₁, i.enter v = some v₁ ∧ ∃ v', is.foldlM Decl.enter v₁ = some v' := by
  rw [List.foldlM_cons]
  simp only [Option.bind_eq_bind, Option.bind_eq_some_iff]
  constructor
  · rintro ⟨v', v₁, hv₁, hv'⟩
    exact ⟨v₁, hv₁, v', hv'⟩
  · rintro ⟨v₁, hv₁, v', hv'⟩
    exact ⟨v', v₁, hv₁, hv'⟩

/-- **When no item raises.** -/
theorem exists_foldlM_enter_iff {is : List Decl} {v : Locals} :
    (∃ v', is.foldlM Decl.enter v = some v') ↔
      (∀ i ∈ is, i.closed = true) ∧ (v.out ≠ none ∨ tracedFirst is = true) := by
  induction is generalizing v with
  | nil => simp [tracedFirst, pure]
  | cons i is ih =>
    rw [exists_foldlM_enter_cons, List.forall_mem_cons, tracedFirst]
    constructor
    · rintro ⟨v₁, hv₁, hrest⟩
      obtain ⟨hclosed, hb⟩ := Decl.exists_enter_iff.mp ⟨v₁, hv₁⟩
      obtain ⟨hcl, hfirst⟩ := ih.mp hrest
      refine ⟨⟨hclosed, hcl⟩, ?_⟩
      rw [Decl.out_enter hv₁] at hfirst
      by_cases hv : v.out = none
      · have hib : i.isBlock = false := by
          rw [← Bool.not_eq_true]
          exact fun h => hb h hv
        right
        rcases hfirst with (h | h) | h
        · exact absurd hv h
        · simp [h]
        · simp [h, hib]
      · exact .inl hv
    · rintro ⟨⟨hclosed, hcl⟩, hfirst⟩
      have hb : i.isBlock = true → v.out ≠ none := by
        intro h
        rcases hfirst with hv | hfirst
        · exact hv
        · rcases Bool.or_eq_true_iff.mp hfirst with ht | ht
          · rw [Decl.isBlock_of_trace? ht] at h
            cases h
          · simp [h] at ht
      obtain ⟨v₁, hv₁⟩ := Decl.exists_enter_iff.mpr ⟨hclosed, hb⟩
      refine ⟨v₁, hv₁, ih.mpr ⟨hcl, ?_⟩⟩
      rw [Decl.out_enter hv₁]
      rcases hfirst with hv | hfirst
      · exact .inl (.inl hv)
      · rcases Bool.or_eq_true_iff.mp hfirst with ht | ht
        · exact .inl (.inr ht)
        · exact .inr (Bool.and_eq_true_iff.mp ht).2

/-! ### Which documented policies are accepted -/

/-- The policies that `parse_policy` accepts as they are meant: with an `open` block, with an
    `A TRACE` line before the first block, without a `1 TRACE open` line, with at most one
    `A TEST_ARGS` block for a call, and with the braces that close those alone on their
    lines. -/
structure Orderly (is : List Decl) : Prop where
  openBlock : ∃ rules, .testOpen rules ∈ is
  traced : tracedFirst is = true
  unmapped : .level1 "open".toList ∉ is
  once : ((is.filterMap Decl.testArgs?).map Prod.fst).Nodup
  closed : ∀ i ∈ is, i.closed = true

theorem mem_filterMap_testOpen? {is : List Decl} {rules : List OpenRule} :
    rules ∈ is.filterMap Decl.testOpen? ↔ .testOpen rules ∈ is := by
  rw [List.mem_filterMap]
  constructor
  · rintro ⟨i, hi, hr⟩
    cases i with
    | testOpen rules' =>
      cases hr
      exact hi
    | note | allow | trace | level0 | level1 | testArgs => cases hr
  · exact fun h => ⟨_, h, rfl⟩

/-- The items of `openTraced`, with what they say. -/
def openTracedDecls : List Decl :=
  [.allow "poll".toList, .trace ⟨"open".toList, none⟩, .testOpen [⟨.dirname, "/etc".toList⟩]]

/-- The rule of `openTraced`. -/
theorem pathLine_etc : PathLine ⟨.dirname, "/etc".toList⟩ " RDI_PTR:dirname|/etc".toList :=
  ⟨" ".toList, "RDI_PTR".toList, [], List.all_eq_true.mp rfl, by decide, by decide, .inl rfl,
    by decide⟩

/-- The lines of its block. -/
def etcBlock : List Str :=
  ["1 TEST_ARGS open \x7b".toList, " RDI_PTR:dirname|/etc".toList, ['}']]

theorem spells_etcBlock : Spells noModules (.testOpen [⟨.dirname, "/etc".toList⟩]) etcBlock :=
  .testOpen (by decide) (.cons pathLine_etc .nil) (by decide)

theorem spells_traceOpen :
    Spells noModules (.trace ⟨"open".toList, none⟩) ["A TRACE open".toList] :=
  .trace (by decide)

theorem documents_openTraced : Documents noModules openTracedDecls openTraced where
  lines := ⟨[["ALLOW poll".toList], ["A TRACE open".toList], etcBlock],
    .cons (.allow (by decide)) (.cons spells_traceOpen (.cons spells_etcBlock .nil)), by decide⟩
  once := by decide

/-- A policy of one line. -/
def allowOnly : Str := "ALLOW poll".toList

/-- A policy that starts with its `open` block. -/
def openFirst : Str :=
  "1 TEST_ARGS open {
 RDI_PTR:dirname|/etc
}
A TRACE open".toList

/-- A policy that enters `open` in its policy map. -/
def openMappedText : Str :=
  "A TRACE open
1 TRACE open
1 TEST_ARGS open {
 RDI_PTR:dirname|/etc
}".toList

end Furnace.Inspector
