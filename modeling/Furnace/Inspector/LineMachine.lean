import Furnace.Inspector.Policy

namespace Furnace.Inspector

open Furnace.Lib Furnace.Lib.PyText

/-!
# The line loops as one machine

The three loops of `parse_policy` call each other.  Here they are one machine that reads a line
at a time, so that a policy can be cut anywhere between two lines.

* `Loop` — which loop is next to read a line, with its variables.
* `Loop.read` — one line.
* `parsePolicy_eq_ok` — an accepted policy is a run of the machine that ends outside of the
  blocks.
* `Zone`, `Loop.read_zone` — which loop reads a line depends on the lines before it only, and
  not on the variables.
-/

/-- The loop that reads the next line. -/
inductive Loop
  | lines (v : Locals)
  | testArgs (v : Locals) (call : Str) (arglist : List ArgDict)
  | openBlock (v : Locals) (argdict : OpenDict)

/-- The loop that a line hands over to. -/
def Next.loop : Next → Loop
  | .line v => .lines v
  | .testArgs v call => .testArgs v call []
  | .openBlock v => .openBlock v {}

/-- The end of a block, whose print looks at `out`. -/
def closeBlock (out : Option Trace) (v : Locals) : Except PyError Loop :=
  if out = none then .error .unboundLocalError else .ok (.lines v)

/-- One line. -/
def Loop.read (modules : Modules) : Loop → Str → Except PyError Loop
  | .lines v, l => do
    let n ← dispatch v l
    .ok n.loop
  | .testArgs v call arglist, l =>
    if l = ['}'] then
      closeBlock v.out { v with testDict := assign call arglist v.testDict }
    else do
      let argdict ← doArgProcessing modules (words l)
      .ok (.testArgs v call (arglist ++ [argdict]))
  | .openBlock v argdict, l =>
    if strip l = ['}'] then closeBlock v.out { v with openDict := some argdict }
    else do
      let (v, argdict) ← openRule v argdict l
      .ok (.openBlock v argdict)

/-- The end of the text. -/
def Loop.finish : Loop → Except PyError Locals
  | .lines v => .ok v
  | .testArgs _ _ _ | .openBlock _ _ => .error .indexError

/-- The rest of the lines, as the loops of the source read them. -/
def Loop.parse (modules : Modules) : Loop → List Str → Except PyError Locals
  | .lines v, ls => parseLines modules v ls
  | .testArgs v call arglist, ls => testArgsBlock modules v call arglist ls
  | .openBlock v argdict, ls => Inspector.openBlock modules v argdict ls

variable {modules : Modules}

/-! ### The machine and the loops -/

theorem Loop.parse_nil (s : Loop) : s.parse modules [] = s.finish := by
  cases s with
  | lines v => rw [Loop.parse, parseLines, Loop.finish]
  | testArgs v call arglist => rw [Loop.parse, testArgsBlock, Loop.finish]
  | openBlock v argdict => rw [Loop.parse, Inspector.openBlock, Loop.finish]

theorem closeBlock_bind (v v' : Locals) (ls : List Str) :
    (closeBlock v.out v' >>= fun s => s.parse modules ls) =
      if v.out = none then .error .unboundLocalError else parseLines modules v' ls := by
  rw [closeBlock]
  split_ifs
  · rfl
  · rfl

theorem Loop.parse_cons (s : Loop) (l : Str) (ls : List Str) :
    s.parse modules (l :: ls) = s.read modules l >>= fun s => s.parse modules ls := by
  cases s with
  | lines v =>
    rw [Loop.parse, parseLines, Loop.read]
    cases dispatch v l with
    | error e => rfl
    | ok n => cases n <;> rfl
  | testArgs v call arglist =>
    rw [Loop.parse, testArgsBlock, Loop.read]
    split_ifs with hclose hout
    · rw [closeBlock_bind, if_pos hout]
    · rw [closeBlock_bind, if_neg hout]
    · cases doArgProcessing modules (words l) <;> rfl
  | openBlock v argdict =>
    rw [Loop.parse, Inspector.openBlock, Loop.read]
    split_ifs with hclose hout
    · rw [closeBlock_bind, if_pos hout]
    · rw [closeBlock_bind, if_neg hout]
    · cases openRule v argdict l <;> rfl

/-- The loops are a run of the machine. -/
theorem Loop.parse_eq_foldlM (s : Loop) (ls : List Str) :
    s.parse modules ls = ls.foldlM (Loop.read modules) s >>= Loop.finish := by
  induction ls generalizing s with
  | nil => exact s.parse_nil
  | cons l ls ih =>
    rw [Loop.parse_cons, List.foldlM_cons, bind_assoc]
    congr 1
    funext s'
    exact ih s'

/-- **An accepted policy** is a run that ends outside of the blocks, with an `open` block
    behind it. -/
theorem parsePolicy_eq_ok {raw : Str} {pol : Policy} :
    parsePolicy modules raw = .ok pol ↔ ∃ v openDict,
      (pieces '\n' raw).foldlM (Loop.read modules) (.lines {}) = .ok (.lines v) ∧
        v.openDict = some openDict ∧
        pol = { allowList := v.allowList, testDict := v.testDict, openDict,
                policyMapList := v.policyMapList, tracedList := v.tracedList } := by
  have hrun : parseLines modules {} (pieces '\n' raw) =
      (pieces '\n' raw).foldlM (Loop.read modules) (.lines {}) >>= Loop.finish :=
    Loop.parse_eq_foldlM (.lines {}) _
  rw [parsePolicy, hrun, bind_eq_ok]
  constructor
  · rintro ⟨v, hv, h⟩
    obtain ⟨s, hs, hfinish⟩ := bind_eq_ok.mp hv
    -- the text does not end in a block
    cases s with
    | lines v' =>
      cases hfinish
      cases hdict : v.openDict with
      | none =>
        rw [hdict] at h
        cases h
      | some openDict =>
        rw [hdict] at h
        cases h
        exact ⟨v, openDict, hs, hdict, rfl⟩
    | testArgs | openBlock => cases hfinish
  · rintro ⟨v, openDict, hs, hdict, rfl⟩
    refine ⟨v, bind_eq_ok.mpr ⟨_, hs, rfl⟩, ?_⟩
    rw [hdict]

/-! ### Zones -/

/-- The part of a policy that a line is in: outside of the blocks, or in a block. -/
inductive Zone
  | lines | testArgs | openBlock
  deriving DecidableEq, Repr

/-- The part that a line outside of the blocks leads to, by its words. -/
def Zone.header : List Str → Zone
  | t :: kind :: ts =>
    if t = "A".toList ∧ kind = "TEST_ARGS".toList then .testArgs
    -- the second word of a line for `open` is not looked at
    else if t = "1".toList ∧ ts.head? = some "open".toList then .openBlock
    else .lines
  | _ => .lines

/-- The part behind a line. -/
def Zone.after : Zone → Str → Zone
  | .lines, l => .header (words l)
  | .testArgs, l => if l = ['}'] then .lines else .testArgs
  | .openBlock, l => if strip l = ['}'] then .lines else .openBlock

/-- The part that line `p` of a policy is in, or the end of the text. -/
def zoneAt (raw : Str) (p : ℕ) : Zone := ((pieces '\n' raw).take p).foldl Zone.after .lines

def Loop.zone : Loop → Zone
  | .lines _ => .lines
  | .testArgs _ _ _ => .testArgs
  | .openBlock _ _ => .openBlock

theorem dispatch_zone {v : Locals} {l : Str} {n : Next} (h : dispatch v l = .ok n) :
    n.loop.zone = .header (words l) := by
  cases hw : words l with
  | nil =>
    rw [dispatch, hw] at h
    cases h
    rfl
  | cons t ts =>
    -- the word decides which of the cases of `dispatch` this is
    have hother : t ≠ "A".toList → t ≠ "1".toList → Zone.header (t :: ts) = .lines := by
      intro hall hlevel
      cases ts with
      | nil => rfl
      | cons kind ts => rw [Zone.header, if_neg fun h => hall h.1, if_neg fun h => hlevel h.1]
    by_cases hcomment : t.head? = some '#'
    · rw [dispatch_comment hw hcomment] at h
      cases h
      refine (hother ?_ ?_).symm <;>
      · rintro rfl
        exact absurd hcomment (by decide)
    by_cases hallow : t = "ALLOW".toList
    · subst hallow
      obtain ⟨s, -, rfl⟩ := dispatch_allow hw h
      exact (hother (by decide) (by decide)).symm
    by_cases hall : t = "A".toList
    · subst hall
      have hlevel : "A".toList ≠ "1".toList := by decide
      obtain ⟨out, hkind, -, rfl⟩ | ⟨call, hkind, -, rfl⟩ | ⟨-, hkind, rfl⟩ := dispatch_all hw h
      · obtain ⟨ts, rfl⟩ := List.head?_eq_some_iff.mp ((List.head?_eq_getElem? ..).trans hkind)
        rw [Zone.header, if_neg fun h => absurd h.2 (by decide), if_neg fun h => hlevel h.1]
        rfl
      · obtain ⟨ts, rfl⟩ := List.head?_eq_some_iff.mp ((List.head?_eq_getElem? ..).trans hkind)
        rw [Zone.header, if_pos ⟨rfl, rfl⟩]
        rfl
      · cases ts with
        | nil => rfl
        | cons kind ts =>
          rw [Zone.header, if_neg fun h => hkind (by rw [h.2]; rfl), if_neg fun h => hlevel h.1]
          rfl
    · obtain ⟨call, hcall, hn⟩ := dispatch_level hw hcomment hallow hall h
      cases ts with
      | nil => cases hcall
      | cons kind ts =>
        have hcall : ts.head? = some call := (List.head?_eq_getElem? ..).trans hcall
        rw [Zone.header, if_neg fun h => hall h.1, hcall]
        obtain ⟨rfl, rfl, rfl⟩ | ⟨-, hopen, -, rfl⟩ | ⟨hopen, rfl⟩ := hn
        · rfl
        · rw [if_neg fun h => hopen (Option.some.inj h.2)]
          rfl
        · rw [if_neg fun h => (hopen h.1).1 (Option.some.inj h.2)]
          rfl

theorem closeBlock_zone {out : Option Trace} {v : Locals} {s : Loop}
    (h : closeBlock out v = .ok s) : s.zone = .lines := by
  rw [closeBlock] at h
  split_ifs at h
  cases h
  rfl

/-- A line leads to the part that its text tells. -/
theorem Loop.read_zone {s s' : Loop} {l : Str} (h : s.read modules l = .ok s') :
    s'.zone = s.zone.after l := by
  cases s with
  | lines v =>
    obtain ⟨n, hn, h⟩ := bind_eq_ok.mp h
    cases h
    exact dispatch_zone hn
  | testArgs v call arglist =>
    rw [Loop.read] at h
    rw [Loop.zone, Zone.after]
    split_ifs at h ⊢
    · exact closeBlock_zone h
    · obtain ⟨argdict, -, h⟩ := bind_eq_ok.mp h
      cases h
      rfl
  | openBlock v argdict =>
    rw [Loop.read] at h
    rw [Loop.zone, Zone.after]
    split_ifs at h ⊢
    · exact closeBlock_zone h
    · obtain ⟨r, -, h⟩ := bind_eq_ok.mp h
      cases h
      rfl

/-- The part at the end of a run. -/
theorem foldlM_read_zone {ls : List Str} {s s' : Loop}
    (h : ls.foldlM (Loop.read modules) s = .ok s') : s'.zone = ls.foldl Zone.after s.zone := by
  induction ls generalizing s with
  | nil =>
    cases h
    rfl
  | cons l ls ih =>
    rw [List.foldlM_cons] at h
    obtain ⟨s₁, h₁, h⟩ := bind_eq_ok.mp h
    rw [ih h, Loop.read_zone h₁, List.foldl_cons]

end Furnace.Inspector
