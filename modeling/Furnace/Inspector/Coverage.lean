import Furnace.Inspector.Writer

namespace Furnace.Inspector

open Furnace.Lib Furnace.Lib.PyText

/-!
# Which checks a generated filter keeps

The documented form of a policy, read apart from `parse_policy`: one item a line, except
that an `A TEST_ARGS` or `1 TEST_ARGS open` item takes the lines up to its `}`.

* `Reads` — the items of the lines of a policy.
* `visible` — the items that `parse_policy` takes for what they are.  A `1 TRACE open` line is
  read as the start of an `open` block and hides all that follows up to the end of the next
  block.
* `parsePolicy_collects` — an accepted policy has exactly the names of its visible items.
* `KeepsChecks` — what is wanted of the seccomp rules of a policy.
* `keepsChecks_iff` — the policies for which the generated rules are so.  A call with an
  `A TEST_ARGS` block gets no rule of its own, and neither does `open`.
-/

/-! ### The documented form -/

/-- The items of a policy. -/
inductive Item
  | note
  | allow (s : Str)
  | trace (s : Str)
  | testArgs (s : Str)
  | level0 (s : Str)
  | level1 (s : Str)
  | testOpen
  deriving DecidableEq, Repr

/-- The items of one line. -/
inductive LineReads (l : Str) : Item → Prop
  | blank (h : ∀ c ∈ l, isSpace c = true) : LineReads l .note
  | comment {w : Str} {ws : List Str} (h : words l = ('#' :: w) :: ws) : LineReads l .note
  | allow {s : Str} (h : words l = ["ALLOW".toList, s]) : LineReads l (.allow s)
  | trace {s : Str} (h : words l = ["A".toList, "TRACE".toList, s]) : LineReads l (.trace s)
  | traceReg {s regType : Str} (h : words l = ["A".toList, "TRACE".toList, s, regType]) :
      LineReads l (.trace s)
  | level0 {s : Str} {regType : List Str}
      (h : words l = "0".toList :: "TRACE".toList :: s :: regType) : LineReads l (.level0 s)
  | level1 {s : Str} (h : words l = ["1".toList, "TRACE".toList, s]) : LineReads l (.level1 s)

/-- The items that start a block. -/
inductive HeaderReads (l : Str) : Item → Prop
  | testArgs {s : Str} (h : words l = ["A".toList, "TEST_ARGS".toList, s, ['{']]) :
      HeaderReads l (.testArgs s)
  | testOpen (h : words l = ["1".toList, "TEST_ARGS".toList, "open".toList, ['{']]) :
      HeaderReads l .testOpen

/-- A line inside a block: `[register]_[type]:value`. -/
def BodyLine (l : Str) : Prop :=
  ∃ register type value : Str, words l = [register ++ '_' :: type ++ ':' :: value]

/-- The items of the lines of a policy. -/
inductive Reads : List Str → List Item → Prop
  | nil : Reads [] []
  | line {l : Str} {ls : List Str} {i : Item} {is : List Item} (h : LineReads l i)
      (hrest : Reads ls is) : Reads (l :: ls) (i :: is)
  | block {l : Str} {body ls : List Str} {i : Item} {is : List Item} (h : HeaderReads l i)
      (hbody : ∀ b ∈ body, BodyLine b) (hrest : Reads ls is) :
      Reads (l :: (body ++ ['}'] :: ls)) (i :: is)

/-- Whether an item ends with a `}`. -/
def Item.isBlock : Item → Bool
  | .testArgs _ | .testOpen => true
  | _ => false

/-- The items that are taken for what they are; `hidden` says that a `1 TRACE open` line has
    been passed and no end of a block since. -/
def visibleFrom : Bool → List Item → List Item
  | _, [] => []
  -- the end of a hidden block is taken for the end of the `open` block
  | true, i :: is => visibleFrom (!i.isBlock) is
  | false, i :: is =>
    if i = .level1 "open".toList then visibleFrom true is else i :: visibleFrom false is

/-- The items that are taken for what they are. -/
def visible (is : List Item) : List Item := visibleFrom false is

/-! ### What the parser collects -/

/-- From `v` to `v'` exactly the names of the items `is` have been collected. -/
structure Collects (v v' : Locals) (is : List Item) : Prop where
  allow : ∀ s, s ∈ v'.allowList ↔ s ∈ v.allowList ∨ .allow s ∈ is
  trace : ∀ s, s ∈ v'.tracedList.map Trace.call ↔ s ∈ v.tracedList.map Trace.call ∨ .trace s ∈ is
  test : ∀ s, s ∈ v'.testDict.map Prod.fst ↔ s ∈ v.testDict.map Prod.fst ∨ .testArgs s ∈ is

theorem Collects.refl (v : Locals) : Collects v v [] where
  allow s := by simp
  trace s := by simp
  test s := by simp

theorem Collects.cons {v v₁ v' : Locals} {i : Item} {is : List Item} (h : Collects v v₁ [i])
    (hrest : Collects v₁ v' is) : Collects v v' (i :: is) where
  allow s := by
    rw [hrest.allow, h.allow, List.mem_singleton, List.mem_cons, or_assoc]
  trace s := by
    rw [hrest.trace, h.trace, List.mem_singleton, List.mem_cons, or_assoc]
  test s := by
    rw [hrest.test, h.test, List.mem_singleton, List.mem_cons, or_assoc]

/-- A line without names collects nothing. -/
theorem Collects.of_frame {v v' : Locals} {i : Item} (ha : v'.allowList = v.allowList)
    (ht : v'.tracedList = v.tracedList) (hd : v'.testDict = v.testDict)
    (hi : ∀ s, i ≠ .allow s ∧ i ≠ .trace s ∧ i ≠ .testArgs s) : Collects v v' [i] where
  allow s := by
    rw [ha, List.mem_singleton, or_iff_left (Ne.symm (hi s).1)]
  trace s := by
    rw [ht, List.mem_singleton, or_iff_left (Ne.symm (hi s).2.1)]
  test s := by
    rw [hd, List.mem_singleton, or_iff_left (Ne.symm (hi s).2.2)]

/-- A line that is not hidden is read as its item, and only `1 TRACE open` starts a block. -/
theorem dispatch_lineReads {v : Locals} {l : Str} {i : Item} {n : Next} (hr : LineReads l i)
    (h : dispatch v l = .ok n) :
    (i = .level1 "open".toList ∧ n = .openBlock v) ∨
      i ≠ .level1 "open".toList ∧ ∃ v₁, n = .line v₁ ∧ Collects v v₁ [i] := by
  -- with or without a register the item is the same
  have traced : ∀ {s : Str} {ts : List Str}, words l = "A".toList :: "TRACE".toList :: s :: ts →
      ∃ v₁, n = .line v₁ ∧ Collects v v₁ [.trace s] := by
    intro s ts hw
    obtain ⟨out, -, hout, rfl⟩ | ⟨call, htest, -⟩ | ⟨htrace, -⟩ := dispatch_all hw h
    · have hcall : s = out.call := Option.some.inj hout
      refine ⟨_, rfl, fun x => by simp, fun x => ?_, fun x => by simp⟩
      simp [hcall, eq_comm]
    · exact absurd (Option.some.inj htest) (by decide)
    · exact absurd rfl htrace
  cases hr with
  | blank hb =>
    rw [dispatch, words_eq_nil hb] at h
    cases h
    exact .inr ⟨by simp, v, rfl, .of_frame rfl rfl rfl (by simp)⟩
  | comment hw =>
    rw [dispatch_comment hw rfl] at h
    cases h
    exact .inr ⟨by simp, v, rfl, .of_frame rfl rfl rfl (by simp)⟩
  | allow hw =>
    obtain ⟨s, hs, rfl⟩ := dispatch_allow hw h
    cases hs
    refine .inr ⟨by simp, _, rfl, fun x => ?_, fun x => by simp, fun x => by simp⟩
    simp [eq_comm]
  | trace hw => exact .inr ⟨by simp, traced hw⟩
  | traceReg hw => exact .inr ⟨by simp, traced hw⟩
  | level0 hw =>
    obtain ⟨call, -, ⟨hlevel, -⟩ | ⟨hlevel, -⟩ | ⟨-, rfl⟩⟩ :=
      dispatch_level hw (by decide) (by decide) (by decide) h
    · exact absurd hlevel (by decide)
    · exact absurd hlevel (by decide)
    · exact .inr ⟨by simp, v, rfl, .of_frame rfl rfl rfl (by simp)⟩
  | level1 hw =>
    obtain ⟨call, hcall, hcases⟩ := dispatch_level hw (by decide) (by decide) (by decide) h
    cases hcall
    obtain ⟨-, rfl, rfl⟩ | ⟨-, hopen, -, rfl⟩ | ⟨hother, -⟩ := hcases
    · exact .inl ⟨rfl, rfl⟩
    · refine .inr ⟨?_, _, rfl, .of_frame rfl rfl rfl (by simp)⟩
      intro he
      injection he with he
      exact hopen he
    · exact absurd rfl (hother rfl).2

/-! ### Blocks -/

/-- A line with a character that is neither whitespace nor `}` does not end a block. -/
theorem strip_ne_close {l : Str} {c : Char} (h : c ∈ l) (hspace : isSpace c = false)
    (hc : c ≠ '}') : strip l ≠ ['}'] := by
  intro he
  have hmem : c ∈ strip l := mem_strip h hspace
  rw [he, List.mem_singleton] at hmem
  exact hc hmem

theorem LineReads.strip_ne {l : Str} {i : Item} (h : LineReads l i) : strip l ≠ ['}'] := by
  -- the first letter of a line that is not blank is no `}`
  have first : ∀ {c : Char} {w : Str} {ws : List Str}, words l = (c :: w) :: ws →
      isSpace c = false → c ≠ '}' → strip l ≠ ['}'] := by
    intro c w ws hw hspace hc
    have hmem : (c :: w) ∈ words l := hw ▸ List.mem_cons_self ..
    exact strip_ne_close (mem_of_mem_words hmem (List.mem_cons_self ..)) hspace hc
  cases h with
  | blank hb =>
    intro he
    have hmem : '}' ∈ l := strip_subset l (he ▸ List.mem_singleton.mpr rfl)
    exact absurd (hb _ hmem) (by decide)
  | comment hw => exact first hw (by decide) (by decide)
  | allow hw => exact first hw (by decide) (by decide)
  | trace hw => exact first hw (by decide) (by decide)
  | traceReg hw => exact first hw (by decide) (by decide)
  | level0 hw => exact first hw (by decide) (by decide)
  | level1 hw => exact first hw (by decide) (by decide)

theorem HeaderReads.strip_ne {l : Str} {i : Item} (h : HeaderReads l i) : strip l ≠ ['}'] := by
  have first : ∀ {w : Str} {ws : List Str}, words l = w :: ws → ∀ c ∈ w, isSpace c = false →
      c ≠ '}' → strip l ≠ ['}'] := by
    intro w ws hw c hmem hspace hc
    have hword : w ∈ words l := hw ▸ List.mem_cons_self ..
    exact strip_ne_close (mem_of_mem_words hword hmem) hspace hc
  cases h with
  | testArgs hw => exact first hw 'A' (by decide) (by decide) (by decide)
  | testOpen hw => exact first hw '1' (by decide) (by decide) (by decide)

theorem BodyLine.strip_ne {l : Str} (h : BodyLine l) : strip l ≠ ['}'] := by
  obtain ⟨register, type, value, hw⟩ := h
  have hword : register ++ '_' :: type ++ ':' :: value ∈ words l := hw ▸ List.mem_singleton.mpr rfl
  have hcolon : ':' ∈ l := mem_of_mem_words hword (by simp)
  exact strip_ne_close hcolon (by decide) (by decide)

theorem BodyLine.ne {l : Str} (h : BodyLine l) : l ≠ ['}'] := by
  rintro rfl
  exact h.strip_ne (by decide)

variable {modules : Modules}

/-- An `A TEST_ARGS` block enters its call. -/
theorem testArgsBlock_body {body rest : List Str} {v v' : Locals} {call : Str}
    {arglist : List ArgDict} (hbody : ∀ b ∈ body, BodyLine b)
    (h : testArgsBlock modules v call arglist (body ++ ['}'] :: rest) = .ok v') :
    ∃ arglist', parseLines modules { v with testDict := assign call arglist' v.testDict } rest =
      .ok v' := by
  induction body generalizing arglist with
  | nil =>
    rw [List.nil_append, testArgsBlock, if_pos rfl] at h
    split_ifs at h
    exact ⟨arglist, h⟩
  | cons b body ih =>
    rw [List.cons_append, testArgsBlock, if_neg (hbody b (List.mem_cons_self ..)).ne] at h
    obtain ⟨argdict, -, hnext⟩ := bind_eq_ok.mp h
    exact ih (fun c hc => hbody c (List.mem_cons_of_mem _ hc)) hnext

/-- A line of an `open` block only changes the rules. -/
theorem openBlock_line {l : Str} {rest : List Str} {v v' : Locals} {d : OpenDict}
    (hl : strip l ≠ ['}']) (h : openBlock modules v d (l :: rest) = .ok v') :
    ∃ r d', openBlock modules { v with rule := r } d' rest = .ok v' := by
  rw [openBlock, if_neg hl] at h
  obtain ⟨⟨v₁, d₁⟩, hrule, hnext⟩ := bind_eq_ok.mp h
  obtain ⟨r, rfl⟩ := openRule_frame hrule
  exact ⟨r, d₁, hnext⟩

/-- The lines of an `open` block enter no call. -/
theorem openBlock_body {body rest : List Str} {v v' : Locals} {d : OpenDict}
    (hbody : ∀ b ∈ body, strip b ≠ ['}'])
    (h : openBlock modules v d (body ++ ['}'] :: rest) = .ok v') :
    ∃ r d', parseLines modules { v with rule := r, openDict := d' } rest = .ok v' := by
  induction body generalizing v d with
  | nil =>
    -- the end of the block
    have hclose : strip ['}'] = ['}'] := by decide
    rw [List.nil_append, openBlock, if_pos hclose] at h
    split_ifs at h
    exact ⟨v.rule, some d, h⟩
  | cons b body ih =>
    obtain ⟨r, d₁, hnext⟩ := openBlock_line (hbody b (List.mem_cons_self ..)) h
    have hbody' : ∀ c ∈ body, strip c ≠ ['}'] := fun c hc => hbody c (List.mem_cons_of_mem _ hc)
    obtain ⟨r', d', hrest⟩ := ih hbody' hnext
    exact ⟨r', d', hrest⟩

/-! ### Whole policies -/

theorem visibleFrom_block {i : Item} {is : List Item} (hi : i.isBlock = true) :
    visibleFrom false (i :: is) = i :: visibleFrom false is := by
  have hne : i ≠ .level1 "open".toList := by
    rintro rfl
    cases hi
  rw [visibleFrom, if_neg hne]

theorem HeaderReads.isBlock {l : Str} {i : Item} (h : HeaderReads l i) : i.isBlock = true := by
  cases h <;> rfl

theorem LineReads.isBlock {l : Str} {i : Item} (h : LineReads l i) : i.isBlock = false := by
  cases h <;> rfl

/-- A block that is not hidden is read as its item. -/
theorem parseLines_block {l : Str} {i : Item} {body rest : List Str} {v v' : Locals}
    (hr : HeaderReads l i) (hbody : ∀ b ∈ body, BodyLine b)
    (h : parseLines modules v (l :: (body ++ ['}'] :: rest)) = .ok v') :
    ∃ v₁, Collects v v₁ [i] ∧ parseLines modules v₁ rest = .ok v' := by
  rw [parseLines] at h
  obtain ⟨n, hn, hnext⟩ := bind_eq_ok.mp h
  cases hr with
  | testArgs hw =>
    rename_i s
    rw [dispatch, hw] at hn
    cases hn
    obtain ⟨arglist, hrest⟩ := testArgsBlock_body hbody hnext
    refine ⟨_, ⟨fun x => by simp, fun x => by simp, fun x => ?_⟩, hrest⟩
    rw [mem_keys_assign, or_comm, List.mem_singleton, Item.testArgs.injEq]
  | testOpen hw =>
    rw [dispatch, hw] at hn
    cases hn
    obtain ⟨r, d, hrest⟩ := openBlock_body (fun b hb => (hbody b hb).strip_ne) hnext
    exact ⟨{ v with rule := r, openDict := d }, .of_frame rfl rfl rfl (by simp), hrest⟩

/-- The loop over the lines collects the visible items.  By induction on the items: a line
    that is not hidden is one round of `parseLines`, a hidden one a round of `openBlock`. -/
theorem loops_collect {ls : List Str} {is : List Item} (hr : Reads ls is) :
    (∀ v v', parseLines modules v ls = .ok v' → Collects v v' (visibleFrom false is)) ∧
      (∀ v d v', openBlock modules v d ls = .ok v' → Collects v v' (visibleFrom true is)) := by
  induction hr with
  | nil =>
    refine ⟨fun v v' h => ?_, fun v d v' h => ?_⟩
    · rw [parseLines] at h
      cases h
      exact .refl v
    · rw [openBlock] at h
      cases h
  | line hl hrest ih =>
    obtain ⟨ihLines, ihOpen⟩ := ih
    refine ⟨fun v v' h => ?_, fun v d v' h => ?_⟩
    · rw [parseLines] at h
      obtain ⟨n, hn, hnext⟩ := bind_eq_ok.mp h
      -- a `1 TRACE open` line goes to the loop of the `open` block
      rcases dispatch_lineReads hl hn with ⟨rfl, rfl⟩ | ⟨hi, v₁, rfl, hc⟩
      · rw [visibleFrom, if_pos rfl]
        exact ihOpen v {} v' hnext
      · rw [visibleFrom, if_neg hi]
        exact hc.cons (ihLines v₁ v' hnext)
    · obtain ⟨r, d', hnext⟩ := openBlock_line hl.strip_ne h
      rw [visibleFrom, hl.isBlock]
      obtain ⟨ha, ht, hd⟩ := ihOpen { v with rule := r } d' v' hnext
      exact ⟨ha, ht, hd⟩
  -- its end also ends a hidden block, so only the first half is needed
  | block hl hbody hrest ih =>
    obtain ⟨ihLines, -⟩ := ih
    refine ⟨fun v v' h => ?_, fun v d v' h => ?_⟩
    · obtain ⟨v₁, hc, hnext⟩ := parseLines_block hl hbody h
      rw [visibleFrom_block hl.isBlock]
      exact hc.cons (ihLines v₁ v' hnext)
    · -- the header and the body are rules of the hidden block, which ends with this one
      have hlines : ∀ b ∈ _ :: _, strip b ≠ ['}'] :=
        List.forall_mem_cons.mpr ⟨hl.strip_ne, fun b hb => (hbody b hb).strip_ne⟩
      obtain ⟨r, d', hnext⟩ := openBlock_body hlines (by rw [List.cons_append]; exact h)
      rw [visibleFrom, hl.isBlock]
      obtain ⟨ha, ht, hd⟩ := ihLines { v with rule := r, openDict := d' } v' hnext
      exact ⟨ha, ht, hd⟩

/-- An accepted policy has exactly the names of its visible items. -/
theorem parsePolicy_collects {raw : Str} {is : List Item} {pol : Policy}
    (hr : Reads (pieces '\n' raw) is) (h : parsePolicy modules raw = .ok pol) :
    (∀ s, s ∈ pol.allowList ↔ .allow s ∈ visible is) ∧
      (∀ s, s ∈ pol.tracedList.map Trace.call ↔ .trace s ∈ visible is) ∧
      ∀ s, s ∈ pol.testDict.map Prod.fst ↔ .testArgs s ∈ visible is := by
  obtain ⟨v, hv, h⟩ := bind_eq_ok.mp h
  obtain ⟨ha, ht, hd⟩ := (loops_collect hr).1 {} v hv
  -- a policy without an `open` block is not accepted
  have hpol : pol.allowList = v.allowList ∧ pol.tracedList = v.tracedList ∧
      pol.testDict = v.testDict := by
    split at h
    · cases h
    · cases h
      exact ⟨rfl, rfl, rfl⟩
  rw [hpol.1, hpol.2.1, hpol.2.2]
  have none : ∀ {s : Str} {P : Prop}, s ∈ [] ∨ P ↔ P := or_iff_right List.not_mem_nil
  exact ⟨fun s => (ha s).trans none, fun s => (ht s).trans none, fun s => (hd s).trans none⟩

theorem visibleFrom_subset (hidden : Bool) (is : List Item) : visibleFrom hidden is ⊆ is := by
  induction is generalizing hidden with
  | nil => exact List.Subset.refl _
  | cons i is ih =>
    cases hidden with
    | true => exact List.subset_cons_of_subset _ (ih _)
    | false =>
      rw [visibleFrom]
      split_ifs
      · exact List.subset_cons_of_subset _ (ih _)
      · exact List.cons_subset_cons _ (ih _)

/-- Without a `1 TRACE open` line nothing is hidden. -/
theorem visible_eq_self {is : List Item} (h : .level1 "open".toList ∉ is) : visible is = is := by
  show visibleFrom false is = is
  induction is with
  | nil => rfl
  | cons i is ih =>
    rw [List.mem_cons, not_or] at h
    rw [visibleFrom, if_neg (Ne.symm h.1), ih h.2]

/-! ### Checks -/

/-- The calls of the `A TRACE` lines, the `A TEST_ARGS` blocks and the `open` lines. -/
def Named (is : List Item) (s : Str) : Prop :=
  .trace s ∈ is ∨ .testArgs s ∈ is ∨ s = "open".toList ∧ (.level0 s ∈ is ∨ .testOpen ∈ is)

/-- What is wanted of the rules of a policy: a call with an `ALLOW` line is let through, every
    other call that is named is traced, and no other call has a rule. -/
structure KeepsChecks (is : List Item) (rules : List Rule) : Prop where
  allowed : ∀ s, .allow s ∈ is → .allow s ∈ rules
  traced : ∀ s, Named is s → .allow s ∉ is → .trace s ∈ rules
  only : ∀ s, .allow s ∈ rules ∨ .trace s ∈ rules → .allow s ∈ is ∨ Named is s

/-- The policies whose checks are kept: no `ALLOW` line is hidden without another one for the
    same call, a call with an `A TEST_ARGS` block has an `ALLOW` line, and every named call
    without an `ALLOW` line has an `A TRACE` line that is not hidden. -/
structure Covered (is : List Item) : Prop where
  allowSeen : ∀ s, .allow s ∈ is → .allow s ∈ visible is
  testAllowed : ∀ s, .testArgs s ∈ visible is → .allow s ∈ is
  namedTraced : ∀ s, Named is s → .allow s ∉ is → .trace s ∈ visible is

/-- Without a `1 TRACE open` line: every call with an `A TEST_ARGS` block has an `ALLOW` line,
    and `open` has an `ALLOW` or an `A TRACE` line if it has any other. -/
theorem covered_iff {is : List Item} (h : .level1 "open".toList ∉ is) :
    Covered is ↔ (∀ s, .testArgs s ∈ is → .allow s ∈ is) ∧
      (.level0 "open".toList ∈ is ∨ .testOpen ∈ is →
        .allow "open".toList ∈ is ∨ .trace "open".toList ∈ is) := by
  have hvis : visible is = is := visible_eq_self h
  constructor
  · rintro ⟨-, htest, htrace⟩
    rw [hvis] at htest htrace
    refine ⟨htest, fun hopen => ?_⟩
    by_cases ha : .allow "open".toList ∈ is
    · exact .inl ha
    · exact .inr (htrace _ (.inr (.inr ⟨rfl, hopen⟩)) ha)
  · rintro ⟨htest, hopen⟩
    refine ⟨fun s hs => by rwa [hvis], fun s hs => htest s (by rwa [hvis] at hs), ?_⟩
    intro s hs ha
    rw [hvis]
    rcases hs with hs | hs | ⟨rfl, hs⟩
    · exact hs
    · exact absurd (htest s hs) ha
    · exact (hopen hs).resolve_left ha

variable {raw : Str} {is : List Item} {pol : Policy} {g : Generated}

/-- The generated rules, in terms of the items of the policy. -/
theorem mem_rules (hr : Reads (pieces '\n' raw) is) (hp : parsePolicy modules raw = .ok pol)
    (hw : writeInspector pol = .ok g) (s : Str) :
    (.allow s ∈ g.rules ↔ .allow s ∈ visible is) ∧
      (.trace s ∈ g.rules ↔ .trace s ∈ visible is ∧ .testArgs s ∉ visible is) := by
  obtain ⟨ha, ht, hd⟩ := parsePolicy_collects hr hp
  rw [rules_spec hw]
  constructor
  · rw [← ha s]
    simp
  · rw [← ht s, ← hd s, tracedCalls]
    simp

/-- **Kept checks.** The filter that is generated from an accepted policy of the documented
    form keeps its checks exactly when the policy is covered. -/
theorem keepsChecks_iff (hr : Reads (pieces '\n' raw) is) (hp : parsePolicy modules raw = .ok pol)
    (hw : writeInspector pol = .ok g) : KeepsChecks is g.rules ↔ Covered is := by
  have hrules := mem_rules hr hp hw
  have hsub : visible is ⊆ is := visibleFrom_subset false is
  constructor
  · rintro ⟨hallowed, htraced, -⟩
    refine ⟨fun s hs => (hrules s).1.mp (hallowed s hs), fun s hs => ?_, fun s hs ha => ?_⟩
    · -- a call that is tested and not allowed would need a rule that its block takes away
      by_contra ha
      have hrule : .trace s ∈ g.rules := htraced s (.inr (.inl (hsub hs))) ha
      exact ((hrules s).2.mp hrule).2 hs
    · exact ((hrules s).2.mp (htraced s hs ha)).1
  · rintro ⟨hseen, htest, hnamed⟩
    refine ⟨fun s hs => (hrules s).1.mpr (hseen s hs), fun s hs ha => ?_, fun s hs => ?_⟩
    -- its block would have taken the rule away, but a tested call is allowed
    · have hnot : .testArgs s ∉ visible is := fun ht => ha (htest s ht)
      exact (hrules s).2.mpr ⟨hnamed s hs ha, hnot⟩
    · rcases hs with hs | hs
      · exact .inl (hsub ((hrules s).1.mp hs))
      · exact .inr (.inl (hsub ((hrules s).2.mp hs).1))

/-! ### A covered policy and one that is not -/

/-- No module can be imported. -/
def noModules : Modules := fun _ _ => .error .importError

/-- `open` has an `A TRACE` line beside its block. -/
def openTraced : Str :=
  "ALLOW poll\nA TRACE open\n1 TEST_ARGS open \x7b\n RDI_PTR:dirname|/etc\n\x7d".toList

def openTracedItems : List Item :=
  [.allow "poll".toList, .trace "open".toList, .testOpen]

def openTracedPolicy : Policy where
  allowList := ["poll".toList]
  testDict := []
  openDict := { dirname := ["/etc".toList] }
  policyMapList := []
  tracedList := [{ call := "open".toList, cast := none }]

def openTracedGenerated : Generated where
  allowOut := [.allow "poll".toList]
  ruleAddOut := [.trace "open".toList]
  switchOut := []
  testOut := []
  openOut := [.dirname "/etc".toList]
  policyMapOut := []

theorem parsePolicy_openTraced : parsePolicy noModules openTraced = .ok openTracedPolicy := by rfl

/-- The line in the block of both policies. -/
theorem bodyLine_etc : ∀ b ∈ [" RDI_PTR:dirname|/etc".toList], BodyLine b := by
  intro b hb
  cases List.mem_singleton.mp hb
  exact ⟨"RDI".toList, "PTR".toList, "dirname|/etc".toList, by decide⟩

theorem reads_openTraced : Reads (pieces '\n' openTraced) openTracedItems := by
  have hlines : pieces '\n' openTraced = ["ALLOW poll".toList, "A TRACE open".toList,
      "1 TEST_ARGS open \x7b".toList] ++ ([" RDI_PTR:dirname|/etc".toList] ++ ['}'] :: []) := by
    decide
  rw [hlines]
  exact .line (.allow (by decide)) (.line (.trace (by decide))
    (.block (.testOpen (by decide)) bodyLine_etc .nil))

theorem keepsChecks_iff_openTraced : KeepsChecks openTracedItems openTracedGenerated.rules := by
  have hwrite : writeInspector openTracedPolicy = .ok openTracedGenerated := by rfl
  refine (keepsChecks_iff reads_openTraced parsePolicy_openTraced hwrite).mpr
    ((covered_iff ?_).mpr ⟨?_, ?_⟩)
  · decide
  · intro s hs
    simp [openTracedItems] at hs
  · decide

/-- `ioctl` has a block and `open` only its own. -/
def ioctlTested : Str :=
  ("A TRACE stat\nA TEST_ARGS ioctl \x7b\n RSI_INT:21505\n\x7d\n1 TEST_ARGS open \x7b\n" ++
    " RDI_PTR:dirname|/etc\n\x7d").toList

def ioctlTestedItems : List Item :=
  [.trace "stat".toList, .testArgs "ioctl".toList, .testOpen]

def ioctlTestedPolicy : Policy where
  allowList := []
  testDict := [("ioctl".toList,
    [{ cast := ⟨"RSI".toList, "INT".toList⟩, trans := none, arg := .int 21505 }])]
  openDict := { dirname := ["/etc".toList] }
  policyMapList := []
  tracedList := [{ call := "stat".toList, cast := none }]

def ioctlTestedGenerated : Generated where
  allowOut := []
  ruleAddOut := [.trace "stat".toList]
  switchOut := []
  testOut := [{ call := "ioctl".toList, func := .empty, switchLine := .pid,
                switchBody := [.int 21505] }]
  openOut := [.dirname "/etc".toList]
  policyMapOut := []

theorem parsePolicy_ioctlTested : parsePolicy noModules ioctlTested = .ok ioctlTestedPolicy := by
  decide +kernel

theorem keepsChecks_fails :
    Reads (pieces '\n' ioctlTested) ioctlTestedItems ∧
      parsePolicy noModules ioctlTested = .ok ioctlTestedPolicy ∧
      writeInspector ioctlTestedPolicy = .ok ioctlTestedGenerated ∧
      .trace "ioctl".toList ∉ ioctlTestedGenerated.rules ∧
      .trace "open".toList ∉ ioctlTestedGenerated.rules ∧
      ¬ KeepsChecks ioctlTestedItems ioctlTestedGenerated.rules := by
  have hreads : Reads (pieces '\n' ioctlTested) ioctlTestedItems := by
    have hlines : pieces '\n' ioctlTested = "A TRACE stat".toList ::
        "A TEST_ARGS ioctl \x7b".toList :: ([" RSI_INT:21505".toList] ++ ['}'] ::
        "1 TEST_ARGS open \x7b".toList :: ([" RDI_PTR:dirname|/etc".toList] ++ ['}'] :: [])) := by
      decide
    have hioctl : ∀ b ∈ [" RSI_INT:21505".toList], BodyLine b := by
      intro b hb
      cases List.mem_singleton.mp hb
      exact ⟨"RSI".toList, "INT".toList, "21505".toList, by decide⟩
    rw [hlines]
    exact .line (.trace (by decide)) (.block (.testArgs (by decide)) hioctl
      (.block (.testOpen (by decide)) bodyLine_etc .nil))
  refine ⟨hreads, parsePolicy_ioctlTested, rfl, by decide, by decide, fun h => ?_⟩
  have hrule : .trace "ioctl".toList ∈ ioctlTestedGenerated.rules :=
    h.traced _ (.inr (.inl (by decide))) (by decide)
  exact absurd hrule (by decide)

end Furnace.Inspector
