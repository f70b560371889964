import Mathlib.Data.Set.Basic
import Furnace.Inspector.Coverage
import Furnace.Inspector.LineMachine

namespace Furnace.Inspector

open Furnace.Lib Furnace.Lib.PyText

/-!
# Comments and blank lines

Only the loop outside of the blocks looks for comments and blank lines.  In a block such a line
is read as an argument or a rule: it raises, it is entered, or it enters the rule before it
once more.

* `isNote`, `Annotates` — a blank line or a comment, and a text with such lines put in.
* `read_note` — outside of the blocks they do nothing.
* `read_hashColon` — in a block `#:` raises.
* `notes_harmless_iff` — **where notes may stand**: outside of the blocks, and nowhere else.
-/

/-- A line that is blank or whose first token starts with `#`. -/
def isNote (l : Str) : Bool :=
  match words l with
  | [] => true
  | t :: _ => t.head? = some '#'

/-- The lines with further ones put in: `ins p` in front of line `p`, or at the end. -/
def weave (ins : ℕ → List Str) : List Str → List Str
  | [] => ins 0
  | l :: ls => ins 0 ++ l :: weave (fun p => ins (p + 1)) ls

/-- A text with blank lines and comments put in at some of the places. -/
def Annotates (places : Set ℕ) (raw raw' : Str) : Prop :=
  ∃ ins : ℕ → List Str, (∀ p, ∀ l ∈ ins p, p ∈ places ∧ isNote l = true) ∧
    pieces '\n' raw' = weave ins (pieces '\n' raw)

variable {modules : Modules}

/-! ### Outside of the blocks -/

theorem read_note {l : Str} (h : isNote l = true) (v : Locals) :
    Loop.read modules (.lines v) l = .ok (.lines v) := by
  have hline : dispatch v l = .ok (.line v) := by
    rw [isNote] at h
    cases hw : words l with
    | nil => rw [dispatch, hw]
    | cons t ts =>
      rw [hw] at h
      exact dispatch_comment hw (by simpa using h)
  rw [Loop.read, hline]
  rfl

theorem foldlM_read_notes {ls : List Str} (h : ∀ l ∈ ls, isNote l = true) (v : Locals) :
    ls.foldlM (Loop.read modules) (.lines v) = .ok (.lines v) := by
  induction ls with
  | nil => rfl
  | cons l ls ih =>
    rw [List.foldlM_cons, read_note (h l (List.mem_cons_self ..))]
    exact ih fun l' hl' => h l' (List.mem_cons_of_mem _ hl')

/-- The notes in front of a line, if the line is outside of the blocks. -/
theorem foldlM_read_ins {ls : List Str} {s : Loop} (hnote : ∀ l ∈ ls, isNote l = true)
    (hzone : ∀ l ∈ ls, s.zone = .lines) : ls.foldlM (Loop.read modules) s = .ok s := by
  cases s with
  | lines v => exact foldlM_read_notes hnote v
  | testArgs | openBlock =>
    have hnil : ls = [] :=
      List.eq_nil_iff_forall_not_mem.mpr fun l hl => absurd (hzone l hl) (by simp [Loop.zone])
    rw [hnil]
    rfl

/-- Notes outside of the blocks change no run.  By induction on the lines of the text; the
    zone of a line is that of the machine that reads it. -/
theorem foldlM_read_weave {ls : List Str} {ins : ℕ → List Str} {s : Loop}
    (hnote : ∀ p, ∀ l ∈ ins p, isNote l = true)
    (hzone : ∀ p, ∀ l ∈ ins p, (ls.take p).foldl Zone.after s.zone = .lines) :
    (weave ins ls).foldlM (Loop.read modules) s = ls.foldlM (Loop.read modules) s := by
  induction ls generalizing ins s with
  | nil => exact foldlM_read_ins (hnote 0) fun l hl => by simpa using hzone 0 l hl
  | cons l ls ih =>
    have hfront : (ins 0).foldlM (Loop.read modules) s = .ok s :=
      foldlM_read_ins (hnote 0) (hzone 0)
    rw [weave, List.foldlM_append, hfront, ok_bind, List.foldlM_cons, List.foldlM_cons]
    cases hread : s.read modules l with
    | error e => rfl
    | ok s' =>
      refine ih (fun p => hnote (p + 1)) fun p l' hl' => ?_
      rw [Loop.read_zone hread]
      exact hzone (p + 1) l' hl'

/-! ### In a block -/

/-- `#:`, a comment. -/
def hashColon : Str := "#:".toList

/-- In an `A TEST_ARGS` block it has no register, and in an `open` block no kind of rule. -/
theorem read_hashColon {s : Loop} (h : s.zone ≠ .lines) :
    ∃ e, s.read modules hashColon = .error e := by
  cases s with
  | lines v => exact absurd rfl h
  | testArgs v call arglist => exact ⟨.valueError, rfl⟩
  | openBlock v argdict =>
    obtain ⟨e, he⟩ : ∃ e, openRule v argdict hashColon = .error e := by
      have hpiece : (pieces ':' hashColon)[1]? = some [] := by rfl
      have hkind : pieces '|' [] = [[]] := by rfl
      rw [openRule, hpiece]
      dsimp only
      rw [hkind]
      dsimp only
      split
      · exact ⟨_, rfl⟩
      · exact ⟨_, rfl⟩
    refine ⟨e, ?_⟩
    rw [Loop.read, if_neg (by decide), he]
    rfl

/-- One line put in at one place. -/
def insOne (p : ℕ) (l : Str) : ℕ → List Str := fun q => if q = p then [l] else []

theorem weave_nil (ls : List Str) : weave (fun _ => []) ls = ls := by
  induction ls with
  | nil => rfl
  | cons l ls ih => rw [weave, ih, List.nil_append]

theorem weave_insOne {ls : List Str} {p : ℕ} (hp : p ≤ ls.length) (l : Str) :
    weave (insOne p l) ls = ls.take p ++ l :: ls.drop p := by
  induction ls generalizing p with
  | nil =>
    obtain rfl : p = 0 := Nat.le_zero.mp hp
    rfl
  | cons l' ls ih =>
    cases p with
    | zero =>
      have hrest : (fun q => insOne 0 l (q + 1)) = fun _ => [] := rfl
      rw [weave, hrest, weave_nil]
      rfl
    | succ p =>
      have hrest : (fun q => insOne (p + 1) l (q + 1)) = insOne p l := by
        funext q
        simp [insOne]
      rw [weave, hrest, ih (Nat.le_of_succ_le_succ hp)]
      rfl

/-- Such a line is a note at its place. -/
theorem annotates_insOne {places : Set ℕ} {p : ℕ} {l raw raw' : Str} (hp : p ∈ places)
    (hl : isNote l = true) (htext : pieces '\n' raw' = weave (insOne p l) (pieces '\n' raw)) :
    Annotates places raw raw' := by
  refine ⟨insOne p l, fun q l' hl' => ?_, htext⟩
  rw [insOne] at hl'
  split_ifs at hl' with hq
  · rw [List.mem_singleton] at hl'
    rw [hq, hl']
    exact ⟨hp, hl⟩
  · cases hl'

/-! ### Texts -/

/-- A line has no line feed in it. -/
theorem not_mem_of_mem_pieces {c : Char} {s t : Str} (h : t ∈ pieces c s) : c ∉ t := by
  rw [pieces] at h
  induction s generalizing t with
  | nil =>
    rw [List.splitOnP_nil, List.mem_singleton] at h
    rw [h]
    exact List.not_mem_nil
  | cons a s ih =>
    rw [List.splitOnP_cons_eq_if_modifyHead] at h
    by_cases ha : (a == c) = true
    · rw [if_pos ha, List.mem_cons] at h
      rcases h with rfl | h
      · exact List.not_mem_nil
      · exact ih h
    · rw [if_neg ha] at h
      obtain ⟨u, us, hparts⟩ := List.exists_cons_of_ne_nil (List.splitOnP_ne_nil (· == c) s)
      rw [hparts, List.modifyHead_cons, List.mem_cons] at h
      rcases h with rfl | h
      · have hu : c ∉ u := ih (hparts ▸ List.mem_cons_self ..)
        have hac : c ≠ a := fun he => ha (by simp [he])
        exact List.not_mem_cons_of_ne_of_not_mem hac hu
      · exact ih (hparts ▸ List.mem_cons_of_mem _ h)

/-- A line can be put in anywhere. -/
theorem exists_text_insOne {raw l : Str} {p : ℕ} (hp : p ≤ (pieces '\n' raw).length)
    (hl : '\n' ∉ l) : ∃ raw', pieces '\n' raw' = weave (insOne p l) (pieces '\n' raw) := by
  refine ⟨['\n'].intercalate (weave (insOne p l) (pieces '\n' raw)), ?_⟩
  rw [weave_insOne hp]
  refine List.splitOn_intercalate '\n' (fun l' hl' => ?_) (by simp)
  rcases List.mem_append.mp hl' with hl' | hl'
  · exact not_mem_of_mem_pieces (List.mem_of_mem_take hl')
  · rcases List.mem_cons.mp hl' with rfl | hl'
    · exact hl
    · exact not_mem_of_mem_pieces (List.mem_of_mem_drop hl')

/-- **Where notes may stand.** Blank lines and comments at some places of an accepted policy
    leave it as it is, whatever they are, if and only if the parser is outside of the blocks at
    each of these places. -/
theorem notes_harmless_iff {raw : Str} {pol : Policy} (h : parsePolicy modules raw = .ok pol)
    (places : Set ℕ) :
    (∀ raw', Annotates places raw raw' → parsePolicy modules raw' = .ok pol) ↔
      ∀ p ∈ places, zoneAt raw p = .lines := by
  obtain ⟨v, openDict, hrun, hdict, hpol⟩ := parsePolicy_eq_ok.mp h
  constructor
  · intro hall p hp
    by_contra hzone
    -- the text does not end in a block
    have hlen : p ≤ (pieces '\n' raw).length := by
      by_contra hlong
      rw [zoneAt, List.take_of_length_le (by omega)] at hzone
      exact hzone (foldlM_read_zone hrun).symm
    obtain ⟨raw', htext⟩ := exists_text_insOne hlen (l := hashColon) (by decide)
    have hann : Annotates places raw raw' := annotates_insOne hp (by decide) htext
    obtain ⟨v', openDict', hrun', -⟩ := parsePolicy_eq_ok.mp (hall raw' hann)
    -- the run reaches the place, and the line there raises
    rw [htext, weave_insOne hlen, List.foldlM_append] at hrun'
    obtain ⟨s, hs, hrun'⟩ := bind_eq_ok.mp hrun'
    have hblock : s.zone ≠ .lines := by
      rw [foldlM_read_zone hs]
      exact hzone
    obtain ⟨e, he⟩ : ∃ e, s.read modules hashColon = .error e := read_hashColon hblock
    rw [List.foldlM_cons, he] at hrun'
    cases hrun'
  · rintro hzone raw' ⟨ins, hins, htext⟩
    refine parsePolicy_eq_ok.mpr ⟨v, openDict, ?_, hdict, hpol⟩
    have hsame : (weave ins (pieces '\n' raw)).foldlM (Loop.read modules) (.lines {}) =
        (pieces '\n' raw).foldlM (Loop.read modules) (.lines {}) :=
      foldlM_read_weave (fun p l hl => (hins p l hl).2) fun p l hl => hzone p (hins p l hl).1
    rw [htext, hsame]
    exact hrun

/-! ### A policy with places of both kinds -/

/-- Any notes behind the `ALLOW` line of `openTraced`. -/
theorem notes_harmless_iff_openTraced :
    parsePolicy noModules openTraced = .ok openTracedPolicy ∧
      ∀ raw', Annotates {1} openTraced raw' →
        parsePolicy noModules raw' = .ok openTracedPolicy := by
  refine ⟨parsePolicy_openTraced, (notes_harmless_iff parsePolicy_openTraced {1}).mpr ?_⟩
  rintro p rfl
  decide

/-- `openTraced` with its rule followed by a blank line. -/
def blankInBlock : Str :=
  "ALLOW poll\nA TRACE open\n1 TEST_ARGS open \x7b\n RDI_PTR:dirname|/etc\n\n\x7d".toList

/-- `openTraced` with another rule commented out. -/
def ruleInComment : Str :=
  ("ALLOW poll\nA TRACE open\n1 TEST_ARGS open \x7b\n RDI_PTR:dirname|/etc\n" ++
    "# RDI_PTR:dirname|/root\n\x7d").toList

/-- A tested call, with a blank line in its block. -/
def blankInTest : Str :=
  ("A TRACE stat\nA TEST_ARGS ioctl \x7b\n RSI_INT:21505\n\n\x7d\n1 TEST_ARGS open \x7b\n" ++
    " RDI_PTR:dirname|/etc\n\x7d").toList

/-- **Notes in blocks.** A blank line enters the rule before it once more, a commented rule is
    entered, and a blank line among the arguments of a call raises `IndexError`. -/
theorem notes_in_blocks :
    (Annotates {4} openTraced blankInBlock ∧
      parsePolicy noModules openTraced = .ok openTracedPolicy ∧
      parsePolicy noModules blankInBlock = .ok { openTracedPolicy with
        openDict := { dirname := ["/etc".toList, "/etc".toList] } }) ∧
    (Annotates {4} openTraced ruleInComment ∧
      parsePolicy noModules ruleInComment = .ok { openTracedPolicy with
        openDict := { dirname := ["/etc".toList, "/root".toList] } }) ∧
    (Annotates {3} ioctlTested blankInTest ∧
      parsePolicy noModules ioctlTested = .ok ioctlTestedPolicy ∧
      parsePolicy noModules blankInTest = .error .indexError) ∧
    ¬ ∀ (modules : Modules) (raw raw' : Str) (pol : Policy), parsePolicy modules raw = .ok pol →
      Annotates Set.univ raw raw' → parsePolicy modules raw' = .ok pol := by
  have hblank : Annotates {4} openTraced blankInBlock :=
    annotates_insOne (show 4 ∈ ({4} : Set ℕ) from rfl) (show isNote [] = true by decide) (by decide)
  have hcomment : Annotates {4} openTraced ruleInComment :=
    annotates_insOne (show 4 ∈ ({4} : Set ℕ) from rfl)
      (show isNote "# RDI_PTR:dirname|/root".toList = true by decide) (by decide)
  have htested : Annotates {3} ioctlTested blankInTest :=
    annotates_insOne (show 3 ∈ ({3} : Set ℕ) from rfl) (show isNote [] = true by decide) (by decide)
  have hrepeat : parsePolicy noModules blankInBlock = .ok { openTracedPolicy with
      openDict := { dirname := ["/etc".toList, "/etc".toList] } } := by rfl
  refine ⟨⟨hblank, parsePolicy_openTraced, hrepeat⟩, ⟨hcomment, rfl⟩,
    ⟨htested, parsePolicy_ioctlTested, by rfl⟩, fun h => ?_⟩
  obtain ⟨ins, hins, htext⟩ := hblank
  have hsame := h noModules openTraced blankInBlock _ parsePolicy_openTraced
    ⟨ins, fun p l hl => ⟨Set.mem_univ p, (hins p l hl).2⟩, htext⟩
  rw [hrepeat] at hsame
  exact absurd hsame (by decide)

end Furnace.Inspector
