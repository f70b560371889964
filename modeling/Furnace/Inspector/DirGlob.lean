import Furnace.Inspector.Tracer
import Furnace.Lib.Lexical

namespace Furnace.Inspector

open Furnace.Lib Furnace.Lib.PyText Furnace.Lib.Libgen Furnace.Lib.Lexical

/-!
# Where a `dirname_glob` rule leads

The test generated for `dirname_glob|D` compares the first bytes of the directory part of a
path with `D`.  Neither of them is normalised, and no kind of rule looks at the components of
a path, so what the rule says about the place of a file depends on how its path is written.

* `Accepts` — the generated test accepts a path.
* `openCase_of_accepts` — a path that it accepts is opened.
* `accepts_iff` — what it accepts: the paths whose directory part begins with `D`.
* `dirnameGlob_confines` — an accepted path that goes on at the end of a component of `D`, and
  whose further components never lead above `D`, is within `D`.
* `dirnameGlob_escapes` — the other ones may be anywhere.
-/

/-- The test generated for `dirname_glob|d` accepts the path. -/
def Accepts (d : Str) (path : CStr) : Prop :=
  ∃ c, (OpenTest.dirnameGlob d).cond? = some c ∧
    c.holds (dirname path) (basename (afterDirname path)) = true

/-- The path goes on at the end of a component of the directory in front of it. -/
def AtComponent (dir path : CStr) : Prop :=
  dir.getLast? = some slash ∨ (path.drop dir.length).head? = some slash

instance (dir path : CStr) : Decidable (AtComponent dir path) :=
  inferInstanceAs (Decidable (_ ∨ _))

/-! ### The directory part -/

theorem upToSlash_isPrefix (path : CStr) : upToSlash path <+: path := by
  rw [upToSlash]
  split_ifs
  · exact List.prefix_rfl
  · exact (List.rdropWhile_prefix _ _).trans (List.rdropWhile_prefix _ _)

/-- The directory part of an absolute path is what the path begins with. -/
theorem dirname_isPrefix {path : CStr} (habs : path.head? = some slash) :
    dirname path <+: path := by
  have hne : upToSlash path ≠ [] := upToSlash_ne_nil habs
  rw [dirname, if_neg hne]
  split_ifs with hdir hlen
  · exact (List.rdropWhile_prefix _ _).trans (upToSlash_isPrefix path)
  · -- two slashes, and nothing else in front of the last component
    have hall := List.rdropWhile_eq_nil_iff.mp (not_not.mp hdir)
    have hrep : upToSlash path = List.replicate 2 slash :=
      List.eq_replicate_iff.mpr ⟨hlen, fun c hc => by simpa using hall c hc⟩
    have htwo : [slash, slash] = upToSlash path := hrep.symm
    rw [htwo]
    exact upToSlash_isPrefix path
  · obtain ⟨rest, rfl⟩ := List.head?_eq_some_iff.mp habs
    exact ⟨rest, rfl⟩

/-! ### The test -/

variable {d : Str} {path : CStr}

/-- The text of the directory has to stand for itself between the quotes. -/
theorem accepts_iff :
    Accepts d path ↔ (literal? d).isSome = true ∧ encode d <+: dirname path := by
  rw [Accepts, OpenTest.cond?, literal?]
  split_ifs with hlit
  · simp
  · simp [OpenCond.holds]

/-- The test stands in the `open` list of every inspector whose policy has the rule, and a path
    that it accepts is opened at policy level 1. -/
theorem openCase_of_accepts {H : Header} {pol : Policy} {g : Generated} {insp : Program}
    {t : Tracer} (hw : writeInspector pol = .ok g) (hc : g.compile H = some insp)
    (hd : d ∈ pol.openDict.dirnameGlob) (hlevel : t.policyLevel = 1) (h : Accepts d path) :
    (insp.openCase t path).1 = .resumed := by
  obtain ⟨c, hcond, hholds⟩ := h
  have hopen : g.openOut = openTests pol.openDict := by
    obtain ⟨traced, -, hw⟩ := bind_eq_ok.mp hw
    obtain ⟨tested, -, hw⟩ := bind_eq_ok.mp hw
    cases hw
    rfl
  have hlist : g.openOut.mapM OpenTest.cond? = some insp.openList := by
    obtain ⟨openNr, -, hc⟩ := Option.bind_eq_some_iff.mp hc
    obtain ⟨rules, -, hc⟩ := Option.bind_eq_some_iff.mp hc
    obtain ⟨openList, hlist, hc⟩ := Option.bind_eq_some_iff.mp hc
    obtain ⟨traced, -, hc⟩ := Option.bind_eq_some_iff.mp hc
    obtain ⟨tests, -, hc⟩ := Option.bind_eq_some_iff.mp hc
    obtain ⟨map, -, hc⟩ := Option.bind_eq_some_iff.mp hc
    split_ifs at hc
    cases hc
    exact hlist
  have hmem : c ∈ insp.openList := by
    have htest : OpenTest.dirnameGlob d ∈ g.openOut := by
      rw [hopen, openTests]
      simp [hd]
    obtain ⟨c', hc', hsome⟩ := exists_mem_of_mapM hlist htest
    rw [hcond] at hsome
    cases hsome
    exact hc'
  rw [Program.openCase, if_pos hlevel]
  have hany : insp.openList.any (OpenCond.holds (dirname path) (basename (afterDirname path))) :=
    List.any_eq_true.mpr ⟨c, hmem, hholds⟩
  dsimp only
  rw [if_pos hany]

/-- **What a `dirname_glob` rule confines.** The directory part of an accepted path begins with
    the directory of the rule, as both are written, and so does the path.  If the path goes on
    at the end of a component and its further components never lead above the directory, then
    its normalised form lies in the directory or below it. -/
theorem dirnameGlob_confines (habs : path.head? = some slash) (h : Accepts d path) :
    encode d <+: dirname path ∧ encode d <+: path ∧
      (AtComponent (encode d) path → stays 0 (components (path.drop (encode d).length)) = true →
        Within (encode d) path) := by
  obtain ⟨-, hdir⟩ := accepts_iff.mp h
  have hpath : encode d <+: path := hdir.trans (dirname_isPrefix habs)
  refine ⟨hdir, hpath, fun hcomp hstays => ?_⟩
  obtain ⟨rest, rfl⟩ := hpath
  rw [AtComponent, List.drop_left] at hcomp
  rw [List.drop_left] at hstays
  exact within_append hcomp hstays

/-- A directory whose files an application may open. -/
def libDir : Str := "/usr/lib64/python3.6".toList

theorem dirnameGlob_confines_json :
    encode libDir <+: dirname (encode "/usr/lib64/python3.6/json/x.py".toList) ∧
      encode libDir <+: encode "/usr/lib64/python3.6/json/x.py".toList ∧
      Within (encode libDir) (encode "/usr/lib64/python3.6/json/x.py".toList) := by
  have haccepts : Accepts libDir (encode "/usr/lib64/python3.6/json/x.py".toList) :=
    accepts_iff.mpr (by decide +kernel)
  obtain ⟨hdir, hpath, hwithin⟩ := dirnameGlob_confines (by decide +kernel) haccepts
  exact ⟨hdir, hpath, hwithin (by decide +kernel) (by decide +kernel)⟩

/-- **A parent reference, and a directory whose name goes on.** -/
theorem dirnameGlob_escapes :
    (Accepts libDir (encode "/usr/lib64/python3.6/../../../etc/passwd".toList) ∧
      ¬ Within (encode libDir) (encode "/usr/lib64/python3.6/../../../etc/passwd".toList)) ∧
    (Accepts libDir (encode "/usr/lib64/python3.6-other/x".toList) ∧
      ¬ Within (encode libDir) (encode "/usr/lib64/python3.6-other/x".toList)) ∧
    ¬ ∀ (d : Str) (path : CStr), (encode d).head? = some slash → path.head? = some slash →
      Accepts d path → Within (encode d) path := by
  have hparent : Accepts libDir (encode "/usr/lib64/python3.6/../../../etc/passwd".toList) :=
    accepts_iff.mpr (by decide +kernel)
  have hout : ¬ Within (encode libDir)
      (encode "/usr/lib64/python3.6/../../../etc/passwd".toList) := by decide +kernel
  refine ⟨⟨hparent, hout⟩, ⟨accepts_iff.mpr (by decide +kernel), by decide +kernel⟩, fun h => ?_⟩
  exact hout (h libDir _ (by decide +kernel) (by decide +kernel) hparent)

end Furnace.Inspector
