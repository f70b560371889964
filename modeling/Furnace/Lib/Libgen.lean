import Mathlib.Data.List.DropRight
import Mathlib.Logic.Basic

namespace Furnace.Lib.Libgen

/-!
# `dirname` and `basename` of libgen

C strings are the bytes before their NUL.  `dirname` ends its argument at the slash that ends
the directory part, so what the argument holds afterwards is a definition of its own.

* `dirname`, `basename` — the strings returned.
* `afterDirname` — the argument of `dirname` after the call.
* `afterDirname_of_absolute` — of an absolute path only the directory part is left.
-/

abbrev CStr := List UInt8

def slash : UInt8 := 0x2f

def dot : UInt8 := 0x2e

/-- A path up to the slash that separates its last component; slashes at the end do not
    count, unless there is nothing else. -/
def upToSlash (path : CStr) : CStr :=
  -- nothing but slashes
  if path.rdropWhile (· = slash) = [] then path
  else (path.rdropWhile (· = slash)).rdropWhile (· ≠ slash)

/-- `dirname(path)`.  Exactly two slashes in front are kept. -/
def dirname (path : CStr) : CStr :=
  if upToSlash path = [] then [dot]
  else if (upToSlash path).rdropWhile (· = slash) ≠ [] then (upToSlash path).rdropWhile (· = slash)
  -- implementation-defined in POSIX, and kept by glibc
  else if (upToSlash path).length = 2 then [slash, slash]
  else [slash]

/-- What `path` holds after `dirname(path)`. -/
def afterDirname (path : CStr) : CStr :=
  if upToSlash path = [] then path else dirname path

/-- `basename(path)`. -/
def basename (path : CStr) : CStr :=
  if path = [] then [dot]
  else if path.rdropWhile (· = slash) = [] then [slash]
  else (path.rdropWhile (· = slash)).rtakeWhile (· ≠ slash)

/-- A path that starts with a slash has a directory part. -/
theorem upToSlash_ne_nil {path : CStr} (h : path.head? = some slash) : upToSlash path ≠ [] := by
  obtain ⟨rest, rfl⟩ : ∃ rest, path = slash :: rest := by
    cases path with
    | nil => cases h
    | cons c rest =>
      injection h with h
      exact ⟨rest, by rw [h]⟩
  rw [upToSlash]
  split_ifs with hall
  · exact List.cons_ne_nil _ _
  · -- what is left without the slashes at the end still starts with the first one
    intro hnil
    have hpre : (slash :: rest).rdropWhile (· = slash) <+: slash :: rest :=
      List.rdropWhile_prefix _ _
    obtain ⟨c, cs, hcs⟩ := List.exists_cons_of_ne_nil hall
    have hc : c = slash := by
      rw [hcs] at hpre
      exact (List.cons_prefix_cons.mp hpre).1
    have hslash : slash ∈ (slash :: rest).rdropWhile (· = slash) := by
      rw [hcs, hc]
      exact List.mem_cons_self ..
    have hnot := List.rdropWhile_eq_nil_iff.mp hnil slash hslash
    simp at hnot

/-- `dirname` leaves nothing of the last component of an absolute path. -/
theorem afterDirname_of_absolute {path : CStr} (h : path.head? = some slash) :
    afterDirname path = dirname path := by
  rw [afterDirname, if_neg (upToSlash_ne_nil h)]

end Furnace.Lib.Libgen
