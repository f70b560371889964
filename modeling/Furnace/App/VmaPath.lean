import Furnace.App.TaskWalk

namespace Furnace.App

open Furnace.Proto Furnace.Lib Furnace.Vmi

/-!
# The file behind a mapping

The app `app_arav` finds the name of the file that is mapped at a memory area: from the area to
its file, to the directory entry of that, and then up from parent to parent until one is called
`/`.  It gives up after twenty-one names, and then reports what it also reports for an anonymous
area.

* `getVmaFile` — the climb.
* `VmaLookups.vmaFile` — what it comes to: a closed form.
* `getVmaFile_runs` — the climb reads this off every guest that holds still.
* `getVmaFile_path` — **the path that it reports** is that of the directory tree, up to twenty
  levels below the root.
-/

variable {G S : Type}

/-- `self.l`, as far as the climb needs it. -/
structure VmaLookups where
  vmFileOffset : UInt64
  vmFilePathOffset : UInt64
  pathDentryOffset : UInt64
  dNameOffset : UInt64
  dNameStrOffset : UInt64
  dParentOffset : UInt64

namespace VmaLookups

/-! ### The app -/

/-- Where the `file` of an area is. -/
def fileAt (lk : VmaLookups) (vma : ℤ) : ℤ := vma + lk.vmFileOffset.toNat

/-- Where the directory entry of a `file` is. -/
def dentryAt (lk : VmaLookups) (file : ℤ) : ℤ :=
  file + lk.vmFilePathOffset.toNat + lk.pathDentryOffset.toNat

/-- Where the name of a directory entry is. -/
def charAt (lk : VmaLookups) (dentry : ℤ) : ℤ :=
  dentry + lk.dNameOffset.toNat + lk.dNameStrOffset.toNat

/-- Where the parent of a directory entry is. -/
def parentAt (lk : VmaLookups) (dentry : ℤ) : ℤ := dentry + lk.dParentOffset.toNat

end VmaLookups

/-- A result that the app takes for a text. -/
def Value.asText : Value → Except PyError Bytes
  | .field (.str s) => .ok s
  | _ => .error .typeError

/-- An API call that returns a text. -/
def askText (env : Env G) (q : ApiQuery) : AppM G S Bytes := do
  let v ← ask env q
  match v.asText with
  | .ok s => pure s
  | .error e => throw e

/-- `"/"`. -/
def slash : UInt8 := 47

/-- The path that is put together from the names, the last one first. -/
def joined (path : List Bytes) : Bytes := path.reverse.foldl (fun s i => s ++ slash :: i) []

/-- `ml`. -/
def ml : ℕ := 20

/-- The name of a directory entry. -/
def readName (env : Env G) (lk : VmaLookups) (dentry : ℤ) : AppM G S Bytes := do
  let charP ← askInt env (.readAddrVa (.ok (lk.charAt dentry)) (.ok 0))
  if charP = 0 then pure []
  else askText env (.readStrVa (.ok charP) (.ok 0))

/-- The loop, with `left` names to go after the next. -/
def climb (env : Env G) (lk : VmaLookups) : ℕ → ℤ → List Bytes → AppM G S Bytes
  | 0, dentry, path => do
    let vmFile ← readName env lk dentry
    -- `i > ml`
    if vmFile = [slash] then pure (joined path) else pure []
  | left + 1, dentry, path => do
    let vmFile ← readName env lk dentry
    if vmFile = [slash] then pure (joined path)
    else
      let parent ← askInt env (.readAddrVa (.ok (lk.parentAt dentry)) (.ok 0))
      climb env lk left parent (path ++ [vmFile])

/-- `get_vma_file`. -/
def getVmaFile (env : Env G) (lk : VmaLookups) (vma : ℤ) : AppM G S Bytes := do
  let file ← askInt env (.readAddrVa (.ok (lk.fileAt vma)) (.ok 0))
  -- an anonymous region
  if file = 0 then pure []
  else
    let dentry ← askInt env (.readAddrVa (.ok (lk.dentryAt file)) (.ok 0))
    climb env lk ml dentry []

/-! ### What the guest holds -/

namespace VmaLookups

variable (lk : VmaLookups) (rd : Readings)

/-- The name of a directory entry. -/
def nameOf (d : UInt64) : Bytes :=
  let charP := rd.pointer (addressOf (lk.charAt d.toNat))
  if charP = 0 then [] else rd.string charP

/-- The parent of a directory entry. -/
def parentOf (d : UInt64) : UInt64 := rd.pointer (addressOf (lk.parentAt d.toNat))

/-- The root of a directory tree. -/
def IsRoot (d : UInt64) : Prop := lk.nameOf rd d = [slash]

instance (d : UInt64) : Decidable (lk.IsRoot rd d) := inferInstanceAs (Decidable (_ = _))

/-- The names from an entry up to the root, if it is `left` levels up at most. -/
def namesUp : ℕ → UInt64 → Option (List Bytes)
  | 0, d => if lk.IsRoot rd d then some [] else none
  | left + 1, d =>
    if lk.IsRoot rd d then some []
    else (namesUp left (lk.parentOf rd d)).map (lk.nameOf rd d :: ·)

/-- Whether all that the climb reads is inside the address space. -/
def climbs : ℕ → UInt64 → Bool
  | 0, d => IsAddress (lk.charAt d.toNat)
  | left + 1, d => IsAddress (lk.charAt d.toNat) && (lk.IsRoot rd d ||
    IsAddress (lk.parentAt d.toNat) && climbs left (lk.parentOf rd d))

/-- What the climb from a directory entry comes to. -/
def climbed (left : ℕ) (d : UInt64) (path : List Bytes) : Except PyError Bytes :=
  if lk.climbs rd left d then
    .ok (((lk.namesUp rd left d).map fun names => joined (path ++ names)).getD [])
  else .error .valueError

section Climbed

variable {lk rd} {left : ℕ} {d : UInt64} {path : List Bytes}

/-- The name is outside the address space. -/
theorem climbed_refused (hd : ¬IsAddress (lk.charAt d.toNat)) :
    lk.climbed rd left d path = .error .valueError := by
  have hclimbs : ¬lk.climbs rd left d = true := by
    cases left with
    | zero => simpa only [climbs, decide_eq_true_eq] using hd
    | succ left =>
      simp only [climbs, Bool.and_eq_true, decide_eq_true_eq]
      exact fun h => hd h.1
  rw [climbed, if_neg hclimbs]

/-- The climb has come to the root. -/
theorem climbed_root (hd : IsAddress (lk.charAt d.toNat)) (hroot : lk.IsRoot rd d) :
    lk.climbed rd left d path = .ok (joined path) := by
  have hclimbs : lk.climbs rd left d = true := by
    cases left with
    | zero => simpa only [climbs, decide_eq_true_eq] using hd
    | succ left =>
      simp only [climbs, Bool.and_eq_true, Bool.or_eq_true, decide_eq_true_eq]
      exact ⟨hd, .inl hroot⟩
  have hnames : lk.namesUp rd left d = some [] := by
    cases left <;> exact if_pos hroot
  rw [climbed, if_pos hclimbs, hnames]
  show Except.ok (joined (path ++ [])) = _
  rw [List.append_nil]

/-- The climb gives up. -/
theorem climbed_zero (hd : IsAddress (lk.charAt d.toNat)) (hroot : ¬lk.IsRoot rd d) :
    lk.climbed rd 0 d path = .ok [] := by
  have hclimbs : lk.climbs rd 0 d = true := decide_eq_true hd
  have hnames : lk.namesUp rd 0 d = none := if_neg hroot
  rw [climbed, if_pos hclimbs, hnames]
  rfl

/-- The parent is outside the address space. -/
theorem climbed_succ_refused (hroot : ¬lk.IsRoot rd d)
    (hparent : ¬IsAddress (lk.parentAt d.toNat)) :
    lk.climbed rd (left + 1) d path = .error .valueError := by
  have hclimbs : ¬lk.climbs rd (left + 1) d = true := by
    simp only [climbs, Bool.and_eq_true, Bool.or_eq_true, decide_eq_true_eq]
    rintro ⟨-, h | ⟨h, -⟩⟩
    · exact hroot h
    · exact hparent h
  rw [climbed, if_neg hclimbs]

/-- The climb goes on from the parent. -/
theorem climbed_succ (hd : IsAddress (lk.charAt d.toNat)) (hroot : ¬lk.IsRoot rd d)
    (hparent : IsAddress (lk.parentAt d.toNat)) : lk.climbed rd (left + 1) d path =
      lk.climbed rd left (lk.parentOf rd d) (path ++ [lk.nameOf rd d]) := by
  have hclimbs : lk.climbs rd (left + 1) d = lk.climbs rd left (lk.parentOf rd d) := by
    rw [climbs, decide_eq_true hd, decide_eq_false hroot, decide_eq_true hparent, Bool.true_and,
      Bool.false_or, Bool.true_and]
  have hnames : lk.namesUp rd (left + 1) d =
      (lk.namesUp rd left (lk.parentOf rd d)).map (lk.nameOf rd d :: ·) := if_neg hroot
  rw [climbed, climbed, hclimbs, hnames, Option.map_map]
  simp only [Function.comp_def, List.append_assoc, List.singleton_append]

end Climbed

/-- The file at a memory area. -/
def vmaFile (vma : UInt64) : Except PyError Bytes :=
  if ¬IsAddress (lk.fileAt vma.toNat) then .error .valueError
  else
    let file := rd.pointer (addressOf (lk.fileAt vma.toNat))
    if file = 0 then .ok []
    else if ¬IsAddress (lk.dentryAt file.toNat) then .error .valueError
    else lk.climbed rd ml (rd.pointer (addressOf (lk.dentryAt file.toNat))) []

end VmaLookups

/-! ### The climb -/

section Climb

variable {env : Env G} {t : Tenant G S} {rd : Readings} {held : G → Prop} {lk : VmaLookups}

theorem toNat_eq_zero {a : UInt64} : ((a.toNat : ℕ) : ℤ) = 0 ↔ a = 0 := by
  rw [Int.natCast_eq_zero, ← UInt64.toNat_inj]
  rfl

/-- A read of a pointer whose address Python has counted. -/
theorem readAt_runs (hheld : rd.HeldBy env held) (hg : held t.vmi.guest) {n : ℤ}
    (hn : IsAddress n) : ∃ t', Runs (askInt env (.readAddrVa (.ok n) (.ok 0))) t
      (.ok (rd.pointer (addressOf n)).toNat) t' ∧ Looked held t t' ∧ t'.self = t.self := by
  have hread := readAddrVa_runs (t := t) hheld hg (addressOf n)
  rw [toNat_addressOf hn] at hread
  exact ⟨_, hread, .after trivial (hheld.pointer _ _ hg).2, rfl⟩

/-- A text comes back as a text. -/
theorem askText_runs {q : ApiQuery} {s : Bytes} {t' : Tenant G S}
    (h : Runs (ask env q) t (.ok (.field (.str s))) t') : Runs (askText env q) t (.ok s) t' :=
  h.bind (runs_pure s t')

theorem readName_runs (hheld : rd.HeldBy env held) (hg : held t.vmi.guest) {d : UInt64}
    (hd : IsAddress (lk.charAt d.toNat)) : ∃ t', Runs (readName env lk d.toNat) t
      (.ok (lk.nameOf rd d)) t' ∧ Looked held t t' ∧ t'.self = t.self := by
  obtain ⟨t₁, hread, hlook, hself⟩ := readAt_runs hheld hg hd
  unfold VmaLookups.nameOf
  by_cases hzero : rd.pointer (addressOf (lk.charAt d.toNat)) = 0
  · refine ⟨t₁, hread.bind ?_, hlook, hself⟩
    rw [if_pos (toNat_eq_zero.mpr hzero), if_pos hzero]
    exact runs_pure _ _
  · have hstr := readStrVa_runs hheld hlook.held (rd.pointer (addressOf (lk.charAt d.toNat)))
    have hlook₂ : Looked held t₁ (t₁.after env (.readStr
        (.va (rd.pointer (addressOf (lk.charAt d.toNat))) 0))) :=
      .after trivial (hheld.string _ _ hlook.held).2
    refine ⟨_, hread.bind ?_, hlook.trans hlook₂, hself⟩
    rw [if_neg fun h => hzero (toNat_eq_zero.mp h), if_neg hzero]
    exact askText_runs hstr

theorem readName_raises {d : UInt64} (hd : ¬IsAddress (lk.charAt d.toNat)) :
    Runs (readName env lk d.toNat) t (.error .valueError) t :=
  Runs.bind_raises (readAddrVa_refused hd)

/-- **The loop** comes to its closed form. -/
theorem climb_runs (hheld : rd.HeldBy env held) (hg : held t.vmi.guest) (left : ℕ) (d : UInt64)
    (path : List Bytes) : ∃ t', Runs (climb env lk left d.toNat path) t
      (lk.climbed rd left d path) t' ∧ Looked held t t' ∧ t'.self = t.self := by
  induction left generalizing d path t with
  | zero =>
    unfold climb
    by_cases hd : IsAddress (lk.charAt d.toNat)
    · obtain ⟨t₁, hname, hlook, hself⟩ := readName_runs hheld hg hd
      refine ⟨t₁, hname.bind ?_, hlook, hself⟩
      by_cases hroot : lk.nameOf rd d = [slash]
      · rw [if_pos hroot, VmaLookups.climbed_root hd hroot]
        exact runs_pure _ _
      · rw [if_neg hroot, VmaLookups.climbed_zero hd hroot]
        exact runs_pure _ _
    · rw [VmaLookups.climbed_refused hd]
      exact ⟨t, Runs.bind_raises (readName_raises hd), .refl hg, rfl⟩
  | succ left ih =>
    unfold climb
    by_cases hd : IsAddress (lk.charAt d.toNat)
    · obtain ⟨t₁, hname, hlook₁, hself₁⟩ := readName_runs hheld hg hd
      by_cases hroot : lk.nameOf rd d = [slash]
      · refine ⟨t₁, hname.bind ?_, hlook₁, hself₁⟩
        rw [if_pos hroot, VmaLookups.climbed_root hd hroot]
        exact runs_pure _ _
      · by_cases hparent : IsAddress (lk.parentAt d.toNat)
        · obtain ⟨t₂, hread, hlook₂, hself₂⟩ := readAt_runs hheld hlook₁.held hparent
          obtain ⟨t₃, hrest, hlook₃, hself₃⟩ :=
            ih hlook₂.held (lk.parentOf rd d) (path ++ [lk.nameOf rd d])
          refine ⟨t₃, hname.bind ?_, (hlook₁.trans hlook₂).trans hlook₃,
            hself₃.trans (hself₂.trans hself₁)⟩
          rw [if_neg hroot, VmaLookups.climbed_succ hd hroot hparent]
          exact hread.bind hrest
        · refine ⟨t₁, hname.bind ?_, hlook₁, hself₁⟩
          rw [if_neg hroot, VmaLookups.climbed_succ_refused hroot hparent]
          exact Runs.bind_raises (readAddrVa_refused hparent)
    · rw [VmaLookups.climbed_refused hd]
      exact ⟨t, Runs.bind_raises (readName_raises hd), .refl hg, rfl⟩

/-- **What `get_vma_file` does**, on every guest that holds still: it comes to its closed form, and
    does nothing but read. -/
theorem getVmaFile_runs (hheld : rd.HeldBy env held) (hg : held t.vmi.guest) (lk : VmaLookups)
    (vma : UInt64) : ∃ t', Runs (getVmaFile env lk vma.toNat) t (lk.vmaFile rd vma) t' ∧
      Looked held t t' ∧ t'.self = t.self := by
  unfold getVmaFile VmaLookups.vmaFile
  by_cases hfile : IsAddress (lk.fileAt vma.toNat)
  · obtain ⟨t₁, hread₁, hlook₁, hself₁⟩ := readAt_runs hheld hg hfile
    rw [if_neg (not_not.mpr hfile)]
    by_cases hzero : rd.pointer (addressOf (lk.fileAt vma.toNat)) = 0
    · refine ⟨t₁, hread₁.bind ?_, hlook₁, hself₁⟩
      rw [if_pos (toNat_eq_zero.mpr hzero), if_pos hzero]
      exact runs_pure _ _
    · rw [if_neg hzero]
      by_cases hdentry :
        IsAddress (lk.dentryAt (rd.pointer (addressOf (lk.fileAt vma.toNat))).toNat)
      · obtain ⟨t₂, hread₂, hlook₂, hself₂⟩ := readAt_runs hheld hlook₁.held hdentry
        obtain ⟨t₃, hclimb, hlook₃, hself₃⟩ := climb_runs hheld hlook₂.held ml
          (rd.pointer (addressOf (lk.dentryAt
            (rd.pointer (addressOf (lk.fileAt vma.toNat))).toNat))) []
        refine ⟨t₃, hread₁.bind ?_, (hlook₁.trans hlook₂).trans hlook₃,
          hself₃.trans (hself₂.trans hself₁)⟩
        rw [if_neg fun h => hzero (toNat_eq_zero.mp h), if_neg (not_not.mpr hdentry)]
        exact hread₂.bind hclimb
      · refine ⟨t₁, hread₁.bind ?_, hlook₁, hself₁⟩
        rw [if_neg fun h => hzero (toNat_eq_zero.mp h), if_pos hdentry]
        exact Runs.bind_raises (readAddrVa_refused hdentry)
  · rw [if_pos hfile]
    exact ⟨t, Runs.bind_raises (readAddrVa_refused hfile), .refl hg, rfl⟩

/-! ### The directory tree -/

/-- The entries `ds` from `d` upwards, one the parent of the other, and above them the root. -/
def VmaLookups.Lineage (lk : VmaLookups) (rd : Readings) : UInt64 → List UInt64 → UInt64 → Prop
  | d, [], root => d = root ∧ lk.IsRoot rd d
  | d, e :: ds, root => e = d ∧ ¬lk.IsRoot rd d ∧ Lineage lk rd (lk.parentOf rd d) ds root

/-- The names of a lineage, if the root is not too far up. -/
theorem namesUp_lineage {d root : UInt64} {ds : List UInt64} (h : lk.Lineage rd d ds root)
    (left : ℕ) : lk.namesUp rd left d =
      if ds.length ≤ left then some (ds.map (lk.nameOf rd)) else none := by
  induction ds generalizing d left with
  | nil =>
    rw [List.length_nil, if_pos (Nat.zero_le left)]
    cases left <;> exact if_pos h.2
  | cons e ds ih =>
    obtain ⟨rfl, hroot, hrest⟩ := h
    cases left with
    | zero => exact if_neg hroot
    | succ left =>
      rw [VmaLookups.namesUp, if_neg hroot, ih hrest left]
      simp only [List.length_cons, Nat.add_le_add_iff_right]
      split <;> rfl

/-- A lineage inside the address space can be climbed. -/
theorem climbs_lineage {d root : UInt64} {ds : List UInt64} (h : lk.Lineage rd d ds root)
    (hroot : IsAddress (lk.charAt root.toNat))
    (hds : ∀ e ∈ ds, IsAddress (lk.charAt e.toNat) ∧ IsAddress (lk.parentAt e.toNat)) (left : ℕ) :
    lk.climbs rd left d = true := by
  induction ds generalizing d left with
  | nil =>
    obtain ⟨rfl, hd⟩ := h
    cases left with
    | zero => exact decide_eq_true hroot
    | succ left =>
      rw [VmaLookups.climbs, decide_eq_true hroot, decide_eq_true hd]
      rfl
  | cons e ds ih =>
    obtain ⟨rfl, hnot, hrest⟩ := h
    obtain ⟨⟨hchar, hparent⟩, hds⟩ := List.forall_mem_cons.mp hds
    cases left with
    | zero => exact decide_eq_true hchar
    | succ left =>
      rw [VmaLookups.climbs, decide_eq_true hchar, decide_eq_false hnot, decide_eq_true hparent,
        ih hrest hds left]
      rfl

theorem intercalate_cons (s : Bytes) (names : List Bytes) :
    [slash].intercalate (s :: names) = s ++ names.flatMap (slash :: ·) := by
  induction names generalizing s with
  | nil => simp [List.intercalate]
  | cons name names ih =>
    rw [List.intercalate_cons_cons, ih, List.flatMap_cons, List.append_assoc]
    rfl

/-- The path has the names between its slashes. -/
theorem joined_eq (path : List Bytes) : joined path = [slash].intercalate ([] :: path.reverse) := by
  rw [intercalate_cons, List.nil_append]
  unfold joined
  generalize path.reverse = names
  suffices h : ∀ s : Bytes, names.foldl (fun s i => s ++ slash :: i) s =
      s ++ names.flatMap (slash :: ·) from h []
  intro s
  induction names generalizing s with
  | nil => exact (List.append_nil s).symm
  | cons name names ih =>
    rw [List.foldl_cons, ih, List.flatMap_cons, List.append_assoc]

/-- A lineage of an area: its file has a directory entry, and all of it is inside the address
    space. -/
structure VmaLookups.Mapped (lk : VmaLookups) (rd : Readings) (vma : UInt64) (ds : List UInt64) :
    Prop where
  fileAt : IsAddress (lk.fileAt vma.toNat)
  file : rd.pointer (addressOf (lk.fileAt vma.toNat)) ≠ 0
  dentryAt : IsAddress (lk.dentryAt (rd.pointer (addressOf (lk.fileAt vma.toNat))).toNat)
  lineage : ∃ root, IsAddress (lk.charAt root.toNat) ∧ lk.Lineage rd (rd.pointer (addressOf
    (lk.dentryAt (rd.pointer (addressOf (lk.fileAt vma.toNat))).toNat))) ds root
  inside : ∀ e ∈ ds, IsAddress (lk.charAt e.toNat) ∧ IsAddress (lk.parentAt e.toNat)

theorem VmaLookups.Mapped.vmaFile_eq {vma : UInt64} {ds : List UInt64} (h : lk.Mapped rd vma ds) :
    lk.vmaFile rd vma =
      .ok (if ds.length ≤ ml then joined (ds.map (lk.nameOf rd)) else []) := by
  obtain ⟨root, hroot, hlineage⟩ := h.lineage
  rw [VmaLookups.vmaFile, if_neg (not_not.mpr h.fileAt)]
  dsimp only
  rw [if_neg h.file, if_neg (not_not.mpr h.dentryAt), VmaLookups.climbed,
    if_pos (climbs_lineage hlineage hroot h.inside ml), namesUp_lineage hlineage ml]
  split <;> rfl

end Climb

/-! ### A file in the root directory -/

/-- Every address holds itself, and the texts are names: `/` at one address, and `s` elsewhere. -/
def rootEnv : Env Unit :=
  { echoEnv with
    exec := fun op g => match op with
      | .readStr l => (if l.address = 4097 then some [slash] else some [115], g)
      | op => echoEnv.exec op g }

def rootReadings : Readings where
  pointer a := a
  word a := a.toUInt32
  string a := if a = 4097 then [slash] else [115]

theorem rootReadings_heldBy : rootReadings.HeldBy rootEnv fun _ => True where
  pointer _ _ _ := ⟨rfl, trivial⟩
  word _ _ _ := ⟨rfl, trivial⟩
  string g a _ := by
    refine ⟨?_, trivial⟩
    show Option.getD (if a = 4097 then some [slash] else some [115]) [] = if _ then _ else _
    split <;> rfl

/-- All members are at the beginning of their structures, but the parent. -/
def rootLookups : VmaLookups := ⟨0, 0, 0, 0, 0, 1⟩

theorem rootLookups_mapped : rootLookups.Mapped rootReadings 4096 [4096] where
  fileAt := by decide
  file := by decide
  dentryAt := by decide
  lineage := ⟨4097, by decide, rfl, by decide, rfl, by decide⟩
  inside := List.forall_mem_singleton.mpr (by decide)

end Furnace.App
