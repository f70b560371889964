import Mathlib.Tactic.IntervalCases
import Furnace.App.BatchObj
import Furnace.Vmi.LinkResolution

namespace Furnace.App

open Furnace.Proto Furnace.Lib Furnace.Vmi

/-!
# The process-list batch

The batch in the docstring of `batch_obj`: a pause, a triple of reads for the head of the
kernel's task list, a triple for every further element, whose reads are linked to the pointer
that the triple before has read, and a resumption.

* `pslist` — the calls, as `prep_batch_pslist_self` adds them.
* `opening` — the requests that they become; the links are by position.
* `pslist_adds` — the batch can be made, for any number of elements.
* `pslist_getElem?` — which call is where.
-/

/-! ### The calls -/

/-- What the app has looked up: the head of the list, and three offsets. -/
structure Lookups where
  cur : ℕ
  tasko : ℕ
  nameo : ℕ
  pido : ℕ

/-- The addresses of a batch for `n` elements fit `uint64` fields, which take no negative number
    either.  The differences of the offsets go into the linked triples only. -/
structure Lookups.Fits (lk : Lookups) (n : ℕ) : Prop where
  cur : lk.cur < 2 ^ 64
  name : lk.tasko ≤ lk.cur + lk.nameo ∧ lk.cur + lk.nameo - lk.tasko < 2 ^ 64
  pid : lk.tasko ≤ lk.cur + lk.pido ∧ lk.cur + lk.pido - lk.tasko < 2 ^ 64
  linkedName : 1 < n → lk.tasko ≤ lk.nameo ∧ lk.nameo - lk.tasko < 2 ^ 64
  linkedPid : 1 < n → lk.tasko ≤ lk.pido ∧ lk.pido - lk.tasko < 2 ^ 64

/-- The name of call `d` of triple `i`: `f"{i}1"`, and so on. -/
def callName (i d : ℕ) : String := toString i ++ toString d

/-- The arguments of a read. -/
def readArgs (vaddr : ℕ) : List (FieldName × Val) := [(.vaddr, .u64 (.ofNat vaddr)), (.pid, .i32 0)]

/-- The triple for the head, which is not linked. -/
def firstTriple (lk : Lookups) : List Addition :=
  [{ name := "01", msgtype := .readStr .va, argv := readArgs (lk.cur + lk.nameo - lk.tasko) },
    { name := "02", msgtype := .readNum .w32 .va, argv := readArgs (lk.cur + lk.pido - lk.tasko) },
    { name := "03", msgtype := .readAddr .va, argv := readArgs lk.cur }]

/-- A read linked to the pointer of the triple before. -/
def linkedRead (i d : ℕ) (c : Call) (v : ℕ) : Addition :=
  { name := callName i d, msgtype := c, argv := readArgs v,
    linkname := some (callName (i - 1) 3), linkfield := some .result, linktgt := some .vaddr,
    linkopr := some 1 }

/-- One turn of the loop. -/
def linkedTriple (lk : Lookups) (i : ℕ) : List Addition :=
  [linkedRead i 1 (.readStr .va) (lk.nameo - lk.tasko),
    linkedRead i 2 (.readNum .w32 .va) (lk.pido - lk.tasko),
    linkedRead i 3 (.readAddr .va) 0]

def pauseCall : Addition := { name := "000", msgtype := .pauseVm, argv := [(.status, .i32 1)] }

def resumeCall : Addition := { name := "001", msgtype := .resumeVm, argv := [(.status, .i32 1)] }

/-- `prep_batch_pslist_self`, for `n` elements. -/
def pslist (lk : Lookups) (n : ℕ) : List Addition :=
  pauseCall :: firstTriple lk ++ (List.range' 1 (n - 1)).flatMap (linkedTriple lk) ++ [resumeCall]

/-! ### Names -/

/-- A name, read as a number. -/
def nameNumber (name : String) : ℕ := Nat.ofDigitChars 10 name.toList 0

theorem nameNumber_callName {i d : ℕ} (hd : d < 10) : nameNumber (callName i d) = 10 * i + d := by
  unfold nameNumber callName
  rw [String.toList_append, Nat.ofDigitChars_append]
  show Nat.ofDigitChars 10 (Nat.repr d).toList (Nat.ofDigitChars 10 (Nat.repr i).toList 0) = _
  rw [Nat.toList_repr, Nat.toList_repr, Nat.ofDigitChars_ten_toDigits, Nat.toDigits_of_lt_base hd,
    Nat.ofDigitChars_cons_digitChar_of_lt_ten hd]
  rfl

theorem nameNumber_ne {a b : String} (h : nameNumber a ≠ nameNumber b) : a ≠ b :=
  fun heq => h (congrArg nameNumber heq)

theorem callName_zero : callName 0 1 = "01" ∧ callName 0 2 = "02" ∧ callName 0 3 = "03" := by
  decide

/-! ### The requests -/

/-- The request of a read, linked to the reply at position `p`. -/
def followed (v p : ℕ) : Msg := (readAt (.ofNat v)).set .link (.link { prevMsgIx := p })

/-- The requests of a triple, tagged with their types. -/
def tripleRequests (name pid next : Msg) : List (ℕ × Msg) :=
  [((Call.readStr .va).num, name), ((Call.readNum .w32 .va).num, pid),
    ((Call.readAddr .va).num, next)]

/-- The requests of the first triple. -/
def firstRequests (lk : Lookups) : List (ℕ × Msg) :=
  tripleRequests (readAt (.ofNat (lk.cur + lk.nameo - lk.tasko)))
    (readAt (.ofNat (lk.cur + lk.pido - lk.tasko))) (readAt (.ofNat lk.cur))

/-- The requests of triple `i`, linked to the reply at `3 * i`. -/
def linkedRequests (lk : Lookups) (i : ℕ) : List (ℕ × Msg) :=
  tripleRequests (followed (lk.nameo - lk.tasko) (3 * i)) (followed (lk.pido - lk.tasko) (3 * i))
    (followed 0 (3 * i))

/-- The request of a pause or a resumption. -/
def statusRequest : Msg := Msg.empty.set .status (.i32 1)

/-- The requests up to and including `n` triples. -/
def opening (lk : Lookups) (n : ℕ) : List (ℕ × Msg) :=
  (Call.pauseVm.num, statusRequest) :: firstRequests lk ++
    (List.range' 1 (n - 1)).flatMap (linkedRequests lk)

theorem length_opening (lk : Lookups) {n : ℕ} (hn : 0 < n) : (opening lk n).length = 3 * n + 1 := by
  simp [opening, firstRequests, linkedRequests, tripleRequests]
  omega

theorem opening_succ (lk : Lookups) {n : ℕ} (hn : 0 < n) :
    opening lk (n + 1) = opening lk n ++ linkedRequests lk n := by
  obtain ⟨k, rfl⟩ := Nat.exists_eq_succ_of_ne_zero hn.ne'
  simp only [opening, Nat.add_sub_cancel, Nat.succ_eq_add_one, List.range'_1_concat,
    List.flatMap_append]
  simp [Nat.add_comm]

theorem opening_add (lk : Lookups) {n : ℕ} (hn : 0 < n) (k : ℕ) :
    ∃ rest, opening lk (n + k) = opening lk n ++ rest := by
  induction k with
  | zero => exact ⟨[], by simp⟩
  | succ k ih =>
    obtain ⟨rest, hrest⟩ := ih
    refine ⟨rest ++ linkedRequests lk (n + k), ?_⟩
    rw [← Nat.add_assoc, opening_succ lk (by omega), hrest, List.append_assoc]

/-! ### Building the batch -/

/-- The three calls of a triple. -/
def readCalls : List Call := [.readStr .va, .readNum .w32 .va, .readAddr .va]

theorem mem_readCalls {c : Call} :
    c ∈ readCalls ↔ c = .readStr .va ∨ c = .readNum .w32 .va ∨ c = .readAddr .va := by
  simp [readCalls]

/-- A call that can be added. -/
theorem BatchObj.add_eq {bo : BatchObj} {a : Addition} {m : Msg} {link : Option Linkage}
    (hrep : isRepeated a.msgtype.num = true)
    (hargs : a.argv.foldlM (setattr a.msgtype.requestFields) Msg.empty = .ok m)
    (hlink : bo.linkage a = .ok link) :
    ∃ bo', bo.add a = .ok bo' ∧
      bo'.request = bo.request.addCall a.msgtype
        (link.elim m fun link => m.set .link (.link link)) ∧
      bo'.namemap = Function.update bo.namemap a.name (some a.msgtype) ∧
      bo'.namestack = bo.namestack ++ [a.name] := by
  unfold BatchObj.add
  rw [if_pos hrep, hargs, ok_bind, hlink, ok_bind]
  cases link <;> exact ⟨_, rfl, rfl, rfl, rfl⟩

/-- The name `prev` is that of the address read at position `p`. -/
structure PointsTo (bo : BatchObj) (prev : String) (p : ℕ) : Prop where
  ne_empty : prev ≠ ""
  last : bo.namemap prev = some (.readAddr .va)
  first : bo.namestack.findIdx? (· == prev) = some p

/-- A link to such a name. -/
theorem PointsTo.linkage {bo : BatchObj} {i d p v : ℕ} {c : Call}
    (h : PointsTo bo (callName (i - 1) 3) p) (hc : c ∈ readCalls) :
    bo.linkage (linkedRead i d c v) = .ok (some { prevMsgIx := p }) := by
  have hfalse : ¬(callName (i - 1) 3 = "" ∨ (1 : ℕ) = 0) := by
    simp [h.ne_empty]
  unfold BatchObj.linkage
  simp only [linkedRead]
  rw [if_neg hfalse, h.last, h.first]
  rcases mem_readCalls.mp hc with rfl | rfl | rfl <;> rfl

/-- The name still points there when another one has been added. -/
theorem PointsTo.add {bo bo' : BatchObj} {prev name : String} {c : Call} {p : ℕ}
    (h : PointsTo bo prev p) (hne : prev ≠ name)
    (hmap : bo'.namemap = Function.update bo.namemap name (some c))
    (hstack : bo'.namestack = bo.namestack ++ [name]) : PointsTo bo' prev p where
  ne_empty := h.ne_empty
  last := by rw [hmap, Function.update_of_ne hne, h.last]
  first := by
    rw [hstack, List.findIdx?_append, h.first]
    rfl

/-- A linked read is added. -/
theorem PointsTo.add_linkedRead {bo : BatchObj} {reqs : List (ℕ × Msg)} {i d p v : ℕ} {c : Call}
    (h : PointsTo bo (callName (i - 1) 3) p) (hreqs : HoldsRequests bo.request reqs) (hi : 0 < i)
    (hc : c ∈ readCalls) (hd : d < 10) :
    ∃ bo', bo.add (linkedRead i d c v) = .ok bo' ∧
      HoldsRequests bo'.request (reqs ++ [(c.num, followed v p)]) ∧
      PointsTo bo' (callName (i - 1) 3) p ∧
      bo'.namemap = Function.update bo.namemap (callName i d) (some c) ∧
      bo'.namestack = bo.namestack ++ [callName i d] := by
  have hrep : isRepeated c.num = true := by
    rcases mem_readCalls.mp hc with rfl | rfl | rfl <;> rfl
  have hargs : (readArgs v).foldlM (setattr c.requestFields) Msg.empty =
      .ok (readAt (.ofNat v)) := by
    rcases mem_readCalls.mp hc with rfl | rfl | rfl <;> rfl
  have hne : callName (i - 1) 3 ≠ callName i d := by
    apply nameNumber_ne
    rw [nameNumber_callName (by decide), nameNumber_callName hd]
    omega
  obtain ⟨bo', hadd, hrequest, hmap, hstack⟩ := BatchObj.add_eq hrep hargs
    (h.linkage hc)
  refine ⟨bo', hadd, ?_, h.add hne hmap hstack, hmap, hstack⟩
  rw [hrequest]
  exact hreqs.addCall hrep _

/-- The batch object after `n` triples: the next link finds the pointer of the last of them, and
    no later name is taken. -/
structure Filled (lk : Lookups) (bo : BatchObj) (n : ℕ) : Prop where
  requests : HoldsRequests bo.request (opening lk n)
  pointsTo : PointsTo bo (callName (n - 1) 3) (3 * n)
  length : bo.namestack.length = 3 * n + 1
  fresh : ∀ name ∈ bo.namestack, nameNumber name < 10 * n

/-- The first two names of triple `n` come after those of the triples before, and before the
    last. -/
theorem nameNumber_lt_of_fresh {names : List String} {n : ℕ}
    (h : ∀ name ∈ names, nameNumber name < 10 * n) :
    ∀ name ∈ names ++ [callName n 1, callName n 2], nameNumber name < 10 * n + 3 := by
  intro name hname
  rcases List.mem_append.mp hname with hold | hname
  · have := h name hold
    omega
  · rcases List.mem_pair.mp hname with rfl | rfl <;> rw [nameNumber_callName (by decide)] <;>
      omega

/-- So the last name is found where it has been put. -/
theorem findIdx?_callName {names : List String} {n : ℕ}
    (h : ∀ name ∈ names, nameNumber name < 10 * n) :
    (names ++ [callName n 1, callName n 2] ++ [callName n 3]).findIdx? (· == callName n 3) =
      some (names.length + 2) := by
  have hnew : (names ++ [callName n 1, callName n 2]).findIdx? (· == callName n 3) = none := by
    rw [List.findIdx?_eq_none_iff]
    intro name hname
    have hne : name ≠ callName n 3 := by
      apply nameNumber_ne
      rw [nameNumber_callName (by decide)]
      exact (nameNumber_lt_of_fresh h name hname).ne
    simpa using hne
  rw [List.findIdx?_append, hnew]
  simp

/-- A turn of the loop. -/
theorem Filled.succ {lk : Lookups} {bo : BatchObj} {n : ℕ} (h : Filled lk bo n) (hn : 0 < n) :
    ∃ bo', (linkedTriple lk n).foldlM BatchObj.add bo = .ok bo' ∧ Filled lk bo' (n + 1) := by
  obtain ⟨bo₁, hadd₁, hreqs₁, hto₁, -, hstack₁⟩ := h.pointsTo.add_linkedRead (d := 1)
    (v := lk.nameo - lk.tasko) h.requests hn (c := .readStr .va) (by decide) (by decide)
  obtain ⟨bo₂, hadd₂, hreqs₂, hto₂, -, hstack₂⟩ := hto₁.add_linkedRead (d := 2)
    (v := lk.pido - lk.tasko) hreqs₁ hn (c := .readNum .w32 .va) (by decide) (by decide)
  obtain ⟨bo₃, hadd₃, hreqs₃, -, hmap₃, hstack₃⟩ := hto₂.add_linkedRead (d := 3) (v := 0)
    hreqs₂ hn (c := .readAddr .va) (by decide) (by decide)
  have hstack : bo₃.namestack = bo.namestack ++ [callName n 1, callName n 2] ++ [callName n 3] := by
    rw [hstack₃, hstack₂, hstack₁]
    simp
  have hlast : nameNumber (callName n 3) = 10 * n + 3 := nameNumber_callName (by decide)
  refine ⟨bo₃, ?_, ?_, ⟨?_, ?_, ?_⟩, ?_, ?_⟩
  · simp only [linkedTriple, List.foldlM_cons, List.foldlM_nil, hadd₁, hadd₂, hadd₃, ok_bind]
    rfl
  · rw [opening_succ lk hn]
    simpa [linkedRequests, tripleRequests] using hreqs₃
  · apply nameNumber_ne
    rw [Nat.add_sub_cancel, hlast]
    show 10 * n + 3 ≠ 0
    omega
  · rw [hmap₃, Nat.add_sub_cancel, Function.update_self]
  · rw [hstack, Nat.add_sub_cancel, findIdx?_callName h.fresh, h.length]
    rfl
  · simp [hstack, h.length]
    omega
  · intro name hname
    rw [hstack] at hname
    rcases List.mem_append.mp hname with hother | hname
    · have := nameNumber_lt_of_fresh h.fresh name hother
      omega
    · rw [List.mem_singleton.mp hname, hlast]
      omega

/-- The first four calls. -/
theorem filled_one (lk : Lookups) :
    ∃ bo, (pauseCall :: firstTriple lk).foldlM BatchObj.add BatchObj.new = .ok bo ∧
      Filled lk bo 1 := by
  have hstack : ∀ name ∈ ["000", "01", "02", "03"], nameNumber name < 10 := by decide
  refine ⟨_, rfl, ?_, ⟨?_, ?_, ?_⟩, rfl, hstack⟩
  · have hpause := holdsRequests_empty.addCall (c := .pauseVm) rfl statusRequest
    have hname := hpause.addCall (c := .readStr .va) rfl
      (readAt (.ofNat (lk.cur + lk.nameo - lk.tasko)))
    have hpid := hname.addCall (c := .readNum .w32 .va) rfl
      (readAt (.ofNat (lk.cur + lk.pido - lk.tasko)))
    exact hpid.addCall (c := .readAddr .va) rfl (readAt (.ofNat lk.cur))
  · decide
  · rfl
  · rfl

/-- The calls up to and including `n` triples. -/
theorem filled (lk : Lookups) {n : ℕ} (hn : 0 < n) :
    ∃ bo, (pauseCall :: firstTriple lk ++ (List.range' 1 (n - 1)).flatMap (linkedTriple lk)).foldlM
      BatchObj.add BatchObj.new = .ok bo ∧ Filled lk bo n := by
  induction n, hn using Nat.le_induction with
  | base => simpa using filled_one lk
  | succ n hn ih =>
    obtain ⟨bo, hadds, hfilled⟩ := ih
    obtain ⟨bo', htriple, hfilled'⟩ := hfilled.succ hn
    refine ⟨bo', ?_, hfilled'⟩
    have hturn : List.range' 1 (n + 1 - 1) = List.range' 1 (n - 1) ++ [n] := by
      rw [show n + 1 - 1 = n - 1 + 1 by omega, List.range'_1_concat,
        show 1 + (n - 1) = n by omega]
    rw [hturn, List.flatMap_append, ← List.append_assoc, List.foldlM_append, hadds, ok_bind]
    simpa using htriple

/-- **The batch can be made**, for any number of elements. -/
theorem pslist_adds (lk : Lookups) {n : ℕ} (hn : 0 < n) :
    ∃ bo, (pslist lk n).foldlM BatchObj.add BatchObj.new = .ok bo ∧
      HoldsRequests bo.request (opening lk n ++ [(Call.resumeVm.num, statusRequest)]) := by
  obtain ⟨bo, hadds, hfilled⟩ := filled lk hn
  have hlink : bo.linkage resumeCall = .ok none := rfl
  obtain ⟨bo', hadd, hrequest, -, -⟩ := BatchObj.add_eq (m := statusRequest) rfl rfl hlink
  refine ⟨bo', ?_, ?_⟩
  · rw [pslist, List.foldlM_append, hadds, ok_bind, List.foldlM_cons, hadd]
    rfl
  · rw [hrequest]
    exact hfilled.requests.addCall rfl _

/-! ### Positions -/

/-- The reads of triple `i`, linked or not. -/
def triple (lk : Lookups) (i : ℕ) : List Addition :=
  if i = 0 then firstTriple lk else linkedTriple lk i

theorem length_triple (lk : Lookups) (i : ℕ) : (triple lk i).length = 3 := by
  unfold triple
  split <;> rfl

/-- One triple for each element. -/
theorem pslist_eq (lk : Lookups) {n : ℕ} (hn : 0 < n) :
    pslist lk n = pauseCall :: ((List.range n).flatMap (triple lk) ++ [resumeCall]) := by
  obtain ⟨k, rfl⟩ := Nat.exists_eq_succ_of_ne_zero hn.ne'
  have hturns : (List.range' 1 k).flatMap (triple lk) =
      (List.range' 1 k).flatMap (linkedTriple lk) := by
    refine List.flatMap_congr fun i hi => ?_
    have := (List.mem_range'_1.mp hi).1
    exact if_neg (by omega)
  rw [pslist, List.range_eq_range', List.range'_succ, List.flatMap_cons, hturns,
    Nat.succ_sub_one]
  simp [triple]

/-- Call `d` of triple `i`. -/
theorem pslist_getElem? (lk : Lookups) {n i d : ℕ} (hi : i < n) (hd : d < 3) :
    ∃ a, (pslist lk n)[3 * i + d + 1]? = some a ∧ a.name = callName i (d + 1) ∧
      readCalls[d]? = some a.msgtype := by
  have hget : (pslist lk n)[3 * i + d + 1]? = (triple lk i)[d]? := by
    have hlt : 3 * i + d < ((List.range n).flatMap (triple lk)).length := by
      rw [List.length_flatMap]
      simp [length_triple]
      omega
    rw [pslist_eq lk (by omega), List.getElem?_cons_succ, List.getElem?_append_left hlt,
      getElem?_flatMap (length_triple lk) _ _ hd, List.getElem?_range hi, Option.bind_some]
  rw [hget, triple]
  obtain ⟨hname₁, hname₂, hname₃⟩ := callName_zero
  by_cases hzero : i = 0
  · subst hzero
    rw [if_pos rfl]
    interval_cases d
    · exact ⟨_, rfl, hname₁.symm, rfl⟩
    · exact ⟨_, rfl, hname₂.symm, rfl⟩
    · exact ⟨_, rfl, hname₃.symm, rfl⟩
  · rw [if_neg hzero]
    interval_cases d <;> exact ⟨_, rfl, rfl, rfl⟩

end Furnace.App
