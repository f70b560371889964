import Furnace.App.Buffers
import Furnace.App.ListBatch
import Furnace.Lib.Chain

namespace Furnace.App

open Furnace.Proto Furnace.Lib Furnace.Vmi

/-!
# The process-list pipeline

What the process-list batch reads.  Every triple behind the first gets its addresses from the
pointer that the triple before has read, through the link search of `process_link`: the search
takes the entry of the reply field that is one below the number of string reads so far, as one
populated field is numbered above, and that is the last pointer.

* `Memory` — what the paused guest holds, and the list in it.
* `Chased` — the invariant of the run: the replies, the cache and the two cursors.
* `Chased.next` / `Chased.run` — one linked triple, and all of them.
* `OneByOne` — the same list, read with three calls for each element.
* `pslist_pipeline` — **both read the same**, whatever the length of the list.
-/

variable {G : Type}

/-! ### Addresses -/

namespace Lookups

def head (lk : Lookups) : UInt64 := .ofNat lk.cur

/-- From an entry of the list to the name of its process, as the sums wrap around. -/
def toName (lk : Lookups) : UInt64 := .ofNat lk.nameo - .ofNat lk.tasko

def toPid (lk : Lookups) : UInt64 := .ofNat lk.pido - .ofNat lk.tasko

end Lookups

/-- A sum of the app's, as an address. -/
theorem ofNat_add_sub {a b c : ℕ} (h : c ≤ a + b) :
    UInt64.ofNat (a + b - c) = .ofNat a + (.ofNat b - .ofNat c) := by
  rw [UInt64.ofNat_sub h, UInt64.ofNat_add, UInt64.sub_eq_add_neg, UInt64.sub_eq_add_neg,
    UInt64.add_assoc]

/-! ### The list in memory -/

/-- What the reads of process `0` find at the addresses that can be read. -/
structure Memory where
  string : UInt64 → Option Bytes
  word : UInt64 → Option UInt32
  pointer : UInt64 → Option UInt64

/-- One element of the list: the name and the pid of the process, and the next pointer. -/
structure Element where
  name : Bytes
  pid : UInt32
  next : UInt64

namespace Memory

/-- In the states `paused` of the guest the reads are answered from the memory, and lead to such
    states again. -/
structure HeldBy (mem : Memory) (env : Env G) (paused : G → Prop) : Prop where
  string : ∀ g a s, paused g → mem.string a = some s →
    ∃ g', env.exec (.readStr (.va a 0)) g = (some s, g') ∧ paused g'
  word : ∀ g a v, paused g → mem.word a = some v →
    ∃ g', env.exec (.readNum .w32 (.va a 0)) g = ((.success, some v.toUInt64), g') ∧ paused g'
  pointer : ∀ g a v, paused g → mem.pointer a = some v →
    ∃ g', env.exec (.readAddr (.va a 0)) g = ((.success, some v), g') ∧ paused g'

/-- The element whose entry is at `a`, if all of it can be read. -/
def elementAt (mem : Memory) (lk : Lookups) (a : UInt64) : Option Element := do
  let name ← mem.string (a + lk.toName)
  let pid ← mem.word (a + lk.toPid)
  let next ← mem.pointer a
  some ⟨name, pid, next⟩

/-- The element that `i` next pointers lead to from the head. -/
def element (mem : Memory) (lk : Lookups) (i : ℕ) : Option Element :=
  (follow mem.pointer i lk.head).bind (mem.elementAt lk)

theorem elementAt_eq_some {mem : Memory} {lk : Lookups} {a : UInt64} {e : Element}
    (h : mem.elementAt lk a = some e) :
    mem.string (a + lk.toName) = some e.name ∧ mem.word (a + lk.toPid) = some e.pid ∧
      mem.pointer a = some e.next := by
  unfold elementAt at h
  obtain ⟨name, hname, h⟩ := Option.bind_eq_some_iff.mp h
  obtain ⟨pid, hpid, h⟩ := Option.bind_eq_some_iff.mp h
  obtain ⟨next, hnext, h⟩ := Option.bind_eq_some_iff.mp h
  cases h
  exact ⟨hname, hpid, hnext⟩

/-- The elements from the entry `a` on. -/
def Lists (mem : Memory) (lk : Lookups) : UInt64 → List Element → Prop
  | _, [] => True
  | a, e :: es => mem.elementAt lk a = some e ∧ mem.Lists lk e.next es

/-- The first `n` elements, when they can be read. -/
theorem exists_lists {mem : Memory} {lk : Lookups} {n : ℕ} {a : UInt64}
    (h : ∀ i < n, ((follow mem.pointer i a).bind (mem.elementAt lk)).isSome) :
    ∃ es : List Element, es.length = n ∧ mem.Lists lk a es ∧
      ∀ i < n, es[i]? = (follow mem.pointer i a).bind (mem.elementAt lk) := by
  induction n generalizing a with
  | zero => exact ⟨[], rfl, trivial, fun i hi => absurd hi (Nat.not_lt_zero i)⟩
  | succ n ih =>
    obtain ⟨e, he⟩ := Option.isSome_iff_exists.mp (h 0 (Nat.succ_pos n))
    have he : mem.elementAt lk a = some e := he
    obtain ⟨-, -, hnext⟩ := elementAt_eq_some he
    -- the others are found from the next pointer on
    obtain ⟨es, hlen, hlists, hes⟩ := ih (a := e.next) fun i hi => by
      have := h (i + 1) (by omega)
      rwa [follow_of_next hnext] at this
    refine ⟨e :: es, by simp [hlen], ⟨he, hlists⟩, fun i hi => ?_⟩
    cases i with
    | zero => exact he.symm
    | succ i =>
      rw [List.getElem?_cons_succ, hes i (by omega), follow_of_next hnext]

end Memory

/-! ### Three reads -/

/-- The replies to the three reads of an element. -/
def elementReplies (e : Element) : List (ℕ × Msg) :=
  [((Call.readStr .va).replyNum, resultWith (.str e.name) .success),
    ((Call.readNum .w32 .va).replyNum, resultWith (.u32 e.pid) .success),
    ((Call.readAddr .va).replyNum, resultWith (.u64 e.next) .success)]

section Triple

variable {env : Env G} {msgIn out : VMIMessage} {w₀ w : World G} {l l₁ : LinkState}
  {rs before after : List (ℕ × Msg)} {mem : Memory} {paused : G → Prop} {lk : Lookups}

/-- **A triple reads an element**, when its requests come out with the addresses of that
    element.  Only the first of them may move the link state. -/
theorem arrives_triple (h : Arrives env msgIn w₀ before.length l w out rs)
    (hmem : mem.HeldBy env paused) (hpaused : paused w.guest) {a : UInt64} {e : Element}
    (he : mem.elementAt lk a = some e) {x y z x' y' z' : Msg}
    (hreqs : HoldsRequests msgIn (before ++ (tripleRequests x y z ++ after)))
    (hx : LinkedRequest (.readStr .va) (bucket (Call.readStr .va).num before).length msgIn out l x
      l₁ x')
    (hy : ∀ index out, LinkedRequest (.readNum .w32 .va) index msgIn out
      { l₁ with msgno := l₁.msgno + 1 } y { l₁ with msgno := l₁.msgno + 1 } y')
    (hz : ∀ index out, LinkedRequest (.readAddr .va) index msgIn out
      { l₁ with msgno := l₁.msgno + 2 } z { l₁ with msgno := l₁.msgno + 2 } z')
    (hname : location .va x' = some (.va (a + lk.toName) 0))
    (hpid : location .va y' = some (.va (a + lk.toPid) 0))
    (hnext : location .va z' = some (.va a 0)) :
    ∃ w' out', Arrives env msgIn w₀ (before.length + 3) { l₁ with msgno := l₁.msgno + 3 } w' out'
      (rs ++ elementReplies e) ∧ paused w'.guest := by
  obtain ⟨hstring, hword, hpointer⟩ := Memory.elementAt_eq_some he
  obtain ⟨g₁, hread₁, hpaused₁⟩ := hmem.string w.guest _ _ hpaused hstring
  obtain ⟨g₂, hread₂, hpaused₂⟩ := hmem.word g₁ _ _ hpaused₁ hword
  obtain ⟨g₃, hread₃, hpaused₃⟩ := hmem.pointer g₂ _ _ hpaused₂ hpointer
  let w₁ := performed w (.readStr (.va (a + lk.toName) 0)) g₁
  let w₂ := performed w₁ (.readNum .w32 (.va (a + lk.toPid) 0)) g₂
  have hbody₁ := readStrBody_run hname hread₁
  have hbody₂ := readNumBody_run (w := w₁) hpid hread₂
  have hbody₃ := readAddrBody_run (w := w₂) hnext hread₃
  obtain ⟨out₁, h₁⟩ := h.linked (c := .readStr .va) hreqs rfl rfl hx hbody₁
  have hreqs₂ : HoldsRequests msgIn ((before ++ [((Call.readStr .va).num, x)]) ++
      ((Call.readNum .w32 .va).num, y) :: ((Call.readAddr .va).num, z) :: after) := by
    rw [List.append_assoc]
    exact hreqs
  obtain ⟨out₂, h₂⟩ := h₁.linked (c := .readNum .w32 .va) hreqs₂ rfl rfl (hy _ _) hbody₂
  have hreqs₃ : HoldsRequests msgIn ((before ++ [((Call.readStr .va).num, x)] ++
      [((Call.readNum .w32 .va).num, y)]) ++ ((Call.readAddr .va).num, z) :: after) := by
    rw [List.append_assoc]
    exact hreqs₂
  obtain ⟨out₃, h₃⟩ := h₂.linked (c := .readAddr .va) hreqs₃ rfl rfl (hz _ _) hbody₃
  refine ⟨performed w₂ (.readAddr (.va a 0)) g₃, out₃, ?_, hpaused₃⟩
  simpa [elementReplies, widthResult] using h₃

end Triple

/-! ### The link to the triple before -/

/-- The replies to a pause and to the reads of some elements. -/
def listReplies (es : List Element) : List (ℕ × Msg) :=
  (Call.pauseVm.replyNum, statusOnly .success) :: es.flatMap elementReplies

@[simp] theorem length_elementReplies (e : Element) : (elementReplies e).length = 3 := rfl

@[simp] theorem length_listReplies (es : List Element) :
    (listReplies es).length = 3 * es.length + 1 := by
  simp [listReplies, List.length_flatMap, Nat.mul_comm]

theorem listReplies_concat (es : List Element) (e : Element) :
    listReplies (es ++ [e]) = listReplies es ++ elementReplies e := by
  simp [listReplies]

/-- The next pointers are in the field of their own type. -/
theorem bucket_listReplies (es : List Element) :
    bucket (Call.readAddr .va).replyNum (listReplies es) =
      es.map fun e => resultWith (.u64 e.next) .success := by
  unfold listReplies
  rw [bucket_cons, if_neg (by decide), bucket_flatMap, List.map_eq_flatMap]
  rfl

/-- There have been as many string reads as there are triples. -/
theorem length_bucket_opening (lk : Lookups) {n : ℕ} (hn : 0 < n) :
    (bucket (Call.readStr .va).num (opening lk n)).length = n := by
  have hfirst : bucket (Call.readStr .va).num
      ((Call.pauseVm.num, statusRequest) :: firstRequests lk) =
      [readAt (.ofNat (lk.cur + lk.nameo - lk.tasko))] := rfl
  have hturn : ∀ i, bucket (Call.readStr .va).num (linkedRequests lk i) =
      [followed (lk.nameo - lk.tasko) (3 * i)] := fun _ => rfl
  rw [opening, bucket_append, bucket_flatMap, hfirst]
  simp [hturn, List.length_flatMap]
  omega

section Search

variable {env : Env G} {msgIn out : VMIMessage} {w₀ w : World G} {l : LinkState} {i : ℕ}
  {es : List Element} {e : Element}

/-- The populated reply fields behind the first triple. -/
theorem replyFieldsOf_listReplies (h : Prefix msgIn i l out (listReplies (es ++ [e]))) :
    replyFieldsOf out = [75, 65, 47, 35] := by
  have htype : ∀ n, n ∈ out.type ↔ n ∈ [35, 47, 65, 75] := by
    intro n
    rw [h.type]
    constructor
    · intro hn
      obtain ⟨x, hx, rfl⟩ := List.mem_map.mp hn
      rcases List.mem_cons.mp hx with rfl | hx
      · decide
      · obtain ⟨e', -, hx⟩ := List.mem_flatMap.mp hx
        have htag : x.1 ∈ (elementReplies e').map Prod.fst := List.mem_map_of_mem hx
        exact (by decide : ∀ n ∈ [75, 47, 65], n ∈ [35, 47, 65, 75]) x.1 htag
    · intro hn
      rw [listReplies_concat]
      simp [listReplies, elementReplies, Call.replyNum, Call.num] at hn ⊢
      omega
  have hpopulated : (List.range' 1 122).filter out.isPopulated =
      (List.range' 1 122).filter fun n => decide (n ∈ [35, 47, 65, 75]) := by
    refine List.filter_congr fun n _ => ?_
    rw [Bool.eq_iff_iff, decide_eq_true_iff, ← htype n, ← h.populated n]
    simp [VMIMessage.isPopulated]
  unfold replyFieldsOf
  rw [hpopulated]
  decide

/-- The reply type in front is that of an address read. -/
theorem type_listReplies (h : Prefix msgIn i l out (listReplies (es ++ [e]))) :
    out.type[3 * (es.length + 1)]? = some (Call.readAddr .va).replyNum := by
  have hsplit : listReplies (es ++ [e]) = (listReplies es ++ (elementReplies e).take 2) ++
      [((Call.readAddr .va).replyNum, resultWith (.u64 e.next) .success)] := by
    rw [listReplies_concat, List.append_assoc]
    rfl
  have hlength : 3 * (es.length + 1) =
      ((listReplies es ++ (elementReplies e).take 2).map Prod.fst).length := by
    simp
    omega
  rw [h.type, hsplit, List.map_append, hlength]
  simp

/-- So the call is one, too. -/
theorem request_type_listReplies (h : Prefix msgIn i l out (listReplies (es ++ [e]))) :
    msgIn.type[3 * (es.length + 1)]? = some (Call.readAddr .va).num := by
  have hlen := h.length
  rw [length_listReplies, List.length_append, List.length_singleton] at hlen
  obtain ⟨c, hc, hget⟩ := h.calls (3 * (es.length + 1)) (by omega)
  rw [type_listReplies h, Option.some.injEq] at hget
  rw [hc, Call.replyNum_injective hget]

/-- **The search finds the pointer of the triple before.** -/
theorem priorResult_listReplies (h : Prefix msgIn i l out (listReplies (es ++ [e])))
    (hmiss : l.cache (3 * (es.length + 1)) = none) (htype : l.nthType ≤ 3 * (es.length + 1))
    (hfield : l.nthFieldIx ≤ es.length) :
    priorResult { prevMsgIx := 3 * (es.length + 1) } (Call.readAddr .va).replyNum (es.length + 1)
      out l = .ok ({ l with
        nthType := 3 * (es.length + 1)
        nthFieldIx := es.length
        cache := Function.update l.cache (3 * (es.length + 1)) (some e.next) }, .ok e.next) := by
  have hlen := h.length
  rw [length_listReplies, List.length_append, List.length_singleton] at hlen
  have hget := type_listReplies h
  have hscanned : scannedType out (3 * (es.length + 1)) l.nthType = some 65 := by
    rw [scannedType, if_pos htype, hget]
    rfl
  have htarget : targetType out l (3 * (es.length + 1)) = 65 := by
    rw [targetType, hscanned]
    rfl
  -- one populated field is numbered above it
  have hfields := replyFieldsOf_listReplies h
  have hhit : searchHit (es.length + 1) 65 out l.nthFieldIx =
      some (resultWith (.u64 e.next) .success) := by
    have hsub : out.sub 65 = (es ++ [e]).map fun e => resultWith (.u64 e.next) .success := by
      rw [h.sub 65 rfl]
      exact bucket_listReplies (es ++ [e])
    have hidx : [75, 65, 47, 35].idxOf 65 = 1 := rfl
    unfold searchHit
    rw [hfields, hidx, if_pos ⟨by decide, by omega⟩, Nat.add_sub_cancel, hsub]
    simp
  rw [h.priorResult_miss (by omega) hmiss, htarget, searchFields_eq, hhit]
  simp only [fieldsToTarget, fieldsPastTarget, hfields]
  unfold scanned
  rw [hscanned]
  rfl

end Search

/-! ### Linked requests -/

section Linked

variable {msgIn out : VMIMessage} {l l' : LinkState} {c : Call} {index p t v : ℕ} {u : UInt64}

/-- The request of a linked read, with the operand `u` added. -/
def following (v p : ℕ) (u : UInt64) : Msg := (followed v p).set .vaddr (.u64 (.ofNat v + u))

theorem location_following (v p : ℕ) (u : UInt64) :
    location .va (following v p u) = some (.va (u + .ofNat v) 0) := by
  rw [UInt64.add_comm]
  rfl

/-- The three addresses that a linked triple reads, from the entry at `u`. -/
theorem location_following_toName {lk : Lookups} (h : lk.tasko ≤ lk.nameo) (p : ℕ) (u : UInt64) :
    location .va (following (lk.nameo - lk.tasko) p u) = some (.va (u + lk.toName) 0) := by
  rw [location_following, UInt64.ofNat_sub h, Lookups.toName]

theorem location_following_toPid {lk : Lookups} (h : lk.tasko ≤ lk.pido) (p : ℕ) (u : UInt64) :
    location .va (following (lk.pido - lk.tasko) p u) = some (.va (u + lk.toPid) 0) := by
  rw [location_following, UInt64.ofNat_sub h, Lookups.toPid]

theorem location_following_zero (p : ℕ) (u : UInt64) :
    location .va (following 0 p u) = some (.va u 0) := by
  rw [location_following]
  simp

/-- A link that finds its operand. -/
theorem linkedRequest_following (hc : c ∈ readCalls) (hguard : l.nthType < l.msgno)
    (ht : msgIn.type[p]? = some t)
    (hprior : priorResult { prevMsgIx := p } (t + 1) index out l = .ok (l', .ok u)) :
    LinkedRequest c index msgIn out l (followed v p) l' (following v p u) := by
  refine ⟨u, ?_⟩
  rw [processLink_of_prior hguard ht hprior]
  rcases mem_readCalls.mp hc with rfl | rfl | rfl <;> rfl

/-- A value in the cache is taken from there. -/
theorem linkedRequest_cached (hc : c ∈ readCalls) (hguard : l.nthType < l.msgno)
    (ht : msgIn.type[p]? = some t) (hcache : l.cache p = some u) :
    LinkedRequest c index msgIn out l (followed v p) l (following v p u) := by
  refine linkedRequest_following hc hguard ht ?_
  unfold priorResult
  rw [hcache]

end Linked

/-! ### The run -/

/-- The state behind the triples of the elements `es`: their replies, no operand in the cache
    for what is to come, and cursors that have not passed it. -/
structure Chased (env : Env G) (msgIn : VMIMessage) (w₀ : World G) (l : LinkState) (w : World G)
    (out : VMIMessage) (es : List Element) : Prop where
  arrives : Arrives env msgIn w₀ (3 * es.length + 1) l w out (listReplies es)
  cache : ∀ p, 3 * es.length ≤ p → l.cache p = none
  nthType : l.nthType ≤ 3 * es.length
  nthFieldIx : l.nthFieldIx < es.length

section Run

variable {env : Env G} {msgIn out : VMIMessage} {w₀ w : World G} {l : LinkState}
  {mem : Memory} {paused : G → Prop} {lk : Lookups}

/-- **One linked triple reads one element**: the one whose address the triple before has read. -/
theorem Chased.next {es : List Element} {e e' : Element} {after : List (ℕ × Msg)}
    (h : Chased env msgIn w₀ l w out (es ++ [e])) (hmem : mem.HeldBy env paused)
    (hpaused : paused w.guest) (he : mem.elementAt lk e.next = some e')
    (hoffsets : lk.tasko ≤ lk.nameo ∧ lk.tasko ≤ lk.pido)
    (hreqs : HoldsRequests msgIn (opening lk (es.length + 1) ++
      (linkedRequests lk (es.length + 1) ++ after))) :
    ∃ l' w' out', Chased env msgIn w₀ l' w' out' (es ++ [e] ++ [e']) ∧ paused w'.guest := by
  have hlen : (es ++ [e]).length = es.length + 1 := by simp
  have hopening := length_opening lk (Nat.succ_pos es.length)
  obtain ⟨harrives, hcache, htype, hfield⟩ := h
  rw [hlen] at hcache htype hfield
  have hpre := harrives.isPrefix
  have hmsgno : l.msgno = 3 * (es.length + 1) + 1 := by
    rw [hpre.msgno, hlen]
  rw [hlen, ← hopening] at harrives
  -- the string read finds the pointer and leaves it in the cache for the others
  have ht := request_type_listReplies hpre
  have hprior := priorResult_listReplies hpre (hcache _ le_rfl) htype (by omega)
  let l₁ : LinkState := { l with
    nthType := 3 * (es.length + 1)
    nthFieldIx := es.length
    cache := Function.update l.cache (3 * (es.length + 1)) (some e.next) }
  have hcached : l₁.cache (3 * (es.length + 1)) = some e.next := Function.update_self ..
  have hguard : l₁.nthType < l₁.msgno := by
    show 3 * (es.length + 1) < l.msgno
    omega
  have hstr : LinkedRequest (.readStr .va)
      (bucket (Call.readStr .va).num (opening lk (es.length + 1))).length msgIn out l
      (followed (lk.nameo - lk.tasko) (3 * (es.length + 1))) l₁
      (following (lk.nameo - lk.tasko) (3 * (es.length + 1)) e.next) := by
    rw [length_bucket_opening lk (Nat.succ_pos _)]
    exact linkedRequest_following (by decide) (by omega) ht hprior
  obtain ⟨w', out', harrives', hpaused'⟩ := arrives_triple harrives hmem hpaused he hreqs hstr
    (fun _ _ => linkedRequest_cached (by decide) (Nat.lt_add_right 1 hguard) ht hcached)
    (fun _ _ => linkedRequest_cached (by decide) (Nat.lt_add_right 2 hguard) ht hcached)
    (location_following_toName hoffsets.1 _ _) (location_following_toPid hoffsets.2 _ _)
    (location_following_zero _ _)
  have hlen' : (es ++ [e] ++ [e']).length = es.length + 2 := by simp
  refine ⟨{ l₁ with msgno := l₁.msgno + 3 }, w', out', ⟨?_, ?_, ?_, ?_⟩, hpaused'⟩
  · rw [hopening] at harrives'
    rw [hlen', listReplies_concat]
    exact harrives'
  · intro p hp
    rw [hlen'] at hp
    show Function.update l.cache _ _ p = none
    rw [Function.update_of_ne (by omega)]
    exact hcache p (by omega)
  · show 3 * (es.length + 1) ≤ _
    omega
  · show es.length < _
    omega

/-- **The triples read the list**, however long it is. -/
theorem Chased.run {es todo : List Element} {e : Element} {last : List (ℕ × Msg)}
    (h : Chased env msgIn w₀ l w out (es ++ [e])) (hmem : mem.HeldBy env paused)
    (hpaused : paused w.guest) (hlists : mem.Lists lk e.next todo)
    (hoffsets : todo ≠ [] → lk.tasko ≤ lk.nameo ∧ lk.tasko ≤ lk.pido)
    (hreqs : HoldsRequests msgIn (opening lk (es.length + 1 + todo.length) ++ last)) :
    ∃ l' w' out', Chased env msgIn w₀ l' w' out' (es ++ [e] ++ todo) ∧ paused w'.guest := by
  -- the elements that are left are read one by one
  induction todo generalizing es e l w out with
  | nil =>
    refine ⟨l, w, out, ?_, hpaused⟩
    rw [List.append_nil]
    exact h
  | cons e' todo ih =>
    obtain ⟨he, hlists⟩ := hlists
    have hoffsets := hoffsets (List.cons_ne_nil e' todo)
    have hlen : es.length + 1 + (e' :: todo).length = es.length + 1 + 1 + todo.length := by
      rw [List.length_cons]
      omega
    rw [hlen] at hreqs
    obtain ⟨after, hnext⟩ : ∃ after, HoldsRequests msgIn (opening lk (es.length + 1) ++
        (linkedRequests lk (es.length + 1) ++ after)) := by
      obtain ⟨rest, hrest⟩ := opening_add lk (Nat.succ_pos (es.length + 1)) todo.length
      rw [hrest, opening_succ lk (Nat.succ_pos _), List.append_assoc, List.append_assoc] at hreqs
      exact ⟨_, hreqs⟩
    obtain ⟨l', w', out', hchased, hpaused'⟩ := h.next hmem hpaused he hoffsets hnext
    have hlen' : (es ++ [e]).length + 1 = es.length + 1 + 1 := by simp
    rw [← hlen'] at hreqs
    obtain ⟨l'', w'', out'', hend, hpaused''⟩ := ih hchased hpaused' hlists
      (fun _ => hoffsets) hreqs
    refine ⟨l'', w'', out'', ?_, hpaused''⟩
    rw [List.append_assoc] at hend
    exact hend

/-- A request that has no link stays as it is. -/
theorem linkedRequest_readAt (c : Call) (index : ℕ) (out : VMIMessage) (l : LinkState)
    (vaddr : UInt64) : LinkedRequest c index msgIn out l (readAt vaddr) l (readAt vaddr) :=
  ⟨rfl, rfl⟩

/-- The pause and the first triple. -/
theorem chased_first (hmem : mem.HeldBy env paused) (hpause : paused (env.exec .pause w₀.guest).2)
    {n : ℕ} (hfits : lk.Fits n) {e : Element} (he : mem.elementAt lk lk.head = some e)
    {after : List (ℕ × Msg)} (hreqs : HoldsRequests msgIn (opening lk 1 ++ after)) :
    ∃ l w out, Chased env msgIn w₀ l w out [e] ∧ paused w.guest := by
  let w₁ := (w₀.exec env .pause).2
  have hbody : (handlerOf .pauseVm).body env (.ok statusRequest) w₀ =
      .ok (w₁, .ok (statusOnly .success)) := rfl
  have hstart : Arrives env msgIn w₀ ([] : List (ℕ × Msg)).length {} w₀ _ [] :=
    Arrives.start env msgIn w₀
  obtain ⟨out₁, h₁⟩ := hstart.unlinked hreqs rfl rfl hbody
  have hname : location .va (readAt (.ofNat (lk.cur + lk.nameo - lk.tasko))) =
      some (.va (lk.head + lk.toName) 0) := by
    rw [ofNat_add_sub hfits.name.1]
    rfl
  have hpid : location .va (readAt (.ofNat (lk.cur + lk.pido - lk.tasko))) =
      some (.va (lk.head + lk.toPid) 0) := by
    rw [ofNat_add_sub hfits.pid.1]
    rfl
  obtain ⟨w₂, out₂, h₂, hpaused⟩ := arrives_triple (w := w₁) h₁ hmem hpause he hreqs
    (linkedRequest_readAt _ _ _ _ _) (fun _ _ => linkedRequest_readAt _ _ _ _ _)
    (fun _ _ => linkedRequest_readAt _ _ _ _ _) hname hpid rfl
  exact ⟨_, w₂, out₂, ⟨h₂, fun _ _ => rfl, Nat.zero_le _, Nat.zero_lt_one⟩, hpaused⟩

/-- **The whole batch.** -/
theorem pslist_run (hmem : mem.HeldBy env paused) (hpause : paused (env.exec .pause w₀.guest).2)
    {es : List Element} (hpos : 0 < es.length) (hfits : lk.Fits es.length)
    (hlists : mem.Lists lk lk.head es)
    (hreqs : HoldsRequests msgIn
      (opening lk es.length ++ [(Call.resumeVm.num, statusRequest)])) :
    ∃ l w out, Arrives env msgIn w₀ (3 * es.length + 2) l w out
      (listReplies es ++ [(Call.resumeVm.replyNum, statusOnly .success)]) := by
  obtain ⟨e, todo, rfl⟩ := List.exists_cons_of_length_pos hpos
  obtain ⟨he, hlists⟩ := hlists
  have hlen : (e :: todo).length = ([] : List Element).length + 1 + todo.length := by
    simp [Nat.add_comm]
  -- the pause and the first triple, then the others
  obtain ⟨rest, hrest⟩ := opening_add lk Nat.zero_lt_one todo.length
  have hfirst : HoldsRequests msgIn (opening lk 1 ++
      (rest ++ [(Call.resumeVm.num, statusRequest)])) := by
    rw [← List.append_assoc, ← hrest, Nat.add_comm 1]
    exact hreqs
  obtain ⟨l₁, w₁, out₁, hchased₁, hpaused₁⟩ := chased_first hmem hpause hfits he
    hfirst
  have hoffsets : todo ≠ [] → lk.tasko ≤ lk.nameo ∧ lk.tasko ≤ lk.pido := by
    intro hne
    have hlt : 1 < (e :: todo).length := by
      have := List.length_pos_of_ne_nil hne
      simpa using this
    exact ⟨(hfits.linkedName hlt).1, (hfits.linkedPid hlt).1⟩
  rw [hlen] at hreqs
  have hchased₁ : Chased env msgIn w₀ l₁ w₁ out₁ ([] ++ [e]) := hchased₁
  obtain ⟨l₂, w₂, out₂, hchased₂, -⟩ := hchased₁.run hmem hpaused₁ hlists hoffsets hreqs
  have harrives : Arrives env msgIn w₀ (3 * (e :: todo).length + 1) l₂ w₂ out₂
      (listReplies (e :: todo)) := hchased₂.arrives
  rw [← hlen] at hreqs
  rw [← length_opening lk hpos] at harrives
  -- and the resumption
  have hbody : (handlerOf .resumeVm).body env (.ok statusRequest) w₂ =
      .ok ((w₂.exec env .resume).2, .ok (statusOnly .success)) := rfl
  obtain ⟨out₃, h₃⟩ := harrives.unlinked hreqs rfl rfl hbody
  rw [List.length_append, length_opening lk hpos] at h₃
  exact ⟨_, _, out₃, h₃⟩

end Run

/-! ### The results -/

/-- The replies of triple `i` in the list. -/
theorem listReplies_getElem? {es : List Element} {e : Element} {i d : ℕ} (he : es[i]? = some e)
    (hd : d < 3) (last : List (ℕ × Msg)) :
    (listReplies es ++ last)[3 * i + d + 1]? = (elementReplies e)[d]? := by
  have hi := (List.getElem?_eq_some_iff.mp he).1
  have hlt : 3 * i + d < (es.flatMap elementReplies).length := by
    rw [List.length_flatMap]
    simp
    omega
  rw [listReplies, List.cons_append, List.getElem?_cons_succ, List.getElem?_append_left hlt,
    getElem?_flatMap length_elementReplies _ _ hd, he, Option.bind_some]

/-- The dict at position `p` has a name, a result and the status `VMI_SUCCESS`. -/
def Gives (ds : List ResultDict) (p : ℕ) (name : String) (v : Val) : Prop :=
  ∃ d, ds[p]? = some d ∧ d .name = some (.label name) ∧ d .result = some (.field v) ∧
    d .status = some (.field (.i32 0))

/-- The three dicts of triple `i` report the element. -/
structure Reports (ds : List ResultDict) (i : ℕ) (e : Element) : Prop where
  name : Gives ds (3 * i + 1) (callName i 1) (.str e.name)
  pid : Gives ds (3 * i + 2) (callName i 2) (.u32 e.pid)
  next : Gives ds (3 * i + 3) (callName i 3) (.u64 e.next)

/-- A dict that shows a result gives it. -/
theorem Shows.gives {ds : List ResultDict} {p : ℕ} {d : ResultDict} {name : String} {c : Call}
    {t : FieldType} {v : Val} (h : Shows d name c (resultWith v .success))
    (hd : ds[p]? = some d) (hc : c.replyFields = resultStatus t) : Gives ds p name v := by
  have hfield := h.field
  rw [hc] at hfield
  exact ⟨d, hd, h.label, hfield ⟨.result, 1, t⟩ (by simp [resultStatus]),
    hfield ⟨.status, 2, .int32⟩ (by simp [resultStatus])⟩

section Results

variable {env : Env G} {w : World G} {lk : Lookups} {bo : BatchObj} {n : ℕ} {es : List Element}

/-- The dict of call `d` of triple `i` shows its reply. -/
theorem shows_reply {rs : List (ℕ × Msg)} {ds : List ResultDict}
    (hproduced : ∀ j < 3 * n + 2, ∃ c m, Produced env bo.request w j c m ∧
      rs[j]? = some (c.replyNum, m))
    (hds : ∀ i a, (pslist lk n)[i]? = some a → ∃ m d, Produced env bo.request w i a.msgtype m ∧
      ds[i]? = some d ∧ Shows d a.name a.msgtype m)
    {i d : ℕ} (hi : i < n) (hd : d < 3) {c : Call} (hc : readCalls[d]? = some c) {k : ℕ} {m : Msg}
    (hm : rs[3 * i + d + 1]? = some (k, m)) :
    ∃ dict, ds[3 * i + d + 1]? = some dict ∧ Shows dict (callName i (d + 1)) c m := by
  obtain ⟨a, ha, hname, hcall⟩ := pslist_getElem? lk hi hd
  rw [hc, Option.some.injEq] at hcall
  obtain ⟨m₁, dict, hprod₁, hdict, hshows⟩ := hds _ a ha
  obtain ⟨c₂, m₂, hprod₂, hget⟩ := hproduced (3 * i + d + 1) (by omega)
  -- the reply that was produced is the one that the run has recorded
  obtain ⟨-, rfl⟩ := hprod₁.unique hprod₂
  rw [hm, Option.some.injEq, Prod.mk.injEq] at hget
  rw [hname, ← hcall, ← hget.2] at hshows
  exact ⟨dict, hdict, hshows⟩

/-- **What the triples report.** -/
theorem reports_of_arrives {l : LinkState} {w' : World G} {out : VMIMessage}
    (hadds : (pslist lk es.length).foldlM BatchObj.add BatchObj.new = .ok bo)
    (h : Arrives env bo.request w (3 * es.length + 2) l w' out
      (listReplies es ++ [(Call.resumeVm.replyNum, statusOnly .success)]))
    (hpos : 0 < es.length) (hlen : 3 * es.length + 2 ≤ maxTypes) :
    processProtobuf env bo.request w = .ok (w', out) ∧ out.error = none ∧
      ∃ ds, (bo.serialize.received out).results = (ds, none) ∧ ds.length = 3 * es.length + 2 ∧
        ∀ i e, es[i]? = some e → Reports ds i e := by
  have hsize : (pslist lk es.length).length = 3 * es.length + 2 := by
    rw [pslist_eq lk hpos]
    simp [List.length_flatMap, length_triple]
    omega
  have htypes : bo.request.type.length = 3 * es.length + 2 := by
    obtain ⟨-, htype, -⟩ := BatchObj.adds_spec hadds
    rw [htype, ← hsize]
    simp [BatchObj.new]
  have hrun := h.processProtobuf htypes.symm (by omega)
  have herr := h.isPrefix.clean.1
  obtain ⟨-, -, ds, hresults, hlength, hds⟩ := results_paired hadds (by omega) hrun herr
  refine ⟨hrun, herr, ds, hresults, by omega, fun i e he => ?_⟩
  have hi := (List.getElem?_eq_some_iff.mp he).1
  have hshows : ∀ {d c k m}, d < 3 → readCalls[d]? = some c →
      (elementReplies e)[d]? = some (k, m) →
      ∃ dict, ds[3 * i + d + 1]? = some dict ∧ Shows dict (callName i (d + 1)) c m :=
    fun hd hc hm => shows_reply h.produced hds hi hd hc ((listReplies_getElem? he hd _).trans hm)
  obtain ⟨d₁, hd₁, hshows₁⟩ := hshows (d := 0) (by decide) rfl rfl
  obtain ⟨d₂, hd₂, hshows₂⟩ := hshows (d := 1) (by decide) rfl rfl
  obtain ⟨d₃, hd₃, hshows₃⟩ := hshows (d := 2) (by decide) rfl rfl
  exact ⟨hshows₁.gives hd₁ rfl, hshows₂.gives hd₂ rfl, hshows₃.gives hd₃ rfl⟩

end Results

/-! ### One call at a time -/

/-- Elements as the app reads them with three calls each, `read_str_va`, `read_32_va` and
    `read_addr_va`, from the entry `a` on. -/
inductive OneByOne (env : Env G) (fe : FE) (lk : Lookups) : UInt64 → World G → List Element → Prop
  | nil (a : UInt64) (w : World G) : OneByOne env fe lk a w []
  | cons {a : UInt64} {w w₁ w₂ w₃ : World G} {e : Element} {es : List Element}
      (hname : (ApiQuery.readStrVa (.ok (a + lk.toName).toNat) (.ok 0)).run env fe w =
        .ok ⟨w₁, .ok (.field (.str e.name))⟩)
      (hpid : (ApiQuery.read32Va (.ok (a + lk.toPid).toNat) (.ok 0)).run env fe w₁ =
        .ok ⟨w₂, .ok (.int e.pid.toNat)⟩)
      (hnext : (ApiQuery.readAddrVa (.ok a.toNat) (.ok 0)).run env fe w₂ =
        .ok ⟨w₃, .ok (.int e.next.toNat)⟩)
      (rest : OneByOne env fe lk e.next w₃ es) : OneByOne env fe lk a w (e :: es)

/-- The app can read the elements one call at a time. -/
theorem oneByOne_of_lists {env : Env G} {mem : Memory} {paused : G → Prop} {lk : Lookups}
    (hmem : mem.HeldBy env paused) (fe : FE) {a : UInt64} {es : List Element}
    (hlists : mem.Lists lk a es) {w : World G} (hpaused : paused w.guest) :
    OneByOne env fe lk a w es := by
  induction es generalizing a w with
  | nil => exact .nil a w
  | cons e es ih =>
    obtain ⟨he, hlists⟩ := hlists
    obtain ⟨hstring, hword, hpointer⟩ := Memory.elementAt_eq_some he
    obtain ⟨g₁, hread₁, hpaused₁⟩ := hmem.string w.guest _ _ hpaused hstring
    obtain ⟨g₂, hread₂, hpaused₂⟩ := hmem.word g₁ _ _ hpaused₁ hword
    obtain ⟨g₃, hread₃, hpaused₃⟩ := hmem.pointer g₂ _ _ hpaused₂ hpointer
    let w₁ := performed (fe.asking w) (.readStr (.va (a + lk.toName) 0)) g₁
    let w₂ := performed (fe.asking w₁) (.readNum .w32 (.va (a + lk.toPid) 0)) g₂
    have hname : (ApiQuery.readStrVa _ _).run env fe w = _ := readStrVa_run hread₁
    have hbits : e.pid.toUInt64.toNat < 2 ^ widthBits .w32 := by
      rw [UInt32.toNat_toUInt64]
      exact e.pid.toNat_lt
    have hpid : (readNum .w32 (.va (a + lk.toPid) 0)).run env fe w₁ = _ := readNum_run hbits hread₂
    rw [UInt32.toNat_toUInt64] at hpid
    have hnext : (ApiQuery.readAddrVa _ _).run env fe w₂ = _ := readAddrVa_run hread₃
    exact .cons hname hpid hnext (ih hlists hpaused₃)

/-! ### Both ways -/

/-- Entries `64` apart, each with its address as the pid and the last byte of it as the name. -/
def spacedMemory : Memory where
  string a := some [a.toUInt8]
  word a := some a.toUInt32
  pointer a := some (a + 64)

def spacedEnv : Env Unit where
  exec op g := match op with
    | .readStr l => (some [l.address.toUInt8], g)
    | .readNum _ l => ((.success, some l.address.toUInt32.toUInt64), g)
    | .readAddr l => ((.success, some (l.address + 64)), g)
    | op => echoEnv.exec op g
  fuel := 1

/-- **The process-list pipeline.** For every number of elements that a message has room for, and
    every memory of the paused guest that they can be read from: the batch is made and processed
    without an error, and triple `i` of its results is the name, the pid and the next pointer of
    the element that `i` next pointers lead to, as single calls read them. -/
theorem pslist_pipeline {env : Env G} {mem : Memory} {paused : G → Prop}
    (hmem : mem.HeldBy env paused) {w : World G} (hpause : paused (env.exec .pause w.guest).2)
    {lk : Lookups} {n : ℕ} (hn : 0 < n) (hlen : 3 * n + 2 ≤ 1000) (hfits : lk.Fits n)
    (hreads : ∀ i < n, (mem.element lk i).isSome) (fe : FE) :
    ∃ bo w' reply ds es, (pslist lk n).foldlM BatchObj.add BatchObj.new = .ok bo ∧
      processProtobuf env bo.request w = .ok (w', reply) ∧ reply.error = none ∧
      (bo.serialize.received reply).results = (ds, none) ∧ ds.length = 3 * n + 2 ∧
      es.length = n ∧ OneByOne env fe lk lk.head (w.exec env .pause).2 es ∧
      ∀ i < n, ∃ e, es[i]? = some e ∧ mem.element lk i = some e ∧ Reports ds i e := by
  obtain ⟨es, rfl, hlists, hes⟩ := Memory.exists_lists hreads
  obtain ⟨bo, hadds, hreqs⟩ := pslist_adds lk hn
  obtain ⟨l, w', reply, harrives⟩ := pslist_run hmem hpause hn hfits hlists hreqs
  obtain ⟨hrun, herr, ds, hresults, hlength, hreports⟩ :=
    reports_of_arrives hadds harrives hn hlen
  have hsingly := oneByOne_of_lists hmem fe hlists (w := (w.exec env .pause).2) hpause
  refine ⟨bo, w', reply, ds, es, hadds, hrun, herr, hresults, hlength, rfl, hsingly, ?_⟩
  intro i hi
  have he : es[i]? = some es[i] := List.getElem?_eq_getElem hi
  exact ⟨es[i], he, (hes i hi).symm.trans he, hreports i _ he⟩

/-- Three equidistant entries are reported. -/
theorem pslist_pipeline_spaced : ∃ bo w' reply ds es,
    (pslist ⟨4112, 16, 40, 32⟩ 3).foldlM BatchObj.add BatchObj.new = .ok bo ∧
    processProtobuf spacedEnv bo.request (World.initial ()) = .ok (w', reply) ∧
    reply.error = none ∧ (bo.serialize.received reply).results = (ds, none) ∧ ds.length = 11 ∧
    es.length = 3 ∧
    OneByOne spacedEnv ⟨[1], ∅, ∅, 0, false⟩ ⟨4112, 16, 40, 32⟩ 4112
      ((World.initial ()).exec spacedEnv .pause).2 es ∧
    ∀ i < 3, ∃ e, es[i]? = some e ∧ spacedMemory.element ⟨4112, 16, 40, 32⟩ i = some e ∧
      Reports ds i e := by
  have hmem : spacedMemory.HeldBy spacedEnv (fun _ => True) := by
    refine ⟨?_, ?_, ?_⟩
    all_goals
      intro g a v _ hv
      cases hv
      exact ⟨g, rfl, trivial⟩
  have hfits : (⟨4112, 16, 40, 32⟩ : Lookups).Fits 3 :=
    ⟨by decide, by decide, by decide, fun _ => by decide, fun _ => by decide⟩
  exact pslist_pipeline hmem trivial (by decide) (by decide) hfits (by decide) ⟨[1], ∅, ∅, 0, false⟩

end Furnace.App
