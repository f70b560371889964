import Furnace.Vmi.Batch

namespace Furnace.Vmi

open Furnace.Proto Furnace.Lib

/-!
# Where the operands of the links come from

`process_link` searches for an operand only when a call is linked to for the first time; a later
link to it takes what the first one read.  So the cache and the two cursors say which earlier
calls were the first to be linked to which, and which replies they read.

* `firstLink` — the first of the calls before a position that is linked to a certain call.
* `linkSource` — the call whose reply a search reads; `SourceValue` is the number there.
* `LinkHistory` — the link state in these terms; `Reaches.linkHistory` has it at every position
  that is reached without an error.
-/

variable {G : Type}

/-! ### The links of a message -/

/-- Whether the handler of a call looks at the link of its request. -/
def resolvesLinks (c : Call) : Bool := (handlerOf c : Handler Unit).linked

/-- Whether a handler looks at links does not depend on the guest. -/
theorem handlerOf_linked (c : Call) : (handlerOf c : Handler G).linked = resolvesLinks c := by
  cases c
  case readNum w s => cases w <;> cases s <;> rfl
  case writeNum w s => cases w <;> cases s <;> rfl
  case readAddr s => cases s <;> rfl
  case readBuf s => cases s <;> rfl
  case readStr s => cases s <;> rfl
  case writeBuf s => cases s <;> rfl
  all_goals rfl

/-- How many calls of its type come before call `j`: the index that its handler is given. -/
def indexAt (msgIn : VMIMessage) (j : ℕ) : ℕ :=
  countBefore ((msgIn.type[j]?).getD 0) msgIn.type j

/-- The link in the request of call `j`, if its handler looks at links. -/
def linkAt (msgIn : VMIMessage) (j : ℕ) : Option Linkage :=
  match (msgIn.type[j]?).bind Call.ofNum? with
  | none => none
  | some c =>
    if resolvesLinks c then
      match msgIn.request c (indexAt msgIn j) with
      | .ok m => m.link?
      | .error _ => none
    else none

/-- The first of the calls before `i` that is linked to call `p`, and its link. -/
def firstLink (msgIn : VMIMessage) (i p : ℕ) : Option (ℕ × Linkage) :=
  (List.range i).findSome? fun j =>
    ((linkAt msgIn j).filter fun link => link.prevMsgIx = p).map fun link => (j, link)

section Links

variable {msgIn : VMIMessage} {i j p q t : ℕ} {c : Call} {link : Linkage}

theorem indexAt_eq (ht : msgIn.type[j]? = some t) :
    indexAt msgIn j = countBefore t msgIn.type j := by
  rw [indexAt, ht, Option.getD_some]

/-- The link of a call, by its type. -/
theorem linkAt_eq (ht : msgIn.type[j]? = some c.num) :
    linkAt msgIn j =
      if resolvesLinks c then
        match msgIn.request c (indexAt msgIn j) with
        | .ok m => m.link?
        | .error _ => none
      else none := by
  unfold linkAt
  rw [ht, Option.bind_some, Call.ofNum?_num]

theorem firstLink_succ (msgIn : VMIMessage) (i p : ℕ) :
    firstLink msgIn (i + 1) p = (firstLink msgIn i p).or
      (((linkAt msgIn i).filter fun link => link.prevMsgIx = p).map fun link => (i, link)) := by
  unfold firstLink
  rw [List.range_succ, List.findSome?_append, List.findSome?_singleton]

/-- A call without a link is the first to be linked to nothing. -/
theorem firstLink_succ_of_none (h : linkAt msgIn i = none) (p : ℕ) :
    firstLink msgIn (i + 1) p = firstLink msgIn i p := by
  rw [firstLink_succ, h]
  simp

/-- A link adds to the first ones only if no earlier call has its reference. -/
theorem firstLink_succ_of_some (h : linkAt msgIn i = some link) (p : ℕ) :
    firstLink msgIn (i + 1) p =
      if firstLink msgIn i p = none ∧ link.prevMsgIx = p then some (i, link)
      else firstLink msgIn i p := by
  rw [firstLink_succ, h]
  cases firstLink msgIn i p with
  | some first => simp
  | none => by_cases hp : link.prevMsgIx = p <;> simp [Option.filter, hp]

end Links

/-! ### What a search reads -/

/-- The call whose reply a search for the reply of call `p` reads.  With `d` populated reply
    fields above that of its type it is the `index - d`-th call of the type, unless one of the
    two cursors has passed. -/
def linkSource (out : VMIMessage) (l : LinkState) (p index : ℕ) : Option ℕ :=
  match scannedType out p l.nthType with
  | some t =>
    if l.nthFieldIx + (replyFieldsOf out).idxOf t ≤ index then
      position t out.type (index - (replyFieldsOf out).idxOf t)
    else none
  | none => none

/-- The number in the field `a` of the reply that the call `source` produced; zero where there
    is no such call. -/
def SourceValue (env : Env G) (msgIn : VMIMessage) (w₀ : World G) (source : Option ℕ) (a : ℕ)
    (v : UInt64) : Prop :=
  match source with
  | some s => ∃ c m fd, Produced env msgIn w₀ s c m ∧ c.replyFields[a]? = some fd ∧
      numericValue m fd = some v
  | none => v = 0

/-- The call whose reply the search for the link of call `q` reads. -/
def ReadFrom (env : Env G) (msgIn : VMIMessage) (w₀ : World G) (q : ℕ) (link : Linkage)
    (source : Option ℕ) : Prop :=
  ∃ l w out, Reaches env msgIn w₀ q l w out ∧
    linkSource out l link.prevMsgIx (indexAt msgIn q) = source

section Source

variable {env : Env G} {msgIn out : VMIMessage} {w₀ w : World G} {i p q a : ℕ} {l l' : LinkState}
  {rs : List (ℕ × Msg)} {link : Linkage} {source source' : Option ℕ} {v v' : UInt64}

/-- A place holds one number. -/
theorem SourceValue.unique (h : SourceValue env msgIn w₀ source a v)
    (h' : SourceValue env msgIn w₀ source a v') : v = v' := by
  cases source with
  | none => exact Eq.trans h (Eq.symm h')
  | some s =>
    obtain ⟨c, m, fd, hprod, hfd, hv⟩ := h
    obtain ⟨c', m', fd', hprod', hfd', hv'⟩ := h'
    obtain ⟨rfl, rfl⟩ := hprod.unique hprod'
    rw [hfd] at hfd'
    cases hfd'
    rw [hv] at hv'
    exact Option.some.inj hv'

/-- A search reads one place. -/
theorem ReadFrom.unique (h : ReadFrom env msgIn w₀ q link source)
    (h' : ReadFrom env msgIn w₀ q link source') : source = source' := by
  obtain ⟨l, w, out, hreach, rfl⟩ := h
  obtain ⟨l', w', out', hreach', rfl⟩ := h'
  obtain ⟨rfl, rfl, rfl⟩ := hreach.unique hreach'
  rfl

/-- As many replies of a type come before a position as calls of that type. -/
theorem Prefix.countBefore_replyNum (h : Prefix msgIn i l out rs) (c : Call) {s : ℕ} (hs : s ≤ i) :
    countBefore c.replyNum out.type s = countBefore c.num msgIn.type s := by
  induction s with
  | zero => simp
  | succ s ih =>
    obtain ⟨c', hc', hget⟩ := h.calls s hs
    have ih := ih (by omega)
    unfold countBefore at ih ⊢
    rw [List.take_add_one, List.take_add_one, hc', hget, List.count_append, List.count_append, ih]
    by_cases hc : c' = c
    · subst hc
      simp
    · have hnum : c'.num ≠ c.num := fun e => hc (Call.num_injective e)
      have hreply : c'.replyNum ≠ c.replyNum := fun e => hc (Call.replyNum_injective e)
      simp [hnum, hreply]

/-- Entry `k` of a reply field is the reply of the `k`-th call of its type. -/
theorem Prefix.entry_produced (h : Prefix msgIn i l out rs)
    (hrs : ∀ j < i, ∃ c m, Produced env msgIn w₀ j c m ∧ rs[j]? = some (c.replyNum, m))
    {c : Call} (hrep : isRepeated c.replyNum = true) (k : ℕ) :
    match position c.replyNum out.type k with
    | some s => indexAt msgIn s = k ∧
        ∃ m, (out.sub c.replyNum)[k]? = some m ∧ Produced env msgIn w₀ s c m
    | none => (out.sub c.replyNum)[k]? = none := by
  rw [h.sub _ hrep, bucket_getElem?, ← h.type]
  cases hs : position c.replyNum out.type k with
  | none => rfl
  | some s =>
    obtain ⟨hget, hcount⟩ := position_eq_some hs
    have hlt : s < i := by
      rw [← h.type_length]
      exact (List.getElem?_eq_some_iff.mp hget).1
    obtain ⟨c', m, hprod, hrss⟩ := hrs s hlt
    -- the reply type at `s` is that of the field
    have hc : c' = c := by
      apply Call.replyNum_injective
      rw [h.type, List.getElem?_map, hrss] at hget
      exact Option.some.inj hget
    subst hc
    have htype : msgIn.type[s]? = some c'.num := by
      obtain ⟨-, -, -, -, -, -, -, -, ht, -⟩ := hprod
      exact ht
    rw [h.countBefore_replyNum c' hlt.le] at hcount
    exact ⟨(indexAt_eq htype).trans hcount, m, by simp [hrss], hprod⟩

/-- The search stops at the entry that `linkSource` names. -/
theorem Prefix.searchHit_eq (h : Prefix msgIn i l out rs)
    (hrs : ∀ j < i, ∃ c m, Produced env msgIn w₀ j c m ∧ rs[j]? = some (c.replyNum, m))
    (hall : (replyFieldsOf out).all isRepeated = true) (p index : ℕ) :
    match linkSource out l p index with
    | some s => ∃ c m, targetType out l p = c.replyNum ∧ Produced env msgIn w₀ s c m ∧
        searchHit index (targetType out l p) out l.nthFieldIx = some m ∧
        l.nthFieldIx + (replyFieldsOf out).idxOf (targetType out l p) ≤ index ∧
        indexAt msgIn s = index - (replyFieldsOf out).idxOf (targetType out l p)
    | none => searchHit index (targetType out l p) out l.nthFieldIx = none := by
  unfold linkSource targetType
  cases hscan : scannedType out p l.nthType with
  | none =>
    -- no type is found, and no field has the number zero
    rw [Option.getD_none, searchHit_zero]
  | some t =>
    have hget : out.type[p]? = some t := by
      unfold scannedType at hscan
      split at hscan
      · exact hscan
      · cases hscan
    have hp : p < i := by
      rw [← h.type_length]
      exact (List.getElem?_eq_some_iff.mp hget).1
    obtain ⟨c, -, hc⟩ := h.calls p hp
    obtain rfl : t = c.replyNum := by
      rw [hget] at hc
      exact Option.some.inj hc
    have hmem : c.replyNum ∈ replyFieldsOf out :=
      mem_replyFieldsOf.mpr ⟨c.replyNum_mem_range, (h.populated _).mpr (List.mem_of_getElem? hc)⟩
    have hrep : isRepeated c.replyNum = true := List.all_eq_true.mp hall _ hmem
    rw [Option.getD_some]
    by_cases hcur : l.nthFieldIx + (replyFieldsOf out).idxOf c.replyNum ≤ index
    · have hentry := h.entry_produced hrs hrep (index - (replyFieldsOf out).idxOf c.replyNum)
      simp only [searchHit, hcur, hmem, true_and, if_true]
      revert hentry
      cases position c.replyNum out.type (index - (replyFieldsOf out).idxOf c.replyNum) with
      | none => exact id
      | some s =>
        rintro ⟨hindex, m, hm, hprod⟩
        exact ⟨c, m, rfl, hprod, hm, hindex⟩
    · simp [searchHit, hcur]

/-- Among repeated fields a search reads the number at its source. -/
theorem Prefix.foundValue_iff (h : Prefix msgIn i l out rs)
    (hrs : ∀ j < i, ∃ c m, Produced env msgIn w₀ j c m ∧ rs[j]? = some (c.replyNum, m))
    (hall : (replyFieldsOf out).all isRepeated = true) (a p index : ℕ) (v : UInt64) :
    foundValue a index (targetType out l p) out l.nthFieldIx = some v ↔
      SourceValue env msgIn w₀ (linkSource out l p index) a v := by
  have hhit := h.searchHit_eq hrs hall p index
  unfold foundValue SourceValue
  cases hsource : linkSource out l p index with
  | none =>
    rw [hsource] at hhit
    dsimp only at hhit
    rw [hhit]
    simp [eq_comm]
  | some s =>
    rw [hsource] at hhit
    obtain ⟨c, m, htarget, hprod, hm, -⟩ := hhit
    rw [hm, htarget, replyDescriptor_replyNum]
    dsimp only
    rw [Option.bind_eq_some_iff]
    constructor
    · rintro ⟨fd, hfd, hv⟩
      exact ⟨c, m, fd, hprod, hfd, hv⟩
    · rintro ⟨c', m', fd, hprod', hfd, hv⟩
      obtain ⟨rfl, rfl⟩ := hprod.unique hprod'
      exact ⟨fd, hfd, hv⟩

/-- The type scan finds a reply that is there, from its cursor on. -/
theorem Prefix.scannedType_isSome (h : Prefix msgIn i l out rs) (p nthType : ℕ) :
    (scannedType out p nthType).isSome = true ↔ nthType ≤ p ∧ p < i := by
  unfold scannedType
  by_cases hle : nthType ≤ p
  · simp [hle, h.type_length]
  · simp [hle]

/-- What a link does that is not in the cache: it puts the number at its source there, moves the
    type cursor to an earlier call that it refers to, and the entry cursor to its source. -/
theorem Prefix.priorResult_found (h : Prefix msgIn i l out rs) (hi : 0 < i)
    (hrs : ∀ j < i, ∃ c m, Produced env msgIn w₀ j c m ∧ rs[j]? = some (c.replyNum, m))
    {msgtype index : ℕ} (hmiss : l.cache link.prevMsgIx = none)
    (hprior : priorResult link msgtype index out l = .ok (l', .ok v)) :
    SourceValue env msgIn w₀ (linkSource out l link.prevMsgIx index) link.prevItemIx v ∧
      l'.cache = Function.update l.cache link.prevMsgIx (some v) ∧
      (∀ k, k < l'.nthType ↔
        k < l.nthType ∨ link.prevMsgIx < i ∧ k < link.prevMsgIx) ∧
      ∀ k, k < l'.nthFieldIx ↔
        k < l.nthFieldIx ∨
          ∃ s, linkSource out l link.prevMsgIx index = some s ∧ k < indexAt msgIn s := by
  rw [h.priorResult_miss hi hmiss] at hprior
  obtain ⟨found, hsearch, hres⟩ := map_eq_ok.mp hprior
  cases found with
  | error e => cases hres
  | ok found =>
    obtain ⟨u, ix⟩ := found
    cases hres
    obtain ⟨hall, hvalue, hix⟩ := searchFields_value _ _ _ _ _ hsearch
    refine ⟨(h.foundValue_iff hrs hall _ _ _ _).mp hvalue, rfl, fun k => ?_, fun k => ?_⟩
    · have hscan := h.scannedType_isSome link.prevMsgIx l.nthType
      show k < (if _ then link.prevMsgIx else l.nthType) ↔ _
      by_cases hsome : (scannedType out link.prevMsgIx l.nthType).isSome = true
      · rw [if_pos hsome]
        have := hscan.mp hsome
        omega
      · rw [if_neg hsome]
        have := mt hscan.mpr hsome
        omega
    · show k < ix ↔ _
      have hhit := h.searchHit_eq hrs hall link.prevMsgIx index
      cases hsource : linkSource out l link.prevMsgIx index with
      | none =>
        rw [hsource] at hhit
        dsimp only at hhit
        rw [hhit] at hix
        simp [hix]
      | some s =>
        rw [hsource] at hhit
        obtain ⟨c, m, -, -, hm, hle, hindex⟩ := hhit
        rw [hm] at hix
        have hix : ix = indexAt msgIn s := by
          rw [hindex]
          exact hix
        simp only [Option.some.injEq, exists_eq_left']
        omega

end Source

/-! ### The link state of a position -/

/-- The link state before call `i`.  A reference is cached when an earlier call is linked to it,
    with the number that the first of these calls read.  The cursors stand at the largest of the
    references, of those to earlier calls, and of the entries that were read. -/
structure LinkHistory (env : Env G) (msgIn : VMIMessage) (w₀ : World G) (i : ℕ) (l : LinkState) :
    Prop where
  miss : ∀ p, firstLink msgIn i p = none → l.cache p = none
  hit : ∀ p q first, firstLink msgIn i p = some (q, first) →
    ∃ source v, ReadFrom env msgIn w₀ q first source ∧
      SourceValue env msgIn w₀ source first.prevItemIx v ∧ l.cache p = some v
  nthType : ∀ k, k < l.nthType ↔
    ∃ p q first, firstLink msgIn i p = some (q, first) ∧ p < q ∧ k < p
  nthFieldIx : ∀ k, k < l.nthFieldIx ↔
    ∃ p q first s, firstLink msgIn i p = some (q, first) ∧
      ReadFrom env msgIn w₀ q first (some s) ∧ k < indexAt msgIn s

section History

variable {env : Env G} {msgIn out : VMIMessage} {w₀ w : World G} {i : ℕ} {l l' : LinkState}
  {rs : List (ℕ × Msg)} {link : Linkage} {v : UInt64}

theorem LinkHistory.start (env : Env G) (msgIn : VMIMessage) (w₀ : World G) :
    LinkHistory env msgIn w₀ 0 {} where
  miss _ _ := rfl
  hit _ _ _ h := by cases h
  nthType k := iff_of_false (Nat.not_lt_zero k) fun ⟨_, _, _, h, _⟩ => by cases h
  nthFieldIx k := iff_of_false (Nat.not_lt_zero k) fun ⟨_, _, _, _, h, _⟩ => by cases h

/-- A call that is the first to be linked to nothing leaves the history as it is. -/
theorem LinkHistory.keep (h : LinkHistory env msgIn w₀ i l)
    (hfirst : ∀ p, firstLink msgIn (i + 1) p = firstLink msgIn i p) :
    LinkHistory env msgIn w₀ (i + 1) l where
  miss p hp := h.miss p (by rwa [hfirst] at hp)
  hit p q first hp := h.hit p q first (by rwa [hfirst] at hp)
  nthType k := by simpa only [hfirst] using h.nthType k
  nthFieldIx k := by simpa only [hfirst] using h.nthFieldIx k

/-- The first links once call `i` is the first to be linked to its reference. -/
theorem firstLink_new (hat : linkAt msgIn i = some link)
    (hnone : firstLink msgIn i link.prevMsgIx = none) (p q : ℕ) (first : Linkage) :
    firstLink msgIn (i + 1) p = some (q, first) ↔
      firstLink msgIn i p = some (q, first) ∨ (p, q, first) = (link.prevMsgIx, i, link) := by
  rw [firstLink_succ_of_some hat]
  by_cases hp : link.prevMsgIx = p
  · subst hp
    rw [hnone]
    simp [eq_comm]
  · simp only [hp, and_false, if_false, Prod.mk.injEq, eq_comm (a := p), false_and, or_false]

/-- A link that is not in the cache becomes the first one to its reference. -/
theorem LinkHistory.add (h : LinkHistory env msgIn w₀ i l)
    (hreach : Reaches env msgIn w₀ i l w out) (hat : linkAt msgIn i = some link)
    (hnone : firstLink msgIn i link.prevMsgIx = none)
    (hvalue : SourceValue env msgIn w₀ (linkSource out l link.prevMsgIx (indexAt msgIn i))
      link.prevItemIx v)
    (hcache : l'.cache = Function.update l.cache link.prevMsgIx (some v))
    (htype : ∀ k, k < l'.nthType ↔ k < l.nthType ∨ link.prevMsgIx < i ∧ k < link.prevMsgIx)
    (hfield : ∀ k, k < l'.nthFieldIx ↔ k < l.nthFieldIx ∨
      ∃ s, linkSource out l link.prevMsgIx (indexAt msgIn i) = some s ∧ k < indexAt msgIn s) :
    LinkHistory env msgIn w₀ (i + 1) l' := by
  have hread : ReadFrom env msgIn w₀ i link
      (linkSource out l link.prevMsgIx (indexAt msgIn i)) := ⟨l, w, out, hreach, rfl⟩
  have hnew := firstLink_new hat hnone
  constructor
  case miss =>
    intro p hp
    rw [firstLink_succ_of_some hat] at hp
    split at hp
    · cases hp
    case isFalse hne =>
      rw [hcache, Function.update_of_ne (fun e => hne ⟨hp, e.symm⟩), h.miss p hp]
  case hit =>
    intro p q first hp
    rcases (hnew p q first).mp hp with hold | heq
    · -- the reference had its first link already, so it is not the new one
      have hne : p ≠ link.prevMsgIx := by
        rintro rfl
        rw [hnone] at hold
        cases hold
      obtain ⟨source, u, hsource, hu, hcached⟩ := h.hit p q first hold
      exact ⟨source, u, hsource, hu, by rw [hcache, Function.update_of_ne hne, hcached]⟩
    · cases heq
      exact ⟨_, v, hread, hvalue, by rw [hcache, Function.update_self]⟩
  case nthType =>
    intro k
    rw [htype, h.nthType]
    constructor
    · rintro (⟨p, q, first, hp, hpq, hk⟩ | ⟨hlt, hk⟩)
      · exact ⟨p, q, first, (hnew p q first).mpr (.inl hp), hpq, hk⟩
      · exact ⟨_, i, link, (hnew _ _ _).mpr (.inr rfl), hlt, hk⟩
    · rintro ⟨p, q, first, hp, hpq, hk⟩
      rcases (hnew p q first).mp hp with hold | heq
      · exact .inl ⟨p, q, first, hold, hpq, hk⟩
      · cases heq
        exact .inr ⟨hpq, hk⟩
  case nthFieldIx =>
    intro k
    rw [hfield, h.nthFieldIx]
    constructor
    · rintro (⟨p, q, first, s, hp, hs, hk⟩ | ⟨s, hs, hk⟩)
      · exact ⟨p, q, first, s, (hnew p q first).mpr (.inl hp), hs, hk⟩
      · exact ⟨_, i, link, s, (hnew _ _ _).mpr (.inr rfl), ⟨l, w, out, hreach, hs⟩, hk⟩
    · rintro ⟨p, q, first, s, hp, hs, hk⟩
      rcases (hnew p q first).mp hp with hold | heq
      · exact .inl ⟨p, q, first, s, hold, hs, hk⟩
      · cases heq
        exact .inr ⟨s, hread.unique hs, hk⟩

/-- A handler that gives no error changes the link state only through the link of its call, which
    it then takes. -/
theorem Handler.run_linkAt {env : Env G} {msgIn out : VMIMessage} {w w' : World G} {i : ℕ}
    {l l' : LinkState} {c : Call} {r : Reply} (ht : msgIn.type[i]? = some c.num)
    (hrun : (handlerOf c).run c env (countBefore c.num msgIn.type i) msgIn out l w =
      .ok (l', w', r)) (hr : r.errorNum = none) :
    (linkAt msgIn i = none ∧ l' = l) ∨
      ∃ link m m' v, linkAt msgIn i = some link ∧
        processLink c.requestFields m link (indexAt msgIn i) msgIn out l =
          .ok (l', .linked m' v) := by
  rw [← indexAt_eq ht] at hrun
  rcases Handler.run_cases hrun with ⟨rfl, hno, -⟩ | ⟨m, link, hlinked, hm, hlink, hres⟩
  · refine .inl ⟨?_, rfl⟩
    rw [linkAt_eq ht]
    by_cases hres : resolvesLinks c = true
    · obtain ⟨m, hm, hlink⟩ := hno (by rw [handlerOf_linked, hres])
      rw [if_pos hres, hm]
      exact hlink
    · rw [if_neg hres]
  · right
    rcases hres with ⟨n, -, -, rfl⟩ | ⟨m', v, hlinked', -⟩
    · cases hr
    · refine ⟨link, m, m', v, ?_, hlinked'⟩
      rw [handlerOf_linked] at hlinked
      rw [linkAt_eq ht, if_pos hlinked, hm]
      exact hlink

/-- One call that sets no error. -/
theorem LinkHistory.step (h : LinkHistory env msgIn w₀ i l)
    (hreach : Reaches env msgIn w₀ i l w out) (hp : Prefix msgIn i l out rs)
    (hrs : ∀ j < i, ∃ c m, Produced env msgIn w₀ j c m ∧ rs[j]? = some (c.replyNum, m))
    {c : Call} {w' : World G} {r : Reply} (ht : msgIn.type[i]? = some c.num)
    (hrun : (handlerOf c).run c env (countBefore c.num msgIn.type i) msgIn out l w =
      .ok (l', w', r)) (hr : r.errorNum = none) :
    LinkHistory env msgIn w₀ (i + 1) l' := by
  rcases Handler.run_linkAt ht hrun hr with ⟨hat, rfl⟩ | ⟨link, m, m', v, hat, hlink⟩
  · exact h.keep (firstLink_succ_of_none hat)
  obtain ⟨hguard, t, -, hprior, -⟩ := processLink_linked hlink
  have hi : 0 < i := by
    have := hp.msgno
    omega
  cases hfirst : firstLink msgIn i link.prevMsgIx with
  | some first =>
    -- the reference is in the cache, and the link state stays as it is
    obtain ⟨q, first⟩ := first
    obtain ⟨-, u, -, -, hcached⟩ := h.hit _ _ _ hfirst
    rw [priorResult, hcached] at hprior
    cases hprior
    refine h.keep fun p => ?_
    rw [firstLink_succ_of_some hat, if_neg]
    rintro ⟨hnone, rfl⟩
    rw [hfirst] at hnone
    cases hnone
  | none =>
    obtain ⟨hvalue, hcache, htype, hfield⟩ := hp.priorResult_found hi hrs (h.miss _ hfirst) hprior
    exact h.add hreach hat hfirst hvalue hcache htype hfield

end History

/-- **The history of the link state**, at every position that is reached without an error. -/
theorem Reaches.linkHistory {env : Env G} {msgIn out : VMIMessage} {w₀ w : World G} {i : ℕ}
    {l : LinkState} (h : Reaches env msgIn w₀ i l w out) (herr : out.error = none) :
    LinkHistory env msgIn w₀ i l := by
  induction h with
  | start => exact LinkHistory.start env msgIn w₀
  | next hreach herr₀ ht hs ih =>
    obtain ⟨rs, hp, hrs⟩ := hreach.isPrefix herr₀
    obtain ⟨c, r, rfl, -, hrun, hr⟩ := processSingle_clean hs herr
    have hstep := (ih herr₀).step hreach hp hrs ht hrun hr
    -- the number of the call is no part of the history
    exact { hstep with }

end Furnace.Vmi
