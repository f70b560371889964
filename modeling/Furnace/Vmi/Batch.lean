import Furnace.Vmi.Dispatch
import Furnace.Vmi.LinkSearch

namespace Furnace.Vmi

open Furnace.Proto Furnace.Lib

/-!
# The reply of a batch, position by position

What holds of the partial reply and of the link state at every position that the loop of
`process_protobuf` arrives at without an error.

* `Produced` — the handler of call `j` gave a certain reply sub-message.
* `Prefix` — the reply types follow the request types, each repeated reply field holds the
  replies of its type in order, and the link state points below the current position.
* `Reaches.isPrefix` — every position that is reached without an error is such a prefix.
* `Arrives` — such a position with its replies; `Arrives.linked` and `Arrives.unlinked` go on
  from there by one call of a message that `HoldsRequests` describes.
-/

variable {G : Type}

/-! ### Determinism -/

section

variable {env : Env G} {msgIn : VMIMessage} {w₀ : World G}

/-- The loop arrives at a position in one state only. -/
theorem Reaches.unique {i : ℕ} {l₁ l₂ : LinkState} {w₁ w₂ : World G} {out₁ out₂ : VMIMessage}
    (h₁ : Reaches env msgIn w₀ i l₁ w₁ out₁) (h₂ : Reaches env msgIn w₀ i l₂ w₂ out₂) :
    l₁ = l₂ ∧ w₁ = w₂ ∧ out₁ = out₂ := by
  induction h₁ generalizing l₂ w₂ out₂ with
  | start =>
    cases h₂
    exact ⟨rfl, rfl, rfl⟩
  | next _ _ ht hs ih =>
    cases h₂ with
    | next h₂ _ ht₂ hs₂ =>
      -- one state before the call, one call, one state after it
      obtain ⟨rfl, rfl, rfl⟩ := ih h₂
      rw [ht] at ht₂
      cases ht₂
      rw [hs] at hs₂
      cases hs₂
      exact ⟨rfl, rfl, rfl⟩

end

/-! ### Prefixes -/

/-- The handler of call `j`, of type `c`, gave the reply `m` and no error. -/
def Produced (env : Env G) (msgIn : VMIMessage) (w₀ : World G) (j : ℕ) (c : Call) (m : Msg) :
    Prop :=
  ∃ l w out l' w' r, Reaches env msgIn w₀ j l w out ∧ out.error = none ∧
    msgIn.type[j]? = some c.num ∧
    (handlerOf c).run c env (countBefore c.num msgIn.type j) msgIn out l w = .ok (l', w', r) ∧
    r.errorNum = none ∧ r.entry = some m

/-- A call gives one reply only. -/
theorem Produced.unique {env : Env G} {msgIn : VMIMessage} {w₀ : World G} {j : ℕ} {c₁ c₂ : Call}
    {m₁ m₂ : Msg} (h₁ : Produced env msgIn w₀ j c₁ m₁) (h₂ : Produced env msgIn w₀ j c₂ m₂) :
    c₁ = c₂ ∧ m₁ = m₂ := by
  obtain ⟨l₁, w₁, out₁, l₁', w₁', r₁, hr₁, -, ht₁, hrun₁, -, hm₁⟩ := h₁
  obtain ⟨l₂, w₂, out₂, l₂', w₂', r₂, hr₂, -, ht₂, hrun₂, -, hm₂⟩ := h₂
  obtain ⟨rfl, rfl, rfl⟩ := hr₁.unique hr₂
  have hc : c₁ = c₂ := Call.num_injective (by rw [ht₁] at ht₂; exact Option.some.inj ht₂)
  subst hc
  rw [hrun₁] at hrun₂
  cases hrun₂
  rw [hm₁] at hm₂
  exact ⟨rfl, Option.some.inj hm₂⟩

/-- The state after the first `i` calls, none of which set the error flag.  `rs` lists the
    replies so far, tagged with their types. -/
structure Prefix (msgIn : VMIMessage) (i : ℕ) (l : LinkState) (out : VMIMessage)
    (rs : List (ℕ × Msg)) : Prop where
  length : rs.length = i
  type : out.type = rs.map Prod.fst
  calls : ∀ j < i, ∃ c : Call, msgIn.type[j]? = some c.num ∧ out.type[j]? = some c.replyNum
  sub : ∀ n, isRepeated n → out.sub n = bucket n rs
  populated : ∀ n, out.sub n ≠ [] ↔ n ∈ out.type
  clean : Clean out
  msgno : l.msgno = i
  nthType : l.nthType < i ∨ l.nthType = 0
  cacheKeys : ∀ k v, l.cache k = some v → k < msgIn.type.length
  cacheForward : ∀ k v, l.cache k = some v → i ≤ k → v = 0

/-! ### The link state of a prefix -/

section LinkState

variable {msgIn out : VMIMessage} {i : ℕ} {l l' : LinkState} {rs : List (ℕ × Msg)}

theorem Prefix.type_length (h : Prefix msgIn i l out rs) : out.type.length = i := by
  rw [h.type, List.length_map, h.length]

/-- The type cursor only ever moves to a position that has a reply. -/
theorem Prefix.scannedType_lt (h : Prefix msgIn i l out rs) {p nthType : ℕ}
    (hs : (scannedType out p nthType).isSome) : p < i := by
  unfold scannedType at hs
  split at hs
  · rw [← h.type_length]
    exact (List.getElem?_eq_some_iff.mp (Option.eq_some_of_isSome hs)).1
  · cases hs

/-- A reference to a call without a reply finds no type. -/
theorem Prefix.scannedType_forward (h : Prefix msgIn i l out rs) {p : ℕ} (hp : i ≤ p)
    (nthType : ℕ) : scannedType out p nthType = none := by
  cases hs : scannedType out p nthType with
  | none => rfl
  | some t =>
    have hsome : (scannedType out p nthType).isSome := by
      rw [hs]
      rfl
    have := h.scannedType_lt hsome
    omega

/-- The walk of a call at a position other than the first. -/
theorem Prefix.walk (h : Prefix msgIn i l out rs) (hi : 0 < i) (p : ℕ) :
    findType out p l.nthType = .ok ((scannedType out p l.nthType).getD 0,
      if (scannedType out p l.nthType).isSome then p else l.nthType) ∧
    out.listFields.reverse.tail = replyFieldsOf out := by
  have hne : out.type ≠ [] := by
    rw [← List.length_pos_iff, h.type_length]
    exact hi
  refine ⟨findType_eq h.clean hne p l.nthType, ?_⟩
  rw [listFields_reverse h.clean hne, List.tail_cons]

/-- The type number that the walk looks for. -/
def targetType (out : VMIMessage) (l : LinkState) (p : ℕ) : ℕ :=
  (scannedType out p l.nthType).getD 0

/-- The link state after the type scan. -/
def scanned (out : VMIMessage) (l : LinkState) (p : ℕ) : LinkState :=
  { l with nthType := if (scannedType out p l.nthType).isSome then p else l.nthType }

/-- A prior result that is not in the cache is what the walk finds. -/
theorem Prefix.priorResult_miss (h : Prefix msgIn i l out rs) (hi : 0 < i) {link : Linkage}
    {msgtype index : ℕ} (hmiss : l.cache link.prevMsgIx = none) :
    priorResult link msgtype index out l =
      (searchFields link.prevItemIx index msgtype (targetType out l link.prevMsgIx) out
        (replyFieldsOf out) 0 0 l.nthFieldIx).map fun
        | .error e => (scanned out l link.prevMsgIx, .error e)
        | .ok (v, ix) =>
          ({ scanned out l link.prevMsgIx with
              nthFieldIx := ix
              cache := Function.update l.cache link.prevMsgIx (some v) }, .ok v) := by
  obtain ⟨hfind, htail⟩ := h.walk hi link.prevMsgIx
  unfold priorResult
  rw [hmiss, hfind, htail]
  dsimp only [bind, Except.bind]
  unfold targetType
  cases searchFields link.prevItemIx index msgtype
      ((scannedType out link.prevMsgIx l.nthType).getD 0) out (replyFieldsOf out) 0 0
      l.nthFieldIx with
  | error f => rfl
  | ok res => cases res <;> rfl

/-- The type that the walk looks for is the reply type of call `p`, when it is repeated. -/
theorem Prefix.targetType_eq (h : Prefix msgIn i l out rs) {p t : ℕ}
    (ht : msgIn.type[p]? = some t) (hrep : isRepeated (targetType out l p))
    (hs : (scannedType out p l.nthType).isSome) : targetType out l p = t + 1 := by
  obtain ⟨c, hc, hget⟩ := h.calls p (h.scannedType_lt hs)
  have htarget : targetType out l p = c.replyNum := by
    unfold targetType
    unfold scannedType at hs ⊢
    split at hs
    case isTrue hle =>
      rw [if_pos hle, hget]
      rfl
    case isFalse => cases hs
  rw [htarget] at hrep ⊢
  rw [hc] at ht
  cases ht
  exact Call.replyNum_of_isBatchable ((Call.isBatchable_iff c).mpr hrep)

/-- A reference to a call without a reply finds the value zero, if it finds any. -/
theorem Prefix.search_forward (h : Prefix msgIn i l out rs) {p : ℕ} (hp : i ≤ p)
    {prevItemIx index msgtype : ℕ} {v : UInt64} {ix : ℕ}
    (hs : searchFields prevItemIx index msgtype ((scannedType out p l.nthType).getD 0) out
      (replyFieldsOf out) 0 0 l.nthFieldIx = .ok (.ok (v, ix))) : v = 0 := by
  rw [h.scannedType_forward hp, Option.getD_none, searchFields_eq, searchHit_zero] at hs
  dsimp only at hs
  split at hs <;> cases hs
  rfl

/-- A link that is taken keeps what a prefix says about the link state. -/
theorem Prefix.processLink (h : Prefix msgIn i l out rs) {fields : Descriptor} {m m' : Msg}
    {link : Linkage} {index : ℕ} {v : UInt64}
    (hl : processLink fields m link index msgIn out l = .ok (l', .linked m' v)) :
    Prefix msgIn i l' out rs := by
  obtain ⟨hguard, t, ht, hprior, -⟩ := processLink_linked hl
  have hi : 0 < i := by
    have := h.msgno
    omega
  -- a cached value leaves the link state as it was
  rcases priorResult_cases hprior with ⟨-, -, rfl, -⟩ | ⟨hmiss, tgttype, nthType, hfind, hres⟩
  · exact h
  obtain ⟨hfind', htail⟩ := h.walk hi link.prevMsgIx
  rw [hfind'] at hfind
  obtain ⟨rfl, rfl⟩ := Prod.mk.inj (Except.ok.inj hfind)
  rw [htail] at hres
  rcases hres with ⟨e, -, he, -⟩ | ⟨v', ix, hsearch, hv, rfl⟩
  · cases he
  cases hv
  refine { h with msgno := h.msgno, nthType := ?_, cacheKeys := ?_, cacheForward := ?_ }
  · left
    show (if _ then link.prevMsgIx else l.nthType) < i
    split
    case isTrue hs => exact h.scannedType_lt hs
    case isFalse => have := h.msgno; omega
  · intro k u hk
    by_cases hkp : k = link.prevMsgIx
    · subst hkp
      exact (List.getElem?_eq_some_iff.mp ht).1
    · exact h.cacheKeys k u (by simpa [hkp] using hk)
  · intro k u hk hik
    by_cases hkp : k = link.prevMsgIx
    -- a reference ahead has been cached now, with what its search found
    · subst hkp
      have huv : v = u := by simpa using hk
      rw [← huv]
      exact h.search_forward hik hsearch
    · exact h.cacheForward k u (by simpa [hkp] using hk) hik

end LinkState

/-! ### Every position without an error is a prefix -/

theorem Prefix.start (msgIn : VMIMessage) : Prefix msgIn 0 {} VMIMessage.empty [] where
  length := rfl
  type := rfl
  calls j hj := absurd hj (Nat.not_lt_zero j)
  sub _ _ := rfl
  populated n := by simp
  clean := ⟨rfl, rfl, rfl⟩
  msgno := rfl
  nthType := .inr rfl
  cacheKeys k v hk := by cases hk
  cacheForward k v hk := by cases hk

/-- A call that gives a reply and no error extends the prefix by that reply. -/
theorem Prefix.record {msgIn out : VMIMessage} {i : ℕ} {l : LinkState} {rs : List (ℕ × Msg)}
    (h : Prefix msgIn i l out rs) {c : Call} (hc : msgIn.type[i]? = some c.num) {r : Reply}
    {m : Msg} (hr : r.errorNum = none) (hm : r.entry = some m) (htyped : r.typed = true) (loc : ℕ) :
    Prefix msgIn (i + 1) { l with msgno := l.msgno + 1 } (record out c.replyNum r loc)
      (rs ++ [(c.replyNum, m)]) where
  length := by simp [h.length]
  type := by simp [record_type, htyped, h.type]
  calls j hj := by
    rw [record_type, htyped, if_pos rfl]
    rcases Nat.lt_succ_iff_lt_or_eq.mp hj with hlt | rfl
    · obtain ⟨c', hc', hget⟩ := h.calls j hlt
      refine ⟨c', hc', ?_⟩
      rw [List.getElem?_append_left (by rw [h.type_length]; exact hlt)]
      exact hget
    · refine ⟨c, hc, ?_⟩
      rw [List.getElem?_append_right h.type_length.le, h.type_length]
      simp
  sub n hn := by
    rw [record_sub, hm, bucket_append]
    by_cases hk : n = c.replyNum
    · subst hk
      simp [VMIMessage.putList, hn, h.sub _ hn, bucket_cons]
    · have hk' : ¬ c.replyNum = n := fun e => hk e.symm
      simp [hk, hk', h.sub n hn, bucket_cons]
  populated n := by
    rw [record_sub, record_type, hm, htyped]
    by_cases hk : n = c.replyNum
    · subst hk
      simp [VMIMessage.putList_ne_nil]
    · simp [hk, h.populated n]
  clean := record_clean h.clean _ hr loc
  msgno := by simp [h.msgno]
  nthType := by
    left
    show l.nthType < i + 1
    rcases h.nthType with hlt | h0 <;> omega
  cacheKeys := h.cacheKeys
  cacheForward k v hk hik := h.cacheForward k v hk (by omega)

/-- One iteration that sets no error: the call is known, and its handler gave no error number. -/
theorem processSingle_clean {env : Env G} {t index : ℕ} {msgIn out out' : VMIMessage}
    {l l' : LinkState} {w w' : World G}
    (hs : processSingle env t index msgIn out l w = .ok (l', w', out'))
    (herr : out'.error = none) :
    ∃ (c : Call) (r : Reply), c.num = t ∧ out' = record out c.replyNum r index ∧
      (handlerOf c).run c env index msgIn out l w = .ok (l', w', r) ∧ r.errorNum = none := by
  cases hc : Call.ofNum? t with
  | none =>
    -- an unknown type sets the error flag
    rw [processSingle, hc] at hs
    cases hs
    cases herr
  | some c =>
    obtain rfl := Call.num_of_ofNum? hc
    obtain ⟨r, hrun, rfl⟩ := processSingle_call hs
    refine ⟨c, r, rfl, rfl, hrun, ?_⟩
    rw [record_error] at herr
    cases hnum : r.errorNum with
    | none => rfl
    | some n =>
      rw [hnum] at herr
      cases herr

/-- One iteration that sets no error extends the prefix by the reply that it produces. -/
theorem Prefix.step {env : Env G} {msgIn out out' : VMIMessage} {w₀ w w' : World G} {i t : ℕ}
    {l l' : LinkState} {rs : List (ℕ × Msg)} (h : Prefix msgIn i l out rs)
    (hreach : Reaches env msgIn w₀ i l w out) (ht : msgIn.type[i]? = some t)
    (hs : processSingle env t (countBefore t msgIn.type i) msgIn out l w = .ok (l', w', out'))
    (herr : out'.error = none) :
    ∃ c m, Produced env msgIn w₀ i c m ∧
      Prefix msgIn (i + 1) { l' with msgno := l'.msgno + 1 } out' (rs ++ [(c.replyNum, m)]) := by
  obtain ⟨c, r, rfl, rfl, hrun, hr⟩ := processSingle_clean hs herr
  obtain ⟨hentry, htyped⟩ := Handler.run_complete (handlerOf_complete c) hrun hr
  obtain ⟨m, hm⟩ := Option.isSome_iff_exists.mp hentry
  refine ⟨c, m, ⟨l, w, out, l', w', r, hreach, h.clean.1, ht, hrun, hr, hm⟩, ?_⟩
  -- the handler changes the link state through its link only
  have hl' : Prefix msgIn i l' out rs := by
    rcases Handler.run_cases hrun with ⟨rfl, -⟩ | ⟨req, link, -, -, -, hlink⟩
    · exact h
    · rcases hlink with ⟨n, -, -, rfl⟩ | ⟨req', v, hlink, -⟩
      · cases hr
      · exact h.processLink hlink
  exact hl'.record ht hr hm htyped _

/-- One more call that has produced its reply. -/
theorem produced_concat {env : Env G} {msgIn : VMIMessage} {w₀ : World G} {i : ℕ}
    {rs : List (ℕ × Msg)} {c : Call} {m : Msg} (hlen : rs.length = i)
    (hrs : ∀ j < i, ∃ c m, Produced env msgIn w₀ j c m ∧ rs[j]? = some (c.replyNum, m))
    (hprod : Produced env msgIn w₀ i c m) :
    ∀ j < i + 1, ∃ c' m', Produced env msgIn w₀ j c' m' ∧
      (rs ++ [(c.replyNum, m)])[j]? = some (c'.replyNum, m') := by
  intro j hj
  rcases Nat.lt_succ_iff_lt_or_eq.mp hj with hlt | rfl
  · obtain ⟨c', m', hprod', hget⟩ := hrs j hlt
    refine ⟨c', m', hprod', ?_⟩
    rw [List.getElem?_append_left (by omega)]
    exact hget
  · refine ⟨c, m, hprod, ?_⟩
    rw [List.getElem?_append_right (by omega), hlen]
    simp

/-- **Every position that the loop reaches without an error is a prefix**, and the replies of
    the prefix are those that the earlier calls produced. -/
theorem Reaches.isPrefix {env : Env G} {msgIn out : VMIMessage} {w₀ w : World G} {i : ℕ}
    {l : LinkState} (h : Reaches env msgIn w₀ i l w out) (herr : out.error = none) :
    ∃ rs, Prefix msgIn i l out rs ∧
      ∀ j < i, ∃ c m, Produced env msgIn w₀ j c m ∧ rs[j]? = some (c.replyNum, m) := by
  induction h with
  | start => exact ⟨[], Prefix.start msgIn, fun j hj => absurd hj (Nat.not_lt_zero j)⟩
  | next hreach herr₀ ht hs ih =>
    obtain ⟨rs, hp, hrs⟩ := ih herr₀
    obtain ⟨c, m, hprod, hp'⟩ := hp.step hreach ht hs herr
    exact ⟨_, hp', produced_concat hp.length hrs hprod⟩

/-! ### Requests by position -/

section Requests

variable {msgIn : VMIMessage} {reqs before after : List (ℕ × Msg)} {c : Call}

/-- The message holds the tagged requests, each in the field of its type. -/
structure HoldsRequests (msgIn : VMIMessage) (reqs : List (ℕ × Msg)) : Prop where
  type : msgIn.type = reqs.map Prod.fst
  sub : ∀ n, isRepeated n → msgIn.sub n = bucket n reqs

theorem holdsRequests_empty : HoldsRequests VMIMessage.empty [] := ⟨rfl, fun _ _ => rfl⟩

theorem HoldsRequests.addCall (h : HoldsRequests msgIn reqs) (hrep : isRepeated c.num = true)
    (m : Msg) : HoldsRequests (msgIn.addCall c m) (reqs ++ [(c.num, m)]) where
  type := by simp [VMIMessage.addCall, VMIMessage.addType, h.type]
  sub n hn := by
    show (msgIn.put c.num m).sub n = _
    by_cases hnum : n = c.num
    · subst hnum
      simp [VMIMessage.putList, hrep, h.sub _ hrep, bucket_cons]
    · have hnum' : ¬c.num = n := fun e => hnum e.symm
      simp [hnum, hnum', h.sub n hn, bucket_cons]

/-- The request of a call, by its position. -/
theorem HoldsRequests.call {m : Msg} (h : HoldsRequests msgIn (before ++ (c.num, m) :: after))
    (hrep : isRepeated c.num = true) :
    msgIn.type[before.length]? = some c.num ∧
      countBefore c.num msgIn.type before.length = (bucket c.num before).length ∧
      msgIn.request c (bucket c.num before).length = .ok m := by
  refine ⟨?_, ?_, ?_⟩
  · rw [h.type]
    simp
  · rw [h.type, countBefore_append]
  · unfold VMIMessage.request
    rw [if_pos hrep, h.sub _ hrep, bucket_append, bucket_cons, if_pos rfl]
    simp

end Requests

/-! ### Arriving with replies -/

/-- The loop arrives at position `i` with the replies `rs`, each produced by its call. -/
structure Arrives (env : Env G) (msgIn : VMIMessage) (w₀ : World G) (i : ℕ) (l : LinkState)
    (w : World G) (out : VMIMessage) (rs : List (ℕ × Msg)) : Prop where
  reaches : Reaches env msgIn w₀ i l w out
  isPrefix : Prefix msgIn i l out rs
  produced : ∀ j < i, ∃ c m, Produced env msgIn w₀ j c m ∧ rs[j]? = some (c.replyNum, m)

section Arrives

variable {env : Env G} {msgIn out : VMIMessage} {w₀ w w' : World G} {i : ℕ} {l l' : LinkState}
  {rs before after : List (ℕ × Msg)} {c : Call} {m m' reply : Msg}

theorem Arrives.start (env : Env G) (msgIn : VMIMessage) (w₀ : World G) :
    Arrives env msgIn w₀ 0 {} w₀ VMIMessage.empty [] :=
  ⟨.start, Prefix.start msgIn, fun j hj => absurd hj (Nat.not_lt_zero j)⟩

/-- One call that gives a reply. -/
theorem Arrives.next (h : Arrives env msgIn w₀ i l w out rs) (ht : msgIn.type[i]? = some c.num)
    (hrun : (handlerOf c).run c env (countBefore c.num msgIn.type i) msgIn out l w =
      .ok (l', w', .ok m)) :
    ∃ out', Arrives env msgIn w₀ (i + 1) { l' with msgno := l'.msgno + 1 } w' out'
      (rs ++ [(c.replyNum, m)]) := by
  have hclean := h.isPrefix.clean.1
  have hs : processSingle env c.num (countBefore c.num msgIn.type i) msgIn out l w =
      .ok (l', w', record out c.replyNum (.ok m) (countBefore c.num msgIn.type i)) := by
    unfold processSingle
    rw [Call.ofNum?_num]
    dsimp only
    rw [hrun]
    rfl
  have herr : (record out c.replyNum (.ok m) (countBefore c.num msgIn.type i)).error = none := by
    rw [record_error]
    exact hclean
  obtain ⟨c₁, m₁, hprod₁, hprefix⟩ := h.isPrefix.step h.reaches ht hs herr
  -- the reply that was produced is `m`
  have hprod : Produced env msgIn w₀ i c m :=
    ⟨l, w, out, l', w', .ok m, h.reaches, hclean, ht, hrun, rfl, rfl⟩
  obtain ⟨rfl, rfl⟩ := hprod₁.unique hprod
  exact ⟨_, .next h.reaches hclean ht hs, hprefix,
    produced_concat h.isPrefix.length h.produced hprod⟩

/-- One call that resolves its link, if it has one, and gives a reply. -/
theorem Arrives.linked (h : Arrives env msgIn w₀ before.length l w out rs)
    (hreqs : HoldsRequests msgIn (before ++ (c.num, m) :: after))
    (hrep : isRepeated c.num = true) (hlinked : (handlerOf c : Handler G).linked = true)
    (hm : LinkedRequest c (bucket c.num before).length msgIn out l m l' m')
    (hbody : (handlerOf c).body env (.ok m') w = .ok (w', .ok reply)) :
    ∃ out', Arrives env msgIn w₀ (before ++ [(c.num, m)]).length
      { l' with msgno := l'.msgno + 1 } w' out' (rs ++ [(c.replyNum, reply)]) := by
  obtain ⟨ht, hcount, hrequest⟩ := hreqs.call hrep
  have hrun := Handler.run_linked hlinked hrequest hm hbody
  rw [← hcount] at hrun
  rw [List.length_append]
  exact h.next ht hrun

/-- One call that resolves no links and gives a reply. -/
theorem Arrives.unlinked (h : Arrives env msgIn w₀ before.length l w out rs)
    (hreqs : HoldsRequests msgIn (before ++ (c.num, m) :: after))
    (hrep : isRepeated c.num = true) (hlinked : (handlerOf c : Handler G).linked = false)
    (hbody : (handlerOf c).body env (.ok m) w = .ok (w', .ok reply)) :
    ∃ out', Arrives env msgIn w₀ (before ++ [(c.num, m)]).length
      { l with msgno := l.msgno + 1 } w' out' (rs ++ [(c.replyNum, reply)]) := by
  obtain ⟨ht, hcount, hrequest⟩ := hreqs.call hrep
  have hrun : (handlerOf c).run c env (countBefore c.num msgIn.type before.length) msgIn out l w =
      .ok (l, w', .ok reply) := by
    rw [hcount, Handler.run_of_not_linked hlinked, hrequest, hbody]
    rfl
  rw [List.length_append]
  exact h.next ht hrun

/-- The loop ends with the last call. -/
theorem Arrives.processProtobuf (h : Arrives env msgIn w₀ i l w out rs)
    (hend : i = msgIn.type.length) (hlen : msgIn.type.length ≤ maxTypes) :
    processProtobuf env msgIn w₀ = .ok (w, out) := by
  unfold Furnace.Vmi.processProtobuf
  rw [if_neg (not_lt.mpr hlen), processTypes_of_reaches h.reaches, hend, List.drop_length]
  rfl

end Arrives

end Furnace.Vmi
