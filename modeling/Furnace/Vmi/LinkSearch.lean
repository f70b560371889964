import Furnace.Lib.Outcome
import Furnace.Vmi.Link

namespace Furnace.Vmi

open Furnace.Proto Furnace.Lib

/-!
# The link search in closed form

As long as no error is set, the fields that `process_link` walks over are the type list and
the populated reply fields.  Which entry the walk stops at is then a matter of arithmetic:

* `findType_eq` — the type scan finds the reply type at `prev_msg_ix`, unless its cursor has
  passed it.
* `searchHit` — the walk stops in the field of that type at the entry `index - d`, where
  `d` counts the populated fields numbered above it, unless its cursor has passed it.
* `searchFields_eq` — the whole walk: it aborts on a singular field that it passes, reads the
  entry that it stops at, and answers `0` when it stops nowhere.
* `searchFields_value` — a walk that gives a value has passed repeated fields only; the value is
  that of the entry, and the cursor stands there.
-/

/-- No error is recorded. -/
def Clean (out : VMIMessage) : Prop :=
  out.error = none ∧ out.errorNum = none ∧ out.errorLoc = none

/-- A reply without an error records none. -/
theorem record_clean {out : VMIMessage} (hc : Clean out) (n : ℕ) {r : Reply}
    (hr : r.errorNum = none) (loc : ℕ) : Clean (record out n r loc) := by
  unfold record
  rw [hr]
  cases r.entry <;> cases r.typed <;> exact hc

/-- The populated reply fields, the last one first. -/
def replyFieldsOf (out : VMIMessage) : List ℕ :=
  ((List.range' 1 122).filter out.isPopulated).reverse

theorem replyFieldsOf_nodup (out : VMIMessage) : (replyFieldsOf out).Nodup := by
  unfold replyFieldsOf
  have hrange : (List.range' 1 122).Nodup := List.nodup_range'
  rw [List.nodup_reverse]
  exact hrange.filter _

theorem mem_replyFieldsOf {out : VMIMessage} {n : ℕ} :
    n ∈ replyFieldsOf out ↔ (1 ≤ n ∧ n ≤ 122) ∧ out.sub n ≠ [] := by
  have hrange : n ∈ List.range' 1 122 ↔ 1 ≤ n ∧ n ≤ 122 := by
    rw [List.mem_range'_1]
    omega
  simp [replyFieldsOf, hrange, VMIMessage.isPopulated]

/-- The type list, when it is not empty, is the last field and is met first. -/
theorem listFields_reverse {out : VMIMessage} (hc : Clean out) (ht : out.type ≠ []) :
    out.listFields.reverse = VMIMessage.typeField :: replyFieldsOf out := by
  obtain ⟨he, hn, hl⟩ := hc
  have hempty : out.type.isEmpty = false := by simpa using ht
  simp [VMIMessage.listFields, he, hn, hl, hempty, replyFieldsOf]

/-! ### The type scan -/

/-- The reply type that the type scan finds from its cursor on. -/
def scannedType (out : VMIMessage) (p nthType : ℕ) : Option ℕ :=
  if nthType ≤ p then out.type[p]? else none

theorem findType_eq {out : VMIMessage} (hc : Clean out) (ht : out.type ≠ []) (p nthType : ℕ) :
    findType out p nthType =
      .ok ((scannedType out p nthType).getD 0,
        if (scannedType out p nthType).isSome then p else nthType) := by
  have hsize : out.fieldSize VMIMessage.typeField = .ok out.type.length := rfl
  unfold findType
  rw [listFields_reverse hc ht]
  simp only [hsize, if_true, scanFrom_eq]
  unfold scannedType
  by_cases hle : nthType ≤ p
  · simp only [Nat.add_zero, Nat.sub_zero, if_pos hle]
    cases out.type[p]? <;> rfl
  · simp only [Nat.add_zero, if_neg hle]
    rfl

/-! ### The walk over the reply fields -/

section Walk

variable (prevItemIx index msgtype tgttype : ℕ) (out : VMIMessage)

/-- One field of the walk. -/
theorem searchFields_cons (n : ℕ) (ns : List ℕ) (d : ℕ) (prior : UInt64) (ix : ℕ) :
    searchFields prevItemIx index msgtype tgttype out (n :: ns) d prior ix =
      if isRepeated n then
        if n = tgttype then
          match (if ix + d ≤ index then (out.sub n)[index - d]? else none) with
          | some item => do
            match ← readTarget n msgtype prevItemIx item with
            | .ok v => searchFields prevItemIx index msgtype tgttype out ns (d + 1) v (index - d)
            | .error e => .ok (.error e)
          | none => searchFields prevItemIx index msgtype tgttype out ns (d + 1) prior ix
        else searchFields prevItemIx index msgtype tgttype out ns (d + 1) prior ix
      else .error .wrongLabel := by
  rw [searchFields]
  -- a repeated field has a size, which the walk does not need; a singular one has none
  by_cases hrep : isRepeated n = true
  · have hsize : ∃ k, out.fieldSize n = .ok k := by
      unfold VMIMessage.fieldSize
      rw [hrep]
      by_cases hn : n = VMIMessage.typeField <;> simp [hn]
    obtain ⟨k, hk⟩ := hsize
    rw [hk, if_pos hrep, scanFrom_eq]
    show (if n = tgttype then _ else _) = _
    by_cases hn : n = tgttype
    · rw [if_pos hn, if_pos hn]
      by_cases hle : ix + d ≤ index
      · simp only [if_pos hle]
        cases (out.sub n)[index - d]? <;> rfl
      · simp only [if_neg hle]
    · rw [if_neg hn, if_neg hn]
  · have hsize : out.fieldSize n = .error .wrongLabel := by
      unfold VMIMessage.fieldSize
      simp [hrep]
    rw [hsize, if_neg hrep]
    rfl

/-- A walk past fields other than the target changes nothing but the depth; it aborts when
    one of them is singular. -/
theorem searchFields_append (ns ms : List ℕ) (hns : tgttype ∉ ns) (d : ℕ) (prior : UInt64)
    (ix : ℕ) :
    searchFields prevItemIx index msgtype tgttype out (ns ++ ms) d prior ix =
      if ns.all isRepeated then
        searchFields prevItemIx index msgtype tgttype out ms (d + ns.length) prior ix
      else .error .wrongLabel := by
  -- each field that is passed adds one to the depth
  induction ns generalizing d with
  | nil => simp
  | cons n ns ih =>
    have hn : n ≠ tgttype := fun h => hns (by simp [h])
    have hns' : tgttype ∉ ns := fun h => hns (by simp [h])
    rw [List.cons_append, searchFields_cons, if_neg hn, ih hns', List.all_cons, List.length_cons,
      show d + 1 + ns.length = d + (ns.length + 1) by omega]
    by_cases hrep : isRepeated n = true <;> simp [hrep]

/-- A walk that never meets the target. -/
theorem searchFields_of_not_mem (ns : List ℕ) (hns : tgttype ∉ ns) (d : ℕ) (prior : UInt64)
    (ix : ℕ) :
    searchFields prevItemIx index msgtype tgttype out ns d prior ix =
      if ns.all isRepeated then .ok (.ok (prior, ix)) else .error .wrongLabel := by
  have h := searchFields_append prevItemIx index msgtype tgttype out ns [] hns d prior ix
  rwa [List.append_nil, searchFields] at h

/-- The entry at which a walk over the populated reply fields stops. -/
def searchHit (ix : ℕ) : Option Msg :=
  if tgttype ∈ replyFieldsOf out ∧ ix + (replyFieldsOf out).idxOf tgttype ≤ index then
    (out.sub tgttype)[index - (replyFieldsOf out).idxOf tgttype]?
  else none

/-- No reply field is numbered zero. -/
theorem searchHit_zero (ix : ℕ) : searchHit index 0 out ix = none := by
  have h0 : 0 ∉ replyFieldsOf out := by
    rw [mem_replyFieldsOf]
    omega
  simp [searchHit, h0]

/-- The fields that the walk has asked for their size once it has met the target. -/
def fieldsToTarget : List ℕ := (replyFieldsOf out).take ((replyFieldsOf out).idxOf tgttype + 1)

/-- The fields after the target. -/
def fieldsPastTarget : List ℕ := (replyFieldsOf out).drop ((replyFieldsOf out).idxOf tgttype + 1)

/-- **The walk in closed form.** -/
theorem searchFields_eq (ix : ℕ) :
    searchFields prevItemIx index msgtype tgttype out (replyFieldsOf out) 0 0 ix =
      match searchHit index tgttype out ix with
      | none =>
        if (replyFieldsOf out).all isRepeated then .ok (.ok (0, ix)) else .error .wrongLabel
      | some item =>
        if (fieldsToTarget tgttype out).all isRepeated then do
          match ← readTarget tgttype msgtype prevItemIx item with
          | .ok v =>
            if (fieldsPastTarget tgttype out).all isRepeated then
              .ok (.ok (v, index - (replyFieldsOf out).idxOf tgttype))
            else .error .wrongLabel
          | .error e => .ok (.error e)
        else .error .wrongLabel := by
  unfold searchHit fieldsToTarget fieldsPastTarget
  have hnodup := replyFieldsOf_nodup out
  generalize replyFieldsOf out = ns at hnodup
  by_cases hmem : tgttype ∈ ns
  · -- split the fields at the target, which occurs once
    obtain ⟨above, below, rfl, habove⟩ := List.eq_append_cons_of_mem hmem
    have hbelow : tgttype ∉ below := by
      have htail := (List.nodup_append.mp hnodup).2.1
      exact (List.nodup_cons.mp htail).1
    have hidx : (above ++ tgttype :: below).idxOf tgttype = above.length := by
      rw [List.idxOf_append, if_neg habove, List.idxOf_cons_self]
      omega
    have htake : (above ++ tgttype :: below).take (above.length + 1) = above ++ [tgttype] := by
      simp [List.take_append]
    have hdrop : (above ++ tgttype :: below).drop (above.length + 1) = below := by
      simp [List.drop_append]
    rw [hidx, htake, hdrop, searchFields_append _ _ _ _ _ _ _ habove, searchFields_cons,
      if_pos rfl, Nat.zero_add]
    simp only [List.all_append, List.all_cons, List.all_nil, Bool.and_true, hmem, true_and,
      searchFields_of_not_mem _ _ _ _ _ _ hbelow]
    generalize (if ix + above.length ≤ index then (out.sub tgttype)[index - above.length]?
      else none) = hit
    -- a singular field above the target, or the target itself, aborts before the entry is read
    cases above.all isRepeated with
    | false => cases hit <;> rfl
    | true =>
      cases isRepeated tgttype with
      | false => cases hit <;> rfl
      | true => cases hit <;> rfl
  · rw [searchFields_of_not_mem _ _ _ _ _ _ hmem]
    simp [hmem]

/-- The walk passes all fields: those up to the target and those behind it. -/
theorem all_isRepeated_iff :
    (replyFieldsOf out).all isRepeated = true ↔
      (fieldsToTarget tgttype out).all isRepeated = true ∧
        (fieldsPastTarget tgttype out).all isRepeated = true := by
  unfold fieldsToTarget fieldsPastTarget
  conv_lhs => rw [← List.take_append_drop ((replyFieldsOf out).idxOf tgttype + 1)
    (replyFieldsOf out)]
  rw [List.all_append, Bool.and_eq_true]

/-- What a search that starts at the entry `ix` of the field `tgttype` reads: the number in the
    field of the entry that it stops at, zero if it stops nowhere. -/
def foundValue (ix : ℕ) : Option UInt64 :=
  match searchHit index tgttype out ix with
  | none => some 0
  | some item => ((replyDescriptor tgttype)[prevItemIx]?).bind (numericValue item)

/-- Past the three checks of an entry its field is there and numeric. -/
theorem readTarget_found {item : Msg} {v : UInt64}
    (h : readTarget tgttype msgtype prevItemIx item = .ok (.ok v)) :
    ((replyDescriptor tgttype)[prevItemIx]?).bind (numericValue item) = some v := by
  unfold readTarget at h
  split at h
  · cases h
  split at h
  · cases h
  split at h
  · cases h
  case h_2 fd hfd =>
    rw [hfd, Option.bind_some]
    split at h
    case h_1 u hu =>
      cases h
      exact hu
    case h_2 => cases h

/-- A walk that ends with a value has passed all fields.  It read the value from the entry it
    stopped at, which the entry cursor then points to, or stopped nowhere. -/
theorem searchFields_value {ix ix' : ℕ} {v : UInt64}
    (h : searchFields prevItemIx index msgtype tgttype out (replyFieldsOf out) 0 0 ix =
      .ok (.ok (v, ix'))) :
    (replyFieldsOf out).all isRepeated = true ∧
      foundValue prevItemIx index tgttype out ix = some v ∧
      ix' = if (searchHit index tgttype out ix).isSome then
        index - (replyFieldsOf out).idxOf tgttype else ix := by
  rw [searchFields_eq] at h
  unfold foundValue
  cases hhit : searchHit index tgttype out ix with
  | none =>
    rw [hhit] at h
    dsimp only at h
    split at h
    case isFalse => cases h
    case isTrue hall =>
      cases h
      exact ⟨hall, rfl, rfl⟩
  | some item =>
    rw [hhit] at h
    dsimp only at h
    split at h
    case isFalse => cases h
    case isTrue hto =>
      obtain ⟨read, hread, h⟩ := bind_eq_ok.mp h
      cases read with
      | error e => cases h
      | ok u =>
        dsimp only at h
        split at h
        case isFalse => cases h
        case isTrue hpast =>
          cases h
          exact ⟨(all_isRepeated_iff tgttype out).mpr ⟨hto, hpast⟩, readTarget_found _ _ _ hread,
            rfl⟩

end Walk

/-! ### Inverting `process_link` -/

section Invert

variable {fields : Descriptor} {m : Msg} {link : Linkage} {index msgtype : ℕ}
  {msgIn out : VMIMessage} {l l' : LinkState}

/-- A request that takes the link combines exactly the prior result. -/
theorem applyLink_operand {prior v : UInt64} {m' : Msg}
    (h : applyLink fields m link prior = .ok (.linked m' v)) : v = prior := by
  unfold applyLink at h
  split at h
  · cases h
  split at h
  · cases h
  split at h
  · cases h
  split at h
  · cases h
  split at h <;> cases h <;> rfl

/-- The two ways to a prior result: the cache, or a search that fills it. -/
theorem priorResult_cases {r : Except ℕ UInt64}
    (h : priorResult link msgtype index out l = .ok (l', r)) :
    (∃ v, l.cache link.prevMsgIx = some v ∧ l' = l ∧ r = .ok v) ∨
    (l.cache link.prevMsgIx = none ∧ ∃ tgttype nthType,
      findType out link.prevMsgIx l.nthType = .ok (tgttype, nthType) ∧
      ((∃ e, searchFields link.prevItemIx index msgtype tgttype out
            out.listFields.reverse.tail 0 0 l.nthFieldIx = .ok (.error e) ∧
          r = .error e ∧ l' = { l with nthType := nthType }) ∨
       (∃ v ix, searchFields link.prevItemIx index msgtype tgttype out
            out.listFields.reverse.tail 0 0 l.nthFieldIx = .ok (.ok (v, ix)) ∧
          r = .ok v ∧
          l' = { l with nthType := nthType, nthFieldIx := ix,
                        cache := Function.update l.cache link.prevMsgIx (some v) }))) := by
  unfold priorResult at h
  cases hcache : l.cache link.prevMsgIx with
  | some v =>
    rw [hcache] at h
    cases h
    exact .inl ⟨v, rfl, rfl, rfl⟩
  | none =>
    right
    rw [hcache] at h
    obtain ⟨⟨tgttype, nthType⟩, hfind, h⟩ := bind_eq_ok.mp h
    obtain ⟨res, hsearch, h⟩ := bind_eq_ok.mp h
    refine ⟨rfl, tgttype, nthType, hfind, ?_⟩
    cases res with
    | error e =>
      cases h
      exact .inl ⟨e, hsearch, rfl, rfl⟩
    | ok res =>
      obtain ⟨v, ix⟩ := res
      cases h
      exact .inr ⟨v, ix, hsearch, rfl, rfl⟩

/-- What it takes for `process_link` to return true. -/
theorem processLink_linked {m' : Msg} {v : UInt64}
    (h : processLink fields m link index msgIn out l = .ok (l', .linked m' v)) :
    l.nthType < l.msgno ∧ ∃ t, msgIn.type[link.prevMsgIx]? = some t ∧
      priorResult link (t + 1) index out l = .ok (l', .ok v) ∧
      applyLink fields m link v = .ok (.linked m' v) := by
  unfold processLink at h
  by_cases hguard : l.msgno ≤ l.nthType
  · rw [if_pos hguard] at h
    cases h
  by_cases hsize : msgIn.type.length < link.prevMsgIx
  · rw [if_neg hguard, if_pos hsize] at h
    cases h
  rw [if_neg hguard, if_neg hsize] at h
  refine ⟨not_le.mp hguard, ?_⟩
  split at h
  · cases h
  case h_2 t ht =>
    obtain ⟨⟨l₁, res⟩, hprior, h⟩ := bind_eq_ok.mp h
    cases res with
    | error e => cases h
    | ok prior =>
      obtain ⟨o, happly, h⟩ := bind_eq_ok.mp h
      cases h
      -- the operand is the prior result, which the search may have put into the cache
      have hv := applyLink_operand happly
      subst hv
      exact ⟨t, ht, hprior, happly⟩

/-- Past the guards, with a prior result, the outcome is that of the last part. -/
theorem processLink_of_prior {t : ℕ} {v : UInt64} (hguard : l.nthType < l.msgno)
    (ht : msgIn.type[link.prevMsgIx]? = some t)
    (hprior : priorResult link (t + 1) index out l = .ok (l', .ok v)) :
    processLink fields m link index msgIn out l =
      (applyLink fields m link v).map fun o => (l', o) := by
  have hlt := (List.getElem?_eq_some_iff.mp ht).1
  unfold processLink
  rw [if_neg (not_le.mpr hguard), if_neg (by omega), ht]
  show priorResult link (t + 1) index out l >>= _ = _
  rw [hprior]
  show applyLink fields m link v >>= _ = _
  cases applyLink fields m link v <;> rfl

end Invert

end Furnace.Vmi
