import Furnace.Vmi.LinkHistory

namespace Furnace.Vmi

open Furnace.Proto Furnace.Lib

/-!
# Which links are safe to resolve

`process_link` guards the indices of a link with three hand-written checks, and reads the
size of every populated reply field.  At a position that the loop over a message reaches
without an error, the results here say exactly when all of its accesses are defined, and
exactly when a link that does not point backwards is rejected without a trace.

* `LinkSafe` / `LinkInRange` — every access is defined, and the condition for it.
* `RejectedCleanly` / `ForwardGuarded` — the link is rejected and nothing else happens, and
  the condition for it when the link does not point backwards.
-/

variable {G : Type}

/-! ### The last part of `process_link` -/

section Apply

variable {fields : Descriptor} {m : Msg} {link : Linkage}

/-- The access to the current field is undefined exactly at the field count. -/
theorem applyLink_ok_iff (prior : UInt64) :
    (∃ o, applyLink fields m link prior = .ok o) ↔ link.curItemIx ≠ fields.length := by
  unfold applyLink
  constructor
  · rintro ⟨o, h⟩ heq
    rw [if_neg (by omega), List.getElem?_eq_none (by omega)] at h
    cases h
  · intro hne
    by_cases hlt : fields.length < link.curItemIx
    · exact ⟨_, if_pos hlt⟩
    · rw [if_neg hlt, List.getElem?_eq_getElem (by omega)]
      dsimp only
      split
      · exact ⟨_, rfl⟩
      split
      · exact ⟨_, rfl⟩
      split <;> exact ⟨_, rfl⟩

/-- A link that is taken names a field of the request. -/
theorem applyLink_lt {prior v : UInt64} {m' : Msg}
    (h : applyLink fields m link prior = .ok (.linked m' v)) : link.curItemIx < fields.length := by
  by_contra hge
  unfold applyLink at h
  by_cases hlt : fields.length < link.curItemIx
  · rw [if_pos hlt] at h
    cases h
  · rw [if_neg hlt, List.getElem?_eq_none (by omega)] at h
    cases h

/-- Whether a field can take a combined value. -/
def isLinkable (fd : FieldDescriptor) : Bool := fd.type = .uint64 || fd.type = .int32

/-- Whether a field can be read as a number. -/
def isNumeric (fd : FieldDescriptor) : Bool :=
  fd.type = .uint64 || fd.type = .int32 || fd.type = .uint32

theorem numericValue_isSome (item : Msg) (fd : FieldDescriptor) :
    (numericValue item fd).isSome = isNumeric fd := by
  unfold numericValue isNumeric
  cases fd.type <;> rfl

/-- With nothing to combine, a link is rejected exactly for a field index that is too large
    or a field that cannot take a value. -/
theorem applyLink_zero_rejected_iff :
    (∃ n, applyLink fields m link 0 = .ok (.rejected n)) ↔
      fields.length < link.curItemIx ∨
        ∃ fd, fields[link.curItemIx]? = some fd ∧ isLinkable fd = false := by
  unfold applyLink
  by_cases hlt : fields.length < link.curItemIx
  · simp [hlt]
  · rw [if_neg hlt]
    cases hfd : fields[link.curItemIx]? with
    | none => simp [hlt]
    | some fd =>
      -- no operator can fail on zero
      have hcombine : ∀ x, ∃ y, combine link.operator x 0 = .ok y := by
        intro x
        unfold combine
        cases link.operator with
        | sub => exact ⟨x - 0, if_neg (by simp)⟩
        | add => exact ⟨x + 0, rfl⟩
        | overwrite => exact ⟨0, rfl⟩
      simp only [hlt, false_or, Option.some.injEq, exists_eq_left', isLinkable]
      unfold numericValue
      cases htype : fd.type with
      | uint64 =>
        obtain ⟨y, hy⟩ := hcombine ((m.u64? fd.name).getD 0)
        simp [hy]
      | int32 =>
        obtain ⟨y, hy⟩ := hcombine ((m.i32? fd.name).getD 0).toInt64.toUInt64
        simp [hy]
      | uint32 =>
        obtain ⟨y, hy⟩ := hcombine ((m.u32? fd.name).getD 0).toUInt64
        simp [hy]
      | _ => simp

end Apply

/-! ### `process_link` past its first checks -/

section Position

variable {msgIn out : VMIMessage} {i : ℕ} {l : LinkState} {rs : List (ℕ × Msg)}
  {fields : Descriptor} {m : Msg} {link : Linkage} {index : ℕ}

/-- The first call of a message rejects its link. -/
theorem Prefix.processLink_first (h : Prefix msgIn 0 l out rs) :
    Vmi.processLink fields m link index msgIn out l = .ok (l, .rejected 10) := by
  -- no call has been counted yet, and the cursor is at the start
  have hguard : l.msgno ≤ l.nthType := by
    rw [h.msgno]
    exact Nat.zero_le _
  unfold Vmi.processLink
  rw [if_pos hguard]

/-- No later call is stopped by the check against the type cursor. -/
theorem Prefix.guard (h : Prefix msgIn i l out rs) (hi : 0 < i) : ¬ l.msgno ≤ l.nthType := by
  have hmsgno := h.msgno
  rcases h.nthType with hlt | h0 <;> omega

theorem Prefix.processLink_beyond (h : Prefix msgIn i l out rs) (hi : 0 < i)
    (hp : msgIn.type.length < link.prevMsgIx) :
    Vmi.processLink fields m link index msgIn out l = .ok (l, .rejected 11) := by
  unfold Vmi.processLink
  rw [if_neg (h.guard hi), if_pos hp]

/-- The size check lets through the index that equals the size. -/
theorem Prefix.processLink_end (h : Prefix msgIn i l out rs) (hi : 0 < i)
    (hp : link.prevMsgIx = msgIn.type.length) :
    Vmi.processLink fields m link index msgIn out l = .error .outOfRange := by
  unfold Vmi.processLink
  rw [if_neg (h.guard hi), if_neg (by omega), List.getElem?_eq_none (by omega)]

/-- A reference into the message goes on to the search. -/
theorem Prefix.processLink_inside (h : Prefix msgIn i l out rs) (hi : 0 < i) {t : ℕ}
    (ht : msgIn.type[link.prevMsgIx]? = some t) :
    Vmi.processLink fields m link index msgIn out l = (do
      match ← priorResult link (t + 1) index out l with
      | (l, .error e) => .ok (l, .rejected e)
      | (l, .ok prior) => (applyLink fields m link prior).map fun o => (l, o)) := by
  have hlt := (List.getElem?_eq_some_iff.mp ht).1
  unfold Vmi.processLink
  rw [if_neg (h.guard hi), if_neg (by omega), ht]
  dsimp only [bind, Except.bind]
  cases priorResult link (t + 1) index out l with
  | error f => rfl
  | ok res =>
    obtain ⟨l₁, r⟩ := res
    cases r with
    | error e => rfl
    | ok prior => cases happly : applyLink fields m link prior <;> simp [happly, Except.map]

end Position

/-! ### Defined accesses -/

/-- An index of the link that lies outside what it indexes: the message, the request, or the
    reply that the search stops at. -/
def BadIndex (fields : Descriptor) (link : Linkage) (index : ℕ) (msgIn out : VMIMessage)
    (l : LinkState) : Prop :=
  msgIn.type.length ≤ link.prevMsgIx ∨ fields.length ≤ link.curItemIx ∨
    (l.cache link.prevMsgIx = none ∧
      (searchHit index (targetType out l link.prevMsgIx) out l.nthFieldIx).isSome ∧
      (replyDescriptor (targetType out l link.prevMsgIx)).length ≤ link.prevItemIx)

/-- Every access of `process_link` is defined, and a bad index is reported. -/
def LinkSafe (fields : Descriptor) (m : Msg) (link : Linkage) (index : ℕ)
    (msgIn out : VMIMessage) (l : LinkState) : Prop :=
  ∃ l' o, processLink fields m link index msgIn out l = .ok (l', o) ∧
    (BadIndex fields link index msgIn out l → ∃ n, o = .rejected n)

/-- The walk passes repeated fields only, and the item index is not the field count of the
    reply that it stops at.  A reply that it stops at and rejects ends the walk, and spares
    what comes after. -/
def WalkInRange (fields : Descriptor) (link : Linkage) (index tgttype : ℕ) (out : VMIMessage)
    (ix : ℕ) : Prop :=
  match searchHit index tgttype out ix with
  | none => (replyFieldsOf out).all isRepeated ∧ link.curItemIx ≠ fields.length
  | some _ => (fieldsToTarget tgttype out).all isRepeated ∧
      ((replyDescriptor tgttype).length < link.prevItemIx ∨
        (∃ fd, (replyDescriptor tgttype)[link.prevItemIx]? = some fd ∧ isNumeric fd = false) ∨
        (link.prevItemIx < (replyDescriptor tgttype).length ∧
          (fieldsPastTarget tgttype out).all isRepeated ∧ link.curItemIx ≠ fields.length))

/-- Where the three index checks and the walk do no harm: the call is the first one, or the
    link points past the message, or it points into the message and either its value is
    cached or the walk stays in range. -/
def LinkInRange (fields : Descriptor) (link : Linkage) (index i : ℕ) (msgIn out : VMIMessage)
    (l : LinkState) : Prop :=
  i = 0 ∨ msgIn.type.length < link.prevMsgIx ∨
    (link.prevMsgIx < msgIn.type.length ∧
      match l.cache link.prevMsgIx with
      | some _ => link.curItemIx ≠ fields.length
      | none => WalkInRange fields link index (targetType out l link.prevMsgIx) out l.nthFieldIx)

section Safe

variable {msgIn out : VMIMessage} {i : ℕ} {l : LinkState} {rs : List (ℕ × Msg)}
  {fields : Descriptor} {m : Msg} {link : Linkage} {index : ℕ}

/-- What the checks of the target entry amount to, where its type is the expected one. -/
theorem readTarget_self (n prevItemIx : ℕ) (item : Msg) :
    readTarget n n prevItemIx item =
      if (replyDescriptor n).length < prevItemIx then .ok (.error 18)
      else match (replyDescriptor n)[prevItemIx]? with
        | none => .error .outOfRange
        | some fd => match numericValue item fd with
          | some v => .ok (.ok v)
          | none => .ok (.error 20) := by
  unfold readTarget
  exact if_neg (not_not.mpr rfl)

/-- A link that is taken had no bad index. -/
theorem Prefix.linked_not_bad (h : Prefix msgIn i l out rs) (hi : 0 < i) {l' : LinkState}
    {m' : Msg} {v : UInt64}
    (hl : Vmi.processLink fields m link index msgIn out l = .ok (l', .linked m' v)) :
    ¬ BadIndex fields link index msgIn out l := by
  -- a link that is taken has passed every access, so each index was good
  obtain ⟨-, t, ht, hprior, happly⟩ := processLink_linked hl
  have hp : link.prevMsgIx < msgIn.type.length := (List.getElem?_eq_some_iff.mp ht).1
  have hcur := applyLink_lt happly
  rintro (hbad | hbad | ⟨hmiss, hhit, hitem⟩)
  · omega
  · omega
  · -- the search stops at an entry whose declaration has no such field
    obtain ⟨item, hhit⟩ := Option.isSome_iff_exists.mp hhit
    rw [h.priorResult_miss hi hmiss, searchFields_eq, hhit] at hprior
    obtain ⟨res, hsearch, hres⟩ := map_eq_ok.mp hprior
    dsimp only at hsearch
    split at hsearch
    case isFalse => cases hsearch
    case isTrue =>
      obtain ⟨read, hread, hsearch⟩ := bind_eq_ok.mp hsearch
      unfold readTarget at hread
      split at hread
      · cases hread
        cases hsearch
        cases hres
      split at hread
      · cases hread
        cases hsearch
        cases hres
      rw [List.getElem?_eq_none hitem] at hread
      cases hread

/-- A search is over when its target is rejected, or when its value can be combined. -/
theorem Prefix.processLink_ok_iff (h : Prefix msgIn i l out rs) (hi : 0 < i) {t : ℕ}
    (ht : msgIn.type[link.prevMsgIx]? = some t) (hmiss : l.cache link.prevMsgIx = none) :
    (∃ r, Vmi.processLink fields m link index msgIn out l = .ok r) ↔
      (∃ e, searchFields link.prevItemIx index (t + 1) (targetType out l link.prevMsgIx) out
        (replyFieldsOf out) 0 0 l.nthFieldIx = .ok (.error e)) ∨
      ((∃ x, searchFields link.prevItemIx index (t + 1) (targetType out l link.prevMsgIx) out
        (replyFieldsOf out) 0 0 l.nthFieldIx = .ok (.ok x)) ∧ link.curItemIx ≠ fields.length) := by
  rw [h.processLink_inside hi ht, h.priorResult_miss hi hmiss]
  cases searchFields link.prevItemIx index (t + 1) (targetType out l link.prevMsgIx) out
      (replyFieldsOf out) 0 0 l.nthFieldIx with
  | error f =>
    constructor
    · rintro ⟨r, hr⟩
      cases hr
    · rintro (⟨e, he⟩ | ⟨⟨x, hx⟩, -⟩)
      · cases he
      · cases hx
  | ok res =>
    cases res with
    | error e => exact ⟨fun _ => .inl ⟨e, rfl⟩, fun _ => ⟨_, rfl⟩⟩
    | ok x =>
      -- a value that was found goes on to the current request, whatever it is
      have happly : (∃ o, applyLink fields m link x.1 = .ok o) ↔ link.curItemIx ≠ fields.length :=
        applyLink_ok_iff x.1
      constructor
      · intro hr
        exact .inr ⟨⟨x, rfl⟩, happly.mp (exists_map_eq_ok.mp hr)⟩
      · rintro (⟨e, he⟩ | ⟨-, hcur⟩)
        · cases he
        · exact exists_map_eq_ok.mpr (happly.mpr hcur)

/-- An entry of the expected type gives a value where its field exists and is numeric. -/
theorem readTarget_value_iff {n prevItemIx : ℕ} {item : Msg} :
    (∃ v, readTarget n n prevItemIx item = .ok (.ok v)) ↔
      ∃ fd, (replyDescriptor n)[prevItemIx]? = some fd ∧ isNumeric fd = true := by
  rw [readTarget_self]
  by_cases hlen : (replyDescriptor n).length < prevItemIx
  · rw [if_pos hlen, List.getElem?_eq_none (by omega)]
    simp
  rw [if_neg hlen]
  cases (replyDescriptor n)[prevItemIx]? with
  | none => simp
  | some fd =>
    -- the declared type decides, not the value
    have hnum : (numericValue item fd).isSome = isNumeric fd := numericValue_isSome item fd
    cases hv : numericValue item fd with
    | none => simp [← hnum, hv]
    | some v => simp [← hnum, hv]

/-- It is rejected where the index is too large by more than one, or the field not numeric. -/
theorem readTarget_rejected_iff {n prevItemIx : ℕ} {item : Msg} :
    (∃ e, readTarget n n prevItemIx item = .ok (.error e)) ↔
      (replyDescriptor n).length < prevItemIx ∨
        ∃ fd, (replyDescriptor n)[prevItemIx]? = some fd ∧ isNumeric fd = false := by
  rw [readTarget_self]
  by_cases hlen : (replyDescriptor n).length < prevItemIx
  · rw [if_pos hlen]
    simp [hlen]
  rw [if_neg hlen, or_iff_right hlen]
  cases (replyDescriptor n)[prevItemIx]? with
  | none => simp
  | some fd =>
    have hnum : (numericValue item fd).isSome = isNumeric fd := numericValue_isSome item fd
    cases hv : numericValue item fd with
    | none => simp [← hnum, hv]
    | some v => simp [← hnum, hv]

/-- A rejected search, where the walk stops in the field of the expected type. -/
theorem searchFields_rejected_iff {prevItemIx msgtype tgttype ix : ℕ}
    (hself : (searchHit index tgttype out ix).isSome → (fieldsToTarget tgttype out).all isRepeated →
      tgttype = msgtype) :
    (∃ e, searchFields prevItemIx index msgtype tgttype out (replyFieldsOf out) 0 0 ix =
        .ok (.error e)) ↔
      (searchHit index tgttype out ix).isSome ∧ (fieldsToTarget tgttype out).all isRepeated ∧
        ((replyDescriptor tgttype).length < prevItemIx ∨
          ∃ fd, (replyDescriptor tgttype)[prevItemIx]? = some fd ∧ isNumeric fd = false) := by
  rw [searchFields_eq]
  cases hhit : searchHit index tgttype out ix with
  | none =>
    constructor
    · rintro ⟨e, he⟩
      dsimp only at he
      split at he <;> cases he
    · rintro ⟨hsome, -⟩
      cases hsome
  | some item =>
    by_cases hto : (fieldsToTarget tgttype out).all isRepeated = true
    · have hm := hself (by rw [hhit]; rfl) hto
      subst hm
      have hread : (∃ e, readTarget tgttype tgttype prevItemIx item = .ok (.error e)) ↔ _ :=
        readTarget_rejected_iff
      rw [← hread]
      simp only [hto, if_true, Option.isSome_some, true_and]
      constructor
      · rintro ⟨e, he⟩
        obtain ⟨read, hread, he⟩ := bind_eq_ok.mp he
        cases read with
        | error e' => exact ⟨e', hread⟩
        | ok v =>
          dsimp only at he
          split at he <;> cases he
      · rintro ⟨e, he⟩
        exact ⟨e, bind_eq_ok.mpr ⟨.error e, he, rfl⟩⟩
    · simp [hto]

/-- A search that gives a value. -/
theorem searchFields_found_iff {prevItemIx msgtype tgttype ix : ℕ}
    (hself : (searchHit index tgttype out ix).isSome → (fieldsToTarget tgttype out).all isRepeated →
      tgttype = msgtype) :
    (∃ x, searchFields prevItemIx index msgtype tgttype out (replyFieldsOf out) 0 0 ix =
        .ok (.ok x)) ↔
      (searchHit index tgttype out ix = none ∧ (replyFieldsOf out).all isRepeated) ∨
      ((searchHit index tgttype out ix).isSome ∧ (fieldsToTarget tgttype out).all isRepeated ∧
        (fieldsPastTarget tgttype out).all isRepeated ∧
        ∃ fd, (replyDescriptor tgttype)[prevItemIx]? = some fd ∧ isNumeric fd = true) := by
  rw [searchFields_eq]
  cases hhit : searchHit index tgttype out ix with
  | none =>
    by_cases hall : (replyFieldsOf out).all isRepeated = true
    · simp [hall]
    · simp [hall]
  | some item =>
    by_cases hto : (fieldsToTarget tgttype out).all isRepeated = true
    · have hm := hself (by rw [hhit]; rfl) hto
      subst hm
      have hread : (∃ v, readTarget tgttype tgttype prevItemIx item = .ok (.ok v)) ↔ _ :=
        readTarget_value_iff
      rw [← hread]
      simp only [hto, if_true, Option.isSome_some, true_and, reduceCtorEq, false_and, false_or]
      constructor
      · rintro ⟨x, hx⟩
        obtain ⟨read, hread, hx⟩ := bind_eq_ok.mp hx
        cases read with
        | error e => cases hx
        | ok v =>
          -- the fields after the target are asked for their size as well
          dsimp only at hx
          split at hx
          case isTrue hpast => exact ⟨hpast, v, hread⟩
          case isFalse => cases hx
      · rintro ⟨hpast, v, hv⟩
        exact ⟨_, bind_eq_ok.mpr ⟨.ok v, hv, if_pos hpast⟩⟩
    · simp [hto]

/-- Where the walk stops in a repeated field, it is the field of the expected reply type. -/
theorem Prefix.searchHit_self (h : Prefix msgIn i l out rs) {p t ix : ℕ}
    (ht : msgIn.type[p]? = some t)
    (hhit : (searchHit index (targetType out l p) out ix).isSome)
    (hto : (fieldsToTarget (targetType out l p) out).all isRepeated) :
    targetType out l p = t + 1 := by
  have hscan : (scannedType out p l.nthType).isSome := by
    by_contra hnone
    rw [Bool.not_eq_true, Option.isSome_eq_false_iff, Option.isNone_iff_eq_none] at hnone
    rw [targetType, hnone, Option.getD_none, searchHit_zero] at hhit
    cases hhit
  have hmem : targetType out l p ∈ replyFieldsOf out := by
    unfold searchHit at hhit
    split at hhit
    case isTrue hcond => exact hcond.1
    case isFalse => cases hhit
  have hmemTo : targetType out l p ∈ fieldsToTarget (targetType out l p) out := by
    unfold fieldsToTarget
    rw [List.mem_take_iff_idxOf_lt hmem]
    exact Nat.lt_succ_self _
  exact h.targetType_eq ht (List.all_eq_true.mp hto _ hmemTo) hscan

/-- The search of a position, and what follows it, is defined exactly where it stays in
    range. -/
theorem Prefix.walk_defined_iff (h : Prefix msgIn i l out rs) (hi : 0 < i) {t : ℕ}
    (ht : msgIn.type[link.prevMsgIx]? = some t) (hmiss : l.cache link.prevMsgIx = none) :
    (∃ r, Vmi.processLink fields m link index msgIn out l = .ok r) ↔
      WalkInRange fields link index (targetType out l link.prevMsgIx) out l.nthFieldIx := by
  have hself : (searchHit index (targetType out l link.prevMsgIx) out l.nthFieldIx).isSome →
      (fieldsToTarget (targetType out l link.prevMsgIx) out).all isRepeated →
      targetType out l link.prevMsgIx = t + 1 := h.searchHit_self ht
  rw [h.processLink_ok_iff hi ht hmiss, searchFields_rejected_iff hself,
    searchFields_found_iff hself]
  unfold WalkInRange
  generalize targetType out l link.prevMsgIx = tgttype
  cases searchHit index tgttype out l.nthFieldIx with
  | none => simp
  | some item =>
    simp only [Option.isSome_some, true_and, reduceCtorEq, false_and, false_or]
    constructor
    · rintro (⟨hto, hrej⟩ | ⟨⟨hto, hpast, fd, hfd, -⟩, hcur⟩)
      · exact ⟨hto, hrej.imp id .inl⟩
      · exact ⟨hto, .inr (.inr ⟨(List.getElem?_eq_some_iff.mp hfd).1, hpast, hcur⟩)⟩
    · rintro ⟨hto, hlen | hnot | ⟨hlt, hpast, hcur⟩⟩
      · exact .inl ⟨hto, .inl hlen⟩
      · exact .inl ⟨hto, .inr hnot⟩
      · have hfd : (replyDescriptor tgttype)[link.prevItemIx]? =
            some (replyDescriptor tgttype)[link.prevItemIx] :=
          List.getElem?_eq_getElem hlt
        -- in range the item may still be of a type that is rejected
        cases hnum : isNumeric (replyDescriptor tgttype)[link.prevItemIx] with
        | true => exact .inr ⟨⟨hto, hpast, _, hfd, hnum⟩, hcur⟩
        | false => exact .inl ⟨hto, .inr ⟨_, hfd, hnum⟩⟩

/-- A position without an error: safety is being defined, a bad index is always reported. -/
theorem Prefix.linkSafe_iff (h : Prefix msgIn i l out rs) :
    LinkSafe fields m link index msgIn out l ↔
      ∃ r, Vmi.processLink fields m link index msgIn out l = .ok r := by
  constructor
  · rintro ⟨l', o, hok, -⟩
    exact ⟨_, hok⟩
  · rintro ⟨⟨l', o⟩, hok⟩
    refine ⟨l', o, hok, fun hbad => ?_⟩
    cases o with
    | rejected n => exact ⟨n, rfl⟩
    | linked m' v =>
      -- the first call never takes its link
      have hi : 0 < i := by
        have := (processLink_linked hok).1
        have := h.msgno
        omega
      exact absurd hbad (h.linked_not_bad hi hok)

end Safe

/-- **When `process_link` is safe.** At every position that a message reaches without an
    error, all accesses of a link are defined, and its bad indices reported, exactly when
    the link is in range. -/
theorem linkSafe_iff_linkInRange {env : Env G} {msgIn out : VMIMessage} {w₀ w : World G} {i : ℕ}
    {l : LinkState} (h : Reaches env msgIn w₀ i l w out) (herr : out.error = none)
    (fields : Descriptor) (m : Msg) (link : Linkage) (index : ℕ) :
    LinkSafe fields m link index msgIn out l ↔ LinkInRange fields link index i msgIn out l := by
  obtain ⟨rs, hp, -⟩ := h.isPrefix herr
  rw [hp.linkSafe_iff]
  unfold LinkInRange
  rcases Nat.eq_zero_or_pos i with rfl | hi
  · exact ⟨fun _ => .inl rfl, fun _ => ⟨_, hp.processLink_first⟩⟩
  rcases lt_trichotomy link.prevMsgIx msgIn.type.length with hlt | heq | hgt
  · -- the link points into the message
    have ht : msgIn.type[link.prevMsgIx]? = some msgIn.type[link.prevMsgIx] :=
      List.getElem?_eq_getElem hlt
    -- only the third way is open here
    have hskip : ∀ P, (i = 0 ∨ msgIn.type.length < link.prevMsgIx ∨
        (link.prevMsgIx < msgIn.type.length ∧ P)) ↔ P := by
      intro P
      constructor
      · rintro (h0 | hgt | ⟨-, hP⟩)
        · omega
        · omega
        · exact hP
      · exact fun hP => .inr (.inr ⟨hlt, hP⟩)
    rw [hskip]
    cases hcache : l.cache link.prevMsgIx with
    | none => exact hp.walk_defined_iff hi ht hcache
    | some v =>
      have hprior : ∀ msgtype, priorResult link msgtype index out l = .ok (l, .ok v) := by
        intro msgtype
        unfold priorResult
        rw [hcache]
      rw [hp.processLink_inside hi ht, hprior]
      show (∃ r, (applyLink fields m link v).map _ = .ok r) ↔ _
      rw [exists_map_eq_ok, applyLink_ok_iff]
  -- the link points at the end: `type()` is asked for an element too many
  · rw [hp.processLink_end hi heq]
    constructor
    · rintro ⟨r, hr⟩
      cases hr
    · rintro (h0 | hgt | ⟨hlt, -⟩) <;> omega
  · exact ⟨fun _ => .inr (.inl hgt), fun _ => ⟨_, hp.processLink_beyond hi hgt⟩⟩

/-- A read request whose address comes from a link. -/
def linkedRead (link : Linkage) : Msg := (Msg.empty.set .pid (.i32 0)).set .link (.link link)

/-- `STATUS`, then a read that is linked to it. -/
def statusThenLinked : VMIMessage :=
  (VMIMessage.empty.addCall .status Msg.empty).addCall (.readNum .w8 .va) (linkedRead {})

/-- Two reads, the second of which is linked past the end of the message, or to itself. -/
def readThenLinked (link : Linkage) : VMIMessage :=
  (VMIMessage.empty.addCall (.readNum .w8 .va) Msg.empty).addCall (.readNum .w8 .va)
    (linkedRead link)

/-- A status reply is a singular field, and the index that equals the number of calls passes
    its check: both messages stop the process. -/
theorem linkSafe_fails :
    (∃ l w out, Reaches echoEnv statusThenLinked (World.initial ()) 1 l w out ∧ out.error = none ∧
      ¬ LinkSafe (Call.readNum .w8 .va).requestFields (linkedRead {}) {} 0 statusThenLinked out l ∧
      processProtobuf echoEnv statusThenLinked (World.initial ()) = .error .wrongLabel) ∧
    ∃ l w out, Reaches echoEnv (readThenLinked { prevMsgIx := 2 }) (World.initial ()) 1 l w out ∧
      out.error = none ∧
      ¬ LinkSafe (Call.readNum .w8 .va).requestFields (linkedRead { prevMsgIx := 2 })
        { prevMsgIx := 2 } 1 (readThenLinked { prevMsgIx := 2 }) out l ∧
      processProtobuf echoEnv (readThenLinked { prevMsgIx := 2 }) (World.initial ()) =
        .error .outOfRange := by
  refine ⟨⟨_, _, _, .next .start rfl rfl rfl, rfl, ?_, rfl⟩,
    ⟨_, _, _, .next .start rfl rfl rfl, rfl, ?_, rfl⟩⟩
  · rintro ⟨l', o, hok, -⟩
    cases hok
  · rintro ⟨l', o, hok, -⟩
    cases hok

/-- The condition at the first of these messages. -/
theorem linkSafe_iff_linkInRange_status : ∃ l w out,
    Reaches echoEnv statusThenLinked (World.initial ()) 1 l w out ∧
    (LinkSafe (Call.readNum .w8 .va).requestFields (linkedRead {}) {} 0 statusThenLinked out l ↔
      LinkInRange (Call.readNum .w8 .va).requestFields {} 0 1 statusThenLinked out l) :=
  ⟨_, _, _, .next .start rfl rfl rfl,
    linkSafe_iff_linkInRange (.next .start rfl rfl rfl : Reaches echoEnv statusThenLinked
      (World.initial ()) 1 _ _ _) rfl _ _ _ _⟩

/-! ### Links that do not point backwards -/

/-- A call whose link is rejected: the error flag is set, nothing else is done, and the link
    cache is as it was. -/
def RejectedCleanly (env : Env G) (c : Call) (m : Msg) (link : Linkage) (index : ℕ)
    (msgIn out : VMIMessage) (l : LinkState) (w : World G) : Prop :=
  ∃ l' n, processLink c.requestFields m link index msgIn out l = .ok (l', .rejected n) ∧
    (handlerOf c).run c env index msgIn out l w = .ok (l', w, .fail n) ∧ l'.cache = l.cache

/-- Where a link that does not point backwards is stopped: the handler resolves links at
    all, and the call is the first one, or the link points past the message, or an earlier
    link has cached the same reference and the current field cannot take a value. -/
def ForwardGuarded (G : Type) (c : Call) (link : Linkage) (i : ℕ) (msgIn : VMIMessage)
    (l : LinkState) : Prop :=
  (handlerOf c : Handler G).linked = true ∧
    (i = 0 ∨ msgIn.type.length < link.prevMsgIx ∨
      (link.prevMsgIx < msgIn.type.length ∧ (l.cache link.prevMsgIx).isSome ∧
        (c.requestFields.length < link.curItemIx ∨
          ∃ fd, c.requestFields[link.curItemIx]? = some fd ∧ isLinkable fd = false)))

/-- Whether the request message of a call declares a link. -/
def declaresLink (c : Call) : Bool := c.requestFields.any fun fd => fd.name = .link

/-- The two calls that declare a link and never look at it. -/
theorem linked_of_declaresLink (c : Call) (hdecl : declaresLink c = true) :
    (handlerOf c : Handler G).linked = true ∨ c = .translateKv2p ∨ c = .translateUv2p := by
  have hall : ∀ c ∈ Call.all, declaresLink c = true →
      resolvesLinks c = true ∨ c = .translateKv2p ∨ c = .translateUv2p := by
    decide
  rw [handlerOf_linked]
  exact hall c c.mem_all hdecl

/-- A translation never sets the error flag. -/
theorem translate_ne_fail
    {run : Env G → Msg → World G → Option ((Status × Option UInt64) × World G)} {c : Call}
    {env : Env G} {index n : ℕ} {msgIn out : VMIMessage} {l l' : LinkState}
    {w w' : World G} :
    Handler.run ⟨false, translateBody run⟩ c env index msgIn out l w ≠ .ok (l', w', .fail n) := by
  intro h
  obtain ⟨⟨w₁, r⟩, hbody, h⟩ := bind_eq_ok.mp h
  cases h
  obtain ⟨m, -, hbody⟩ := bind_eq_ok.mp hbody
  dsimp only at hbody
  split at hbody <;> cases hbody

/-- A rejected forward reference at a later position was in the cache, with the value zero. -/
theorem Prefix.forward_rejected {msgIn out : VMIMessage} {i : ℕ} {l l' : LinkState}
    {rs : List (ℕ × Msg)} (h : Prefix msgIn i l out rs) (hi : 0 < i) {fields : Descriptor} {m : Msg}
    {link : Linkage} {index t n : ℕ} (hp : i ≤ link.prevMsgIx)
    (ht : msgIn.type[link.prevMsgIx]? = some t)
    (hrej : Vmi.processLink fields m link index msgIn out l = .ok (l', .rejected n))
    (hcache : l'.cache = l.cache) :
    l.cache link.prevMsgIx = some 0 ∧ ∃ n, applyLink fields m link 0 = .ok (.rejected n) := by
  rw [h.processLink_inside hi ht] at hrej
  obtain ⟨⟨l₁, res⟩, hprior, hrej⟩ := bind_eq_ok.mp hrej
  rcases priorResult_cases hprior with ⟨v, hv, rfl, rfl⟩ | ⟨hmiss, -⟩
  · have hzero := h.cacheForward _ v hv hp
    subst hzero
    obtain ⟨o, happly, ho⟩ := map_eq_ok.mp hrej
    cases ho
    exact ⟨hv, n, happly⟩
  · -- the search finds nothing, loads the cache with zero and goes on
    exfalso
    rw [h.priorResult_miss hi hmiss, targetType, h.scannedType_forward hp, Option.getD_none,
      searchFields_eq, searchHit_zero] at hprior
    obtain ⟨found, hfound, hres⟩ := map_eq_ok.mp hprior
    dsimp only at hfound
    split at hfound
    · cases hfound
      cases hres
      obtain ⟨o, -, ho⟩ := map_eq_ok.mp hrej
      cases ho
      have hat := congrFun hcache link.prevMsgIx
      rw [hmiss] at hat
      simp at hat
    · cases hfound

/-- **When a link that does not point backwards is rejected.** At every position that a
    message reaches without an error, a linked call whose link points to itself, ahead or
    past the message is rejected cleanly exactly when the reference is guarded. -/
theorem forward_rejectedCleanly_iff {env : Env G} {msgIn out : VMIMessage} {w₀ w : World G} {i : ℕ}
    {l : LinkState} (h : Reaches env msgIn w₀ i l w out) (herr : out.error = none) {c : Call}
    {index : ℕ} {m : Msg} {link : Linkage} (hdecl : declaresLink c = true)
    (hm : msgIn.request c index = .ok m) (hlink : m.link? = some link)
    (hp : i ≤ link.prevMsgIx) :
    RejectedCleanly env c m link index msgIn out l w ↔ ForwardGuarded G c link i msgIn l := by
  obtain ⟨rs, hpre, -⟩ := h.isPrefix herr
  constructor
  · rintro ⟨l', n, hrej, hrun, hcache⟩
    -- the two translations run as if they had no link, and reject nothing
    have hlinked : (handlerOf c : Handler G).linked = true := by
      rcases linked_of_declaresLink (G := G) c hdecl with hlinked | rfl | rfl
      · exact hlinked
      · exact absurd hrun translate_ne_fail
      · exact absurd hrun translate_ne_fail
    refine ⟨hlinked, ?_⟩
    rcases Nat.eq_zero_or_pos i with rfl | hi
    · exact .inl rfl
    rcases lt_trichotomy link.prevMsgIx msgIn.type.length with hlt | heq | hgt
    · obtain ⟨hcached, happly⟩ :=
        hpre.forward_rejected hi hp (List.getElem?_eq_getElem hlt) hrej hcache
      exact .inr (.inr ⟨hlt, by rw [hcached]; rfl, applyLink_zero_rejected_iff.mp happly⟩)
    · rw [hpre.processLink_end hi heq] at hrej
      cases hrej
    · exact .inr (.inl hgt)
  · rintro ⟨hlinked, hguard⟩
    -- a link that is rejected in the state it found is rejected cleanly
    have hclean : ∀ n, processLink c.requestFields m link index msgIn out l = .ok (l, .rejected n) →
        RejectedCleanly env c m link index msgIn out l w := fun n hrej =>
      ⟨l, n, hrej, Handler.run_rejected hlinked hm hlink hrej w, rfl⟩
    rcases Nat.eq_zero_or_pos i with rfl | hi
    · exact hclean 10 hpre.processLink_first
    rcases hguard with h0 | hgt | ⟨hlt, hcached, hfield⟩
    · omega
    · exact hclean 11 (hpre.processLink_beyond hi hgt)
    · obtain ⟨v, hv⟩ := Option.isSome_iff_exists.mp hcached
      have hzero := hpre.cacheForward _ v hv hp
      subst hzero
      obtain ⟨n, happly⟩ := (applyLink_zero_rejected_iff (m := m)).mpr hfield
      refine hclean n ?_
      rw [hpre.processLink_inside hi (List.getElem?_eq_getElem hlt), priorResult, hv]
      show (applyLink _ _ _ _).map _ = _
      rw [happly]
      rfl

/-- A call that is linked to itself goes through: it reads, and the cache gains an entry. -/
theorem forward_accepted : ∃ l w out l' w' r,
    Reaches echoEnv (readThenLinked { prevMsgIx := 1 }) (World.initial ()) 1 l w out ∧
    out.error = none ∧
    (handlerOf (.readNum .w8 .va)).run (.readNum .w8 .va) echoEnv 1
      (readThenLinked { prevMsgIx := 1 }) out l w = .ok (l', w', r) ∧
    r.errorNum = none ∧ w'.ops = w.ops ++ [.readNum .w8 (.va 0 0)] ∧ l.cache 1 = none ∧
    l'.cache 1 = some 0 ∧
    ¬ RejectedCleanly echoEnv (.readNum .w8 .va) (linkedRead { prevMsgIx := 1 })
      { prevMsgIx := 1 } 1 (readThenLinked { prevMsgIx := 1 }) out l w := by
  refine ⟨_, _, _, _, _, _, .next .start rfl rfl rfl, rfl, rfl, rfl, rfl, rfl, rfl, ?_⟩
  rintro ⟨l', n, hrej, -⟩
  cases hrej

/-- The condition at this message. -/
theorem forward_rejectedCleanly_iff_self : ∃ l w out,
    Reaches echoEnv (readThenLinked { prevMsgIx := 1 }) (World.initial ()) 1 l w out ∧
    (RejectedCleanly echoEnv (.readNum .w8 .va) (linkedRead { prevMsgIx := 1 }) { prevMsgIx := 1 } 1
        (readThenLinked { prevMsgIx := 1 }) out l w ↔
      ForwardGuarded Unit (.readNum .w8 .va) { prevMsgIx := 1 } 1
        (readThenLinked { prevMsgIx := 1 }) l) :=
  ⟨_, _, _, .next .start rfl rfl rfl,
    forward_rejectedCleanly_iff (.next .start rfl rfl rfl : Reaches echoEnv
      (readThenLinked { prevMsgIx := 1 }) (World.initial ()) 1 _ _ _) rfl (by decide) rfl rfl
      (by decide)⟩

end Furnace.Vmi
