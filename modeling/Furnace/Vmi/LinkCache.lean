import Furnace.Vmi.LinkResolution
import Furnace.Vmi.LinkSafety

namespace Furnace.Vmi

open Furnace.Proto Furnace.Lib

/-!
# The shortcuts of the link search

`process_link` keeps the operand of a reference for the next link to it, and lets both of its
scans go on from where they last stopped.  The plain version, which the source keeps in its
comments, starts with an empty cache and both scans at the first entry.

* `SameOperand` — with the shortcuts and without them a link obtains the same operand.
* `ShortcutsHold` — the batches in which this is so, told by their links: the earlier call that
  was the first to be linked to the same reply read where the plain search reads, or the same
  number elsewhere; and where no call was, no earlier link has moved a cursor past that place, or
  there is nothing there but a zero.
-/

variable {G : Type}

/-- The link state of the plain version. -/
def LinkState.plain (l : LinkState) : LinkState := { msgno := l.msgno }

/-- The operand that `process_link` obtains in a link state. -/
def Obtains (link : Linkage) (msgtype index : ℕ) (out : VMIMessage) (l : LinkState) (v : UInt64) :
    Prop :=
  ∃ l', priorResult link msgtype index out l = .ok (l', .ok v)

/-- The shortcuts make no difference: where one version obtains an operand, so does the other,
    and it is the same. -/
def SameOperand (link : Linkage) (msgtype index : ℕ) (out : VMIMessage) (l : LinkState) : Prop :=
  ∀ v, Obtains link msgtype index out l v ↔ Obtains link msgtype index out l.plain v

/-- The reply type at the position that a link refers to. -/
def referredType (p : ℕ) (out : VMIMessage) : ℕ := (out.type[p]?).getD 0

/-- The call whose reply the plain search reads. -/
def plainSource (out : VMIMessage) (p index : ℕ) : Option ℕ := linkSource out {} p index

/-- An earlier link has moved a cursor past what a link to `p` refers to.  The first link to a
    later call moved the type cursor, if the call had a reply by then; and one that read the
    reply of call `s` moved the entry cursor to the entry of that reply, whatever its field. -/
def CursorPassed (env : Env G) (msgIn : VMIMessage) (w₀ : World G) (i : ℕ) (out : VMIMessage)
    (p index : ℕ) : Prop :=
  ∃ p' q first, firstLink msgIn i p' = some (q, first) ∧
    (p < p' ∧ p' < q ∨
      ∃ s, ReadFrom env msgIn w₀ q first (some s) ∧
        index < indexAt msgIn s + (replyFieldsOf out).idxOf (referredType p out))

/-- When the shortcuts do no harm to a link of call `i`.  If an earlier call is linked to the same
    reply, then the first such call must have read where the plain search reads, in the field that
    both links name, or have read by chance the number that stands there; and no singular field may
    stop the plain search.  If none is, a cursor may have passed that place only if a zero is read
    there. -/
def ShortcutsHold (env : Env G) (msgIn : VMIMessage) (w₀ : World G) (i : ℕ) (out : VMIMessage)
    (link : Linkage) (index : ℕ) : Prop :=
  match firstLink msgIn i link.prevMsgIx with
  | some (q, first) => (replyFieldsOf out).all isRepeated = true ∧
      ∃ source, ReadFrom env msgIn w₀ q first source ∧
        (source = plainSource out link.prevMsgIx index ∧ first.prevItemIx = link.prevItemIx ∨
          ∃ v, SourceValue env msgIn w₀ source first.prevItemIx v ∧
            SourceValue env msgIn w₀ (plainSource out link.prevMsgIx index) link.prevItemIx v)
  | none => (replyFieldsOf out).all isRepeated = true →
      CursorPassed env msgIn w₀ i out link.prevMsgIx index →
      SourceValue env msgIn w₀ (plainSource out link.prevMsgIx index) link.prevItemIx 0

/-! ### What a search reads -/

section Search

variable {prevItemIx index msgtype tgttype ix : ℕ} {out : VMIMessage}

/-- An entry of the expected type gives the number in its field. -/
theorem readTarget_value {item : Msg} {v : UInt64} :
    readTarget tgttype tgttype prevItemIx item = .ok (.ok v) ↔
      ((replyDescriptor tgttype)[prevItemIx]?).bind (numericValue item) = some v := by
  rw [readTarget_self]
  by_cases hlen : (replyDescriptor tgttype).length < prevItemIx
  · rw [if_pos hlen, List.getElem?_eq_none (by omega)]
    simp
  rw [if_neg hlen]
  cases (replyDescriptor tgttype)[prevItemIx]? with
  | none => simp
  | some fd => cases hv : numericValue item fd <;> simp [hv]

/-- A search gives a value when it passes all fields, and the value is the one it reads. -/
theorem searchFields_found (hself : (searchHit index tgttype out ix).isSome →
      (replyFieldsOf out).all isRepeated = true → tgttype = msgtype) (v : UInt64) :
    (∃ ix', searchFields prevItemIx index msgtype tgttype out (replyFieldsOf out) 0 0 ix =
        .ok (.ok (v, ix'))) ↔
      (replyFieldsOf out).all isRepeated = true ∧
        foundValue prevItemIx index tgttype out ix = some v := by
  constructor
  · rintro ⟨ix', hsearch⟩
    obtain ⟨hall, hvalue, -⟩ := searchFields_value _ _ _ _ _ hsearch
    exact ⟨hall, hvalue⟩
  · rintro ⟨hall, hvalue⟩
    rw [searchFields_eq]
    unfold foundValue at hvalue
    cases hhit : searchHit index tgttype out ix with
    | none =>
      rw [hhit] at hvalue
      cases hvalue
      exact ⟨ix, if_pos hall⟩
    | some item =>
      rw [hhit] at hvalue
      obtain ⟨hto, hpast⟩ := (all_isRepeated_iff tgttype out).mp hall
      have hm := hself (by rw [hhit]; rfl) hall
      subst hm
      dsimp only
      rw [if_pos hto, readTarget_value.mpr hvalue]
      exact ⟨_, if_pos hpast⟩

end Search

/-! ### The operand at a position of a batch -/

section Position

variable {env : Env G} {msgIn out : VMIMessage} {w₀ : World G} {i : ℕ} {l : LinkState}
  {rs : List (ℕ × Msg)} {link : Linkage} {p index t : ℕ}

/-- The plain version starts from a link state that fits the position too. -/
theorem Prefix.plain (h : Prefix msgIn i l out rs) : Prefix msgIn i l.plain out rs :=
  { h with
    msgno := h.msgno
    nthType := .inr rfl
    cacheKeys := fun k v hk => by cases hk
    cacheForward := fun k v hk => by cases hk }

/-- An operand in the cache is obtained whatever the message holds. -/
theorem obtains_hit {msgtype : ℕ} {u : UInt64} (hhit : l.cache link.prevMsgIx = some u)
    (v : UInt64) : Obtains link msgtype index out l v ↔ u = v := by
  unfold Obtains priorResult
  rw [hhit]
  constructor
  · rintro ⟨l', hl⟩
    cases hl
    rfl
  · rintro rfl
    exact ⟨l, rfl⟩

/-- An operand that is not in the cache is the number at the source of the search. -/
theorem Prefix.obtains_miss (h : Prefix msgIn i l out rs) (hi : 0 < i)
    (hrs : ∀ j < i, ∃ c m, Produced env msgIn w₀ j c m ∧ rs[j]? = some (c.replyNum, m))
    (ht : msgIn.type[link.prevMsgIx]? = some t) (hmiss : l.cache link.prevMsgIx = none)
    (v : UInt64) :
    Obtains link (t + 1) index out l v ↔
      (replyFieldsOf out).all isRepeated = true ∧
        SourceValue env msgIn w₀ (linkSource out l link.prevMsgIx index) link.prevItemIx v := by
  have hself : (searchHit index (targetType out l link.prevMsgIx) out l.nthFieldIx).isSome →
      (replyFieldsOf out).all isRepeated = true →
      targetType out l link.prevMsgIx = t + 1 := fun hhit hall =>
    h.searchHit_self ht hhit ((all_isRepeated_iff _ _).mp hall).1
  have hfound : (replyFieldsOf out).all isRepeated = true → (_ ↔ _) := fun hall =>
    h.foundValue_iff hrs hall link.prevItemIx link.prevMsgIx index v
  rw [← and_congr_right hfound, ← searchFields_found hself v]
  unfold Obtains
  rw [h.priorResult_miss hi hmiss]
  constructor
  · rintro ⟨l', hl⟩
    obtain ⟨found, hsearch, hres⟩ := map_eq_ok.mp hl
    cases found with
    | error e => cases hres
    | ok found =>
      obtain ⟨u, ix⟩ := found
      cases hres
      exact ⟨ix, hsearch⟩
  · rintro ⟨ix, hsearch⟩
    rw [hsearch]
    exact ⟨_, rfl⟩

/-- The plain version obtains the number at the source of the plain search. -/
theorem Prefix.obtains_plain (h : Prefix msgIn i l out rs) (hi : 0 < i)
    (hrs : ∀ j < i, ∃ c m, Produced env msgIn w₀ j c m ∧ rs[j]? = some (c.replyNum, m))
    (ht : msgIn.type[link.prevMsgIx]? = some t) (v : UInt64) :
    Obtains link (t + 1) index out l.plain v ↔
      (replyFieldsOf out).all isRepeated = true ∧
        SourceValue env msgIn w₀ (plainSource out link.prevMsgIx index) link.prevItemIx v :=
  h.plain.obtains_miss hi hrs ht rfl v

/-- An operand in the cache is the right one if it is the number at the plain place. -/
theorem Prefix.sameOperand_hit (h : Prefix msgIn i l out rs) (hi : 0 < i)
    (hrs : ∀ j < i, ∃ c m, Produced env msgIn w₀ j c m ∧ rs[j]? = some (c.replyNum, m))
    (ht : msgIn.type[link.prevMsgIx]? = some t) {v : UInt64}
    (hhit : l.cache link.prevMsgIx = some v) :
    SameOperand link (t + 1) index out l ↔
      (replyFieldsOf out).all isRepeated = true ∧
        SourceValue env msgIn w₀ (plainSource out link.prevMsgIx index) link.prevItemIx v := by
  unfold SameOperand
  simp only [h.obtains_plain hi hrs ht, obtains_hit hhit]
  constructor
  · intro hsame
    exact (hsame v).mp rfl
  · rintro ⟨hall, hplain⟩ u
    constructor
    · rintro rfl
      exact ⟨hall, hplain⟩
    · rintro ⟨-, hu⟩
      exact hplain.unique hu

/-- Two searches obtain the same if their places hold the same number. -/
theorem Prefix.sameOperand_miss (h : Prefix msgIn i l out rs) (hi : 0 < i)
    (hrs : ∀ j < i, ∃ c m, Produced env msgIn w₀ j c m ∧ rs[j]? = some (c.replyNum, m))
    (ht : msgIn.type[link.prevMsgIx]? = some t) (hmiss : l.cache link.prevMsgIx = none) :
    SameOperand link (t + 1) index out l ↔
      ((replyFieldsOf out).all isRepeated = true → ∀ v,
        (SourceValue env msgIn w₀ (linkSource out l link.prevMsgIx index) link.prevItemIx v ↔
          SourceValue env msgIn w₀ (plainSource out link.prevMsgIx index) link.prevItemIx v)) := by
  unfold SameOperand
  simp only [h.obtains_plain hi hrs ht, h.obtains_miss hi hrs ht hmiss, and_congr_right_iff]
  exact forall_comm

/-- Cursors that no link has moved past the target change nothing. -/
theorem LinkHistory.linkSource_of_not_passed (h : LinkHistory env msgIn w₀ i l)
    (hpassed : ¬ CursorPassed env msgIn w₀ i out p index) :
    linkSource out l p index = plainSource out p index := by
  have htype : l.nthType ≤ p := by
    by_contra hlt
    obtain ⟨p', q, first, hfirst, hq, hp⟩ := (h.nthType p).mp (not_le.mp hlt)
    exact hpassed ⟨p', q, first, hfirst, .inl ⟨hp, hq⟩⟩
  unfold plainSource linkSource scannedType
  rw [if_pos htype, if_pos (Nat.zero_le p)]
  cases hget : out.type[p]? with
  | none => rfl
  | some t =>
    dsimp only
    by_cases hd : (replyFieldsOf out).idxOf t ≤ index
    · have hfield : l.nthFieldIx + (replyFieldsOf out).idxOf t ≤ index := by
        by_contra hlt
        obtain ⟨p', q, first, s, hfirst, hs, hk⟩ :=
          (h.nthFieldIx (index - (replyFieldsOf out).idxOf t)).mp (by omega)
        refine hpassed ⟨p', q, first, hfirst, .inr ⟨s, hs, ?_⟩⟩
        rw [referredType, hget, Option.getD_some]
        omega
      rw [if_pos hfield, if_pos (by omega)]
    · -- the walk is deeper than the index: neither version stops
      rw [if_neg (by omega), if_neg (by omega)]

/-- A cursor that a link has moved past the target finds nothing. -/
theorem LinkHistory.linkSource_of_passed (h : LinkHistory env msgIn w₀ i l)
    (hpassed : CursorPassed env msgIn w₀ i out p index) : linkSource out l p index = none := by
  obtain ⟨p', q, first, hfirst, ⟨hp, hq⟩ | ⟨s, hs, hk⟩⟩ := hpassed
  · have htype : p < l.nthType := (h.nthType p).mpr ⟨p', q, first, hfirst, hq, hp⟩
    unfold linkSource scannedType
    rw [if_neg (not_le.mpr htype)]
  · unfold linkSource scannedType
    by_cases htype : l.nthType ≤ p
    · rw [if_pos htype]
      cases hget : out.type[p]? with
      | none => rfl
      | some t =>
        rw [referredType, hget, Option.getD_some] at hk
        refine if_neg fun hle => ?_
        have hlt : index - (replyFieldsOf out).idxOf t < l.nthFieldIx :=
          (h.nthFieldIx _).mpr ⟨p', q, first, s, hfirst, hs, by omega⟩
        omega
    · rw [if_neg htype]

end Position

/-- **When the shortcuts are transparent.** At every position that a batch reaches without an
    error, and for every link into the message: with the cache and the cursors the link
    obtains the operand that it obtains without them exactly when the shortcuts hold. -/
theorem sameOperand_iff {env : Env G} {msgIn out : VMIMessage} {w₀ w : World G} {i : ℕ}
    {l : LinkState} (h : Reaches env msgIn w₀ i l w out) (herr : out.error = none)
    {link : Linkage} {t : ℕ} (ht : msgIn.type[link.prevMsgIx]? = some t) (index : ℕ) :
    SameOperand link (t + 1) index out l ↔ ShortcutsHold env msgIn w₀ i out link index := by
  obtain ⟨rs, hp, hrs⟩ := h.isPrefix herr
  have hist := h.linkHistory herr
  rcases Nat.eq_zero_or_pos i with rfl | hi
  · -- before the first call both versions are in the same state
    cases h
    refine iff_of_true (fun v => Iff.rfl) fun _ hpassed => ?_
    obtain ⟨p', q, first, hfirst, -⟩ := hpassed
    cases hfirst
  unfold ShortcutsHold
  cases hfirst : firstLink msgIn i link.prevMsgIx with
  | some first =>
    -- the operand is in the cache, where the first link has put what it read
    obtain ⟨source, v, hread, hvalue, hcached⟩ := hist.hit _ _ _ hfirst
    rw [hp.sameOperand_hit hi hrs ht hcached]
    refine and_congr_right fun hall => ?_
    constructor
    · intro hplain
      exact ⟨source, hread, .inr ⟨v, hvalue, hplain⟩⟩
    · rintro ⟨source', hread', hsource⟩
      obtain rfl := hread.unique hread'
      rcases hsource with ⟨hplace, hitem⟩ | ⟨v', hvalue', hplain⟩
      · rw [← hplace, ← hitem]
        exact hvalue
      · rwa [hvalue.unique hvalue']
  | none =>
    rw [hp.sameOperand_miss hi hrs ht (hist.miss _ hfirst)]
    refine imp_congr_right fun hall => ?_
    by_cases hpassed : CursorPassed env msgIn w₀ i out link.prevMsgIx index
    · rw [hist.linkSource_of_passed hpassed]
      constructor
      · intro hsame _
        exact (hsame 0).mp rfl
      · intro hzero v
        constructor
        · rintro rfl
          exact hzero hpassed
        · intro hv
          exact hv.unique (hzero hpassed)
    · rw [hist.linkSource_of_not_passed hpassed]
      exact iff_of_true (fun _ => Iff.rfl) fun h => absurd h hpassed

/-! ### A batch in which they are not -/

/-- Linked to the first reply twice, the second link takes its operand from the cache, where
    the plain search finds the second reply; linked to the second reply and then to the first,
    it finds nothing behind the cursor. -/
theorem sameOperand_fails :
    (∃ l w out, Reaches echoEnv (twoLinks 0 0) (World.initial ()) 3 l w out ∧ out.error = none ∧
      Obtains { prevMsgIx := 0 } 65 1 out l 0x10 ∧
      Obtains { prevMsgIx := 0 } 65 1 out l.plain 0x20 ∧
      ¬ SameOperand { prevMsgIx := 0 } 65 1 out l) ∧
    ∃ l w out, Reaches echoEnv (twoLinks 1 0) (World.initial ()) 3 l w out ∧ out.error = none ∧
      Obtains { prevMsgIx := 0 } 65 1 out l 0 ∧
      Obtains { prevMsgIx := 0 } 65 1 out l.plain 0x20 ∧
      ¬ SameOperand { prevMsgIx := 0 } 65 1 out l := by
  refine ⟨⟨_, _, _, .next (.next (.next .start rfl rfl rfl) rfl rfl rfl) rfl rfl rfl, rfl,
      ⟨_, rfl⟩, ⟨_, rfl⟩, fun hsame => ?_⟩,
    ⟨_, _, _, .next (.next (.next .start rfl rfl rfl) rfl rfl rfl) rfl rfl rfl, rfl,
      ⟨_, rfl⟩, ⟨_, rfl⟩, fun hsame => ?_⟩⟩
  all_goals
    obtain ⟨l', hl⟩ := (hsame 0x20).mpr ⟨_, rfl⟩
    cases hl

/-- The condition fails at the second link to the first reply, which an earlier call has; it holds
    at a first link to that reply. -/
theorem sameOperand_iff_twoLinks :
    (∃ l w out, Reaches echoEnv (twoLinks 0 0) (World.initial ()) 3 l w out ∧
      ¬ ShortcutsHold echoEnv (twoLinks 0 0) (World.initial ()) 3 out { prevMsgIx := 0 } 1) ∧
    ∃ l w out, Reaches echoEnv (twoLinks 0 0) (World.initial ()) 2 l w out ∧
      ShortcutsHold echoEnv (twoLinks 0 0) (World.initial ()) 2 out { prevMsgIx := 0 } 0 := by
  have hreach : Reaches echoEnv (twoLinks 0 0) (World.initial ()) 2 _ _ _ :=
    .next (.next .start rfl rfl rfl) rfl rfl rfl
  have hreach' : Reaches echoEnv (twoLinks 0 0) (World.initial ()) 3 _ _ _ :=
    .next hreach rfl rfl rfl
  refine ⟨⟨_, _, _, hreach', fun hholds => ?_⟩, _, _, _, hreach, ?_⟩
  · obtain ⟨l', hl⟩ := ((sameOperand_iff hreach' rfl rfl 1).mpr hholds 0x20).mpr ⟨_, rfl⟩
    cases hl
  · exact (sameOperand_iff hreach rfl rfl 0).mp fun v => Iff.rfl

end Furnace.Vmi
