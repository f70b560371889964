import Furnace.Vmi.LinkHistory

namespace Furnace.Vmi

open Furnace.Proto Furnace.Lib

/-!
# What a link resolves to

The search for the reply of an earlier call `p` does not use the position of `p` among the
calls of its type.  It takes the reply number `index - d` of that type, where `index` counts
the calls of the *current* type and `d` the populated reply fields numbered above; and it is made
for the first link to `p` only.  Here the operand that a link combines is compared with the
field of the reply that call `p` produced.

* `ReadsAt` — the call and the field that the operand of a link is read from.
* `LinkResolves` — that is the field that the link names; or it is another one, or none at all,
  which happens to give the same number.
-/

variable {G : Type}

/-- The value of a numeric field of a reply, as an unsigned 64-bit number. -/
def fieldValue (m : Msg) (fd : FieldDescriptor) : Option UInt64 :=
  match fd.type with
  | .int64 => some ((m.i64? fd.name).getD 0).toUInt64
  | _ => numericValue m fd

/-- Where the search can read a value, it is the value of the field. -/
theorem fieldValue_of_numericValue {m : Msg} {fd : FieldDescriptor} {v : UInt64}
    (h : numericValue m fd = some v) : fieldValue m fd = some v := by
  unfold fieldValue
  cases htype : fd.type with
  | int64 => simp [numericValue, htype] at h
  | _ => exact h

/-- The number in field `a` of the reply that call `p` produced. -/
def ReplyValue (env : Env G) (msgIn : VMIMessage) (w₀ : World G) (p a : ℕ) (v : UInt64) : Prop :=
  ∃ c m fd, Produced env msgIn w₀ p c m ∧ c.replyFields[a]? = some fd ∧ fieldValue m fd = some v

/-- Where the operand of a link of call `i` is read: the field `a` of the reply of the call
    `source`.  When an earlier call is linked to the same reply, it is what the first such call
    read, in the field that the link of that call names. -/
def ReadsAt (env : Env G) (msgIn : VMIMessage) (w₀ : World G) (i : ℕ) (out : VMIMessage)
    (l : LinkState) (link : Linkage) (index : ℕ) (source : Option ℕ) (a : ℕ) : Prop :=
  match firstLink msgIn i link.prevMsgIx with
  | some (q, first) => ReadFrom env msgIn w₀ q first source ∧ a = first.prevItemIx
  | none => linkSource out l link.prevMsgIx index = source ∧ a = link.prevItemIx

/-- When a link gives the number that it refers to: it is read in the field of the reply that the
    link names; or in another field or reply that carries the same number; or nothing is read, and
    the number is zero. -/
def LinkResolves (env : Env G) (msgIn : VMIMessage) (w₀ : World G) (i : ℕ) (out : VMIMessage)
    (l : LinkState) (link : Linkage) (index : ℕ) : Prop :=
  ∃ source a, ReadsAt env msgIn w₀ i out l link index source a ∧
    (source = some link.prevMsgIx ∧ a = link.prevItemIx ∨
      match source with
      | some s => ∃ v, ReplyValue env msgIn w₀ s a v ∧
          ReplyValue env msgIn w₀ link.prevMsgIx link.prevItemIx v
      | none => ReplyValue env msgIn w₀ link.prevMsgIx link.prevItemIx 0)

section Position

variable {env : Env G} {msgIn out : VMIMessage} {w₀ w : World G} {i p a index : ℕ}
  {l l' : LinkState} {rs : List (ℕ × Msg)} {link : Linkage} {source source' : Option ℕ} {a' : ℕ}
  {v v' : UInt64}

/-- A reply has one number in a field. -/
theorem ReplyValue.unique (h : ReplyValue env msgIn w₀ p a v)
    (h' : ReplyValue env msgIn w₀ p a v') : v = v' := by
  obtain ⟨c, m, fd, hprod, hfd, hv⟩ := h
  obtain ⟨c', m', fd', hprod', hfd', hv'⟩ := h'
  obtain ⟨rfl, rfl⟩ := hprod.unique hprod'
  rw [hfd] at hfd'
  cases hfd'
  rw [hv] at hv'
  exact Option.some.inj hv'

/-- What the search reads in a reply is the number in its field. -/
theorem SourceValue.replyValue {s : ℕ} (h : SourceValue env msgIn w₀ (some s) a v) :
    ReplyValue env msgIn w₀ s a v := by
  obtain ⟨c, m, fd, hprod, hfd, hv⟩ := h
  exact ⟨c, m, fd, hprod, hfd, fieldValue_of_numericValue hv⟩

/-- A link reads at one place. -/
theorem ReadsAt.unique (h : ReadsAt env msgIn w₀ i out l link index source a)
    (h' : ReadsAt env msgIn w₀ i out l link index source' a') : source = source' ∧ a = a' := by
  unfold ReadsAt at h h'
  cases hfirst : firstLink msgIn i link.prevMsgIx with
  | none =>
    rw [hfirst] at h h'
    exact ⟨h.1.symm.trans h'.1, h.2.trans h'.2.symm⟩
  | some first =>
    rw [hfirst] at h h'
    exact ⟨h.1.unique h'.1, h.2.trans h'.2.symm⟩

/-- An operand is the number at the place that the link reads. -/
theorem LinkHistory.readsAt (h : LinkHistory env msgIn w₀ i l) (hp : Prefix msgIn i l out rs)
    (hi : 0 < i)
    (hrs : ∀ j < i, ∃ c m, Produced env msgIn w₀ j c m ∧ rs[j]? = some (c.replyNum, m))
    {msgtype : ℕ} (hprior : priorResult link msgtype index out l = .ok (l', .ok v)) :
    ∃ source a, ReadsAt env msgIn w₀ i out l link index source a ∧
      SourceValue env msgIn w₀ source a v := by
  unfold ReadsAt
  cases hfirst : firstLink msgIn i link.prevMsgIx with
  | none =>
    have hfound := hp.priorResult_found hi hrs (h.miss _ hfirst) hprior
    exact ⟨_, _, ⟨rfl, rfl⟩, hfound.1⟩
  | some first =>
    -- the operand comes out of the cache, where the first link has put it
    obtain ⟨source, u, hread, hvalue, hcached⟩ := h.hit _ _ _ hfirst
    rw [priorResult, hcached] at hprior
    cases hprior
    exact ⟨source, _, ⟨hread, rfl⟩, hvalue⟩

end Position

/-- **What a link combines.** At every position that a message reaches without an error: when
    `process_link` takes a link, its operand is the number in the field that the link names of
    the reply that it names exactly when the link resolves. -/
theorem link_operand_iff {env : Env G} {msgIn out : VMIMessage} {w₀ w : World G} {i : ℕ}
    {l l' : LinkState} (h : Reaches env msgIn w₀ i l w out) (herr : out.error = none)
    {fields : Descriptor} {m m' : Msg} {link : Linkage} {index : ℕ} {operand : UInt64}
    (hlink : processLink fields m link index msgIn out l = .ok (l', .linked m' operand)) :
    ReplyValue env msgIn w₀ link.prevMsgIx link.prevItemIx operand ↔
      LinkResolves env msgIn w₀ i out l link index := by
  obtain ⟨rs, hpre, hrs⟩ := h.isPrefix herr
  obtain ⟨hguard, t, -, hprior, -⟩ := processLink_linked hlink
  have hi : 0 < i := by
    have := hpre.msgno
    omega
  obtain ⟨source, a, hreads, hvalue⟩ := (h.linkHistory herr).readsAt hpre hi hrs hprior
  constructor
  · intro hreply
    refine ⟨source, a, hreads, .inr ?_⟩
    cases source with
    | some s => exact ⟨operand, hvalue.replyValue, hreply⟩
    | none =>
      obtain rfl : operand = 0 := hvalue
      exact hreply
  · rintro ⟨source', a', hreads', hresolved⟩
    obtain ⟨rfl, rfl⟩ := hreads.unique hreads'
    rcases hresolved with ⟨rfl, rfl⟩ | hresolved
    · exact hvalue.replyValue
    · cases source with
      | some s =>
        obtain ⟨v, hs, hp⟩ := hresolved
        rwa [hvalue.replyValue.unique hs]
      | none =>
        obtain rfl : operand = 0 := hvalue
        exact hresolved

/-! ### A batch whose link reads the wrong reply -/

/-- A read of an address of process `0`. -/
def readAt (vaddr : UInt64) : Msg := (Msg.empty.set .vaddr (.u64 vaddr)).set .pid (.i32 0)

/-- A byte read linked to the reply of call `p`. -/
def readLinkedTo (p : ℕ) : Msg := (readAt 0).set .link (.link { prevMsgIx := p })

/-- Two address reads, and a byte read linked to the second of them. -/
def linkedToSecond : VMIMessage :=
  ((VMIMessage.empty.addCall (.readAddr .va) (readAt 0x10)).addCall (.readAddr .va)
    (readAt 0x20)).addCall (.readNum .w8 .va) (readLinkedTo 1)

/-- The link is taken with the result of the first read. -/
theorem linkedToSecond_wrong : ∃ l w out l' m',
    Reaches echoEnv linkedToSecond (World.initial ()) 2 l w out ∧ out.error = none ∧
    ReplyValue echoEnv linkedToSecond (World.initial ()) 1 0 0x20 ∧
    processLink (Call.readNum .w8 .va).requestFields (readLinkedTo 1) { prevMsgIx := 1 } 0
      linkedToSecond out l = .ok (l', .linked m' 0x10) ∧
    ¬ ReplyValue echoEnv linkedToSecond (World.initial ()) 1 0 0x10 := by
  have hreply : ReplyValue echoEnv linkedToSecond (World.initial ()) 1 0 0x20 :=
    ⟨.readAddr .va, _, _, ⟨_, _, _, _, _, _, .next .start rfl rfl rfl, rfl, rfl, rfl, rfl, rfl⟩,
      rfl, rfl⟩
  refine ⟨_, _, _, _, _, .next (.next .start rfl rfl rfl) rfl rfl rfl, rfl, hreply, rfl,
    fun hwrong => ?_⟩
  exact absurd (hreply.unique hwrong) (by decide)

/-- Two address reads, then two byte reads that are linked to the calls `p` and `q`. -/
def twoLinks (p q : ℕ) : VMIMessage :=
  ((((VMIMessage.empty.addCall (.readAddr .va) (readAt 0x10)).addCall (.readAddr .va)
    (readAt 0x20)).addCall (.readNum .w8 .va) (readLinkedTo p)).addCall (.readNum .w8 .va)
    (readLinkedTo q))

/-- The second link to the first reply resolves, through what the first one read. -/
theorem link_operand_iff_twoLinks : ∃ l w out,
    Reaches echoEnv (twoLinks 0 0) (World.initial ()) 3 l w out ∧
    firstLink (twoLinks 0 0) 3 0 = some (2, { prevMsgIx := 0 }) ∧
    LinkResolves echoEnv (twoLinks 0 0) (World.initial ()) 3 out l { prevMsgIx := 0 } 1 := by
  have hreach : Reaches echoEnv (twoLinks 0 0) (World.initial ()) 3 _ _ _ :=
    .next (.next (.next .start rfl rfl rfl) rfl rfl rfl) rfl rfl rfl
  have hreply : ReplyValue echoEnv (twoLinks 0 0) (World.initial ()) 0 0 0x10 :=
    ⟨.readAddr .va, _, _, ⟨_, _, _, _, _, _, .start, rfl, rfl, rfl, rfl, rfl⟩, rfl, rfl⟩
  exact ⟨_, _, _, hreach, rfl, (link_operand_iff hreach rfl
    (rfl : processLink (Call.readNum .w8 .va).requestFields (readLinkedTo 0) { prevMsgIx := 0 } 1
      (twoLinks 0 0) _ _ = .ok (_, .linked _ 0x10))).mp hreply⟩

end Furnace.Vmi
