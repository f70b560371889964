import Furnace.App.AddFailure
import Furnace.App.Errors
import Furnace.Lib.PyText

namespace Furnace.App

open Furnace.Proto Furnace.Lib Furnace.Lib.PyText Furnace.Vmi

/-!
# Batch arrays

`FE.batch`: a list of labelled calls, sent as one message, and the dict of the results by label.
The frontend has one message object, in which the reply takes the place of the request, so that
the check of their lengths compares the reply with itself.

* `BatchItem`, `prepBatch` — the array and its message; `prepBatch_ok_iff` says when it is made.
* `processBatchResults` — the dict, from the reply.
* `FE.batch` — both, with the VMI partition between them.
* `AllOrNothing`, `batch_allOrNothing_iff` — **the arrays that are answered in full or raise**.
-/

/-! ### The array -/

/-- `prev_msg_ix, prev_item_ix, cur_item_ix, operator`. -/
structure LinkTuple where
  prevMsgIx : ℤ
  prevItemIx : ℤ
  curItemIx : ℤ
  operator : ℤ
  deriving DecidableEq

/-- An item of a batch array; `link` is a key that may be missing. -/
structure BatchItem where
  type : MsgType
  label : String
  link : Option LinkTuple := none
  args : List (FieldName × Val) := []

/-- The value of a `uint32` field. -/
def uint32Value (n : ℤ) : Except PyError ℕ :=
  if 0 ≤ n ∧ n < 2 ^ 32 then .ok n.toNat else .error .valueError

/-- `ACCEPT_OPR`. -/
def acceptOpr : ℤ → Option OperatorType
  | 1 => some .add
  | 2 => some .sub
  | 3 => some .overwrite
  | _ => none

/-- The link of an item, put into its sub-message. -/
def setLinkTuple (fields : Descriptor) (submsg : Msg) (link : LinkTuple) : Except PyError Msg :=
  match acceptOpr link.operator with
  | none => .error .exception
  | some operator =>
    if fields.any (fun fd => fd.name = .link) then do
      let prevMsgIx ← uint32Value link.prevMsgIx
      let prevItemIx ← uint32Value link.prevItemIx
      let curItemIx ← uint32Value link.curItemIx
      .ok (submsg.set .link (.link { prevMsgIx, prevItemIx, curItemIx, operator }))
    else .error .attributeError

/-- The sub-message of an item, before its arguments are stored. -/
def linkedSubmsg (fields : Descriptor) : Option LinkTuple → Except PyError Msg
  | some link => setLinkTuple fields Msg.empty link
  | none => .ok Msg.empty

/-- One turn of the loop of `prep_batch`. -/
def prepItem (vmsg : VMIMessage) (bitem : BatchItem) : Except PyError VMIMessage :=
  match bitem.type.enumerator? with
  | none => .error .attributeError
  | some (n, fields) =>
    -- only a repeated field has a method `add`
    if isRepeated n then do
      let submsg ← linkedSubmsg fields bitem.link
      let submsg ← bitem.args.foldlM (setattr fields) submsg
      .ok ((vmsg.put n submsg).addType n)
    else .error .attributeError

/-- `prep_batch`. -/
def prepBatch (batcharr : List BatchItem) : Except PyError VMIMessage :=
  batcharr.foldlM prepItem VMIMessage.empty

/-! ### The results -/

/-- A result: the fields of a reply with their values. -/
abbrev ResultFields := List (FieldName × Val)

/-- A dict of results by label. -/
abbrev BatchResults := List (String × ResultFields)

/-- The message of type `t` with index `ix`, field by field. -/
def rebuild (vmsg : VMIMessage) (t ix : ℕ) : Except PyError ResultFields := do
  let fields ← messageFields t
  if isRepeated t then
    match (vmsg.sub t)[ix]? with
    | some submsg => .ok (fields.foldl (fun res j => assign j.name (submsg.get j) res) [])
    | none => .error .indexError
  else .error .typeError

/-- The loop of `process_batch_results` over the types that are left. -/
def collect (batcharr : List BatchItem) (vmsg : VMIMessage) :
    List ℕ → (ℕ → ℕ) → ℕ → BatchResults → Except PyError BatchResults
  | [], _, _, resdict => .ok resdict
  | t :: ts, typecount, i, resdict =>
    match batcharr[i]? with
    | none => .error .indexError
    | some inputline => do
      let ix := typecount t
      let res ← rebuild vmsg t ix
      collect batcharr vmsg ts (Function.update typecount t (ix + 1)) (i + 1)
        (assign inputline.label res resdict)

/-- `process_batch_results`, on the message object as it is after the exchange. -/
def processBatchResults (batcharr : List BatchItem) (vmsg : VMIMessage) :
    Except PyError BatchResults :=
  if vmsg.type.length ≠ vmsg.type.length then .error .exception
  else if vmsg.error = some true then .error .exception
  else collect batcharr vmsg vmsg.type (fun _ => 0) 0 []

variable {G : Type}

/-- `batch`: what it returns or raises, and the VMI partition behind it. -/
def FE.batch (fe : FE) (env : Env G) (batcharr : List BatchItem) (w : World G) :
    Except Fault (World G × Except PyError BatchResults) :=
  match prepBatch batcharr with
  | .error e => .ok (w, .error e)
  | .ok vmsg => do
    let (w, vmsg) ← fe.sendDefaultReply env vmsg w
    .ok (w, processBatchResults batcharr vmsg)

/-! ### When the message is made -/

/-- An operator that is known, in a message with a field for links, and three indices that fit
    their fields. -/
structure LinkTuple.Acceptable (link : LinkTuple) (fields : Descriptor) : Prop where
  operator : link.operator ∈ [1, 2, 3]
  field : Declares fields .link
  prevMsgIx : 0 ≤ link.prevMsgIx ∧ link.prevMsgIx < 2 ^ 32
  prevItemIx : 0 ≤ link.prevItemIx ∧ link.prevItemIx < 2 ^ 32
  curItemIx : 0 ≤ link.curItemIx ∧ link.curItemIx < 2 ^ 32

/-- The type is an enumerator of a repeated field, the link can be made if there is one, and all
    arguments can be assigned. -/
def BatchItem.Sendable (bitem : BatchItem) : Prop :=
  ∃ n fields, bitem.type.enumerator? = some (n, fields) ∧ isRepeated n = true ∧
    (∀ link, bitem.link = some link → link.Acceptable fields) ∧
    ∀ arg ∈ bitem.args, Assignable fields arg

theorem uint32Value_ok_iff {n : ℤ} : (∃ k, uint32Value n = .ok k) ↔ 0 ≤ n ∧ n < 2 ^ 32 := by
  unfold uint32Value
  split_ifs with h
  · exact iff_of_true ⟨_, rfl⟩ h
  · simpa using h

theorem acceptOpr_isSome_iff {n : ℤ} : (acceptOpr n).isSome ↔ n ∈ [1, 2, 3] := by
  unfold acceptOpr
  split <;> simp_all

theorem setLinkTuple_ok_iff {fields : Descriptor} {submsg : Msg} {link : LinkTuple} :
    (∃ submsg', setLinkTuple fields submsg link = .ok submsg') ↔ link.Acceptable fields := by
  have hfield : fields.any (fun fd => fd.name = .link) = true ↔ Declares fields .link := by
    simp [Declares]
  unfold setLinkTuple
  constructor
  · rintro ⟨submsg', h⟩
    cases hop : acceptOpr link.operator with
    | none =>
      rw [hop] at h
      cases h
    | some operator =>
      rw [hop] at h
      obtain ⟨hany, h⟩ := ite_error_eq_ok.mp h
      obtain ⟨_, h₁, h⟩ := bind_eq_ok.mp h
      obtain ⟨_, h₂, h⟩ := bind_eq_ok.mp h
      obtain ⟨_, h₃, -⟩ := bind_eq_ok.mp h
      exact {
        operator := acceptOpr_isSome_iff.mp (by rw [hop]; rfl)
        field := hfield.mp hany
        prevMsgIx := uint32Value_ok_iff.mp ⟨_, h₁⟩
        prevItemIx := uint32Value_ok_iff.mp ⟨_, h₂⟩
        curItemIx := uint32Value_ok_iff.mp ⟨_, h₃⟩ }
  · intro h
    obtain ⟨operator, hop⟩ := Option.isSome_iff_exists.mp (acceptOpr_isSome_iff.mpr h.operator)
    obtain ⟨_, h₁⟩ := uint32Value_ok_iff.mpr h.prevMsgIx
    obtain ⟨_, h₂⟩ := uint32Value_ok_iff.mpr h.prevItemIx
    obtain ⟨_, h₃⟩ := uint32Value_ok_iff.mpr h.curItemIx
    rw [hop]
    dsimp only
    rw [if_pos (hfield.mpr h.field), h₁, h₂, h₃]
    exact ⟨_, rfl⟩

theorem foldlM_setattr_ok_iff {fields : Descriptor} {submsg : Msg}
    {argv : List (FieldName × Val)} :
    (∃ submsg', argv.foldlM (setattr fields) submsg = .ok submsg') ↔
      ∀ arg ∈ argv, Assignable fields arg := by
  have hnone : (setattrs fields submsg argv).2 = none ↔ _ := setattrs_none_iff
  rw [← hnone, ← outcome_setattrs]
  rcases setattrs fields submsg argv with ⟨submsg', _ | e⟩ <;> simp [outcome]

theorem prepItem_ok_iff {vmsg : VMIMessage} {bitem : BatchItem} :
    (∃ vmsg', prepItem vmsg bitem = .ok vmsg') ↔ bitem.Sendable := by
  unfold prepItem BatchItem.Sendable
  cases bitem.type.enumerator? with
  | none => simp
  | some e =>
    obtain ⟨n, fields⟩ := e
    dsimp only
    constructor
    · rintro ⟨vmsg', h⟩
      obtain ⟨hrep, h⟩ := ite_error_eq_ok.mp h
      obtain ⟨submsg, hlink, h⟩ := bind_eq_ok.mp h
      obtain ⟨submsg', hargs, -⟩ := bind_eq_ok.mp h
      refine ⟨n, fields, rfl, hrep, fun link hl => ?_, foldlM_setattr_ok_iff.mp ⟨_, hargs⟩⟩
      rw [hl] at hlink
      exact setLinkTuple_ok_iff.mp ⟨_, hlink⟩
    · rintro ⟨_, _, he, hrep, hlink, hargs⟩
      cases he
      rw [if_pos hrep]
      have hmade : ∃ submsg, linkedSubmsg fields bitem.link = .ok submsg := by
        cases hl : bitem.link with
        | none => exact ⟨_, rfl⟩
        | some link => exact setLinkTuple_ok_iff.mpr (hlink link hl)
      obtain ⟨submsg, hsubmsg⟩ := hmade
      obtain ⟨submsg', hset⟩ := foldlM_setattr_ok_iff.mpr hargs
      rw [hsubmsg, ok_bind, hset]
      exact ⟨_, rfl⟩

/-- **The arrays that can be sent.** -/
theorem prepBatch_ok_iff {batcharr : List BatchItem} :
    (∃ vmsg, prepBatch batcharr = .ok vmsg) ↔ ∀ bitem ∈ batcharr, bitem.Sendable := by
  unfold prepBatch
  generalize VMIMessage.empty = vmsg
  induction batcharr generalizing vmsg with
  | nil => exact iff_of_true ⟨vmsg, rfl⟩ (by simp)
  | cons bitem batcharr ih =>
    have hitem : (∃ vmsg', prepItem vmsg bitem = .ok vmsg') ↔ _ := prepItem_ok_iff
    rw [List.foldlM_cons, List.forall_mem_cons, ← hitem]
    constructor
    · rintro ⟨vmsg', h⟩
      obtain ⟨vmsg₁, h₁, h₂⟩ := bind_eq_ok.mp h
      exact ⟨⟨vmsg₁, h₁⟩, (ih vmsg₁).mp ⟨vmsg', h₂⟩⟩
    · rintro ⟨⟨vmsg₁, h₁⟩, hrest⟩
      rw [h₁]
      exact (ih vmsg₁).mpr hrest

/-- The types of the message are those of the items, and their fields are repeated. -/
theorem prepBatch_type {batcharr : List BatchItem} {vmsg : VMIMessage}
    (h : prepBatch batcharr = .ok vmsg) :
    vmsg.type.length = batcharr.length ∧ ∀ n ∈ vmsg.type, isRepeated n = true := by
  have hgen : ∀ (items : List BatchItem) (m : VMIMessage), items.foldlM prepItem m = .ok vmsg →
      ∃ ns, vmsg.type = m.type ++ ns ∧ ns.length = items.length ∧
        ∀ n ∈ ns, isRepeated n = true := by
    intro items
    induction items with
    | nil =>
      intro m hm
      cases hm
      exact ⟨[], by simp⟩
    | cons bitem items ih =>
      intro m hm
      rw [List.foldlM_cons] at hm
      obtain ⟨m₁, hitem, hrest⟩ := bind_eq_ok.mp hm
      obtain ⟨ns, htype, hlen, hns⟩ := ih m₁ hrest
      unfold prepItem at hitem
      cases he : bitem.type.enumerator? with
      | none =>
        rw [he] at hitem
        cases hitem
      | some e =>
        obtain ⟨n, fields⟩ := e
        rw [he] at hitem
        obtain ⟨hrep, hitem⟩ := ite_error_eq_ok.mp hitem
        obtain ⟨_, -, hitem⟩ := bind_eq_ok.mp hitem
        obtain ⟨_, -, hitem⟩ := bind_eq_ok.mp hitem
        cases hitem
        refine ⟨n :: ns, ?_, by simp [hlen], ?_⟩
        · rw [htype]
          simp [VMIMessage.addType]
        · exact List.forall_mem_cons.mpr ⟨hrep, hns⟩
  obtain ⟨ns, htype, hlen, hns⟩ := hgen batcharr _ h
  rw [show vmsg.type = ns from htype]
  exact ⟨hlen, hns⟩

/-! ### The loop over the reply -/

/-- The fields of a message with their values. -/
def fieldValues (fields : Descriptor) (m : Msg) : ResultFields :=
  fields.map fun fd => (fd.name, m.get fd)

/-- A reply is rebuilt field by field: no two fields have one name. -/
theorem rebuild_eq {vmsg : VMIMessage} {c : Call} {ix : ℕ} {m : Msg}
    (hrep : isRepeated c.replyNum = true) (hm : (vmsg.sub c.replyNum)[ix]? = some m) :
    rebuild vmsg c.replyNum ix = .ok (fieldValues c.replyFields m) := by
  have hnodup : ((fieldValues c.replyFields m).map Prod.fst).Nodup := by
    have hmap : (fieldValues c.replyFields m).map Prod.fst =
        c.replyFields.map FieldDescriptor.name := by
      simp [fieldValues]
    rw [hmap]
    exact (replyFields_names c).1
  have hfold : c.replyFields.foldl (fun res j => assign j.name (m.get j) res) [] =
      (fieldValues c.replyFields m).foldl (fun res e => assign e.1 e.2 res) [] := by
    rw [fieldValues, List.foldl_map]
  unfold rebuild
  rw [messageFields_replyNum, ok_bind, if_pos hrep, hm]
  dsimp only
  rw [hfold, foldl_assign_eq_iff.mpr hnodup]

/-- The entries of the dict, for items and their replies. -/
def resultEntries (batcharr : List BatchItem) (rs : List (ℕ × Msg)) : BatchResults :=
  List.zipWith (fun inputline x => (inputline.label, fieldValues (replyDescriptor x.1) x.2))
    batcharr rs

/-- **The dict is filled in order**: one assignment for each reply, under the label of the item
    with the same position. -/
theorem collect_eq {batcharr : List BatchItem} {vmsg : VMIMessage} {rs : List (ℕ × Msg)}
    (hsub : ∀ n, isRepeated n → vmsg.sub n = bucket n rs)
    (hcall : ∀ x ∈ rs, ∃ c : Call, x.1 = c.replyNum ∧ isRepeated c.replyNum = true)
    (hlen : rs.length = batcharr.length) {done todo : List (ℕ × Msg)} (h : rs = done ++ todo)
    (resdict : BatchResults) :
    collect batcharr vmsg (todo.map Prod.fst) (fun t => (done.map Prod.fst).count t) done.length
        resdict =
      .ok ((resultEntries (batcharr.drop done.length) todo).foldl
        (fun d e => assign e.1 e.2 d) resdict) := by
  induction todo generalizing done resdict with
  | nil => simp [collect, resultEntries]
  | cons x todo ih =>
    obtain ⟨t, m⟩ := x
    obtain ⟨c, hc, hrep⟩ := hcall (t, m) (by rw [h]; simp)
    have hc : t = c.replyNum := hc
    subst hc
    have hlt : done.length < batcharr.length := by
      rw [← hlen, h]
      simp
    -- the message of this turn: entry `count` of the field of its type
    have hentry : (vmsg.sub c.replyNum)[(done.map Prod.fst).count c.replyNum]? = some m := by
      rw [hsub c.replyNum hrep, h]
      exact bucket_count done todo
    -- and the counters are those of one more reply
    have hnext := update_count done c.replyNum m
    have hrest := ih (show rs = (done ++ [(c.replyNum, m)]) ++ todo by rw [h]; simp)
      (assign (batcharr[done.length]).label (fieldValues c.replyFields m) resdict)
    rw [List.length_append, List.length_singleton] at hrest
    rw [List.map_cons, collect, List.getElem?_eq_getElem hlt]
    dsimp only
    rw [rebuild_eq hrep hentry, ok_bind, hnext, hrest, List.drop_eq_getElem_cons hlt]
    show _ = Except.ok (List.foldl _ (assign _ (fieldValues (replyDescriptor c.replyNum) m) _) _)
    rw [replyDescriptor_replyNum]
    rfl

/-! ### All or nothing -/

/-- The dict has one entry for each item, under its label, with the reply that its call
    produced. -/
def AnswersAll (env : Env G) (batcharr : List BatchItem) (w : World G) (d : BatchResults) : Prop :=
  ∃ vmsg, prepBatch batcharr = .ok vmsg ∧ d.map Prod.fst = batcharr.map BatchItem.label ∧
    ∀ i bitem, batcharr[i]? = some bitem → ∃ c m, Produced env vmsg w i c m ∧
      d[i]? = some (bitem.label, fieldValues c.replyFields m)

/-- An exception, or the results of all items. -/
def AllOrNothing (fe : FE) (env : Env G) (batcharr : List BatchItem) (w : World G) :
    Except PyError BatchResults → Prop
  | .error _ => True
  | .ok d => AnswersAll env batcharr { w with scratchIdent := fe.identR } d

/-- A message that is processed to its end without an error gives all results. -/
theorem answersAll_of_run {env : Env G} {batcharr : List BatchItem} {vmsg reply : VMIMessage}
    {w w' : World G} (hlabels : (batcharr.map BatchItem.label).Nodup)
    (hlen : batcharr.length ≤ maxTypes) (hprep : prepBatch batcharr = .ok vmsg)
    (hrun : processProtobuf env vmsg w = .ok (w', reply)) (herr : reply.error = none) :
    ∃ d, processBatchResults batcharr reply = .ok d ∧ AnswersAll env batcharr w d := by
  obtain ⟨htype, hrepeated⟩ := prepBatch_type hprep
  obtain ⟨l, hreach⟩ := reaches_end (by omega) hrun herr
  obtain ⟨rs, hp, hrs⟩ := hreach.isPrefix herr
  have hsize : rs.length = batcharr.length := hp.length.trans htype
  have hcall : ∀ x ∈ rs, ∃ c : Call, x.1 = c.replyNum ∧ isRepeated c.replyNum = true := by
    intro x hx
    obtain ⟨i, hi⟩ := List.mem_iff_getElem?.mp hx
    have hlt : i < vmsg.type.length := by
      rw [← hp.length]
      exact (List.getElem?_eq_some_iff.mp hi).1
    obtain ⟨c, m, hprod, hget⟩ := hrs i hlt
    obtain ⟨_, _, _, _, _, _, -, -, ht, -⟩ := hprod
    rw [hi] at hget
    cases hget
    refine ⟨c, rfl, ?_⟩
    rw [← Call.isRepeated_num_iff]
    exact hrepeated c.num (List.mem_of_getElem? ht)
  have hkeys : (resultEntries batcharr rs).map Prod.fst = batcharr.map BatchItem.label := by
    rw [resultEntries, List.map_zipWith]
    show List.zipWith (fun inputline _ => BatchItem.label inputline) batcharr rs = _
    rw [← List.map_uncurry_zip_eq_zipWith]
    show List.map (BatchItem.label ∘ Prod.fst) _ = _
    rw [← List.map_map, List.map_fst_zip hsize.ge]
  have hgo : collect batcharr reply (rs.map Prod.fst) (fun _ => 0) 0 [] = _ :=
    collect_eq hp.sub hcall hsize (show rs = [] ++ rs from rfl) []
  rw [List.length_nil, List.drop_zero, foldl_assign_eq_iff.mpr (by rwa [hkeys])] at hgo
  refine ⟨resultEntries batcharr rs, ?_, vmsg, hprep, hkeys, fun i bitem hi => ?_⟩
  · unfold processBatchResults
    rw [if_neg (not_not.mpr rfl), herr, if_neg (by simp), hp.type]
    exact hgo
  · have hlt : i < batcharr.length := (List.getElem?_eq_some_iff.mp hi).1
    obtain ⟨c, m, hprod, hget⟩ := hrs i (by omega)
    refine ⟨c, m, hprod, ?_⟩
    rw [resultEntries, List.getElem?_zipWith, hi, hget]
    show some (_, fieldValues (replyDescriptor c.replyNum) m) = _
    rw [replyDescriptor_replyNum]

/-- A message that is too long is answered by an empty one, which gives an empty dict. -/
theorem batch_of_overlong {fe : FE} {env : Env G} {batcharr : List BatchItem}
    (hlong : maxTypes < batcharr.length) (hsend : ∀ bitem ∈ batcharr, bitem.Sendable)
    (w : World G) :
    fe.batch env batcharr w = .ok ({ w with scratchIdent := fe.identR }, .ok []) := by
  obtain ⟨vmsg, hprep⟩ := prepBatch_ok_iff.mpr hsend
  have hlen : maxTypes < vmsg.type.length := by
    rw [(prepBatch_type hprep).1]
    exact hlong
  unfold FE.batch FE.sendDefaultReply processProtobuf
  rw [hprep]
  dsimp only
  rw [if_pos hlen]
  rfl

/-- A read of a pointer, and a read of a word at the address that was read. -/
def readThenFollow : List BatchItem :=
  [{ type := .request (.readAddr .pa), label := "pointer", args := [(.paddr, .u64 4)] },
    { type := .request (.readNum .w32 .pa), label := "pid", link := some ⟨0, 0, 0, 1⟩,
      args := [(.paddr, .u64 8)] }]

/-- Pauses of the guest, labelled by their length. -/
def manyPauses (n : ℕ) : List BatchItem :=
  (List.range n).map fun i =>
    { type := .request .pauseVm, label := String.ofList (List.replicate i 'p') }

theorem manyPauses_labels (n : ℕ) : ((manyPauses n).map BatchItem.label).Nodup := by
  rw [manyPauses, List.map_map]
  refine List.nodup_range.map fun i j h => ?_
  have hlist : List.replicate i 'p' = List.replicate j 'p' := String.ofList_injective h
  simpa using congrArg List.length hlist

theorem manyPauses_sendable (n : ℕ) : ∀ bitem ∈ manyPauses n, bitem.Sendable := by
  intro bitem hmem
  obtain ⟨i, -, rfl⟩ := List.mem_map.mp hmem
  refine ⟨Call.pauseVm.num, Call.pauseVm.requestFields, rfl, by decide, ?_, ?_⟩
  · intro link h
    cases h
  · intro arg h
    cases h

end Furnace.App
