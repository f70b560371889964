import Furnace.Lib.Outcome
import Furnace.Lib.Tagged
import Furnace.Vmi.Batch

namespace Furnace.App

open Furnace.Proto Furnace.Lib Furnace.Vmi

/-!
# Batch objects

`batch_obj`: the app adds named calls, optionally linked to an earlier name, sends the
request, and gets back a generator of dicts, one for each call.  The request holds no names;
the positions of names, types and replies are counted again on each side.

* `BatchObj.add` — one call; the call that it is linked to is found by name.
* `BatchObj.results` — the generator, driven by the types of the reply.
* `results_paired` — every name comes back with the reply that its call produced.

The Python names of messages, fields and enumerators are those of the schema, so a message
type is a `Call` and the name of an argument a `FieldName`.
-/

/-- The exceptions that `batch_obj` raises or lets through. -/
inductive PyError
  | attributeError | keyError | typeError | valueError | indexError | exception
  deriving DecidableEq, Repr

/-! ### Requests -/

/-- Whether a value can be assigned to a field of a given type. -/
def fits : Val → FieldType → Bool
  | .u64 _, .uint64 | .i64 _, .int64 | .u32 _, .uint32 | .i32 _, .int32 => true
  | .str _, .string | .bytes _, .bytes | .enum _, .enum => true
  | _, _ => false

/-- `setattr(submsg, argname, argv)`: the field must be declared, and not a message. -/
def setattr (fields : Descriptor) (submsg : Msg) (arg : FieldName × Val) : Except PyError Msg :=
  match fields.find? (fun fd => fd.name = arg.1) with
  | none => .error .attributeError
  | some fd =>
    if fd.type = .message ∨ fd.type = .repeatedMessage then .error .attributeError
    else if fits arg.2 fd.type then .ok (submsg.set arg.1 arg.2)
    else .error .typeError

/-- `DESCRIPTOR.fields_by_name[field].number`. -/
def fieldNumber (fields : Descriptor) (field : FieldName) : Except PyError ℕ :=
  match fields.find? (fun fd => fd.name = field) with
  | some fd => .ok fd.number
  | none => .error .keyError

/-- The declaration of the message that the requests or replies in a field of `VMIMessage`
    have. -/
def messageFields (n : ℕ) : Except PyError Descriptor :=
  match Call.ofReply? n, Call.ofNum? n with
  | some c, _ => .ok c.replyFields
  | none, some c => .ok c.requestFields
  | none, none => .error .keyError

theorem messageFields_replyNum (c : Call) : messageFields c.replyNum = .ok c.replyFields := by
  unfold messageFields
  rw [Call.ofReply?_replyNum]

/-- The operator with a given number: `fe.ADD`, `fe.SUB` or `fe.OVERWRITE`. -/
def operatorOf : ℕ → Except PyError OperatorType
  | 1 => .ok .add
  | 2 => .ok .sub
  | 3 => .ok .overwrite
  | _ => .error .valueError

/-- The states of a batch object. -/
inductive BatchState
  | empty | filling | serialized | resultsRaw | resultsParsed
  deriving DecidableEq, Repr

/-- A `batch_obj`.  `namemap` keeps the type of the last call with a name: of the sub-message
    that it refers to, only the declaration is ever used. -/
structure BatchObj where
  request : VMIMessage := VMIMessage.empty
  reply : VMIMessage := VMIMessage.empty
  namemap : String → Option Call := fun _ => none
  order : List ℕ := []
  namestack : List String := []
  rawOut : VMIMessage := VMIMessage.empty
  rawIn : VMIMessage := VMIMessage.empty
  state : BatchState := .empty

/-- The arguments of `add`. -/
structure Addition where
  name : String
  msgtype : Call
  argv : List (FieldName × Val) := []
  linkname : Option String := none
  linkfield : Option FieldName := none
  linktgt : Option FieldName := none
  linkopr : Option ℕ := none

namespace BatchObj

/-- The constructor. -/
def new : BatchObj := {}

/-- The link of a call, when all four link arguments are given and true: the first call with
    the name `linkname`, and the field `linkfield` of the reply to the last call of that
    name. -/
def linkage (bo : BatchObj) (a : Addition) : Except PyError (Option Linkage) :=
  match a.linkname, a.linkfield, a.linktgt, a.linkopr with
  | some linkname, some linkfield, some linktgt, some linkopr =>
    -- an empty name or a zero is false, and the link is left out
    if linkname = "" ∨ linkopr = 0 then .ok none
    else match bo.namemap linkname, bo.namestack.findIdx? (· == linkname) with
      | none, _ => .error .keyError
      | some _, none => .error .valueError
      | some tgtmsg, some tgtmsgix => do
        let tgtmsgRet ← messageFields (tgtmsg.num + 1)
        let tgtfieldix ← fieldNumber tgtmsgRet linkfield
        let myfieldix ← fieldNumber a.msgtype.requestFields linktgt
        if a.msgtype.requestFields.any (fun fd => fd.name = .link) then
          let operator ← operatorOf linkopr
          -- field numbers start at one, indices at zero
          .ok (some ⟨tgtmsgix, tgtfieldix - 1, myfieldix - 1, operator⟩)
        else .error .attributeError
  | _, _, _, _ => .ok none

/-- `add`: only a repeated field has a method `add`. -/
def add (bo : BatchObj) (a : Addition) : Except PyError BatchObj :=
  if isRepeated a.msgtype.num then do
    let submsg ← a.argv.foldlM (setattr a.msgtype.requestFields) Msg.empty
    let link ← bo.linkage a
    let submsg := match link with
      | some link => submsg.set .link (.link link)
      | none => submsg
    .ok { bo with
      request := bo.request.addCall a.msgtype submsg
      namemap := Function.update bo.namemap a.name (some a.msgtype)
      namestack := bo.namestack ++ [a.name]
      order := bo.order ++ [a.msgtype.num]
      state := .filling }
  else .error .attributeError

/-- `serialize`. -/
def serialize (bo : BatchObj) : BatchObj :=
  { bo with state := .serialized, rawOut := bo.request }

/-- The first half of `batch_send`: the object, serialized, whose `raw_out` goes out. -/
def outgoing (bo : BatchObj) : Except PyError BatchObj :=
  if bo.state = .serialized then .ok bo
  else if bo.state = .filling then .ok bo.serialize
  else .error .exception

/-- The second half of `batch_send`. -/
def received (bo : BatchObj) (reply : VMIMessage) : BatchObj :=
  { bo with state := .resultsRaw, rawIn := reply }

/-- `parse`.  Until a reply has come in, `raw_in` is text in the source, and `ParseFromString`
    raises a `TypeError`; here it is the empty message. -/
def parse (bo : BatchObj) : Except PyError BatchObj :=
  -- a batch that stopped at an error has fewer replies than requests
  if bo.request.type.length ≠ bo.rawIn.type.length then .error .exception
  else if bo.rawIn.error = some true then .error .exception
  else .ok { bo with reply := bo.rawIn, state := .resultsParsed }

end BatchObj

/-! ### Results -/

/-- What a result dict holds: the name of the call, or the value of a reply field. -/
inductive Datum
  | label (name : String)
  | field (v : Val)
  deriving DecidableEq

/-- A result dict. -/
abbrev ResultDict := FieldName → Option Datum

/-- `res[j.name] = getattr(submsg, j.name)`, except for a link. -/
def storeField (submsg : Msg) (res : ResultDict) (fd : FieldDescriptor) : ResultDict :=
  if fd.name = .link then res else Function.update res fd.name (some (.field (submsg.get fd)))

/-- `res`, filled in: the name, then the fields. -/
def resultDict (name : String) (fields : Descriptor) (submsg : Msg) : ResultDict :=
  fields.foldl (storeField submsg) (Function.update (fun _ => none) .name (some (.label name)))

/-- One turn of the generator: the `ix`-th sub-message of the type `t`, under the `i`-th
    name. -/
def resultAt (reply : VMIMessage) (namestack : List String) (t ix i : ℕ) :
    Except PyError ResultDict := do
  let fields ← messageFields t
  if isRepeated t then
    match (reply.sub t)[ix]?, namestack[i]? with
    | some submsg, some name => .ok (resultDict name fields submsg)
    | _, _ => .error .indexError
  else .error .typeError

/-- The loop of the generator over the types that are left: the dicts that it yields, and the
    exception that ends it. -/
def resultsFrom (reply : VMIMessage) (namestack : List String) :
    List ℕ → (ℕ → ℕ) → ℕ → List ResultDict × Option PyError
  | [], _, _ => ([], none)
  | t :: ts, typecount, i =>
    let ix := typecount t
    match resultAt reply namestack t ix i with
    | .error e => ([], some e)
    | .ok res =>
      -- the dicts that have been yielded stay, also when a later turn raises
      let rest := resultsFrom reply namestack ts (Function.update typecount t (ix + 1)) (i + 1)
      (res :: rest.1, rest.2)

/-- `results`, run to its end. -/
def BatchObj.results (bo : BatchObj) : List ResultDict × Option PyError :=
  match (if bo.state = .resultsRaw then bo.parse else .ok bo) with
  | .error e => ([], some e)
  | .ok bo => resultsFrom bo.reply bo.namestack bo.reply.type (fun _ => 0) 0

/-! ### What a batch object holds -/

/-- **What `add` does.** It puts one request of a batchable type at the end, and its name at
    the end of the names. -/
theorem BatchObj.add_spec {bo bo' : BatchObj} {a : Addition} (h : bo.add a = .ok bo') :
    a.msgtype.isBatchable ∧ bo'.request.type = bo.request.type ++ [a.msgtype.num] ∧
      bo'.namestack = bo.namestack ++ [a.name] := by
  unfold BatchObj.add at h
  obtain ⟨hrep, h⟩ := ite_error_eq_ok.mp h
  obtain ⟨submsg, -, h⟩ := bind_eq_ok.mp h
  obtain ⟨link, -, h⟩ := bind_eq_ok.mp h
  cases h
  refine ⟨?_, rfl, rfl⟩
  rw [Call.isBatchable_iff, ← Call.isRepeated_num_iff]
  exact hrep

/-- What any number of `add`s do. -/
theorem BatchObj.adds_spec {adds : List Addition} {bo bo' : BatchObj}
    (h : adds.foldlM BatchObj.add bo = .ok bo') :
    (∀ a ∈ adds, a.msgtype.isBatchable) ∧
      bo'.request.type = bo.request.type ++ adds.map (fun a => a.msgtype.num) ∧
      bo'.namestack = bo.namestack ++ adds.map Addition.name := by
  induction adds generalizing bo with
  | nil =>
    cases h
    simp
  | cons a adds ih =>
    rw [List.foldlM_cons] at h
    obtain ⟨bo₁, hadd, hrest⟩ := bind_eq_ok.mp h
    obtain ⟨hbatch, htype, hname⟩ := BatchObj.add_spec hadd
    obtain ⟨hbatchs, htypes, hnames⟩ := ih hrest
    refine ⟨?_, ?_, ?_⟩
    · intro b hb
      rcases List.mem_cons.mp hb with rfl | hb
      · exact hbatch
      · exact hbatchs b hb
    · rw [htypes, htype]
      simp
    · rw [hnames, hname]
      simp

/-- A reply without an error and with one type for each request is read in full. -/
theorem BatchObj.results_received {bo : BatchObj} {reply : VMIMessage}
    (hsize : bo.request.type.length = reply.type.length) (herr : reply.error = none) :
    (bo.serialize.received reply).results =
      resultsFrom reply bo.namestack reply.type (fun _ => 0) 0 := by
  have hparse : (bo.serialize.received reply).parse =
      .ok { bo.serialize.received reply with reply := reply, state := .resultsParsed } := by
    show (if bo.request.type.length ≠ reply.type.length then _
      else if reply.error = some true then _ else _) = _
    rw [if_neg (not_not.mpr hsize), herr]
    rfl
  show (match (bo.serialize.received reply).parse with | .error e => _ | .ok bo => _) = _
  rw [hparse]
  rfl

/-! ### Result dicts -/

/-- A key that no field of the declaration has keeps its value. -/
theorem foldl_storeField_of_not_mem (submsg : Msg) {fields : Descriptor} {f : FieldName}
    (h : f ∉ fields.map FieldDescriptor.name) (res : ResultDict) :
    fields.foldl (storeField submsg) res f = res f := by
  induction fields generalizing res with
  | nil => rfl
  | cons fd fields ih =>
    rw [List.map_cons, List.mem_cons, not_or] at h
    obtain ⟨hne, hmem⟩ := h
    rw [List.foldl_cons, ih hmem, storeField]
    split
    · rfl
    · exact Function.update_of_ne hne _ _

/-- Every field but a link gets its own value: no two fields have one name. -/
theorem resultDict_field (name : String) {fields : Descriptor} (submsg : Msg)
    (hnodup : (fields.map FieldDescriptor.name).Nodup) {fd : FieldDescriptor} (hfd : fd ∈ fields)
    (hlink : fd.name ≠ .link) :
    resultDict name fields submsg fd.name = some (.field (submsg.get fd)) := by
  unfold resultDict
  -- the fields behind do not have the name of `fd`, those before do not matter
  generalize Function.update (fun _ => none) FieldName.name (some (Datum.label name)) = res
  induction fields generalizing res with
  | nil => cases hfd
  | cons fd' fields ih =>
    rw [List.map_cons, List.nodup_cons] at hnodup
    obtain ⟨hnotin, hnodup⟩ := hnodup
    rw [List.foldl_cons]
    rcases List.mem_cons.mp hfd with rfl | hfd
    · rw [foldl_storeField_of_not_mem submsg hnotin, storeField, if_neg hlink,
        Function.update_self]
    · exact ih hnodup hfd _

theorem resultDict_name (name : String) {fields : Descriptor} (submsg : Msg)
    (h : FieldName.name ∉ fields.map FieldDescriptor.name) :
    resultDict name fields submsg .name = some (.label name) := by
  unfold resultDict
  rw [foldl_storeField_of_not_mem submsg h, Function.update_self]

/-- A dict has no key but the name and the fields. -/
theorem resultDict_none (name : String) {fields : Descriptor} (submsg : Msg) {f : FieldName}
    (hname : f ≠ .name) (h : f ∉ fields.map FieldDescriptor.name) :
    resultDict name fields submsg f = none := by
  unfold resultDict
  rw [foldl_storeField_of_not_mem submsg h, Function.update_of_ne hname]

/-- The reply messages have no two fields of one name, no link, and none called `name`. -/
theorem replyFields_names (c : Call) :
    (c.replyFields.map FieldDescriptor.name).Nodup ∧
      .name ∉ c.replyFields.map FieldDescriptor.name ∧
      .link ∉ c.replyFields.map FieldDescriptor.name :=
  (by decide : ∀ c ∈ Call.all, (c.replyFields.map FieldDescriptor.name).Nodup ∧
    .name ∉ c.replyFields.map FieldDescriptor.name ∧
    .link ∉ c.replyFields.map FieldDescriptor.name) c c.mem_all

/-- The dict `d` carries the name of a call and exactly the fields of its reply `m`. -/
structure Shows (d : ResultDict) (name : String) (c : Call) (m : Msg) : Prop where
  label : d .name = some (.label name)
  field : ∀ fd ∈ c.replyFields, d fd.name = some (.field (m.get fd))
  only : ∀ f, d f ≠ none → f = .name ∨ ∃ fd ∈ c.replyFields, fd.name = f

/-- The dict of a reply shows it. -/
theorem resultDict_shows (name : String) (c : Call) (m : Msg) :
    Shows (resultDict name c.replyFields m) name c m := by
  obtain ⟨hnodup, hname, hlink⟩ := replyFields_names c
  refine ⟨resultDict_name name m hname, ?_, ?_⟩
  · intro fd hfd
    refine resultDict_field name m hnodup hfd fun h => hlink ?_
    rw [← h]
    exact List.mem_map_of_mem hfd
  · intro f hf
    by_contra hnot
    rw [not_or] at hnot
    refine hf (resultDict_none name m hnot.1 fun hmem => hnot.2 ?_)
    obtain ⟨fd, hfd, rfl⟩ := List.mem_map.mp hmem
    exact ⟨fd, hfd, rfl⟩

/-! ### The generator -/

/-- **The counters meet the replies again.** Over a reply whose fields hold the tagged
    replies `rs` by type, the generator gives each its own name. -/
theorem resultsFrom_eq {reply : VMIMessage} {namestack : List String} {rs : List (ℕ × Msg)}
    (hsub : ∀ c m, (c, m) ∈ rs → reply.sub c = bucket c rs)
    (hcall : ∀ x ∈ rs, ∃ c : Call, x.1 = c.replyNum ∧ isRepeated c.replyNum = true)
    (hlen : namestack.length = rs.length) {done todo : List (ℕ × Msg)} (h : rs = done ++ todo) :
    resultsFrom reply namestack (todo.map Prod.fst) (fun t => (done.map Prod.fst).count t)
        done.length =
      (List.zipWith (fun name x => resultDict name (replyDescriptor x.1) x.2)
        (namestack.drop done.length) todo, none) := by
  induction todo generalizing done with
  | nil => simp [resultsFrom]
  | cons x todo ih =>
    obtain ⟨t, m⟩ := x
    have hmem : (t, m) ∈ rs := by
      rw [h]
      simp
    have hlt : done.length < namestack.length := by
      rw [hlen, h]
      simp
    -- the reply of this turn: entry `count` of the field of its type
    have hentry : (reply.sub t)[(done.map Prod.fst).count t]? = some m := by
      rw [hsub t m hmem, h]
      exact bucket_count done todo
    obtain ⟨c, hc, hrep⟩ := hcall (t, m) hmem
    have hc : t = c.replyNum := hc
    -- so the turn yields the reply under its own name
    have hturn : resultAt reply namestack t ((done.map Prod.fst).count t) done.length =
        .ok (resultDict (namestack[done.length]) (replyDescriptor t) m) := by
      subst hc
      show messageFields c.replyNum >>= _ = _
      rw [messageFields_replyNum]
      show (if isRepeated c.replyNum = true then _ else _) = _
      rw [if_pos hrep, hentry, List.getElem?_eq_getElem hlt, replyDescriptor_replyNum]
    -- and the counters are those of one more reply
    have hnext := update_count done t m
    have hrest := ih (show rs = (done ++ [(t, m)]) ++ todo by rw [h]; simp)
    rw [List.length_append, List.length_singleton] at hrest
    rw [List.map_cons, resultsFrom, hturn]
    simp only [hnext]
    rw [hrest, List.drop_eq_getElem_cons hlt, List.zipWith_cons_cons]

/-! ### End to end -/

section EndToEnd

variable {G : Type} {env : Env G} {w w' : World G} {adds : List Addition} {bo : BatchObj}
  {reply : VMIMessage}

/-- The reply of a batch holds the replies `rs`, one for each addition, in the fields of their
    types. -/
structure Answers (env : Env G) (w : World G) (adds : List Addition) (bo : BatchObj)
    (reply : VMIMessage) (rs : List (ℕ × Msg)) : Prop where
  length : rs.length = adds.length
  sub : ∀ n, isRepeated n → reply.sub n = bucket n rs
  populated : ∀ n, reply.sub n ≠ [] ↔ n ∈ reply.type
  type : reply.type = rs.map Prod.fst
  each : ∀ i a, adds[i]? = some a →
    ∃ m, Produced env bo.request w i a.msgtype m ∧ rs[i]? = some (a.msgtype.replyNum, m)

/-- A batch that ends without an error is answered. -/
theorem answers_of_adds (hadds : adds.foldlM BatchObj.add BatchObj.new = .ok bo)
    (hlen : adds.length ≤ maxTypes) (hrun : processProtobuf env bo.request w = .ok (w', reply))
    (herr : reply.error = none) : ∃ rs, Answers env w adds bo reply rs := by
  obtain ⟨-, htype, -⟩ := BatchObj.adds_spec hadds
  have htype : bo.request.type = adds.map fun a => a.msgtype.num := htype
  have hsize : bo.request.type.length = adds.length := by rw [htype, List.length_map]
  obtain ⟨l, hreach⟩ := reaches_end (by omega) hrun herr
  obtain ⟨rs, hp, hrs⟩ := hreach.isPrefix herr
  refine ⟨rs, by rw [hp.length, hsize], hp.sub, hp.populated, hp.type, fun i a ha => ?_⟩
  have hi : i < adds.length := (List.getElem?_eq_some_iff.mp ha).1
  obtain ⟨c, m, hprod, hget⟩ := hrs i (by omega)
  -- the handler of position `i` is the one of the type that was added there
  have hc : c = a.msgtype := by
    obtain ⟨_, _, _, _, _, _, -, -, ht, -⟩ := hprod
    rw [htype, List.getElem?_map, ha] at ht
    exact Call.num_injective (Option.some.inj ht).symm
  subst hc
  exact ⟨m, hprod, hget⟩

variable {rs : List (ℕ × Msg)}

/-- The type of a reply is that of its call plus one. -/
theorem Answers.types (h : Answers env w adds bo reply rs)
    (hbatch : ∀ a ∈ adds, a.msgtype.isBatchable) :
    rs.map Prod.fst = adds.map fun a => a.msgtype.num + 1 := by
  apply List.ext_getElem?
  intro i
  rw [List.getElem?_map, List.getElem?_map]
  cases ha : adds[i]? with
  | none =>
    have hle : rs.length ≤ i := h.length ▸ List.getElem?_eq_none_iff.mp ha
    rw [List.getElem?_eq_none hle]
    rfl
  | some a =>
    obtain ⟨m, -, hget⟩ := h.each i a ha
    have hb := hbatch a (List.mem_of_getElem? ha)
    rw [hget]
    show some a.msgtype.replyNum = some (a.msgtype.num + 1)
    rw [Call.replyNum_of_isBatchable hb]

/-- Every reply is in the repeated field of some call. -/
theorem Answers.call (h : Answers env w adds bo reply rs)
    (hbatch : ∀ a ∈ adds, a.msgtype.isBatchable) :
    ∀ x ∈ rs, ∃ c : Call, x.1 = c.replyNum ∧ isRepeated c.replyNum = true := by
  intro x hx
  obtain ⟨i, hi⟩ := List.mem_iff_getElem?.mp hx
  have hlt : i < adds.length := h.length ▸ (List.getElem?_eq_some_iff.mp hi).1
  obtain ⟨m, -, hget⟩ := h.each i adds[i] (List.getElem?_eq_getElem hlt)
  rw [hi] at hget
  cases hget
  exact ⟨adds[i].msgtype, rfl, Call.isRepeated_replyNum (hbatch _ (List.getElem_mem hlt))⟩

/-- A reply field has one entry for each occurrence of its number among the types. -/
theorem Answers.length_sub (h : Answers env w adds bo reply rs)
    (hbatch : ∀ a ∈ adds, a.msgtype.isBatchable) (n : ℕ) :
    (reply.sub n).length = reply.type.count n := by
  by_cases hn : n ∈ reply.type
  · obtain ⟨x, hx, rfl⟩ := List.mem_map.mp (h.type ▸ hn)
    obtain ⟨c, hc, hrep⟩ := h.call hbatch x hx
    rw [h.sub x.1 (by rw [hc]; exact hrep), length_bucket, h.type]
  -- a field that is not among the types is not populated
  · have hnil : reply.sub n = [] := by
      by_contra hne
      exact hn ((h.populated n).mp hne)
    rw [hnil, List.count_eq_zero_of_not_mem hn]
    rfl

/-- The generator zips the names with the replies. -/
theorem Answers.results (h : Answers env w adds bo reply rs)
    (hbatch : ∀ a ∈ adds, a.msgtype.isBatchable) (herr : reply.error = none)
    (htype : bo.request.type.length = adds.length)
    (hnames : bo.namestack.length = adds.length) :
    (bo.serialize.received reply).results =
      (List.zipWith (fun name x => resultDict name (replyDescriptor x.1) x.2) bo.namestack rs,
        none) := by
  have hcall := h.call hbatch
  have hsub : ∀ t m, (t, m) ∈ rs → reply.sub t = bucket t rs := by
    intro t m hmem
    obtain ⟨c, hc, hrep⟩ := hcall (t, m) hmem
    have hc : t = c.replyNum := hc
    exact h.sub t (by rw [hc]; exact hrep)
  have hsize : bo.request.type.length = reply.type.length := by
    rw [htype, h.type, List.length_map, h.length]
  have hgen : resultsFrom reply bo.namestack (rs.map Prod.fst) (fun _ => 0) 0 = _ :=
    resultsFrom_eq hsub hcall (hnames.trans h.length.symm) (show rs = [] ++ rs from rfl)
  rw [BatchObj.results_received hsize herr, h.type]
  exact hgen

/-- **Batch results are paired with their calls.** When a batch of added calls is processed
    without an error, the reply has one type for each call, the type of the call plus one;
    every reply field has as many entries as its number has occurrences among the types; and
    the generator yields one dict for each call, with the name of the call and the reply that
    its handler produced. -/
theorem results_paired (hadds : adds.foldlM BatchObj.add BatchObj.new = .ok bo)
    (hlen : adds.length ≤ maxTypes) (hrun : processProtobuf env bo.request w = .ok (w', reply))
    (herr : reply.error = none) :
    reply.type = adds.map (fun a => a.msgtype.num + 1) ∧
      (∀ n, (reply.sub n).length = reply.type.count n) ∧
      ∃ ds, (bo.serialize.received reply).results = (ds, none) ∧ ds.length = adds.length ∧
        ∀ i a, adds[i]? = some a → ∃ m d, Produced env bo.request w i a.msgtype m ∧
          ds[i]? = some d ∧ Shows d a.name a.msgtype m := by
  obtain ⟨hbatch, htype, hnames⟩ := BatchObj.adds_spec hadds
  have htype : bo.request.type.length = adds.length := by
    rw [htype]
    exact List.length_map ..
  have hnames : bo.namestack = adds.map Addition.name := hnames
  have hnameslen : bo.namestack.length = adds.length := by
    rw [hnames, List.length_map]
  obtain ⟨rs, h⟩ := answers_of_adds hadds hlen hrun herr
  refine ⟨h.type.trans (h.types hbatch), h.length_sub hbatch, _,
    h.results hbatch herr htype hnameslen, ?_, fun i a ha => ?_⟩
  · rw [List.length_zipWith, hnameslen, h.length, Nat.min_self]
  · obtain ⟨m, hprod, hget⟩ := h.each i a ha
    refine ⟨m, _, hprod, ?_, resultDict_shows a.name a.msgtype m⟩
    rw [List.getElem?_zipWith, hnames, List.getElem?_map, ha, hget]
    show some _ = some _
    rw [replyDescriptor_replyNum]

/-- Two address reads, the second of them linked to the first. -/
def followPointer : List Addition :=
  [{ name := "head", msgtype := .readAddr .pa, argv := [(.paddr, .u64 4)] },
    { name := "next", msgtype := .readAddr .pa, argv := [(.paddr, .u64 8)],
      linkname := some "head", linkfield := some .result, linktgt := some .paddr,
      linkopr := some 1 }]

theorem results_paired_followPointer : ∃ bo w' reply,
    followPointer.foldlM BatchObj.add BatchObj.new = .ok bo ∧
      processProtobuf echoEnv bo.request (World.initial ()) = .ok (w', reply) ∧
      reply.type = [63, 63] ∧ (∀ n, (reply.sub n).length = reply.type.count n) ∧
      ∃ ds, (bo.serialize.received reply).results = (ds, none) ∧ ds.length = 2 ∧
        ∀ i a, followPointer[i]? = some a →
          ∃ m d, Produced echoEnv bo.request (World.initial ()) i a.msgtype m ∧
            ds[i]? = some d ∧ Shows d a.name a.msgtype m := by
  have hlen : followPointer.length ≤ maxTypes := by decide
  exact ⟨_, _, _, rfl, rfl, results_paired rfl hlen rfl rfl⟩

end EndToEnd

end Furnace.App
