import Furnace.App.BatchObj

namespace Furnace.App

open Furnace.Proto Furnace.Lib

/-!
# A call that cannot be added

`batch_obj.add` with all that it has done when it raises.  The type of the call is appended and
the sub-message added before the arguments are looked at, and neither is taken back; the names
are entered at the end.

* `Members`, `AddArgs` — what `add` changes, and its arguments: the message type may be any
  attribute of the request, also of a reply or of a singular field.
* `Members.add` — `add`, with the members as they are when it returns or raises.
* `members_add_eq` — for the call types it does what `BatchObj.add` does, where that returns.
* `Members.Addable`, `add_raises_iff` — the calls that can be added.
* `add_unchanged_iff` — **the calls after which nothing has changed when `add` raises**.
-/

/-! ### The members and the arguments -/

/-- What `add` changes.  Of the sub-message that a name refers to, only its type is used. -/
structure Members where
  request : VMIMessage := VMIMessage.empty
  namemap : String → Option ℕ := fun _ => none
  order : List ℕ := []
  namestack : List String := []
  state : BatchState := .empty

/-- The attributes of a request, by what `add` makes of them. -/
inductive MsgType
  /-- Enumerators; in small letters each is the field with its number. -/
  | event
  | request (c : Call)
  | reply (c : Call)
  /-- A number of `Type` that is no enumerator, such as `EVENT_FIELD_NUMBER`: in small letters it
      is no field. -/
  | constant (n : ℕ)
  /-- No attribute, or one that is not a number of `Type`. -/
  | unknown
  deriving DecidableEq

/-- The number of an enumerator, and the declaration of its messages. -/
def MsgType.enumerator? : MsgType → Option (ℕ × Descriptor)
  -- the field is singular, so that no message is ever added
  | .event => some (1, [])
  | .request c => some (c.num, c.requestFields)
  | .reply c => some (c.replyNum, c.replyFields)
  | .constant _ | .unknown => none

/-- The arguments of `add`. -/
structure AddArgs where
  name : String
  msgtype : MsgType
  argv : List (FieldName × Val) := []
  linkname : Option String := none
  linkfield : Option FieldName := none
  linktgt : Option FieldName := none
  linkopr : Option ℕ := none

/-! ### `add` -/

/-- The loop over `argv`, with the sub-message as far as it was filled in. -/
def setattrs (fields : Descriptor) (submsg : Msg) :
    List (FieldName × Val) → Msg × Option PyError
  | [] => (submsg, none)
  | arg :: argv =>
    match setattr fields submsg arg with
    | .ok submsg => setattrs fields submsg argv
    | .error e => (submsg, some e)

namespace Members

/-- The three indices of a link. -/
def linkIndices (m : Members) (fields : Descriptor) (linkname : String)
    (linkfield linktgt : FieldName) : Except PyError Linkage :=
  match m.namemap linkname, m.namestack.findIdx? (· == linkname) with
  | none, _ => .error .keyError
  | some _, none => .error .valueError
  | some tgtmsgType, some tgtmsgix => do
    let tgtmsgRet ← messageFields (tgtmsgType + 1)
    let tgtfieldix ← fieldNumber tgtmsgRet linkfield
    let myfieldix ← fieldNumber fields linktgt
    .ok { prevMsgIx := tgtmsgix, prevItemIx := tgtfieldix - 1, curItemIx := myfieldix - 1 }

/-- The link of a call, if there is one. -/
def setLink (m : Members) (a : AddArgs) (fields : Descriptor) (submsg : Msg) :
    Msg × Option PyError :=
  match a.linkname, a.linkfield, a.linktgt, a.linkopr with
  | some linkname, some linkfield, some linktgt, some linkopr =>
    if linkname = "" ∨ linkopr = 0 then (submsg, none)
    else match m.linkIndices fields linkname linkfield linktgt with
      | .error e => (submsg, some e)
      | .ok link =>
        if fields.any (fun fd => fd.name = .link) then
          match operatorOf linkopr with
          | .ok operator => (submsg.set .link (.link { link with operator }), none)
          -- the indices have been set
          | .error e => (submsg.set .link (.link link), some e)
        else (submsg, some .attributeError)
  | _, _, _, _ => (submsg, none)

/-- The sub-message of a call, filled in as far as it goes. -/
def fill (m : Members) (a : AddArgs) (fields : Descriptor) : Msg × Option PyError :=
  match setattrs fields Msg.empty a.argv with
  | (submsg, some e) => (submsg, some e)
  | (submsg, none) => m.setLink a fields submsg

/-- `add`: the members when it returns or raises. -/
def add (m : Members) (a : AddArgs) : Members × Option PyError :=
  match a.msgtype with
  | .unknown => (m, some .attributeError)
  | .constant n => ({ m with request := m.request.addType n }, some .attributeError)
  | .event => addMessage m a 1 []
  | .request c => addMessage m a c.num c.requestFields
  | .reply c => addMessage m a c.replyNum c.replyFields
where
  addMessage (m : Members) (a : AddArgs) (n : ℕ) (fields : Descriptor) :
      Members × Option PyError :=
    -- only a repeated field has a method `add`
    if isRepeated n then
      let (submsg, e) := m.fill a fields
      let m := { m with request := (m.request.put n submsg).addType n }
      match e with
      | some e => (m, some e)
      | none =>
        ({ m with
            namemap := Function.update m.namemap a.name (some n)
            namestack := m.namestack ++ [a.name]
            order := m.order ++ [n]
            state := .filling }, none)
    else ({ m with request := m.request.addType n }, some .attributeError)

/-- The members of a batch object. -/
def ofBatchObj (bo : BatchObj) : Members where
  request := bo.request
  namemap name := (bo.namemap name).map Call.num
  order := bo.order
  namestack := bo.namestack
  state := bo.state

end Members

/-- The arguments for a call type. -/
def Addition.args (a : Addition) : AddArgs :=
  { a with msgtype := .request a.msgtype }

/-! ### The two models of `add` -/

/-- A result and the exception beside it, as a computation that can fail. -/
def outcome {α : Type} : α × Option PyError → Except PyError α
  | (a, none) => .ok a
  | (_, some e) => .error e

theorem outcome_setattrs (fields : Descriptor) (submsg : Msg) (argv : List (FieldName × Val)) :
    outcome (setattrs fields submsg argv) = argv.foldlM (setattr fields) submsg := by
  induction argv generalizing submsg with
  | nil => rfl
  | cons arg argv ih =>
    rw [setattrs, List.foldlM_cons]
    cases setattr fields submsg arg with
    | error e => rfl
    | ok submsg' => exact ih submsg'

/-- A link is put into a sub-message. -/
def putLink (submsg : Msg) : Option Linkage → Msg
  | some link => submsg.set .link (.link link)
  | none => submsg

theorem outcome_setLink (bo : BatchObj) (a : Addition) (submsg : Msg) :
    outcome ((Members.ofBatchObj bo).setLink a.args a.msgtype.requestFields submsg) =
      (bo.linkage a).map (putLink submsg) := by
  obtain ⟨name, c, argv, linkname, linkfield, linktgt, linkopr⟩ := a
  cases linkname with
  | none => rfl
  | some linkname =>
  cases linkfield with
  | none => rfl
  | some linkfield =>
  cases linktgt with
  | none => rfl
  | some linktgt =>
  cases linkopr with
  | none => rfl
  | some linkopr =>
    show outcome (if _ then _ else _) = (if _ then _ else _ : Except PyError _).map _
    by_cases hfalse : linkname = "" ∨ linkopr = 0
    · rw [if_pos hfalse, if_pos hfalse]
      rfl
    · rw [if_neg hfalse, if_neg hfalse, Members.linkIndices]
      dsimp only [Addition.args, Members.ofBatchObj]
      cases bo.namemap linkname with
      | none => rfl
      | some tgtmsg =>
      cases bo.namestack.findIdx? (· == linkname) with
      | none => rfl
      | some tgtmsgix =>
      dsimp only [Option.map_some]
      cases messageFields (tgtmsg.num + 1) with
      | error e => rfl
      | ok tgtmsgRet =>
      cases htgt : fieldNumber tgtmsgRet linkfield with
      | error e => simp [htgt, outcome, bind, Except.bind, Except.map]
      | ok tgtfieldix =>
      cases fieldNumber c.requestFields linktgt with
      | error e => simp [htgt, outcome, bind, Except.bind, Except.map]
      | ok myfieldix =>
      simp only [htgt, ok_bind]
      split_ifs
      · cases operatorOf linkopr <;> rfl
      · rfl

/-- **The two models agree**: `add` raises for both or for neither, with the same exception, and
    where it returns the members are those of the batch object. -/
theorem members_add_eq (bo : BatchObj) (a : Addition) :
    outcome ((Members.ofBatchObj bo).add a.args) = (bo.add a).map Members.ofBatchObj := by
  show outcome (Members.add.addMessage _ a.args a.msgtype.num a.msgtype.requestFields) = _
  rw [Members.add.addMessage, BatchObj.add]
  split_ifs with hrep
  · have hfill : outcome ((Members.ofBatchObj bo).fill a.args a.msgtype.requestFields) =
        a.argv.foldlM (setattr a.msgtype.requestFields) Msg.empty >>= fun submsg =>
          (bo.linkage a).map (putLink submsg) := by
      rw [← outcome_setattrs, Members.fill]
      show outcome (match setattrs a.msgtype.requestFields Msg.empty a.argv with
        | (submsg, some e) => (submsg, some e)
        | (submsg, none) => _) = _
      rcases setattrs a.msgtype.requestFields Msg.empty a.argv with ⟨submsg, _ | e⟩
      · exact outcome_setLink bo a submsg
      · rfl
    rcases hf : (Members.ofBatchObj bo).fill a.args a.msgtype.requestFields with ⟨submsg, _ | e⟩
    · rw [hf] at hfill
      obtain ⟨submsg₁, h₁, h₂⟩ := bind_eq_ok.mp hfill.symm
      obtain ⟨link, hlink, hput⟩ := map_eq_ok.mp h₂
      rw [h₁, ok_bind, hlink, ok_bind]
      subst hput
      have hmap : (fun name => (Function.update bo.namemap a.name (some a.msgtype) name).map
          Call.num) = Function.update (fun name => (bo.namemap name).map Call.num) a.name
            (some a.msgtype.num) := by
        funext name
        by_cases hname : name = a.name
        · subst hname
          simp
        · simp [hname]
      cases link <;> simp [outcome, Members.ofBatchObj, Except.map, hmap, VMIMessage.addCall,
        putLink, Addition.args]
    · rw [hf] at hfill
      rcases bind_eq_error.mp hfill.symm with h₁ | ⟨submsg₁, h₁, h₂⟩
      · rw [h₁]
        rfl
      · rw [h₁, ok_bind]
        cases hlink : bo.linkage a with
        | error e' =>
          rw [hlink] at h₂
          cases h₂
          rfl
        | ok link =>
          rw [hlink] at h₂
          cases h₂
  · rfl

/-! ### Calls that can be added -/

/-- A value for a declared field that is no message, and of the type of the field. -/
def Assignable (fields : Descriptor) (arg : FieldName × Val) : Prop :=
  ∃ fd, fields.find? (fun fd => fd.name = arg.1) = some fd ∧
    ¬ (fd.type = .message ∨ fd.type = .repeatedMessage) ∧ fits arg.2 fd.type = true

/-- A field with the name is declared. -/
def Declares (fields : Descriptor) (field : FieldName) : Prop := ∃ fd ∈ fields, fd.name = field

namespace Members

/-- If the link arguments are all given and true: the name has been added, its reply has the
    field, the call has the target and a field for links, and the operator is one of the
    three. -/
def Linkable (m : Members) (a : AddArgs) (fields : Descriptor) : Prop :=
  ∀ linkname linkfield linktgt linkopr, a.linkname = some linkname → a.linkfield = some linkfield →
    a.linktgt = some linktgt → a.linkopr = some linkopr → ¬ (linkname = "" ∨ linkopr = 0) →
    (∃ tgtmsgType tgtmsgRet, m.namemap linkname = some tgtmsgType ∧
      messageFields (tgtmsgType + 1) = .ok tgtmsgRet ∧ Declares tgtmsgRet linkfield) ∧
    linkname ∈ m.namestack ∧ Declares fields linktgt ∧ Declares fields .link ∧
    linkopr ∈ [1, 2, 3]

/-- The type is an enumerator of a repeated field, all arguments can be assigned, and the link
    can be made. -/
def Addable (m : Members) (a : AddArgs) : Prop :=
  ∃ n fields, a.msgtype.enumerator? = some (n, fields) ∧ isRepeated n = true ∧
    (∀ arg ∈ a.argv, Assignable fields arg) ∧ m.Linkable a fields

end Members

theorem setattr_ok_iff {fields : Descriptor} {submsg : Msg} {arg : FieldName × Val} :
    (∃ submsg', setattr fields submsg arg = .ok submsg') ↔ Assignable fields arg := by
  rw [setattr, Assignable]
  cases fields.find? (fun fd => fd.name = arg.1) with
  | none => simp
  | some fd =>
    have hone : (∃ fd', some fd = some fd' ∧
        ¬ (fd'.type = .message ∨ fd'.type = .repeatedMessage) ∧ fits arg.2 fd'.type = true) ↔
        ¬ (fd.type = .message ∨ fd.type = .repeatedMessage) ∧ fits arg.2 fd.type = true := by
      simp
    rw [hone]
    dsimp only
    split_ifs with hmsg hfits
    · simp [hmsg]
    · exact iff_of_true ⟨_, rfl⟩ ⟨hmsg, hfits⟩
    · simp [hfits]

theorem setattrs_none_iff {fields : Descriptor} {submsg : Msg} {argv : List (FieldName × Val)} :
    (setattrs fields submsg argv).2 = none ↔ ∀ arg ∈ argv, Assignable fields arg := by
  induction argv generalizing submsg with
  | nil => simp [setattrs]
  | cons arg argv ih =>
    rw [setattrs, List.forall_mem_cons]
    have harg : (∃ submsg', setattr fields submsg arg = .ok submsg') ↔ Assignable fields arg :=
      setattr_ok_iff
    cases hset : setattr fields submsg arg with
    | error e =>
      rw [hset] at harg
      simp [← harg]
    | ok submsg' =>
      rw [hset] at harg
      simp [← harg, ih]

theorem fieldNumber_ok_iff {fields : Descriptor} {field : FieldName} :
    (∃ n, fieldNumber fields field = .ok n) ↔ Declares fields field := by
  rw [fieldNumber, Declares]
  cases hfind : fields.find? (fun fd => fd.name = field) with
  | none =>
    have hnone : ∀ fd ∈ fields, ¬ fd.name = field := by simpa using List.find?_eq_none.mp hfind
    simpa using hnone
  | some fd =>
    have hmem := List.mem_of_find?_eq_some hfind
    have hname : fd.name = field := by simpa using List.find?_some hfind
    simpa using ⟨fd, hmem, hname⟩

theorem operatorOf_ok_iff {n : ℕ} : (∃ op, operatorOf n = .ok op) ↔ n ∈ [1, 2, 3] := by
  match n with
  | 0 | 1 | 2 | 3 => simp [operatorOf]
  | n + 4 => simp [operatorOf]

namespace Members

theorem linkIndices_ok_iff {m : Members} {fields : Descriptor} {linkname : String}
    {linkfield linktgt : FieldName} :
    (∃ link, m.linkIndices fields linkname linkfield linktgt = .ok link) ↔
      (∃ tgtmsgType tgtmsgRet, m.namemap linkname = some tgtmsgType ∧
        messageFields (tgtmsgType + 1) = .ok tgtmsgRet ∧ Declares tgtmsgRet linkfield) ∧
      linkname ∈ m.namestack ∧ Declares fields linktgt := by
  rw [linkIndices]
  cases hmap : m.namemap linkname with
  | none => simp
  | some tgtmsgType =>
    cases hix : m.namestack.findIdx? (· == linkname) with
    | none =>
      have hnot : linkname ∉ m.namestack := by
        intro hmem
        have hnone := List.findIdx?_eq_none_iff.mp hix linkname hmem
        simp at hnone
      simp [hnot]
    | some tgtmsgix =>
      have hmem : linkname ∈ m.namestack := by
        obtain ⟨hlt, hname, -⟩ := List.findIdx?_eq_some_iff_getElem.mp hix
        have hname : m.namestack[tgtmsgix] = linkname := by simpa using hname
        exact hname ▸ List.getElem_mem hlt
      rw [← fieldNumber_ok_iff]
      constructor
      · rintro ⟨link, h⟩
        obtain ⟨tgtmsgRet, hret, h⟩ := bind_eq_ok.mp h
        obtain ⟨tgtfieldix, htgt, h⟩ := bind_eq_ok.mp h
        obtain ⟨myfieldix, hmy, h⟩ := bind_eq_ok.mp h
        exact ⟨⟨_, tgtmsgRet, rfl, hret, fieldNumber_ok_iff.mp ⟨_, htgt⟩⟩, hmem, _, hmy⟩
      · rintro ⟨⟨_, tgtmsgRet, htype, hret, hdecl⟩, -, myfieldix, hmy⟩
        cases htype
        obtain ⟨tgtfieldix, htgt⟩ := fieldNumber_ok_iff.mpr hdecl
        dsimp only
        rw [hret, ok_bind, htgt, ok_bind, hmy, ok_bind]
        exact ⟨_, rfl⟩

theorem setLink_none_iff {m : Members} {a : AddArgs} {fields : Descriptor} {submsg : Msg} :
    (m.setLink a fields submsg).2 = none ↔ m.Linkable a fields := by
  rw [setLink, Linkable]
  cases a.linkname with
  | none => simp
  | some linkname =>
  cases a.linkfield with
  | none => simp
  | some linkfield =>
  cases a.linktgt with
  | none => simp
  | some linktgt =>
  cases a.linkopr with
  | none => simp
  | some linkopr =>
    dsimp only
    by_cases hfalse : linkname = "" ∨ linkopr = 0
    · rw [if_pos hfalse]
      refine iff_of_true rfl fun _ _ _ _ h₁ _ _ h₄ h => ?_
      cases h₁
      cases h₄
      exact absurd hfalse h
    · rw [if_neg hfalse]
      -- the arguments are the given ones
      have hargs : (∀ linkname' linkfield' linktgt' linkopr', some linkname = some linkname' →
          some linkfield = some linkfield' → some linktgt = some linktgt' →
          some linkopr = some linkopr' → ¬ (linkname' = "" ∨ linkopr' = 0) →
          (∃ tgtmsgType tgtmsgRet, m.namemap linkname' = some tgtmsgType ∧
            messageFields (tgtmsgType + 1) = .ok tgtmsgRet ∧ Declares tgtmsgRet linkfield') ∧
          linkname' ∈ m.namestack ∧ Declares fields linktgt' ∧ Declares fields .link ∧
          linkopr' ∈ [1, 2, 3]) ↔
          (∃ link, m.linkIndices fields linkname linkfield linktgt = .ok link) ∧
            Declares fields .link ∧ linkopr ∈ [1, 2, 3] := by
        rw [linkIndices_ok_iff]
        constructor
        · intro h
          obtain ⟨h₁, h₂, h₃, h₄, h₅⟩ := h _ _ _ _ rfl rfl rfl rfl hfalse
          exact ⟨⟨h₁, h₂, h₃⟩, h₄, h₅⟩
        · rintro ⟨⟨h₁, h₂, h₃⟩, h₄, h₅⟩ _ _ _ _ e₁ e₂ e₃ e₄ -
          cases e₁
          cases e₂
          cases e₃
          cases e₄
          exact ⟨h₁, h₂, h₃, h₄, h₅⟩
      rw [hargs]
      have hlink : fields.any (fun fd => fd.name = .link) = true ↔ Declares fields .link := by
        simp [Declares]
      cases m.linkIndices fields linkname linkfield linktgt with
      | error e => simp
      | ok link =>
        dsimp only
        rw [← hlink]
        split_ifs with hhas
        · rw [← operatorOf_ok_iff]
          cases operatorOf linkopr with
          | error e => simp
          | ok op => simpa using hhas
        · simp [hhas]

/-- **The calls that can be added.** -/
theorem add_none_iff {m : Members} {a : AddArgs} : (m.add a).2 = none ↔ m.Addable a := by
  -- by the type, all but the last step alike
  have hmessage : ∀ n fields, a.msgtype.enumerator? = some (n, fields) →
      ((add.addMessage m a n fields).2 = none ↔ m.Addable a) := by
    intro n fields htype
    have haddable : m.Addable a ↔ isRepeated n = true ∧ (∀ arg ∈ a.argv, Assignable fields arg) ∧
        m.Linkable a fields := by
      rw [Addable, htype]
      constructor
      · rintro ⟨_, _, h, hrest⟩
        cases h
        exact hrest
      · exact fun h => ⟨n, fields, rfl, h⟩
    have hargs : (setattrs fields Msg.empty a.argv).2 = none ↔
        ∀ arg ∈ a.argv, Assignable fields arg := setattrs_none_iff
    rw [haddable, ← hargs, add.addMessage]
    by_cases hrep : isRepeated n = true
    · rw [if_pos hrep, fill]
      rcases setattrs fields Msg.empty a.argv with ⟨submsg, _ | e⟩
      · have hlink : (m.setLink a fields submsg).2 = none ↔ m.Linkable a fields := setLink_none_iff
        rw [← hlink]
        rcases hset : m.setLink a fields submsg with ⟨submsg', _ | e⟩
        · simp [hset, hrep]
        · simp [hset]
      · simp
    · rw [if_neg hrep]
      simp [hrep]
  rw [add]
  cases htype : a.msgtype with
  | unknown | constant =>
    refine iff_of_false (by simp) ?_
    rintro ⟨n, fields, h, -⟩
    rw [htype] at h
    cases h
  | event => exact hmessage 1 [] (by rw [htype]; rfl)
  | request c => exact hmessage _ _ (by rw [htype]; rfl)
  | reply c => exact hmessage _ _ (by rw [htype]; rfl)

/-- What is left of every call whose type is known: an entry for it. -/
theorem add_request_type (m : Members) {a : AddArgs} (h : a.msgtype ≠ .unknown) :
    (m.add a).1.request.type.length = m.request.type.length + 1 := by
  have hmessage : ∀ n fields,
      (add.addMessage m a n fields).1.request.type.length = m.request.type.length + 1 := by
    intro n fields
    rw [add.addMessage]
    split_ifs
    · rcases m.fill a fields with ⟨submsg, _ | e⟩ <;> simp [VMIMessage.addType]
    · simp [VMIMessage.addType]
  rw [add]
  cases htype : a.msgtype with
  | unknown => exact absurd htype h
  | constant n => simp [VMIMessage.addType]
  | event => exact hmessage _ _
  | request c => exact hmessage _ _
  | reply c => exact hmessage _ _

end Members

/-! ### A call that is left behind -/

/-- A read of physical memory, with an argument that it does not have. -/
def misnamed : AddArgs :=
  { name := "a", msgtype := .request (.readBuf .pa), argv := [(.vaddr, .u64 4096)] }

/-- The same read, as it is meant. -/
def wellNamed : AddArgs :=
  { name := "b", msgtype := .request (.readBuf .pa), argv := [(.paddr, .u64 4096)] }

/-- The members of a new batch object stay as they are when a type is unknown. -/
example : (({} : Members).add { name := "a", msgtype := .unknown }).1 = {} := rfl

end Furnace.App
