import Furnace.App.BatchObj

namespace Furnace.App

open Furnace.Proto Furnace.Lib Furnace.Vmi

/-!
# The names in a link

`batch_obj.add` turns the names in a link into indices, and `process_link` turns them back.
The two sides do not count the same things: the call is found in one map for its type and in
one list for its position, and a field is counted by its number on one side and by its place
in the declaration on the other.

* `NameLinked` — the indices stand for the call and the two fields that were named.
* `nameLinked_iff` — they do exactly when only one earlier call has the name, and the target
  is not the `link` of a message that leaves out a number.
-/

/-! ### Numbers and places of fields -/

/-- The requests that leave out the number `2`: their `link`, numbered `3`, is the second
    field declared. -/
def skipsNumber : Call → Bool
  | .readNum _ .pa | .readAddr .pa | .readStr .pa | .translateKv2p => true
  | _ => false

/-- In a request the number of a field gives its place, except for the links behind a gap. -/
theorem requestFields_number (c : Call) {fd : FieldDescriptor} (hfd : fd ∈ c.requestFields) :
    (c.requestFields[fd.number - 1]?).map FieldDescriptor.name = some fd.name ↔
      ¬(fd.name = .link ∧ skipsNumber c = true) :=
  (by decide : ∀ c ∈ Call.all, ∀ fd ∈ c.requestFields,
    ((c.requestFields[fd.number - 1]?).map FieldDescriptor.name = some fd.name ↔
      ¬(fd.name = .link ∧ skipsNumber c = true))) c c.mem_all fd hfd

/-- In a reply it always does. -/
theorem replyFields_number (c : Call) {fd : FieldDescriptor} (hfd : fd ∈ c.replyFields) :
    (c.replyFields[fd.number - 1]?).map FieldDescriptor.name = some fd.name :=
  (by decide : ∀ c ∈ Call.all, ∀ fd ∈ c.replyFields,
    (c.replyFields[fd.number - 1]?).map FieldDescriptor.name = some fd.name) c c.mem_all fd hfd

/-- A link is the only field of a request that is a message. -/
theorem requestFields_link (c : Call) {fd : FieldDescriptor} (hfd : fd ∈ c.requestFields)
    (hname : fd.name = .link) : fd.type = .message :=
  (by decide : ∀ c ∈ Call.all, ∀ fd ∈ c.requestFields, fd.name = .link → fd.type = .message)
    c c.mem_all fd hfd hname

/-- The number of a field is that of its declaration. -/
theorem fieldNumber_eq_ok {fields : Descriptor} {f : FieldName} {n : ℕ}
    (h : fieldNumber fields f = .ok n) : ∃ fd ∈ fields, fd.name = f ∧ fd.number = n := by
  unfold fieldNumber at h
  cases hfind : fields.find? (fun fd => fd.name = f) with
  | none =>
    rw [hfind] at h
    cases h
  | some fd =>
    rw [hfind] at h
    cases h
    exact ⟨fd, List.mem_of_find?_eq_some hfind, by simpa using List.find?_some hfind, rfl⟩

/-! ### Names and positions -/

/-- The first occurrence of a name is the last one exactly when there is no other. -/
theorem findIdx?_last_iff {α : Type} {hit : α → Bool} {xs : List α} {p : ℕ}
    (h : xs.findIdx? hit = some p) :
    (∀ q x, p < q → xs[q]? = some x → hit x = false) ↔ xs.countP hit = 1 := by
  obtain ⟨hp, hhit, hbefore⟩ := List.findIdx?_eq_some_iff_getElem.mp h
  -- before `p` there is no hit, so all but one of them are behind it
  have htake : (xs.take p).countP hit = 0 := by
    rw [List.countP_eq_zero]
    intro x hx
    obtain ⟨j, hj, rfl⟩ := List.mem_take_iff_getElem.mp hx
    exact hbefore j (by omega)
  have hcount : xs.countP hit = 1 + (xs.drop (p + 1)).countP hit := by
    conv_lhs => rw [← List.take_append_drop p xs, List.drop_eq_getElem_cons hp]
    rw [List.countP_append, htake, List.countP_cons, if_pos hhit]
    omega
  rw [hcount]
  constructor
  · intro hlast
    have hdrop : (xs.drop (p + 1)).countP hit = 0 := by
      rw [List.countP_eq_zero]
      intro x hx
      obtain ⟨j, hj⟩ := List.mem_iff_getElem?.mp hx
      rw [List.getElem?_drop] at hj
      simp [hlast (p + 1 + j) x (by omega) hj]
    omega
  · intro hone q x hq hx
    have hdrop : (xs.drop (p + 1)).countP hit = 0 := by omega
    have hmem : x ∈ xs.drop (p + 1) := by
      refine List.mem_iff_getElem?.mpr ⟨q - (p + 1), ?_⟩
      rw [List.getElem?_drop, show p + 1 + (q - (p + 1)) = q by omega]
      exact hx
    simpa using List.countP_eq_zero.mp hdrop x hmem

/-- The last call with a name, which is the one that `namemap` holds. -/
def lastNamed (adds : List Addition) (name : String) : Option Addition :=
  adds.reverse.find? fun a => a.name == name

/-- What `add` does to the map of names. -/
theorem BatchObj.add_namemap {bo bo' : BatchObj} {a : Addition} (h : bo.add a = .ok bo') :
    bo'.namemap = Function.update bo.namemap a.name (some a.msgtype) := by
  unfold BatchObj.add at h
  obtain ⟨-, h⟩ := ite_error_eq_ok.mp h
  obtain ⟨submsg, -, h⟩ := bind_eq_ok.mp h
  obtain ⟨link, -, h⟩ := bind_eq_ok.mp h
  cases h
  rfl

/-- The map of names holds the last call of every name. -/
theorem BatchObj.adds_namemap {adds : List Addition} {bo bo' : BatchObj}
    (h : adds.foldlM BatchObj.add bo = .ok bo') (name : String) :
    bo'.namemap name = ((lastNamed adds name).map Addition.msgtype).or (bo.namemap name) := by
  induction adds generalizing bo with
  | nil =>
    cases h
    rfl
  | cons a adds ih =>
    rw [List.foldlM_cons] at h
    obtain ⟨bo₁, hadd, hrest⟩ := bind_eq_ok.mp h
    rw [ih hrest, BatchObj.add_namemap hadd]
    unfold lastNamed
    rw [List.reverse_cons, List.find?_append]
    -- a later call of the name hides `a`
    cases adds.reverse.find? (fun b => b.name == name) with
    | some b => rfl
    | none =>
      by_cases hname : a.name = name
      · subst hname
        simp
      · simp [hname, Function.update_of_ne (Ne.symm hname)]

/-- The last call of a name that occurs once is the first one. -/
theorem lastNamed_of_findIdx? {adds : List Addition} {name : String} {p : ℕ} {b : Addition}
    (hfirst : adds.findIdx? (fun a => a.name == name) = some p)
    (hlast : lastNamed adds name = some b)
    (hone : adds.countP (fun a => a.name == name) = 1) : adds[p]? = some b := by
  have hb : b ∈ adds := List.mem_reverse.mp (List.mem_of_find?_eq_some hlast)
  have hname := List.find?_some hlast
  obtain ⟨hp, hhit, hbefore⟩ := List.findIdx?_eq_some_iff_getElem.mp hfirst
  obtain ⟨q, hq⟩ := List.mem_iff_getElem?.mp hb
  -- a call of the name can be neither behind `p` nor before it
  rcases lt_trichotomy p q with hlt | rfl | hlt
  · have := (findIdx?_last_iff hfirst).mpr hone q b hlt hq
    rw [hname] at this
    cases this
  · exact hq
  · obtain ⟨hlt', rfl⟩ := List.getElem?_eq_some_iff.mp hq
    exact absurd hname (hbefore q hlt)

/-! ### The link that is stored -/

/-- The link in the last request of a type. -/
def storedLink (bo : BatchObj) (c : Call) : Option Linkage :=
  ((bo.request.sub c.num).getLast?).bind Msg.link?

/-- The arguments of a call cannot set its link. -/
theorem setattr_link? {c : Call} {submsg submsg' : Msg} {arg : FieldName × Val}
    (h : setattr c.requestFields submsg arg = .ok submsg') : submsg'.link? = submsg.link? := by
  unfold setattr at h
  cases hfind : c.requestFields.find? (fun fd => fd.name = arg.1) with
  | none =>
    rw [hfind] at h
    cases h
  | some fd =>
    rw [hfind] at h
    have hmem := List.mem_of_find?_eq_some hfind
    have hname : fd.name = arg.1 := by simpa using List.find?_some hfind
    dsimp only at h
    by_cases htype : fd.type = .message ∨ fd.type = .repeatedMessage
    · rw [if_pos htype] at h
      cases h
    rw [if_neg htype] at h
    obtain ⟨-, h⟩ := ite_error_eq_ok.mp h
    cases h
    have hne : FieldName.link ≠ arg.1 := fun heq =>
      htype (.inl (requestFields_link c hmem (hname.trans heq.symm)))
    simp [Msg.link?, Msg.set_val_of_ne _ _ hne]

theorem foldlM_setattr_link? {c : Call} {argv : List (FieldName × Val)} {submsg submsg' : Msg}
    (h : argv.foldlM (setattr c.requestFields) submsg = .ok submsg') :
    submsg'.link? = submsg.link? := by
  induction argv generalizing submsg with
  | nil =>
    cases h
    rfl
  | cons arg argv ih =>
    rw [List.foldlM_cons] at h
    obtain ⟨submsg₁, hset, hrest⟩ := bind_eq_ok.mp h
    rw [ih hrest, setattr_link? hset]

/-- The link that a call is stored with is the one that its names gave. -/
theorem linkage_of_storedLink {bo bo' : BatchObj} {a : Addition} {link : Linkage}
    (hadd : bo.add a = .ok bo') (hlink : storedLink bo' a.msgtype = some link) :
    bo.linkage a = .ok (some link) := by
  unfold BatchObj.add at hadd
  obtain ⟨hrep, hadd⟩ := ite_error_eq_ok.mp hadd
  obtain ⟨submsg, hargs, hadd⟩ := bind_eq_ok.mp hadd
  obtain ⟨link?, hlinkage, hadd⟩ := bind_eq_ok.mp hadd
  cases hadd
  rw [hlinkage]
  have hargs' : submsg.link? = none := foldlM_setattr_link? hargs
  unfold storedLink at hlink
  rw [VMIMessage.addCall, VMIMessage.addType, VMIMessage.put_sub_self, VMIMessage.putList,
    if_pos hrep, List.getLast?_concat, Option.bind_some] at hlink
  cases link? with
  | none =>
    rw [hargs'] at hlink
    cases hlink
  | some l =>
    have hl : some l = some link := by simpa [Msg.link?] using hlink
    rw [hl]

/-- What it takes for the names to give a link. -/
theorem linkage_cases {bo : BatchObj} {a : Addition} {link : Linkage}
    (h : bo.linkage a = .ok (some link)) :
    ∃ linkname linkfield linktgt tgtmsg fields fdRet fdCur,
      a.linkname = some linkname ∧ a.linkfield = some linkfield ∧ a.linktgt = some linktgt ∧
      bo.namemap linkname = some tgtmsg ∧
      bo.namestack.findIdx? (· == linkname) = some link.prevMsgIx ∧
      messageFields (tgtmsg.num + 1) = .ok fields ∧
      (fdRet ∈ fields ∧ fdRet.name = linkfield ∧ link.prevItemIx = fdRet.number - 1) ∧
      (fdCur ∈ a.msgtype.requestFields ∧ fdCur.name = linktgt ∧
        link.curItemIx = fdCur.number - 1) := by
  unfold BatchObj.linkage at h
  split at h
  case h_2 => cases h
  case h_1 linkname linkfield linktgt linkopr hname hfield htgt hopr =>
    by_cases hfalse : linkname = "" ∨ linkopr = 0
    · rw [if_pos hfalse] at h
      cases h
    rw [if_neg hfalse] at h
    cases hmap : bo.namemap linkname with
    | none =>
      rw [hmap] at h
      cases h
    | some tgtmsg =>
      cases hix : bo.namestack.findIdx? (· == linkname) with
      | none =>
        rw [hmap, hix] at h
        cases h
      | some tgtmsgix =>
        rw [hmap, hix] at h
        obtain ⟨fields, hfields, h⟩ := bind_eq_ok.mp h
        obtain ⟨tgtfieldix, hret, h⟩ := bind_eq_ok.mp h
        obtain ⟨myfieldix, hcur, h⟩ := bind_eq_ok.mp h
        obtain ⟨-, h⟩ := ite_error_eq_ok.mp h
        obtain ⟨operator, -, h⟩ := bind_eq_ok.mp h
        cases h
        obtain ⟨fdRet, hmemRet, hnameRet, rfl⟩ := fieldNumber_eq_ok hret
        obtain ⟨fdCur, hmemCur, hnameCur, rfl⟩ := fieldNumber_eq_ok hcur
        exact ⟨linkname, linkfield, linktgt, tgtmsg, fields, fdRet, fdCur, hname, hfield, htgt,
          hmap, hix, hfields, ⟨hmemRet, hnameRet, rfl⟩, hmemCur, hnameCur, rfl⟩

/-! ### Both sides of a link -/

/-- The indices of a link stand for what the call `a`, added behind `adds`, named: the last
    earlier call with the name `linkname`, the field `linkfield` of its reply and the field
    `linktgt` of the request. -/
structure NameLinked (adds : List Addition) (a : Addition) (link : Linkage) : Prop where
  call : ∃ b, adds[link.prevMsgIx]? = some b ∧ some b.name = a.linkname ∧
    (∀ q c, link.prevMsgIx < q → adds[q]? = some c → some c.name ≠ a.linkname) ∧
    ((replyDescriptor b.msgtype.replyNum)[link.prevItemIx]?).map FieldDescriptor.name =
      a.linkfield
  target : (a.msgtype.requestFields[link.curItemIx]?).map FieldDescriptor.name = a.linktgt

/-- **When a link means what it names.** For every call that is added with a link behind any
    calls: the indices that are stored stand for the call and the fields that were named
    exactly when one earlier call has the name, and the target is not a `link` behind a gap
    in the numbers. -/
theorem nameLinked_iff {adds : List Addition} {bo bo' : BatchObj} {a : Addition} {link : Linkage}
    (hadds : adds.foldlM BatchObj.add BatchObj.new = .ok bo) (hadd : bo.add a = .ok bo')
    (hlink : storedLink bo' a.msgtype = some link) :
    NameLinked adds a link ↔
      adds.countP (fun b => some b.name = a.linkname) = 1 ∧
        ¬(a.linktgt = some .link ∧ skipsNumber a.msgtype = true) := by
  obtain ⟨linkname, linkfield, linktgt, tgtmsg, fields, fdRet, fdCur, hname, hfield, htgt, hmap,
    hix, hfields, ⟨hmemRet, hnameRet, hixRet⟩, hmemCur, hnameCur, hixCur⟩ :=
    linkage_cases (linkage_of_storedLink hadd hlink)
  obtain ⟨hbatch, -, hnames⟩ := BatchObj.adds_spec hadds
  have hnames : bo.namestack = adds.map Addition.name := hnames
  -- the position is that of the first call of the name
  have hfirst : adds.findIdx? (fun b => b.name == linkname) = some link.prevMsgIx := by
    rw [hnames, List.findIdx?_map] at hix
    exact hix
  have hcount : adds.countP (fun b => some b.name = a.linkname) =
      adds.countP (fun b => b.name == linkname) := by
    apply List.countP_congr
    intro b _
    simp [hname]
  -- the place of the target is right unless there is a gap before it
  have htarget : (a.msgtype.requestFields[link.curItemIx]?).map FieldDescriptor.name = a.linktgt ↔
      ¬(a.linktgt = some .link ∧ skipsNumber a.msgtype = true) := by
    rw [hixCur, htgt, ← hnameCur, requestFields_number _ hmemCur]
    simp
  rw [hcount, ← htarget]
  constructor
  · rintro ⟨⟨b, -, -, hlast, -⟩, htarget⟩
    refine ⟨(findIdx?_last_iff hfirst).mp fun q c hq hc => ?_, htarget⟩
    have := hlast q c hq hc
    simpa [hname] using this
  · rintro ⟨hone, htarget⟩
    -- the type was taken from the last call of the name, which is the first one
    have hlastNamed : (lastNamed adds linkname).map Addition.msgtype = some tgtmsg := by
      have := BatchObj.adds_namemap hadds linkname
      rw [hmap] at this
      simpa [BatchObj.new] using this.symm
    obtain ⟨b, hb, rfl⟩ := Option.map_eq_some_iff.mp hlastNamed
    have hat := lastNamed_of_findIdx? hfirst hb hone
    have hbname : b.name = linkname := by simpa using List.find?_some hb
    -- so the fields that were looked up are those of its reply
    have hret : fields = b.msgtype.replyFields := by
      rw [← Call.replyNum_of_isBatchable (hbatch b (List.mem_of_getElem? hat)),
        messageFields_replyNum] at hfields
      exact (Except.ok.inj hfields).symm
    refine ⟨⟨b, hat, by rw [hname, hbname], fun q c hq hc => ?_, ?_⟩, htarget⟩
    · have := (findIdx?_last_iff hfirst).mpr hone q c hq hc
      simpa [hname] using this
    · subst hret
      rw [replyDescriptor_replyNum, hixRet, hfield, ← hnameRet]
      exact replyFields_number _ hmemRet

/-- A string read and a number read under one name. -/
def sameName : List Addition :=
  [{ name := "task", msgtype := .readStr .va, argv := [(.vaddr, .u64 0x10), (.pid, .i32 0)] },
    { name := "task", msgtype := .readAddr .va, argv := [(.vaddr, .u64 0x20), (.pid, .i32 0)] }]

/-- An address read linked to the result of that name. -/
def linkedToName : Addition :=
  { name := "next", msgtype := .readAddr .va, argv := [(.vaddr, .u64 0), (.pid, .i32 0)],
    linkname := some "task", linkfield := some .result, linktgt := some .vaddr,
    linkopr := some 1 }

/-- An address read whose own link is the target. -/
def linkedToLink : Addition :=
  { name := "next", msgtype := .readAddr .pa, argv := [(.paddr, .u64 0)],
    linkname := some "head", linkfield := some .result, linktgt := some .link,
    linkopr := some 1 }

/-- Of two calls with one name, the link gets the position of the first and the type of the
    second; and the place of a link behind a gap is past the end of its message. -/
theorem nameLinked_sameName :
    (∃ bo bo' link, sameName.foldlM BatchObj.add BatchObj.new = .ok bo ∧
      bo.add linkedToName = .ok bo' ∧ storedLink bo' linkedToName.msgtype = some link ∧
      link.prevMsgIx = 0 ∧ bo.namemap "task" = some (.readAddr .va) ∧
      ¬ NameLinked sameName linkedToName link) ∧
    ∃ bo bo' link, [followPointer[0]].foldlM BatchObj.add BatchObj.new = .ok bo ∧
      bo.add linkedToLink = .ok bo' ∧ storedLink bo' linkedToLink.msgtype = some link ∧
      linkedToLink.msgtype.requestFields[link.curItemIx]? = none ∧
      ¬ NameLinked [followPointer[0]] linkedToLink link := by
  refine ⟨⟨_, _, _, rfl, rfl, rfl, rfl, rfl, ?_⟩, ⟨_, _, _, rfl, rfl, rfl, rfl, ?_⟩⟩
  · rintro ⟨⟨b, -, -, hlast, -⟩, -⟩
    exact hlast 1 _ (by decide) rfl rfl
  · rintro ⟨-, htarget⟩
    cases htarget

/-- The condition at the first of these batches. -/
theorem nameLinked_iff_sameName : NameLinked sameName linkedToName {} ↔
    sameName.countP (fun b => some b.name = linkedToName.linkname) = 1 ∧
      ¬(linkedToName.linktgt = some .link ∧ skipsNumber linkedToName.msgtype = true) :=
  nameLinked_iff (rfl : sameName.foldlM BatchObj.add BatchObj.new = .ok _) rfl rfl

end Furnace.App
