import Furnace.Vmi.Dispatch

namespace Furnace.Vmi

open Furnace.Proto Furnace.Lib

/-!
# Requests that a message does not hold

The index of a request counts the earlier type entries of its type; the request itself is
looked up in the list of sub-messages of that type.  Nothing relates the two: a type list
that names a call more often than the message holds its requests makes the handler read
past the end of the list.

* `Missing` — a type entry has no request.
* `Accesses` — a handler reads its request.
* `StaysInside` — a type entry does not read past the end, and is answered with an error
  when its request is missing.
* `staysInside_iff` — which entries do so: those that have a request, and those whose
  handler gives up before it looks at the request.
-/

variable {G : Type}

/-- The type entry that counts `index` earlier ones has no request.  The accessor of a field
    that is not repeated takes no index: it answers the default instance. -/
def Missing (msgIn : VMIMessage) (c : Call) (index : ℕ) : Prop :=
  isRepeated c.num = true ∧ (msgIn.sub c.num).length ≤ index

instance (msgIn : VMIMessage) (c : Call) (index : ℕ) : Decidable (Missing msgIn c index) :=
  inferInstanceAs (Decidable (_ ∧ _))

/-- A missing request is an access outside the list, and the only one that is. -/
theorem request_eq_error_iff {msgIn : VMIMessage} {c : Call} {index : ℕ} :
    msgIn.request c index = .error .outOfRange ↔ Missing msgIn c index := by
  unfold VMIMessage.request Missing
  by_cases hrep : isRepeated c.num = true
  · rw [if_pos hrep, ← List.getElem?_eq_none_iff]
    cases (msgIn.sub c.num)[index]? with
    | none => simp [hrep]
    | some m => simp
  · rw [if_neg hrep]
    simp [hrep]

/-- A handler reads its request: whatever is wrong with the access is wrong with the
    handler. -/
def Accesses (h : Handler G) (env : Env G) (w : World G) : Prop :=
  ∀ e, h.core env (.error e) w = .error e

/-- A body that starts with its request accesses it. -/
theorem accesses_reading (linked : Bool)
    (body : Env G → Msg → World G → Except Fault (World G × Reply)) (env : Env G) (w : World G) :
    Accesses ⟨linked, reading body⟩ env w := by
  intro e
  unfold Handler.core
  cases linked <;> rfl

/-- A missing request leaves a handler with what it does before it looks at it; there is no
    link to resolve. -/
theorem Handler.run_missing (h : Handler G) {c : Call} (env : Env G) {index : ℕ}
    {msgIn : VMIMessage} (hm : Missing msgIn c index) (msgOut : VMIMessage) (l : LinkState)
    (w : World G) :
    h.run c env index msgIn msgOut l w =
      (h.core env (.error .outOfRange) w).map fun r => (l, r.1, r.2) := by
  have herr := request_eq_error_iff.mpr hm
  rw [Handler.run_unlinked, herr]
  intro m hok
  rw [herr] at hok
  cases hok

/-! ### Handlers that give up early -/

/-- One of the two allocations of `event_register` fails. -/
def MallocFails (env : Env G) (g : G) : Prop :=
  (env.exec (.malloc .trap) g).1 = false ∨
  (env.exec (.malloc .eventItem) (env.exec (.malloc .trap) g).2).1 = false

instance (env : Env G) (g : G) : Decidable (MallocFails env g) :=
  inferInstanceAs (Decidable (_ ∨ _))

/-- The handlers of requests in lists that answer with an error before they look at the
    request: the one that is not implemented, and `event_register` when the map is full or
    memory has run out. -/
def RefusesUnread (env : Env G) (c : Call) (w : World G) : Prop :=
  c = .getVcpureg ∨
  c = .eventRegister ∧ (maxEvents ≤ w.events.entries.length ∨ MallocFails env w.guest)

/-- The check of `event_register` for its two allocations. -/
theorem mallocFails_iff (env : Env G) (w : World G) :
    (!((w.exec env (.malloc .trap)).1 &&
      ((w.exec env (.malloc .trap)).2.exec env (.malloc .eventItem)).1)) = true ↔
      MallocFails env w.guest := by
  rw [Bool.not_eq_true', Bool.and_eq_false_iff]
  rfl

/-- What `event_register` does with a missing request. -/
theorem eventRegister_missing (env : Env G) (w : World G) :
    if maxEvents ≤ w.events.entries.length ∨ MallocFails env w.guest then
      ∃ w' n, eventRegisterBody env (.error .outOfRange) w = .ok (w', .fail n)
    else ∀ e, eventRegisterBody env (.error e) w = .error e := by
  unfold eventRegisterBody
  by_cases hfull : maxEvents ≤ w.events.entries.length
  · rw [if_pos (.inl hfull), if_pos hfull]
    exact ⟨w, 1, rfl⟩
  rw [if_neg hfull]
  by_cases hmalloc : MallocFails env w.guest
  · rw [if_pos (.inr hmalloc)]
    dsimp only
    rw [if_pos ((mallocFails_iff env w).mpr hmalloc)]
    exact ⟨_, 2, rfl⟩
  · rw [if_neg (by simp [hfull, hmalloc])]
    intro e
    rw [if_neg hfull]
    dsimp only
    rw [if_neg fun h => hmalloc ((mallocFails_iff env w).mp h)]
    rfl

/-- The calls with requests in lists: all read theirs, apart from `event_register`, which
    may fail before, and from four that never do. -/
theorem accesses_of_isRepeated {c : Call} (hrep : isRepeated c.num = true)
    (hc : c ∉ [Call.getVcpureg, .pauseVm, .resumeVm, .processList, .eventRegister])
    (env : Env G) (w : World G) : Accesses (handlerOf c) env w := by
  cases c
  case readNum wd s => cases wd <;> cases s <;> exact accesses_reading _ _ env w
  case writeNum wd s => cases wd <;> cases s <;> exact accesses_reading _ _ env w
  case readAddr s => cases s <;> exact accesses_reading _ _ env w
  case readBuf s => cases s <;> exact accesses_reading _ _ env w
  case readStr s => cases s <;> exact accesses_reading _ _ env w
  case writeBuf s => cases s <;> exact accesses_reading _ _ env w
  case translateKv2p | translateUv2p | translateKsym2v | getOffset | lookupSymbol |
      lookupStructure | eventClear => exact accesses_reading _ _ env w
  all_goals first | exact absurd hrep (by decide) | exact absurd hc (by simp)

/-! ### One type entry -/

/-- The type entry `t` that counts `index` earlier ones does not read past the end of the
    requests of its type, and is answered with an error when its own is missing. -/
def StaysInside (env : Env G) (msgIn : VMIMessage) (t index : ℕ) (l : LinkState) (w : World G)
    (out : VMIMessage) : Prop :=
  ∀ c, Call.ofNum? t = some c →
    (Accesses (handlerOf c) env w → ¬ Missing msgIn c index) ∧
    (Missing msgIn c index → ∃ l' w' out',
      processSingle env t index msgIn out l w = .ok (l', w', out') ∧ out'.error = some true)

/-- The handlers that never look at their requests, and never answer with an error. -/
theorem unread_errorNum {c : Call} (hc : c ∈ [Call.pauseVm, .resumeVm, .processList])
    {env : Env G} {access : Except Fault Msg} {w w' : World G} {r : Reply}
    (h : (handlerOf c).core env access w = .ok (w', r)) : r.errorNum = none := by
  simp only [List.mem_cons, List.not_mem_nil, or_false] at hc
  rcases hc with rfl | rfl | rfl
  · cases h
    rfl
  · cases h
    rfl
  · -- however the list is read, it ends in a reply with a status
    obtain ⟨⟨procs, st, w₁⟩, -, h⟩ := bind_eq_ok.mp h
    cases h
    rfl

/-- The handler of a missing request answers with an error exactly when it gives up before
    it looks at the request. -/
theorem run_missing_iff {env : Env G} {msgIn : VMIMessage} {c : Call} {index : ℕ}
    (hm : Missing msgIn c index) (l : LinkState) (w : World G) (out : VMIMessage) :
    (∃ l' w' r, (handlerOf c).run c env index msgIn out l w = .ok (l', w', r) ∧
      r.errorNum.isSome = true) ↔ RefusesUnread env c w := by
  rw [Handler.run_missing _ env hm]
  by_cases hreg : c = .eventRegister
  · -- `event_register` looks at its request after its checks
    subst hreg
    have hbody := eventRegister_missing env w
    have hcore : (handlerOf .eventRegister).core env (.error .outOfRange) w =
        eventRegisterBody env (.error .outOfRange) w := rfl
    rw [hcore]
    by_cases hfail : maxEvents ≤ w.events.entries.length ∨ MallocFails env w.guest
    · rw [if_pos hfail] at hbody
      obtain ⟨w', n, hbody⟩ := hbody
      rw [hbody]
      exact ⟨fun _ => .inr ⟨rfl, hfail⟩, fun _ => ⟨l, w', .fail n, rfl, rfl⟩⟩
    · rw [if_neg hfail] at hbody
      rw [hbody]
      constructor
      · rintro ⟨l', w', r, h, -⟩
        cases h
      · rintro (h | ⟨-, h⟩)
        · cases h
        · exact absurd h hfail
  by_cases hunread : c ∈ [Call.pauseVm, .resumeVm, .processList]
  · constructor
    · rintro ⟨l', w', r, h, herr⟩
      obtain ⟨⟨w₁, r₁⟩, hcore, heq⟩ := map_eq_ok.mp h
      cases heq
      rw [unread_errorNum hunread hcore] at herr
      cases herr
    · rintro (rfl | ⟨rfl, -⟩) <;> exact absurd hunread (by decide)
  by_cases hget : c = .getVcpureg
  · subst hget
    exact ⟨fun _ => .inl rfl, fun _ => ⟨l, w, .fail 1, rfl, rfl⟩⟩
  -- all others start with their request
  rw [accesses_of_isRepeated hm.1 (by simp_all) env w]
  constructor
  · rintro ⟨l', w', r, h, -⟩
    cases h
  · rintro (rfl | ⟨rfl, -⟩)
    · exact absurd rfl hget
    · exact absurd rfl hreg

/-- A handler that is answered although its request is missing has not accessed it. -/
theorem not_accesses_of_ok {h : Handler G} {env : Env G} {msgIn : VMIMessage} {c : Call}
    {index : ℕ} (hm : Missing msgIn c index) {l : LinkState} {w : World G} {out : VMIMessage}
    {r : LinkState × World G × Reply} (hr : h.run c env index msgIn out l w = .ok r) :
    ¬ Accesses h env w := by
  intro hacc
  rw [Handler.run_missing h env hm, hacc] at hr
  cases hr

/-! ### The entries of a message -/

/-- `process_protobuf` hands the type entry `t` at position `i` to `process_single`, with
    this link state, world and partial reply. -/
structure Dispatches (env : Env G) (msgIn : VMIMessage) (w₀ : World G) (i t : ℕ) (l : LinkState)
    (w : World G) (out : VMIMessage) : Prop where
  length_le : msgIn.type.length ≤ maxTypes
  reaches : Reaches env msgIn w₀ i l w out
  error_eq : out.error = none
  type_eq : msgIn.type[i]? = some t

/-- **Which entries stay inside the message.** An entry of a known call type does not read
    past the end, and is answered with an error when its request is missing, exactly when
    its request is there or the handler gives up before it looks at it. -/
theorem staysInside_iff {env : Env G} {msgIn : VMIMessage} {w₀ w : World G} {i t : ℕ}
    {l : LinkState} {out : VMIMessage} (h : Dispatches env msgIn w₀ i t l w out) :
    StaysInside env msgIn t (countBefore t msgIn.type i) l w out ↔
      ∀ c, Call.ofNum? t = some c →
        ¬ Missing msgIn c (countBefore t msgIn.type i) ∨ RefusesUnread env c w := by
  unfold StaysInside
  refine forall₂_congr fun c hc => ?_
  have hnum := Call.num_of_ofNum? hc
  subst hnum
  by_cases hm : Missing msgIn c (countBefore c.num msgIn.type i)
  · rw [← run_missing_iff hm l w out]
    constructor
    · rintro ⟨-, hanswer⟩
      right
      obtain ⟨l', w', out', hs, herr⟩ := hanswer hm
      obtain ⟨r, hr, rfl⟩ := processSingle_call hs
      refine ⟨l', w', r, hr, ?_⟩
      rw [record_error, h.error_eq] at herr
      by_contra hnone
      rw [if_neg hnone] at herr
      cases herr
    · rintro (hn | ⟨l', w', r, hr, herr⟩)
      · exact absurd hm hn
      refine ⟨fun hacc => absurd hacc (not_accesses_of_ok hm hr), fun _ =>
        ⟨l', w', record out c.replyNum r (countBefore c.num msgIn.type i), ?_, ?_⟩⟩
      · unfold processSingle
        rw [hc]
        show _ >>= _ = _
        rw [hr]
        rfl
      · rw [record_error, if_pos herr]
  · exact ⟨fun _ => .inl hm, fun _ => ⟨fun _ => hm, fun h => absurd h hm⟩⟩

/-- A message with one type entry for `READ_8_VA`, and its request when `m` is one. -/
def readEntry (m : Option Msg) : VMIMessage :=
  match m with
  | some m => VMIMessage.empty.addCall (.readNum .w8 .va) m
  | none => VMIMessage.empty.addType (Call.readNum .w8 .va).num

/-- `process_protobuf` hands on the entry of that message. -/
theorem dispatches_readEntry (m : Option Msg) :
    Dispatches echoEnv (readEntry m) (.initial ()) 0 58 {} (.initial ()) VMIMessage.empty := by
  cases m with
  | none => exact ⟨by decide, .start, rfl, rfl⟩
  | some m =>
    refine ⟨?_, .start, rfl, rfl⟩
    simp [readEntry, VMIMessage.addCall, VMIMessage.addType, maxTypes]

/-- With its request, the entry stays inside the message. -/
theorem staysInside_readEntry :
    StaysInside echoEnv (readEntry (some Msg.empty)) 58 0 {} (.initial ()) VMIMessage.empty := by
  refine (staysInside_iff (dispatches_readEntry (some Msg.empty))).mpr fun c hc => .inl ?_
  cases hc
  decide

/-- **An entry without a request is read all the same.** The one `READ_8_VA` of a message
    without sub-messages makes the handler access entry `0` of an empty list. -/
theorem readEntry_outside :
    Dispatches echoEnv (readEntry none) (.initial ()) 0 58 {} (.initial ()) VMIMessage.empty ∧
    ((readEntry none).sub 58).length = 0 ∧
    processProtobuf echoEnv (readEntry none) (.initial ()) = .error .outOfRange ∧
    ¬ StaysInside echoEnv (readEntry none) 58 0 {} (.initial ()) VMIMessage.empty := by
  refine ⟨dispatches_readEntry none, rfl, rfl, fun h => ?_⟩
  obtain ⟨hacc, -⟩ := h (.readNum .w8 .va) rfl
  exact hacc (accesses_reading true _ _ _) (by decide)

end Furnace.Vmi
