import Furnace.Fac.Loop
import Furnace.Fac.StoreMap

namespace Furnace.Fac

open Furnace.Lib Furnace.Lib.PyText

/-!
# Replies to a synchronous message

The handlers of `GET` and `SET` append their replies to `fmsg_out`; the one of `BE_MSG`
clears it before it puts its own there.  What is answered is what comes after the last
`BE_MSG`, and that one.

* `ofRequests` — the well-formed message that makes some requests.
* `AnswersAll` — a reply with one entry for each request, in order.
* `answersAll_iff` — the messages that get one.
-/

/-! ### Well-formed messages -/

namespace Request

/-- The type entry of a request. -/
def type : Request → FacType
  | .get _ => .get
  | .set _ => .set
  | .beMsg _ => .beMsg
  | .getRet _ => .getRet
  | .setRet _ => .setRet
  | .beMsgRet _ => .beMsgRet

def get? : Request → Option GetMsg
  | .get m => some m
  | _ => none

def set? : Request → Option SetMsg
  | .set m => some m
  | _ => none

def beMsg? : Request → Option BeMsg
  | .beMsg m => some m
  | _ => none

def getRet? : Request → Option GetRet
  | .getRet m => some m
  | _ => none

def setRet? : Request → Option SetRet
  | .setRet m => some m
  | _ => none

def beMsgRet? : Request → Option BeMsgRet
  | .beMsgRet m => some m
  | _ => none

/-- The requests that an app makes: `GET`, `SET` and `BE_MSG`. -/
def IsCall : Request → Prop
  | .get _ | .set _ | .beMsg _ => True
  | _ => False

/-- The type of the reply to a call. -/
def retType : Request → FacType
  | .get _ => .getRet
  | .set _ => .setRet
  | _ => .beMsgRet

end Request

/-- A message with the sub-messages of some requests, under the types `ts`. -/
def withTypes (ts : List FacType) (rs : List Request) : FacMessage where
  type := ts
  get := rs.filterMap Request.get?
  set := rs.filterMap Request.set?
  beMsg := rs.filterMap Request.beMsg?
  getRet := rs.filterMap Request.getRet?
  setRet := rs.filterMap Request.setRet?
  beMsgRet := rs.filterMap Request.beMsgRet?

/-- The well-formed message that makes some requests. -/
def ofRequests (rs : List Request) : FacMessage := withTypes (rs.map Request.type) rs

/-- The first entry of a well-formed message stands for its first request. -/
theorem pop_withTypes (ts : List FacType) (r : Request) (rs : List Request) :
    (withTypes ts (r :: rs)).pop r.type = .ok (r, withTypes ts rs) := by
  cases r <;> rfl

/-- The entries of a well-formed message stand for its requests. -/
theorem requests_withTypes (ts : List FacType) (rs : List Request) :
    (withTypes ts rs).requests (rs.map Request.type) = (rs, false) := by
  induction rs with
  | nil => rfl
  | cons r rs ih =>
    rw [List.map_cons, FacMessage.requests, pop_withTypes]
    show (r :: _, _) = _
    rw [ih]

/-! ### What a reply holds -/

/-- The answers of the backend to messages that are forwarded after `sent`. -/
def backendReplies (env : Env) : List FacMessage → List BeMsg → List BeMsgRet
  | _, [] => []
  | sent, m :: ms =>
    (env.backend (sent ++ [.ofBeMsg m])).beMsgRet.take 1 ++
      backendReplies env (sent ++ [.ofBeMsg m]) ms

/-- **Every request is answered**: the types are the reply types of the requests, in order,
    the replies to `GET` and `SET` carry their keys, and those to `BE_MSG` are the
    backend's; `sent` is what was forwarded before. -/
structure AnswersAll (env : Env) (sent : List FacMessage) (rs : List Request)
    (out : FacMessage) : Prop where
  type_eq : out.type = rs.map Request.retType
  getRet_eq : out.getRet.map (·.key) =
    (rs.filterMap Request.get?).map fun m => PyStr.str m.key.toStr
  setRet_eq : out.setRet.map (·.key) =
    (rs.filterMap Request.set?).map fun m => PyStr.str m.key.toStr
  beMsgRet_eq : out.beMsgRet = backendReplies env sent (rs.filterMap Request.beMsg?)

/-- What a reply buffer gains from requests that are served here. -/
structure Appends (rs : List Request) (out out' : FacMessage) : Prop where
  type_eq : out'.type = out.type ++ rs.map Request.retType
  getRet_eq : out'.getRet.map (·.key) = out.getRet.map (·.key) ++
    (rs.filterMap Request.get?).map fun m => PyStr.str m.key.toStr
  setRet_eq : out'.setRet.map (·.key) = out.setRet.map (·.key) ++
    (rs.filterMap Request.set?).map fun m => PyStr.str m.key.toStr
  beMsgRet_eq : out'.beMsgRet = out.beMsgRet

theorem Appends.nil (out : FacMessage) : Appends [] out out := by
  constructor <;> simp

theorem Appends.cons {r : Request} {rs : List Request} {out out₁ out' : FacMessage}
    (h : Appends [r] out out₁) (h' : Appends rs out₁ out') : Appends (r :: rs) out out' := by
  refine ⟨?_, ?_, ?_, ?_⟩
  · rw [h'.type_eq, h.type_eq, List.append_assoc]
    rfl
  · rw [h'.getRet_eq, h.getRet_eq, List.append_assoc, ← List.map_append, ← List.filterMap_append]
    rfl
  · rw [h'.setRet_eq, h.setRet_eq, List.append_assoc, ← List.map_append, ← List.filterMap_append]
    rfl
  · rw [h'.beMsgRet_eq, h.beMsgRet_eq]

theorem appends_answerGet (m : GetMsg) (value : Str) (result : ℕ) (f : Facilities) :
    Appends [.get m] f.fmsgOut (answerGet m.key.toStr value result f).fmsgOut := by
  constructor <;>
    simp [answerGet, FacMessage.addGetRet, Request.retType, Request.get?, Request.set?]

theorem appends_answerSet (m : SetMsg) (result : ℕ) (f : Facilities) :
    Appends [.set m] f.fmsgOut (answerSet m.key.toStr result f).fmsgOut := by
  constructor <;>
    simp [answerSet, FacMessage.addSetRet, Request.retType, Request.get?, Request.set?]

/-- Writing a file leaves the reply buffer alone. -/
theorem fmsgOut_writeFile (env : Env) (id : ℕ) (b : Bytes) (f : Facilities) :
    (f.writeFile env id b).2.fmsgOut = f.fmsgOut := by
  unfold Facilities.writeFile
  split <;> rfl

/-- Removing a file leaves the reply buffer alone. -/
theorem fmsgOut_remove (env : Env) (id : ℕ) (f : Facilities) :
    (f.remove env id).2.fmsgOut = f.fmsgOut := by
  unfold Facilities.remove
  split <;> rfl

/-- The `try` block leaves the reply buffer alone, wherever it stops. -/
theorem fmsgOut_tryStore (env : Env) (key value : Str) (f : Facilities) :
    (tryStore env key value f).2.fmsgOut = f.fmsgOut := by
  unfold tryStore
  cases f.storage.lookup key with
  | none => exact fmsgOut_writeFile env _ _ _
  | some existing =>
    dsimp only
    have hsize : (f.getsize env existing).2.fmsgOut = f.fmsgOut := rfl
    generalize f.getsize env existing = r at hsize
    obtain ⟨size, f₁⟩ := r
    cases size with
    | none => exact hsize
    | some s =>
      dsimp only at hsize ⊢
      have hremove := fmsgOut_remove env existing { f₁ with diskUsage := f₁.diskUsage - s }
      generalize Facilities.remove env existing _ = r at hremove
      obtain ⟨removed, f₂⟩ := r
      have hf₂ : f₂.fmsgOut = f.fmsgOut := hremove.trans hsize
      cases removed with
      | false => exact hf₂
      | true => exact (fmsgOut_writeFile env _ _ _).trans hf₂

/-- **A `GET` or a `SET` appends its reply.** -/
theorem handle_appends {env : Env} {sync : Bool} {r : Request} (hr : r.IsCall)
    (hbe : r.beMsg? = none) {f f' : Facilities} (h : handle env sync f r = .ok f') :
    Appends [r] f.fmsgOut f'.fmsgOut := by
  cases r with
  | get m =>
    cases hname : nameOk env m.key.toStr with
    | false =>
      have heq := (processGet_refused hname f).symm.trans h
      rw [← Except.ok.inj heq]
      exact appends_answerGet m _ _ f
    | true =>
      obtain ⟨value, -, rfl⟩ := (processGet_eq_ok hname).mp h
      exact appends_answerGet m value _ { f with fileOps := f.fileOps + 1 }
  | set m =>
    have hname := processSet_ok_iff.mp ⟨f', h⟩
    have heq := (processSet_accepted hname f).symm.trans h
    rw [← Except.ok.inj heq]
    split
    · exact appends_answerSet m _ f
    · have happ := appends_answerSet m
        (if (tryStore env m.key.toStr m.value.toStr f).1 then vmiSuccess else vmiFailure)
        (tryStore env m.key.toStr m.value.toStr f).2
      rw [fmsgOut_tryStore] at happ
      exact happ
  | beMsg m => cases hbe
  | getRet m | setRet m | beMsgRet m => exact hr.elim

/-- A run of `GET`s and `SET`s appends its replies. -/
theorem foldlM_appends {env : Env} {sync : Bool} {rs : List Request} (hr : ∀ r ∈ rs, r.IsCall)
    (hbe : ∀ r ∈ rs, r.beMsg? = none) {f f' : Facilities}
    (h : rs.foldlM (handle env sync) f = .ok f') : Appends rs f.fmsgOut f'.fmsgOut := by
  induction rs generalizing f with
  | nil =>
    cases h
    exact Appends.nil _
  | cons r rs ih =>
    rw [List.foldlM_cons] at h
    obtain ⟨f₁, hhead, htail⟩ := bind_eq_ok.mp h
    have happ := handle_appends (hr r (List.mem_cons_self ..)) (hbe r (List.mem_cons_self ..)) hhead
    have hrest := ih (fun x hx => hr x (List.mem_cons_of_mem _ hx))
      (fun x hx => hbe x (List.mem_cons_of_mem _ hx)) htail
    exact happ.cons hrest

/-- **A `BE_MSG` clears the buffer** before its reply goes there: the backend's answer to what
    was forwarded so far. -/
theorem handle_beMsg {env : Env} {m : BeMsg} {f f' : Facilities}
    (h : handle env true f (.beMsg m) = .ok f') :
    f'.fmsgOut.type = [.beMsgRet] ∧ f'.fmsgOut.getRet = [] ∧ f'.fmsgOut.setRet = [] ∧
      f'.fmsgOut.beMsgRet = backendReplies env f.forwarded [m] := by
  obtain ⟨value, hvalue, h⟩ := bind_eq_ok.mp h
  obtain ⟨⟨r, rs⟩, hpop, h⟩ := bind_eq_ok.mp h
  obtain ⟨v, hv, h⟩ := bind_eq_ok.mp h
  have hm : m.value = .str value := PyStr.assign_eq_ok.mp hvalue
  have hr := popFrom_eq_ok.mp hpop
  have hrv : r.value = .str v := PyStr.assign_eq_ok.mp hv
  rw [← hm] at hr
  rw [← Except.ok.inj h]
  refine ⟨rfl, rfl, rfl, ?_⟩
  show [(⟨r.status, .str v⟩ : BeMsgRet)] = _
  rw [backendReplies, hr, ← hrv]
  rfl

/-! ### Replies that are lost -/

/-- The length of the type list after one call. -/
theorem handle_length {env : Env} {r : Request} (hr : r.IsCall) {f f' : Facilities}
    (h : handle env true f r = .ok f') :
    f'.fmsgOut.type.length = if r.beMsg? = none then f.fmsgOut.type.length + 1 else 1 := by
  by_cases hbe : r.beMsg? = none
  · have happ := (handle_appends hr hbe h).type_eq
    rw [if_pos hbe, happ, List.length_append]
    rfl
  · rw [if_neg hbe]
    cases r with
    | beMsg m =>
      obtain ⟨htype, -⟩ := handle_beMsg h
      rw [htype]
      rfl
    | get m | set m | getRet m | setRet m | beMsgRet m => exact absurd rfl hbe

/-- A run of calls adds at most one entry for each of them, and fewer when one of them is a
    `BE_MSG` that finds something in the buffer. -/
theorem foldlM_length {env : Env} {rs : List Request} (hr : ∀ r ∈ rs, r.IsCall) {f f' : Facilities}
    (h : rs.foldlM (handle env true) f = .ok f') :
    f'.fmsgOut.type.length ≤ f.fmsgOut.type.length + rs.length ∧
    (1 ≤ f.fmsgOut.type.length → (∃ r ∈ rs, r.beMsg? ≠ none) →
      f'.fmsgOut.type.length < f.fmsgOut.type.length + rs.length) := by
  induction rs generalizing f with
  | nil =>
    cases h
    simp
  | cons r rs ih =>
    rw [List.foldlM_cons] at h
    obtain ⟨f₁, hhead, htail⟩ := bind_eq_ok.mp h
    have hlen := handle_length (hr r (List.mem_cons_self ..)) hhead
    obtain ⟨hle, hlt⟩ := ih (fun x hx => hr x (List.mem_cons_of_mem _ hx)) htail
    rw [List.length_cons]
    by_cases hbe : r.beMsg? = none
    · rw [if_pos hbe] at hlen
      refine ⟨by omega, fun hpos ⟨x, hx, hxbe⟩ => ?_⟩
      -- the message to the backend is among the rest
      rcases List.mem_cons.mp hx with rfl | hx
      · exact absurd hbe hxbe
      · have := hlt (by omega) ⟨x, hx, hxbe⟩
        omega
    · rw [if_neg hbe] at hlen
      exact ⟨by omega, fun hpos _ => by omega⟩

/-! ### Which messages are answered -/

/-- A first call leaves its own reply in an empty buffer. -/
theorem answersAll_singleton {env : Env} {r : Request} (hr : r.IsCall) {f f' : Facilities}
    (hf : f.fmsgOut = {}) (h : handle env true f r = .ok f') :
    AnswersAll env f.forwarded [r] f'.fmsgOut := by
  by_cases hbe : r.beMsg? = none
  · have happ := handle_appends hr hbe h
    rw [hf] at happ
    refine ⟨happ.type_eq, happ.getRet_eq, happ.setRet_eq, ?_⟩
    rw [happ.beMsgRet_eq]
    simp [hbe, backendReplies]
  · cases r with
    | beMsg m =>
      obtain ⟨htype, hget, hset, hback⟩ := handle_beMsg h
      refine ⟨htype, ?_, ?_, hback⟩
      · rw [hget]
        rfl
      · rw [hset]
        rfl
    | get m | set m | getRet m | setRet m | beMsgRet m => exact absurd rfl hbe

/-- Requests that are served here add their replies to those there are. -/
theorem AnswersAll.append {env : Env} {sent : List FacMessage} {rs rs' : List Request}
    {out out' : FacMessage} (h : AnswersAll env sent rs out) (happ : Appends rs' out out')
    (hbe : ∀ r ∈ rs', r.beMsg? = none) : AnswersAll env sent (rs ++ rs') out' := by
  have hnone : rs'.filterMap Request.beMsg? = [] := List.filterMap_eq_nil_iff.mpr hbe
  refine ⟨?_, ?_, ?_, ?_⟩
  · rw [happ.type_eq, h.type_eq, List.map_append]
  · rw [happ.getRet_eq, h.getRet_eq, List.filterMap_append, List.map_append]
  · rw [happ.setRet_eq, h.setRet_eq, List.filterMap_append, List.map_append]
  · rw [happ.beMsgRet_eq, h.beMsgRet_eq, List.filterMap_append, hnone, List.append_nil]

/-- A well-formed message is the fold over its requests. -/
theorem fe2beProcessProtobuf_ofRequests {env : Env} {rs : List Request} {raw : Bytes}
    (hraw : env.parse raw = .ok (ofRequests rs)) (sync : Bool) (f : Facilities) :
    fe2beProcessProtobuf env raw sync f =
      (rs.foldlM (handle env sync) { f with fmsgOut := {} }).map fun f =>
        (env.serialize f.fmsgOut, f) := by
  unfold fe2beProcessProtobuf
  rw [hraw]
  show processTypes env sync (rs.map Request.type) (ofRequests rs) _ >>= _ = _
  rw [processTypes_eq, ofRequests, requests_withTypes]
  cases rs.foldlM (handle env sync) { f with fmsgOut := {} } <;> rfl

/-- **Which synchronous messages are answered in full**: those that have no `BE_MSG` after
    their first entry, and whose requests are all handled. -/
theorem answersAll_iff {env : Env} (hb : env.Answers) {rs : List Request}
    (hrs : ∀ r ∈ rs, r.IsCall) {raw : Bytes} (hraw : env.parse raw = .ok (ofRequests rs))
    (f : Facilities) :
    (∃ f', fe2beProcessProtobuf env raw true f = .ok (env.serialize f'.fmsgOut, f') ∧
      AnswersAll env f.forwarded rs f'.fmsgOut) ↔
    (∀ r ∈ rs.tail, r.beMsg? = none) ∧ AllHandled env true rs { f with fmsgOut := {} } := by
  rw [fe2beProcessProtobuf_ofRequests hraw, ← foldlM_handle_ok_iff fun _ => hb]
  constructor
  · rintro ⟨f', h, hall⟩
    obtain ⟨f₁, hfold, heq⟩ := map_eq_ok.mp h
    have hf₁ : f₁ = f' := congrArg Prod.snd heq
    subst hf₁
    refine ⟨?_, f₁, hfold⟩
    by_contra hlate
    push Not at hlate
    cases rs with
    | nil => simp at hlate
    | cons r rs =>
      rw [List.foldlM_cons] at hfold
      obtain ⟨f₂, hhead, htail⟩ := bind_eq_ok.mp hfold
      have hone := handle_length (hrs r (List.mem_cons_self ..)) hhead
      have hlen₂ : f₂.fmsgOut.type.length = 1 := by
        rw [hone]
        split <;> rfl
      have hshort := (foldlM_length (fun x hx => hrs x (List.mem_cons_of_mem _ hx)) htail).2
        (by omega) hlate
      rw [hall.type_eq, List.length_map, List.length_cons] at hshort
      omega
  · rintro ⟨hearly, f', hfold⟩
    refine ⟨f', map_eq_ok.mpr ⟨f', hfold, rfl⟩, ?_⟩
    cases rs with
    | nil =>
      cases hfold
      constructor <;> rfl
    | cons r rs =>
      rw [List.foldlM_cons] at hfold
      obtain ⟨f₁, hhead, htail⟩ := bind_eq_ok.mp hfold
      have hfirst := answersAll_singleton (hrs r (List.mem_cons_self ..)) rfl hhead
      have hrest := foldlM_appends (fun x hx => hrs x (List.mem_cons_of_mem _ hx)) hearly htail
      exact hfirst.append hrest hearly

/-- The packet that makes some requests, as `ackEnv` receives it. -/
def packetEnv (rs : List Request) : Env := { ackEnv with parse := fun _ => .ok (ofRequests rs) }

theorem packetEnv_answers (rs : List Request) : (packetEnv rs).Answers :=
  fun _ => ⟨⟨0, .str []⟩, [], [], rfl, rfl⟩

/-- A `BE_MSG` before a `SET` is answered together with it. -/
theorem answersAll_beMsg_set :
    ∃ f', fe2beProcessProtobuf (packetEnv [.beMsg {}, .set ⟨.str ['a'], .str ['x']⟩]) [] true
        (.fresh 100 ∅) = .ok ([], f') ∧
      AnswersAll (packetEnv [.beMsg {}, .set ⟨.str ['a'], .str ['x']⟩]) []
        [.beMsg {}, .set ⟨.str ['a'], .str ['x']⟩] f'.fmsgOut := by
  have hcalls : ∀ r ∈ [Request.beMsg {}, .set ⟨.str ['a'], .str ['x']⟩], r.IsCall := by
    simp [Request.IsCall]
  refine (answersAll_iff (packetEnv_answers _) hcalls rfl (.fresh 100 ∅)).mpr ⟨?_, ?_⟩
  · simp [Request.beMsg?]
  · exact ⟨⟨[], rfl⟩, fun f' _ => ⟨rfl, fun _ _ => trivial⟩⟩

/-- **A reply is lost.** Of a `SET` and the `BE_MSG` after it, only the second is answered. -/
theorem beMsg_clears_reply :
    (∃ f', fe2beProcessProtobuf (packetEnv [.set ⟨.str ['a'], .str ['x']⟩, .beMsg {}]) [] true
        (.fresh 100 ∅) = .ok ([], f') ∧ f'.fmsgOut.type = [.beMsgRet] ∧ f'.fmsgOut.setRet = []) ∧
    ¬ ∃ f', fe2beProcessProtobuf (packetEnv [.set ⟨.str ['a'], .str ['x']⟩, .beMsg {}]) [] true
        (.fresh 100 ∅) = .ok ([], f') ∧
      AnswersAll (packetEnv [.set ⟨.str ['a'], .str ['x']⟩, .beMsg {}]) []
        [.set ⟨.str ['a'], .str ['x']⟩, .beMsg {}] f'.fmsgOut := by
  refine ⟨⟨_, rfl, rfl, rfl⟩, ?_⟩
  rintro ⟨f', hrun, hall⟩
  have htype : f'.fmsgOut.type = [.beMsgRet] := by
    have hf' : _ = f' := congrArg Prod.snd (Except.ok.inj hrun)
    rw [← hf']
    rfl
  rw [hall.type_eq] at htype
  cases htype

end Furnace.Fac
