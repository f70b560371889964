import Furnace.Fac.Replies

namespace Furnace.Fac

open Furnace.Lib Furnace.Lib.PyText

/-!
# What a packet can do to the facilities runtime

The runtime has no handler around its loop: an exception ends it.  The reply to a
synchronous packet is sent with `ident.encode()` and `raw_out.encode()`, which are bytes and
have no such method, so that every such packet ends it; an asynchronous one does so when an
entry has no sub-message, or a request is not handled.

* `Survives` — a packet is handled, answered when it is synchronous, and what it asks for in
  vain is refused.
* `survives_iff` — the packets of which this is so.
-/

/-- A packet of the app: three frames when it is synchronous, two when it is not. -/
def packet (sync : Bool) (ident raw : Bytes) : List Bytes :=
  if sync then [ident, [], raw] else [ident, raw]

/-- A request that cannot be served: the key of a `GET` is refused or cannot be read, the key
    of a `SET` is refused, its value is over the quota or is not stored. -/
def Unservable (env : Env) (f : Facilities) : Request → Prop
  | .get m => nameOk env m.key.toStr = false ∨ ¬ ∃ value, Readable env f m.key.toStr value
  | .set m =>
    nameOk env m.key.toStr = false ∨ exceeds f m.value.toStr = true ∨
      (tryStore env m.key.toStr m.value.toStr f).1 = false
  | _ => False

/-- The reply to a request is a failure. -/
def Refused (out : FacMessage) : Request → Prop
  | .get m => ⟨.str m.key.toStr, .str [], vmiFailure⟩ ∈ out.getRet
  | .set m => ⟨.str m.key.toStr, vmiFailure⟩ ∈ out.setRet
  | _ => True

/-- **The runtime survives a packet** with the message `M`: no exception is left uncaught, a
    synchronous packet is answered by one packet to its sender, and each request that cannot
    be served when its turn comes is answered with a failure. -/
def Survives (env : Env) (sync : Bool) (ident raw : Bytes) (M : FacMessage) (f : Facilities) :
    Prop :=
  ∃ f', inboundFE env (packet sync ident raw) f = .ok f' ∧
    (sync = true → f'.sent = f.sent ++ [[ident, [], env.serialize f'.fmsgOut]]) ∧
    ∀ earlier r later f₁, (M.requests M.type).1 = earlier ++ r :: later →
      earlier.foldlM (handle env sync) { f with fmsgOut := {} } = .ok f₁ →
      Unservable env f₁ r → Refused f'.fmsgOut r

/-! ### Synchronous packets -/

/-- **Every synchronous packet ends the runtime.** -/
theorem inboundFE_sync (env : Env) (ident raw : Bytes) (f : Facilities) :
    ¬ ∃ f', inboundFE env (packet true ident raw) f = .ok f' := by
  rintro ⟨f', h⟩
  obtain ⟨r, -, h⟩ := bind_eq_ok.mp h
  -- `ident.encode()` comes first
  obtain ⟨b, hb, -⟩ := bind_eq_ok.mp h
  cases hb

/-! ### Asynchronous packets -/

/-- An asynchronous packet is the fold over its requests. -/
theorem inboundFE_async {env : Env} {raw : Bytes} {M : FacMessage} (hraw : env.parse raw = .ok M)
    (ident : Bytes) (f f' : Facilities) :
    inboundFE env (packet false ident raw) f = .ok f' ↔
      (M.requests M.type).1.foldlM (handle env false) { f with fmsgOut := {} } = .ok f' ∧
        (M.requests M.type).2 = false := by
  have hrun : inboundFE env (packet false ident raw) f =
      processTypes env false M.type M { f with fmsgOut := {} } := by
    show (fe2beProcessProtobuf env raw false f >>= fun r => .ok r.2) = _
    unfold fe2beProcessProtobuf
    rw [hraw]
    show (processTypes env false M.type M _ >>= _) >>= _ = _
    cases processTypes env false M.type M { f with fmsgOut := {} } <;> rfl
  rw [hrun, processTypes_eq]
  cases (M.requests M.type).1.foldlM (handle env false) { f with fmsgOut := {} } with
  | error e => simp [bind, Except.bind]
  | ok f₁ => cases (M.requests M.type).2 <;> simp [bind, Except.bind]

/-- A request that is handled although it cannot be served is answered with a failure. -/
theorem refused_of_unservable {env : Env} {sync : Bool} {r : Request} {f f' : Facilities}
    (h : handle env sync f r = .ok f') (hr : Unservable env f r) : Refused f'.fmsgOut r := by
  cases r with
  | get m =>
    have hread := processGet_ok_iff.mp ⟨f', h⟩
    have hname : nameOk env m.key.toStr = false := by
      rcases hr with hname | hunread
      · exact hname
      · rw [← Bool.not_eq_true]
        exact fun hname => hunread (hread hname)
    have heq := (processGet_refused hname f).symm.trans h
    rw [← Except.ok.inj heq]
    simp [Refused, answerGet, FacMessage.addGetRet]
  | set m =>
    have hname := processSet_ok_iff.mp ⟨f', h⟩
    have heq := (processSet_accepted hname f).symm.trans h
    rw [← Except.ok.inj heq]
    by_cases hex : exceeds f m.value.toStr = true
    · simp [Refused, hex, answerSet, FacMessage.addSetRet]
    · have hfail : (tryStore env m.key.toStr m.value.toStr f).1 = false := by
        simpa [Unservable, hname, hex] using hr
      simp [Refused, hex, hfail, answerSet, FacMessage.addSetRet]
  | beMsg m | getRet m | setRet m | beMsgRet m => trivial

/-- A refusal stays in the buffer while an asynchronous message is processed. -/
theorem refused_handle {env : Env} {r r' : Request} {f f' : Facilities}
    (h : handle env false f r' = .ok f') (hr : Refused f.fmsgOut r) : Refused f'.fmsgOut r := by
  have hget : ∀ x, Refused f.fmsgOut r → Refused (f.fmsgOut.addGetRet x) r := by
    intro x hx
    cases r <;> simp_all [Refused, FacMessage.addGetRet]
  have hset : ∀ x, Refused f.fmsgOut r → Refused (f.fmsgOut.addSetRet x) r := by
    intro x hx
    cases r <;> simp_all [Refused, FacMessage.addSetRet]
  cases r' with
  | get m =>
    cases hname : nameOk env m.key.toStr with
    | false =>
      have heq := (processGet_refused hname f).symm.trans h
      rw [← Except.ok.inj heq]
      exact hget _ hr
    | true =>
      obtain ⟨value, -, rfl⟩ := (processGet_eq_ok hname).mp h
      exact hget _ hr
  | set m =>
    have hname := processSet_ok_iff.mp ⟨f', h⟩
    have heq := (processSet_accepted hname f).symm.trans h
    rw [← Except.ok.inj heq]
    split
    · exact hset _ hr
    · unfold answerSet
      dsimp only
      rw [fmsgOut_tryStore]
      exact hset _ hr
  | beMsg m =>
    obtain ⟨value, -, h⟩ := bind_eq_ok.mp h
    rw [← Except.ok.inj h]
    exact hr
  | getRet m | setRet m | beMsgRet m =>
    rw [← Except.ok.inj h]
    exact hr

/-- And through all the requests that are left. -/
theorem refused_foldlM {env : Env} {r : Request} {rs : List Request} {f f' : Facilities}
    (h : rs.foldlM (handle env false) f = .ok f') (hr : Refused f.fmsgOut r) :
    Refused f'.fmsgOut r := by
  induction rs generalizing f with
  | nil =>
    cases h
    exact hr
  | cons r' rs ih =>
    rw [List.foldlM_cons] at h
    obtain ⟨f₁, hhead, htail⟩ := bind_eq_ok.mp h
    exact ih htail (refused_handle hhead hr)

/-! ### Which packets are survived -/

/-- **Which packets the runtime survives**, whatever it has stored: asynchronous ones with a
    sub-message for every type entry, each of whose requests is handled in the state that
    the earlier ones have left. -/
theorem survives_iff {env : Env} {raw : Bytes} {M : FacMessage} (hraw : env.parse raw = .ok M)
    (sync : Bool) (ident : Bytes) (f : Facilities) :
    Survives env sync ident raw M f ↔
      sync = false ∧ (M.requests M.type).2 = false ∧
        AllHandled env false (M.requests M.type).1 { f with fmsgOut := {} } := by
  cases sync with
  | true =>
    constructor
    · rintro ⟨f', h, -⟩
      exact absurd ⟨f', h⟩ (inboundFE_sync env ident raw f)
    · rintro ⟨h, -⟩
      cases h
  | false =>
    have hb : false = true → env.Answers := fun h => by cases h
    rw [← foldlM_handle_ok_iff hb]
    constructor
    · rintro ⟨f', h, -⟩
      obtain ⟨hfold, hfull⟩ := (inboundFE_async hraw ident f f').mp h
      exact ⟨rfl, hfull, f', hfold⟩
    · rintro ⟨-, hfull, f', hfold⟩
      refine ⟨f', (inboundFE_async hraw ident f f').mpr ⟨hfold, hfull⟩,
        fun h => absurd h (by decide), ?_⟩
      intro earlier r later f₁ hrs hearlier hr
      rw [hrs, List.foldlM_append] at hfold
      obtain ⟨f₂, hf₂, hfold⟩ := bind_eq_ok.mp hfold
      have heq : f₂ = f₁ := Except.ok.inj (hf₂.symm.trans hearlier)
      subst heq
      rw [List.foldlM_cons] at hfold
      obtain ⟨f₃, hhandle, hlater⟩ := bind_eq_ok.mp hfold
      exact refused_foldlM hlater (refused_of_unservable hhandle hr)

/-- An asynchronous `GET` of a key that is refused is survived. -/
theorem survives_refused_get :
    Survives (packetEnv [.get {}]) false [] [] (ofRequests [.get {}]) (.fresh 100 ∅) := by
  refine (survives_iff rfl false [] (.fresh 100 ∅)).mpr ⟨rfl, rfl, ?_, fun _ _ => trivial⟩
  intro hname
  cases hname

/-- **Messages that end the runtime.** A synchronous message without any request, and in two
    frames: a `GET` of a key that is not stored, a `SET` of a key that is refused, and a type
    entry without a sub-message. -/
theorem inboundFE_raises :
    inboundFE (packetEnv []) (packet true [1] []) (.fresh 100 ∅) = .error .attributeError ∧
    inboundFE (packetEnv [.get ⟨.str ['a']⟩]) (packet false [1] []) (.fresh 100 ∅) =
      .error .keyError ∧
    inboundFE (packetEnv [.set {}]) (packet false [1] []) (.fresh 100 ∅) =
      .error .attributeError ∧
    inboundFE { ackEnv with parse := fun _ => .ok { type := [.get] } } (packet false [1] [])
      (.fresh 100 ∅) = .error .indexError ∧
    ¬ Survives (packetEnv []) true [1] [] (ofRequests []) (.fresh 100 ∅) := by
  refine ⟨rfl, rfl, rfl, rfl, ?_⟩
  rintro ⟨f', h, -⟩
  exact inboundFE_sync _ _ _ _ ⟨f', h⟩

end Furnace.Fac
