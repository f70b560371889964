import Furnace.Vmi.Dispatch

namespace Furnace.Vmi

open Furnace.Proto Furnace.Lib

/-!
# Requests as bytes

`process_protobuf` is a member of the one `furnace` object that serves every client.  It
decodes the bytes of a request into the member `msg_in`, builds its reply in the member
`msg_out`, and keeps the link cache and its cursors in members too.  `processBytes` has these
members as they were left by earlier requests, and the bytes that earlier requests left in the
heap; `Dispatch.processProtobuf` is what remains of it once they are reset.

* `Protobuf` — the parser and the serializer.
* `Members` — the members that belong to one request.
* `processBytes_eq` — **the members do not matter**: `processBytes` is `processProtobuf` on the
  decoded message.
-/

variable {G : Type}

/-- The protobuf runtime: `parse` answers whether the bytes are a message and, either way, the
    fields that it decoded. -/
structure Protobuf where
  parse : Bytes → Bool × VMIMessage
  serialize : VMIMessage → Bytes

/-- The members of `furnace` that belong to the request being processed. -/
structure Members where
  msgIn : VMIMessage := {}
  msgOut : VMIMessage := {}
  link : LinkState := {}

/-- `Clear()`. -/
def clear (_ : VMIMessage) : VMIMessage := VMIMessage.empty

/-- `ParseFromArray` clears the message and merges into it what it decodes. -/
def parseFromArray (P : Protobuf) (raw : Bytes) (m : VMIMessage) : Bool × VMIMessage :=
  ((P.parse raw).1, (clear m).merge (P.parse raw).2)

/-- The environment in which `malloc` hands out memory that still holds earlier bytes:
    `leftover n` is what a block of `n` bytes, and the memory behind it, held before.  A bulk
    read overwrites the front of the block. -/
def Env.withLeftover (env : Env G) (leftover : ℕ → Bytes) : Env G where
  exec
    | .readBuf l n, g =>
      let ((st, buf), g) := env.exec (.readBuf l n) g
      ((st, ⟨buf.bytes, (leftover n).drop buf.bytes.length⟩), g)
    | op, g => env.exec op g
  fuel := env.fuel

/-- `furnace::process_protobuf` on the bytes of a request, with the members and the heap that
    the requests before have left. -/
def processBytes (P : Protobuf) (env : Env G) (leftover : ℕ → Bytes) (raw : Bytes) (M : Members)
    (w : World G) : Except Fault (Members × World G × Bytes) := do
  -- the answer of the parser is printed, and otherwise ignored
  let (_, msgIn) := parseFromArray P raw M.msgIn
  let msgOut := clear M.msgOut
  let link := { M.link with cache := fun _ => none, nthType := 0, nthFieldIx := 0, msgno := 0 }
  if maxTypes < msgIn.type.length then .ok (⟨msgIn, msgOut, link⟩, w, P.serialize msgOut)
  else do
    let (link, w, msgOut) ← processTypes (env.withLeftover leftover) msgIn msgIn.type
      (fun _ => none) link w msgOut
    .ok (⟨msgIn, msgOut, link⟩, w, P.serialize msgOut)

/-- What `msg_in` holds after the bytes have been parsed. -/
def decoded (P : Protobuf) (raw : Bytes) : VMIMessage := VMIMessage.empty.merge (P.parse raw).2

/-- **The members do not matter.** Whatever earlier requests have left in them, a request is
    `process_protobuf` on what its bytes decode to. -/
theorem processBytes_eq (P : Protobuf) (env : Env G) (leftover : ℕ → Bytes) (raw : Bytes)
    (M : Members) (w : World G) :
    (processBytes P env leftover raw M w).map (fun r => r.2) =
      (processProtobuf (env.withLeftover leftover) (decoded P raw) w).map
        fun r => (r.1, P.serialize r.2) := by
  show Except.map _ (if maxTypes < (decoded P raw).type.length then _ else _) = _
  unfold processProtobuf
  by_cases hlong : maxTypes < (decoded P raw).type.length
  · rw [if_pos hlong, if_pos hlong]
    rfl
  · rw [if_neg hlong, if_neg hlong]
    show Except.map _ (processTypes _ (decoded P raw) (decoded P raw).type _ {} w
      VMIMessage.empty >>= _) = _
    cases processTypes (env.withLeftover leftover) (decoded P raw) (decoded P raw).type
      (fun _ => none) {} w VMIMessage.empty with
    | error e => rfl
    | ok r => rfl

/-- A request that returns has its reply in `msg_out`. -/
theorem processBytes_msgOut {P : Protobuf} {env : Env G} {leftover : ℕ → Bytes}
    {raw reply : Bytes} {M M' : Members} {w w' : World G}
    (h : processBytes P env leftover raw M w = .ok (M', w', reply)) :
    processProtobuf (env.withLeftover leftover) (decoded P raw) w = .ok (w', M'.msgOut) ∧
      P.serialize M'.msgOut = reply := by
  change (if maxTypes < (decoded P raw).type.length then _ else _) = _ at h
  unfold processProtobuf
  by_cases hlong : maxTypes < (decoded P raw).type.length
  · rw [if_pos hlong] at h ⊢
    cases h
    exact ⟨rfl, rfl⟩
  · rw [if_neg hlong] at h ⊢
    obtain ⟨⟨l, w₁, out⟩, hrun, h⟩ := bind_eq_ok.mp h
    cases h
    exact ⟨bind_eq_ok.mpr ⟨_, hrun, rfl⟩, rfl⟩

/-- A request that returns is a message that does. -/
theorem processProtobuf_of_processBytes {P : Protobuf} {env : Env G} {leftover : ℕ → Bytes}
    {raw reply : Bytes} {M M' : Members} {w w' : World G}
    (h : processBytes P env leftover raw M w = .ok (M', w', reply)) :
    ∃ out, processProtobuf (env.withLeftover leftover) (decoded P raw) w = .ok (w', out) ∧
      P.serialize out = reply :=
  ⟨M'.msgOut, processBytes_msgOut h⟩

/-- A `READ_KSYM` that reads, over a heap. -/
theorem readKsymBody_withLeftover {env : Env G} {m : Msg} {w v : World G} {l : Location} {n : ℕ}
    {st : Status} {buf : ReadBuffer} (hl : location .ksym m = some l)
    (hn : (allocBuffer env m w).1 = some n)
    (hread : (allocBuffer env m w).2.exec env (.readBuf l n) = ((st, buf), v))
    (leftover : ℕ → Bytes) :
    readKsymBody (env.withLeftover leftover) (.ok m) w =
      if 0 ∈ buf.bytes ++ (leftover n).drop buf.bytes.length then
        .ok (v, .ok (resultWith
          (.bytes (cStr (buf.bytes ++ (leftover n).drop buf.bytes.length))) st))
      else .error .bufferOverrun := by
  have hexec : (allocBuffer env m w).2.exec (env.withLeftover leftover) (.readBuf l n) =
      ((st, ⟨buf.bytes, (leftover n).drop buf.bytes.length⟩), v) := by
    obtain ⟨hres, hv⟩ := Prod.mk.inj hread
    obtain ⟨hst, hbuf⟩ := Prod.mk.inj hres
    rw [← hst, ← hbuf, ← hv]
    rfl
  have halloc : allocBuffer (env.withLeftover leftover) m w = allocBuffer env m w := rfl
  unfold readKsymBody reading
  rw [ok_bind]
  dsimp only
  rw [halloc, hl, hn]
  dsimp only
  rw [hexec]

end Furnace.Vmi
