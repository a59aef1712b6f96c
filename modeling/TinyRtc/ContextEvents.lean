import TinyRtc.ComponentRuns
import TinyRtc.PeerList
import TinyRtc.ProcessEvents
import TinyRtc.WebSocket

namespace TinyRtc.ContextEvents

open TinyRtc.Connection
open TinyRtc.Ice
open TinyRtc.PeerList
open TinyRtc.PolledStream
open TinyRtc.ProcessEvents
open TinyRtc.Srtp
open TinyRtc.WebSocket

/-- `struct tinyrtc_context`, with the connections that its pointers lead to. An address that
holds no connection was never given out, or has been freed. -/
structure RtcContext where
  table : PeerContext
  heap : Nat → Option PeerConnection
  signaling : Option SignalingHost

/-- `tinyrtc_init`. Nothing in the source sets the signaling client later. -/
def tinyrtcInit : RtcContext :=
  ⟨PeerList.tinyrtcInit, fun _ => none, none⟩

inductive ContextEvent where
  | peer (pc : Nat) (event : PcEvent)
  | signaling (event : SignalingEvent)

/-- The events of one connection. -/
def eventsOf (pc : Nat) (events : List ContextEvent) : List PcEvent :=
  events.filterMap fun event =>
    match event with
    | .peer owner event => if owner = pc then some event else none
    | .signaling _ => none

/-- `tinyrtc_peer_connection_create`, for a connection at a given address. -/
def RtcContext.createPeer (ctx : RtcContext) (pc : Nat) (config : PcConfig) :
    Except PeerFault RtcContext :=
  (PeerList.tinyrtcPeerConnectionCreate ctx.table pc).map fun table =>
    { ctx with
      table := table
      heap := Function.update ctx.heap pc (some (Connection.tinyrtcPeerConnectionCreate config)) }

/-- `tinyrtc_peer_connection_destroy`, which closes the connection first if nobody has. An
error is also the use of a connection that is not there. -/
def RtcContext.destroyPeer (ctx : RtcContext) (pc : Nat) :
    Except PeerFault (RtcContext × List ContextEvent) :=
  match ctx.heap pc with
  | none => .error .outOfBounds
  | some conn =>
      let events := if conn.state ≠ .closed then (tinyrtcPeerConnectionClose conn).2 else []
      (PeerList.tinyrtcPeerConnectionDestroy ctx.table pc).map fun table =>
        ({ ctx with table := table, heap := Function.update ctx.heap pc none },
          events.map (.peer pc))

section

variable (crypto : Crypto) (hostOrder : UInt32 → List UInt8)

/-- A call of the public API on one of the connections. -/
def RtcContext.peerCall (ctx : RtcContext) (pc : Nat) (call : PcCall) :
    Option (RtcContext × List ContextEvent) :=
  (ctx.heap pc).bind fun conn =>
    (pcCall crypto hostOrder conn call).map fun (conn, events) =>
      ({ ctx with heap := Function.update ctx.heap pc (some conn) }, events.map (.peer pc))

/-- What the turn of a connection adds to `events_processed`: one for a datagram, and one more
when ICE leaves it to DTLS or to the media. -/
def eventsProcessed (input : EventInput) (pc : PeerConnection) : Int :=
  match pc.ice, input.datagram with
  | some ice, some datagram =>
      if ice.socket = none ∨ datagram.bytes.length = 0 then 0
      else if (iceProcessPacket crypto pc.icePeer ice datagram).1 then 2 else 1
  | _, _ => 0

/-- The loop over the array in `tinyrtc_process_events`. `none` when a pointer leads to no
connection, or when the behaviour of a turn is undefined. -/
def processPeers (inputs : Nat → EventInput) :
    List (Option Nat) → (Nat → Option PeerConnection) →
      Option (Int × (Nat → Option PeerConnection) × List ContextEvent)
  | [], heap => some (0, heap, [])
  | none :: slots, heap => processPeers inputs slots heap
  | some pc :: slots, heap =>
      (heap pc).bind fun conn =>
        (tinyrtcProcessEvents crypto hostOrder (inputs pc) conn).bind fun (conn', events) =>
          (processPeers inputs slots (Function.update heap pc (some conn'))).map
            fun (count, heap, rest) =>
              (eventsProcessed crypto (inputs pc) conn + count, heap,
                events.map (.peer pc) ++ rest)

/-- `ctx->peers[0]` to `ctx->peers[num_peers - 1]`, `none` when the array is shorter. -/
def readPeers (table : PeerContext) : Option (List (Option Nat)) :=
  if table.numPeers.toNatClampNeg ≤ (table.peers.getD []).length then some table.listed else none

/-- The signaling part of `tinyrtc_process_events`. The result of `tinyrtc_signaling_process` is
0, whatever it has handled. -/
def processSignaling (recv : List (Poll UInt8)) :
    Option SignalingHost → Option (Option SignalingHost × List ContextEvent)
  | none => some (none, [])
  | some host =>
      (tinyrtcSignalingProcess host recv).map fun turn =>
        (some turn.state, turn.out.map .signaling)

/-- `tinyrtc_process_events`, with its result. -/
def RtcContext.processEvents (ctx : RtcContext) (recv : List (Poll UInt8))
    (inputs : Nat → EventInput) : Option (Int × RtcContext × List ContextEvent) :=
  (processSignaling recv ctx.signaling).bind fun (signaling, signaled) =>
    (readPeers ctx.table).bind fun slots =>
      (processPeers crypto hostOrder inputs slots ctx.heap).map fun (count, heap, events) =>
        (count, { ctx with heap := heap, signaling := signaling }, signaled ++ events)

end

inductive ContextCall where
  | create (pc : Nat) (config : PcConfig)
  | destroy (pc : Nat)
  | peerCall (pc : Nat) (call : PcCall)
  | processEvents (recv : List (Poll UInt8)) (inputs : Nat → EventInput)

/-- The calls of an application on a context, each with the events it raises. A new connection
does not lie where a live one does, and only a live one is destroyed or called. -/
inductive ContextStep (crypto : Crypto) (hostOrder : UInt32 → List UInt8) :
    RtcContext → ContextCall × List ContextEvent → RtcContext → Prop
  | create {ctx ctx' : RtcContext} {pc : Nat} {config : PcConfig} (hfresh : ctx.heap pc = none)
      (h : ctx.createPeer pc config = .ok ctx') :
      ContextStep crypto hostOrder ctx (.create pc config, []) ctx'
  | destroy {ctx ctx' : RtcContext} {pc : Nat} {events : List ContextEvent}
      (h : ctx.destroyPeer pc = .ok (ctx', events)) :
      ContextStep crypto hostOrder ctx (.destroy pc, events) ctx'
  | peerCall {ctx ctx' : RtcContext} {pc : Nat} {call : PcCall} {events : List ContextEvent}
      (hcall : ∀ input, call ≠ .processEvents input)
      (h : ctx.peerCall crypto hostOrder pc call = some (ctx', events)) :
      ContextStep crypto hostOrder ctx (.peerCall pc call, events) ctx'
  | processEvents {ctx ctx' : RtcContext} {recv : List (Poll UInt8)} {inputs : Nat → EventInput}
      {count : Int} {events : List ContextEvent}
      (h : ctx.processEvents crypto hostOrder recv inputs = some (count, ctx', events)) :
      ContextStep crypto hostOrder ctx (.processEvents recv inputs, events) ctx'

section

variable (crypto : Crypto) (hostOrder : UInt32 → List UInt8) (inputs : Nat → EventInput)

/-- The turn of one connection, taken alone. -/
def turnOf (heap : Nat → Option PeerConnection) (pc : Nat) :
    Option (PeerConnection × List PcEvent) :=
  (heap pc).bind fun conn => tinyrtcProcessEvents crypto hostOrder (inputs pc) conn

def countOf (heap : Nat → Option PeerConnection) (pc : Nat) : Int :=
  (heap pc).elim 0 (eventsProcessed crypto (inputs pc))

/-- The events of the turn. -/
def raisedBy (heap : Nat → Option PeerConnection) (pc : Nat) : List PcEvent :=
  (turnOf crypto hostOrder inputs heap pc).elim [] Prod.snd

variable {crypto hostOrder inputs}

/-- A connection that is not in the array is not touched. -/
theorem processPeers_update {live : List Nat} {pc : Nat} (hfresh : pc ∉ live)
    (conn : PeerConnection) (heap : Nat → Option PeerConnection) :
    processPeers crypto hostOrder inputs (live.map some) (Function.update heap pc (some conn)) =
      (processPeers crypto hostOrder inputs (live.map some) heap).map
        fun (count, heap, events) => (count, Function.update heap pc (some conn), events) := by
  induction live generalizing heap with
  | nil => rfl
  | cons other live ih =>
      obtain ⟨hne, hfresh⟩ := not_or.mp (List.mem_cons.not.mp hfresh)
      rw [List.map_cons, processPeers, processPeers, Function.update_of_ne (Ne.symm hne),
        Option.map_bind]
      refine congrArg _ (funext fun served => ?_)
      dsimp only [Function.comp_apply]
      rw [Option.map_bind]
      refine congrArg _ (funext fun ⟨served', events⟩ => ?_)
      dsimp only [Function.comp_apply]
      rw [Function.update_comm hne, ih hfresh, Option.map_map, Option.map_map]
      rfl

/-- The loop takes the turn of each connection as if it were alone. -/
theorem processPeers_eq {live : List Nat} (hnodup : live.Nodup)
    (heap : Nat → Option PeerConnection) :
    processPeers crypto hostOrder inputs (live.map some) heap =
      if ∀ pc ∈ live, (turnOf crypto hostOrder inputs heap pc).isSome then
        some ((live.map (countOf crypto inputs heap)).sum,
          fun pc =>
            if pc ∈ live then (turnOf crypto hostOrder inputs heap pc).map Prod.fst else heap pc,
          live.flatMap fun pc => (raisedBy crypto hostOrder inputs heap pc).map (.peer pc))
      else none := by
  induction live with
  | nil => simp [processPeers]
  | cons pc live ih =>
      obtain ⟨hfresh, hnodup⟩ := List.nodup_cons.mp hnodup
      rw [List.map_cons, processPeers]
      cases hturn : turnOf crypto hostOrder inputs heap pc with
      | none =>
          rw [if_neg fun hall => by simpa [hturn] using hall pc List.mem_cons_self]
          rw [turnOf] at hturn
          cases hconn : heap pc with
          | none => rfl
          | some conn =>
              rw [hconn, Option.bind_some] at hturn
              rw [Option.bind_some, hturn, Option.bind_none]
      | some result =>
          obtain ⟨conn', events⟩ := result
          obtain ⟨conn, hconn, hround⟩ := Option.bind_eq_some_iff.mp hturn
          rw [hconn, Option.bind_some, hround, Option.bind_some]
          dsimp only
          rw [processPeers_update hfresh, ih hnodup, Option.map_map]
          have hall : (∀ other ∈ live, (turnOf crypto hostOrder inputs heap other).isSome) ↔
              ∀ other ∈ pc :: live, (turnOf crypto hostOrder inputs heap other).isSome := by
            rw [List.forall_mem_cons, hturn]
            exact (and_iff_right rfl).symm
          rw [if_congr hall rfl rfl]
          split
          · have hcount : countOf crypto inputs heap pc =
                eventsProcessed crypto (inputs pc) conn := by
              rw [countOf, hconn, Option.elim_some]
            have hevents : raisedBy crypto hostOrder inputs heap pc = events := by
              rw [raisedBy, hturn, Option.elim_some]
            rw [Option.map_some, List.map_cons, List.sum_cons, List.flatMap_cons, hcount, hevents]
            refine congrArg some (Prod.ext rfl (Prod.ext (funext fun other => ?_) rfl))
            dsimp only [Function.comp_apply]
            by_cases hother : other = pc
            · rw [hother, Function.update_self, if_pos List.mem_cons_self, hturn, Option.map_some]
            · rw [Function.update_of_ne hother]
              exact if_congr (by rw [List.mem_cons, or_iff_right hother]) rfl rfl
          · rfl

end

end TinyRtc.ContextEvents
