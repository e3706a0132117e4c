import NdnRiot.Lib.Run
import NdnRiot.Model.Netface
import NdnRiot.Model.Udp

/-!
# The steps of the thread

Messages arrive at the thread's queue, pending receive events are dispatched in
any order, and the application calls the life cycle and the send functions of
the faces. `Thread.step` is one such action; a run of the thread is a list of
them (`Runs.run`).
-/

namespace NdnRiot

/-- What can happen to the thread between two handlers. `stale` is what the
local message of `ndn_udp_face_recv` holds before it is written. -/
inductive Action
  | arrive (m : Msg)
  | dispatch (self : FaceRef) (stale : Msg)
  | netfaceUp (i : Nat)
  | netfaceDown (i : Nat)
  | netfaceDestroy (i : Nat)
  | netfaceSend (i : Nat) (packet : List UInt8) (riot : Riot)
  | udpUp
  | udpDown
  | udpDestroy

namespace Thread

/-- The handler of a pending event: the netface table and the queue it leaves,
and its calls. -/
def handler (P : Platform) (t : Thread) (self : FaceRef) (stale : Msg) :
    Except Fault (List Netface × List Msg × List Call) :=
  match self with
  | .netface i =>
      match t.netfaceTable[i]? with
      | none => .error .nullDereference
      | some face => do
          let (face, msgQueue, calls) ← ndnNetfaceReceive P (.netface i) face t.msgQueue
          return (t.netfaceTable.set i face, msgQueue, calls)
  | .udp => do
      let (msgQueue, calls) ← ndnUdpFaceRecv .udp stale t.msgQueue
      return (t.netfaceTable, msgQueue, calls)

/-- Dispatch a pending event: it leaves the event queue, its handler runs, and
what the handler posts is pending afterwards. -/
def dispatch (P : Platform) (t : Thread) (self : FaceRef) (stale : Msg) : Option Thread :=
  if self ∈ t.events then
    match t.handler P self stale with
    | .error _ => none
    | .ok (netfaceTable, msgQueue, calls) =>
        some { t with
          netfaceTable
          msgQueue
          events := t.events.erase self ++ posts calls
          history := t.history ++ [⟨self, stale, t.msgQueue.head?, calls⟩] }
  else none

/-- Apply a function to a netface of the table. -/
def onNetface (t : Thread) (i : Nat) (f : Netface → Netface) : Option Thread :=
  t.netfaceTable[i]?.map fun face => { t with netfaceTable := t.netfaceTable.set i (f face) }

/-- One action. It is `none` where the action cannot happen, and where the
handler it runs has no defined behaviour. -/
def step (P : Platform) (t : Thread) : Action → Option Thread
  | .arrive m => some { t with msgQueue := t.msgQueue ++ [m] }
  | .dispatch self stale => t.dispatch P self stale
  | .netfaceUp i => t.onNetface i fun face => (ndnNetfaceUp face).2
  | .netfaceDown i => t.onNetface i fun face => (ndnNetfaceDown face).2
  | .netfaceDestroy i => t.onNetface i ndnNetfaceDestroy
  | .netfaceSend i packet riot =>
      -- sending reads the netface and leaves the thread as it is
      t.netfaceTable[i]?.bind fun face => (ndnNetfaceSend P face packet riot).map fun _ => t
  | .udpUp => some (ndnUdpFaceUp t).2
  | .udpDown => some (ndnUdpFaceDown t).2
  | .udpDestroy => some (ndnUdpFaceDestroy P t).1

/-- The thread's run over a list of actions. -/
abbrev run (P : Platform) : Thread → List Action → Option Thread := Runs.run (step P)

end Thread

end NdnRiot
