import Mathlib.Data.List.Basic

/-!
# The data the adaptation works on

Packet snips, thread messages and face references as `netface.c`, `l2.c` and
`udp.c` use them. A function of the source that calls into RIOT or ndn-lite
returns the list of those calls, in order, next to its result; the calls a
later property speaks about are the constructors of `Call`.

C pointers that may be `NULL` are `Option`s. Memory accesses are checked: a
function that would read through `NULL` or behind the end of a payload ends
with a `Fault`, after which the C program has no defined behaviour.
-/

namespace NdnRiot

abbrev Pid := Nat

/-- GNRC protocol types, `gnrc_nettype_t`. -/
inductive Nettype
  | ndn
  | undef
  | netif
  | ipv6
  | udp
  | other (code : Nat)
  deriving DecidableEq, Repr

/-- GNRC message types, `GNRC_NETAPI_MSG_TYPE_*`, and any other value. -/
inductive MsgType
  | rcv
  | snd
  | set
  | get
  | ack
  | other (code : Nat)
  deriving DecidableEq, Repr

/-- A packet snip, `gnrc_pktsnip_t`: the handle stands for its address. -/
structure Snip where
  handle : Nat
  type : Nettype
  data : List UInt8
  deriving DecidableEq, Repr

/-- `pkt->size`. -/
def Snip.size (pkt : Snip) : Nat := pkt.data.length

/-- A thread message, `msg_t`. `ptr` is `content.ptr` read as a snip. -/
structure Msg where
  senderPid : Pid
  type : MsgType
  ptr : Option Snip
  deriving DecidableEq, Repr

/-- The snip whose ownership an RCV message hands over. -/
def Msg.snip? (m : Msg) : Option Snip := if m.type = .rcv then m.ptr else none

/-- A face as the `self` pointer names it: an entry of `_netface_table`, or
`udp_face`. -/
inductive FaceRef
  | netface (index : Nat)
  | udp
  deriving DecidableEq, Repr

/-- Face states, `NDN_FACE_STATE_*`. -/
inductive FaceState
  | down
  | up
  | destroyed
  deriving DecidableEq, Repr

/-- `NDN_SUCCESS`. -/
def ndnSuccess : Int := 0

/-- The error values that are sent in replies; `enotsup` is `-ENOTSUP`. -/
inductive ReplyValue
  | enotsup
  deriving DecidableEq, Repr

/-- A call into RIOT or ndn-lite made while a message is handled. -/
inductive Call
  | gnrcPktbufRelease (pkt : Snip)
  | ndnForwarderReceive (self : FaceRef) (packet : List UInt8)
  | msgReply (asked : Msg) (type : MsgType) (value : ReplyValue)
  | ndnMsgqueuePost (self : FaceRef)
  | ndnForwarderUnregisterFace (self : FaceRef)
  | gnrcNetapiSetProto (pid : Pid) (proto : Nettype)
  deriving DecidableEq, Repr

namespace Call

/-- The deliveries among the calls: the face and the packet. -/
def delivery? : Call → Option (FaceRef × List UInt8)
  | ndnForwarderReceive self packet => some (self, packet)
  | _ => none

def released? : Call → Option Snip
  | gnrcPktbufRelease pkt => some pkt
  | _ => none

def reply? : Call → Option (Msg × MsgType × ReplyValue)
  | msgReply asked type value => some (asked, type, value)
  | _ => none

def posted? : Call → Option FaceRef
  | ndnMsgqueuePost self => some self
  | _ => none

attribute [simp] delivery? released? reply? posted?

end Call

/-- What `ndn_forwarder_receive` was called with. -/
def deliveries (calls : List Call) : List (FaceRef × List UInt8) :=
  calls.filterMap Call.delivery?

/-- The snips released. -/
def releases (calls : List Call) : List Snip := calls.filterMap Call.released?

/-- The replies sent. -/
def replies (calls : List Call) : List (Msg × MsgType × ReplyValue) :=
  calls.filterMap Call.reply?

/-- The faces whose receive event was posted. -/
def posts (calls : List Call) : List FaceRef := calls.filterMap Call.posted?

section Projections

variable (c : Call) (calls rest : List Call)

@[simp] theorem deliveries_nil : deliveries [] = [] := rfl
@[simp] theorem releases_nil : releases [] = [] := rfl
@[simp] theorem replies_nil : replies [] = [] := rfl
@[simp] theorem posts_nil : posts [] = [] := rfl

@[simp] theorem deliveries_cons :
    deliveries (c :: rest) = c.delivery?.toList ++ deliveries rest := by
  cases c <;> rfl

@[simp] theorem releases_cons :
    releases (c :: rest) = c.released?.toList ++ releases rest := by
  cases c <;> rfl

@[simp] theorem replies_cons :
    replies (c :: rest) = c.reply?.toList ++ replies rest := by
  cases c <;> rfl

@[simp] theorem posts_cons : posts (c :: rest) = c.posted?.toList ++ posts rest := by
  cases c <;> rfl

@[simp] theorem deliveries_append :
    deliveries (calls ++ rest) = deliveries calls ++ deliveries rest := by
  simp [deliveries]

@[simp] theorem releases_append :
    releases (calls ++ rest) = releases calls ++ releases rest := by
  simp [releases]

@[simp] theorem replies_append :
    replies (calls ++ rest) = replies calls ++ replies rest := by
  simp [replies]

@[simp] theorem posts_append : posts (calls ++ rest) = posts calls ++ posts rest := by
  simp [posts]

theorem deliveries_flatten (runs : List (List Call)) :
    deliveries runs.flatten = (runs.map deliveries).flatten := by
  induction runs with
  | nil => rfl
  | cons calls rest ih => simp [ih]

end Projections

section Receives

variable (self : FaceRef) (packets : List (List UInt8))

@[simp] theorem deliveries_receives :
    deliveries (packets.map (.ndnForwarderReceive self)) = packets.map (self, ·) := by
  induction packets with
  | nil => rfl
  | cons packet rest ih => simp [ih]

@[simp] theorem releases_receives :
    releases (packets.map (.ndnForwarderReceive self)) = [] := by
  induction packets with
  | nil => rfl
  | cons packet rest ih => simp [ih]

@[simp] theorem replies_receives :
    replies (packets.map (.ndnForwarderReceive self)) = [] := by
  induction packets with
  | nil => rfl
  | cons packet rest ih => simp [ih]

@[simp] theorem posts_receives : posts (packets.map (.ndnForwarderReceive self)) = [] := by
  induction packets with
  | nil => rfl
  | cons packet rest ih => simp [ih]

end Receives

/-- Accesses the C program must not make. -/
inductive Fault
  | nullDereference
  | readBeyond (index size : Nat)
  deriving DecidableEq, Repr

/-- Read through a snip pointer. -/
def deref (pkt : Option Snip) : Except Fault Snip :=
  match pkt with
  | some snip => .ok snip
  | none => .error .nullDereference

/-- `buf[i]` of a payload. -/
def readByte (buf : List UInt8) (i : Nat) : Except Fault UInt8 :=
  match buf[i]? with
  | some b => .ok b
  | none => .error (.readBeyond i buf.length)

@[simp] theorem deref_some (snip : Snip) : deref (some snip) = .ok snip := rfl
@[simp] theorem deref_none : deref none = .error .nullDereference := rfl

theorem readByte_of_lt {buf : List UInt8} {i : Nat} (h : i < buf.length) :
    readByte buf i = .ok (buf.getD i 0) := by
  simp [readByte, List.getD, List.getElem?_eq_getElem h]

end NdnRiot
