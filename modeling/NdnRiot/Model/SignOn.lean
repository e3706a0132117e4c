import NdnRiot.Lib.Medium
import NdnRiot.Model.Bootstrap

/-!
# The sign-on: `bootstrap.c` and `controller.c`

A device asks for the trust anchor with a first Interest, hashes what the answer starts
with, and asks for its certificate with a second Interest, which names the digest. A
controller answers every Interest under its two prefixes. Both sides know one HMAC key,
and so does nobody else.

ndn-lite encodes, signs and forwards; it is a parameter, an `NdnLite`. Packets are on
the network as what they decode to. A signature is the key it was made with.
-/

namespace NdnRiot

/-- A name, as its components. -/
abbrev Name := List String

/-- The TLVs of the parameters of the Interests. -/
inductive SignOnField
  | identifier (component : String)
  | capabilities (services : List UInt8)
  | n1EcdhPub (key : List UInt8)
  | n2EcdhPub (key : List UInt8)
  | anchorDigest (digest : List UInt8)
  deriving DecidableEq, Repr

/-- An Interest, by the name the forwarder found and its parameters. -/
structure InterestPacket where
  name : Name
  parameters : List SignOnField
  deriving DecidableEq, Repr

/-- A Data packet. `signedWith` is the HMAC key of its signature, if it has one. -/
structure DataPacket where
  name : Name
  content : List UInt8
  signedWith : Option (List UInt8)
  deriving DecidableEq, Repr

inductive SignOnPacket
  | interest (packet : InterestPacket)
  | data (packet : DataPacket)
  deriving DecidableEq, Repr

/-- `hmac_key_bytes`, the same in both programs. -/
def hmacKeyBytes : List UInt8 :=
  [0xB1, 0x2A, 0x28, 0x42, 0xC7, 0xC8, 0x62, 0xC9, 0x12, 0x9B, 0x19, 0x2D, 0xC1, 0x8C, 0xB0,
    0xC9]

/-- `encoder_init` over `buffer` in the handlers of the controller. -/
def answerBufferSize : Nat := 512

/-- `NDN_SEC_SHA256_HASH_SIZE`. -/
def ndnSecSha256HashSize : Nat := 32

/-- The functions of ndn-lite both programs call. An encoder is what it has written so
far; the first argument is the size of its buffer. Certificates are given by the value
of their Data element. -/
structure NdnLite extends NdnTlv where
  /-- `ndn_data_tlv_encode(&encoder, &certificate)` on an empty encoder. -/
  dataTlvEncode : Nat → List UInt8 → List UInt8
  /-- `encoder_append_raw_buffer_value`. -/
  encoderAppendRawBufferValue : Nat → List UInt8 → List UInt8 → List UInt8
  /-- The content `ndn_data_set_content` sets in an empty packet. -/
  dataSetContent : List UInt8 → List UInt8
  /-- `ndn_data_tlv_encode_hmac_sign` of a packet with this name and content. -/
  dataTlvEncodeHmacSign : Nat → Name → List UInt8 → List UInt8 → DataPacket
  /-- The content that `ndn_data_tlv_decode_hmac_verify` leaves in a packet, `none` where
  it fails. -/
  dataTlvDecodeHmacVerify : DataPacket → List UInt8 → Option (List UInt8)
  /-- `ndn_interest_from_block` into a packet that had this name: its result, and the name
  of the packet after it. -/
  interestFromBlock : Name → InterestPacket → Int × Name
  /-- `ndn_sha256`. -/
  sha256 : List UInt8 → List UInt8
  /-- The name of the signed Interest with these parameters. -/
  interestName : Name → List SignOnField → Name
  /-- `NDN_SD_TEMP`. -/
  ndnSdTemp : UInt8

/-- The encoding of a certificate. -/
def certificateBytes (value : List UInt8) : List UInt8 := Tlv.writeElement tlvData.toNat value

/-- What the programs rely on. -/
structure NdnLite.Documented (N : NdnLite) : Prop extends N.toNdnTlv.Documented where
  dataTlvEncode : ∀ size value, (certificateBytes value).length ≤ size →
    N.dataTlvEncode size value = certificateBytes value
  encoderAppendRawBufferValue : ∀ size written raw,
    N.encoderAppendRawBufferValue size written raw =
      if written.length + raw.length ≤ size then written ++ raw else written
  /-- A content that is too large is refused. -/
  dataSetContent : ∀ content, N.dataSetContent content = content ∨ N.dataSetContent content = []
  /-- The packet, or no signature where the buffer is too small. -/
  dataTlvEncodeHmacSign : ∀ size name content key,
    N.dataTlvEncodeHmacSign size name content key = ⟨name, content, some key⟩ ∨
      (N.dataTlvEncodeHmacSign size name content key).signedWith = none
  /-- What it accepts is signed with the key. -/
  dataTlvDecodeHmacVerify : ∀ packet key content,
    N.dataTlvDecodeHmacVerify packet key = some content →
      packet.signedWith = some key ∧ packet.content = content
  /-- Nothing is known of the name where it fails. -/
  interestFromBlock : ∀ name interest, (N.interestFromBlock name interest).1 = ndnSuccess →
    (N.interestFromBlock name interest).2 = interest.name
  /-- Components for the parameters and the signature are appended. -/
  interestName : ∀ name parameters, name <+: N.interestName name parameters

/-! ## `controller.c` -/

/-- A controller: the certificates of its key storage, its key, and the name of
`static_interest`. -/
structure SignOnController where
  trustAnchor : List UInt8
  selfCert : List UInt8
  hmacKey : List UInt8
  staticInterest : Name
  deriving DecidableEq, Repr

namespace SignOnController

variable (N : NdnLite) (interest : InterestPacket) (c : SignOnController)

/-- `on_interest_1`. -/
def onInterest1 : SignOnController × List SignOnPacket :=
  -- the result is not looked at
  let (_, staticInterest) := N.interestFromBlock c.staticInterest interest
  let c := { c with staticInterest }
  let encoder := N.dataTlvEncode answerBufferSize c.trustAnchor
  let content := N.dataSetContent encoder
  (c, [.data (N.dataTlvEncodeHmacSign answerBufferSize c.staticInterest content c.hmacKey)])

/-- `on_interest_2`. -/
def onInterest2 : SignOnController × List SignOnPacket :=
  let (_, staticInterest) := N.interestFromBlock c.staticInterest interest
  let c := { c with staticInterest }
  let encoder := N.dataTlvEncode answerBufferSize c.selfCert
  let encoder := N.encoderAppendRawBufferValue answerBufferSize encoder (List.replicate 32 0)
  let content := N.dataSetContent encoder
  (c, [.data (N.dataTlvEncodeHmacSign answerBufferSize c.staticInterest content c.hmacKey)])

/-- The forwarder gives an Interest to the handler of its prefix. -/
def receive : Option (SignOnController × List SignOnPacket) :=
  if ["ndn"] <+: interest.name then some (c.onInterest1 N interest)
  else if ["ndn-iot"] <+: interest.name then some (c.onInterest2 N interest)
  else none

end SignOnController

/-! ## `bootstrap.c` -/

/-- The callbacks of the two Interests. -/
inductive OnData
  | onData1
  | onData2
  deriving DecidableEq, Repr

/-- A device: the key `hmac_key` points to, the HMAC keys of its key storage by their
ids, its ECDH key N1, the static digest, and the Interests it waits on. The source keeps
no `handled`; properties read there which calls each callback made. -/
structure SignOnDevice where
  hmacKey : List UInt8
  hmacKeys : List (UInt32 × List UInt8)
  dhPub : List UInt8
  trustAnchorSha : List UInt8
  pending : List (OnData × InterestPacket)
  handled : List (OnData × List BootCall)
  deriving DecidableEq, Repr

/-- What a call does with memory and the digest, if it gets bytes of the content. What
becomes of the calls behind the decode is a `Continuation`. -/
def BootCall.perform (N : NdnLite) (sha : List UInt8) : BootCall → Except Fault (List UInt8)
  | .ndnSha256 data datalen =>
      if datalen.toNat ≤ data.length then .ok (N.sha256 (data.take datalen.toNat))
      else .error (.readBeyond datalen.toNat data.length)
  | .ndnDataTlvDecodeNoVerify blockValue blockSize =>
      if blockSize.toNat ≤ blockValue.length then .ok sha
      else .error (.readBeyond blockSize.toNat blockValue.length)
  | .ndnEccPubInit _ | .ndnKeyStorageGetEmptyAesKey => .ok sha

/-- The callback got past the decoding of the certificate. -/
def BootCall.IsBehindDecode : BootCall → Prop
  | .ndnEccPubInit _ | .ndnKeyStorageGetEmptyAesKey => True
  | .ndnSha256 _ _ | .ndnDataTlvDecodeNoVerify _ _ => False

instance : DecidablePred BootCall.IsBehindDecode
  | .ndnEccPubInit _ | .ndnKeyStorageGetEmptyAesKey => isTrue trivial
  | .ndnSha256 _ _ | .ndnDataTlvDecodeNoVerify _ _ => isFalse id

/-- How a callback ends that got past the decoding: in a fault of the cryptography (the
first call of it in `on_data_1` takes the length of the certificate for the size of a key),
without a second Interest, or with one. -/
inductive Continuation
  | fault
  | returned
  | expressed
  deriving DecidableEq, Repr

/-- The fault a device ends with: in a read of the content or of a key that is missing, or
behind the decoding, when the callback had made these calls. -/
inductive SignOnFault
  | read (fault : Fault)
  | behindDecode (callback : OnData) (calls : List BootCall)
  deriving DecidableEq, Repr

/-- What the environment chooses when a device receives a packet: the pending Interest
that is satisfied, the key left in `controller_dh_pub`, and how the callback ends. -/
structure SignOnReception where
  entry : Nat
  controllerDhPub : List UInt8
  continuation : Continuation
  deriving DecidableEq, Repr

namespace SignOnDevice

variable (N : NdnLite)

/-- The memory of a device before `main`. -/
def off : SignOnDevice := ⟨[], [], [], List.replicate ndnSecSha256HashSize 0, [], []⟩

/-- An Interest that a device expresses. -/
def interest (name : Name) (parameters : List SignOnField) : InterestPacket :=
  ⟨N.interestName name parameters, parameters⟩

/-- The parameters of the second Interest. -/
def parameters2 (controllerDhPub trustAnchorSha dhPub : List UInt8) : List SignOnField :=
  [.identifier "identifier-20", .n2EcdhPub controllerDhPub, .anchorDigest trustAnchorSha,
    .n1EcdhPub dhPub]

/-- `main`, with the key that `ndn_ecc_make_key` makes, up to its loop. -/
def main (dhPub : List UInt8) : SignOnDevice × List SignOnPacket :=
  let interest := interest N ["ndn", "sign-on"]
    [.identifier "identifier-20", .capabilities [N.ndnSdTemp], .n1EcdhPub dhPub]
  ({ off with
      hmacKey := hmacKeyBytes
      hmacKeys := [(2, hmacKeyBytes)]
      dhPub
      pending := [(.onData1, interest)] },
    [.interest interest])

/-- `on_data_1`. -/
def onData1 (how : SignOnReception) (packet : DataPacket) (d : SignOnDevice) :
    Except SignOnFault (SignOnDevice × List SignOnPacket) :=
  let calls := NdnRiot.onData1 N.toNdnTlv (N.dataTlvDecodeHmacVerify packet d.hmacKey)
  match calls.foldlM (BootCall.perform N) d.trustAnchorSha with
  | .error fault => .error (.read fault)
  | .ok sha =>
      let d := { d with trustAnchorSha := sha, handled := d.handled ++ [(.onData1, calls)] }
      if ∃ call ∈ calls, call.IsBehindDecode then
        match how.continuation with
        | .fault => .error (.behindDecode .onData1 calls)
        | .returned => .ok (d, [])
        | .expressed =>
            let interest := interest N ["ndn-iot", "cert"]
              (parameters2 how.controllerDhPub d.trustAnchorSha d.dhPub)
            .ok ({ d with pending := d.pending ++ [(.onData2, interest)] },
              [.interest interest])
      else .ok (d, [])

/-- `on_data_2`. -/
def onData2 (how : SignOnReception) (packet : DataPacket) (d : SignOnDevice) :
    Except SignOnFault (SignOnDevice × List SignOnPacket) :=
  match d.hmacKeys.lookup 2 with
  | none => .error (.read .nullDereference)
  | some key =>
      let calls := NdnRiot.onData2 N.toNdnTlv (N.dataTlvDecodeHmacVerify packet key)
      match calls.foldlM (BootCall.perform N) d.trustAnchorSha with
      | .error fault => .error (.read fault)
      | .ok sha =>
          if (∃ call ∈ calls, call.IsBehindDecode) ∧ how.continuation = .fault then
            .error (.behindDecode .onData2 calls)
          else
            .ok ({ d with
              trustAnchorSha := sha
              handled := d.handled ++ [(.onData2, calls)] }, [])

/-- The forwarder gives a Data packet to the callback of a pending Interest, if it is
under the name of the Interest. -/
def receive (how : SignOnReception) (packet : DataPacket) (d : SignOnDevice) :
    Option (Except SignOnFault (SignOnDevice × List SignOnPacket)) :=
  match d.pending[how.entry]? with
  | none => none
  | some (callback, interest) =>
      if interest.name <+: packet.name then
        let d := { d with pending := d.pending.eraseIdx how.entry }
        match callback with
        | .onData1 => some (d.onData1 N how packet)
        | .onData2 => some (d.onData2 N how packet)
      else none

end SignOnDevice

/-! ## A documented ndn-lite -/

/-- The documentation, read as code, with buffers that are large enough for the packets.
Of SHA-256 it has the digests of two certificates. -/
def referenceNdnLite : NdnLite where
  toNdnTlv := referenceTlv
  dataTlvEncode size value :=
    if (certificateBytes value).length ≤ size then certificateBytes value else []
  encoderAppendRawBufferValue size written raw :=
    if written.length + raw.length ≤ size then written ++ raw else written
  dataSetContent content := content
  dataTlvEncodeHmacSign _ name content key := ⟨name, content, some key⟩
  dataTlvDecodeHmacVerify packet key :=
    if packet.signedWith = some key then some packet.content else none
  interestFromBlock _ interest := (ndnSuccess, interest.name)
  sha256 data :=
    if data = [6, 3, 7, 1, 1] then
      [102, 83, 171, 168, 90, 36, 145, 68, 69, 194, 138, 183, 223, 190, 52, 149, 133, 99, 220,
        8, 128, 217, 252, 51, 41, 177, 179, 107, 192, 136, 88, 106]
    else if data = [6, 3, 7, 1, 2] then
      [144, 165, 196, 139, 79, 238, 120, 176, 82, 191, 97, 82, 107, 56, 71, 198, 117, 23, 25,
        190, 251, 35, 120, 91, 29, 216, 49, 182, 189, 183, 51, 205]
    else []
  interestName name _ := name ++ ["params-sha256"]
  ndnSdTemp := 1

theorem referenceNdnLite_documented : referenceNdnLite.Documented where
  toDocumented := referenceTlv_documented
  dataTlvEncode _ _ hfit := if_pos hfit
  encoderAppendRawBufferValue _ _ _ := rfl
  dataSetContent _ := .inl rfl
  dataTlvEncodeHmacSign _ _ _ _ := .inl rfl
  dataTlvDecodeHmacVerify packet key content h := by
    obtain ⟨hsigned, hcontent⟩ := Option.ite_none_right_eq_some.mp h
    exact ⟨hsigned, Option.some.inj hcontent⟩
  interestFromBlock _ _ _ := rfl
  interestName name _ := List.prefix_append name _

/-! ## The network -/

/-- A device, a controller, or anybody else. A device ends with its first fault. -/
inductive SignOnNode
  | device (state : Except SignOnFault SignOnDevice)
  | controller (state : SignOnController)
  | other

/-- What a node does by itself: a device starts, or gives an Interest up; the others put
whatever they like on the network. -/
inductive SignOnAction
  | main (dhPub : List UInt8)
  | timeout (entry : Nat)
  | inject (packet : SignOnPacket)
  deriving DecidableEq, Repr

namespace SignOnNode

variable (N : NdnLite)

def act : SignOnAction → SignOnNode → Option (SignOnNode × List SignOnPacket)
  | .main dhPub, device _ =>
      let (d, out) := SignOnDevice.main N dhPub
      some (device (.ok d), out)
  | .timeout entry, device (.ok d) =>
      some (device (.ok { d with pending := d.pending.eraseIdx entry }), [])
  | .inject packet, other => some (other, [packet])
  | _, _ => none

def receive (how : SignOnReception) :
    SignOnPacket → SignOnNode → Option (SignOnNode × List SignOnPacket)
  | .interest packet, controller c =>
      (c.receive N packet).map fun (c, out) => (controller c, out)
  | .data packet, device (.ok d) =>
      (d.receive N how packet).map fun
        | .error fault => (device (.error fault), [])
        | .ok (d, out) => (device (.ok d), out)
  | _, _ => none

end SignOnNode

def signOnProgram (N : NdnLite) (ν : Type*) :
    Medium.Program ν SignOnNode SignOnPacket SignOnAction SignOnReception where
  act _ a node := node.act N a
  receive _ how packet node := node.receive N how packet

/-- Devices, controllers and others, and what they sent. -/
abbrev SignOnNet (ν : Type*) := Medium.Net ν SignOnNode SignOnPacket

/-- What happens on the network. -/
abbrev SignOnEvent (ν : Type*) := Medium.Event ν SignOnPacket SignOnAction SignOnReception

end NdnRiot
