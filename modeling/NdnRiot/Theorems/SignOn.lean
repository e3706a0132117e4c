import NdnRiot.Model.SignOn
import NdnRiot.Theorems.BootstrapContent

/-!
# Agreement of the sign-on

Packets are lost, duplicated, delayed and replayed, anybody may inject what it likes but
signatures of the shared key, and devices start again at any time. A controller signs
the trust anchor under `/ndn` and its certificate under `/ndn-iot`, and a device looks
for each under the name it asked for. So a device takes for the trust anchor only the
trust anchor of a controller (`signOn_agreement`).

This rests on every Interest that a controller handles being decoded. Where
`ndn_interest_from_block` fails, the answer goes out under the name it left in the static
packet, whatever that is, and a device may take one certificate for the other; still every
device hashes and decodes exactly one certificate of a controller and never reads beyond a
content (`signOn_confined`).

Behind the decoding a device may fail in ways that are ndn-lite's: `ndn_ecc_pub_init` gets
the length of the certificate as the size of a key.
-/

namespace NdnRiot

/-! ## The callbacks -/

/-- The content starts with the certificate. -/
def CertificateFirst (value content : List UInt8) : Prop :=
  content.length ≤ uint32Max ∧ ∃ rest, content = certificateBytes value ++ rest

/-- Every hash and decode of the calls is of the bytes of the certificate, the value of
which gives the size of the key. -/
structure ReadsCertificate (value : List UInt8) (calls : List BootCall) : Prop where
  bytes : ∀ call ∈ calls, ∀ input size, call.read? = some (input, size) →
    size.toNat ≤ input.length ∧ input.take size.toNat = certificateBytes value
  keySize : ∀ size, .ndnEccPubInit size ∈ calls → size.toNat = value.length

/-- No call is made. -/
theorem ReadsCertificate.nil (value : List UInt8) : ReadsCertificate value [] where
  bytes := by simp
  keySize := by simp

/-- The certificate as the first element of such a content. -/
theorem CertificateFirst.element {value content : List UInt8}
    (h : CertificateFirst value content) :
    Tlv.readElement content = some ⟨tlvData.toNat, Tlv.shortestSize tlvData.toNat,
      value.length, Tlv.shortestSize value.length⟩ ∧ value.length < UInt32.size := by
  obtain ⟨hsize, rest, rfl⟩ := h
  simp only [certificateBytes, Tlv.writeElement, List.length_append] at hsize
  have hvalue : value.length < UInt32.size := by
    unfold uint32Max at hsize
    rw [show UInt32.size = 4294967296 from rfl]
    omega
  exact ⟨Tlv.readElement_writeElement (by decide) (Nat.lt_trans hvalue (by decide)) rest, hvalue⟩

/-- The first element of such a content is the certificate. -/
theorem CertificateFirst.take {value content : List UInt8} (h : CertificateFirst value content)
    {n : Nat} (hfirst : FirstElement content n) : content.take n = certificateBytes value := by
  obtain ⟨helement, _⟩ := h.element
  obtain ⟨hsize, rest, rfl⟩ := h
  have hn := hfirst.2
  rw [helement] at hn
  have hlength : n = (certificateBytes value).length := by
    rw [← Option.some.inj hn]
    simp [certificateBytes, Tlv.writeElement, Tlv.Element.size, Nat.add_assoc]
  rw [hlength, List.take_left]

section Callbacks

variable {N : NdnLite} (hN : N.Documented) {value content : List UInt8}

include hN

/-- The block that the handlers take is the certificate. -/
theorem CertificateFirst.block (h : CertificateFirst value content)
    (htype : N.typeOf content = tlvData) :
    (N.blockSize content).toNat ≤ content.length ∧
      content.take (N.blockSize content).toNat = certificateBytes value := by
  obtain ⟨hsize, rest, hcontent⟩ := h
  have hfirst := (N.blockSize_firstElement_iff hN.toDocumented hsize htype).mpr
    ⟨value, rest, hcontent⟩
  exact ⟨hfirst.1, CertificateFirst.take ⟨hsize, rest, hcontent⟩ hfirst⟩

/-- The number that the handlers take for its length is its length. -/
theorem CertificateFirst.length (h : CertificateFirst value content)
    (htype : N.typeOf content = tlvData) : (N.lengthOf content).toNat = value.length := by
  obtain ⟨helement, hvalue⟩ := h.element
  have hroom := (Tlv.readElement_eq_some.mp helement).2.2
  rcases N.lengthOf_cases hN.toDocumented htype helement (Nat.le_trans hroom h.1) with
    hlength | ⟨_, hnine⟩
  · exact hlength
  · -- so long a form would be for a certificate of 2³² bytes
    have hbig := Tlv.le_of_shortestSize_eq_nine hnine
    rw [show UInt32.size = 4294967296 from rfl] at hvalue
    exact absurd hvalue (Nat.not_lt_of_le hbig)

/-- The decoder that `on_data_1` hashes the input of was set on the content. -/
theorem inputValue_eq : (N.decoderGetLength (N.behindType content) tlvData).2.1.inputValue =
    content := by
  rw [hN.getLength.inputValue, NdnTlv.behindType, hN.getType.inputValue, hN.decoderInit]

/-- An empty content ends both handlers at the test of the type. -/
theorem onData_nil : onData1 N.toNdnTlv (some []) = [] ∧ onData2 N.toNdnTlv (some []) = [] := by
  have htype : N.typeOf [] ≠ tlvData := by
    have hkept := (hN.getType.short ⟨[], 0⟩ 0 rfl).2
    rw [NdnTlv.typeOf, hN.decoderInit, hkept]
    decide
  rw [onData1_eq, onData2_eq, if_neg htype, if_neg htype]
  exact ⟨rfl, rfl⟩

/-- `on_data_1` reads the certificate, and leaves its digest unless it returned at once. -/
theorem onData1_certificate (h : CertificateFirst value content) (sha : List UInt8) :
    ReadsCertificate value (onData1 N.toNdnTlv (some content)) ∧
    ∃ sha', (onData1 N.toNdnTlv (some content)).foldlM (BootCall.perform N) sha = .ok sha' ∧
      ((onData1 N.toNdnTlv (some content) = [] ∧ sha' = sha) ∨
        sha' = N.sha256 (certificateBytes value)) := by
  rw [onData1_eq, inputValue_eq hN]
  by_cases htype : N.typeOf content = tlvData
  · obtain ⟨hroom, htake⟩ := h.block hN htype
    have hhash : BootCall.perform N sha (.ndnSha256 content (N.blockSize content)) =
        .ok (N.sha256 (certificateBytes value)) := by
      rw [BootCall.perform, if_pos hroom, htake]
    have hdecode (sha : List UInt8) : BootCall.perform N sha
        (.ndnDataTlvDecodeNoVerify content (N.blockSize content)) = .ok sha := if_pos hroom
    rw [if_pos htype]
    refine ⟨⟨?_, ?_⟩, N.sha256 (certificateBytes value), ?_, .inr rfl⟩
    · intro call hcall input size hread
      split_ifs at hcall <;> simp only [List.mem_append, List.mem_cons, List.not_mem_nil,
        or_false] at hcall
      · rcases hcall with (rfl | rfl) | rfl <;> cases hread <;> exact ⟨hroom, htake⟩
      · rcases hcall with rfl | rfl <;> cases hread <;> exact ⟨hroom, htake⟩
    · intro size hsize
      split_ifs at hsize
      · obtain rfl : size = N.lengthOf content := by simpa using hsize
        exact h.length hN htype
      · simp at hsize
    · simp only [List.cons_append, List.nil_append, List.foldlM_cons, hhash]
      show (BootCall.perform N _ (.ndnDataTlvDecodeNoVerify content _) >>= _) = _
      rw [hdecode]
      split_ifs <;> rfl
  · rw [if_neg htype]
    exact ⟨.nil value, sha, rfl, .inl ⟨rfl, rfl⟩⟩

/-- `on_data_2` reads the certificate, and leaves the digest alone. -/
theorem onData2_certificate (h : CertificateFirst value content) (sha : List UInt8) :
    ReadsCertificate value (onData2 N.toNdnTlv (some content)) ∧
      (onData2 N.toNdnTlv (some content)).foldlM (BootCall.perform N) sha = .ok sha := by
  rw [onData2_eq]
  by_cases htype : N.typeOf content = tlvData
  · obtain ⟨hroom, htake⟩ := h.block hN htype
    have hdecode : BootCall.perform N sha
        (.ndnDataTlvDecodeNoVerify content (N.blockSize content)) = .ok sha := if_pos hroom
    rw [if_pos htype]
    refine ⟨⟨?_, ?_⟩, ?_⟩
    · intro call hcall input size hread
      split_ifs at hcall <;> simp only [List.mem_append, List.mem_cons, List.not_mem_nil,
        or_false] at hcall
      · rcases hcall with rfl | rfl
        · cases hread
          exact ⟨hroom, htake⟩
        · cases hread
      · subst hcall
        cases hread
        exact ⟨hroom, htake⟩
    · intro size hsize
      split_ifs at hsize <;> simp at hsize
    · simp only [List.cons_append, List.nil_append, List.foldlM_cons, hdecode]
      split_ifs <;> rfl
  · rw [if_neg htype]
    exact ⟨.nil value, rfl⟩

end Callbacks

/-! ## What controllers sign -/

section Network

variable {ν : Type*}

/-- The trust anchor of a controller of the network. -/
def IsTrustAnchor (net : SignOnNet ν) (value : List UInt8) : Prop :=
  ∃ n c, net.nodes n = .controller c ∧ c.trustAnchor = value

/-- The certificate of a controller of the network. -/
def IsSelfCert (net : SignOnNet ν) (value : List UInt8) : Prop :=
  ∃ n c, net.nodes n = .controller c ∧ c.selfCert = value

/-- The content is nothing, or starts with a certificate of the kind. -/
def Offers (certificate : List UInt8 → Prop) (content : List UInt8) : Prop :=
  content = [] ∨ ∃ value, certificate value ∧ CertificateFirst value content

/-- A packet signed with the shared key is from a controller, and if Interests are all
decoded its name tells which certificate it offers. -/
def Issued (net : SignOnNet ν) (decoded : Prop) : SignOnPacket → Prop
  | .interest _ => True
  | .data packet => packet.signedWith = some hmacKeyBytes →
      (Offers (IsTrustAnchor net) packet.content ∧ (decoded → ["ndn"] <+: packet.name)) ∨
        (Offers (IsSelfCert net) packet.content ∧ (decoded → ["ndn-iot"] <+: packet.name))

/-- `ndn_interest_from_block` succeeds on the Interest. -/
def NdnLite.Decodes (N : NdnLite) (interest : InterestPacket) : Prop :=
  ∀ name, (N.interestFromBlock name interest).1 = ndnSuccess

/-- The certificates of the controllers fit their buffer. -/
def CertificatesFit (net : SignOnNet ν) : Prop :=
  ∀ value, IsTrustAnchor net value ∨ IsSelfCert net value →
    (certificateBytes value).length ≤ answerBufferSize

section Controller

variable {N : NdnLite} (hN : N.Documented) {net : SignOnNet ν} {decoded : Prop}

include hN

/-- What is set as the content starts with the certificate. -/
theorem offers_setContent {certificate : List UInt8 → Prop} {value rest : List UInt8}
    (hvalue : certificate value)
    (hsize : (certificateBytes value ++ rest).length ≤ uint32Max) :
    Offers certificate (N.dataSetContent (certificateBytes value ++ rest)) := by
  rcases hN.dataSetContent (certificateBytes value ++ rest) with hset | hset
  · exact .inr ⟨value, hvalue, by rw [hset]; exact ⟨hsize, rest, rfl⟩⟩
  · exact .inl hset

/-- A packet that bears a signature is the one that was to be signed. -/
theorem signed_eq {size : Nat} {name : Name} {content key key' : List UInt8}
    (h : (N.dataTlvEncodeHmacSign size name content key).signedWith = some key') :
    (N.dataTlvEncodeHmacSign size name content key).name = name ∧
      (N.dataTlvEncodeHmacSign size name content key).content = content := by
  rcases hN.dataTlvEncodeHmacSign size name content key with hpacket | hnone
  · rw [hpacket]
    exact ⟨rfl, rfl⟩
  · rw [hnone] at h
    cases h

/-- What `on_interest_1` puts on the network. -/
theorem issued_onInterest1 (hfit : CertificatesFit net) {c : SignOnController}
    (hanchor : IsTrustAnchor net c.trustAnchor) {interest : InterestPacket}
    (hdecodes : decoded → N.Decodes interest) (hname : ["ndn"] <+: interest.name) :
    ∀ m ∈ (c.onInterest1 N interest).2, Issued net decoded m := by
  intro m hm
  rw [SignOnController.onInterest1, List.mem_singleton] at hm
  subst hm
  intro hsigned
  obtain ⟨hunder, hcontent⟩ := signed_eq hN hsigned
  have hbytes := hfit _ (.inl hanchor)
  left
  rw [hunder, hcontent]
  constructor
  · show Offers _ (N.dataSetContent (N.dataTlvEncode _ c.trustAnchor))
    rw [hN.dataTlvEncode _ _ hbytes, ← List.append_nil (certificateBytes _)]
    refine offers_setContent hN hanchor ?_
    rw [List.append_nil]
    exact Nat.le_trans hbytes (by decide)
  · intro hdec
    show _ <+: (N.interestFromBlock c.staticInterest interest).2
    rw [hN.interestFromBlock _ _ (hdecodes hdec c.staticInterest)]
    exact hname

/-- What `on_interest_2` puts on the network: 32 bytes follow the certificate, if they
fit. -/
theorem issued_onInterest2 (hfit : CertificatesFit net) {c : SignOnController}
    (hcert : IsSelfCert net c.selfCert) {interest : InterestPacket}
    (hdecodes : decoded → N.Decodes interest) (hname : ["ndn-iot"] <+: interest.name) :
    ∀ m ∈ (c.onInterest2 N interest).2, Issued net decoded m := by
  intro m hm
  rw [SignOnController.onInterest2, List.mem_singleton] at hm
  subst hm
  intro hsigned
  obtain ⟨hunder, hcontent⟩ := signed_eq hN hsigned
  have hbytes := hfit _ (.inr hcert)
  right
  rw [hunder, hcontent]
  constructor
  · show Offers _ (N.dataSetContent (N.encoderAppendRawBufferValue _
      (N.dataTlvEncode _ c.selfCert) (List.replicate 32 0)))
    obtain ⟨rest, hrest, hwritten⟩ : ∃ rest : List UInt8, rest.length ≤ 32 ∧
        N.encoderAppendRawBufferValue answerBufferSize
          (N.dataTlvEncode answerBufferSize c.selfCert) (List.replicate 32 0) =
            certificateBytes c.selfCert ++ rest := by
      rw [hN.dataTlvEncode _ _ hbytes, hN.encoderAppendRawBufferValue]
      split_ifs
      · exact ⟨List.replicate 32 0, by simp, rfl⟩
      · exact ⟨[], by simp, (List.append_nil _).symm⟩
    rw [hwritten]
    refine offers_setContent hN hcert ?_
    rw [List.length_append]
    unfold answerBufferSize at hbytes
    unfold uint32Max
    omega
  · intro hdec
    show _ <+: (N.interestFromBlock c.staticInterest interest).2
    rw [hN.interestFromBlock _ _ (hdecodes hdec c.staticInterest)]
    exact hname

end Controller

/-! ## What devices take -/

/-- The first component of the name of the Interest that the callback is for. -/
def OnData.root : OnData → String
  | .onData1 => "ndn"
  | .onData2 => "ndn-iot"

/-- The certificates a callback may read: the right one, and the other one too if not all
Interests are decoded. -/
def Taken (net : SignOnNet ν) (decoded : Prop) (value : List UInt8) : OnData → Prop
  | .onData1 => IsTrustAnchor net value ∨ ¬ decoded ∧ IsSelfCert net value
  | .onData2 => IsSelfCert net value ∨ ¬ decoded ∧ IsTrustAnchor net value

/-- The calls of a callback read nothing, or one certificate it may read. -/
def ReadsTaken (net : SignOnNet ν) (decoded : Prop) (callback : OnData)
    (calls : List BootCall) : Prop :=
  calls = [] ∨ ∃ value, Taken net decoded value callback ∧ ReadsCertificate value calls

/-- Calls that are made read a certificate. -/
theorem ReadsTaken.of_mem {net : SignOnNet ν} {decoded : Prop} {callback : OnData}
    {calls : List BootCall} (h : ReadsTaken net decoded callback calls)
    (hmade : ∃ call ∈ calls, call.IsBehindDecode) :
    ∃ value, Taken net decoded value callback ∧ ReadsCertificate value calls := by
  refine h.resolve_left ?_
  rintro rfl
  simp at hmade

/-- A device knows digests of trust anchors only, and so do the Interests it expressed. -/
structure SignOnDevice.Authentic (N : NdnLite) (net : SignOnNet ν) (decoded : Prop)
    (d : SignOnDevice) : Prop where
  keys : d.pending = [] ∨
    d.hmacKey = hmacKeyBytes ∧ d.hmacKeys.lookup 2 = some hmacKeyBytes
  digest : d.trustAnchorSha = List.replicate ndnSecSha256HashSize 0 ∨
    ∃ value, Taken net decoded value .onData1 ∧
      d.trustAnchorSha = N.sha256 (certificateBytes value)
  pending : ∀ callback i, (callback, i) ∈ d.pending → [callback.root] <+: i.name
  second : ∀ i, (.onData2, i) ∈ d.pending → ∃ value n2, Taken net decoded value .onData1 ∧
    i.parameters = SignOnDevice.parameters2 n2 (N.sha256 (certificateBytes value)) d.dhPub
  handled : ∀ callback calls, (callback, calls) ∈ d.handled →
    ReadsTaken net decoded callback calls

/-- The device is authentic, or ended behind the decoding of what it may read. -/
def SoundDevice (N : NdnLite) (net : SignOnNet ν) (decoded : Prop) :
    Except SignOnFault SignOnDevice → Prop
  | .ok d => d.Authentic N net decoded
  | .error (.behindDecode callback calls) =>
      ∃ value, Taken net decoded value callback ∧ ReadsCertificate value calls
  | .error (.read _) => False

/-- What a callback leaves is sound, and so is what it sends. -/
def SoundResult (N : NdnLite) (net : SignOnNet ν) (decoded : Prop) :
    Except SignOnFault (SignOnDevice × List SignOnPacket) → Prop
  | .ok (d, out) => SoundDevice N net decoded (.ok d) ∧ ∀ m ∈ out, Issued net decoded m
  | .error fault => SoundDevice N net decoded (.error fault)

/-- Two names of one component that are prefixes of one name are the same. -/
theorem singleton_prefix_unique {a b : String} {name : Name} (ha : [a] <+: name)
    (hb : [b] <+: name) : a = b := by
  obtain ⟨_, rfl⟩ := ha
  exact ((List.cons_prefix_cons.mp hb).1).symm

/-- A signed packet under the name of a callback offers a certificate it may read. -/
theorem Issued.offers {net : SignOnNet ν} {decoded : Prop} {packet : DataPacket}
    (h : Issued net decoded (.data packet)) (hsigned : packet.signedWith = some hmacKeyBytes)
    {callback : OnData} (hname : [callback.root] <+: packet.name) :
    Offers (Taken net decoded · callback) packet.content := by
  have hwrong : ∀ other : OnData, callback ≠ other →
      (decoded → [other.root] <+: packet.name) → ¬ decoded := by
    intro other hne hunder hdec
    have hroot := singleton_prefix_unique hname (hunder hdec)
    cases callback <;> cases other <;> first | exact hne rfl | exact absurd hroot (by decide)
  rcases h hsigned with ⟨hoffers, hunder⟩ | ⟨hoffers, hunder⟩
  · refine hoffers.imp_right fun ⟨value, hvalue, hfirst⟩ => ⟨value, ?_, hfirst⟩
    cases callback with
    | onData1 => exact .inl hvalue
    | onData2 => exact .inr ⟨hwrong .onData1 (by decide) hunder, hvalue⟩
  · refine hoffers.imp_right fun ⟨value, hvalue, hfirst⟩ => ⟨value, ?_, hfirst⟩
    cases callback with
    | onData1 => exact .inr ⟨hwrong .onData2 (by decide) hunder, hvalue⟩
    | onData2 => exact .inl hvalue

section Device

variable {N : NdnLite} (hN : N.Documented) {net : SignOnNet ν} {decoded : Prop}
  {packet : DataPacket} (hissued : Issued net decoded (.data packet)) (sha : List UInt8)

include hN hissued

/-- What is verified offers a certificate that the callback may read. -/
theorem offers_of_verified (callback : OnData) (hname : [callback.root] <+: packet.name)
    {content : List UInt8} (hverify : N.dataTlvDecodeHmacVerify packet hmacKeyBytes = some content) :
    Offers (Taken net decoded · callback) content := by
  obtain ⟨hsigned, rfl⟩ := hN.dataTlvDecodeHmacVerify _ _ _ hverify
  exact hissued.offers hsigned hname

/-- The calls of `on_data_1`, and the digest they leave. -/
theorem onData1_taken (hname : ["ndn"] <+: packet.name) :
    let calls := onData1 N.toNdnTlv (N.dataTlvDecodeHmacVerify packet hmacKeyBytes)
    ReadsTaken net decoded .onData1 calls ∧
    ∃ sha', calls.foldlM (BootCall.perform N) sha = .ok sha' ∧
      ((calls = [] ∧ sha' = sha) ∨
        ∃ value, Taken net decoded value .onData1 ∧ sha' = N.sha256 (certificateBytes value)) := by
  cases hverify : N.dataTlvDecodeHmacVerify packet hmacKeyBytes with
  | none => exact ⟨.inl rfl, sha, rfl, .inl ⟨rfl, rfl⟩⟩
  | some content =>
      rcases offers_of_verified hN hissued .onData1 hname hverify with
        rfl | ⟨value, hvalue, hfirst⟩
      · rw [(onData_nil hN).1]
        exact ⟨.inl rfl, sha, rfl, .inl ⟨rfl, rfl⟩⟩
      · obtain ⟨hreads, sha', hfold, hsha⟩ := onData1_certificate hN hfirst sha
        exact ⟨.inr ⟨value, hvalue, hreads⟩, sha', hfold,
          hsha.imp_right fun hdigest => ⟨value, hvalue, hdigest⟩⟩

/-- The calls of `on_data_2` leave the digest alone. -/
theorem onData2_taken (hname : ["ndn-iot"] <+: packet.name) :
    let calls := onData2 N.toNdnTlv (N.dataTlvDecodeHmacVerify packet hmacKeyBytes)
    ReadsTaken net decoded .onData2 calls ∧
      calls.foldlM (BootCall.perform N) sha = .ok sha := by
  cases hverify : N.dataTlvDecodeHmacVerify packet hmacKeyBytes with
  | none => exact ⟨.inl rfl, rfl⟩
  | some content =>
      rcases offers_of_verified hN hissued .onData2 hname hverify with
        rfl | ⟨value, hvalue, hfirst⟩
      · rw [(onData_nil hN).2]
        exact ⟨.inl rfl, rfl⟩
      · obtain ⟨hreads, hfold⟩ := onData2_certificate hN hfirst sha
        exact ⟨.inr ⟨value, hvalue, hreads⟩, hfold⟩

/-- `on_data_1` keeps a device authentic, or ends it behind the decoding. -/
theorem SignOnDevice.Authentic.onData1 {d : SignOnDevice} (h : d.Authentic N net decoded)
    (hkeys : d.hmacKey = hmacKeyBytes ∧ d.hmacKeys.lookup 2 = some hmacKeyBytes)
    (hname : ["ndn"] <+: packet.name) (how : SignOnReception) :
    SoundResult N net decoded (d.onData1 N how packet) := by
  obtain ⟨hreads, sha', hfold, hsha⟩ := onData1_taken hN hissued d.trustAnchorSha hname
  have hhandled : ∀ callback calls, (callback, calls) ∈ d.handled ++
      [(.onData1, NdnRiot.onData1 N.toNdnTlv (N.dataTlvDecodeHmacVerify packet hmacKeyBytes))] →
      ReadsTaken net decoded callback calls := by
    intro callback calls hmem
    rcases List.mem_append.mp hmem with hmem | hmem
    · exact h.handled callback calls hmem
    · obtain ⟨rfl, rfl⟩ := Prod.mk.inj (List.mem_singleton.mp hmem)
      exact hreads
  have hdigest : sha' = List.replicate ndnSecSha256HashSize 0 ∨
      ∃ value, Taken net decoded value .onData1 ∧ sha' = N.sha256 (certificateBytes value) := by
    rcases hsha with ⟨_, rfl⟩ | hsha
    · exact h.digest
    · exact .inr hsha
  unfold SignOnDevice.onData1
  rw [hkeys.1]
  dsimp only
  rw [hfold]
  dsimp only
  split_ifs with hbehind
  · cases how.continuation with
    | fault => exact hreads.of_mem hbehind
    | returned => exact ⟨⟨.inr ⟨rfl, hkeys.2⟩, hdigest, h.pending, h.second, hhandled⟩, by simp⟩
    | expressed =>
        -- the second Interest names the digest of the certificate just hashed
        obtain ⟨call, hcall, _⟩ := hbehind
        obtain ⟨value, hvalue, rfl⟩ : ∃ value, Taken net decoded value .onData1 ∧
            sha' = N.sha256 (certificateBytes value) := by
          rcases hsha with ⟨hnil, _⟩ | hsha
          · rw [hnil] at hcall
            cases hcall
          · exact hsha
        refine ⟨⟨.inr ⟨rfl, hkeys.2⟩, hdigest, ?_, ?_, hhandled⟩, ?_⟩
        · intro callback i hmem
          rcases List.mem_append.mp hmem with hmem | hmem
          · exact h.pending callback i hmem
          · obtain ⟨rfl, rfl⟩ := Prod.mk.inj (List.mem_singleton.mp hmem)
            exact (List.prefix_append ["ndn-iot"] ["cert"]).trans (hN.interestName _ _)
        · intro i hmem
          rcases List.mem_append.mp hmem with hmem | hmem
          · exact h.second i hmem
          · obtain ⟨_, rfl⟩ := Prod.mk.inj (List.mem_singleton.mp hmem)
            exact ⟨value, how.controllerDhPub, hvalue, rfl⟩
        · intro m hm
          rw [List.mem_singleton.mp hm]
          trivial
  · exact ⟨⟨.inr ⟨rfl, hkeys.2⟩, hdigest, h.pending, h.second, hhandled⟩, by simp⟩

/-- So does `on_data_2`. -/
theorem SignOnDevice.Authentic.onData2 {d : SignOnDevice} (h : d.Authentic N net decoded)
    (hkeys : d.hmacKey = hmacKeyBytes ∧ d.hmacKeys.lookup 2 = some hmacKeyBytes)
    (hname : ["ndn-iot"] <+: packet.name) (how : SignOnReception) :
    SoundResult N net decoded (d.onData2 N how packet) := by
  obtain ⟨hreads, hfold⟩ := onData2_taken hN hissued d.trustAnchorSha hname
  unfold SignOnDevice.onData2
  rw [hkeys.2]
  dsimp only
  rw [hfold]
  dsimp only
  split_ifs with hfault
  · exact hreads.of_mem hfault.1
  · refine ⟨⟨h.keys, h.digest, h.pending, h.second, ?_⟩, by simp⟩
    intro callback calls hmem
    rcases List.mem_append.mp hmem with hmem | hmem
    · exact h.handled callback calls hmem
    · obtain ⟨rfl, rfl⟩ := Prod.mk.inj (List.mem_singleton.mp hmem)
      exact hreads

omit hN hissued in
/-- Giving up an Interest keeps it too. -/
theorem SignOnDevice.Authentic.timeout {d : SignOnDevice} (h : d.Authentic N net decoded)
    (entry : Nat) :
    ({ d with pending := d.pending.eraseIdx entry } : SignOnDevice).Authentic N net decoded where
  keys := h.keys.imp_left fun hnil => by rw [hnil]; rfl
  digest := h.digest
  pending callback i hmem := h.pending callback i (List.mem_of_mem_eraseIdx hmem)
  second i hmem := h.second i (List.mem_of_mem_eraseIdx hmem)
  handled := h.handled

/-- A device that receives a packet makes no fault up to the decoding. -/
theorem SignOnDevice.Authentic.receive {d : SignOnDevice} (h : d.Authentic N net decoded)
    {how : SignOnReception} {result : Except SignOnFault (SignOnDevice × List SignOnPacket)}
    (hrecv : d.receive N how packet = some result) : SoundResult N net decoded result := by
  unfold SignOnDevice.receive at hrecv
  split at hrecv
  · cases hrecv
  next callback i hentry =>
    have hmem := List.mem_of_getElem? hentry
    have hkeys := h.keys.resolve_left fun hnil => by simp [hnil] at hmem
    split_ifs at hrecv with hunder
    have hname := (h.pending callback i hmem).trans hunder
    have hwaiting := h.timeout how.entry
    cases callback with
    | onData1 =>
        obtain rfl := Option.some.inj hrecv
        exact hwaiting.onData1 hN hissued hkeys hname how
    | onData2 =>
        obtain rfl := Option.some.inj hrecv
        exact hwaiting.onData2 hN hissued hkeys hname how

end Device

/-! ## Every run -/

/-- The nodes before the first event. -/
def SignOnNode.Initial : SignOnNode → Prop
  | device state => state = .ok .off
  | controller _ | other => True

/-- A device is sound, and a controller keeps its certificates. -/
def SignOnNode.Sound (N : NdnLite) (net : SignOnNet ν) (decoded : Prop) (n : ν) :
    SignOnNode → Prop
  | device state => SoundDevice N net decoded state
  | controller c => ∃ c₀, net.nodes n = .controller c₀ ∧ c.trustAnchor = c₀.trustAnchor ∧
      c.selfCert = c₀.selfCert
  | other => True

/-- Nobody but the programs signs with the shared key. -/
def SignOnEvent.Unforged : SignOnEvent ν → Prop
  | .act _ (.inject (.data packet)) => packet.signedWith ≠ some hmacKeyBytes
  | _ => True

/-- An Interest that is received is decoded. -/
def SignOnEvent.Decodes (N : NdnLite) : SignOnEvent ν → Prop
  | .receive _ _ (.interest interest) => N.Decodes interest
  | _ => True

section Run

variable {N : NdnLite} (hN : N.Documented) {net : SignOnNet ν} {decoded : Prop}

omit N in
/-- An initial device is authentic. -/
theorem SignOnDevice.authentic_off (N : NdnLite) :
    SignOnDevice.off.Authentic N net decoded where
  keys := .inl rfl
  digest := .inl rfl
  pending := by simp [off]
  second := by simp [off]
  handled := by simp [off]

include hN

/-- So is one that starts. -/
theorem SignOnDevice.authentic_main (dhPub : List UInt8) :
    (SignOnDevice.main N dhPub).1.Authentic N net decoded where
  keys := .inr ⟨rfl, rfl⟩
  digest := .inl rfl
  pending callback i hmem := by
    obtain ⟨rfl, rfl⟩ := Prod.mk.inj (List.mem_singleton.mp hmem)
    exact (List.prefix_append ["ndn"] ["sign-on"]).trans (hN.interestName _ _)
  second i hmem := by cases (Prod.mk.inj (List.mem_singleton.mp hmem)).1
  handled := by simp [main, off]

/-- A controller that receives an Interest keeps its certificates, and what it puts on
the network is issued. -/
theorem SignOnController.sound_receive (hfit : CertificatesFit net) {n : ν}
    {c₀ c c' : SignOnController} (hnode : net.nodes n = .controller c₀)
    (hanchor : c.trustAnchor = c₀.trustAnchor) (hcert : c.selfCert = c₀.selfCert)
    {interest : InterestPacket} (hdecodes : decoded → N.Decodes interest)
    {out : List SignOnPacket} (hrecv : c.receive N interest = some (c', out)) :
    (∀ m ∈ out, Issued net decoded m) ∧ c'.trustAnchor = c₀.trustAnchor ∧
      c'.selfCert = c₀.selfCert := by
  unfold SignOnController.receive at hrecv
  split_ifs at hrecv with hndn hiot
  · have hissued := issued_onInterest1 hN hfit (c := c) ⟨n, c₀, hnode, hanchor.symm⟩
      hdecodes hndn
    obtain ⟨rfl, rfl⟩ := Prod.mk.inj (Option.some.inj hrecv)
    exact ⟨hissued, hanchor, hcert⟩
  · have hissued := issued_onInterest2 hN hfit (c := c) ⟨n, c₀, hnode, hcert.symm⟩
      hdecodes hiot
    obtain ⟨rfl, rfl⟩ := Prod.mk.inj (Option.some.inj hrecv)
    exact ⟨hissued, hanchor, hcert⟩

/-- **The step lemma.** -/
theorem signOnProgram_keeps (hfit : CertificatesFit net) :
    (signOnProgram N ν).Keeps (fun e => SignOnEvent.Unforged e ∧ (decoded → SignOnEvent.Decodes N e))
      (Issued net decoded) (fun n _ node => node.Sound N net decoded n) where
  grow _ _ _ _ h := h
  act n a air node node' out hG _ h hact := by
    cases node with
    | device state =>
        cases a with
        | main dhPub =>
            obtain ⟨rfl, rfl⟩ := Prod.mk.inj (Option.some.inj hact)
            refine ⟨?_, SignOnDevice.authentic_main hN dhPub⟩
            intro m hm
            rw [List.mem_singleton.mp hm]
            trivial
        | timeout entry =>
            cases state with
            | ok d =>
                obtain ⟨rfl, rfl⟩ := Prod.mk.inj (Option.some.inj hact)
                exact ⟨by simp, SignOnDevice.Authentic.timeout h entry⟩
            | error fault => cases hact
        | inject packet => cases hact
    | controller c => cases a <;> cases hact
    | other =>
        cases a with
        | inject packet =>
            obtain ⟨rfl, rfl⟩ := Prod.mk.inj (Option.some.inj hact)
            refine ⟨?_, trivial⟩
            intro m hm
            rw [List.mem_singleton.mp hm]
            cases packet with
            | interest _ => trivial
            | data packet => exact fun hsigned => absurd hsigned hG.1
        | main _ | timeout _ => cases hact
  receive n how packet air node node' out hG hgood h hair hrecv := by
    cases packet with
    | interest interest =>
        cases node with
        | controller c =>
            obtain ⟨c₀, hnode, hanchor, hcert⟩ := h
            obtain ⟨⟨c', out'⟩, hanswer, heq⟩ := Option.map_eq_some_iff.mp hrecv
            obtain ⟨rfl, rfl⟩ := Prod.mk.inj heq
            obtain ⟨hissued, hkept⟩ :=
              SignOnController.sound_receive hN hfit hnode hanchor hcert hG.2 hanswer
            exact ⟨hissued, c₀, hnode, hkept⟩
        | device state => cases state <;> cases hrecv
        | other => cases hrecv
    | data packet =>
        cases node with
        | device state =>
            cases state with
            | ok d =>
                obtain ⟨result, hcallback, heq⟩ := Option.map_eq_some_iff.mp hrecv
                have hsound := SignOnDevice.Authentic.receive hN (hgood _ hair) h hcallback
                cases result with
                | ok left =>
                    obtain ⟨rfl, rfl⟩ := Prod.mk.inj heq
                    exact ⟨hsound.2, hsound.1⟩
                | error fault =>
                    obtain ⟨rfl, rfl⟩ := Prod.mk.inj heq
                    exact ⟨by simp, hsound⟩
            | error fault => cases hrecv
        | controller _ | other => cases hrecv

variable (decoded) in
/-- **The run lemma.** Devices are sound after every run. -/
theorem signOn_sound [DecidableEq ν] (hinitial : ∀ n, (net.nodes n).Initial)
    (hfit : CertificatesFit net) (hquiet : net.air = []) {events : List (SignOnEvent ν)}
    (hunforged : ∀ e ∈ events, SignOnEvent.Unforged e)
    (hdecodes : decoded → ∀ e ∈ events, SignOnEvent.Decodes N e)
    {net' : SignOnNet ν} (hrun : (signOnProgram N ν).run net events = some net') {n : ν}
    {state : Except SignOnFault SignOnDevice} (hnode : net'.nodes n = .device state) :
    SoundDevice N net decoded state := by
  have hstart : Medium.Program.Invariant (Issued net decoded)
      (fun n _ node => node.Sound N net decoded n) net := by
    refine ⟨by simp [hquiet], fun m => ?_⟩
    have hm := hinitial m
    cases hkind : net.nodes m with
    | device state =>
        rw [hkind] at hm
        obtain rfl : state = .ok .off := hm
        exact SignOnDevice.authentic_off N
    | controller c => exact ⟨c, hkind, rfl, rfl⟩
    | other => trivial
  obtain ⟨_, hsound⟩ := (signOnProgram_keeps hN hfit).run hstart
    (fun e he => ⟨hunforged e he, fun hdec => hdecodes hdec e he⟩) hrun
  have h := hsound n
  rw [hnode] at h
  exact h

end Run

/-- The certificate of a controller that the callback is for. -/
def IsAsked (net : SignOnNet ν) : OnData → List UInt8 → Prop
  | .onData1 => IsTrustAnchor net
  | .onData2 => IsSelfCert net

/-- **Agreement.** Whatever is lost, repeated or injected without the shared key, in every
run in which controllers decode the Interests they handle, a device ends nowhere but behind
the decoding of a certificate; the digest it holds is that of the trust anchor of a
controller, the second Interest names such a digest, and a callback hashes and decodes
exactly the certificate it is for, the length of which is then the size of the key. -/
theorem signOn_agreement [DecidableEq ν] {N : NdnLite} (hN : N.Documented)
    {net net' : SignOnNet ν} {events : List (SignOnEvent ν)}
    (hinitial : ∀ n, (net.nodes n).Initial) (hfit : CertificatesFit net)
    (hquiet : net.air = []) (hunforged : ∀ e ∈ events, SignOnEvent.Unforged e)
    (hdecodes : ∀ e ∈ events, SignOnEvent.Decodes N e)
    (hrun : (signOnProgram N ν).run net events = some net') {n : ν}
    {state : Except SignOnFault SignOnDevice} (hnode : net'.nodes n = .device state) :
    (∀ fault, state = .error fault → ∃ callback calls value,
      fault = .behindDecode callback calls ∧ IsAsked net callback value ∧
        ReadsCertificate value calls) ∧
    ∀ d, state = .ok d →
      (d.trustAnchorSha = List.replicate ndnSecSha256HashSize 0 ∨
        ∃ value, IsTrustAnchor net value ∧
          d.trustAnchorSha = N.sha256 (certificateBytes value)) ∧
      (∀ i, (.onData2, i) ∈ d.pending → ∃ value n2, IsTrustAnchor net value ∧
        i.parameters = SignOnDevice.parameters2 n2 (N.sha256 (certificateBytes value)) d.dhPub) ∧
      ∀ callback calls, (callback, calls) ∈ d.handled →
        calls = [] ∨ ∃ value, IsAsked net callback value ∧ ReadsCertificate value calls := by
  have hsound := signOn_sound hN True hinitial hfit hquiet hunforged (fun _ => hdecodes) hrun hnode
  have hasked : ∀ callback value, Taken net True value callback → IsAsked net callback value := by
    intro callback value htaken
    cases callback with
    | onData1 => exact htaken.resolve_right fun h => h.1 trivial
    | onData2 => exact htaken.resolve_right fun h => h.1 trivial
  refine ⟨?_, ?_⟩
  · rintro (fault | ⟨callback, calls⟩) rfl
    · exact hsound.elim
    · obtain ⟨value, htaken, hreads⟩ := hsound
      exact ⟨callback, calls, value, rfl, hasked callback value htaken, hreads⟩
  · rintro d rfl
    have hauth : d.Authentic N net True := hsound
    refine ⟨?_, ?_, ?_⟩
    · exact hauth.digest.imp_right fun ⟨value, htaken, hsha⟩ =>
        ⟨value, hasked .onData1 value htaken, hsha⟩
    · intro i hi
      obtain ⟨value, n2, htaken, hparameters⟩ := hauth.second i hi
      exact ⟨value, n2, hasked .onData1 value htaken, hparameters⟩
    · intro callback calls hcalls
      exact (hauth.handled callback calls hcalls).imp_right fun ⟨value, htaken, hreads⟩ =>
        ⟨value, hasked callback value htaken, hreads⟩

/-- A device, a controller and somebody else. -/
inductive SignOnParty
  | device
  | controller
  | stranger
  deriving DecidableEq

/-- The network of the three. -/
def smallSignOn : SignOnNet SignOnParty where
  nodes
    | .device => .device (.ok .off)
    | .controller => .controller ⟨[7, 1, 1], [7, 1, 2], hmacKeyBytes, []⟩
    | .stranger => .other
  air := []

/-- The first Interest of the device. -/
def signOnInterest : InterestPacket :=
  SignOnDevice.interest referenceNdnLite ["ndn", "sign-on"]
    [.identifier "identifier-20", .capabilities [1], .n1EcdhPub [5]]

/-- The second Interest of the device. -/
def certInterest : InterestPacket :=
  SignOnDevice.interest referenceNdnLite ["ndn-iot", "cert"]
    (SignOnDevice.parameters2 [9] (referenceNdnLite.sha256 [6, 3, 7, 1, 1]) [5])

/-- The device receives a signed packet under the name of the Interest. -/
def deviceReceives (name : Name) (content : List UInt8) : SignOnEvent SignOnParty :=
  .receive .device ⟨0, [9], .expressed⟩ (.data ⟨name, content, some hmacKeyBytes⟩)

/-- The sign-on of the device, with a packet that is not signed in its way. -/
def signOnEvents : List (SignOnEvent SignOnParty) :=
  [.act .device (.main [5]),
    .act .stranger (.inject (.data ⟨signOnInterest.name, [6, 1, 9], none⟩)),
    .receive .controller ⟨0, [], .returned⟩ (.interest signOnInterest),
    deviceReceives signOnInterest.name [6, 3, 7, 1, 1],
    .receive .controller ⟨0, [], .returned⟩ (.interest certInterest),
    deviceReceives certInterest.name ([6, 3, 7, 1, 2] ++ List.replicate 32 0)]

theorem smallSignOn_initial : ∀ n, (smallSignOn.nodes n).Initial
  | .device => rfl
  | .controller => trivial
  | .stranger => trivial

theorem smallSignOn_fit : CertificatesFit smallSignOn := by
  have hone : ∀ n c, smallSignOn.nodes n = .controller c →
      c = ⟨[7, 1, 1], [7, 1, 2], hmacKeyBytes, []⟩ := by
    intro n c h
    match n with
    | .device | .stranger => cases h
    | .controller => exact (SignOnNode.controller.inj h).symm
  rintro value (⟨n, c, hnode, rfl⟩ | ⟨n, c, hnode, rfl⟩)
  · rw [hone n c hnode]
    decide
  · rw [hone n c hnode]
    decide

/-- The packet that is injected is not signed. -/
theorem signOnEvents_unforged : ∀ e ∈ signOnEvents, SignOnEvent.Unforged e := by
  intro e he
  simp only [signOnEvents, deviceReceives, List.mem_cons, List.not_mem_nil, or_false] at he
  rcases he with rfl | rfl | rfl | rfl | rfl | rfl
  case inr.inl => exact nofun
  all_goals trivial

/-- The device holds the digest of the trust anchor, and decoded the certificate. -/
theorem signOn_agreement_small :
    ∃ net' d, (signOnProgram referenceNdnLite SignOnParty).run smallSignOn signOnEvents = some net' ∧
      net'.nodes .device = .device (.ok d) ∧
      d.trustAnchorSha = referenceNdnLite.sha256 [6, 3, 7, 1, 1] ∧
      d.handled.map (fun (callback, calls) => (callback, calls.length)) =
        [(.onData1, 3), (.onData2, 2)] ∧
      (d.trustAnchorSha = List.replicate ndnSecSha256HashSize 0 ∨
        ∃ value, IsTrustAnchor smallSignOn value ∧
          d.trustAnchorSha = referenceNdnLite.sha256 (certificateBytes value)) ∧
      (∀ i, (.onData2, i) ∈ d.pending → ∃ value n2, IsTrustAnchor smallSignOn value ∧
        i.parameters = SignOnDevice.parameters2 n2
          (referenceNdnLite.sha256 (certificateBytes value)) d.dhPub) ∧
      ∀ callback calls, (callback, calls) ∈ d.handled →
        calls = [] ∨ ∃ value, IsAsked smallSignOn callback value ∧
          ReadsCertificate value calls := by
  have hdecodes : ∀ e ∈ signOnEvents, SignOnEvent.Decodes referenceNdnLite e := by
    intro e he
    simp only [signOnEvents, deviceReceives, List.mem_cons, List.not_mem_nil, or_false] at he
    rcases he with rfl | rfl | rfl | rfl | rfl | rfl
    all_goals first
      | trivial
      | exact fun _ => rfl
  have hrun : (signOnProgram referenceNdnLite SignOnParty).run smallSignOn signOnEvents =
    some _ := rfl
  have hagreement := (signOn_agreement referenceNdnLite_documented smallSignOn_initial
    smallSignOn_fit rfl signOnEvents_unforged hdecodes hrun (n := .device) rfl).2 _ rfl
  exact ⟨_, _, hrun, rfl, by decide, by decide, hagreement⟩

/-- **Confinement.** Even where Interests are not decoded, a device ends nowhere but behind
the decoding of a certificate, and all it hashes and decodes is one certificate of a
controller at a time. -/
theorem signOn_confined [DecidableEq ν] {N : NdnLite} (hN : N.Documented)
    {net net' : SignOnNet ν} {events : List (SignOnEvent ν)}
    (hinitial : ∀ n, (net.nodes n).Initial) (hfit : CertificatesFit net)
    (hquiet : net.air = []) (hunforged : ∀ e ∈ events, SignOnEvent.Unforged e)
    (hrun : (signOnProgram N ν).run net events = some net') {n : ν}
    {state : Except SignOnFault SignOnDevice} (hnode : net'.nodes n = .device state) :
    (∀ fault, state = .error fault → ∃ callback calls value,
      fault = .behindDecode callback calls ∧ (IsTrustAnchor net value ∨ IsSelfCert net value) ∧
        ReadsCertificate value calls) ∧
    ∀ d, state = .ok d →
      (d.trustAnchorSha = List.replicate ndnSecSha256HashSize 0 ∨
        ∃ value, (IsTrustAnchor net value ∨ IsSelfCert net value) ∧
          d.trustAnchorSha = N.sha256 (certificateBytes value)) ∧
      ∀ callback calls, (callback, calls) ∈ d.handled → calls = [] ∨
        ∃ value, (IsTrustAnchor net value ∨ IsSelfCert net value) ∧
          ReadsCertificate value calls := by
  have hsound := signOn_sound hN False hinitial hfit hquiet hunforged
    (fun hfalse => hfalse.elim) hrun hnode
  have hkind : ∀ value callback, Taken net False value callback →
      IsTrustAnchor net value ∨ IsSelfCert net value := by
    intro value callback htaken
    cases callback with
    | onData1 => exact htaken.imp_right And.right
    | onData2 => exact (htaken.imp_right And.right).symm
  refine ⟨?_, ?_⟩
  · rintro (fault | ⟨callback, calls⟩) rfl
    · exact hsound.elim
    · obtain ⟨value, htaken, hreads⟩ := hsound
      exact ⟨callback, calls, value, rfl, hkind value callback htaken, hreads⟩
  · rintro d rfl
    have hauth : d.Authentic N net False := hsound
    refine ⟨?_, ?_⟩
    · exact hauth.digest.imp_right fun ⟨value, htaken, hsha⟩ =>
        ⟨value, hkind value .onData1 htaken, hsha⟩
    · intro callback calls hcalls
      exact (hauth.handled callback calls hcalls).imp_right fun ⟨value, htaken, hreads⟩ =>
        ⟨value, hkind value callback htaken, hreads⟩

end Network

/-- A device that starts again, gets the answer to its first Interest once more, and ends
with the key it takes from there. -/
def replayEvents : List (SignOnEvent SignOnParty) :=
  [.act .device (.main [5]),
    .receive .controller ⟨0, [], .returned⟩ (.interest signOnInterest),
    deviceReceives signOnInterest.name [6, 3, 7, 1, 1],
    .act .device (.main [5]),
    .receive .device ⟨0, [], .fault⟩
      (.data ⟨signOnInterest.name, [6, 3, 7, 1, 1], some hmacKeyBytes⟩)]

/-- The device ended behind the decoding, with a key size of three. -/
theorem signOn_confined_replay :
    ∃ net' calls, (signOnProgram referenceNdnLite SignOnParty).run smallSignOn replayEvents =
        some net' ∧
      net'.nodes .device = .device (.error (.behindDecode .onData1 calls)) ∧
      .ndnEccPubInit 3 ∈ calls ∧
      ∃ value, (IsTrustAnchor smallSignOn value ∨ IsSelfCert smallSignOn value) ∧
        ReadsCertificate value calls := by
  have hunforged : ∀ e ∈ replayEvents, SignOnEvent.Unforged e := by
    intro e he
    simp only [replayEvents, deviceReceives, List.mem_cons, List.not_mem_nil, or_false] at he
    rcases he with rfl | rfl | rfl | rfl | rfl <;> trivial
  have hrun : (signOnProgram referenceNdnLite SignOnParty).run smallSignOn replayEvents =
    some _ := rfl
  obtain ⟨callback, calls, value, heq, hconfined⟩ := (signOn_confined referenceNdnLite_documented
    smallSignOn_initial smallSignOn_fit rfl hunforged hrun (n := .device) rfl).1 _ rfl
  obtain ⟨rfl, rfl⟩ := SignOnFault.behindDecode.inj heq
  exact ⟨_, _, hrun, rfl, by decide, value, hconfined⟩

end NdnRiot
