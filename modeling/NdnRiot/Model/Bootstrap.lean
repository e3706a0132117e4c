import NdnRiot.Lib.Tlv
import NdnRiot.Model.Netface

/-!
# `bootstrap.c`: the contents of the sign-on packets

`on_data_1` and `on_data_2` receive the two Data packets of the sign-on. Each
finds the size of the certificate at the start of the content from its decoded
length, and hands as many bytes of the content on. What a handler does after it
decoded the certificate computes with constants of the file; only the first call
of it is kept.

ndn-lite's decoder and encoder are parameters, an `NdnTlv`; what is relied on is
`NdnTlv.Documented`.
-/

namespace NdnRiot

/-- `TLV_Data`. -/
def tlvData : UInt32 := 6

/-- `ndn_decoder_t`. `input_size` is the length of the input. -/
structure Decoder where
  inputValue : List UInt8
  offset : UInt32
  deriving DecidableEq, Repr

/-- What is still to be decoded. -/
def Decoder.rest (d : Decoder) : List UInt8 := d.inputValue.drop d.offset.toNat

/-- The functions of ndn-lite the handlers parse with. A function with an output
variable takes the value it holds before the call and returns the one after. -/
structure NdnTlv where
  /-- `decoder_init(&decoder, block_value, block_size)`. -/
  decoderInit : List UInt8 → Decoder
  /-- `decoder_get_type(&decoder, &type)`. -/
  decoderGetType : Decoder → UInt32 → Int × Decoder × UInt32
  /-- `decoder_get_length(&decoder, &length)`. -/
  decoderGetLength : Decoder → UInt32 → Int × Decoder × UInt32
  /-- `encoder_probe_block_size(type, payload_size)`. -/
  encoderProbeBlockSize : UInt32 → UInt32 → UInt32
  /-- The result of `ndn_data_tlv_decode_no_verify` on so many bytes. -/
  dataTlvDecodeNoVerify : List UInt8 → UInt32 → Int

/-- A decoder function that reads one number of variable size. -/
structure ReadsNumber (get : Decoder → UInt32 → Int × Decoder × UInt32) : Prop where
  inputValue : ∀ d var, (get d var).2.1.inputValue = d.inputValue
  /-- A number of up to 32 bits is read, in whatever form it is. -/
  complete : ∀ d var n size, Tlv.readNumber d.rest = some (n, size) → size ≤ 5 →
    get d var = (ndnSuccess, { d with offset := d.offset + UInt32.ofNat size }, UInt32.ofNat n)
  /-- The form of nine bytes is read into the 32 bits of the output, or refused. -/
  wide : ∀ d var n, Tlv.readNumber d.rest = some (n, 9) →
    get d var = (ndnSuccess, { d with offset := d.offset + 9 }, UInt32.ofNat n) ∨
      ((get d var).1 ≠ ndnSuccess ∧ (get d var).2.2 = var)
  /-- An input that ends inside the number is an error. -/
  short : ∀ d var, Tlv.readNumber d.rest = none →
    (get d var).1 ≠ ndnSuccess ∧ (get d var).2.2 = var

/-- A number is read, or the output variable keeps its value; then the input ended
inside the number or held the form of nine bytes. -/
theorem ReadsNumber.cases {get : Decoder → UInt32 → Int × Decoder × UInt32}
    (hget : ReadsNumber get) (d : Decoder) (var : UInt32) :
    (∃ n size, Tlv.readNumber d.rest = some (n, size) ∧
      get d var = (ndnSuccess, { d with offset := d.offset + UInt32.ofNat size },
        UInt32.ofNat n)) ∨
    ((get d var).2.2 = var ∧ ∀ n size, Tlv.readNumber d.rest = some (n, size) → size = 9) := by
  cases hread : Tlv.readNumber d.rest with
  | none => exact .inr ⟨(hget.short d var hread).2, fun n size h => by cases h⟩
  | some read =>
      obtain ⟨n, size⟩ := read
      by_cases hnarrow : size ≤ 5
      · exact .inl ⟨n, size, rfl, hget.complete d var n size hread hnarrow⟩
      · obtain rfl : size = 9 := by
          have hforms := Tlv.readNumber_size hread
          omega
        rcases hget.wide d var n hread with hwide | ⟨_, hkept⟩
        · exact .inl ⟨n, 9, rfl, hwide⟩
        · refine .inr ⟨hkept, fun n' size' h => ?_⟩
          exact (Prod.mk.inj (Option.some.inj h)).2.symm

/-- What the handlers rely on. -/
structure NdnTlv.Documented (T : NdnTlv) : Prop where
  decoderInit : ∀ blockValue, T.decoderInit blockValue = ⟨blockValue, 0⟩
  getType : ReadsNumber T.decoderGetType
  getLength : ReadsNumber T.decoderGetLength
  /-- The shortest forms of type and length, and the length. -/
  probeBlockSize : ∀ type length : UInt32,
    Tlv.shortestSize type.toNat + Tlv.shortestSize length.toNat + length.toNat ≤ uint32Max →
    (T.encoderProbeBlockSize type length).toNat =
      Tlv.shortestSize type.toNat + Tlv.shortestSize length.toNat + length.toNat

/-! ## The handlers -/

/-- The calls that get bytes of the content, and the first one behind them. -/
inductive BootCall
  | ndnSha256 (data : List UInt8) (datalen : UInt32)
  | ndnDataTlvDecodeNoVerify (blockValue : List UInt8) (blockSize : UInt32)
  | ndnEccPubInit (keySize : UInt32)
  | ndnKeyStorageGetEmptyAesKey
  deriving DecidableEq, Repr

/-- `on_data_1`. `staticData` is the content of the packet, `none` where
`ndn_data_tlv_decode_hmac_verify` fails. -/
def onData1 (T : NdnTlv) (staticData : Option (List UInt8)) : List BootCall :=
  match staticData with
  | none => []
  | some content =>
      let probe : UInt32 := 0
      let decoder := T.decoderInit content
      -- the results of the two decoder functions are not looked at
      let (_, decoder, probe) := T.decoderGetType decoder probe
      if probe ≠ tlvData then []
      else
        let (_, decoder, probe) := T.decoderGetLength decoder probe
        let made := [.ndnSha256 decoder.inputValue (T.encoderProbeBlockSize tlvData probe),
          .ndnDataTlvDecodeNoVerify content (T.encoderProbeBlockSize tlvData probe)]
        if T.dataTlvDecodeNoVerify content (T.encoderProbeBlockSize tlvData probe) ≠ ndnSuccess
        then made
        else made ++ [.ndnEccPubInit probe]

/-- `on_data_2`. -/
def onData2 (T : NdnTlv) (staticData : Option (List UInt8)) : List BootCall :=
  match staticData with
  | none => []
  | some content =>
      let probe : UInt32 := 0
      let decoder := T.decoderInit content
      let (_, decoder, probe) := T.decoderGetType decoder probe
      if probe ≠ tlvData then []
      else
        let (_, decoder, probe) := T.decoderGetLength decoder probe
        -- nothing reads the decoder after this
        let _decoder := { decoder with offset := decoder.offset + probe }
        let made := [.ndnDataTlvDecodeNoVerify content (T.encoderProbeBlockSize tlvData probe)]
        if T.dataTlvDecodeNoVerify content (T.encoderProbeBlockSize tlvData probe) ≠ ndnSuccess
        then made
        else made ++ [.ndnKeyStorageGetEmptyAesKey]

/-! ## A documented decoder -/

/-- A decoder function that refuses what does not fit its output. -/
def Decoder.getNumber (d : Decoder) (var : UInt32) : Int × Decoder × UInt32 :=
  match Tlv.readNumber d.rest with
  | none => (-1, d, var)
  | some (n, size) =>
      if size ≤ 5 then
        (ndnSuccess, { d with offset := d.offset + UInt32.ofNat size }, UInt32.ofNat n)
      else (-1, d, var)

theorem getNumber_readsNumber : ReadsNumber Decoder.getNumber where
  inputValue d var := by
    unfold Decoder.getNumber
    cases Tlv.readNumber d.rest with
    | none => rfl
    | some read =>
        obtain ⟨n, size⟩ := read
        by_cases hsize : size ≤ 5 <;> simp [hsize]
  complete d var n size hread hsize := by
    rw [Decoder.getNumber, hread]
    exact if_pos hsize
  wide d var n hread := by
    rw [Decoder.getNumber, hread]
    exact .inr ⟨show (-1 : Int) ≠ ndnSuccess by decide, rfl⟩
  short d var hread := by
    rw [Decoder.getNumber, hread]
    exact ⟨show (-1 : Int) ≠ ndnSuccess by decide, rfl⟩

/-- The documentation, read as code; a packet decodes where its bytes are a complete
element. -/
def referenceTlv : NdnTlv where
  decoderInit blockValue := ⟨blockValue, 0⟩
  decoderGetType := Decoder.getNumber
  decoderGetLength := Decoder.getNumber
  encoderProbeBlockSize type length :=
    UInt32.ofNat (Tlv.shortestSize type.toNat + Tlv.shortestSize length.toNat) + length
  dataTlvDecodeNoVerify input size :=
    if (Tlv.readElement (input.take size.toNat)).isSome then ndnSuccess else -1

theorem referenceTlv_documented : referenceTlv.Documented where
  decoderInit _ := rfl
  getType := getNumber_readsNumber
  getLength := getNumber_readsNumber
  probeBlockSize type length hfit := by
    show (UInt32.ofNat _ + length).toNat = _
    unfold uint32Max at hfit
    rw [UInt32.toNat_add, UInt32.toNat_ofNat']
    omega

end NdnRiot
