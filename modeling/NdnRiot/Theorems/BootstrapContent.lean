import NdnRiot.Model.Bootstrap

/-!
# What the sign-on handlers read of a content

Past the test of the type, `on_data_1` and `on_data_2` take as many bytes of the
content as the shortest encoding of a Data element with the decoded length has. A
content cut off behind the type leaves the output variable at 6, the type, and a
length past the end or in a longer form is not noticed. So the bytes taken are the
first element of the content exactly when the content starts with a complete Data
element in its shortest encoding.
-/

namespace NdnRiot

/-- The bytes a call gets, and how many of them it reads. -/
def BootCall.read? : BootCall → Option (List UInt8 × UInt32)
  | .ndnSha256 data datalen => some (data, datalen)
  | .ndnDataTlvDecodeNoVerify blockValue blockSize => some (blockValue, blockSize)
  | .ndnEccPubInit _ | .ndnKeyStorageGetEmptyAesKey => none

/-- The first `n` bytes of the content are within it, and are its first element. -/
def FirstElement (content : List UInt8) (n : Nat) : Prop :=
  n ≤ content.length ∧ (Tlv.readElement content).map Tlv.Element.size = some n

/-- Every hash and decode of the calls reads the first element of the content. -/
def ReadsFirstElement (content : List UInt8) (calls : List BootCall) : Prop :=
  ∀ call ∈ calls, ∀ input size, call.read? = some (input, size) →
    input = content ∧ FirstElement content size.toNat

/-- The content starts with a complete Data element in its shortest encoding. -/
def StartsWithData (content : List UInt8) : Prop :=
  ∃ value rest, content = Tlv.writeElement tlvData.toNat value ++ rest

namespace NdnTlv

/-- The type `decoder_get_type` finds at the start of the content; 0 where it finds
none. -/
def typeOf (T : NdnTlv) (content : List UInt8) : UInt32 :=
  (T.decoderGetType (T.decoderInit content) 0).2.2

/-- The decoder behind the type. -/
def behindType (T : NdnTlv) (content : List UInt8) : Decoder :=
  (T.decoderGetType (T.decoderInit content) 0).2.1

/-- The variable that is used as the length, which held the type. -/
def lengthOf (T : NdnTlv) (content : List UInt8) : UInt32 :=
  (T.decoderGetLength (T.behindType content) tlvData).2.2

/-- The number of bytes the handlers take. -/
def blockSize (T : NdnTlv) (content : List UInt8) : UInt32 :=
  T.encoderProbeBlockSize tlvData (T.lengthOf content)

section Parsing

variable {T : NdnTlv} (hT : T.Documented) {content : List UInt8}

include hT

/-- A Data type was read from a form at the start of the content. -/
theorem typeOf_eq_data (htype : T.typeOf content = tlvData) :
    ∃ type size, Tlv.readNumber content = some (type, size) ∧
      UInt32.ofNat type = tlvData ∧ (T.behindType content).rest = content.drop size := by
  rw [typeOf, hT.decoderInit] at htype
  rw [behindType, hT.decoderInit]
  rcases hT.getType.cases ⟨content, 0⟩ 0 with ⟨type, size, hread, hget⟩ | ⟨hkept, _⟩
  · rw [hget] at htype ⊢
    refine ⟨type, size, hread, htype, ?_⟩
    show content.drop (0 + UInt32.ofNat size).toNat = _
    have hforms := Tlv.readNumber_size hread
    rw [UInt32.zero_add, UInt32.toNat_ofNat', Nat.mod_eq_of_lt (by omega)]
  · rw [hkept] at htype
    exact absurd htype (by decide)

/-- The length of a complete element is the one used, unless its form has nine bytes:
then the type may have been left in its place. -/
theorem lengthOf_cases (htype : T.typeOf content = tlvData) {e : Tlv.Element}
    (helement : Tlv.readElement content = some e) (hfit : e.size ≤ uint32Max) :
    (T.lengthOf content).toNat = e.length ∨
      (T.lengthOf content = tlvData ∧ e.lengthSize = 9) := by
  obtain ⟨hetype, helength, _⟩ := Tlv.readElement_eq_some.mp helement
  obtain ⟨type, size, hread, _, hrest⟩ := typeOf_eq_data hT htype
  obtain ⟨_, rfl⟩ := Prod.mk.inj (Option.some.inj (hread.symm.trans hetype))
  rw [← hrest] at helength
  unfold lengthOf
  rcases hT.getLength.cases (T.behindType content) tlvData with ⟨n, k, hn, hget⟩ | ⟨hkept, hnine⟩
  · left
    obtain ⟨rfl, rfl⟩ := Prod.mk.inj (Option.some.inj (hn.symm.trans helength))
    rw [hget, UInt32.toNat_ofNat', Nat.mod_eq_of_lt]
    unfold Tlv.Element.size uint32Max at hfit
    omega
  · exact .inr ⟨hkept, hnine _ _ helength⟩

/-- The bytes taken for a length. -/
theorem blockSize_eq {n : Nat} (hlength : (T.lengthOf content).toNat = n)
    (hfit : 1 + Tlv.shortestSize n + n ≤ uint32Max) :
    (T.blockSize content).toNat = 1 + Tlv.shortestSize n + n := by
  have hone : Tlv.shortestSize tlvData.toNat = 1 := rfl
  have hprobe := hT.probeBlockSize tlvData (T.lengthOf content)
  rw [hlength, hone] at hprobe
  exact hprobe hfit

/-- A type found as Data that takes one byte is Data itself. -/
theorem type_eq_data (htype : T.typeOf content = tlvData) {e : Tlv.Element}
    (helement : Tlv.readElement content = some e) (hone : e.typeSize = 1) :
    e.type = tlvData.toNat := by
  obtain ⟨hetype, _, _⟩ := Tlv.readElement_eq_some.mp helement
  obtain ⟨type, size, hread, hdata, _⟩ := typeOf_eq_data hT htype
  obtain ⟨rfl, _⟩ := Prod.mk.inj (Option.some.inj (hread.symm.trans hetype))
  have hsmall : e.type < 253 := by
    apply Tlv.lt_of_shortestSize_le_one
    rw [← hone]
    exact Tlv.shortestSize_le hetype
  have hval := congrArg UInt32.toNat hdata
  rw [UInt32.toNat_ofNat', Nat.mod_eq_of_lt (by omega)] at hval
  exact hval

/-- **The bytes taken** are a complete element just when it is a Data element in its
shortest encoding. -/
theorem blockSize_eq_size_iff (htype : T.typeOf content = tlvData) {e : Tlv.Element}
    (helement : Tlv.readElement content = some e) (hfit : e.size ≤ uint32Max) :
    (T.blockSize content).toNat = e.size ↔
      e.type = tlvData.toNat ∧ e.size = e.shortest := by
  obtain ⟨hetype, helength, _⟩ := Tlv.readElement_eq_some.mp helement
  have htypeSize := Tlv.shortestSize_le hetype
  have hlengthSize := Tlv.shortestSize_le helength
  have hone : Tlv.shortestSize tlvData.toNat = 1 := rfl
  have hpos := Tlv.shortestSize_pos e.type
  have hsize : e.size = e.typeSize + e.lengthSize + e.length := rfl
  have hshortest : e.shortest =
      Tlv.shortestSize e.type + Tlv.shortestSize e.length + e.length := rfl
  rcases lengthOf_cases hT htype helement hfit with hlength | ⟨hlength, hnine⟩
  · rw [blockSize_eq hT hlength (by omega)]
    constructor
    · intro htaken
      -- both forms are the shortest, and one byte holds the type itself
      have hdata := type_eq_data hT htype helement (by omega)
      rw [hdata, hone] at hshortest
      exact ⟨hdata, by omega⟩
    · rintro ⟨hdata, hshort⟩
      rw [hdata, hone] at hshortest
      omega
  · have htaken : (T.blockSize content).toNat = 8 :=
      blockSize_eq hT (congrArg UInt32.toNat hlength) (by decide)
    rw [htaken]
    constructor
    · intro htaken
      omega
    · rintro ⟨_, hshort⟩
      -- a length that needs nine bytes is past every 32-bit size
      have hbig : 4294967296 ≤ e.length := Tlv.le_of_shortestSize_eq_nine (by omega)
      unfold uint32Max at hfit
      omega

/-- The bytes the handlers take are the first element of the content. -/
theorem blockSize_firstElement_iff (hsize : content.length ≤ uint32Max)
    (htype : T.typeOf content = tlvData) :
    FirstElement content (T.blockSize content).toNat ↔ StartsWithData content := by
  constructor
  · rintro ⟨_, hfirst⟩
    obtain ⟨e, helement, htaken⟩ := Option.map_eq_some_iff.mp hfirst
    have hroom := (Tlv.readElement_eq_some.mp helement).2.2
    obtain ⟨hdata, hshort⟩ := (blockSize_eq_size_iff hT htype helement
      (Nat.le_trans hroom hsize)).mp htaken.symm
    obtain ⟨value, rest, hcontent, _⟩ := (Tlv.Element.size_eq_shortest_iff helement).mp hshort
    rw [hdata] at hcontent
    exact ⟨value, rest, hcontent⟩
  · rintro ⟨value, rest, hcontent⟩
    have hvalue : value.length < 256 ^ 8 := by
      have hlen := congrArg List.length hcontent
      simp only [Tlv.writeElement, List.length_append] at hlen
      unfold uint32Max at hsize
      omega
    have hdata : tlvData.toNat < 256 ^ 8 := by decide
    have helement := Tlv.readElement_writeElement hdata hvalue rest
    rw [← hcontent] at helement
    have hroom := (Tlv.readElement_eq_some.mp helement).2.2
    have htaken := (blockSize_eq_size_iff hT htype helement (Nat.le_trans hroom hsize)).mpr
      ⟨rfl, rfl⟩
    exact ⟨by rw [htaken]; exact hroom, by rw [helement, htaken]; rfl⟩

end Parsing

end NdnTlv

/-! ## The handlers -/

section Handlers

variable (T : NdnTlv) (content : List UInt8)

/-- `on_data_1`, on a content that starts with a Data type and on any other. -/
theorem onData1_eq : onData1 T (some content) =
    if T.typeOf content = tlvData then
      [.ndnSha256 (T.decoderGetLength (T.behindType content) tlvData).2.1.inputValue
          (T.blockSize content),
        .ndnDataTlvDecodeNoVerify content (T.blockSize content)] ++
      if T.dataTlvDecodeNoVerify content (T.blockSize content) = ndnSuccess then
        [.ndnEccPubInit (T.lengthOf content)]
      else []
    else [] := by
  by_cases htype : T.typeOf content = tlvData
  · rw [if_pos htype]
    unfold NdnTlv.blockSize NdnTlv.lengthOf NdnTlv.behindType
    unfold NdnTlv.typeOf at htype
    simp only [onData1, htype, ne_eq, not_true, if_false]
    split_ifs <;> rfl
  · rw [if_neg htype]
    exact if_pos htype

/-- `on_data_2` likewise. -/
theorem onData2_eq : onData2 T (some content) =
    if T.typeOf content = tlvData then
      [.ndnDataTlvDecodeNoVerify content (T.blockSize content)] ++
      if T.dataTlvDecodeNoVerify content (T.blockSize content) = ndnSuccess then
        [.ndnKeyStorageGetEmptyAesKey]
      else []
    else [] := by
  by_cases htype : T.typeOf content = tlvData
  · rw [if_pos htype]
    unfold NdnTlv.blockSize NdnTlv.lengthOf NdnTlv.behindType
    unfold NdnTlv.typeOf at htype
    simp only [onData2, htype, ne_eq, not_true, if_false]
    split_ifs <;> rfl
  · rw [if_neg htype]
    exact if_pos htype

end Handlers

/-- A handler reads the content where its first type is Data, and then the bytes
taken. -/
theorem onData_reads_iff {T : NdnTlv} (hT : T.Documented) (content : List UInt8) :
    (ReadsFirstElement content (onData1 T (some content)) ↔
      (T.typeOf content = tlvData → FirstElement content (T.blockSize content).toNat)) ∧
    (ReadsFirstElement content (onData2 T (some content)) ↔
      (T.typeOf content = tlvData → FirstElement content (T.blockSize content).toNat)) := by
  have hinput : (T.decoderGetLength (T.behindType content) tlvData).2.1.inputValue =
      content := by
    rw [hT.getLength.inputValue, NdnTlv.behindType, hT.getType.inputValue, hT.decoderInit]
  rw [onData1_eq, onData2_eq, hinput]
  by_cases htype : T.typeOf content = tlvData
  · simp only [htype, forall_const]
    -- the call behind the decode reads none of the content
    constructor
    · split_ifs <;> simp [ReadsFirstElement, BootCall.read?]
    · split_ifs <;> simp [ReadsFirstElement, BootCall.read?]
  · simp [htype, ReadsFirstElement]

/-- The type found is Data just when the content starts with the number 6, in
whatever form but that of nine bytes. -/
theorem typeOf_eq_data_iff {T : NdnTlv} (hT : T.Documented) {content : List UInt8}
    (hnarrow : ∀ type, Tlv.readNumber content ≠ some (type, 9)) :
    T.typeOf content = tlvData ↔ ∃ size, Tlv.readNumber content = some (tlvData.toNat, size) := by
  constructor
  · intro htype
    obtain ⟨type, size, hread, hdata, _⟩ := NdnTlv.typeOf_eq_data hT htype
    have hforms := Tlv.readNumber_size hread
    have hsize : size ≤ 5 := by
      have hnine : size ≠ 9 := by
        rintro rfl
        exact hnarrow type hread
      omega
    have hval := congrArg UInt32.toNat hdata
    rw [UInt32.toNat_ofNat', Nat.mod_eq_of_lt (Tlv.readNumber_lt_of_size_le hread hsize)] at hval
    exact ⟨size, by rw [hread, hval]⟩
  · rintro ⟨size, hread⟩
    rw [NdnTlv.typeOf, hT.decoderInit]
    rcases hT.getType.cases ⟨content, 0⟩ 0 with ⟨type, k, hn, hget⟩ | ⟨_, hnine⟩
    · obtain ⟨rfl, _⟩ := Prod.mk.inj (Option.some.inj (hn.symm.trans hread))
      rw [hget]
      rfl
    · obtain rfl := hnine _ _ hread
      exact absurd hread (hnarrow _)

/-- **No over-read.** What `on_data_1` hashes and decodes, and what `on_data_2`
decodes, is the first element of the content, within its size, exactly when the
handler returns at the test of the type or the content starts with a complete Data
element in its shortest encoding. -/
theorem bootstrap_reads_iff {T : NdnTlv} (hT : T.Documented) {content : List UInt8}
    (hsize : content.length ≤ uint32Max) :
    (ReadsFirstElement content (onData1 T (some content)) ↔
      T.typeOf content ≠ tlvData ∨ StartsWithData content) ∧
    (ReadsFirstElement content (onData2 T (some content)) ↔
      T.typeOf content ≠ tlvData ∨ StartsWithData content) := by
  have hparse : (T.typeOf content = tlvData →
      FirstElement content (T.blockSize content).toNat) ↔
      T.typeOf content ≠ tlvData ∨ StartsWithData content := by
    rw [← imp_iff_not_or]
    exact imp_congr_right fun htype => T.blockSize_firstElement_iff hT hsize htype
  obtain ⟨hreads₁, hreads₂⟩ := onData_reads_iff hT content
  exact ⟨hreads₁.trans hparse, hreads₂.trans hparse⟩

/-- A Data element of two bytes, and what follows it. -/
theorem bootstrap_reads_short :
    ReadsFirstElement [6, 2, 1, 2, 9] (onData1 referenceTlv (some [6, 2, 1, 2, 9])) ∧
    ReadsFirstElement [6, 2, 1, 2, 9] (onData2 referenceTlv (some [6, 2, 1, 2, 9])) := by
  have hstarts : StartsWithData [6, 2, 1, 2, 9] := ⟨[1, 2], [9], rfl⟩
  have hsize : [(6 : UInt8), 2, 1, 2, 9].length ≤ uint32Max := by decide
  obtain ⟨hreads₁, hreads₂⟩ := bootstrap_reads_iff referenceTlv_documented hsize
  exact ⟨hreads₁.mpr (.inr hstarts), hreads₂.mpr (.inr hstarts)⟩

/-- A content that ends behind the type: eight bytes of it are hashed and decoded. -/
theorem bootstrap_reads_type_only :
    onData1 referenceTlv (some [6]) =
        [.ndnSha256 [6] 8, .ndnDataTlvDecodeNoVerify [6] 8] ∧
      onData2 referenceTlv (some [6]) = [.ndnDataTlvDecodeNoVerify [6] 8] ∧
      ¬ ReadsFirstElement [6] (onData1 referenceTlv (some [6])) ∧
      ¬ ReadsFirstElement [6] (onData2 referenceTlv (some [6])) := by
  have hbeyond : ∀ calls, .ndnDataTlvDecodeNoVerify [6] 8 ∈ calls →
      ¬ ReadsFirstElement [6] calls := by
    intro calls hmem hreads
    exact absurd (hreads _ hmem [6] 8 rfl).2.1 (by decide)
  exact ⟨by decide, by decide, hbeyond _ (by decide), hbeyond _ (by decide)⟩

end NdnRiot
