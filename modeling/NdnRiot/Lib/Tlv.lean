import Mathlib.Data.Nat.Digits.Lemmas

/-!
# Type-length-value elements

The numbers of the NDN packet format take 1, 3, 5 or 9 bytes: one below 253 is a
single byte, and the bytes 253, 254 and 255 stand in front of a big-endian number
of 2, 4 or 8 bytes. Nothing forces a number to be in the shortest of these forms.
An element is its type, the length of its value, and the value.

* `readNumber_writeNumber`, `writeNumber_of_read` — the shortest form of a number is
  read back, and is the only form of that size;
* `shortestSize_le` — no form of a number is shorter;
* `Element.size_eq_shortest_iff` — an element has the size of its shortest encoding
  exactly when the bytes start with that encoding.
-/

namespace Tlv

/-! ## Big-endian numbers -/

/-- The number the bytes stand for, high byte first. -/
def bigEndian (bytes : List UInt8) : Nat :=
  Nat.ofDigits 256 (bytes.reverse.map UInt8.toNat)

/-- The low `width` bytes of `n`, high byte first. -/
def bigEndianBytes : Nat → Nat → List UInt8
  | 0, _ => []
  | width + 1, n => bigEndianBytes width (n / 256) ++ [UInt8.ofNat n]

@[simp] theorem bigEndianBytes_length (width n : Nat) :
    (bigEndianBytes width n).length = width := by
  induction width generalizing n with
  | zero => rfl
  | succ width ih => simp [bigEndianBytes, ih]

theorem bigEndian_append (bytes : List UInt8) (b : UInt8) :
    bigEndian (bytes ++ [b]) = b.toNat + 256 * bigEndian bytes := by
  simp [bigEndian, Nat.ofDigits_cons]

theorem bigEndian_bigEndianBytes {width n : Nat} (h : n < 256 ^ width) :
    bigEndian (bigEndianBytes width n) = n := by
  induction width generalizing n with
  | zero =>
      rw [Nat.pow_zero, Nat.lt_one_iff] at h
      rw [h]
      rfl
  | succ width ih =>
      have hhigh : n / 256 < 256 ^ width := by
        apply Nat.div_lt_of_lt_mul
        rwa [Nat.pow_succ'] at h
      rw [bigEndianBytes, bigEndian_append, ih hhigh, UInt8.toNat_ofNat']
      exact Nat.mod_add_div n 256

private theorem digit_lt (bytes : List UInt8) :
    ∀ digit ∈ bytes.reverse.map UInt8.toNat, digit < 256 := by
  intro digit hdigit
  obtain ⟨b, _, rfl⟩ := List.mem_map.mp hdigit
  exact b.toNat_lt

theorem bigEndian_lt (bytes : List UInt8) : bigEndian bytes < 256 ^ bytes.length := by
  have h := Nat.ofDigits_lt_base_pow_length (by decide : 1 < 256) (digit_lt bytes)
  rwa [List.length_map, List.length_reverse] at h

/-- The bytes are those of their number. -/
theorem bigEndianBytes_bigEndian (bytes : List UInt8) :
    bigEndianBytes bytes.length (bigEndian bytes) = bytes := by
  have hvalue := bigEndian_bigEndianBytes (bigEndian_lt bytes)
  have hdigits := Nat.ofDigits_inj_of_len_eq (by decide : 1 < 256) (by simp) (digit_lt _)
    (digit_lt _) hvalue
  have hbytes := (List.map_inj_right fun x y => UInt8.toNat_inj.mp).mp hdigits
  exact List.reverse_inj.mp hbytes

/-! ## Numbers of variable size -/

/-- How many bytes follow the first byte of a number. -/
def width (first : UInt8) : Nat :=
  if first = 253 then 2 else if first = 254 then 4 else if first = 255 then 8 else 0

/-- The number at the start of the bytes and the size of its form; `none` where the
bytes end inside it. -/
def readNumber : List UInt8 → Option (Nat × Nat)
  | [] => none
  | first :: rest =>
      if width first = 0 then some (first.toNat, 1)
      else if width first ≤ rest.length then
        some (bigEndian (rest.take (width first)), width first + 1)
      else none

/-- The size of the shortest form. -/
def shortestSize (n : Nat) : Nat :=
  if n < 253 then 1 else if n < 65536 then 3 else if n < 4294967296 then 5 else 9

theorem shortestSize_pos (n : Nat) : 0 < shortestSize n := by
  unfold shortestSize
  split_ifs <;> decide

/-- One byte holds the numbers below 253. -/
theorem lt_of_shortestSize_le_one {n : Nat} (h : shortestSize n ≤ 1) : n < 253 := by
  unfold shortestSize at h
  split_ifs at h <;> omega

/-- Nine bytes are for numbers of more than 32 bits. -/
theorem le_of_shortestSize_eq_nine {n : Nat} (h : shortestSize n = 9) : 4294967296 ≤ n := by
  unfold shortestSize at h
  split_ifs at h <;> omega

/-- The shortest form. -/
def writeNumber (n : Nat) : List UInt8 :=
  if n < 253 then [UInt8.ofNat n]
  else if n < 65536 then 253 :: bigEndianBytes 2 n
  else if n < 4294967296 then 254 :: bigEndianBytes 4 n
  else 255 :: bigEndianBytes 8 n

@[simp] theorem writeNumber_length (n : Nat) : (writeNumber n).length = shortestSize n := by
  unfold writeNumber shortestSize
  split_ifs <;> simp

/-- A number behind a marker byte. -/
theorem readNumber_marker {first : UInt8} {payload : List UInt8}
    (hwidth : width first = payload.length) (hpos : payload ≠ []) (rest : List UInt8) :
    readNumber (first :: (payload ++ rest)) = some (bigEndian payload, payload.length + 1) := by
  have hne : width first ≠ 0 := by
    rw [hwidth]
    exact fun h => hpos (List.length_eq_zero_iff.mp h)
  rw [readNumber, if_neg hne, hwidth, if_pos (by simp), List.take_left]

/-- A byte that is no marker. -/
theorem readNumber_byte {first : UInt8} (h : width first = 0) (rest : List UInt8) :
    readNumber (first :: rest) = some (first.toNat, 1) := by
  rw [readNumber, if_pos h]

private theorem width_ofNat {n : Nat} (h : n < 253) : width (UInt8.ofNat n) = 0 := by
  have hne : ∀ m : UInt8, 253 ≤ m.toNat → UInt8.ofNat n ≠ m := by
    intro m hm heq
    have hval := congrArg UInt8.toNat heq
    rw [UInt8.toNat_ofNat'] at hval
    omega
  rw [width, if_neg (hne 253 (by decide)), if_neg (hne 254 (by decide)),
    if_neg (hne 255 (by decide))]

/-- **Round trip.** The shortest form of a number is read back, whatever follows. -/
theorem readNumber_writeNumber {n : Nat} (h : n < 256 ^ 8) (rest : List UInt8) :
    readNumber (writeNumber n ++ rest) = some (n, shortestSize n) := by
  have hmarker : ∀ (first : UInt8) (w : Nat), width first = w → w ≠ 0 → n < 256 ^ w →
      readNumber (first :: bigEndianBytes w n ++ rest) = some (n, w + 1) := by
    intro first w hwidth hpos hlt
    have hpayload : bigEndianBytes w n ≠ [] := by
      intro hnil
      apply hpos
      rw [← bigEndianBytes_length w n, hnil, List.length_nil]
    rw [List.cons_append, readNumber_marker (by simpa using hwidth) hpayload,
      bigEndian_bigEndianBytes hlt, bigEndianBytes_length]
  unfold writeNumber shortestSize
  split_ifs with h₁ h₂ h₃
  · rw [List.singleton_append, readNumber_byte (width_ofNat h₁), UInt8.toNat_ofNat',
      Nat.mod_eq_of_lt (by omega)]
  · exact hmarker 253 2 rfl (by decide) h₂
  · exact hmarker 254 4 rfl (by decide) h₃
  · exact hmarker 255 8 rfl (by decide) h

/-- The forms a number is read from. -/
theorem readNumber_cases {bytes : List UInt8} {n size : Nat}
    (h : readNumber bytes = some (n, size)) :
    (∃ rest, bytes = UInt8.ofNat n :: rest ∧ n < 253 ∧ size = 1) ∨
    ∃ first payload rest, bytes = first :: (payload ++ rest) ∧ n = bigEndian payload ∧
      size = payload.length + 1 ∧
      (first = 253 ∧ payload.length = 2 ∨ first = 254 ∧ payload.length = 4 ∨
        first = 255 ∧ payload.length = 8) := by
  cases bytes with
  | nil => cases h
  | cons first rest =>
      rw [readNumber] at h
      split_ifs at h with hbyte hroom
      · obtain ⟨rfl, rfl⟩ := Prod.mk.inj (Option.some.inj h)
        refine .inl ⟨rest, by simp, ?_, rfl⟩
        have hne : first ≠ 253 ∧ first ≠ 254 ∧ first ≠ 255 := by
          refine ⟨?_, ?_, ?_⟩ <;>
            · rintro rfl
              exact absurd hbyte (by decide)
        have hlt := first.toNat_lt
        simp only [ne_eq, ← UInt8.toNat_inj] at hne
        simp at hne
        omega
      · obtain ⟨rfl, rfl⟩ := Prod.mk.inj (Option.some.inj h)
        have hlen : (rest.take (width first)).length = width first := by
          rw [List.length_take, Nat.min_eq_left hroom]
        refine .inr ⟨first, rest.take (width first), rest.drop (width first),
          by rw [List.take_append_drop], rfl, by rw [hlen], ?_⟩
        rw [hlen]
        unfold width at hbyte ⊢
        split_ifs at hbyte ⊢ with h₁ h₂ h₃
        · exact .inl ⟨h₁, rfl⟩
        · exact .inr (.inl ⟨h₂, rfl⟩)
        · exact .inr (.inr ⟨h₃, rfl⟩)
        · exact absurd rfl hbyte

section Read

variable {bytes : List UInt8} {n size : Nat} (h : readNumber bytes = some (n, size))

include h

/-- The sizes of the four forms. -/
theorem readNumber_size : size = 1 ∨ size = 3 ∨ size = 5 ∨ size = 9 := by
  rcases readNumber_cases h with ⟨_, _, _, rfl⟩ | ⟨_, _, _, _, _, rfl, hlen⟩
  · exact .inl rfl
  · omega

theorem readNumber_lt : n < 256 ^ 8 := by
  rcases readNumber_cases h with ⟨_, _, hlt, _⟩ | ⟨_, payload, _, _, rfl, _, hlen⟩
  · omega
  · apply Nat.lt_of_lt_of_le (bigEndian_lt payload)
    apply Nat.pow_le_pow_right (by decide)
    omega

/-- Five bytes hold numbers of 32 bits. -/
theorem readNumber_lt_of_size_le (hsize : size ≤ 5) : n < 4294967296 := by
  rcases readNumber_cases h with ⟨_, _, hlt, _⟩ | ⟨_, payload, _, _, rfl, rfl, _⟩
  · omega
  · apply Nat.lt_of_lt_of_le (bigEndian_lt payload)
    exact Nat.pow_le_pow_right (by decide) (Nat.le_of_succ_le_succ hsize : _ ≤ 4)

/-- No form of a number is shorter than the shortest. -/
theorem shortestSize_le : shortestSize n ≤ size := by
  rcases readNumber_cases h with ⟨_, _, hlt, rfl⟩ | ⟨_, payload, _, _, rfl, rfl, hlen⟩
  · rw [shortestSize, if_pos hlt]
  · have hlt := bigEndian_lt payload
    unfold shortestSize
    rcases hlen with ⟨_, hlen⟩ | ⟨_, hlen⟩ | ⟨_, hlen⟩ <;> rw [hlen] at hlt ⊢ <;>
      split_ifs <;> omega

/-- A number read from a form of the shortest size was written in it. -/
theorem writeNumber_of_read (hshort : size = shortestSize n) :
    ∃ rest, bytes = writeNumber n ++ rest := by
  rcases readNumber_cases h with ⟨rest, rfl, hlt, _⟩ | ⟨first, payload, rest, rfl, rfl, rfl, hlen⟩
  · exact ⟨rest, by rw [writeNumber, if_pos hlt]; rfl⟩
  · refine ⟨rest, ?_⟩
    have hbytes := bigEndianBytes_bigEndian payload
    unfold shortestSize at hshort
    unfold writeNumber
    rcases hlen with ⟨rfl, hlen⟩ | ⟨rfl, hlen⟩ | ⟨rfl, hlen⟩ <;>
      rw [hlen] at hbytes hshort <;> split_ifs at hshort ⊢ <;> first
        | omega
        | rw [hbytes, List.cons_append]

end Read

/-! ## Elements -/

/-- The header of an element: its type and the length of its value, each with the
size of the form it has. -/
structure Element where
  type : Nat
  typeSize : Nat
  length : Nat
  lengthSize : Nat
  deriving DecidableEq, Repr

/-- The size of the whole element. -/
def Element.size (e : Element) : Nat := e.typeSize + e.lengthSize + e.length

/-- The size of the shortest encoding. -/
def Element.shortest (e : Element) : Nat :=
  shortestSize e.type + shortestSize e.length + e.length

/-- The element at the start of the bytes; `none` where the bytes end inside it. -/
def readElement (bytes : List UInt8) : Option Element := do
  let (type, typeSize) ← readNumber bytes
  let (length, lengthSize) ← readNumber (bytes.drop typeSize)
  let e : Element := ⟨type, typeSize, length, lengthSize⟩
  if e.size ≤ bytes.length then return e else none

/-- The shortest encoding of an element. -/
def writeElement (type : Nat) (value : List UInt8) : List UInt8 :=
  writeNumber type ++ (writeNumber value.length ++ value)

theorem readElement_eq_some {bytes : List UInt8} {e : Element} :
    readElement bytes = some e ↔ readNumber bytes = some (e.type, e.typeSize) ∧
      readNumber (bytes.drop e.typeSize) = some (e.length, e.lengthSize) ∧
      e.size ≤ bytes.length := by
  unfold readElement
  cases htype : readNumber bytes with
  | none => simp
  | some typ =>
      obtain ⟨type, typeSize⟩ := typ
      cases hlength : readNumber (bytes.drop typeSize) with
      | none =>
          simp only [bind, Option.bind, hlength]
          constructor
          · intro h; cases h
          · rintro ⟨heq, hread, _⟩
            obtain ⟨_, rfl⟩ := Prod.mk.inj (Option.some.inj heq)
            rw [hlength] at hread
            cases hread
      | some len =>
          obtain ⟨length, lengthSize⟩ := len
          simp only [bind, Option.bind, hlength, pure]
          constructor
          · intro h
            split_ifs at h with hroom
            obtain rfl := Option.some.inj h
            exact ⟨rfl, hlength, hroom⟩
          · rintro ⟨heq, hread, hroom⟩
            obtain ⟨rfl, rfl⟩ := Prod.mk.inj (Option.some.inj heq)
            rw [hlength] at hread
            obtain ⟨rfl, rfl⟩ := Prod.mk.inj (Option.some.inj hread)
            rw [if_pos hroom]

/-- An encoded element is read back, whatever follows. -/
theorem readElement_writeElement {type : Nat} {value : List UInt8} (htype : type < 256 ^ 8)
    (hvalue : value.length < 256 ^ 8) (rest : List UInt8) :
    readElement (writeElement type value ++ rest) =
      some ⟨type, shortestSize type, value.length, shortestSize value.length⟩ := by
  rw [readElement_eq_some]
  refine ⟨?_, ?_, ?_⟩
  · rw [writeElement, List.append_assoc]
    exact readNumber_writeNumber htype _
  · rw [writeElement, List.append_assoc, ← writeNumber_length type, List.drop_left,
      List.append_assoc]
    exact readNumber_writeNumber hvalue _
  · simp only [Element.size, writeElement, List.length_append, writeNumber_length]
    omega

/-- **The shortest encoding** of an element is the only one of its size. -/
theorem Element.size_eq_shortest_iff {bytes : List UInt8} {e : Element}
    (h : readElement bytes = some e) :
    e.size = e.shortest ↔
      ∃ value rest, bytes = writeElement e.type value ++ rest ∧ value.length = e.length := by
  obtain ⟨htype, hlength, hroom⟩ := readElement_eq_some.mp h
  constructor
  · intro hsize
    have htypeSize := shortestSize_le htype
    have hlengthSize := shortestSize_le hlength
    unfold Element.shortest Element.size at hsize
    obtain ⟨tail, htail⟩ := writeNumber_of_read htype (by omega)
    have hdrop : bytes.drop e.typeSize = tail := by
      rw [htail, show e.typeSize = (writeNumber e.type).length by
        rw [writeNumber_length]; omega, List.drop_left]
    rw [hdrop] at hlength
    obtain ⟨body, hbody⟩ := writeNumber_of_read hlength (by omega)
    have hlen : e.length ≤ body.length := by
      have hbytes := congrArg List.length htail
      rw [hbody, List.length_append, List.length_append, writeNumber_length,
        writeNumber_length] at hbytes
      unfold Element.size at hroom
      omega
    have htake : (body.take e.length).length = e.length := by
      rw [List.length_take, Nat.min_eq_left hlen]
    refine ⟨body.take e.length, body.drop e.length, ?_, htake⟩
    rw [writeElement, htake, htail, hbody, List.append_assoc, List.append_assoc,
      List.take_append_drop]
  · rintro ⟨value, rest, rfl, hvalue⟩
    have hread := readElement_writeElement (readNumber_lt htype)
      (by rw [hvalue]; exact readNumber_lt hlength) rest
    rw [h] at hread
    have heq := Option.some.inj hread
    unfold Element.shortest Element.size
    rw [congrArg Element.typeSize heq, congrArg Element.lengthSize heq, hvalue]

end Tlv
