import TinyRtc.BigEndian

namespace TinyRtc.TypeLengthValue

open TinyRtc.BigEndian

/-- An attribute whose value is short enough for its length field. -/
structure Attribute where
  type : UInt16
  value : List UInt8
  length_lt : value.length < 2 ^ 16
  deriving DecidableEq

variable (align : Nat)

/-- The number of bytes that fill up a value of `n` bytes. -/
def paddingLen (n : Nat) : Nat :=
  (align - n % align) % align

def encodeAttribute (attr : Attribute) : List UInt8 :=
  write16 attr.type ++ write16 attr.value.length.toUInt16 ++ attr.value ++
    List.replicate (paddingLen align attr.value.length) 0x00

def encode (attrs : List Attribute) : List UInt8 :=
  attrs.flatMap (encodeAttribute align)

/-- The attributes that a walk over the bytes visits, whatever the padding holds;
`none` when the bytes end within an attribute. -/
def walk (bytes : List UInt8) : Option (List Attribute) :=
  match bytes with
  | [] => some []
  | t₁ :: t₀ :: l₁ :: l₀ :: rest =>
      let length := (read16 l₁ l₀).toNat
      if length + paddingLen align length ≤ rest.length then
        (walk (rest.drop (length + paddingLen align length))).map
          (⟨read16 t₁ t₀, rest.take length,
            lt_of_le_of_lt (List.length_take_le _ _) (read16 l₁ l₀).toNat_lt⟩ :: ·)
      else none
  | _ => none
termination_by bytes.length
decreasing_by
  simp only [List.length_cons, List.length_drop]
  omega

variable {align}

theorem add_paddingLen_mod (halign : 0 < align) (n : Nat) :
    (n + paddingLen align n) % align = 0 := by
  have hlt := Nat.mod_lt n halign
  have hsplit : n % align + (align - n % align) = align := by omega
  rw [paddingLen, Nat.add_mod_mod, ← Nat.mod_add_mod, hsplit, Nat.mod_self]

theorem toNat_toUInt16 {n : Nat} (h : n < 2 ^ 16) : n.toUInt16.toNat = n :=
  UInt16.toNat_ofNat_of_lt' h

theorem encodeAttribute_length (attr : Attribute) :
    (encodeAttribute align attr).length =
      4 + (attr.value.length + paddingLen align attr.value.length) := by
  simp only [encodeAttribute, List.length_append, write16_length, List.length_replicate]
  omega

@[simp] theorem encode_nil : encode align [] = [] := rfl

@[simp] theorem encode_cons (attr : Attribute) (attrs : List Attribute) :
    encode align (attr :: attrs) =
      encodeAttribute align attr ++ encode align attrs :=
  rfl

theorem encode_append (front back : List Attribute) :
    encode align (front ++ back) = encode align front ++ encode align back :=
  List.flatMap_append

theorem length_le_encode_length (attrs : List Attribute) :
    attrs.length ≤ (encode align attrs).length := by
  induction attrs with
  | nil => exact Nat.zero_le _
  | cons attr attrs ih =>
      rw [encode_cons, List.length_append, encodeAttribute_length, List.length_cons]
      omega

/-- Padded attributes keep the alignment when their headers do. -/
theorem encode_length_mod (halign : 0 < align) (hheader : 4 % align = 0)
    (attrs : List Attribute) : (encode align attrs).length % align = 0 := by
  induction attrs with
  | nil => exact Nat.zero_mod align
  | cons attr attrs ih =>
      rw [encode_cons, List.length_append, encodeAttribute_length, Nat.add_mod, ih, Nat.add_mod 4,
        hheader, add_paddingLen_mod halign]
      simp

theorem walk_encodeAttribute (attr : Attribute) (rest : List UInt8) :
    walk align (encodeAttribute align attr ++ rest) =
      (walk align rest).map (attr :: ·) := by
  obtain ⟨type, value, hlt⟩ := attr
  have hbytes : encodeAttribute align ⟨type, value, hlt⟩ ++ rest =
      (type >>> 8).toUInt8 :: type.toUInt8 :: (value.length.toUInt16 >>> 8).toUInt8 ::
        value.length.toUInt16.toUInt8 ::
          (value ++ (List.replicate (paddingLen align value.length) 0x00 ++ rest)) := by
    simp [encodeAttribute, write16]
  have hpadded : (value ++ List.replicate (paddingLen align value.length) 0x00).length =
      value.length + paddingLen align value.length := by
    rw [List.length_append, List.length_replicate]
  rw [hbytes, walk]
  simp only [read16_write16, toNat_toUInt16 hlt, List.take_left']
  rw [if_pos]
  · congr 2
    rw [← List.append_assoc, List.drop_left' hpadded]
  · simp only [List.length_append, List.length_replicate]
    omega

/-- The walk visits what was encoded, and ends where the encoding ends. -/
theorem walk_encode (attrs : List Attribute) :
    walk align (encode align attrs) = some attrs := by
  induction attrs with
  | nil =>
      rw [encode_nil, walk]
  | cons attr attrs ih =>
      rw [encode_cons, walk_encodeAttribute, ih]
      rfl

end TinyRtc.TypeLengthValue
