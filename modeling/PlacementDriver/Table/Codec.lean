import PlacementDriver.Core.RegionInfo

/-!
# Table keys

`table/codec.go`. TiDB writes the rows of a table under keys `t{tableID}...`
and its own metadata under keys `m...`, and TiKV keeps each such key in the
memcomparable format: groups of `encGroupSize` bytes, each followed by a
marker byte `encMarker - padCount` that says how many bytes of the group are
padding. `Key.tableID` and `Key.isMeta` undo the format and read the prefix; a
key that does not decode belongs to no table and is no meta key.

The loop of `decodeBytes` takes one group and its marker a pass, so it is a
structural recursion over the bytes, nine at a time.

`encodeBytes` is the encoder of `codec_test.go`. The decoder's loop is taken
apart by its own cases (`decodeBytesLoop.induct`), one pass of it at a time
(`decodeBytesLoop_group`).

## Main results

* `Key.tableID_of_isMeta`: a meta key has table id `0`.
* `decodeBytes_inverts_encodeBytes`: `decodeBytes` reads every encoding back
  whatever follows it, accepts only encodings, and so finds the table id of
  every table key.
-/

namespace PlacementDriver.Table

/-- `tablePrefix`: `t`. -/
def tablePrefix : List Byte := [0x74]

/-- `metaPrefix`: `m`. -/
def metaPrefix : List Byte := [0x6d]

def signMask : UInt64 := 0x8000000000000000

def encGroupSize : Byte := 8

def encMarker : Byte := 0xFF

def encPad : Byte := 0

/-- The errors of the decoders. -/
inductive DecodeError
  /-- "insufficient bytes to decode value" -/
  | insufficientBytes
  /-- "invalid marker byte, group bytes %q" -/
  | invalidMarker (groupBytes : List Byte)
  /-- "invalid padding byte, group bytes %q" -/
  | invalidPadding (groupBytes : List Byte)
  deriving DecidableEq, Repr

/-- The loop of `decodeBytes`. `data` holds what the groups read so far
carry; a group with padding is the last one. -/
def decodeBytesLoop : List Byte → List Byte → Except DecodeError (List Byte × List Byte)
  | g₀ :: g₁ :: g₂ :: g₃ :: g₄ :: g₅ :: g₆ :: g₇ :: marker :: b, data =>
    let group := [g₀, g₁, g₂, g₃, g₄, g₅, g₆, g₇]
    let padCount := encMarker - marker
    if padCount > encGroupSize then .error (.invalidMarker (group ++ [marker]))
    else
      let realGroupSize := encGroupSize - padCount
      let data := data ++ group.take realGroupSize.val
      if padCount ≠ 0 then
        if (group.drop realGroupSize.val).all (· == encPad) then .ok (b, data)
        else .error (.invalidPadding (group ++ [marker]))
      else decodeBytesLoop b data
  | _, _ => .error .insufficientBytes

/-- `decodeBytes`: the bytes after the encoded value, and the value. -/
def decodeBytes (b : List Byte) : Except DecodeError (List Byte × List Byte) :=
  decodeBytesLoop b []

/-- `binary.BigEndian.Uint64`, the most significant byte first. -/
def bigEndianUint64 (b : List Byte) : UInt64 := b.foldl (fun u x => u * 256 + x.val.toUInt64) 0

def decodeCmpUintToInt (u : UInt64) : Int64 := (u ^^^ signMask).toInt64

/-- `DecodeInt`: the bytes after the integer, and the integer. -/
def decodeInt (b : List Byte) : Except DecodeError (List Byte × Int64) :=
  if b.length < 8 then .error .insufficientBytes
  else .ok (b.drop 8, decodeCmpUintToInt (bigEndianUint64 (b.take 8)))

/-- `Key.TableID`: the table id of a table key, `0` for every other key. The
source ignores the error of `DecodeInt`, whose value is then `0`. -/
def Key.tableID (k : Key) : Int64 :=
  match decodeBytes k with
  | .error _ => 0
  | .ok (_, key) =>
    if tablePrefix.isPrefixOf key then
      match decodeInt (key.drop tablePrefix.length) with
      | .ok (_, tableID) => tableID
      | .error _ => 0
    else 0

/-- `Key.IsMeta`. -/
def Key.isMeta (k : Key) : Bool :=
  match decodeBytes k with
  | .error _ => false
  | .ok (_, key) => metaPrefix.isPrefixOf key

/-- `encodeBytes` of `codec_test.go`, the format `decodeBytes` reads: groups
of `encGroupSize` bytes, the last one filled up with `encPad`, each followed
by the marker `encMarker - padCount`. A value whose length is a multiple of
the group size ends with a group of padding only. -/
def encodeBytes : List Byte → List Byte
  | d₀ :: d₁ :: d₂ :: d₃ :: d₄ :: d₅ :: d₆ :: d₇ :: data =>
    [d₀, d₁, d₂, d₃, d₄, d₅, d₆, d₇, encMarker] ++ encodeBytes data
  | data =>
    let padCount := encGroupSize.val - data.length
    data ++ List.replicate padCount encPad ++ [encMarker - Fin.ofNat 256 padCount]

/-- `binary.BigEndian.PutUint64`: the eight bytes of `v`, the most
significant first. -/
def putUint64 (v : UInt64) : List Byte :=
  [56, 48, 40, 32, 24, 16, 8, 0].map fun s : UInt64 => Fin.ofNat 256 (v >>> s).toNat

/-- A decoded key that starts with `m` does not start with `t`. -/
theorem not_tablePrefix_of_metaPrefix {key : List Byte} (h : metaPrefix.isPrefixOf key = true) :
    tablePrefix.isPrefixOf key = false := by
  cases key with
  | nil => simp [metaPrefix] at h
  | cons x xs =>
    have hx : 0x6d = x := by simpa [metaPrefix, List.isPrefixOf] using h
    subst hx
    rfl

/-- A meta key belongs to no table. -/
theorem Key.tableID_of_isMeta {k : Key} (h : Key.isMeta k = true) : Key.tableID k = 0 := by
  unfold Key.isMeta at h
  unfold Key.tableID
  split
  · rfl
  · next key hk =>
    rw [hk] at h
    rw [not_tablePrefix_of_metaPrefix h, if_neg Bool.false_ne_true]

/-! ## The group encoding -/

/-- A value shorter than a group is one padded group. -/
theorem encodeBytes_of_length_lt {data : List Byte} (h : data.length < encGroupSize.val) :
    encodeBytes data = data ++ List.replicate (encGroupSize.val - data.length) encPad ++
      [encMarker - Fin.ofNat 256 (encGroupSize.val - data.length)] := by
  rw [encodeBytes.eq_2]
  rintro d₀ d₁ d₂ d₃ d₄ d₅ d₆ d₇ rest rfl
  simp [encGroupSize] at h
  omega

/-- A list that does not start with a whole group is shorter than one. -/
theorem length_lt_of_short {data : List Byte}
    (h : ∀ d₀ d₁ d₂ d₃ d₄ d₅ d₆ d₇ rest, data = d₀ :: d₁ :: d₂ :: d₃ :: d₄ :: d₅ :: d₆ :: d₇ :: rest → False) :
    data.length < encGroupSize.val := by
  match data, h with
  | [], _ | [_], _ | [_, _], _ | [_, _, _], _ | [_, _, _, _], _ | [_, _, _, _, _], _
  | [_, _, _, _, _, _], _ | [_, _, _, _, _, _, _], _ => simp [encGroupSize]
  | d₀ :: d₁ :: d₂ :: d₃ :: d₄ :: d₅ :: d₆ :: d₇ :: rest, h => exact absurd rfl (h d₀ d₁ d₂ d₃ d₄ d₅ d₆ d₇ rest)

/-- One pass of the loop over a whole group and its marker. -/
theorem decodeBytesLoop_group {group : List Byte} (hg : group.length = encGroupSize.val) (marker : Byte)
    (b acc : List Byte) :
    decodeBytesLoop (group ++ marker :: b) acc =
      if encMarker - marker > encGroupSize then .error (.invalidMarker (group ++ [marker]))
      else if encMarker - marker ≠ 0 then
        if (group.drop (encGroupSize - (encMarker - marker)).val).all (· == encPad) then
          .ok (b, acc ++ group.take (encGroupSize - (encMarker - marker)).val)
        else .error (.invalidPadding (group ++ [marker]))
      else decodeBytesLoop b (acc ++ group.take (encGroupSize - (encMarker - marker)).val) := by
  rcases group with _ | ⟨g₀, _ | ⟨g₁, _ | ⟨g₂, _ | ⟨g₃, _ | ⟨g₄, _ | ⟨g₅, _ | ⟨g₆, _ | ⟨g₇, _ | ⟨g₈, rest⟩⟩⟩⟩⟩⟩⟩⟩⟩
  all_goals first | rfl | simp [encGroupSize] at hg

/-- The loop reads an encoding back, whatever follows it. -/
theorem decodeBytesLoop_encodeBytes (data rest acc : List Byte) :
    decodeBytesLoop (encodeBytes data ++ rest) acc = .ok (rest, acc ++ data) := by
  induction data using encodeBytes.induct generalizing acc with
  | case1 d₀ d₁ d₂ d₃ d₄ d₅ d₆ d₇ data ih =>
    rw [encodeBytes, List.append_assoc]
    simp only [List.cons_append, List.nil_append, decodeBytesLoop]
    rw [ih]
    simp
    rfl
  | case2 data h =>
    have hlen := length_lt_of_short h
    have h8 : encGroupSize.val = 8 := rfl
    set p := encGroupSize.val - data.length with hp
    have hpval : (Fin.ofNat 256 p).val = p := by rw [Fin.val_ofNat]; omega
    have hle : Fin.ofNat 256 p ≤ encGroupSize := by rw [Fin.le_def, hpval]; omega
    have hreal : (encGroupSize - Fin.ofNat 256 p).val = data.length := by
      rw [Fin.sub_val_of_le hle, hpval]
      omega
    have hgroup : (data ++ List.replicate p encPad).length = encGroupSize.val := by simp; omega
    rw [encodeBytes_of_length_lt hlen, List.append_assoc, List.singleton_append, decodeBytesLoop_group hgroup,
      sub_sub_cancel, if_neg (not_lt.mpr hle), if_pos (fun h0 => by rw [h0] at hpval; simp at hpval; omega), hreal]
    simp

/-- Every input `decodeBytes` accepts is canonical: the encoding of what it
decodes, followed by what it leaves. -/
theorem encodeBytes_of_decodeBytesLoop {b acc rest data : List Byte} (h : decodeBytesLoop b acc = .ok (rest, data)) :
    ∃ d, data = acc ++ d ∧ b = encodeBytes d ++ rest := by
  induction b, acc using decodeBytesLoop.induct with
  | case1 g₀ g₁ g₂ g₃ g₄ g₅ g₆ g₇ marker b acc padCount hgt =>
    have hgt' : encMarker - marker > encGroupSize := hgt
    rw [show g₀ :: g₁ :: g₂ :: g₃ :: g₄ :: g₅ :: g₆ :: g₇ :: marker :: b =
      [g₀, g₁, g₂, g₃, g₄, g₅, g₆, g₇] ++ marker :: b from rfl, decodeBytesLoop_group rfl, if_pos hgt'] at h
    cases h
  | case2 g₀ g₁ g₂ g₃ g₄ g₅ g₆ g₇ marker b acc group padCount hle realGroupSize hpad hall =>
    -- the last group: `padCount` bytes of padding after what it carries
    have hle' : ¬ encMarker - marker > encGroupSize := hle
    have hpad' : encMarker - marker ≠ 0 := hpad
    have hall' : (group.drop (encGroupSize - (encMarker - marker)).val).all (· == encPad) = true := hall
    rw [show g₀ :: g₁ :: g₂ :: g₃ :: g₄ :: g₅ :: g₆ :: g₇ :: marker :: b = group ++ marker :: b from rfl,
      decodeBytesLoop_group rfl, if_neg hle', if_pos hpad', if_pos hall'] at h
    obtain ⟨rfl, rfl⟩ := Prod.mk.inj (Except.ok.inj h)
    refine ⟨_, rfl, ?_⟩
    have h8 : encGroupSize.val = 8 := rfl
    have hp : encMarker - marker ≤ encGroupSize := not_lt.mp hle'
    have hp8 : (encMarker - marker).val ≤ 8 := hp
    have hpos : 0 < (encMarker - marker).val := Nat.pos_of_ne_zero fun h0 => hpad' (Fin.ext h0)
    have hreal : (encGroupSize - (encMarker - marker)).val = 8 - (encMarker - marker).val := by
      rw [Fin.sub_val_of_le hp, h8]
    have hlen : (group.take (encGroupSize - (encMarker - marker)).val).length = 8 - (encMarker - marker).val := by
      rw [List.length_take, hreal]
      simp [group]
    -- the bytes after what the group carries are its padding
    have hpadding : group.drop (encGroupSize - (encMarker - marker)).val =
        List.replicate (encMarker - marker).val encPad := by
      rw [List.eq_replicate_iff]
      refine ⟨?_, fun x hx => beq_iff_eq.mp (List.all_eq_true.mp hall' x hx)⟩
      rw [List.length_drop, hreal]
      simp [group]
      omega
    rw [encodeBytes_of_length_lt (by rw [hlen, h8]; omega), hlen, h8, show 8 - (8 - (encMarker - marker).val) =
      (encMarker - marker).val by omega, Fin.ofNat_val_eq_self, sub_sub_cancel, ← hpadding, List.take_append_drop]
    rfl
  | case3 g₀ g₁ g₂ g₃ g₄ g₅ g₆ g₇ marker b acc group padCount hle realGroupSize hpad hall =>
    have hle' : ¬ encMarker - marker > encGroupSize := hle
    have hpad' : encMarker - marker ≠ 0 := hpad
    have hall' : ¬ (group.drop (encGroupSize - (encMarker - marker)).val).all (· == encPad) = true := hall
    rw [show g₀ :: g₁ :: g₂ :: g₃ :: g₄ :: g₅ :: g₆ :: g₇ :: marker :: b = group ++ marker :: b from rfl,
      decodeBytesLoop_group rfl, if_neg hle', if_pos hpad', if_neg hall'] at h
    cases h
  | case4 g₀ g₁ g₂ g₃ g₄ g₅ g₆ g₇ marker b acc group padCount hle realGroupSize data' hpad ih =>
    -- a whole group, marked `encMarker`: the loop goes on after it
    have hle' : ¬ encMarker - marker > encGroupSize := hle
    have hpad' : encMarker - marker = 0 := not_not.mp hpad
    rw [show g₀ :: g₁ :: g₂ :: g₃ :: g₄ :: g₅ :: g₆ :: g₇ :: marker :: b = group ++ marker :: b from rfl,
      decodeBytesLoop_group rfl, if_neg hle', if_neg (not_not.mpr hpad')] at h
    obtain ⟨d, rfl, rfl⟩ := ih h
    have hmarker : marker = encMarker := (sub_eq_zero.mp hpad').symm
    subst hmarker
    refine ⟨group ++ d, ?_, ?_⟩
    · show acc ++ group.take 8 ++ d = acc ++ (group ++ d)
      rw [List.append_assoc]
      rfl
    · rfl
  | case5 b acc hshort =>
    rw [decodeBytesLoop.eq_2 _ _ hshort] at h
    cases h

/-! ## Big-endian integers -/

/-- `Uint64` reads back what `PutUint64` wrote. -/
theorem bigEndianUint64_putUint64 (v : UInt64) : bigEndianUint64 (putUint64 v) = v := by
  apply UInt64.toNat_inj.mp
  have hv := v.toNat_lt
  simp only [bigEndianUint64, putUint64, List.map, List.foldl, UInt64.toNat_add, UInt64.toNat_mul,
    UInt64.toNat_shiftRight, Nat.shiftRight_eq_div_pow, Fin.val_ofNat, Nat.toUInt64_eq, UInt64.toNat_ofNat']
  simp
  omega

/-- `decodeCmpUintToInt` undoes the flip of the sign bit. -/
theorem decodeCmpUintToInt_xor (t : Int64) : decodeCmpUintToInt (t.toUInt64 ^^^ signMask) = t := by
  rw [decodeCmpUintToInt, UInt64.xor_assoc, UInt64.xor_self, UInt64.xor_zero, Int64.toInt64_toUInt64]

theorem decodeInt_putUint64 (v : UInt64) (u : List Byte) :
    decodeInt (putUint64 v ++ u) = .ok (u, decodeCmpUintToInt v) := by
  have hlen : (putUint64 v).length = 8 := rfl
  rw [decodeInt, if_neg (by simp [hlen]), List.drop_left' hlen, List.take_left' hlen, bigEndianUint64_putUint64]
/-- `decodeBytes` inverts the group encoding and accepts nothing else, so
the table id of every table key is read back. -/
theorem decodeBytes_inverts_encodeBytes :
    (∀ d s, decodeBytes (encodeBytes d ++ s) = .ok (s, d)) ∧
    (∀ b rest d, decodeBytes b = .ok (rest, d) → b = encodeBytes d ++ rest) ∧
    (∀ (t : Int64) (u : List Byte),
      Key.tableID (encodeBytes (tablePrefix ++ putUint64 (t.toUInt64 ^^^ signMask) ++ u)) = t) := by
  have hround : ∀ d s, decodeBytes (encodeBytes d ++ s) = .ok (s, d) := fun d s =>
    decodeBytesLoop_encodeBytes d s []
  refine ⟨hround, fun b rest d h => ?_, fun t u => ?_⟩
  · obtain ⟨d', hd, hb⟩ := encodeBytes_of_decodeBytesLoop h
    rw [List.nil_append] at hd
    rw [hd, hb]
  · have hkey := hround (tablePrefix ++ putUint64 (t.toUInt64 ^^^ signMask) ++ u) []
    rw [List.append_nil] at hkey
    have hprefix : tablePrefix.isPrefixOf (tablePrefix ++ putUint64 (t.toUInt64 ^^^ signMask) ++ u) = true := by
      rw [List.append_assoc, List.isPrefixOf_iff_prefix]
      exact List.prefix_append _ _
    unfold Key.tableID
    rw [hkey]
    dsimp only
    rw [if_pos hprefix, List.append_assoc, List.drop_left' rfl, decodeInt_putUint64, decodeCmpUintToInt_xor]

/-- The meta key `m`, in one group with seven bytes of padding. -/
example : Key.isMeta [0x6d, 0, 0, 0, 0, 0, 0, 0, 0xf8] = true := by decide

/-- The key of table `1`: `t` and the integer with its sign bit flipped, over
two groups. -/
example : Key.tableID [0x74, 0x80, 0, 0, 0, 0, 0, 0, 0xff, 1, 0, 0, 0, 0, 0, 0, 0, 0xf8] = 1 := by
  decide

end PlacementDriver.Table
