import Mathlib.Algebra.Group.Nat.Defs
import Mathlib.Data.Nat.Digits.Defs
import Overlay.Proofs.Text.Utf8
import Overlay.Wire.Bodies
import Overlay.Wire.CoordinateBlock
import Overlay.Wire.Frame

/-!
What is written is read again.

A value comes back the way it is seen through the wire: as it was, but for the flows and scopes of
addresses, which are not written. Lengths are written in eight bytes, so values are taken that are
written in fewer bytes than that can count.
-/

set_option autoImplicit false

namespace Overlay.Wire

@[simp] theorem length_lowestFirst (width number : Nat) :
    (lowestFirst width number).length = width := by
  induction width generalizing number with
  | zero => rfl
  | succ width ih => rw [lowestFirst, List.length_cons, ih]

theorem ofLowestFirst_lowestFirst {width number : Nat} (small : number < 256 ^ width) :
    ofLowestFirst (lowestFirst width number) = number := by
  induction width generalizing number with
  | zero =>
      rw [Nat.pow_zero] at small
      exact (Nat.lt_one_iff.mp small).symm
  | succ width ih =>
      have quotient : number / 256 < 256 ^ width := by
        rw [Nat.div_lt_iff_lt_mul (by omega), ← Nat.pow_succ]
        exact small
      rw [lowestFirst, ofLowestFirst, ih quotient, UInt8.toNat_ofNat']
      omega

@[simp] theorem length_highestFirst (width number : Nat) :
    (highestFirst width number).length = width := by
  rw [highestFirst, List.length_reverse, length_lowestFirst]

theorem ofHighestFirst_highestFirst {width number : Nat} (small : number < 256 ^ width) :
    ofHighestFirst (highestFirst width number) = number := by
  rw [ofHighestFirst, highestFirst, List.reverse_reverse, ofLowestFirst_lowestFirst small]

/-- So many bytes that spell a number, as its digits to the base of 256, the highest one first. -/
structure Spells (number width : ℕ) (bytes : Bytes) : Prop where
  length : bytes.length = width
  digits : Nat.ofDigits 256 (bytes.reverse.map UInt8.toNat) = number

theorem ofLowestFirst_eq_ofDigits (bytes : Bytes) :
    ofLowestFirst bytes = Nat.ofDigits 256 (bytes.map UInt8.toNat) := by
  induction bytes with
  | nil => rfl
  | cons byte rest ih => rw [ofLowestFirst, List.map_cons, Nat.ofDigits_cons, ih]

theorem spells_highestFirst {width number : ℕ} (small : number < 256 ^ width) :
    Spells number width (highestFirst width number) where
  length := length_highestFirst width number
  digits := by
    rw [← ofLowestFirst_eq_ofDigits]
    exact ofHighestFirst_highestFirst small

theorem takeBytes?_append {count : Nat} {bytes : Bytes} (rest : Bytes)
    (length : bytes.length = count) : takeBytes? count (bytes ++ rest) = some (bytes, rest) := by
  subst length
  simp [takeBytes?]

theorem takeDigits_append {count : Nat} {bytes : Bytes} (rest : Bytes)
    (length : bytes.length = count) : takeDigits count (bytes ++ rest) = .ok (bytes, rest) := by
  rw [takeDigits, takeBytes?_append rest length]
  rfl

theorem takeBlock_append {count : Nat} {bytes : Bytes} (rest : Bytes)
    (length : bytes.length = count) : takeBlock count (bytes ++ rest) = .ok (bytes, rest) := by
  rw [takeBlock, takeBytes?_append rest length]
  rfl

namespace Layout

variable {α β : Type}

/-- A layout gives every value back, the way it is seen through the wire. -/
def Faithful (layout : Layout α) (seen : α → α) : Prop :=
  ∀ value rest, (layout.write value).length < UInt64.size →
    layout.read (layout.write value ++ rest) = .ok (seen value, rest)

theorem Faithful.map {layout : Layout α} {seen : α → α} {seenInto : β → β} {into : α → β}
    {back : β → α} (faithful : Faithful layout seen)
    (same : ∀ value, into (seen (back value)) = seenInto value) :
    Faithful (layout.map into back) seenInto := by
  intro value rest short
  change (layout.read (layout.write (back value) ++ rest) >>= _) = _
  rw [faithful (back value) rest short, ← same value]
  rfl

theorem Faithful.pair {first : Layout α} {second : Layout β} {left : α → α} {right : β → β}
    (leftFaithful : Faithful first left) (rightFaithful : Faithful second right) :
    Faithful (first.pair second) fun value => (left value.1, right value.2) := by
  intro value rest short
  have lengths : ((first.pair second).write value).length =
      (first.write value.1).length + (second.write value.2).length := List.length_append
  change (first.read (first.write value.1 ++ second.write value.2 ++ rest) >>= _) = _
  rw [List.append_assoc, leftFaithful value.1 _ (by omega)]
  change (second.read (second.write value.2 ++ rest) >>= _) = _
  rw [rightFaithful value.2 rest (by omega)]
  rfl

theorem read_number {width value : Nat} (rest : Bytes) (small : value < 256 ^ width) :
    (number width).read ((number width).write value ++ rest) = .ok (value, rest) := by
  change (takeDigits width (lowestFirst width value ++ rest) >>= _) = _
  rw [takeDigits_append rest (length_lowestFirst width value)]
  change Except.ok (ofLowestFirst (lowestFirst width value), rest) = _
  rw [ofLowestFirst_lowestFirst small]

theorem byte_faithful : Faithful byte id := by
  intro value rest _
  change ((number 1).read ((number 1).write value.toNat ++ rest) >>= _) = _
  rw [read_number rest value.toNat_lt]
  exact congrArg (fun read => Except.ok (read, rest)) value.ofNat_toNat

theorem word16_faithful : Faithful word16 id := by
  intro value rest _
  change ((number 2).read ((number 2).write value.toNat ++ rest) >>= _) = _
  rw [read_number rest value.toNat_lt]
  exact congrArg (fun read => Except.ok (read, rest)) value.ofNat_toNat

theorem word32_faithful : Faithful word32 id := by
  intro value rest _
  change ((number 4).read ((number 4).write value.toNat ++ rest) >>= _) = _
  rw [read_number rest value.toNat_lt]
  exact congrArg (fun read => Except.ok (read, rest)) value.ofNat_toNat

theorem word64_faithful : Faithful word64 id := by
  intro value rest _
  change ((number 8).read ((number 8).write value.toNat ++ rest) >>= _) = _
  rw [read_number rest value.toNat_lt]
  exact congrArg (fun read => Except.ok (read, rest)) value.ofNat_toNat

/-- A number in eight bytes, whatever else is written. -/
theorem read_word64 (value : UInt64) (rest : Bytes) :
    word64.read (word64.write value ++ rest) = .ok (value, rest) := by
  refine word64_faithful value rest ?_
  change (lowestFirst 8 value.toNat).length < UInt64.size
  rw [length_lowestFirst]
  decide

theorem bits_faithful (width : Nat) : Faithful (bits width) id := by
  intro value rest _
  have small : value.toNat < 256 ^ width := by
    have bound := value.isLt
    rwa [Nat.pow_mul] at bound
  change (takeDigits width (highestFirst width value.toNat ++ rest) >>= _) = _
  rw [takeDigits_append rest (length_highestFirst width value.toNat)]
  change Except.ok (BitVec.ofNat _ (ofHighestFirst (highestFirst width value.toNat)), rest) = _
  rw [ofHighestFirst_highestFirst small, BitVec.ofNat_toNat, BitVec.setWidth_eq]
  rfl

theorem bool_faithful : Faithful bool id := by
  intro value rest _
  cases value with
  | false => rfl
  | true => rfl

theorem Faithful.option {layout : Layout α} {seen : α → α} (faithful : Faithful layout seen) :
    Faithful layout.option (Option.map seen) := by
  intro value rest short
  cases value with
  | none => rfl
  | some value =>
      have lengths : (layout.option.write (some value)).length = (layout.write value).length + 1 :=
        List.length_cons
      change (layout.read (layout.write value ++ rest) >>= _) = _
      rw [faithful value rest (by omega)]
      rfl

theorem text_faithful : Faithful text id := by
  intro value rest short
  have size : value.toUTF8.toList.length = value.utf8ByteSize := by
    rw [Text.toList_eq_data]
    rfl
  have lengths : (text.write value).length = 8 + value.utf8ByteSize := by
    rw [← size]
    exact List.length_append
  have whole : value.utf8ByteSize < UInt64.size := by omega
  have count : (UInt64.ofNat value.utf8ByteSize).toNat = value.utf8ByteSize := by
    rw [UInt64.toNat_ofNat']
    exact Nat.mod_eq_of_lt whole
  have back : (⟨value.toUTF8.toList.toArray⟩ : ByteArray) = value.toUTF8 := by
    rw [Text.toList_eq_data]
  have valid : String.fromUTF8? value.toUTF8 = some value := dif_pos value.isValidUTF8
  change (word64.read (word64.write _ ++ value.toUTF8.toList ++ rest) >>= _) = _
  rw [List.append_assoc, read_word64]
  change (takeBlock _ (value.toUTF8.toList ++ rest) >>= _) = _
  rw [count, takeBlock_append rest size]
  simp only [bind, Except.bind, Text.utf8Fault?_toUTF8, back, valid]
  rfl

theorem readMany_flatMap {layout : Layout α} {seen : α → α} (faithful : Faithful layout seen)
    {values : List α} (rest : Bytes)
    (short : (values.flatMap layout.write).length < UInt64.size) :
    layout.readMany values.length (values.flatMap layout.write ++ rest) =
      .ok (values.map seen, rest) := by
  induction values with
  | nil => rfl
  | cons value values ih =>
      rw [List.flatMap_cons, List.length_append] at short
      rw [List.flatMap_cons, List.append_assoc, List.length_cons]
      change (layout.read (layout.write value ++ _) >>= _) = _
      rw [faithful value _ (by omega)]
      change (layout.readMany values.length (values.flatMap layout.write ++ rest) >>= _) = _
      rw [ih (by omega)]
      rfl

theorem length_le_flatMap {layout : Layout α} (positive : ∀ value, 0 < (layout.write value).length)
    (values : List α) : values.length ≤ (values.flatMap layout.write).length := by
  induction values with
  | nil => exact Nat.le_refl 0
  | cons value values ih =>
      have here := positive value
      rw [List.flatMap_cons, List.length_append, List.length_cons]
      omega

/-- Lists of values that take up room. -/
theorem Faithful.list {layout : Layout α} {seen : α → α} (faithful : Faithful layout seen)
    (positive : ∀ value, 0 < (layout.write value).length) :
    Faithful layout.list (List.map seen) := by
  intro values rest short
  have lengths : (layout.list.write values).length =
      8 + (values.flatMap layout.write).length := List.length_append
  have few := length_le_flatMap positive values
  have whole : values.length < UInt64.size := by omega
  have count : (UInt64.ofNat values.length).toNat = values.length := by
    rw [UInt64.toNat_ofNat']
    exact Nat.mod_eq_of_lt whole
  change (word64.read (word64.write _ ++ values.flatMap layout.write ++ rest) >>= _) = _
  rw [List.append_assoc, read_word64]
  change layout.readMany _ (values.flatMap layout.write ++ rest) = _
  rw [count]
  exact readMany_flatMap faithful rest (by omega)

theorem peerId_faithful : Faithful peerId id := by
  intro id rest _
  have size : ((bits 16).write id.value).length = (16 : UInt64).toNat :=
    length_highestFirst 16 id.value.toNat
  have whole := bits_faithful 16 id.value [] (by rw [size]; decide)
  rw [List.append_nil] at whole
  change (word64.read (word64.write 16 ++ (bits 16).write id.value ++ rest) >>= _) = _
  rw [List.append_assoc, read_word64]
  simp only [bind, Except.bind]
  rw [takeBlock_append rest size]
  simp only
  rw [if_pos (show ((bits 16).write id.value).length = 16 from size), whole]
  rfl

theorem socketAddress_faithful : Faithful socketAddress SocketAddress.unscoped := by
  intro address rest short
  cases address with
  | v4 ip port =>
      have body := (bits_faithful 4).pair word16_faithful (ip, port) rest
        (Nat.lt_of_le_of_lt (List.sublist_append_right _ _).length_le short)
      change (word32.read (word32.write 0 ++ ((bits 4).pair word16).write (ip, port) ++ rest)
        >>= _) = _
      rw [List.append_assoc, word32_faithful 0 _ (by decide)]
      simp only [bind, Except.bind, id_eq]
      rw [if_pos trivial, body]
      rfl
  | v6 ip port flow scope =>
      have body := (bits_faithful 16).pair word16_faithful (ip, port) rest
        (Nat.lt_of_le_of_lt (List.sublist_append_right _ _).length_le short)
      change (word32.read (word32.write 1 ++ ((bits 16).pair word16).write (ip, port) ++ rest)
        >>= _) = _
      rw [List.append_assoc, word32_faithful 1 _ (by decide)]
      simp only [bind, Except.bind, id_eq]
      rw [if_neg (by decide), if_pos trivial, body]
      rfl

theorem double_faithful : Faithful double id := word64_faithful.map fun _ => rfl

theorem coordinate_faithful : Faithful coordinate id :=
  (double_faithful.pair (double_faithful.pair double_faithful)).map fun _ => rfl

theorem timestamp_faithful : Faithful timestamp id := word64_faithful.map fun _ => rfl

end Layout

end Overlay.Wire

namespace Overlay

/-- A record as other nodes see it. -/
def PeerRecord.unscoped (record : PeerRecord) : PeerRecord :=
  { record with address := record.address.unscoped }

/-- A copy as other nodes see it. -/
def Entry.unscoped (entry : Entry) : Entry := { entry with record := entry.record.unscoped }

/-- A message as its receiver sees it. -/
def Message.unscoped (message : Message) : Message :=
  { message with
    sender := message.sender.unscoped
    receiver := message.receiver.unscoped
    entries := message.entries.map Entry.unscoped }

namespace Wire.Layout

theorem peerRecord_faithful : Faithful peerRecord PeerRecord.unscoped :=
  (peerId_faithful.pair (socketAddress_faithful.pair (text_faithful.pair (word64_faithful.pair
    (word32_faithful.pair coordinate_faithful.option))))).map fun record => by
      simp [PeerRecord.unscoped]

theorem entry_faithful : Faithful entry Entry.unscoped :=
  (peerRecord_faithful.pair (word32_faithful.pair timestamp_faithful)).map fun _ => rfl

theorem entry_positive (copy : Entry) : 0 < (entry.write copy).length := by
  have lengths : (entry.write copy).length = (peerRecord.write copy.record).length +
      ((word32.pair timestamp).write (copy.age, copy.expiresAt)).length := List.length_append
  have stamp : ((word32.pair timestamp).write (copy.age, copy.expiresAt)).length = 12 := rfl
  omega

theorem message_faithful : Faithful message Message.unscoped :=
  (peerRecord_faithful.pair (peerRecord_faithful.pair ((entry_faithful.list entry_positive).pair
    (bool_faithful.pair text_faithful)))).map fun _ => rfl

end Wire.Layout

namespace Wire.CoordinateBlock

@[simp] theorem length_encode (block : CoordinateBlock) : block.encode.length = size := by
  simp [encode, size]

theorem encode_eq (x y z error : Binary64) : encode ⟨⟨x, y, z⟩, error⟩ =
    highestFirst 8 x.bits.toNat ++ (highestFirst 8 y.bits.toNat ++
      (highestFirst 8 z.bits.toNat ++ highestFirst 8 error.bits.toNat)) := by
  simp [encode]

/-- The number that stands behind some others in a block. -/
theorem doubleAt_append (before rest : Bytes) (number : Binary64) :
    doubleAt (before ++ (highestFirst 8 number.bits.toNat ++ rest)) before.length = number := by
  have small : number.bits.toNat < 256 ^ 8 := number.bits.toNat_lt
  have eight : (highestFirst 8 number.bits.toNat).length = 8 := length_highestFirst 8 _
  rw [doubleAt, List.drop_left, List.take_left' eight, ofHighestFirst_highestFirst small,
    UInt64.ofNat_toNat]

theorem decode_encode (block : CoordinateBlock) : decode block.encode = block := by
  obtain ⟨⟨x, y, z⟩, error⟩ := block
  let shown (number : Binary64) : Bytes := highestFirst 8 number.bits.toNat
  have first := doubleAt_append [] (shown y ++ (shown z ++ shown error)) x
  have second := doubleAt_append (shown x) (shown z ++ shown error) y
  have third := doubleAt_append (shown x ++ shown y) (shown error) z
  have fourth := doubleAt_append (shown x ++ shown y ++ shown z) [] error
  simp only [shown, List.length_append, length_highestFirst, List.append_assoc, List.nil_append,
    List.length_nil, List.append_nil] at first second third fourth
  rw [decode, encode_eq, first, second, third, fourth]

/-- The thirty-two bytes that tell a block: the bits of its four doubles, in eight bytes each. -/
structure Told (block : CoordinateBlock) (bytes : Bytes) : Prop where
  length : bytes.length = 32
  x : Spells block.coordinate.x.bits.toNat 8 (bytes.take 8)
  y : Spells block.coordinate.y.bits.toNat 8 ((bytes.drop 8).take 8)
  z : Spells block.coordinate.z.bits.toNat 8 ((bytes.drop 16).take 8)
  error : Spells block.error.bits.toNat 8 ((bytes.drop 24).take 8)

theorem told_encode (block : CoordinateBlock) : Told block block.encode := by
  have spelled (before rest : Bytes) (number : Binary64) {place : ℕ}
      (behind : before.length = place) : Spells number.bits.toNat 8
        (((before ++ (highestFirst 8 number.bits.toNat ++ rest)).drop place).take 8) := by
    rw [List.drop_left' behind, List.take_left' (length_highestFirst 8 _)]
    exact spells_highestFirst number.bits.toNat_lt
  obtain ⟨⟨x, y, z⟩, error⟩ := block
  let shown (number : Binary64) : Bytes := highestFirst 8 number.bits.toNat
  have eight (number : Binary64) : (shown number).length = 8 := length_highestFirst 8 _
  refine ⟨length_encode _, ?_, ?_, ?_, ?_⟩
  · rw [encode_eq]
    exact spelled [] _ x rfl
  · rw [encode_eq]
    exact spelled (shown x) _ y (eight x)
  · rw [encode_eq, ← List.append_assoc]
    exact spelled (shown x ++ shown y) _ z (by rw [List.length_append, eight, eight])
  · rw [encode_eq, ← List.append_assoc, ← List.append_assoc, ← List.append_nil (highestFirst 8 _)]
    exact spelled (shown x ++ shown y ++ shown z) [] error (by
      rw [List.length_append, List.length_append, eight, eight, eight])

end Wire.CoordinateBlock

end Overlay
