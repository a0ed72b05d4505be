import Overlay.Proofs.Wire.Frame

/-!
What can be read has been written that way.

A reader takes from the front of some bytes just those that its writer makes of the value, so that
every value has one written form (`Canonical`). With the way back (`Faithful`) this makes the
bodies of messages, of records, of lists of copies and of statistics a prefix code
(`bodies_prefixCode`).
-/

set_option autoImplicit false

namespace Overlay.Wire

theorem takeBytes?_eq_some {count : Nat} {bytes taken rest : Bytes}
    (took : takeBytes? count bytes = some (taken, rest)) :
    bytes = taken ++ rest ∧ taken.length = count := by
  rw [takeBytes?] at took
  split at took
  · cases took
  · next enough =>
      cases took
      have most := List.length_take_le count bytes
      exact ⟨(List.take_append_drop count bytes).symm, by omega⟩

theorem elim_takeBytes?_eq_ok {count : Nat} {bytes taken rest : Bytes} {fault : LayoutFault}
    (took : (takeBytes? count bytes).elim (.error fault) .ok = Except.ok (taken, rest)) :
    bytes = taken ++ rest ∧ taken.length = count := by
  cases found : takeBytes? count bytes with
  | none =>
      rw [found] at took
      cases took
  | some parts =>
      rw [found] at took
      cases took
      exact takeBytes?_eq_some found

theorem takeDigits_eq_ok {count : Nat} {bytes taken rest : Bytes}
    (took : takeDigits count bytes = .ok (taken, rest)) :
    bytes = taken ++ rest ∧ taken.length = count := elim_takeBytes?_eq_ok took

theorem takeBlock_eq_ok {count : Nat} {bytes taken rest : Bytes}
    (took : takeBlock count bytes = .ok (taken, rest)) :
    bytes = taken ++ rest ∧ taken.length = count := elim_takeBytes?_eq_ok took

theorem ofLowestFirst_lt (bytes : Bytes) : ofLowestFirst bytes < 256 ^ bytes.length := by
  induction bytes with
  | nil => exact Nat.one_pos
  | cons byte rest ih =>
      have small : byte.toNat < 256 := byte.toNat_lt
      rw [ofLowestFirst, List.length_cons, Nat.pow_succ]
      omega

/-- Bytes are the only ones that make their number in their width. -/
theorem lowestFirst_ofLowestFirst (bytes : Bytes) :
    lowestFirst bytes.length (ofLowestFirst bytes) = bytes := by
  induction bytes with
  | nil => rfl
  | cons byte rest ih =>
      have small : byte.toNat < 256 := byte.toNat_lt
      have digit : (byte.toNat + 256 * ofLowestFirst rest) % 256 = byte.toNat := by omega
      have others : (byte.toNat + 256 * ofLowestFirst rest) / 256 = ofLowestFirst rest := by omega
      have first : UInt8.ofNat (byte.toNat + 256 * ofLowestFirst rest) = byte := by
        rw [← UInt8.toNat_inj, UInt8.toNat_ofNat']
        exact digit
      rw [List.length_cons, ofLowestFirst, lowestFirst, first, others, ih]

theorem highestFirst_ofHighestFirst (bytes : Bytes) :
    highestFirst bytes.length (ofHighestFirst bytes) = bytes := by
  rw [highestFirst, ofHighestFirst, ← List.length_reverse, lowestFirst_ofLowestFirst,
    List.reverse_reverse]

theorem ofHighestFirst_lt (bytes : Bytes) : ofHighestFirst bytes < 256 ^ bytes.length := by
  rw [ofHighestFirst, ← List.length_reverse]
  exact ofLowestFirst_lt bytes.reverse

namespace Layout

variable {α β : Type}

/-- A reading goes on after the part that it begins with. -/
theorem read_bind {first : Except LayoutFault α} {next : α → Except LayoutFault β} {result : β}
    (read : (first >>= next) = .ok result) :
    ∃ value, first = .ok value ∧ next value = .ok result := by
  cases first with
  | error fault => cases read
  | ok value => exact ⟨value, rfl, read⟩

/-- What a layout reads are the bytes that it writes. -/
def Canonical (layout : Layout α) : Prop :=
  ∀ bytes value rest, layout.read bytes = .ok (value, rest) → bytes = layout.write value ++ rest

/-- Of a type in correspondence only those values count that can be read. -/
theorem Canonical.map {layout : Layout α} {into : α → β} {back : β → α}
    (canonical : Canonical layout)
    (same : ∀ bytes value rest, layout.read bytes = .ok (value, rest) →
      back (into value) = value) : Canonical (layout.map into back) := by
  intro bytes value rest read
  obtain ⟨⟨inner, after⟩, first, last⟩ := read_bind read
  cases last
  change bytes = layout.write (back (into inner)) ++ rest
  rw [same bytes inner rest first]
  exact canonical bytes inner rest first

theorem Canonical.pair {first : Layout α} {second : Layout β} (left : Canonical first)
    (right : Canonical second) : Canonical (first.pair second) := by
  intro bytes value rest read
  obtain ⟨⟨one, middle⟩, here, read⟩ := read_bind read
  obtain ⟨⟨other, after⟩, there, last⟩ := read_bind read
  cases last
  change bytes = first.write one ++ second.write other ++ rest
  rw [left _ _ _ here, right _ _ _ there, List.append_assoc]

theorem number_canonical (width : Nat) : Canonical (number width) := by
  intro bytes value rest read
  obtain ⟨⟨taken, after⟩, took, last⟩ := read_bind read
  cases last
  obtain ⟨split, length⟩ := takeDigits_eq_ok took
  change bytes = lowestFirst width (ofLowestFirst taken) ++ rest
  rw [← length, lowestFirst_ofLowestFirst, split]

theorem read_number_lt {width value : Nat} {bytes rest : Bytes}
    (read : (number width).read bytes = .ok (value, rest)) : value < 256 ^ width := by
  obtain ⟨⟨taken, after⟩, took, last⟩ := read_bind read
  cases last
  rw [← (takeDigits_eq_ok took).2]
  exact ofLowestFirst_lt taken

theorem byte_canonical : Canonical byte :=
  (number_canonical 1).map fun _ _ _ read => UInt8.toNat_ofNat_of_lt' (read_number_lt read)

theorem word16_canonical : Canonical word16 :=
  (number_canonical 2).map fun _ _ _ read => UInt16.toNat_ofNat_of_lt' (read_number_lt read)

theorem word32_canonical : Canonical word32 :=
  (number_canonical 4).map fun _ _ _ read => UInt32.toNat_ofNat_of_lt' (read_number_lt read)

theorem word64_canonical : Canonical word64 :=
  (number_canonical 8).map fun _ _ _ read => UInt64.toNat_ofNat_of_lt' (read_number_lt read)

/-- A number that was read in eight bytes tells how many items follow. -/
theorem word64_count {bytes rest : Bytes} {count : UInt64} {items : Nat}
    (read : word64.read bytes = .ok (count, rest)) (many : items = count.toNat) :
    bytes = word64.write (.ofNat items) ++ rest := by
  rw [many, UInt64.ofNat_toNat]
  exact word64_canonical bytes count rest read

theorem bits_canonical (width : Nat) : Canonical (bits width) := by
  intro bytes value rest read
  obtain ⟨⟨taken, after⟩, took, last⟩ := read_bind read
  cases last
  obtain ⟨split, length⟩ := takeDigits_eq_ok took
  have small : ofHighestFirst taken < 2 ^ (8 * width) := by
    rw [Nat.pow_mul, ← length]
    exact ofHighestFirst_lt taken
  change bytes = highestFirst width (BitVec.ofNat (8 * width) (ofHighestFirst taken)).toNat ++ rest
  rw [BitVec.toNat_ofNat, Nat.mod_eq_of_lt small, ← length, highestFirst_ofHighestFirst, split]

theorem bool_canonical : Canonical bool := by
  intro bytes value rest read
  obtain ⟨⟨tag, after⟩, tagged, read⟩ := read_bind read
  have front := byte_canonical _ _ _ tagged
  simp only at read
  split at read
  · next no =>
      cases read
      rw [front, no]
      rfl
  · split at read
    · next yes =>
        cases read
        rw [front, yes]
        rfl
    · cases read

theorem Canonical.option {layout : Layout α} (canonical : Canonical layout) :
    Canonical layout.option := by
  intro bytes value rest read
  obtain ⟨⟨tag, after⟩, tagged, read⟩ := read_bind read
  have front := byte_canonical _ _ _ tagged
  simp only at read
  split at read
  · next absent =>
      cases read
      rw [front, absent]
      rfl
  · split at read
    · next present =>
        obtain ⟨⟨content, behind⟩, here, last⟩ := read_bind read
        cases last
        rw [front, present, canonical _ _ _ here]
        rfl
    · cases read

theorem toUTF8_of_fromUTF8? {bytes : ByteArray} {value : String}
    (valid : String.fromUTF8? bytes = some value) : value.toUTF8 = bytes := by
  rw [String.fromUTF8?] at valid
  split at valid
  · cases valid
    rfl
  · cases valid

theorem text_canonical : Canonical text := by
  intro bytes value rest read
  obtain ⟨⟨length, after⟩, counted, read⟩ := read_bind read
  obtain ⟨⟨taken, behind⟩, took, read⟩ := read_bind read
  obtain ⟨split, size⟩ := takeBlock_eq_ok took
  simp only at read
  split at read
  · next content _ valid =>
      cases read
      have same : value.toUTF8.toList = taken := by
        rw [toUTF8_of_fromUTF8? valid, Text.toList_eq_data]
      have width : value.utf8ByteSize = length.toNat := by
        rw [← size, ← same, Text.toList_eq_data]
        rfl
      change bytes = word64.write (.ofNat value.utf8ByteSize) ++ value.toUTF8.toList ++ rest
      rw [same, List.append_assoc, ← split]
      exact word64_count counted width
  · cases read

theorem readMany_canonical {layout : Layout α} (canonical : Canonical layout) {count : Nat}
    {bytes rest : Bytes} {values : List α}
    (read : layout.readMany count bytes = .ok (values, rest)) :
    values.length = count ∧ bytes = values.flatMap layout.write ++ rest := by
  induction count generalizing bytes values with
  | zero =>
      cases read
      exact ⟨rfl, rfl⟩
  | succ count ih =>
      obtain ⟨⟨value, middle⟩, here, read⟩ := read_bind read
      obtain ⟨⟨more, after⟩, there, last⟩ := read_bind read
      cases last
      obtain ⟨length, behind⟩ := ih there
      refine ⟨congrArg Nat.succ length, ?_⟩
      rw [canonical _ _ _ here, behind, List.flatMap_cons, List.append_assoc]

theorem Canonical.list {layout : Layout α} (canonical : Canonical layout) :
    Canonical layout.list := by
  intro bytes values rest read
  obtain ⟨⟨count, after⟩, counted, read⟩ := read_bind read
  obtain ⟨length, behind⟩ := readMany_canonical canonical read
  change bytes = word64.write (.ofNat values.length) ++ values.flatMap layout.write ++ rest
  rw [List.append_assoc, ← behind]
  exact word64_count counted length

theorem peerId_canonical : Canonical peerId := by
  intro bytes id rest read
  obtain ⟨⟨length, after⟩, counted, read⟩ := read_bind read
  obtain ⟨⟨taken, behind⟩, took, read⟩ := read_bind read
  obtain ⟨split, size⟩ := takeBlock_eq_ok took
  simp only at read
  split at read
  · next sixteen =>
      obtain ⟨⟨value, left⟩, here, last⟩ := read_bind read
      cases last
      have front := bits_canonical 16 _ _ _ here
      have none : left = [] := by
        have total := congrArg List.length front
        rw [List.length_append, sixteen] at total
        have width : ((bits 16).write value).length = 16 := length_highestFirst 16 value.toNat
        exact List.eq_nil_of_length_eq_zero (by omega)
      rw [none, List.append_nil] at front
      change bytes = word64.write (.ofNat 16) ++ (bits 16).write value ++ rest
      rw [List.append_assoc, ← front, ← split]
      exact word64_count counted (sixteen.symm.trans size)
  · cases read

theorem socketAddress_canonical : Canonical socketAddress := by
  intro bytes address rest read
  obtain ⟨⟨family, after⟩, tagged, read⟩ := read_bind read
  have front := word32_canonical _ _ _ tagged
  simp only at read
  split at read
  · next narrow =>
      obtain ⟨⟨⟨ip, port⟩, behind⟩, here, last⟩ := read_bind read
      cases last
      have body := (bits_canonical 4).pair word16_canonical _ _ _ here
      change bytes = word32.write 0 ++ ((bits 4).pair word16).write (ip, port) ++ behind
      rw [front, narrow, body, List.append_assoc]
  · split at read
    · next wide =>
        obtain ⟨⟨⟨ip, port⟩, behind⟩, here, last⟩ := read_bind read
        cases last
        have body := (bits_canonical 16).pair word16_canonical _ _ _ here
        change bytes = word32.write 1 ++ ((bits 16).pair word16).write (ip, port) ++ behind
        rw [front, wide, body, List.append_assoc]
    · cases read

theorem double_canonical : Canonical double := word64_canonical.map fun _ _ _ _ => rfl

theorem coordinate_canonical : Canonical coordinate :=
  (double_canonical.pair (double_canonical.pair double_canonical)).map fun _ _ _ _ => rfl

theorem timestamp_canonical : Canonical timestamp := word64_canonical.map fun _ _ _ _ => rfl

theorem peerRecord_canonical : Canonical peerRecord :=
  (peerId_canonical.pair (socketAddress_canonical.pair (text_canonical.pair (word64_canonical.pair
    (word32_canonical.pair coordinate_canonical.option))))).map fun _ _ _ _ => rfl

theorem entry_canonical : Canonical entry :=
  (peerRecord_canonical.pair (word32_canonical.pair timestamp_canonical)).map fun _ _ _ _ => rfl

theorem message_canonical : Canonical message :=
  (peerRecord_canonical.pair (peerRecord_canonical.pair (entry_canonical.list.pair
    (bool_canonical.pair text_canonical)))).map fun _ _ _ _ => rfl

theorem stats_canonical : Canonical stats :=
  (text_canonical.pair (word64_canonical.pair (word64_canonical.pair (word64_canonical.pair
    (word64_canonical.pair (word64_canonical.pair (word64_canonical.pair
      word64_canonical))))))).map fun _ _ _ _ => rfl

theorem stats_faithful : Faithful stats id :=
  (text_faithful.pair (word64_faithful.pair (word64_faithful.pair (word64_faithful.pair
    (word64_faithful.pair (word64_faithful.pair (word64_faithful.pair
      word64_faithful))))))).map fun _ => rfl

end Layout

/-- The bodies of a layout can be told apart from their first byte on: reading one gives its value
the way it is seen through the wire, whatever follows, and nothing else can be read. -/
structure PrefixCode {α : Type} (layout : Layout α) (seen : α → α) : Prop where
  /-- A body is written as long as neither the limit nor four bytes are too few for its length. -/
  written : ∀ value limit body, encodeBody layout value limit = .ok body ↔
    body = layout.write value ∧ body.length ≤ limit ∧ body.length < UInt32.size
  back : ∀ value limit body rest, encodeBody layout value limit = .ok body →
    decodeBody layout (body ++ rest) = .ok (seen value)
  /-- Bytes that can be read begin with those that are written for the value. -/
  front : ∀ bytes value, decodeBody layout bytes = .ok value → layout.write value <+: bytes
  /-- A body that was cut cannot be read. -/
  cut : ∀ value limit body part, encodeBody layout value limit = .ok body → part <+: body →
    part ≠ body → ∃ reason, decodeBody layout part = .error (.notReadable reason)
  /-- Values with one body are seen as one value. -/
  distinct : ∀ left right limit bound body, encodeBody layout left limit = .ok body →
    encodeBody layout right bound = .ok body → seen left = seen right

section PrefixCode

variable {α : Type} {layout : Layout α} {seen : α → α}

/-- Of a body that was cut, no value can be read: its own bytes would be followed by others in the
whole, of which the whole leaves none. -/
theorem decodeBody_cut (faithful : layout.Faithful seen) (canonical : layout.Canonical) {value : α}
    (fits : Fits layout value) {part : Bytes} (early : part <+: layout.write value)
    (strict : part ≠ layout.write value) :
    ∃ reason, decodeBody layout part = .error (.notReadable reason) := by
  cases read : layout.read part with
  | error fault => exact ⟨fault.message, by rw [decodeBody, read]⟩
  | ok result =>
      obtain ⟨other, left⟩ := result
      obtain ⟨lost, whole⟩ := early
      have short : (layout.write value).length < UInt64.size := Nat.lt_trans fits (by decide)
      have inner := canonical part other left read
      rw [inner, List.append_assoc] at whole
      have small : (layout.write other).length < UInt64.size := by
        rw [← whole, List.length_append] at short
        omega
      have back := faithful value [] short
      rw [List.append_nil, ← whole, faithful other (left ++ lost) small] at back
      have none : left ++ lost = [] := congrArg Prod.snd (Except.ok.inj back)
      rw [(List.append_eq_nil_iff.mp none).1, List.append_nil] at inner
      rw [none, List.append_nil] at whole
      exact absurd (inner.trans whole) strict

/-- A layout that reads back what it writes, and nothing else, is a prefix code. -/
theorem Layout.Canonical.prefixCode (canonical : layout.Canonical)
    (faithful : layout.Faithful seen) : PrefixCode layout seen where
  written _ _ _ := encodeBody_eq_ok
  back value limit body rest encoded := by
    obtain ⟨rfl, _, fits⟩ := encodeBody_eq_ok.mp encoded
    exact decodeBody_append faithful fits rest
  front bytes value decoded := by
    obtain ⟨rest, read⟩ := decodeBody_eq_ok.mp decoded
    exact ⟨rest, (canonical bytes value rest read).symm⟩
  cut value limit body part encoded early strict := by
    obtain ⟨rfl, _, fits⟩ := encodeBody_eq_ok.mp encoded
    exact decodeBody_cut faithful canonical fits early strict
  distinct left right limit bound body one other := by
    obtain ⟨rfl, _, fits⟩ := encodeBody_eq_ok.mp one
    obtain ⟨same, _, short⟩ := encodeBody_eq_ok.mp other
    rw [same] at short
    have first := decodeBody_write faithful fits
    rw [same, decodeBody_write faithful short] at first
    exact (Except.ok.inj first).symm

end PrefixCode

/-- Messages, records, lists of copies and statistics are each written in one way only, and read
back from it, apart from the flows and scopes of addresses. -/
theorem bodies_prefixCode :
    PrefixCode Layout.message Message.unscoped ∧
      PrefixCode Layout.peerRecord PeerRecord.unscoped ∧
      PrefixCode Layout.entry.list (List.map Entry.unscoped) ∧
      PrefixCode Layout.stats id := by
  refine ⟨?_, ?_, ?_, ?_⟩
  · exact Layout.message_canonical.prefixCode Layout.message_faithful
  · exact Layout.peerRecord_canonical.prefixCode Layout.peerRecord_faithful
  · exact Layout.entry_canonical.list.prefixCode (Layout.entry_faithful.list Layout.entry_positive)
  · exact Layout.stats_canonical.prefixCode Layout.stats_faithful

/-- Eight bytes of a block are written again as they were read. -/
theorem CoordinateBlock.highestFirst_doubleAt {bytes : Bytes} {place : Nat}
    (enough : place + 8 ≤ bytes.length) :
    highestFirst 8 (doubleAt bytes place).bits.toNat = (bytes.drop place).take 8 := by
  have eight : ((bytes.drop place).take 8).length = 8 := by
    rw [List.length_take, List.length_drop]
    omega
  have small := ofHighestFirst_lt ((bytes.drop place).take 8)
  rw [eight] at small
  have kept : (doubleAt bytes place).bits.toNat = ofHighestFirst ((bytes.drop place).take 8) :=
    UInt64.toNat_ofNat_of_lt' small
  have written := highestFirst_ofHighestFirst ((bytes.drop place).take 8)
  rwa [eight, ← kept] at written

/-- A block is written again bit for bit as it was read. -/
theorem CoordinateBlock.encode_decode {bytes : Bytes} (length : bytes.length = size) :
    (decode bytes).encode = bytes := by
  have length : bytes.length = 32 := length
  have double (place : Nat) (enough : place + 8 ≤ bytes.length) :
      highestFirst 8 (doubleAt bytes place).bits.toNat = (bytes.drop place).take 8 :=
    highestFirst_doubleAt enough
  have step (place : Nat) :
      (bytes.drop place).take 8 ++ bytes.drop (place + 8) = bytes.drop place := by
    rw [← List.drop_drop, List.take_append_drop]
  have all : (bytes.drop 24).take 8 = bytes.drop 24 :=
    List.take_of_length_le (by rw [List.length_drop]; omega)
  simp only [encode, decode, List.flatMap_cons, List.flatMap_nil, List.append_nil]
  rw [double 0 (by omega), double 8 (by omega), double 16 (by omega), double 24 (by omega), all,
    step 16, step 8, step 0, List.drop_zero]

end Overlay.Wire
