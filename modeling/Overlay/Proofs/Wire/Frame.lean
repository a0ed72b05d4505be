import Overlay.Proofs.Wire.RoundTrip

/-!
Frames at the front of byte strings, and what is left of a frame that was cut.
-/

set_option autoImplicit false

namespace Overlay.Wire

variable {α : Type}

/-- A complete frame at the front of a byte string: a length in four bytes, not above the maximum,
and a body of that length which can be read. -/
def IsFrame (layout : Layout α) (maximum : Nat) (bytes : Bytes) (value : α) : Prop :=
  ∃ header body rest, bytes = header ++ (body ++ rest) ∧ header.length = 4 ∧
    ofHighestFirst header = body.length ∧ body.length ≤ maximum ∧
    decodeBody layout body = .ok value

theorem isFrame_iff {layout : Layout α} {maximum : Nat} {bytes : Bytes} {value : α} :
    IsFrame layout maximum bytes value ↔
      let length := ofHighestFirst (bytes.take 4)
      4 ≤ bytes.length ∧ length ≤ maximum ∧ length ≤ (bytes.drop 4).length ∧
        decodeBody layout ((bytes.drop 4).take length) = .ok value := by
  constructor
  · rintro ⟨header, body, rest, rfl, four, length, small, decoded⟩
    have front : (header ++ (body ++ rest)).take 4 = header := List.take_left' four
    have behind : (header ++ (body ++ rest)).drop 4 = body ++ rest := List.drop_left' four
    simp only [front, behind, length, List.take_left', decoded, List.length_append, four]
    exact ⟨by omega, small, by omega, trivial⟩
  · rintro ⟨four, small, within, decoded⟩
    refine ⟨bytes.take 4, (bytes.drop 4).take (ofHighestFirst (bytes.take 4)),
      (bytes.drop 4).drop (ofHighestFirst (bytes.take 4)), ?_, ?_, ?_, ?_, decoded⟩
    · rw [List.take_append_drop, List.take_append_drop]
    · exact List.length_take_of_le four
    · exact (List.length_take_of_le within).symm
    · rwa [List.length_take_of_le within]

theorem IsFrame.unique {layout : Layout α} {maximum : Nat} {bytes : Bytes} {first second : α}
    (left : IsFrame layout maximum bytes first) (right : IsFrame layout maximum bytes second) :
    first = second := by
  rw [isFrame_iff] at left right
  have same := left.2.2.2.symm.trans right.2.2.2
  exact Except.ok.inj same

section Header

variable {layout : Layout α} {maximum : Nat} {bytes header body rest : Bytes} {value : α}

theorem not_isFrame_nil : ¬ IsFrame layout maximum [] value := by
  rw [isFrame_iff]
  exact fun complete => absurd complete.1 (by decide)

/-- What comes after a frame does not count. -/
theorem IsFrame.append (complete : IsFrame layout maximum bytes value) (rest : Bytes) :
    IsFrame layout maximum (bytes ++ rest) value := by
  obtain ⟨header, body, behind, rfl, four, length, small, decoded⟩ := complete
  refine ⟨header, body, behind ++ rest, ?_, four, length, small, decoded⟩
  simp only [List.append_assoc]

/-- A header says how a frame goes on. -/
theorem isFrame_header (four : header.length = 4) :
    IsFrame layout maximum (header ++ rest) value ↔
      ofHighestFirst header ≤ maximum ∧ ofHighestFirst header ≤ rest.length ∧
        decodeBody layout (rest.take (ofHighestFirst header)) = .ok value := by
  rw [isFrame_iff, List.take_left' four, List.drop_left' four]
  exact and_iff_right (by rw [List.length_append, four]; omega)

theorem isFrame_body (four : header.length = 4) (length : body.length = ofHighestFirst header) :
    IsFrame layout maximum (header ++ (body ++ rest)) value ↔
      ofHighestFirst header ≤ maximum ∧ decodeBody layout body = .ok value := by
  rw [isFrame_header four, ← length, List.take_left]
  exact and_congr_right fun _ => and_iff_right (by rw [List.length_append]; omega)

/-- Whoever looks for a frame behind some bytes has to read so many more of them, since there is no
frame with fewer. -/
structure Wants (layout : Layout α) (maximum : Nat) (bytes : Bytes) (count : Nat) : Prop where
  early : bytes.length ≤ 4
  enough : ∀ rest value, IsFrame layout maximum (bytes ++ rest) value → count ≤ rest.length

theorem wants_header : Wants layout maximum [] 4 where
  early := Nat.zero_le 4
  enough _ _ complete := (isFrame_iff.mp complete).1

theorem wants_body (four : header.length = 4) :
    Wants layout maximum header (ofHighestFirst header) where
  early := Nat.le_of_eq four
  enough _ _ complete := ((isFrame_header four).mp complete).2.1

end Header

/-- The bytes of a frame. -/
def frame (layout : Layout α) (value : α) : Bytes :=
  highestFirst 4 (layout.write value).length ++ layout.write value

/-- A body that is not too large for any frame. -/
def Fits (layout : Layout α) (value : α) : Prop := (layout.write value).length < UInt32.size

/-- A body is written as long as neither the limit nor four bytes are too few for its length. -/
theorem encodeBody_eq_ok {layout : Layout α} {value : α} {limit : Nat} {body : Bytes} :
    encodeBody layout value limit = .ok body ↔
      body = layout.write value ∧ body.length ≤ limit ∧ body.length < UInt32.size := by
  by_cases large : limit < (layout.write value).length ∨ UInt32.size ≤ (layout.write value).length
  · rw [encodeBody, if_pos large]
    refine ⟨nofun, ?_⟩
    rintro ⟨rfl, small⟩
    omega
  · rw [encodeBody, if_neg large]
    constructor
    · rintro ⟨⟩
      exact ⟨rfl, by omega⟩
    · rintro ⟨rfl, _⟩
      rfl

theorem encodeFrame_eq_ok {layout : Layout α} {value : α} {limit : Nat} {bytes : Bytes} :
    encodeFrame layout value limit = .ok bytes ↔
      bytes = frame layout value ∧ (layout.write value).length ≤ limit ∧ Fits layout value := by
  rw [encodeFrame]
  cases encoded : encodeBody layout value limit with
  | error fault =>
      refine ⟨nofun, fun ⟨_, small, fits⟩ => ?_⟩
      rw [encodeBody_eq_ok.mpr ⟨rfl, small, fits⟩] at encoded
      cases encoded
  | ok body =>
      obtain ⟨rfl, small, fits⟩ := encodeBody_eq_ok.mp encoded
      constructor
      · rintro ⟨⟩
        exact ⟨rfl, small, fits⟩
      · rintro ⟨rfl, _⟩
        rfl

theorem frame_of_encodeFrame {layout : Layout α} {value : α} {limit : Nat} {bytes : Bytes}
    (encoded : encodeFrame layout value limit = .ok bytes) :
    bytes = frame layout value ∧ Fits layout value := by
  obtain ⟨written, _, fits⟩ := encodeFrame_eq_ok.mp encoded
  exact ⟨written, fits⟩

theorem decodeBody_eq_ok {layout : Layout α} {bytes : Bytes} {value : α} :
    decodeBody layout bytes = .ok value ↔ ∃ rest, layout.read bytes = .ok (value, rest) := by
  rw [decodeBody]
  split
  · next other rest read => simp [read]
  · next fault read => simp [read]

/-- Whoever reads a header and the body that it announces from the front of a frame has read the
whole frame. -/
theorem body_of_front {layout : Layout α} {value : α} {header body : Bytes}
    (fits : Fits layout value) (front : header ++ body <+: frame layout value)
    (four : header.length = 4) (length : ofHighestFirst header = body.length) :
    body = layout.write value := by
  obtain ⟨rest, whole⟩ := front
  rw [List.append_assoc, frame] at whole
  obtain ⟨announced, behind⟩ := List.append_inj whole (four.trans (length_highestFirst 4 _).symm)
  rw [announced, ofHighestFirst_highestFirst fits] at length
  exact (List.append_inj (behind.trans (List.append_nil _).symm) length.symm).1

/-- A body that was written is read as it is seen through the wire, whatever follows it. -/
theorem decodeBody_append {layout : Layout α} {seen : α → α} (faithful : layout.Faithful seen)
    {value : α} (fits : Fits layout value) (rest : Bytes) :
    decodeBody layout (layout.write value ++ rest) = .ok (seen value) :=
  decodeBody_eq_ok.mpr ⟨rest, faithful value rest (Nat.lt_trans fits (by decide))⟩

theorem decodeBody_write {layout : Layout α} {seen : α → α} (faithful : layout.Faithful seen)
    {value : α} (fits : Fits layout value) :
    decodeBody layout (layout.write value) = .ok (seen value) := by
  have whole := decodeBody_append faithful fits []
  rwa [List.append_nil] at whole

section Cut

variable {layout : Layout α} {seen : α → α} {value read : α} {maximum : Nat} {bytes : Bytes}

/-- Of a frame that was cut, nothing can be read but the whole. -/
theorem eq_of_isFrame (faithful : layout.Faithful seen) (fits : Fits layout value)
    (front : bytes <+: frame layout value) (complete : IsFrame layout maximum bytes read) :
    read = seen value := by
  obtain ⟨header, body, rest, rfl, four, length, _, decoded⟩ := complete
  rw [← List.append_assoc] at front
  have early := (List.prefix_append (header ++ body) rest).trans front
  rw [body_of_front fits early four length, decodeBody_write faithful fits] at decoded
  exact (Except.ok.inj decoded).symm

/-- Where something can be read of a frame, the frame was not cut. -/
theorem eq_frame_of_isFrame (fits : Fits layout value) (front : bytes <+: frame layout value)
    (complete : IsFrame layout maximum bytes read) : bytes = frame layout value := by
  obtain ⟨header, body, rest, rfl, four, length, _, _⟩ := complete
  refine front.eq_of_length_le ?_
  rw [← List.append_assoc] at front
  have early := (List.prefix_append (header ++ body) rest).trans front
  rw [body_of_front fits early four length, frame]
  simp only [List.length_append, length_highestFirst, four]
  omega

end Cut

/-- A frame is read as it is seen through the wire. -/
theorem isFrame_frame {layout : Layout α} {seen : α → α} (faithful : layout.Faithful seen)
    {value : α} {maximum : Nat} (small : (layout.write value).length ≤ maximum)
    (fits : Fits layout value) : IsFrame layout maximum (frame layout value) (seen value) := by
  refine ⟨highestFirst 4 (layout.write value).length, layout.write value, [], ?_,
    length_highestFirst 4 _, ofHighestFirst_highestFirst fits, small,
    decodeBody_write faithful fits⟩
  rw [List.append_nil, frame]

end Overlay.Wire
