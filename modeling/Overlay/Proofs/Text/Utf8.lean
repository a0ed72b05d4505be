import Overlay.Text.Utf8
import Mathlib.Tactic.SplitIfs

/-!
The bytes of a text are free of faults.
-/

set_option autoImplicit false

namespace Overlay.Text

/-- The bytes of an array in their order. -/
theorem toList_eq_data (bytes : ByteArray) : bytes.toList = bytes.data.toList := by
  have loop (place : Nat) (taken : List UInt8) :
      ByteArray.toList.loop bytes place taken =
        taken.reverse ++ bytes.data.toList.drop place := by
    fun_induction ByteArray.toList.loop bytes place taken with
    | case1 place taken inside ih =>
        have within : place < bytes.data.toList.length := inside
        have here : bytes.get! place = bytes.data.toList[place] := by
          have small : place < bytes.data.size := inside
          change bytes.data[place]! = _
          rw [getElem!_pos bytes.data place small, Array.getElem_toList]
        rw [ih, List.drop_eq_getElem_cons within, here, List.reverse_cons, List.append_assoc,
          List.singleton_append]
    | case2 place taken outside =>
        have behind : bytes.data.toList.length ≤ place := Nat.le_of_not_lt outside
        rw [List.drop_eq_nil_of_le behind, List.append_nil]
  exact loop 0 []

theorem toList_toUTF8 (text : String) :
    text.toUTF8.toList = text.toList.flatMap String.utf8EncodeChar := by
  rw [toList_eq_data, String.toUTF8_eq_toByteArray, ← String.utf8Encode_toList, List.utf8Encode,
    List.toList_data_toByteArray]

theorem faultFrom_skip (place : Nat) (skipped rest : List UInt8) :
    faultFrom place skipped.length (skipped ++ rest) =
      faultFrom (place + skipped.length) 0 rest := by
  induction skipped generalizing place with
  | nil => rfl
  | cons byte skipped ih =>
      rw [List.cons_append, List.length_cons, faultFrom, ih]
      congr 1
      omega

theorem misfit?_cons {range : ByteRange} {ranges : List ByteRange} {byte : UInt8}
    {bytes : List UInt8} (low : range.1.toNat ≤ byte.toNat) (high : byte.toNat ≤ range.2.toNat)
    (fits : misfit? ranges bytes = none) : misfit? (range :: ranges) (byte :: bytes) = none := by
  have inside : range.1 ≤ byte ∧ byte ≤ range.2 :=
    ⟨UInt8.le_iff_toNat_le.mpr low, UInt8.le_iff_toNat_le.mpr high⟩
  rw [misfit?, if_pos inside, fits]
  rfl

/-- The last six bits of a number make a byte that may stand behind others. -/
theorem misfit?_later (number : Nat) {ranges : List ByteRange} {bytes : List UInt8}
    (fits : misfit? ranges bytes = none) :
    misfit? (laterBytes :: ranges) (UInt8.ofNat (number % 64 + 128) :: bytes) = none := by
  have value : (UInt8.ofNat (number % 64 + 128)).toNat = number % 64 + 128 := by
    rw [UInt8.toNat_ofNat']
    omega
  refine misfit?_cons ?_ ?_ fits
  · change 128 ≤ _
    omega
  · change _ ≤ 191
    omega

theorem characterFault_ok {place : Nat} {first : UInt8} {more rest : List UInt8}
    {ranges : List ByteRange} (expected : following? first = some ranges)
    (fits : misfit? ranges (more ++ rest) = none) (same : ranges.length = more.length) :
    characterFault place first (more ++ rest) = .ok more.length := by
  rw [characterFault, expected]
  simp only [fits, same]

theorem characterFault_encode (character : Char) (place : Nat) (rest : List UInt8) :
    ∃ first more, String.utf8EncodeChar character = first :: more ∧
      characterFault place first (more ++ rest) = .ok more.length := by
  have valid : character.val.toNat < 0xd800 ∨
      0xdfff < character.val.toNat ∧ character.val.toNat < 0x110000 := character.valid
  have small (value : Nat) (bound : value < 256) : (UInt8.ofNat value).toNat = value := by
    rw [UInt8.toNat_ofNat']
    exact Nat.mod_eq_of_lt bound
  unfold String.utf8EncodeChar
  generalize character.val.toNat = number at valid
  have middle := small (number / 64 % 64 + 128) (by omega)
  simp only
  split_ifs with one two three
  · have first := small number (by omega)
    have expected : following? (UInt8.ofNat number) = some [] := by
      simp only [following?, UInt8.lt_iff_toNat_lt, first, UInt8.reduceToNat]
      rw [if_pos (by omega)]
    exact ⟨_, _, rfl, characterFault_ok expected rfl rfl⟩
  · have first := small (number / 64 % 32 + 192) (by omega)
    have expected : following? (UInt8.ofNat (number / 64 % 32 + 192)) = some [laterBytes] := by
      simp only [following?, UInt8.lt_iff_toNat_lt, first, UInt8.reduceToNat]
      rw [if_neg (by omega), if_neg (by omega), if_pos (by omega)]
    exact ⟨_, _, rfl, characterFault_ok expected (misfit?_later _ rfl) rfl⟩
  · have first := small (number / 4096 % 16 + 224) (by omega)
    have expected : ∃ range, following? (UInt8.ofNat (number / 4096 % 16 + 224)) =
        some [range, laterBytes] ∧ range.1.toNat ≤ number / 64 % 64 + 128 ∧
          number / 64 % 64 + 128 ≤ range.2.toNat := by
      simp only [following?, UInt8.lt_iff_toNat_lt, ← UInt8.toNat_inj, first, UInt8.reduceToNat]
      rw [if_neg (by omega), if_neg (by omega), if_neg (by omega)]
      split_ifs with low high other
      · exact ⟨_, rfl, by simp; omega, by simp; omega⟩
      · exact ⟨_, rfl, by simp, by simp; omega⟩
      · exact ⟨_, rfl, by simp [laterBytes], by simp [laterBytes]; omega⟩
      all_goals omega
    obtain ⟨range, expected, low, high⟩ := expected
    refine ⟨_, _, rfl, characterFault_ok expected ?_ rfl⟩
    exact misfit?_cons (by rwa [middle]) (by rwa [middle]) (misfit?_later _ rfl)
  · have first := small (number / 262144 % 8 + 240) (by omega)
    have second := small (number / 4096 % 64 + 128) (by omega)
    have expected : ∃ range, following? (UInt8.ofNat (number / 262144 % 8 + 240)) =
        some [range, laterBytes, laterBytes] ∧ range.1.toNat ≤ number / 4096 % 64 + 128 ∧
          number / 4096 % 64 + 128 ≤ range.2.toNat := by
      simp only [following?, UInt8.lt_iff_toNat_lt, ← UInt8.toNat_inj, first, UInt8.reduceToNat]
      rw [if_neg (by omega), if_neg (by omega), if_neg (by omega), if_neg (by omega),
        if_neg (by omega), if_neg (by omega)]
      split_ifs with low middling high
      · exact ⟨_, rfl, by simp; omega, by simp; omega⟩
      · exact ⟨_, rfl, by simp [laterBytes], by simp [laterBytes]; omega⟩
      · exact ⟨_, rfl, by simp, by simp; omega⟩
      · omega
    obtain ⟨range, expected, low, high⟩ := expected
    refine ⟨_, _, rfl, characterFault_ok expected ?_ rfl⟩
    refine misfit?_cons (by rwa [second]) (by rwa [second]) ?_
    exact misfit?_later _ (misfit?_later _ rfl)

theorem faultFrom_encode (character : Char) (place : Nat) (rest : List UInt8) :
    ∃ later, faultFrom place 0 (String.utf8EncodeChar character ++ rest) =
      faultFrom later 0 rest := by
  obtain ⟨first, more, encoded, clean⟩ := characterFault_encode character place rest
  refine ⟨place + 1 + more.length, ?_⟩
  rw [encoded, List.cons_append, faultFrom, clean]
  exact faultFrom_skip (place + 1) more rest

/-- A text has no faults in its bytes. -/
theorem utf8Fault?_toUTF8 (text : String) : utf8Fault? text.toUTF8.toList = none := by
  rw [toList_toUTF8, utf8Fault?]
  generalize text.toList = characters
  suffices clean : ∀ place,
      faultFrom place 0 (characters.flatMap String.utf8EncodeChar) = none from clean 0
  intro place
  induction characters generalizing place with
  | nil => rfl
  | cons character rest ih =>
      obtain ⟨later, same⟩ := faultFrom_encode character place (rest.flatMap String.utf8EncodeChar)
      rw [List.flatMap_cons, same]
      exact ih later

end Overlay.Text
