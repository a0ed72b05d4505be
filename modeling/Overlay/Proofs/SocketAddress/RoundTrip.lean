import Mathlib.Data.List.Induction
import Overlay.Proofs.SocketAddress.Numbers

/-!
An address is read back from its text.

A wide address is written with the longest run of zero groups left out, and a reader finds out how
many groups are missing from those that it read on both sides of the gap. So the groups that were
read with the zeros between them are all groups (`readWide_wideText`). The text does not show the
flow, so the address that is read has none (`ofText?_text`).
-/

set_option autoImplicit false

namespace Overlay.SocketAddress

variable {rest : List Char} {items : List Nat}

/-- The flow of an address; the narrower family has none. -/
def flow : SocketAddress → UInt32
  | .v4 _ _ => 0
  | .v6 _ _ flow _ => flow

section Groups

/-- What may stand behind the groups of an address: a bracket, a scope, or a gap. -/
inductive EndsGroups : List Char → Prop
  | bracket (rest : List Char) : EndsGroups (']' :: rest)
  | scope (rest : List Char) : EndsGroups ('%' :: rest)
  | gap (rest : List Char) : EndsGroups (':' :: ':' :: rest)

/-- What may stand behind one group: the next one, or the end of all. -/
inductive EndsGroup : List Char → Prop
  | next (rest : List Char) : EndsGroup (':' :: rest)
  | bracket (rest : List Char) : EndsGroup (']' :: rest)
  | scope (rest : List Char) : EndsGroup ('%' :: rest)

theorem EndsGroups.endsGroup (ends : EndsGroups rest) : EndsGroup rest := by
  cases ends with
  | bracket rest => exact .bracket rest
  | scope rest => exact .scope rest
  | gap rest => exact .next _

theorem EndsGroup.breaks_sixteen (ends : EndsGroup rest) : Breaks 16 rest := by
  cases ends <;> exact breaks_cons (by decide)

theorem EndsGroup.breaks_ten (ends : EndsGroup rest) : Breaks 10 rest := by
  cases ends <;> exact breaks_cons (by decide)

theorem EndsGroup.head_ne_dot (ends : EndsGroup rest) : rest.head? ≠ some '.' := by
  cases ends <;> simp

theorem dot_notMem_toDigits (number : Nat) : '.' ∉ Nat.toDigits 16 number := by
  induction number using Nat.strongRecOn with
  | ind number ih =>
      rw [Nat.toDigits_eq_if (by omega)]
      split
      · next single =>
          rw [List.mem_singleton]
          exact Ne.symm (digitChar_ne_dot number single)
      · next more =>
          rw [List.mem_append, List.mem_singleton, not_or]
          exact ⟨ih _ (by omega), Ne.symm (digitChar_ne_dot _ (by omega))⟩

/-- Groups that each follow a colon. -/
def trail (groups : List Nat) : List Char :=
  groups.flatMap fun group => ':' :: Nat.toDigits 16 group

theorem endsGroup_trail (groups : List Nat) (ends : EndsGroup rest) :
    EndsGroup (trail groups ++ rest) := by
  cases groups with
  | nil => exact ends
  | cons group groups => exact .next _

theorem toList_coloned_cons (group : Nat) (groups : List Nat) :
    (coloned (group :: groups)).toList = Nat.toDigits 16 group ++ trail groups := by
  induction groups generalizing group with
  | nil => simp [coloned, Hexadecimal.text, trail]
  | cons next groups ih =>
      have later := ih next
      simp only [coloned, Hexadecimal.text, String.toList_intercalate, List.map_cons,
        String.toList_ofList] at later ⊢
      rw [List.intercalate_cons_cons, later]
      simp [trail]

/-- Where the groups end, no further one is read. -/
theorem readGroups_ends (room : Nat) (isFirst : Bool) (ends : EndsGroups rest) :
    readGroups room isFirst rest = ([], false, rest) := by
  have none_here (rest : List Char) (breaks : Breaks 16 rest) (tenBreaks : Breaks 10 rest)
      (undotted : rest.head? ≠ some '.') :
      readNumber 16 65536 (some 4) true rest = none ∧ readNarrow rest = none := by
    have empty : '.' ∉ ([] : List Char) := List.not_mem_nil
    exact ⟨readNumber_of_breaks _ _ _ breaks, readNarrow_eq_none empty tenBreaks undotted⟩
  have here := none_here rest ends.endsGroup.breaks_sixteen ends.endsGroup.breaks_ten
    ends.endsGroup.head_ne_dot
  cases room with
  | zero => rfl
  | succ room =>
      cases isFirst with
      | true => simp [readGroups, here]
      | false =>
          cases ends with
          | bracket rest => simp [readGroups, readChar]
          | scope rest => simp [readGroups, readChar]
          | gap rest =>
              have behind := EndsGroup.next rest
              have later := none_here (':' :: rest) behind.breaks_sixteen behind.breaks_ten
                behind.head_ne_dot
              simp [readGroups, later]

/-- A colon before a text, unless it is the first one. -/
def led (isFirst : Bool) (text : List Char) : List Char := if isFirst then text else ':' :: text

/-- One group, and what is read after it. -/
theorem readGroups_digits (room : Nat) {group : Nat} (isFirst : Bool) (inside : group < 65536)
    (ends : EndsGroup rest) :
    readGroups (room + 1) isFirst (led isFirst (Nat.toDigits 16 group ++ rest)) =
      (group :: (readGroups room false rest).1, (readGroups room false rest).2) := by
  have wide : readNarrow (Nat.toDigits 16 group ++ rest) = none :=
    readNarrow_eq_none (dot_notMem_toDigits group) ends.breaks_ten ends.head_ne_dot
  have read : readNumber 16 65536 (some 4) true (Nat.toDigits 16 group ++ rest) =
      some (group, rest) :=
    readNumber_toDigits (by omega) (by omega) inside (by simpa using inside) rfl
      ends.breaks_sixteen
  cases isFirst <;> simp [led, readGroups, wide, read]

/-- All groups are read where there is room for them. -/
theorem readGroups_trail {room : Nat} (inside : ∀ group ∈ items, group < 65536)
    (fits : items.length ≤ room) (ends : EndsGroups rest) :
    readGroups room false (trail items ++ rest) = (items, false, rest) := by
  induction items generalizing room with
  | nil => exact readGroups_ends room false ends
  | cons group items ih =>
      rw [List.length_cons] at fits
      obtain ⟨room, rfl⟩ : ∃ fewer, room = fewer + 1 := ⟨room - 1, by omega⟩
      have later := ih (fun group held => inside group (List.mem_cons_of_mem _ held))
        (Nat.le_of_succ_le_succ fits)
      have first := readGroups_digits room false (inside group List.mem_cons_self)
        (endsGroup_trail items ends.endsGroup)
      rw [later] at first
      simpa [trail, led] using first

theorem readGroups_coloned (room : Nat) (inside : ∀ group ∈ items, group < 65536)
    (fits : items.length ≤ room) (ends : EndsGroups rest) :
    readGroups room true ((coloned items).toList ++ rest) = (items, false, rest) := by
  cases items with
  | nil => exact readGroups_ends room true ends
  | cons group items =>
      rw [List.length_cons] at fits
      obtain ⟨room, rfl⟩ : ∃ fewer, room = fewer + 1 := ⟨room - 1, by omega⟩
      have later := readGroups_trail (fun group held => inside group (List.mem_cons_of_mem _ held))
        (Nat.le_of_succ_le_succ fits) ends
      have first := readGroups_digits room true (inside group List.mem_cons_self)
        (endsGroup_trail items ends.endsGroup)
      rw [later] at first
      rw [toList_coloned_cons, List.append_assoc]
      exact first

/-- A narrow address behind one group is read as the last two groups. -/
theorem readGroups_dotted {ip : Nat} (inside : ip < UInt32.size) (ends : EndsGroups rest) :
    readGroups 7 true (Nat.toDigits 16 65535 ++ ':' :: ((dotted ip).toList ++ rest)) =
      ([65535, ip / 65536, ip % 65536], true, rest) := by
  have narrow := readNarrow_dotted inside ends.endsGroup.breaks_ten
  have later : readGroups 6 false (':' :: ((dotted ip).toList ++ rest)) =
      ([ip / 65536, ip % 65536], true, rest) := by
    simp [readGroups, narrow]
  have first := readGroups_digits 6 true (by omega : 65535 < 65536)
    (.next ((dotted ip).toList ++ rest))
  rw [later] at first
  exact first

end Groups

section Runs

/-- A run lies inside the groups, and all groups in it are zero. -/
structure IsRun (items : List Nat) (run : ZeroRun) : Prop where
  inside : run.start + run.length ≤ items.length
  zero : ∀ place, run.start ≤ place → place < run.start + run.length → items[place]? = some 0

/-- A run that may still grow: it is empty, or it ends where the groups end. -/
structure IsLastRun (items : List Nat) (run : ZeroRun) : Prop extends IsRun items run where
  last : run.length ≠ 0 → run.start + run.length = items.length

/-- A run with one more zero at a place. -/
def grown (run : ZeroRun) (place : Nat) : ZeroRun :=
  if run.length = 0 then ⟨place, 1⟩ else ⟨run.start, run.length + 1⟩

/-- One more group: the best run so far, and the one that may still grow. -/
def zeroStep (state : ZeroRun × ZeroRun) (item : Nat × Nat) : ZeroRun × ZeroRun :=
  if item.1 = 0 then
    (if state.1.length < (grown state.2 item.2).length then grown state.2 item.2 else state.1,
      grown state.2 item.2)
  else (state.1, ⟨0, 0⟩)

theorem isLastRun_empty (items : List Nat) : IsLastRun items ⟨0, 0⟩ where
  inside := Nat.zero_le _
  zero place _ before := absurd before (Nat.not_lt_zero place)
  last some_zeros := absurd rfl some_zeros

theorem IsRun.concat {run : ZeroRun} (isRun : IsRun items run) (last : Nat) :
    IsRun (items ++ [last]) run := by
  have inside := isRun.inside
  refine ⟨by simp; omega, fun place behind before => ?_⟩
  rw [List.getElem?_append_left (by omega)]
  exact isRun.zero place behind before

theorem IsLastRun.grown {run : ZeroRun} (isLast : IsLastRun items run) :
    IsLastRun (items ++ [0]) (grown run items.length) := by
  have length : (items ++ [0]).length = items.length + 1 := by simp
  by_cases empty : run.length = 0
  · rw [SocketAddress.grown, if_pos empty]
    refine ⟨⟨by simp, fun place behind before => ?_⟩, fun _ => length.symm⟩
    obtain rfl : place = items.length := Nat.le_antisymm (Nat.le_of_lt_succ before) behind
    exact List.getElem?_concat_length
  · have ends := isLast.last empty
    rw [SocketAddress.grown, if_neg empty]
    refine ⟨⟨by simp; omega, fun place behind before => ?_⟩, fun _ => by simp; omega⟩
    dsimp only at behind before
    by_cases old : place < items.length
    · rw [List.getElem?_append_left old]
      exact isLast.zero place behind (by omega)
    · obtain rfl : place = items.length := by omega
      exact List.getElem?_concat_length

theorem zeroStep_isRun {state : ZeroRun × ZeroRun} (best : IsRun items state.1)
    (isLast : IsLastRun items state.2) (last : Nat) :
    IsRun (items ++ [last]) (zeroStep state (last, items.length)).1 ∧
      IsLastRun (items ++ [last]) (zeroStep state (last, items.length)).2 := by
  by_cases zero : last = 0
  · subst zero
    simp only [zeroStep, ↓reduceIte]
    refine ⟨?_, isLast.grown⟩
    split
    · exact isLast.grown.toIsRun
    · exact best.concat 0
  · simp only [zeroStep, zero, ↓reduceIte]
    exact ⟨best.concat last, isLastRun_empty _⟩

theorem longestZeroRun_isRun (items : List Nat) : IsRun items (longestZeroRun items) := by
  have both : IsRun items (items.zipIdx.foldl zeroStep (⟨0, 0⟩, ⟨0, 0⟩)).1 ∧
      IsLastRun items (items.zipIdx.foldl zeroStep (⟨0, 0⟩, ⟨0, 0⟩)).2 := by
    induction items using List.reverseRecOn with
    | nil => exact ⟨(isLastRun_empty []).toIsRun, isLastRun_empty []⟩
    | append_singleton items last ih =>
        rw [List.zipIdx_append, List.foldl_append]
        simpa using zeroStep_isRun ih.1 ih.2 last
  exact both.1

/-- The groups are those before a run, as many zeros as it is long, and those after it. -/
theorem IsRun.split {run : ZeroRun} (isRun : IsRun items run) :
    items.take run.start ++ List.replicate run.length 0 ++ items.drop (run.start + run.length) =
      items := by
  have zeros : (items.drop run.start).take run.length = List.replicate run.length 0 := by
    refine List.ext_getElem? fun place => ?_
    by_cases inside : place < run.length
    · rw [List.getElem?_take_of_lt inside, List.getElem?_drop, List.getElem?_replicate_of_lt inside]
      exact isRun.zero _ (by omega) (by omega)
    · rw [List.getElem?_eq_none (by simp; omega), List.getElem?_eq_none (by simp; omega)]
  rw [← zeros, List.append_assoc, ← List.drop_drop, List.take_append_drop, List.take_append_drop]

end Runs

section Wide

variable (ip : BitVec 128)

theorem length_groups : (groups ip).length = 8 := by simp [groups]

theorem groups_lt : ∀ group ∈ groups ip, group < 65536 := by
  intro group held
  obtain ⟨index, -, rfl⟩ := List.mem_map.mp held
  exact Nat.mod_lt _ (by omega)

/-- Eight groups make their address. -/
theorem ofGroups_groups : ofGroups (groups ip) = ip := by
  have inside := ip.isLt
  apply BitVec.eq_of_toNat_eq
  simp only [ofGroups, groups, List.range, List.range.loop, List.map_cons, List.map_nil,
    List.foldl_cons, List.foldl_nil, BitVec.toNat_ofNat, Nat.pow_eq, Nat.reduceSub, Nat.reducePow]
  omega

/-- Around a gap, fewer than eight groups are read, and zeros fill the gap. -/
theorem readWide_gap (head : List Nat) {tail : List Nat} {narrow : Bool} {text : List Char}
    (before : ∀ group ∈ head, group < 65536) (some_zeros : head.length + tail.length < 8)
    (behind : readGroups (7 - head.length) true text = (tail, narrow, rest)) :
    readWide ((coloned head).toList ++ ':' :: ':' :: text) =
      some (ofGroups (head ++ List.replicate (8 - head.length - tail.length) 0 ++ tail), rest) := by
  have first := readGroups_coloned 8 before (by omega) (.gap text)
  have few : ¬ head.length = 8 := by omega
  simp [readWide, first, few, behind]

theorem toList_mapped (narrow : String) (rest : List Char) :
    ("::ffff:" ++ narrow).toList ++ rest = (coloned []).toList ++ ':' :: ':' ::
      (Nat.toDigits 16 65535 ++ ':' :: (narrow.toList ++ rest)) := by
  have digits : Nat.toDigits 16 65535 = ['f', 'f', 'f', 'f'] := by decide
  simp [coloned, digits]

/-- The groups of an address of the narrower family inside the wider one. -/
theorem ofGroups_mapped (mapped : ip.toNat / UInt32.size = 65535) :
    ofGroups ([] ++ List.replicate 5 0 ++
      [65535, ip.toNat % UInt32.size / 65536, ip.toNat % UInt32.size % 65536]) = ip := by
  apply BitVec.eq_of_toNat_eq
  rw [UInt32.size] at mapped ⊢
  simp [ofGroups]
  omega

/-- A wide address is read back. -/
theorem readWide_wideText (ends : EndsGroups rest) :
    readWide ((wideText ip).toList ++ rest) = some (ip, rest) := by
  have size := length_groups ip
  have small := groups_lt ip
  rw [wideText]
  split
  · next mapped =>
      have below : ip.toNat % UInt32.size < UInt32.size := Nat.mod_lt _ (by decide)
      have gap := readWide_gap [] (by simp) (by simp) (readGroups_dotted below ends)
      rw [toList_mapped, gap]
      exact congrArg (fun ip => some (ip, rest)) (ofGroups_mapped ip mapped)
  · have isRun := longestZeroRun_isRun (groups ip)
    generalize longestZeroRun (groups ip) = run at isRun
    have inside := isRun.inside
    dsimp only
    split
    · next some_zeros =>
        let head := (groups ip).take run.start
        let tail := (groups ip).drop (run.start + run.length)
        have before : head.length = run.start := by
          rw [List.length_take]
          omega
        have behind : tail.length = 8 - (run.start + run.length) := by
          rw [List.length_drop, size]
        have missing : 8 - head.length - tail.length = run.length := by omega
        have later := readGroups_coloned (7 - head.length)
          (fun group held => small group (List.mem_of_mem_drop held))
          (by omega : tail.length ≤ 7 - head.length) ends
        have gap := readWide_gap head (fun group held => small group (List.mem_of_mem_take held))
          (by omega : head.length + tail.length < 8) later
        rw [missing, isRun.split, ofGroups_groups] at gap
        simpa [head, tail] using gap
    · have whole := readGroups_coloned 8 small (by omega) ends
      simp [readWide, whole, size, ofGroups_groups]

end Wide

theorem readPort_toDigits (port : UInt16) :
    readPort (':' :: Nat.toDigits 10 port.toNat) = some (port, []) := by
  have inside : port.toNat < 65536 := port.toNat_lt
  have read := readNumber_decimal inside (breaks_nil 10)
  rw [List.append_nil] at read
  simp [readPort, read]

theorem readNarrowSocket_text (ip : BitVec 32) (port : UInt16) :
    readNarrowSocket (text (.v4 ip port)).toList = some (.v4 ip port, []) := by
  have breaks : Breaks 10 (':' :: Nat.toDigits 10 port.toNat) := breaks_cons (by decide)
  have read := readNarrow_dotted ip.isLt breaks
  simp [text, readNarrowSocket, read, readPort_toDigits]

/-- The scope of a wide address as it stands in front of the bracket. -/
def zone (scope : UInt32) : List Char :=
  if scope = 0 then [] else '%' :: Nat.toDigits 10 scope.toNat

theorem endsGroups_zone (scope : UInt32) (rest : List Char) :
    EndsGroups (zone scope ++ ']' :: rest) := by
  rw [zone]
  split
  · exact .bracket rest
  · exact .scope _

theorem readScope_zone (scope : UInt32) (rest : List Char) :
    (readScope (zone scope ++ ']' :: rest)).getD (0, zone scope ++ ']' :: rest) =
      (scope, ']' :: rest) := by
  rw [zone]
  split
  · next none => simp [readScope, readChar, none]
  · have inside : scope.toNat < UInt32.size := scope.toNat_lt
    have breaks : Breaks 10 (']' :: rest) := breaks_cons (by decide)
    have read := readNumber_decimal inside breaks
    simp [readScope, read]

theorem toList_text_v6 (ip : BitVec 128) (port : UInt16) (flow scope : UInt32) :
    (text (.v6 ip port flow scope)).toList = '[' ::
      ((wideText ip).toList ++ (zone scope ++ ']' :: ':' :: Nat.toDigits 10 port.toNat)) := by
  by_cases none : scope = 0
  · simp [text, zone, none]
  · simp [text, zone, none]

theorem readWideSocket_text (ip : BitVec 128) (port : UInt16) (scope : UInt32) :
    readWideSocket (text (.v6 ip port 0 scope)).toList = some (.v6 ip port 0 scope, []) := by
  have wide := readWide_wideText ip (endsGroups_zone scope (':' :: Nat.toDigits 10 port.toNat))
  simp [toList_text_v6, readWideSocket, wide, readScope_zone, readPort_toDigits]

/-- An address without a flow is read back from its text. -/
theorem ofText?_text {address : SocketAddress} (plain : address.flow = 0) :
    ofText? address.text = some address := by
  cases address with
  | v4 ip port => simp [ofText?, readNarrowSocket_text]
  | v6 ip port flow scope =>
      obtain rfl : flow = 0 := plain
      have bracket : Breaks 10 ('[' :: ((wideText ip).toList ++
          (zone scope ++ ']' :: ':' :: Nat.toDigits 10 port.toNat))) := breaks_cons (by decide)
      have narrow : readNarrowSocket (text (.v6 ip port 0 scope)).toList = none := by
        rw [toList_text_v6]
        simp [readNarrowSocket, readNarrow, readNumber_of_breaks _ _ _ bracket]
      simp [ofText?, narrow, readWideSocket_text]

end Overlay.SocketAddress
