import Mathlib.Algebra.Order.Group.Nat
import Overlay.SocketAddress.Parser

/-!
Numbers inside the text of an address.

A number that is written without leading zeros is read back where the text after it does not go on
with a digit (`readNumber_toDigits`). Four numbers with dots between them are read back as the narrow
address that they stand for (`readNarrow_dotted`), and what has no dot behind its first number is no
narrow address (`readNarrow_eq_none`).
-/

set_option autoImplicit false

namespace Overlay.SocketAddress

variable {base number : Nat} {rest : List Char}

/-- A text does not go on with a digit. -/
def Breaks (base : Nat) (rest : List Char) : Prop :=
  ∀ char, rest.head? = some char → digitValue base char = none

theorem breaks_nil (base : Nat) : Breaks base [] := nofun

theorem breaks_cons {char : Char} (other : digitValue base char = none) :
    Breaks base (char :: rest) := by
  intro first same
  obtain rfl : char = first := Option.some.inj same
  exact other

theorem digitValue_digitChar :
    ∀ base ≤ 16, ∀ value < base, digitValue base (Nat.digitChar value) = some value := by
  decide

theorem digitChar_ne_zero : ∀ value < 16, 0 < value → Nat.digitChar value ≠ '0' := by decide

theorem digitChar_ne_dot : ∀ value < 16, Nat.digitChar value ≠ '.' := by decide

theorem readDigits_of_breaks (breaks : Breaks base rest) (value count : Nat) :
    readDigits base rest value count = (value, count, rest) := by
  cases rest with
  | nil => rfl
  | cons char rest => rw [readDigits, breaks char rfl]

/-- Reading goes on behind the digits of a number with the number itself. The induction is on the
number: all its digits but the last are those of a smaller one. -/
theorem readDigits_toDigits (several : 1 < base) (small : base ≤ 16) (number : Nat)
    (rest : List Char) :
    readDigits base (Nat.toDigits base number ++ rest) 0 0 =
      readDigits base rest number (Nat.toDigits base number).length := by
  induction number using Nat.strongRecOn generalizing rest with
  | ind number ih =>
      rw [Nat.toDigits_eq_if several]
      split
      · next single =>
          rw [List.singleton_append, readDigits, digitValue_digitChar base small number single]
          simp
      · next more =>
          have fewer : number / base < number := Nat.div_lt_self (by omega) several
          have digit : number % base < base := Nat.mod_lt _ (by omega)
          rw [List.append_assoc, List.singleton_append, ih _ fewer, readDigits,
            digitValue_digitChar base small _ digit, List.length_append, List.length_singleton]
          dsimp only
          rw [Nat.mul_comm, Nat.div_add_mod]

theorem head?_toDigits_append (base number : Nat) (rest : List Char) :
    (Nat.toDigits base number ++ rest).head? = (Nat.toDigits base number).head? := by
  cases written : Nat.toDigits base number with
  | nil => exact absurd written Nat.toDigits_ne_nil
  | cons first digits => rfl

/-- A number that is not zero does not begin with one. -/
theorem head?_toDigits (several : 1 < base) (small : base ≤ 16) (number : Nat)
    (positive : 0 < number) : (Nat.toDigits base number).head? ≠ some '0' := by
  induction number using Nat.strongRecOn with
  | ind number ih =>
      rw [Nat.toDigits_eq_if several]
      split
      · next single =>
          simpa using digitChar_ne_zero number (by omega) positive
      · next more =>
          have fewer : number / base < number := Nat.div_lt_self positive several
          have some_left : 0 < number / base := Nat.div_pos (by omega) (by omega)
          rw [head?_toDigits_append]
          exact ih _ fewer some_left

theorem readNumber_toDigits {limit : Nat} {width : Option Nat} {leadingZero : Bool}
    (several : 1 < base) (small : base ≤ 16) (inside : number < limit)
    (fits : width.all (number < base ^ ·)) (wide : width.all (0 < ·)) (breaks : Breaks base rest) :
    readNumber base limit width leadingZero (Nat.toDigits base number ++ rest) =
      some (number, rest) := by
  have some_digit : 0 < (Nat.toDigits base number).length := Nat.length_toDigits_pos
  have short : ¬ width.any (· < (Nat.toDigits base number).length) := by
    cases width with
    | none => simp
    | some width =>
        have enough := (Nat.length_toDigits_le_iff several (by simpa using wide)).mpr
          (by simpa using fits : number < base ^ width)
        simpa using enough
  have plain : ¬ (!leadingZero && (Nat.toDigits base number ++ rest).head? == some '0' &&
      decide (1 < (Nat.toDigits base number).length)) := by
    rw [head?_toDigits_append]
    intro padded
    simp only [Bool.and_eq_true, beq_iff_eq, decide_eq_true_eq] at padded
    obtain ⟨⟨-, zero⟩, many⟩ := padded
    rcases Nat.eq_zero_or_pos number with rfl | positive
    · simp at many
    · exact head?_toDigits several small number positive zero
  simp only [readNumber, readDigits_toDigits several small, readDigits_of_breaks breaks]
  rw [if_neg (Nat.ne_of_gt some_digit), if_neg short, if_neg plain, if_pos inside]

theorem readNumber_decimal {limit : Nat} (inside : number < limit) (breaks : Breaks 10 rest) :
    readNumber 10 limit none true (Nat.toDigits 10 number ++ rest) = some (number, rest) :=
  readNumber_toDigits (by decide) (by decide) inside rfl rfl breaks

/-- Where no digit stands, no number does. -/
theorem readNumber_of_breaks (limit : Nat) (width : Option Nat) (leadingZero : Bool)
    (breaks : Breaks base rest) : readNumber base limit width leadingZero rest = none := by
  simp only [readNumber, readDigits_of_breaks breaks, ↓reduceIte]

theorem readNumber_rest {limit : Nat} {width : Option Nat} {leadingZero : Bool}
    {text : List Char} {result : Nat × List Char}
    (read : readNumber base limit width leadingZero text = some result) :
    result.2 = (readDigits base text 0 0).2.2 := by
  simp only [readNumber] at read
  split at read
  · cases read
  · split at read
    · cases read
    · split at read
      · cases read
      · split at read
        · cases read
          rfl
        · cases read

/-- The digits of a text end at a dot only if one stands in it or right behind it. -/
theorem head?_readDigits {digits : List Char} (undotted : '.' ∉ digits)
    (breaks : Breaks base rest) (behind : rest.head? ≠ some '.') (value count : Nat) :
    (readDigits base (digits ++ rest) value count).2.2.head? ≠ some '.' := by
  induction digits generalizing value count with
  | nil =>
      rw [List.nil_append, readDigits_of_breaks breaks]
      exact behind
  | cons first digits ih =>
      rw [List.mem_cons, not_or] at undotted
      rw [List.cons_append, readDigits]
      split
      · exact ih undotted.2 _ _
      · simpa using Ne.symm undotted.1

theorem readChar_eq_none {expected : Char} {text : List Char}
    (other : text.head? ≠ some expected) : readChar expected text = none := by
  cases text with
  | nil => rfl
  | cons first text =>
      rw [List.head?_cons, ne_eq, Option.some.injEq] at other
      rw [readChar, if_neg other]

@[simp] theorem readChar_cons (expected : Char) (rest : List Char) :
    readChar expected (expected :: rest) = some ((), rest) := if_pos rfl

theorem readNarrow_eq_none {digits : List Char} (undotted : '.' ∉ digits)
    (breaks : Breaks 10 rest) (behind : rest.head? ≠ some '.') :
    readNarrow (digits ++ rest) = none := by
  rw [readNarrow]
  cases first : readNumber 10 256 (some 3) false (digits ++ rest) with
  | none => rfl
  | some result =>
      have ends : result.2.head? ≠ some '.' := by
        rw [readNumber_rest first]
        exact head?_readDigits undotted breaks behind 0 0
      simp only [Option.bind_eq_bind, Option.bind_some, readChar_eq_none ends, Option.bind_none]

theorem dotted_toList (ip : Nat) :
    (dotted ip).toList = Nat.toDigits 10 (ip / 16777216 % 256) ++ '.' ::
      (Nat.toDigits 10 (ip / 65536 % 256) ++ '.' ::
        (Nat.toDigits 10 (ip / 256 % 256) ++ '.' :: Nat.toDigits 10 (ip % 256))) := by
  simp [dotted]

/-- A narrow address is read back. -/
theorem readNarrow_dotted {ip : Nat} (inside : ip < UInt32.size) (breaks : Breaks 10 rest) :
    readNarrow ((dotted ip).toList ++ rest) = some (ip, rest) := by
  have octet (number : Nat) {rest : List Char} (breaks : Breaks 10 rest) :
      readNumber 10 256 (some 3) false (Nat.toDigits 10 (number % 256) ++ rest) =
        some (number % 256, rest) := by
    have below : number % 256 < 256 := Nat.mod_lt _ (by omega)
    exact readNumber_toDigits (by omega) (by omega) below (by simp; omega) rfl breaks
  have dot (rest : List Char) : Breaks 10 ('.' :: rest) := breaks_cons (by decide)
  have whole : ((ip / 16777216 % 256 * 256 + ip / 65536 % 256) * 256 + ip / 256 % 256) * 256
      + ip % 256 = ip := by
    rw [UInt32.size] at inside
    omega
  simp only [dotted_toList, List.append_assoc, List.cons_append, readNarrow, octet _ (dot _),
    octet _ breaks, readChar_cons, Option.bind_eq_bind, Option.bind_some, Option.pure_def, whole]

end Overlay.SocketAddress
