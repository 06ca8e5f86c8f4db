import Mathlib.Data.List.Induction
import Sentinel.Uart.Driver

/-! Decimal printing. The first loop leaves the digits in the buffer, the lowest first, and
the second sends them from the last to the first. -/

namespace Sentinel.Uart

/-- The character as a byte. -/
def byte (c : Char) : UInt8 := c.val.toUInt8

/-- The decimal digits of a number, the lowest first. -/
def lowestFirst (n : Nat) : List UInt8 := ((Nat.toDigits 10 n).map byte).reverse

theorem lowestFirst_small {n : Nat} (small : n < 10) : lowestFirst n = [byte n.digitChar] := by
  rw [lowestFirst, Nat.toDigits_of_lt_base small]
  rfl

theorem lowestFirst_large {n : Nat} (large : 10 ≤ n) :
    lowestFirst n = byte (n % 10).digitChar :: lowestFirst (n / 10) := by
  rw [lowestFirst, Nat.toDigits_of_base_le (by decide) large]
  simp [lowestFirst]

theorem lowestFirst_length (num : UInt32) : (lowestFirst num.toNat).length ≤ 10 := by
  rw [lowestFirst, List.length_reverse, List.length_map]
  apply (Nat.length_toDigits_le_iff (by decide) (by decide)).mpr
  have word := num.toNat_lt
  omega

/-- What the loop writes for the lowest digit. -/
theorem digit_byte (num : UInt32) :
    (48 + num % 10).toUInt8 = byte (num.toNat % 10).digitChar := by
  have digits : ∀ d : Fin 10, (48 + UInt32.ofNat d.val).toUInt8 = byte d.val.digitChar := by decide
  have low : num % 10 = UInt32.ofNat (num.toNat % 10) := by
    apply UInt32.toNat_inj.mp
    have small : num.toNat % 10 < 10 := Nat.mod_lt _ (by decide)
    have fits : num.toNat % 10 % 2 ^ 32 = num.toNat % 10 := Nat.mod_eq_of_lt (by omega)
    rw [UInt32.toNat_mod, UInt32.toNat_ofNat', fits]
    rfl
  rw [low]
  exact digits ⟨num.toNat % 10, Nat.mod_lt _ (by decide)⟩

section
variable {num : UInt32} {i : Nat} {buffer : Nat → Option UInt8}

/-- **The first loop.** With enough room it ends, leaves what lies before `i` alone and puts
the digits behind it. -/
theorem digitLoop_writes (positive : num ≠ 0) (room : i + (lowestFirst num.toNat).length ≤ 10) :
    ∃ buffer', Usart.digitLoop num i buffer = some (i + (lowestFirst num.toNat).length, buffer') ∧
      (∀ j < i, buffer' j = buffer j) ∧
      ∀ j < (lowestFirst num.toNat).length, buffer' (i + j) = (lowestFirst num.toNat)[j]? := by
  induction num, i, buffer using Usart.digitLoop.induct with
  | case1 => exact absurd rfl positive
  | case2 num i buffer _ inside ih =>
    have quotient : (num / 10).toNat = num.toNat / 10 := UInt32.toNat_div num 10
    rw [Usart.digitLoop, if_neg positive, if_pos inside]
    rw [digit_byte] at ih ⊢
    by_cases last : num / 10 = 0
    · have small : num.toNat < 10 := by
        rw [last] at quotient
        have := quotient.symm
        simp only [UInt32.toNat_zero] at this
        omega
      rw [lowestFirst_small small, Nat.mod_eq_of_lt small, last, Usart.digitLoop, if_pos rfl]
      refine ⟨_, rfl, ?_, ?_⟩
      · intro j before
        exact Function.update_of_ne (Nat.ne_of_lt before) _ _
      · intro j here
        obtain rfl : j = 0 := by simpa using here
        simp
    · have large : 10 ≤ num.toNat := by
        by_contra small
        apply last
        apply UInt32.toNat_inj.mp
        rw [quotient, UInt32.toNat_zero]
        omega
      rw [lowestFirst_large large, List.length_cons] at room ⊢
      obtain ⟨buffer', done, kept, written⟩ := ih last (by rw [quotient]; omega)
      rw [quotient] at done written
      refine ⟨buffer', by rw [done]; congr 2; omega, ?_, ?_⟩
      · intro j before
        rw [kept j (by omega), Function.update_of_ne (Nat.ne_of_lt before)]
      · intro j here
        cases j with
        | zero =>
          rw [Nat.add_zero, kept i (by omega), Function.update_self]
          rfl
        | succ j =>
          have later := written j (by omega)
          rw [List.getElem?_cons_succ, ← later]
          congr 1
          omega
  | case3 num i buffer _ outside =>
    have some : (lowestFirst num.toNat).length ≠ 0 := by
      simp [lowestFirst]
    omega

/-- **The second loop.** It sends what the first one has written, backwards. -/
theorem outputLoop_prints (p : Usart) (rounds : Nat) (str : List UInt8)
    (holds : ∀ j < str.length, buffer j = str[j]?) (sent : Sent) :
    p.outputLoop rounds buffer str.length sent = p.uartPrint rounds str.reverse sent := by
  induction str using List.reverseRecOn generalizing sent with
  | nil => rfl
  | append_singleton str c ih =>
    have here : buffer str.length = some c := by simpa using holds str.length (by simp)
    have before : ∀ j < str.length, buffer j = str[j]? := by
      intro j inside
      rw [holds j (by simp; omega), List.getElem?_append_left inside]
    rw [List.length_append, List.length_singleton, List.reverse_append, List.reverse_singleton,
      List.singleton_append, Usart.outputLoop, Usart.uartPrint, here]
    simp only [Option.bind_eq_bind, Option.bind_some, ih before]

end

/-- From an empty buffer the first loop always ends inside it. -/
theorem digitLoop_fills {num : UInt32} (positive : num ≠ 0) :
    ∃ buffer, Usart.digitLoop num 0 (fun _ => none) =
        some ((lowestFirst num.toNat).length, buffer) ∧
      ∀ j < (lowestFirst num.toNat).length, buffer j = (lowestFirst num.toNat)[j]? := by
  have length := lowestFirst_length num
  obtain ⟨buffer, done, _, written⟩ := @digitLoop_writes num 0 (fun _ => none) positive (by omega)
  simp only [Nat.zero_add] at done written
  exact ⟨buffer, done, written⟩

theorem uartPrintNumber_prints (p : Usart) (rounds : Nat) (num : UInt32) (sent : Sent) :
    p.uartPrintNumber rounds num sent =
      p.uartPrint rounds ((Nat.toDigits 10 num.toNat).map byte) sent := by
  rw [Usart.uartPrintNumber]
  by_cases zero : num = 0
  · rw [if_pos zero, zero, UInt32.toNat_zero, Nat.toDigits_zero]
    rfl
  · obtain ⟨buffer, done, written⟩ := digitLoop_fills zero
    rw [if_neg zero, done]
    calc p.outputLoop rounds buffer (lowestFirst num.toNat).length sent
        = p.uartPrint rounds (lowestFirst num.toNat).reverse sent :=
          outputLoop_prints p rounds _ written sent
      _ = _ := by rw [lowestFirst, List.reverse_reverse]

/-! ### The decimal representation -/

theorem head_toDigits {n : Nat} (positive : 0 < n) : (Nat.toDigits 10 n).head? ≠ some '0' := by
  induction n using Nat.strongRecOn with
  | ind n ih =>
    by_cases small : n < 10
    · have digits : ∀ d : Fin 10, 0 < d.val → d.val.digitChar ≠ '0' := by decide
      rw [Nat.toDigits_of_lt_base small]
      simpa using digits ⟨n, small⟩ positive
    · have before : (Nat.toDigits 10 (n / 10)).head? ≠ some '0' := ih (n / 10) (by omega) (by omega)
      rw [Nat.toDigits_of_base_le (by decide) (by omega), List.head?_append]
      cases first : (Nat.toDigits 10 (n / 10)).head? with
      | none => exact absurd (List.head?_eq_none_iff.mp first) Nat.toDigits_ne_nil
      | some c =>
        rw [first] at before
        exact before

theorem digit_codes {n : Nat} {c : Char} (there : c ∈ Nat.toDigits 10 n) :
    48 ≤ c.val ∧ c.val ≤ 57 := by
  have digit := Nat.isDigit_of_mem_toDigits (by decide) (by decide) there
  simpa [Char.isDigit] using digit

theorem byte_code {c : Char} (digit : c.val ≤ 57) : (byte c).toUInt32 = c.val := by
  apply UInt32.toNat_inj.mp
  have bound : c.val.toNat ≤ 57 := digit
  simp only [byte, UInt8.toNat_toUInt32, UInt32.toNat_toUInt8]
  omega

/-- The value of a numeral in base 10, given the codes of its characters. -/
def numeral (codes : List UInt32) : Nat := codes.foldl (fun n c => 10 * n + (c.toNat - 48)) 0

theorem numeral_toDigits (n : Nat) : numeral ((Nat.toDigits 10 n).map Char.val) = n := by
  have back := @Nat.ofDigitChars_toDigits 10 n (by decide) (by decide)
  rw [Nat.ofDigitChars_eq_foldl] at back
  rw [numeral, List.foldl_map]
  exact back

/-- **Decimal printing.** The first loop ends inside the buffer and has written every byte that
the second one reads. What is sent is the decimal representation: digits, of which the first is
no zero unless the number is, and which give the number when they are read back. All of it is
sent when the transmitter never stays busy for good. -/
theorem decimal_printing (p : Usart) (enabled : p.Enabled) (num : UInt32) (sent : Sent) :
    (∃ i buffer, Usart.digitLoop num 0 (fun _ => none) = some (i, buffer) ∧ i ≤ 10 ∧
      ∀ j < i, (buffer j).isSome) ∧
    ∃ codes : List UInt32,
      (∀ rounds sent', p.uartPrintNumber rounds num sent = some sent' →
        sent' = codes.reverse ++ sent) ∧
      (p.Transmits → ∃ enough, ∀ rounds, enough ≤ rounds →
        p.uartPrintNumber rounds num sent = some (codes.reverse ++ sent)) ∧
      codes = (Nat.toDigits 10 num.toNat).map Char.val ∧
      (∀ c ∈ codes, 48 ≤ c ∧ c ≤ 57) ∧
      (codes.head? = some 48 → num = 0) ∧
      numeral codes = num.toNat := by
  have bytes : ((Nat.toDigits 10 num.toNat).map byte).map UInt8.toUInt32 =
      (Nat.toDigits 10 num.toNat).map Char.val := by
    rw [List.map_map]
    apply List.map_congr_left
    intro c there
    exact byte_code (digit_codes there).2
  refine ⟨?_, _, ?_, ?_, rfl, ?_, ?_, numeral_toDigits num.toNat⟩
  · by_cases zero : num = 0
    · refine ⟨0, _, by rw [Usart.digitLoop, if_pos zero], Nat.zero_le 10, ?_⟩
      intro j before
      exact absurd before (Nat.not_lt_zero j)
    · obtain ⟨buffer, done, written⟩ := digitLoop_fills zero
      refine ⟨_, buffer, done, lowestFirst_length num, ?_⟩
      intro j before
      rw [written j before]
      simpa using before
  · intro rounds sent' done
    rw [uartPrintNumber_prints] at done
    rw [Usart.uartPrint_exact enabled done, bytes]
  · intro transmits
    obtain ⟨enough, prints⟩ := Usart.uartPrint_sends enabled transmits
      ((Nat.toDigits 10 num.toNat).map byte) sent
    refine ⟨enough, ?_⟩
    intro rounds long
    rw [uartPrintNumber_prints, prints rounds long, bytes]
  · intro c there
    obtain ⟨digit, inside, rfl⟩ := List.mem_map.mp there
    exact digit_codes inside
  · intro leading
    by_contra other
    have positive : 0 < num.toNat := by
      apply Nat.pos_of_ne_zero
      exact fun zero => other (UInt32.toNat_inj.mp zero)
    rw [List.head?_map] at leading
    obtain ⟨c, first, code⟩ := Option.map_eq_some_iff.mp leading
    obtain rfl : c = '0' := Char.ext code
    exact head_toDigits positive first

/-- The largest number takes all ten bytes of the buffer. The transmitter is busy for three
rounds before each character. -/
theorem decimal_printing_largest : ∃ rounds,
    (⟨cr1Ue, fun _ i => if i < 3 then 0 else srTxe⟩ : Usart).uartPrintNumber rounds 4294967295 [] =
      some [53, 57, 50, 55, 54, 57, 52, 57, 50, 52] := by
  have transmits : Usart.Transmits ⟨cr1Ue, fun _ i => if i < 3 then 0 else srTxe⟩ := by
    intro sent
    have ready : srTxe &&& srTxe ≠ 0 := by decide
    exact ⟨3, ready⟩
  obtain ⟨_, codes, _, sends, same, _⟩ :=
    decimal_printing ⟨cr1Ue, fun _ i => if i < 3 then 0 else srTxe⟩ (by decide) 4294967295 []
  obtain ⟨enough, prints⟩ := sends transmits
  refine ⟨enough, (prints enough (Nat.le_refl enough)).trans ?_⟩
  rw [same]
  decide +kernel

end Sentinel.Uart
