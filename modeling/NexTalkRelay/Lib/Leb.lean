/-
  LEB128: whole numbers as groups of seven bits, the lowest first.  All bytes but the
  last have their highest bit set.

  * `read` is the rule for both kinds of numbers, `unsigned` and `signed`, which give
    different values to the last byte;
  * `write` divides until a test says that the last group is reached;
  * `Exact` says what is expected of the bytes of a number, and `exists_exact` that
    they are what is expected if the test and the values of the last byte agree.
-/
import Mathlib.Data.Int.Notation
import Mathlib.Tactic.Common
import NexTalkRelay.Lib.Reader

namespace Leb

open Binary

/-- The lowest seven bits, `n & 0x7f`. -/
def low (n : ℤ) : UInt8 := UInt8.ofNat (n % 128).toNat

theorem toNat_low (n : ℤ) : ((low n).toNat : ℤ) = n % 128 := by
  rw [low, UInt8.toNat_ofNat']
  omega

theorem low_lt (n : ℤ) : low n < 128 := by
  rw [UInt8.lt_iff_toNat_lt]
  have := toNat_low n
  show (low n).toNat < 128
  omega

theorem or_high : ∀ n < 128, n ||| 128 = n + 128 := by decide +kernel

theorem toNat_or_high {b : UInt8} (hb : b < 128) : (b ||| 0x80).toNat = b.toNat + 128 := by
  rw [UInt8.toNat_or]
  exact or_high b.toNat (UInt8.lt_iff_toNat_lt.1 hb)

/-! ## Reading -/

/-- The value of a number whose last byte has the value `last`. -/
def read (last : UInt8 → ℤ) : Reader ℤ := fun bytes => readFrom last bytes
where
  readFrom (last : UInt8 → ℤ) : List UInt8 → Option (ℤ × List UInt8)
    | [] => none
    | b :: bytes =>
      if b < 128 then some (last b, bytes)
      else (readFrom last bytes).map fun p => (p.1 * 128 + (b.toNat - 128), p.2)

/-- The last byte holds seven bits more. -/
def unsigned (b : UInt8) : ℤ := b.toNat

/-- The sixth bit of the last byte is the sign. -/
def signed (b : UInt8) : ℤ := if b.toNat < 64 then b.toNat else b.toNat - 128

theorem length_readFrom {last : UInt8 → ℤ} {bytes rest : List UInt8} {n : ℤ}
    (h : read.readFrom last bytes = some (n, rest)) : rest.length < bytes.length := by
  induction bytes generalizing n with
  | nil => cases h
  | cons b bytes ih =>
    rw [read.readFrom] at h
    by_cases hb : b < 128
    · rw [if_pos hb] at h
      obtain ⟨-, rfl⟩ := Prod.mk.inj (Option.some.inj h)
      simp
    · rw [if_neg hb] at h
      obtain ⟨⟨m, rest'⟩, hm, heq⟩ := Option.map_eq_some_iff.1 h
      obtain ⟨-, rfl⟩ := Prod.mk.inj heq
      have hlt : rest'.length < bytes.length := ih hm
      rw [List.length_cons]
      exact Nat.lt_succ_of_lt hlt

/-- A number of one byte. -/
theorem reads_single {last : UInt8 → ℤ} {b : UInt8} (hb : b < 128) :
    Reads (read last) [b] (last b) := by
  intro rest
  show read.readFrom last (b :: rest) = some (last b, rest)
  rw [read.readFrom, if_pos hb]

/-! ## Writing -/

/-- All bytes but the last are continued. -/
def Continued (bytes : List UInt8) : Prop :=
  ∃ init last, bytes = init ++ [last] ∧ (∀ b ∈ init, 128 ≤ b) ∧ last < 128

/-- The bytes of a number, if there is fuel for as many. -/
def write (stop : ℤ → Bool) : ℕ → ℤ → Option (List UInt8)
  | 0, _ => none
  | fuel + 1, n =>
    if stop n then some [low n] else (write stop fuel (n >>> (7 : ℕ))).map ((low n ||| 0x80) :: ·)

/-- **What is expected of the bytes of a number.** -/
structure Exact (last : UInt8 → ℤ) (n : ℤ) (bytes : List UInt8) : Prop where
  reads : Reads (read last) bytes n
  minimal : ∀ other, Reads (read last) other n → bytes.length ≤ other.length
  continued : Continued bytes

section

variable {stop : ℤ → Bool} {last : UInt8 → ℤ} {fuel : ℕ} {n : ℤ} {bytes : List UInt8}

theorem shift_eq (n : ℤ) : n >>> (7 : ℕ) = n / 128 := by
  rw [Int.shiftRight_eq_div_pow]
  rfl

/-- The bytes that `write` gives, byte by byte. -/
theorem write_eq_some (h : write stop (fuel + 1) n = some bytes) :
    stop n = true ∧ bytes = [low n] ∨
    stop n = false ∧ ∃ rest, write stop fuel (n / 128) = some rest ∧
      bytes = (low n ||| 0x80) :: rest := by
  rw [write, shift_eq] at h
  cases hstop : stop n with
  | true =>
    rw [hstop, if_pos rfl] at h
    exact Or.inl ⟨rfl, (Option.some.inj h).symm⟩
  | false =>
    rw [hstop, if_neg Bool.false_ne_true] at h
    obtain ⟨rest, hrest, rfl⟩ := Option.map_eq_some_iff.1 h
    exact Or.inr ⟨rfl, rest, hrest, rfl⟩

/-- More fuel changes nothing. -/
theorem write_mono (h : write stop fuel n = some bytes) {fuel' : ℕ} (hle : fuel ≤ fuel') :
    write stop fuel' n = some bytes := by
  induction fuel generalizing n bytes fuel' with
  | zero => cases h
  | succ fuel ih =>
    obtain ⟨k, rfl⟩ : ∃ k, fuel' = k + 1 := ⟨fuel' - 1, by omega⟩
    rw [write, shift_eq]
    rcases write_eq_some h with ⟨hstop, rfl⟩ | ⟨hstop, rest, hrest, rfl⟩
    · rw [if_pos hstop]
    · rw [if_neg (by simp [hstop]), ih hrest (by omega)]
      rfl

/-- A number that gets smaller is written. -/
theorem write_isSome {P : ℤ → Prop}
    (hstep : ∀ n, P n → stop n = false → P (n / 128) ∧ (n / 128).natAbs < n.natAbs) (hn : P n)
    (hfuel : n.natAbs < fuel) : ∃ bytes, write stop fuel n = some bytes := by
  induction fuel generalizing n with
  | zero => omega
  | succ fuel ih =>
    rw [write, shift_eq]
    cases hstop : stop n with
    | true => exact ⟨_, rfl⟩
    | false =>
      obtain ⟨hP, hlt⟩ := hstep n hn hstop
      obtain ⟨rest, hrest⟩ := ih hP (by omega)
      rw [hrest]
      exact ⟨_, rfl⟩

/-- It is read again, whatever follows. -/
theorem reads_write (hlast : ∀ n, stop n = true → last (low n) = n)
    (h : write stop fuel n = some bytes) : Reads (read last) bytes n := by
  intro rest
  show read.readFrom last (bytes ++ rest) = some (n, rest)
  induction fuel generalizing n bytes with
  | zero => cases h
  | succ fuel ih =>
    rcases write_eq_some h with ⟨hstop, rfl⟩ | ⟨-, tail, htail, rfl⟩
    · rw [List.singleton_append, read.readFrom, if_pos (low_lt n), hlast n hstop]
    · have hlow := toNat_low n
      have hbyte := toNat_or_high (low_lt n)
      have hhigh : ¬ (low n ||| 0x80) < 128 := by
        rw [UInt8.lt_iff_toNat_lt, hbyte]
        show ¬ (low n).toNat + 128 < 128
        omega
      have hvalue : n / 128 * 128 + (((low n ||| 0x80).toNat : ℤ) - 128) = n := by
        rw [hbyte]
        omega
      rw [List.cons_append, read.readFrom, if_neg hhigh, ih htail, Option.map_some, hvalue]

/-- No other bytes that are read as the number are fewer. -/
theorem length_write_le (hone : ∀ b < 128, stop (last b) = true)
    (h : write stop fuel n = some bytes) {other rest : List UInt8}
    (hread : read.readFrom last other = some (n, rest)) :
    bytes.length + rest.length ≤ other.length := by
  induction other generalizing fuel n bytes with
  | nil => cases hread
  | cons b other ih =>
    cases fuel with
    | zero => cases h
    | succ fuel =>
      have hlt := length_readFrom hread
      rcases write_eq_some h with ⟨-, rfl⟩ | ⟨hstop, tail, htail, rfl⟩
      · rw [List.length_singleton]
        omega
      · rw [read.readFrom] at hread
        by_cases hb : b < 128
        · rw [if_pos hb] at hread
          obtain ⟨rfl, -⟩ := Prod.mk.inj (Option.some.inj hread)
          rw [hone b hb] at hstop
          cases hstop
        · rw [if_neg hb] at hread
          obtain ⟨⟨m, rest'⟩, hm, heq⟩ := Option.map_eq_some_iff.1 hread
          obtain ⟨hn, rfl⟩ := Prod.mk.inj heq
          have hbyte := b.toNat_lt
          have hge : 128 ≤ b.toNat := by
            rw [UInt8.lt_iff_toNat_lt] at hb
            exact Nat.le_of_not_lt hb
          have hdiv : n / 128 = m := by omega
          rw [hdiv] at htail
          have hle : tail.length + rest'.length ≤ other.length := ih htail hm
          simp only [List.length_cons]
          omega

theorem continued_write (h : write stop fuel n = some bytes) : Continued bytes := by
  induction fuel generalizing n bytes with
  | zero => cases h
  | succ fuel ih =>
    rcases write_eq_some h with ⟨-, rfl⟩ | ⟨-, rest, hrest, rfl⟩
    · exact ⟨[], low n, rfl, by simp, low_lt n⟩
    · obtain ⟨init, b, rfl, hinit, hb⟩ := ih hrest
      refine ⟨(low n ||| 0x80) :: init, b, rfl, ?_, hb⟩
      refine List.forall_mem_cons.2 ⟨?_, hinit⟩
      rw [UInt8.le_iff_toNat_le, toNat_or_high (low_lt n)]
      show 128 ≤ (low n).toNat + 128
      omega

/-- **Exactness.**  If a group that `last` reads alone is where the test stops, and
    where it stops `last` reads the number, the bytes are exact. -/
theorem exact_write (hlast : ∀ n, stop n = true → last (low n) = n)
    (hone : ∀ b < 128, stop (last b) = true) (h : write stop fuel n = some bytes) :
    Exact last n bytes where
  reads := reads_write hlast h
  minimal other hother := by
    have hread := hother []
    rw [List.append_nil] at hread
    have := length_write_le hone h hread
    simpa using this
  continued := continued_write h

end

end Leb
