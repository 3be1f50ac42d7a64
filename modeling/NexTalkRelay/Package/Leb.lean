/-
  The numbers, vectors and sections of the assembler.

  * `uleb`, `sleb`, `vec` and `sec` are the functions of `wasmasm.mjs`; the loops of
    the first two have as much fuel as they need (`ulebLoop_eq`, `slebLoop_eq`);
  * `uleb_exact` and `sleb_exact`: their bytes are exact;
  * `readVec` and `readSec` are the rules of the binary format for vectors and
    sections.
-/
import NexTalkRelay.Js.Text
import NexTalkRelay.Lib.Leb

open Js Binary

namespace Package

/-! ## The encoders -/

/-- The loop of `uleb`. -/
def ulebLoop : ℕ → ℤ → Option Bytes
  | 0, _ => none
  | fuel + 1, n =>
    let b := Leb.low n
    let n := n >>> (7 : ℕ)
    let b := if n = 0 then b else b ||| 0x80
    if n = 0 then some [b] else (ulebLoop fuel n).map (b :: ·)

/-- The loop of `sleb`. -/
def slebLoop : ℕ → ℤ → Option Bytes
  | 0, _ => none
  | fuel + 1, n =>
    let b := Leb.low n
    let n := n >>> (7 : ℕ)
    let sign := b &&& 0x40 != 0
    if n == 0 && !sign || n == -1 && sign then some [b]
    else (slebLoop fuel n).map ((b ||| 0x80) :: ·)

/-- `uleb`. -/
def uleb (n : ℕ) : Bytes := (ulebLoop (n + 1) n).getD []

/-- `sleb`. -/
def sleb (n : ℤ) : Bytes := (slebLoop (n.natAbs + 1) n).getD []

/-- `str`: the length, then the bytes. -/
def str (s : JString) : Bytes := uleb s.length ++ encode s

/-- `vec`: the number of items, then the items. -/
def vec (items : List Bytes) : Bytes := uleb items.length ++ items.flatten

/-- `sec`: the id of the section and its length, then its body. -/
def sec (id : UInt8) (body : Bytes) : Bytes := id :: (uleb body.length ++ body)

/-! ## Their loops stop -/

/-- Nothing is left. -/
def ulebStop (n : ℤ) : Bool := n >>> (7 : ℕ) == 0

/-- Nothing is left but the sign, which the last group shows. -/
def slebStop (n : ℤ) : Bool :=
  n >>> (7 : ℕ) == 0 && !(Leb.low n &&& 0x40 != 0) || n >>> (7 : ℕ) == -1 && (Leb.low n &&& 0x40 != 0)

theorem ulebLoop_eq_write (fuel : ℕ) (n : ℤ) : ulebLoop fuel n = Leb.write ulebStop fuel n := by
  induction fuel generalizing n with
  | zero => rfl
  | succ fuel ih =>
    by_cases hn : n >>> (7 : ℕ) = 0
    · simp [ulebLoop, Leb.write, ulebStop, hn]
    · simp [ulebLoop, Leb.write, ulebStop, hn, ih]

theorem slebLoop_eq_write (fuel : ℕ) (n : ℤ) : slebLoop fuel n = Leb.write slebStop fuel n := by
  induction fuel generalizing n with
  | zero => rfl
  | succ fuel ih =>
    rw [slebLoop, Leb.write, ← ih]
    rfl

theorem ulebStop_iff (n : ℤ) : ulebStop n = true ↔ 0 ≤ n ∧ n < 128 := by
  rw [ulebStop, beq_iff_eq, Leb.shift_eq]
  omega

theorem sign_bit : ∀ n < 128, n &&& 64 = 0 ↔ n < 64 := by decide +kernel

theorem low_sign (n : ℤ) : (Leb.low n &&& 0x40 != 0) = true ↔ 64 ≤ n % 128 := by
  have hlow := Leb.toNat_low n
  have hbit := sign_bit (Leb.low n).toNat (UInt8.lt_iff_toNat_lt.1 (Leb.low_lt n))
  rw [bne_iff_ne, ne_eq, ← UInt8.toNat_inj, UInt8.toNat_and]
  show ¬ (Leb.low n).toNat &&& 64 = 0 ↔ _
  rw [hbit]
  omega

theorem slebStop_iff (n : ℤ) : slebStop n = true ↔ -64 ≤ n ∧ n < 64 := by
  have hsign := low_sign n
  unfold slebStop
  cases hs : (Leb.low n &&& 0x40 != 0) with
  | true =>
    have := hsign.1 hs
    simp only [Bool.not_true, Bool.and_false, Bool.false_or, Bool.and_true, beq_iff_eq,
      Leb.shift_eq]
    omega
  | false =>
    have : ¬ 64 ≤ n % 128 := by
      rw [← hsign, hs]
      exact Bool.false_ne_true
    simp only [Bool.not_false, Bool.and_true, Bool.and_false, Bool.or_false, beq_iff_eq,
      Leb.shift_eq]
    omega

/-- As much fuel as `uleb` has is enough. -/
theorem ulebLoop_eq (n : ℕ) {fuel : ℕ} (hfuel : n < fuel) : ulebLoop fuel n = some (uleb n) := by
  have hstep (m : ℤ) (hm : 0 ≤ m) (hstop : ulebStop m = false) :
      0 ≤ m / 128 ∧ (m / 128).natAbs < m.natAbs := by
    have : ¬ (0 ≤ m ∧ m < 128) := by
      rw [← ulebStop_iff, hstop]
      exact Bool.false_ne_true
    omega
  obtain ⟨bytes, hbytes⟩ := Leb.write_isSome (P := fun m => 0 ≤ m) hstep (n := (n : ℤ))
    (by omega) (show _ < n + 1 by omega)
  have huleb : uleb n = bytes := by rw [uleb, ulebLoop_eq_write, hbytes, Option.getD_some]
  rw [huleb, ulebLoop_eq_write]
  exact Leb.write_mono hbytes hfuel

theorem slebLoop_eq (n : ℤ) {fuel : ℕ} (hfuel : n.natAbs < fuel) :
    slebLoop fuel n = some (sleb n) := by
  have hstep (m : ℤ) (_ : True) (hstop : slebStop m = false) :
      True ∧ (m / 128).natAbs < m.natAbs := by
    have : ¬ (-64 ≤ m ∧ m < 64) := by
      rw [← slebStop_iff, hstop]
      exact Bool.false_ne_true
    refine ⟨trivial, ?_⟩
    omega
  obtain ⟨bytes, hbytes⟩ := Leb.write_isSome (P := fun _ => True) hstep (n := n) trivial
    (show _ < n.natAbs + 1 by omega)
  have hsleb : sleb n = bytes := by rw [sleb, slebLoop_eq_write, hbytes, Option.getD_some]
  rw [hsleb, slebLoop_eq_write]
  exact Leb.write_mono hbytes hfuel

/-! ## Their bytes are exact -/

theorem uleb_exact (n : ℕ) : Leb.Exact Leb.unsigned n (uleb n) := by
  have hloop := ulebLoop_eq n (Nat.lt_succ_self n)
  rw [ulebLoop_eq_write] at hloop
  refine Leb.exact_write ?_ ?_ hloop
  · intro m hm
    have := (ulebStop_iff m).1 hm
    rw [Leb.unsigned, Leb.toNat_low]
    omega
  · intro b hb
    have := UInt8.lt_iff_toNat_lt.1 hb
    rw [ulebStop_iff, Leb.unsigned]
    exact ⟨by omega, Int.ofNat_lt.2 this⟩

theorem sleb_exact (n : ℤ) : Leb.Exact Leb.signed n (sleb n) := by
  have hloop := slebLoop_eq n (Nat.lt_succ_self n.natAbs)
  rw [slebLoop_eq_write] at hloop
  refine Leb.exact_write ?_ ?_ hloop
  · intro m hm
    have := (slebStop_iff m).1 hm
    have hlow := Leb.toNat_low m
    unfold Leb.signed
    split <;> omega
  · intro b hb
    have hlt : b.toNat < 128 := UInt8.lt_iff_toNat_lt.1 hb
    rw [slebStop_iff]
    unfold Leb.signed
    split <;> omega

example : uleb 624485 = [0xe5, 0x8e, 0x26] ∧ sleb (-123456) = [0xc0, 0xbb, 0x78] := by
  decide +kernel

/-! ## Vectors and sections -/

/-- Reads what `uleb` writes. -/
def readUleb : Reader ℕ := Int.toNat <$> Leb.read Leb.unsigned

/-- Reads what `sleb` writes. -/
def readSleb : Reader ℤ := Leb.read Leb.signed

/-- Reads what `vec` writes. -/
def readVec {α : Type} (item : Reader α) : Reader (List α) := do times item (← readUleb)

/-- As many bytes as the number before them says. -/
def readSized : Reader Bytes := do take (← readUleb)

/-- Reads what `sec` writes. -/
def readSec : Reader (UInt8 × Bytes) := do
  let id ← byte
  let body ← readSized
  return (id, body)

theorem reads_uleb (n : ℕ) : Reads readUleb (uleb n) n := (uleb_exact n).reads.map Int.toNat

theorem reads_sleb (n : ℤ) : Reads readSleb (sleb n) n := (sleb_exact n).reads

theorem reads_vecMap {α β : Type} {item : Reader β} {e : α → Bytes} {f : α → β} {l : List α}
    (h : ∀ x ∈ l, Reads item (e x) (f x)) : Reads (readVec item) (vec (l.map e)) (l.map f) := by
  have hitems := reads_times h
  rw [vec, List.length_map, ← List.flatMap_def]
  exact (reads_uleb _).bind hitems

theorem reads_vec {α : Type} {item : Reader α} {e : α → Bytes} {l : List α}
    (h : ∀ x ∈ l, Reads item (e x) x) : Reads (readVec item) (vec (l.map e)) l := by
  have hmap := reads_vecMap (f := id) h
  rwa [List.map_id] at hmap

theorem reads_sized (body : Bytes) : Reads readSized (uleb body.length ++ body) body :=
  (reads_uleb _).bind (reads_take body)

theorem reads_sec (id : UInt8) (body : Bytes) : Reads readSec (sec id body) (id, body) := by
  exact Reads.bind (a := [id]) (reads_byte id) ((reads_sized body).bind_pure fun b => (id, b))

end Package
