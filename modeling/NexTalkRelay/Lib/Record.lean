/-
  Records of a fixed size, with numbers in little-endian order at fixed offsets.

  * `writeUIntLE` and `readUIntLE` write and read one field of a buffer;
  * `writeAll` writes several, one after the other, and `layout` is what an empty
    record is afterwards, if the fields are in order (`InOrder`);
  * `read_layout`: inside any bytes, each field of a record is read as it was written.
-/
import Mathlib.Data.List.Basic
import Mathlib.Tactic.Ring

namespace Record

/-! ## Numbers -/

/-- The bytes of a number, the least significant first. -/
def littleEndian : ℕ → ℕ → List UInt8
  | 0, _ => []
  | width + 1, v => UInt8.ofNat v :: littleEndian width (v / 256)

/-- A number from its bytes. -/
def readLE : List UInt8 → ℕ
  | [] => 0
  | b :: bytes => b.toNat + 256 * readLE bytes

@[simp] theorem length_littleEndian (width v : ℕ) : (littleEndian width v).length = width := by
  induction width generalizing v with
  | zero => rfl
  | succ width ih => rw [littleEndian, List.length_cons, ih]

theorem readLE_littleEndian {width v : ℕ} (hv : v < 256 ^ width) :
    readLE (littleEndian width v) = v := by
  induction width generalizing v with
  | zero =>
    rw [Nat.pow_zero] at hv
    rw [littleEndian, readLE]
    omega
  | succ width ih =>
    have hdiv : v / 256 < 256 ^ width := by
      rw [Nat.pow_succ] at hv
      omega
    rw [littleEndian, readLE, ih hdiv, UInt8.toNat_ofNat']
    omega

/-! ## Parts of a buffer -/

/-- The bytes from an offset on. -/
def slice (buf : List UInt8) (off width : ℕ) : List UInt8 := (buf.drop off).take width

theorem slice_mid (a mid b : List UInt8) : slice (a ++ (mid ++ b)) a.length mid.length = mid := by
  rw [slice, List.drop_left, List.take_left]

/-- A part of a part. -/
theorem slice_inside (a mid b : List UInt8) {i width : ℕ} (hi : i + width ≤ mid.length) :
    slice (a ++ (mid ++ b)) (a.length + i) width = slice mid i width := by
  have hdrop : (a ++ (mid ++ b)).drop (a.length + i) = mid.drop i ++ b := by
    rw [← List.drop_drop, List.drop_left, List.drop_append_of_le_length (by omega)]
  rw [slice, hdrop, List.take_append_of_le_length (by rw [List.length_drop]; omega), slice]

/-! ## Fields -/

/-- A number that is too large for its field is an error. -/
def writeUIntLE (width v off : ℕ) (buf : List UInt8) : Option (List UInt8) :=
  if v < 256 ^ width then
    some (buf.take off ++ littleEndian width v ++ buf.drop (off + width))
  else none

/-- A field beyond the end of the buffer is an error. -/
def readUIntLE (width : ℕ) (buf : List UInt8) (off : ℕ) : Option ℕ :=
  if off + width ≤ buf.length then some (readLE (slice buf off width)) else none

/-- A field and its value. -/
structure Field where
  width : ℕ
  v : ℕ
  off : ℕ

/-- The value fits into the width. -/
def Field.Fits (f : Field) : Prop := f.v < 256 ^ f.width

/-- All fields, one after the other. -/
def writeAll (buf : List UInt8) : List Field → Option (List UInt8)
  | [] => some buf
  | f :: fs => (writeUIntLE f.width f.v f.off buf).bind fun buf => writeAll buf fs

/-- The bytes from `pos` to `size` with the fields in them, and zeros elsewhere. -/
def layout : ℕ → List Field → ℕ → List UInt8
  | pos, [], size => List.replicate (size - pos) 0
  | pos, f :: fs, size =>
    List.replicate (f.off - pos) 0 ++
      (littleEndian f.width f.v ++ layout (f.off + f.width) fs size)

/-- The fields are between `pos` and `size`, one behind the other. -/
def InOrder : ℕ → List Field → ℕ → Prop
  | pos, [], size => pos ≤ size
  | pos, f :: fs, size => pos ≤ f.off ∧ InOrder (f.off + f.width) fs size

theorem InOrder.le {pos size : ℕ} {fs : List Field} (h : InOrder pos fs size) : pos ≤ size := by
  induction fs generalizing pos with
  | nil => exact h
  | cons f fs ih =>
    have := ih h.2
    have := h.1
    omega

theorem length_layout {pos size : ℕ} {fs : List Field} (h : InOrder pos fs size) :
    (layout pos fs size).length = size - pos := by
  induction fs generalizing pos with
  | nil => rw [layout, List.length_replicate]
  | cons f fs ih =>
    have := h.1
    have := h.2.le
    rw [layout, List.length_append, List.length_append, List.length_replicate,
      length_littleEndian, ih h.2]
    omega

/-- One field behind what is written already. -/
theorem write_next {done : List UInt8} {f : Field} {size : ℕ} (hpos : done.length ≤ f.off)
    (hsize : f.off + f.width ≤ size) (hfits : f.Fits) :
    writeUIntLE f.width f.v f.off (done ++ List.replicate (size - done.length) 0) =
      some ((done ++ List.replicate (f.off - done.length) 0 ++ littleEndian f.width f.v) ++
        List.replicate (size - (f.off + f.width)) 0) := by
  have htake : (done ++ List.replicate (size - done.length) (0 : UInt8)).take f.off =
      done ++ List.replicate (f.off - done.length) 0 := by
    rw [List.take_append, List.take_of_length_le hpos, List.take_replicate]
    congr 2
    omega
  have hdrop : (done ++ List.replicate (size - done.length) (0 : UInt8)).drop (f.off + f.width) =
      List.replicate (size - (f.off + f.width)) 0 := by
    rw [List.drop_append, List.drop_of_length_le (by omega), List.nil_append, List.drop_replicate]
    congr 1
    omega
  have hsmall : f.v < 256 ^ f.width := hfits
  rw [writeUIntLE, if_pos hsmall, htake, hdrop]

/-- **A record.**  Written into zeros, all fields are in their places. -/
theorem writeAll_eq_some {done out : List UInt8} {fs : List Field} {size : ℕ}
    (h : InOrder done.length fs size) :
    writeAll (done ++ List.replicate (size - done.length) 0) fs = some out ↔
      (∀ f ∈ fs, f.Fits) ∧ done ++ layout done.length fs size = out := by
  induction fs generalizing done with
  | nil => simp [writeAll, layout]
  | cons f fs ih =>
    rw [writeAll, List.forall_mem_cons]
    by_cases hfits : f.Fits
    · have hlen : (done ++ List.replicate (f.off - done.length) 0 ++
          littleEndian f.width f.v).length = f.off + f.width := by
        have := h.1
        simp only [List.length_append, List.length_replicate, length_littleEndian]
        omega
      have hih := @ih (done ++ List.replicate (f.off - done.length) 0 ++
        littleEndian f.width f.v) (by rw [hlen]; exact h.2)
      rw [hlen] at hih
      rw [write_next h.1 h.2.le hfits, Option.bind_some, hih, layout]
      simp only [hfits, true_and, List.append_assoc]
    · have hlarge : ¬ f.v < 256 ^ f.width := hfits
      rw [writeUIntLE, if_neg hlarge]
      simp [hfits]

/-- A field is where its offset says. -/
theorem slice_layout {pos size : ℕ} {fs : List Field} (h : InOrder pos fs size) {f : Field}
    (hf : f ∈ fs) : pos ≤ f.off ∧ f.off + f.width ≤ size ∧
      slice (layout pos fs size) (f.off - pos) f.width = littleEndian f.width f.v := by
  induction fs generalizing pos with
  | nil => cases hf
  | cons g fs ih =>
    have hle := h.2.le
    have hpos := h.1
    rcases List.mem_cons.1 hf with rfl | hf
    · refine ⟨hpos, hle, ?_⟩
      have hmid := slice_mid (List.replicate (f.off - pos) 0) (littleEndian f.width f.v)
        (layout (f.off + f.width) fs size)
      rwa [List.length_replicate, length_littleEndian] at hmid
    · obtain ⟨hoff, hend, hslice⟩ := ih h.2 hf
      refine ⟨by omega, hend, ?_⟩
      have hskip : (layout pos (g :: fs) size).drop (f.off - pos) =
          (layout (g.off + g.width) fs size).drop (f.off - (g.off + g.width)) := by
        have hlen : (List.replicate (g.off - pos) 0 ++ littleEndian g.width g.v).length =
            g.off + g.width - pos := by
          simp only [List.length_append, List.length_replicate, length_littleEndian]
          omega
        rw [layout, ← List.append_assoc, List.drop_append, List.drop_of_length_le (by omega), hlen,
          List.nil_append]
        congr 1
        omega
      rw [slice, hskip]
      exact hslice

/-- A number that is where it should be is read. -/
theorem read_slice {buf a mid b : List UInt8} (hbuf : buf = a ++ (mid ++ b)) {i width v : ℕ}
    (hslice : slice mid i width = littleEndian width v) (hi : i + width ≤ mid.length)
    (hv : v < 256 ^ width) : readUIntLE width buf (a.length + i) = some v := by
  have hlen : a.length + i + width ≤ buf.length := by
    rw [hbuf, List.length_append, List.length_append]
    omega
  rw [readUIntLE, if_pos hlen, hbuf, slice_inside a mid b hi, hslice, readLE_littleEndian hv]

/-- **A field of a record.** -/
theorem read_layout {buf a b : List UInt8} {fs : List Field} {size : ℕ}
    (hbuf : buf = a ++ (layout 0 fs size ++ b)) (h : InOrder 0 fs size) {f : Field} (hf : f ∈ fs)
    (hfits : f.Fits) : readUIntLE f.width buf (a.length + f.off) = some f.v := by
  obtain ⟨-, hend, hslice⟩ := slice_layout h hf
  refine read_slice hbuf hslice ?_ hfits
  rw [length_layout h]
  exact hend

end Record
