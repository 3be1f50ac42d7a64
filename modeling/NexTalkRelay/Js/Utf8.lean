/-
  Texts on the wire.

  A body is sent as the UTF-8 bytes of its text and read back by the decoder of
  the platform.

  * `Decoder` is its state, and `decode` what it makes of the bytes of a body;
  * `Paired` says that a text has no unpaired surrogate;
  * `decode_encode`: such a text arrives as it was sent;
  * `encode_determines_iff`: the bytes determine it iff, besides, it has no
    U+FFFD, which stands in the bytes for every unpaired surrogate.
-/
import Mathlib.Data.List.Forall2
import NexTalkRelay.Js.Text

namespace Js

/-! ## The decoder -/

/-- The code units of a code point. -/
def pointUnits (point : ℕ) : JString :=
  if point < 0x10000 then [UInt16.ofNat point]
  else [UInt16.ofNat (0xD800 + (point - 0x10000) / 0x400),
        UInt16.ofNat (0xDC00 + (point - 0x10000) % 0x400)]

/-- The code point so far, how many bytes it still needs, and the bounds of the
    next one. -/
structure Decoder where
  point : ℕ := 0
  needed : ℕ := 0
  lower : ℕ := 0x80
  upper : ℕ := 0xBF

namespace Decoder

/-- A byte at the start of a character; one that starts none is replaced. -/
def lead (b : ℕ) : JString × Decoder :=
  if b < 0x80 then ([UInt16.ofNat b], {})
  else if b < 0xC2 then ([0xFFFD], {})
  else if b < 0xE0 then ([], { point := b - 0xC0, needed := 1 })
  else if b < 0xF0 then
    ([], { point := b - 0xE0
           needed := 2
           lower := if b = 0xE0 then 0xA0 else 0x80
           upper := if b = 0xED then 0x9F else 0xBF })
  else if b < 0xF5 then
    ([], { point := b - 0xF0
           needed := 3
           lower := if b = 0xF0 then 0x90 else 0x80
           upper := if b = 0xF4 then 0x8F else 0xBF })
  else ([0xFFFD], {})

/-- The next byte; one that does not fit ends the character, which is replaced. -/
def byte (d : Decoder) (b : ℕ) : JString × Decoder :=
  if d.needed = 0 then lead b
  else if d.lower ≤ b ∧ b ≤ d.upper then
    let point := d.point * 64 + (b - 0x80)
    if d.needed = 1 then (pointUnits point, {}) else ([], { point, needed := d.needed - 1 })
  else (0xFFFD :: (lead b).1, (lead b).2)

/-- The decoder on a byte string; what is cut off at the end is replaced. -/
def run (d : Decoder) : Bytes → JString
  | [] => if d.needed = 0 then [] else [0xFFFD]
  | b :: bytes => (d.byte b.toNat).1 ++ run (d.byte b.toNat).2 bytes

end Decoder

/-- The text of a body; a leading byte order mark is dropped. -/
def decode (bytes : Bytes) : JString :=
  match bytes with
  | 0xEF :: 0xBB :: 0xBF :: bytes => Decoder.run {} bytes
  | bytes => Decoder.run {} bytes

/-! ## Texts without unpaired surrogates -/

/-- Either half of a surrogate pair. -/
def isSurrogate (c : UInt16) : Bool := isHighSurrogate c || isLowSurrogate c

/-- Every surrogate is part of a pair. -/
def Paired : JString → Prop
  | [] => True
  | [c] => isSurrogate c = false
  | c :: d :: s =>
    if isHighSurrogate c && isLowSurrogate d then Paired s
    else isSurrogate c = false ∧ Paired (d :: s)

theorem isSurrogate_eq_false {c : UInt16} :
    isSurrogate c = false ↔ c.toNat < 0xD800 ∨ 0xDFFF < c.toNat := by
  have hiff : isSurrogate c = true ↔ 0xD800 ≤ c.toNat ∧ c.toNat ≤ 0xDFFF := by
    simp only [isSurrogate, isHighSurrogate, isLowSurrogate, Bool.or_eq_true, Bool.and_eq_true,
      decide_eq_true_eq, UInt16.le_iff_toNat_le]
    simp only [UInt16.reduceToNat]
    omega
  rw [← Bool.not_eq_true, hiff]
  omega

theorem not_high_of_not_surrogate {c : UInt16} (h : isSurrogate c = false) :
    isHighSurrogate c = false := (Bool.or_eq_false_iff.1 h).1

/-- A unit that is no surrogate stands for itself. -/
theorem paired_cons {c : UInt16} (h : isSurrogate c = false) {s : JString} :
    Paired (c :: s) ↔ Paired s := by
  cases s with
  | nil =>
    unfold Paired
    simp only [h]
  | cons d s =>
    rw [Paired, not_high_of_not_surrogate h]
    simp only [Bool.false_and, Bool.false_eq_true, if_false, h, true_and]

theorem paired_pair {c d : UInt16} (hc : isHighSurrogate c = true) (hd : isLowSurrogate d = true)
    {s : JString} : Paired (c :: d :: s) ↔ Paired s := by
  rw [Paired, hc, hd]
  rfl

theorem Paired.append {s t : JString} (hs : Paired s) (ht : Paired t) : Paired (s ++ t) := by
  induction s using Paired.induct with
  | case1 => exact ht
  | case2 c => exact (paired_cons hs).2 ht
  | case3 c d s hcd ih =>
    obtain ⟨hc, hd⟩ := Bool.and_eq_true_iff.1 hcd
    exact (paired_pair hc hd).2 (ih ((paired_pair hc hd).1 hs))
  | case4 c d s hcd ih =>
    rw [Paired, if_neg hcd] at hs
    exact (paired_cons hs.1).2 (ih hs.2)

theorem paired_cons_cons {c d : UInt16} (h : ¬ (isHighSurrogate c && isLowSurrogate d) = true)
    {s : JString} : Paired (c :: d :: s) ↔ isSurrogate c = false ∧ Paired (d :: s) := by
  rw [Paired, if_neg h]

/-- Texts around a unit that is no surrogate are paired each on its own. -/
theorem paired_append_cons {c : UInt16} (h : isSurrogate c = false) {s t : JString} :
    Paired (s ++ c :: t) ↔ Paired s ∧ Paired t := by
  have hlow : isLowSurrogate c = false := (Bool.or_eq_false_iff.1 h).2
  induction s using Paired.induct with
  | case1 => exact (paired_cons h).trans (iff_of_eq (true_and _)).symm
  | case2 d =>
    have hpair : ¬ (isHighSurrogate d && isLowSurrogate c) = true := by simp [hlow]
    exact (paired_cons_cons hpair).trans (and_congr_right fun _ => paired_cons h)
  | case3 d e s hde ih =>
    obtain ⟨hd, he⟩ := Bool.and_eq_true_iff.1 hde
    exact (paired_pair hd he).trans (ih.trans (and_congr_left fun _ => (paired_pair hd he).symm))
  | case4 d e s hde ih =>
    refine (paired_cons_cons hde).trans ((and_congr_right fun _ => ih).trans ?_)
    rw [paired_cons_cons hde, and_assoc]

instance decidablePaired : (s : JString) → Decidable (Paired s)
  | [] => .isTrue trivial
  | [c] => inferInstanceAs (Decidable (isSurrogate c = false))
  | c :: d :: s =>
    have := decidablePaired s
    have := decidablePaired (d :: s)
    inferInstanceAs (Decidable (if isHighSurrogate c && isLowSurrogate d then Paired s
      else isSurrogate c = false ∧ Paired (d :: s)))

theorem paired_of_ascii {s : JString} (h : Ascii s) : Paired s := by
  induction s with
  | nil => trivial
  | cons c s ih =>
    refine (paired_cons ?_).2 (ih fun d hd => h d (List.mem_cons_of_mem _ hd))
    have hc := UInt16.lt_iff_toNat_lt.1 (h c List.mem_cons_self)
    simp only [UInt16.reduceToNat] at hc
    exact isSurrogate_eq_false.2 (Or.inl (by omega))

/-! ## Round trip -/

theorem toNat_byte {n : ℕ} (h : n < 256) : (UInt8.ofNat n).toNat = n := UInt8.toNat_ofNat_of_lt h

namespace Decoder

theorem run_cons (d : Decoder) {n : ℕ} (hn : n < 256) (bytes : Bytes) :
    run d (UInt8.ofNat n :: bytes) = (d.byte n).1 ++ run (d.byte n).2 bytes := by
  rw [run, toNat_byte hn]

/-- The first byte of two, three and four. -/
theorem lead_two {k : ℕ} (hk : 2 ≤ k) (hk' : k < 32) :
    lead (0xC0 + k) = ([], { point := k, needed := 1 }) := by
  unfold lead
  rw [if_neg (by omega), if_neg (by omega), if_pos (by omega), Nat.add_sub_cancel_left]

theorem lead_three {k : ℕ} (hk : k < 16) :
    lead (0xE0 + k) = ([], { point := k
                             needed := 2
                             lower := if k = 0 then 0xA0 else 0x80
                             upper := if k = 13 then 0x9F else 0xBF }) := by
  unfold lead
  rw [if_neg (by omega), if_neg (by omega), if_neg (by omega), if_pos (by omega),
    Nat.add_sub_cancel_left]
  have h0 : (0xE0 + k = 0xE0) = (k = 0) := propext (by omega)
  have h13 : (0xE0 + k = 0xED) = (k = 13) := propext (by omega)
  simp only [h0, h13]

theorem lead_four {k : ℕ} (hk : k < 5) :
    lead (0xF0 + k) = ([], { point := k
                             needed := 3
                             lower := if k = 0 then 0x90 else 0x80
                             upper := if k = 4 then 0x8F else 0xBF }) := by
  unfold lead
  rw [if_neg (by omega), if_neg (by omega), if_neg (by omega), if_neg (by omega), if_pos (by omega),
    Nat.add_sub_cancel_left]
  have h0 : (0xF0 + k = 0xF0) = (k = 0) := propext (by omega)
  have h4 : (0xF0 + k = 0xF4) = (k = 4) := propext (by omega)
  simp only [h0, h4]

/-- A byte that fits, before the last one and at the end. -/
theorem byte_next {d : Decoder} {r : ℕ} (hneeded : 2 ≤ d.needed) (hlower : d.lower ≤ 0x80 + r)
    (hupper : 0x80 + r ≤ d.upper) :
    d.byte (0x80 + r) = ([], { point := d.point * 64 + r, needed := d.needed - 1 }) := by
  unfold byte
  rw [if_neg (by omega), if_pos ⟨hlower, hupper⟩]
  dsimp only
  rw [if_neg (by omega), Nat.add_sub_cancel_left]

theorem byte_last {d : Decoder} {r : ℕ} (hneeded : d.needed = 1) (hlower : d.lower ≤ 0x80 + r)
    (hupper : 0x80 + r ≤ d.upper) : d.byte (0x80 + r) = (pointUnits (d.point * 64 + r), {}) := by
  unfold byte
  rw [if_neg (by omega), if_pos ⟨hlower, hupper⟩]
  dsimp only
  rw [if_pos hneeded, Nat.add_sub_cancel_left]

variable (bytes : Bytes) {k q r u : ℕ}

theorem run_two (hk : 2 ≤ k) (hk' : k < 32) (hr : r < 64) :
    run {} (UInt8.ofNat (0xC0 + k) :: UInt8.ofNat (0x80 + r) :: bytes) =
      pointUnits (k * 64 + r) ++ run {} bytes := by
  rw [run_cons _ (by omega), show byte {} (0xC0 + k) = _ from lead_two hk hk', run_cons _ (by omega),
    byte_last rfl (show 0x80 ≤ 0x80 + r by omega) (show 0x80 + r ≤ 0xBF by omega)]
  rfl

theorem run_three (hk : k < 16) (hq : q < 64) (hr : r < 64) (hlow : k = 0 → 32 ≤ q)
    (hsur : k = 13 → q < 32) :
    run {} (UInt8.ofNat (0xE0 + k) :: UInt8.ofNat (0x80 + q) :: UInt8.ofNat (0x80 + r) :: bytes) =
      pointUnits ((k * 64 + q) * 64 + r) ++ run {} bytes := by
  rw [run_cons _ (by omega), show byte {} (0xE0 + k) = _ from lead_three hk, run_cons _ (by omega),
    byte_next (Nat.le_refl _) (show (if k = 0 then 0xA0 else 0x80) ≤ 0x80 + q by split <;> omega)
      (show 0x80 + q ≤ if k = 13 then 0x9F else 0xBF by split <;> omega), run_cons _ (by omega),
    byte_last rfl (show 0x80 ≤ 0x80 + r by omega) (show 0x80 + r ≤ 0xBF by omega)]
  rfl

theorem run_four (hk : k < 5) (hq : q < 64) (hr : r < 64) (hu : u < 64) (hlow : k = 0 → 16 ≤ q)
    (hhigh : k = 4 → q < 16) :
    run {} (UInt8.ofNat (0xF0 + k) :: UInt8.ofNat (0x80 + q) :: UInt8.ofNat (0x80 + r) ::
        UInt8.ofNat (0x80 + u) :: bytes) =
      pointUnits (((k * 64 + q) * 64 + r) * 64 + u) ++ run {} bytes := by
  rw [run_cons _ (by omega), show byte {} (0xF0 + k) = _ from lead_four hk, run_cons _ (by omega),
    byte_next (show 2 ≤ 3 by omega) (show (if k = 0 then 0x90 else 0x80) ≤ 0x80 + q by split <;> omega)
      (show 0x80 + q ≤ if k = 4 then 0x8F else 0xBF by split <;> omega), run_cons _ (by omega),
    byte_next (Nat.le_refl _) (show 0x80 ≤ 0x80 + r by omega) (show 0x80 + r ≤ 0xBF by omega),
    run_cons _ (by omega),
    byte_last rfl (show 0x80 ≤ 0x80 + u by omega) (show 0x80 + u ≤ 0xBF by omega)]
  rfl

end Decoder

theorem pointUnits_unit {c : UInt16} {point : ℕ} (h : point = c.toNat) : pointUnits point = [c] := by
  have hc := c.toNat_lt
  unfold pointUnits
  rw [if_pos (by omega), h, UInt16.ofNat_toNat]

/-- The bytes of a unit that is no surrogate. -/
theorem run_encodeUnit {c : UInt16} (h : isSurrogate c = false) (bytes : Bytes) :
    Decoder.run {} (encodeUnit c ++ bytes) = c :: Decoder.run {} bytes := by
  have hc := c.toNat_lt
  have hsur := isSurrogate_eq_false.1 h
  unfold encodeUnit
  split
  · next h1 =>
    have h1 : c.toNat < 0x80 := UInt16.lt_iff_toNat_lt.1 h1
    have hb : c.toUInt8.toNat = c.toNat := by simp; omega
    simp only [List.cons_append, List.nil_append, Decoder.run, Decoder.byte, Decoder.lead, hb, h1,
      if_true, UInt16.ofNat_toNat]
  · next h1 =>
    have h1 : ¬ c.toNat < 0x80 := fun hlt => h1 (UInt16.lt_iff_toNat_lt.2 hlt)
    split
    · next h2 =>
      have h2 : c.toNat < 0x800 := UInt16.lt_iff_toNat_lt.1 h2
      refine (Decoder.run_two bytes (by omega) (by omega) (by omega)).trans ?_
      rw [pointUnits_unit (c := c) (by omega)]
      rfl
    · next h2 =>
      have h2 : ¬ c.toNat < 0x800 := fun hlt => h2 (UInt16.lt_iff_toNat_lt.2 hlt)
      rw [show (isHighSurrogate c || isLowSurrogate c) = false from h, if_neg (by simp)]
      refine (Decoder.run_three bytes (by omega) (by omega) (by omega) (by omega) (by omega)).trans ?_
      rw [pointUnits_unit (c := c) (by omega)]
      rfl

/-- The bytes of a pair. -/
theorem run_encodePair {c d : UInt16} (hc : isHighSurrogate c = true) (hd : isLowSurrogate d = true)
    (bytes : Bytes) :
    Decoder.run {} (encodePair c d ++ bytes) = c :: d :: Decoder.run {} bytes := by
  simp only [isHighSurrogate, isLowSurrogate, Bool.and_eq_true, decide_eq_true_eq,
    UInt16.le_iff_toNat_le] at hc hd
  simp only [UInt16.reduceToNat] at hc hd
  set p := 0x10000 + (c.toNat - 0xD800) * 0x400 + (d.toNat - 0xDC00) with hp
  refine (Decoder.run_four bytes (k := p / 262144) (q := p / 4096 % 64) (r := p / 64 % 64)
    (u := p % 64) (by omega) (by omega) (by omega) (by omega) (by omega) (by omega)).trans ?_
  have hpoint : ((p / 262144 * 64 + p / 4096 % 64) * 64 + p / 64 % 64) * 64 + p % 64 = p := by omega
  unfold pointUnits
  rw [hpoint, if_neg (by omega)]
  have hc' : UInt16.ofNat (0xD800 + (p - 0x10000) / 0x400) = c := by
    rw [show 0xD800 + (p - 0x10000) / 0x400 = c.toNat by omega, UInt16.ofNat_toNat]
  have hd' : UInt16.ofNat (0xDC00 + (p - 0x10000) % 0x400) = d := by
    rw [show 0xDC00 + (p - 0x10000) % 0x400 = d.toNat by omega, UInt16.ofNat_toNat]
  rw [hc', hd']
  rfl

theorem run_encode {s : JString} (h : Paired s) : Decoder.run {} (encode s) = s := by
  induction s using Paired.induct with
  | case1 => rfl
  | case2 c =>
    have hrun := run_encodeUnit h []
    rw [List.append_nil] at hrun
    exact hrun
  | case3 c d s hcd ih =>
    obtain ⟨hc, hd⟩ := Bool.and_eq_true_iff.1 hcd
    rw [encode, if_pos hcd, run_encodePair hc hd, ih ((paired_pair hc hd).1 h)]
  | case4 c d s hcd ih =>
    rw [Paired, if_neg hcd] at h
    rw [encode, if_neg hcd, run_encodeUnit h.1, ih h.2]

/-- **A text without unpaired surrogates arrives as it was sent**, if it does not
    begin with a byte order mark. -/
theorem decode_encode {c : UInt16} {s : JString} (h : Paired (c :: s)) (hc : c < 0x80) :
    decode (encode (c :: s)) = c :: s := by
  have hrun := run_encode h
  rw [encode_cons_ascii hc] at hrun ⊢
  have hne : c.toUInt8 ≠ 0xEF := by
    intro heq
    have := toUInt8_lt hc
    rw [heq] at this
    exact absurd this (by decide)
  unfold decode
  split
  · next heq => exact absurd (List.cons.inj heq).1 hne
  · exact hrun

/-! ## Texts that their bytes determine -/

/-- The unit that takes the place of a surrogate. -/
def replaceSurrogate (c : UInt16) : UInt16 := if isSurrogate c then 0xFFFD else c

/-- The text with U+FFFD in the place of every unpaired surrogate. -/
def toWellFormed : JString → JString
  | [] => []
  | [c] => [replaceSurrogate c]
  | c :: d :: s =>
    if isHighSurrogate c && isLowSurrogate d then c :: d :: toWellFormed s
    else replaceSurrogate c :: toWellFormed (d :: s)

theorem not_surrogate_replace (c : UInt16) : isSurrogate (replaceSurrogate c) = false := by
  unfold replaceSurrogate
  cases h : isSurrogate c with
  | true => rw [if_pos rfl]; decide
  | false => rw [if_neg Bool.false_ne_true, h]

theorem encodeUnit_replace (c : UInt16) : encodeUnit (replaceSurrogate c) = encodeUnit c := by
  unfold replaceSurrogate
  cases h : isSurrogate c with
  | false => rw [if_neg Bool.false_ne_true]
  | true =>
    have hc : ¬ (c.toNat < 0xD800 ∨ 0xDFFF < c.toNat) := by
      rw [← isSurrogate_eq_false, h]
      simp
    rw [if_pos rfl]
    unfold encodeUnit
    rw [if_neg (show ¬ (c < 0x80) from fun hlt => hc (Or.inl (by
        have := UInt16.lt_iff_toNat_lt.1 hlt
        simp only [UInt16.reduceToNat] at this
        omega))),
      if_neg (show ¬ (c < 0x800) from fun hlt => hc (Or.inl (by
        have := UInt16.lt_iff_toNat_lt.1 hlt
        simp only [UInt16.reduceToNat] at this
        omega))),
      if_pos (show (isHighSurrogate c || isLowSurrogate c) = true from h)]
    decide

/-- A unit that starts no pair is encoded by itself. -/
theorem encode_cons {c : UInt16} (h : isHighSurrogate c = false) (s : JString) :
    encode (c :: s) = encodeUnit c ++ encode s := by
  cases s with
  | nil => exact (List.append_nil _).symm
  | cons d s => rw [encode, h, Bool.false_and, if_neg Bool.false_ne_true]

theorem encode_toWellFormed (s : JString) : encode (toWellFormed s) = encode s := by
  induction s using toWellFormed.induct with
  | case1 => rfl
  | case2 c => exact encodeUnit_replace c
  | case3 c d s hcd ih => rw [toWellFormed, if_pos hcd, encode, if_pos hcd, encode, if_pos hcd, ih]
  | case4 c d s hcd ih =>
    rw [toWellFormed, if_neg hcd,
      encode_cons (not_high_of_not_surrogate (not_surrogate_replace c)), encodeUnit_replace, ih, encode,
      if_neg hcd]

theorem paired_toWellFormed (s : JString) : Paired (toWellFormed s) := by
  induction s using toWellFormed.induct with
  | case1 => trivial
  | case2 c => exact not_surrogate_replace c
  | case3 c d s hcd ih =>
    obtain ⟨hc, hd⟩ := Bool.and_eq_true_iff.1 hcd
    rw [toWellFormed, if_pos hcd]
    exact (paired_pair hc hd).2 ih
  | case4 c d s hcd ih =>
    rw [toWellFormed, if_neg hcd]
    exact (paired_cons (not_surrogate_replace c)).2 ih

/-- The decoder gives the text with its unpaired surrogates replaced. -/
theorem run_encode_eq (s : JString) : Decoder.run {} (encode s) = toWellFormed s := by
  rw [← encode_toWellFormed s]
  exact run_encode (paired_toWellFormed s)

/-- A text is its own replacement, if no U+FFFD comes into it. -/
theorem toWellFormed_eq {s : JString} (h : 0xFFFD ∉ toWellFormed s) : toWellFormed s = s := by
  have hunit {c : UInt16} (hc : 0xFFFD ≠ replaceSurrogate c) : replaceSurrogate c = c := by
    unfold replaceSurrogate at hc ⊢
    split
    · next hs => rw [if_pos hs] at hc; exact absurd rfl hc
    · rfl
  induction s using toWellFormed.induct with
  | case1 => rfl
  | case2 c =>
    rw [toWellFormed, List.mem_singleton] at h
    rw [toWellFormed, hunit h]
  | case3 c d s hcd ih =>
    rw [toWellFormed, if_pos hcd] at h ⊢
    rw [ih fun hs => h (List.mem_cons_of_mem _ (List.mem_cons_of_mem _ hs))]
  | case4 c d s hcd ih =>
    rw [toWellFormed, if_neg hcd] at h ⊢
    rw [List.mem_cons, not_or] at h
    rw [hunit h.1, ih h.2]

/-- A unit that the encoder may write as U+FFFD. -/
def Replaceable (c : UInt16) : Prop := isSurrogate c = true ∨ c = 0xFFFD

/-- The same unit, or one that may have the same bytes. -/
def Disguises (c d : UInt16) : Prop := c = d ∨ Replaceable c ∧ Replaceable d

theorem forall₂_disguises_refl (s : JString) : List.Forall₂ Disguises s s := by
  induction s with
  | nil => exact .nil
  | cons c s ih => exact .cons (Or.inl rfl) ih

theorem disguises_replace (c : UInt16) : Disguises c (replaceSurrogate c) := by
  unfold replaceSurrogate
  split
  · next h => exact Or.inr ⟨Or.inl h, Or.inr rfl⟩
  · exact Or.inl rfl

theorem disguises_toWellFormed (s : JString) : List.Forall₂ Disguises s (toWellFormed s) := by
  induction s using toWellFormed.induct with
  | case1 => exact .nil
  | case2 c => exact .cons (disguises_replace c) .nil
  | case3 c d s hcd ih =>
    rw [toWellFormed, if_pos hcd]
    exact .cons (Or.inl rfl) (.cons (Or.inl rfl) ih)
  | case4 c d s hcd ih =>
    rw [toWellFormed, if_neg hcd]
    exact .cons (disguises_replace c) ih

/-- A text in which U+FFFD stands has the bytes of one with a surrogate there. -/
theorem exists_surrogate_in_place {s : JString} (hs : Paired s) (h : 0xFFFD ∈ s) :
    ∃ s', encode s' = encode s ∧ s' ≠ s ∧ List.Forall₂ Disguises s s' := by
  have hunit : Disguises 0xFFFD 0xD800 := Or.inr ⟨Or.inr rfl, Or.inl (by decide)⟩
  induction s using Paired.induct with
  | case1 => cases h
  | case2 c =>
    obtain rfl := List.mem_singleton.1 h
    exact ⟨[0xD800], by decide, by decide, .cons hunit .nil⟩
  | case3 c d s hcd ih =>
    obtain ⟨hc, hd⟩ := Bool.and_eq_true_iff.1 hcd
    have hmem : 0xFFFD ∈ s := by
      rcases List.mem_cons.1 h with rfl | h
      · exact absurd hc (by decide)
      · rcases List.mem_cons.1 h with rfl | h
        · exact absurd hd (by decide)
        · exact h
    obtain ⟨s', hbytes, hne, hdisguises⟩ := ih ((paired_pair hc hd).1 hs) hmem
    refine ⟨c :: d :: s', ?_, fun heq => hne (List.cons.inj (List.cons.inj heq).2).2,
      .cons (Or.inl rfl) (.cons (Or.inl rfl) hdisguises)⟩
    rw [encode, if_pos hcd, encode, if_pos hcd, hbytes]
  | case4 c d s hcd ih =>
    rw [Paired, if_neg hcd] at hs
    obtain ⟨hc, hrest⟩ := hs
    rw [encode, if_neg hcd]
    rcases List.mem_cons.1 h with rfl | h
    · -- what follows starts no low surrogate, so the new one stays alone
      have hd : isLowSurrogate d = false := by
        cases s with
        | nil => exact (Bool.or_eq_false_iff.1 hrest).2
        | cons e s =>
          rw [Paired] at hrest
          split at hrest
          · next hde =>
            have hhigh := (Bool.and_eq_true_iff.1 hde).1
            simp only [isHighSurrogate, isLowSurrogate, Bool.and_eq_true, Bool.and_eq_false_iff,
              decide_eq_true_eq, decide_eq_false_iff_not, UInt16.le_iff_toNat_le] at hhigh ⊢
            simp only [UInt16.reduceToNat] at hhigh ⊢
            omega
          · exact (Bool.or_eq_false_iff.1 hrest.1).2
      refine ⟨0xD800 :: d :: s, ?_, fun heq => absurd (List.cons.inj heq).1 (by decide),
        .cons hunit (forall₂_disguises_refl _)⟩
      rw [encode, hd, Bool.and_false, if_neg Bool.false_ne_true]
      rfl
    · obtain ⟨s', hbytes, hne, hdisguises⟩ := ih hrest h
      refine ⟨c :: s', ?_, fun heq => hne (List.cons.inj heq).2, .cons (Or.inl rfl) hdisguises⟩
      rw [encode_cons (not_high_of_not_surrogate hc), hbytes]

/-- Every other text has the bytes of one that differs from it in units that may
    be replaced. -/
theorem exists_disguise {s : JString} (h : ¬ (Paired s ∧ 0xFFFD ∉ s)) :
    ∃ s', encode s' = encode s ∧ s' ≠ s ∧ List.Forall₂ Disguises s s' := by
  by_cases hs : Paired s
  · exact exists_surrogate_in_place hs (by_contra fun hmem => h ⟨hs, hmem⟩)
  · refine ⟨toWellFormed s, encode_toWellFormed s, fun heq => hs ?_, disguises_toWellFormed s⟩
    rw [← heq]
    exact paired_toWellFormed s

/-- **The bytes of a text determine it** iff it has no unpaired surrogate and no
    U+FFFD. -/
theorem encode_determines_iff (s : JString) :
    (∀ s', encode s' = encode s → s' = s) ↔ Paired s ∧ 0xFFFD ∉ s := by
  constructor
  · intro h
    by_contra hno
    obtain ⟨s', hbytes, hne, -⟩ := exists_disguise hno
    exact hne (h s' hbytes)
  · rintro ⟨hpaired, hmem⟩ s' hbytes
    have hsame : toWellFormed s' = s := by
      rw [← run_encode_eq, hbytes, run_encode hpaired]
    rw [← hsame] at hmem ⊢
    exact (toWellFormed_eq hmem).symm

/-! ### Disguises -/

theorem Replaceable.spec {c : UInt16} (h : Replaceable c) : ¬ lowerUnit c < 0x80 ∧ isSpace c = false := by
  have hc : 0xD800 ≤ c.toNat ∧ c.toNat ≤ 0xDFFF ∨ c.toNat = 0xFFFD := by
    rcases h with h | rfl
    · left
      by_contra hno
      have hfalse := isSurrogate_eq_false.2 (show c.toNat < 0xD800 ∨ 0xDFFF < c.toNat by omega)
      rw [hfalse] at h
      cases h
    · exact Or.inr rfl
  constructor
  · unfold lowerUnit
    rw [if_neg (by
      simp only [Bool.and_eq_true, decide_eq_true_eq, UInt16.le_iff_toNat_le, UInt16.reduceToNat]
      omega)]
    simp only [UInt16.lt_iff_toNat_lt, UInt16.reduceToNat]
    omega
  · simp only [isSpace, Bool.or_eq_false_iff, Bool.and_eq_false_iff, decide_eq_false_iff_not,
      beq_eq_false_iff_ne, ne_eq, UInt16.le_iff_toNat_le, ← UInt16.toNat_inj, UInt16.reduceToNat]
    omega

theorem Disguises.isSpace {c d : UInt16} (h : Disguises c d) (hc : Js.isSpace c = false) :
    Js.isSpace d = false := by
  rcases h with rfl | ⟨-, hd⟩
  · exact hc
  · exact hd.spec.2

theorem isPrefixOf_disguises {p s s' : JString} (hp : Ascii p) (h : List.Forall₂ Disguises s s')
    (hstart : p.isPrefixOf (toLowerCase s) = true) : p.isPrefixOf (toLowerCase s') = true := by
  induction p generalizing s s' with
  | nil => rfl
  | cons a p ih =>
    cases h with
    | nil => cases hstart
    | @cons c d s s' hcd h =>
      simp only [toLowerCase, List.map_cons, List.isPrefixOf, Bool.and_eq_true, beq_iff_eq]
        at hstart ⊢
      have hsame : c = d := by
        rcases hcd with hcd | ⟨hc, -⟩
        · exact hcd
        · exact absurd (hstart.1 ▸ hp a List.mem_cons_self) hc.spec.1
      exact ⟨hsame ▸ hstart.1, ih (fun b hb => hp b (List.mem_cons_of_mem _ hb)) h hstart.2⟩

theorem all_noSpace_disguises {s s' : JString} (h : List.Forall₂ Disguises s s')
    (hs : (s.all fun c => !Js.isSpace c) = true) : (s'.all fun c => !Js.isSpace c) = true := by
  induction h with
  | nil => rfl
  | cons hcd _ ih =>
    simp only [List.all_cons, Bool.and_eq_true, Bool.not_eq_true'] at hs ⊢
    exact ⟨hcd.isSpace hs.1, ih hs.2⟩

/-- A disguised URL still passes for one. -/
theorem isHttpUrl_disguises {s s' : JString} (h : List.Forall₂ Disguises s s')
    (hs : isHttpUrl s = true) : isHttpUrl s' = true := by
  have hhost {p : JString} (hp : Ascii p)
      (hok : (p.isPrefixOf (toLowerCase s) && decide (p.length < s.length) &&
        (s.drop p.length).all fun c => !Js.isSpace c) = true) :
      (p.isPrefixOf (toLowerCase s') && decide (p.length < s'.length) &&
        (s'.drop p.length).all fun c => !Js.isSpace c) = true := by
    simp only [Bool.and_eq_true, decide_eq_true_eq] at hok ⊢
    exact ⟨⟨isPrefixOf_disguises hp h hok.1.1, h.length_eq ▸ hok.1.2⟩,
      all_noSpace_disguises (List.forall₂_drop p.length h) hok.2⟩
  unfold isHttpUrl at hs ⊢
  dsimp only at hs ⊢
  rw [Bool.or_eq_true] at hs ⊢
  exact hs.imp (hhost (ascii_of_all (by decide))) (hhost (ascii_of_all (by decide)))

end Js
