/-
  Texts that are put together of fields.

  * `Layout` is a text with a fixed head, fields in front of a free text and
    fields behind it, all separated by colons;
  * `Layout.text_injective`: the text determines the fields and the free text;
  * `Layout.encode_injective`: its bytes determine the fields and the bytes of
    the free text.
-/
import NexTalkRelay.Lib.Delim
import NexTalkRelay.Js.Utf8

namespace Js

/-- A field of plain characters without a colon. -/
def Field (s : JString) : Prop := Ascii s ∧ colon ∉ s

theorem Field.hex {lo hi : ℕ} {s : JString} (h : isHexOf lo hi s = true) : Field s :=
  ⟨ascii_of_isHexOf h, colon_notMem_of_isHexOf h⟩

theorem Field.digits {s : JString} (h : isDigits s = true) : Field s :=
  ⟨ascii_of_isDigits h, colon_notMem_of_isDigits h⟩

/-- A text of fields between colons, one of which may be any text. -/
structure Layout where
  head : JString
  leading : List JString
  free : JString
  trailing : List JString

namespace Layout

/-- The text itself. -/
def text (L : Layout) : JString :=
  L.head ++ Delim.trailing colon (Delim.fields colon L.leading L.free) L.trailing

/-- The other fields have no colon. -/
structure Plain (L : Layout) : Prop where
  head : Ascii L.head
  leading : ∀ f ∈ L.leading, Field f
  trailing : ∀ f ∈ L.trailing, Field f

/-- The two layouts have the same head and as many fields. -/
structure Fits (L M : Layout) : Prop where
  head : L.head = M.head
  leading : L.leading.length = M.leading.length
  trailing : L.trailing.length = M.trailing.length

variable {L M : Layout}

/-- **The text determines its parts.** -/
theorem text_injective (hL : L.Plain) (hM : M.Plain) (hfits : L.Fits M) (h : L.text = M.text) :
    L.leading = M.leading ∧ L.free = M.free ∧ L.trailing = M.trailing := by
  unfold text at h
  rw [hfits.head, List.append_cancel_left_eq] at h
  obtain ⟨hfront, htrailing⟩ := Delim.cut_trailing (fun f hf => (hL.trailing f hf).2)
    (fun f hf => (hM.trailing f hf).2) hfits.trailing h
  obtain ⟨hleading, hfree⟩ := Delim.cut_fields (fun f hf => (hL.leading f hf).2)
    (fun f hf => (hM.leading f hf).2) hfits.leading hfront
  exact ⟨hleading, hfree, htrailing⟩

/-! ## Bytes -/

/-- The bytes of a plain text. -/
def plainBytes (s : JString) : Bytes := s.map UInt16.toUInt8

theorem encode_plain {s : JString} (h : Ascii s) : encode s = plainBytes s := by
  have hs := encode_ascii_append h []
  rw [List.append_nil] at hs
  exact hs.trans (List.append_nil _)

theorem encode_colon (s t : JString) : encode (s ++ colon :: t) = encode s ++ 58 :: encode t := by
  rw [encode_append_cons (by decide), encode_cons_ascii (by decide)]
  rfl

theorem encode_trailing {s : JString} {fs : List JString} (h : ∀ f ∈ fs, Field f) :
    encode (Delim.trailing colon s fs) = Delim.trailing 58 (encode s) (fs.map plainBytes) := by
  induction fs generalizing s with
  | nil => rfl
  | cons f fs ih =>
    rw [List.forall_mem_cons] at h
    have hstep : encode (Delim.trailing colon (s ++ colon :: f) fs) = _ := ih h.2
    rw [encode_colon, encode_plain h.1.1] at hstep
    exact hstep

theorem encode_fields {s : JString} {fs : List JString} (h : ∀ f ∈ fs, Field f) :
    encode (Delim.fields colon fs s) = Delim.fields 58 (fs.map plainBytes) (encode s) := by
  induction fs with
  | nil => rfl
  | cons f fs ih =>
    rw [List.forall_mem_cons] at h
    have hstep : encode (f ++ colon :: Delim.fields colon fs s) = _ := encode_colon _ _
    rw [encode_plain h.1.1, ih h.2] at hstep
    exact hstep

theorem colon_notMem_plainBytes {s : JString} (h : Field s) : 58 ∉ plainBytes s := by
  intro hmem
  obtain ⟨c, hc, heq⟩ := List.mem_map.1 hmem
  have hcolon : c = colon := toUInt8_inj (h.1 c hc) (by decide) heq
  exact h.2 (hcolon ▸ hc)

theorem plainBytes_injective {fs gs : List JString} (hfs : ∀ f ∈ fs, Field f)
    (hgs : ∀ g ∈ gs, Field g) (h : fs.map plainBytes = gs.map plainBytes) : fs = gs := by
  induction fs generalizing gs with
  | nil => exact (List.map_eq_nil_iff.1 h.symm).symm
  | cons f fs ih =>
    cases gs with
    | nil => cases h
    | cons g gs =>
      rw [List.forall_mem_cons] at hfs hgs
      obtain ⟨hfirst, hrest⟩ := List.cons.inj h
      rw [← encode_plain hfs.1.1, ← encode_plain hgs.1.1] at hfirst
      rw [encode_eq_ascii hgs.1.1 hfirst, ih hfs.2 hgs.2 hrest]

/-- **The bytes determine the fields**, and the bytes of the free text. -/
theorem encode_injective (hL : L.Plain) (hM : M.Plain) (hfits : L.Fits M)
    (h : encode L.text = encode M.text) :
    L.leading = M.leading ∧ encode L.free = encode M.free ∧ L.trailing = M.trailing := by
  have hbytes {N : Layout} (hN : N.Plain) : encode N.text = plainBytes N.head ++
      Delim.trailing 58 (Delim.fields 58 (N.leading.map plainBytes) (encode N.free))
        (N.trailing.map plainBytes) := by
    unfold text
    rw [encode_ascii_append hN.head, encode_trailing hN.trailing, encode_fields hN.leading]
    rfl
  have hfree {fs : List JString} (hfs : ∀ f ∈ fs, Field f) : ∀ b ∈ fs.map plainBytes, 58 ∉ b := by
    intro b hb
    obtain ⟨f, hf, rfl⟩ := List.mem_map.1 hb
    exact colon_notMem_plainBytes (hfs f hf)
  rw [hbytes hL, hbytes hM, hfits.head, List.append_cancel_left_eq] at h
  obtain ⟨hfront, htrailing⟩ := Delim.cut_trailing (hfree hL.trailing) (hfree hM.trailing)
    (by simp [hfits.trailing]) h
  obtain ⟨hleading, hmiddle⟩ := Delim.cut_fields (hfree hL.leading) (hfree hM.leading)
    (by simp [hfits.leading]) hfront
  exact ⟨plainBytes_injective hL.leading hM.leading hleading, hmiddle,
    plainBytes_injective hL.trailing hM.trailing htrailing⟩

/-- The bytes of the text depend on those of the free text. -/
theorem encode_text_congr (hL : L.Plain) {s : JString} (h : encode s = encode L.free) :
    encode { L with free := s }.text = encode L.text := by
  unfold text
  dsimp only
  rw [encode_ascii_append hL.head, encode_ascii_append hL.head, encode_trailing hL.trailing,
    encode_trailing hL.trailing, encode_fields hL.leading, encode_fields hL.leading, h]

end Layout

end Js
