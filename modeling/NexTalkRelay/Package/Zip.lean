/-
  Packages.

  A package is a zip archive: the files with their local headers, the central
  directory, and a record at the end that says where it is.

  * `zip` is the function of `ntx.mjs`; a number that does not fit into its field is
    an error, `none`;
  * `unzip` reads the archive through its central directory, as the tests do, and
    checks what the records say against each other and against the contents;
  * `zip_eq` says where everything is, and `package_round_trip` that reading gives
    back what was packed, and that the order of the files does not matter.
-/
import Mathlib.Algebra.BigOperators.Group.List.Basic
import Mathlib.Data.List.Nodup
import NexTalkRelay.Js.Utf8
import NexTalkRelay.Lib.Record
import NexTalkRelay.Package.Crc

open Js Record

namespace Package

/-! ## `zip` -/

/-- Raw deflate at one level, and its inverse. -/
structure Raw where
  deflateRaw : Bytes → Bytes
  inflateRaw : Bytes → Option Bytes
  inflate_deflate : ∀ data, inflateRaw (deflateRaw data) = some data

/-- A name and its contents. -/
abbrev File := JString × Bytes

/-- `a < b` compares the code units. -/
def lessThan : JString → JString → Bool
  | _, [] => false
  | [], _ :: _ => true
  | c :: s, d :: t => if c = d then lessThan s t else decide (c < d)

/-- The comparator never meets equal names, so that `a` comes before `b` unless `b`
    is less. -/
def sortByName (files : List File) : List File :=
  files.mergeSort fun a b => !lessThan b.1 a.1

/-- `DOS_TIME` -/
def dosTime : ℕ := 0

/-- `DOS_DATE`, the first of January 1980 -/
def dosDate : ℕ := (bitOr (bitOr (shiftLeft 0 9) (shiftLeft 1 5)) 1).toNat

/-- The permissions of a regular file. -/
def attributes : ℕ := (shiftRight (shiftLeft 0o100644 16) 0).toNat

/-- What the headers say about a file: the method, and what is stored with it. -/
def stored (raw : Raw) (data : Bytes) : ℕ × Bytes :=
  let deflated := raw.deflateRaw data
  if deflated.length < data.length then (8, deflated) else (0, data)

/-- `buf.writeUInt16LE(v, off)` -/
def u16 (v off : ℕ) : Field := ⟨2, v, off⟩

/-- `buf.writeUInt32LE(v, off)` -/
def u32 (v off : ℕ) : Field := ⟨4, v, off⟩

/-- What both headers of a file say. -/
structure Entry where
  method : ℕ
  crc : ℕ
  bodyLength : ℕ
  dataLength : ℕ
  nameLength : ℕ
deriving DecidableEq

/-- The fields of `lh`. -/
def Entry.localFields (e : Entry) : List Field :=
  [u32 0x04034b50 0, u16 20 4, u16 0x0800 6, u16 e.method 8,
    u16 dosTime 10, u16 dosDate 12, u32 e.crc 14,
    u32 e.bodyLength 18, u32 e.dataLength 22, u16 e.nameLength 26]

/-- The fields of `ch`. -/
def Entry.centralFields (e : Entry) (off : ℕ) : List Field :=
  [u32 0x02014b50 0, u16 0x031e 4, u16 20 6, u16 0x0800 8, u16 e.method 10,
    u16 dosTime 12, u16 dosDate 14, u32 e.crc 16,
    u32 e.bodyLength 20, u32 e.dataLength 24, u16 e.nameLength 28,
    u32 attributes 38, u32 off 42]

/-- The fields of `end`. -/
def endFields (count cdLength off : ℕ) : List Field :=
  [u32 0x06054b50 0, u16 count 8, u16 count 10, u32 cdLength 12, u32 off 16]

/-- `Buffer.alloc(n)` -/
def alloc (n : ℕ) : Bytes := List.replicate n 0

/-- What the headers say of a file. -/
def entryOf (raw : Raw) (file : File) : Entry where
  method := (stored raw file.2).1
  crc := (crc32 file.2).toNat
  bodyLength := (stored raw file.2).2.length
  dataLength := file.2.length
  nameLength := (encode file.1).length

/-- The loop over the files: `parts`, `central` and `off`. -/
def zipLoop (raw : Raw) : List File → Bytes → Bytes → ℕ → Option (Bytes × Bytes × ℕ)
  | [], parts, central, off => some (parts, central, off)
  | file :: files, parts, central, off => do
    let n := encode file.1
    let body := (stored raw file.2).2
    let e := entryOf raw file
    let lh ← writeAll (alloc 30) e.localFields
    let ch ← writeAll (alloc 46) (e.centralFields off)
    zipLoop raw files (parts ++ (lh ++ (n ++ body))) (central ++ (ch ++ n))
      (off + (30 + n.length + body.length))

/-- `zip`. -/
def zip (raw : Raw) (files : List File) : Option Bytes := do
  let (parts, cd, off) ← zipLoop raw (sortByName files) [] [] 0
  let e ← writeAll (alloc 22) (endFields files.length cd.length off)
  return parts ++ (cd ++ e)

/-! ## Reading -/

/-- The loop that looks for the end record from `e` downwards. -/
def findEnd (buf : Bytes) : ℕ → Option ℕ
  | 0 => if readUIntLE 4 buf 0 = some 0x06054b50 then some 0 else none
  | e + 1 => if readUIntLE 4 buf (e + 1) = some 0x06054b50 then some (e + 1) else findEnd buf e

/-- Signature, entry and extra length of the local header at `lo`. -/
def readLocalHeader (buf : Bytes) (lo : ℕ) : Option (ℕ × Entry × ℕ) := do
  let sig ← readUIntLE 4 buf lo
  let method ← readUIntLE 2 buf (lo + 8)
  let crc ← readUIntLE 4 buf (lo + 14)
  let bodyLength ← readUIntLE 4 buf (lo + 18)
  let dataLength ← readUIntLE 4 buf (lo + 22)
  let nameLength ← readUIntLE 2 buf (lo + 26)
  let xl ← readUIntLE 2 buf (lo + 28)
  return (sig, ⟨method, crc, bodyLength, dataLength, nameLength⟩, xl)

/-- Signature, entry, lengths of what follows the name, and offset of the local header
    from the central header at `p`. -/
def readCentralHeader (buf : Bytes) (p : ℕ) : Option (ℕ × Entry × ℕ × ℕ × ℕ) := do
  let sig ← readUIntLE 4 buf p
  let method ← readUIntLE 2 buf (p + 10)
  let crc ← readUIntLE 4 buf (p + 16)
  let bodyLength ← readUIntLE 4 buf (p + 20)
  let dataLength ← readUIntLE 4 buf (p + 24)
  let nameLength ← readUIntLE 2 buf (p + 28)
  let xl ← readUIntLE 2 buf (p + 30)
  let cl ← readUIntLE 2 buf (p + 32)
  let lo ← readUIntLE 4 buf (p + 42)
  return (sig, ⟨method, crc, bodyLength, dataLength, nameLength⟩, xl, cl, lo)

/-- The contents of a file from what is stored. -/
def unpack (raw : Raw) (method : ℕ) (body : Bytes) : Option Bytes :=
  if method = 8 then raw.inflateRaw body else some body

/-- The file of the central header at `p`, and where the next one is.  The local header
    has to repeat the central one, and the contents have to match both. -/
def readFile (raw : Raw) (buf : Bytes) (p : ℕ) : Option (File × ℕ) := do
  let (sig, e, xl, cl, lo) ← readCentralHeader buf p
  let (localSig, e', localXl) ← readLocalHeader buf lo
  let name := slice buf (p + 46) e.nameLength
  let localName := slice buf (lo + 30) e'.nameLength
  let start := lo + 30 + e'.nameLength + localXl
  let body := slice buf start e.bodyLength
  let contents ← unpack raw e.method body
  if sig = 0x02014b50 ∧ localSig = 0x04034b50 ∧ e' = e ∧ localName = name ∧
      body.length = e.bodyLength ∧ crc32 contents = e.crc ∧ contents.length = e.dataLength then
    some ((Decoder.run {} name, contents), p + 46 + e.nameLength + xl + cl)
  else none

/-- The loop over `n` entries from `p` on. -/
def readEntries (raw : Raw) (buf : Bytes) : ℕ → ℕ → Option (List File)
  | 0, _ => some []
  | n + 1, p => do
    let (file, p) ← readFile raw buf p
    let files ← readEntries raw buf n p
    return file :: files

/-- `unzip`. -/
def unzip (raw : Raw) (buf : Bytes) : Option (List File) := do
  if buf.length < 22 then none
  let e ← findEnd buf (buf.length - 22)
  let n ← readUIntLE 2 buf (e + 10)
  let p ← readUIntLE 4 buf (e + 16)
  readEntries raw buf n p

/-! ## The order of the names -/

theorem lessThan_asymm {s t : JString} (h : lessThan s t = true) : lessThan t s = false := by
  induction s generalizing t with
  | nil => cases t <;> rfl
  | cons c s ih =>
    cases t with
    | nil => cases h
    | cons d t =>
      rw [lessThan] at h ⊢
      by_cases hcd : c = d
      · rw [if_pos hcd] at h
        rw [if_pos hcd.symm]
        exact ih h
      · rw [if_neg hcd, decide_eq_true_eq, UInt16.lt_iff_toNat_lt] at h
        rw [if_neg (fun hdc => hcd hdc.symm), decide_eq_false_iff_not, UInt16.lt_iff_toNat_lt]
        omega

theorem eq_of_not_lessThan {s t : JString} (hst : lessThan s t = false)
    (hts : lessThan t s = false) : s = t := by
  induction s generalizing t with
  | nil =>
    cases t with
    | nil => rfl
    | cons d t => cases hst
  | cons c s ih =>
    cases t with
    | nil => cases hts
    | cons d t =>
      rw [lessThan] at hst hts
      by_cases hcd : c = d
      · rw [if_pos hcd] at hst
        rw [if_pos hcd.symm] at hts
        rw [hcd, ih hst hts]
      · rw [if_neg hcd, decide_eq_false_iff_not, UInt16.lt_iff_toNat_lt] at hst
        rw [if_neg (fun hdc => hcd hdc.symm), decide_eq_false_iff_not, UInt16.lt_iff_toNat_lt] at hts
        exact absurd (UInt16.toNat_inj.1 (by omega)) hcd

theorem not_lessThan_trans {s t u : JString} (hts : lessThan t s = false)
    (hut : lessThan u t = false) : lessThan u s = false := by
  induction s generalizing t u with
  | nil => cases u <;> rfl
  | cons c s ih =>
    rcases t with _ | ⟨d, t⟩
    · cases hts
    rcases u with _ | ⟨e, u⟩
    · cases hut
    rw [lessThan] at hts hut ⊢
    by_cases hdc : d = c
    · subst hdc
      rw [if_pos rfl] at hts
      by_cases hed : e = d
      · rw [if_pos hed] at hut ⊢
        exact ih hts hut
      · rwa [if_neg hed] at hut ⊢
    · rw [if_neg hdc, decide_eq_false_iff_not, UInt16.lt_iff_toNat_lt] at hts
      by_cases hed : e = d
      · subst hed
        rw [if_neg hdc, decide_eq_false_iff_not, UInt16.lt_iff_toNat_lt]
        exact hts
      · rw [if_neg hed, decide_eq_false_iff_not, UInt16.lt_iff_toNat_lt] at hut
        have hne : d.toNat ≠ c.toNat := fun heq => hdc (UInt16.toNat_inj.1 heq)
        have hec : e ≠ c := by
          rintro rfl
          omega
        rw [if_neg hec, decide_eq_false_iff_not, UInt16.lt_iff_toNat_lt]
        omega

theorem sortByName_perm (files : List File) : (sortByName files).Perm files :=
  List.mergeSort_perm _ _

/-- **Order independence.**  Distinct names leave one order only. -/
theorem sortByName_congr {files files' : List File} (hnames : (files.map Prod.fst).Nodup)
    (hperm : files'.Perm files) : sortByName files' = sortByName files := by
  have hsorted (l : List File) :
      (sortByName l).Pairwise fun a b => (!lessThan b.1 a.1) = true := by
    refine List.pairwise_mergeSort (fun a b c hab hbc => ?_) (fun a b => ?_) l
    · rw [Bool.not_eq_true'] at hab hbc ⊢
      exact not_lessThan_trans hab hbc
    · cases hba : lessThan b.1 a.1 with
      | false => rfl
      | true => rw [lessThan_asymm hba]; rfl
  refine List.Perm.eq_of_pairwise (fun a b ha hb hab hba => ?_) (hsorted files') (hsorted files)
    (((sortByName_perm files').trans hperm).trans (sortByName_perm files).symm)
  rw [Bool.not_eq_true'] at hab hba
  have ha := hperm.subset ((sortByName_perm files').subset ha)
  have hb := (sortByName_perm files).subset hb
  exact List.inj_on_of_nodup_map hnames ha hb (eq_of_not_lessThan hba hab)

/-! ## Where everything is -/

theorem dosDate_eq : dosDate = 33 := by decide

theorem attributes_eq : attributes = 0x81a40000 := by decide

theorem stored_method (raw : Raw) (data : Bytes) :
    (stored raw data).1 = 0 ∨ (stored raw data).1 = 8 := by
  unfold stored
  dsimp only
  split <;> simp

theorem length_stored_le (raw : Raw) (data : Bytes) :
    (stored raw data).2.length ≤ data.length := by
  unfold stored
  dsimp only
  split
  · next h => exact h.le
  · exact le_rfl

/-- What was stored is unpacked. -/
theorem unpack_stored (raw : Raw) (data : Bytes) :
    unpack raw (stored raw data).1 (stored raw data).2 = some data := by
  unfold unpack stored
  dsimp only
  split
  · exact raw.inflate_deflate data
  · rfl

/-- A file with its local header. -/
def localPart (raw : Raw) (file : File) : Bytes :=
  layout 0 (entryOf raw file).localFields 30 ++ (encode file.1 ++ (stored raw file.2).2)

/-- A file in the central directory. -/
def centralPart (raw : Raw) (off : ℕ) (file : File) : Bytes :=
  layout 0 ((entryOf raw file).centralFields off) 46 ++ encode file.1

/-- The central directory of files whose local headers are from `off` on. -/
def centralParts (raw : Raw) : List File → ℕ → Bytes
  | [], _ => []
  | file :: files, off =>
    centralPart raw off file ++ centralParts raw files (off + (localPart raw file).length)

/-- The numbers of all headers fit into their fields. -/
def AllFit (raw : Raw) : List File → ℕ → Prop
  | [], _ => True
  | file :: files, off =>
    ((∀ f ∈ (entryOf raw file).localFields, f.Fits) ∧
      ∀ f ∈ (entryOf raw file).centralFields off, f.Fits) ∧
    AllFit raw files (off + (localPart raw file).length)

theorem inOrder_local (e : Entry) : InOrder 0 e.localFields 30 := by
  simp [Entry.localFields, InOrder, u16, u32]

theorem inOrder_central (e : Entry) (off : ℕ) : InOrder 0 (e.centralFields off) 46 := by
  simp [Entry.centralFields, InOrder, u16, u32]

theorem inOrder_end (count cdLength off : ℕ) : InOrder 0 (endFields count cdLength off) 22 := by
  simp [endFields, InOrder, u16, u32]

theorem length_localPart (raw : Raw) (file : File) : (localPart raw file).length =
    30 + (encode file.1).length + (stored raw file.2).2.length := by
  rw [localPart, List.length_append, List.length_append, length_layout (inOrder_local _)]
  omega

/-- An empty record that is filled. -/
theorem writeAll_alloc {fs : List Field} {size : ℕ} (h : InOrder 0 fs size) {out : Bytes} :
    writeAll (alloc size) fs = some out ↔ (∀ f ∈ fs, f.Fits) ∧ layout 0 fs size = out :=
  @writeAll_eq_some [] out fs size h

theorem zipLoop_eq_some {raw : Raw} {files : List File} {parts central : Bytes} {off : ℕ}
    {r : Bytes × Bytes × ℕ} : zipLoop raw files parts central off = some r ↔
      AllFit raw files off ∧ r = (parts ++ files.flatMap (localPart raw),
        central ++ centralParts raw files off, off + (files.flatMap (localPart raw)).length) := by
  induction files generalizing parts central off with
  | nil => simp [zipLoop, AllFit, centralParts, eq_comm]
  | cons file files ih =>
    have hlen : off + (30 + (encode file.1).length + (stored raw file.2).2.length) =
        off + (localPart raw file).length := by rw [length_localPart]
    simp only [zipLoop, Option.bind_eq_bind, Option.bind_eq_some_iff,
      writeAll_alloc (inOrder_local _), writeAll_alloc (inOrder_central _ _), hlen, ih, AllFit,
      centralParts, List.flatMap_cons]
    constructor
    · rintro ⟨_, ⟨hlocal, rfl⟩, _, ⟨hcentral, rfl⟩, hrest, rfl⟩
      refine ⟨⟨⟨hlocal, hcentral⟩, hrest⟩, ?_⟩
      simp only [localPart, centralPart, List.append_assoc, List.length_append, Nat.add_assoc]
    · rintro ⟨⟨⟨hlocal, hcentral⟩, hrest⟩, rfl⟩
      refine ⟨_, ⟨hlocal, rfl⟩, _, ⟨hcentral, rfl⟩, hrest, ?_⟩
      simp only [localPart, centralPart, List.append_assoc, List.length_append, Nat.add_assoc]

/-- The archive of files in their order. -/
def archive (raw : Raw) (files : List File) : Bytes :=
  let parts := files.flatMap (localPart raw)
  let cd := centralParts raw files 0
  parts ++ (cd ++ layout 0 (endFields files.length cd.length parts.length) 22)

/-- **The bytes.**  If all numbers fit, the archive is that of the sorted files. -/
theorem zip_eq_some {raw : Raw} {files : List File} {out : Bytes} : zip raw files = some out ↔
    AllFit raw (sortByName files) 0 ∧
    (∀ f ∈ endFields files.length (centralParts raw (sortByName files) 0).length
      ((sortByName files).flatMap (localPart raw)).length, f.Fits) ∧
    archive raw (sortByName files) = out := by
  have hcount : (sortByName files).length = files.length := (sortByName_perm files).length_eq
  simp only [zip, Option.bind_eq_bind, Option.bind_eq_some_iff, zipLoop_eq_some,
    writeAll_alloc (inOrder_end _ _ _), archive, hcount]
  constructor
  · rintro ⟨_, ⟨hfit, rfl⟩, _, ⟨hend, rfl⟩, heq⟩
    simp only [List.nil_append, Nat.zero_add] at hend heq
    exact ⟨hfit, hend, Option.some.inj heq⟩
  · rintro ⟨hfit, hend, rfl⟩
    refine ⟨_, ⟨hfit, rfl⟩, ?_⟩
    simp only [List.nil_append, Nat.zero_add]
    exact ⟨_, ⟨hend, rfl⟩, rfl⟩

/-! ## Reading it again -/

section

variable {raw : Raw} {buf a b : Bytes} {e : Entry}

/-- A local header is read as it was written. -/
theorem readLocalHeader_eq (hbuf : buf = a ++ (layout 0 e.localFields 30 ++ b))
    (hfit : ∀ f ∈ e.localFields, f.Fits) :
    readLocalHeader buf a.length = some (0x04034b50, e, 0) := by
  have field {f : Field} (hf : f ∈ e.localFields) :=
    read_layout hbuf (inOrder_local e) hf (hfit f hf)
  have hsig := field (f := u32 0x04034b50 0) (by simp [Entry.localFields])
  have hmethod := field (f := u16 e.method 8) (by simp [Entry.localFields])
  have hcrc := field (f := u32 e.crc 14) (by simp [Entry.localFields])
  have hbody := field (f := u32 e.bodyLength 18) (by simp [Entry.localFields])
  have hdata := field (f := u32 e.dataLength 22) (by simp [Entry.localFields])
  have hname := field (f := u16 e.nameLength 26) (by simp [Entry.localFields])
  have hextra : readUIntLE 2 buf (a.length + 28) = some 0 :=
    read_slice hbuf rfl (length_layout (inOrder_local e)).ge (by decide)
  simp only [u16, u32, Nat.add_zero] at hsig hmethod hcrc hbody hdata hname
  simp only [readLocalHeader, hsig, hmethod, hcrc, hbody, hdata, hname, hextra, Option.bind_eq_bind,
    Option.bind_some]
  rfl

theorem readCentralHeader_eq {off : ℕ} (hbuf : buf = a ++ (layout 0 (e.centralFields off) 46 ++ b))
    (hfit : ∀ f ∈ e.centralFields off, f.Fits) :
    readCentralHeader buf a.length = some (0x02014b50, e, 0, 0, off) := by
  have field {f : Field} (hf : f ∈ e.centralFields off) :=
    read_layout hbuf (inOrder_central e off) hf (hfit f hf)
  have hsig := field (f := u32 0x02014b50 0) (by simp [Entry.centralFields])
  have hmethod := field (f := u16 e.method 10) (by simp [Entry.centralFields])
  have hcrc := field (f := u32 e.crc 16) (by simp [Entry.centralFields])
  have hbody := field (f := u32 e.bodyLength 20) (by simp [Entry.centralFields])
  have hdata := field (f := u32 e.dataLength 24) (by simp [Entry.centralFields])
  have hname := field (f := u16 e.nameLength 28) (by simp [Entry.centralFields])
  have hoff := field (f := u32 off 42) (by simp [Entry.centralFields])
  have hlen : 34 ≤ (layout 0 (e.centralFields off) 46).length := by
    rw [length_layout (inOrder_central e off)]
    omega
  have hextra : readUIntLE 2 buf (a.length + 30) = some 0 :=
    read_slice hbuf rfl (by omega) (by decide)
  have hcomment : readUIntLE 2 buf (a.length + 32) = some 0 :=
    read_slice hbuf rfl (by omega) (by decide)
  simp only [u16, u32, Nat.add_zero] at hsig hmethod hcrc hbody hdata hname hoff
  simp only [readCentralHeader, hsig, hmethod, hcrc, hbody, hdata, hname, hoff, hextra, hcomment,
    Option.bind_eq_bind, Option.bind_some]
  rfl

/-- A file is read from its two headers, wherever they stand. -/
theorem readFile_eq {c d : Bytes} {file : File} (hlocal : buf = a ++ (localPart raw file ++ b))
    (hcentral : buf = c ++ (centralPart raw a.length file ++ d))
    (hfit : (∀ f ∈ (entryOf raw file).localFields, f.Fits) ∧
      ∀ f ∈ (entryOf raw file).centralFields a.length, f.Fits)
    (hname : Paired file.1) :
    readFile raw buf c.length = some (file, c.length + (centralPart raw a.length file).length) := by
  have hl : buf = a ++ (layout 0 (entryOf raw file).localFields 30 ++
      (encode file.1 ++ ((stored raw file.2).2 ++ b))) := by
    rw [hlocal, localPart, List.append_assoc, List.append_assoc]
  have hc : buf = c ++ (layout 0 ((entryOf raw file).centralFields a.length) 46 ++
      (encode file.1 ++ d)) := by
    rw [hcentral, centralPart, List.append_assoc]
  have hllen : (a ++ layout 0 (entryOf raw file).localFields 30).length = a.length + 30 := by
    rw [List.length_append, length_layout (inOrder_local _)]
  have hclen : (c ++ layout 0 ((entryOf raw file).centralFields a.length) 46).length =
      c.length + 46 := by
    rw [List.length_append, length_layout (inOrder_central _ _)]
  have hcname : slice buf (c.length + 46) (encode file.1).length = encode file.1 := by
    rw [hc, ← List.append_assoc, ← hclen]
    exact slice_mid _ _ _
  have hlname : slice buf (a.length + 30) (encode file.1).length = encode file.1 := by
    rw [hl, ← List.append_assoc, ← hllen]
    exact slice_mid _ _ _
  have hbody : slice buf (a.length + 30 + (encode file.1).length) (stored raw file.2).2.length =
      (stored raw file.2).2 := by
    rw [hl, ← List.append_assoc, ← hllen, ← List.append_assoc, ← List.length_append]
    exact slice_mid _ _ _
  have hcrc : crc32 file.2 = ((crc32 file.2).toNat : ℤ) := by
    rw [Int.toNat_of_nonneg (crc32_bounds file.2).1]
  have hnext : c.length + 46 + (encode file.1).length =
      c.length + (centralPart raw a.length file).length := by
    rw [centralPart, List.length_append, length_layout (inOrder_central _ _)]
    omega
  unfold readFile
  rw [readCentralHeader_eq hc hfit.2]
  simp only [Option.bind_eq_bind, Option.bind_some, readLocalHeader_eq hl hfit.1, Nat.add_zero]
  dsimp only [entryOf]
  simp only [hcname, hlname, hbody, unpack_stored, Option.bind_some, ← hcrc, and_self, if_true,
    run_encode hname, hnext]

/-- The loop over the central directory reads all files. -/
theorem readEntries_eq {files : List File} {c d : Bytes}
    (hlocal : buf = a ++ (files.flatMap (localPart raw) ++ b))
    (hcentral : buf = c ++ (centralParts raw files a.length ++ d))
    (hfit : AllFit raw files a.length) (hnames : ∀ file ∈ files, Paired file.1) :
    readEntries raw buf files.length c.length = some files := by
  induction files generalizing a c with
  | nil => rfl
  | cons file files ih =>
    rw [List.flatMap_cons, List.append_assoc] at hlocal
    rw [centralParts, List.append_assoc] at hcentral
    obtain ⟨hpaired, hrest⟩ := List.forall_mem_cons.1 hnames
    have hfile := readFile_eq hlocal hcentral hfit.1 hpaired
    have hih := @ih (a ++ localPart raw file) (c ++ centralPart raw a.length file)
      (by rw [hlocal, List.append_assoc]) (by rw [hcentral, List.append_assoc, List.length_append])
      (by rw [List.length_append]; exact hfit.2) hrest
    rw [List.length_append] at hih
    rw [List.length_cons, readEntries, hfile]
    simp only [Option.bind_eq_bind, Option.bind_some, hih]
    rfl

end

theorem findEnd_eq {buf : Bytes} {e : ℕ} (h : readUIntLE 4 buf e = some 0x06054b50) :
    findEnd buf e = some e := by
  cases e with
  | zero => rw [findEnd, if_pos h]
  | succ e => rw [findEnd, if_pos h]

/-- **Round trip.** -/
theorem unzip_zip {raw : Raw} {files : List File} (hnames : ∀ file ∈ files, Paired file.1)
    {out : Bytes} (h : zip raw files = some out) : unzip raw out = some (sortByName files) := by
  obtain ⟨hfit, hend, rfl⟩ := zip_eq_some.1 h
  have hcount : (sortByName files).length = files.length := (sortByName_perm files).length_eq
  have hsorted : ∀ file ∈ sortByName files, Paired file.1 := fun file hfile =>
    hnames file ((sortByName_perm files).subset hfile)
  rw [← hcount] at hend
  generalize sortByName files = sorted at *
  have hbuf : archive raw sorted = (sorted.flatMap (localPart raw) ++ centralParts raw sorted 0) ++
      (layout 0 (endFields sorted.length (centralParts raw sorted 0).length
        (sorted.flatMap (localPart raw)).length) 22 ++ []) := by
    rw [archive, List.append_nil, List.append_assoc]
  have field {f : Field} (hf : f ∈ endFields sorted.length (centralParts raw sorted 0).length
      (sorted.flatMap (localPart raw)).length) :=
    read_layout hbuf (inOrder_end _ _ _) hf (hend f hf)
  have hsig := field (f := u32 0x06054b50 0) (by simp [endFields])
  have hn := field (f := u16 sorted.length 10) (by simp [endFields])
  have hp := field (f := u32 (sorted.flatMap (localPart raw)).length 16) (by simp [endFields])
  simp only [u16, u32, Nat.add_zero] at hsig hn hp
  have hlen : (archive raw sorted).length =
      (sorted.flatMap (localPart raw) ++ centralParts raw sorted 0).length + 22 := by
    rw [hbuf, List.append_nil, List.length_append, length_layout (inOrder_end _ _ _)]
  have hentries : readEntries raw (archive raw sorted) sorted.length
      (sorted.flatMap (localPart raw)).length = some sorted :=
    @readEntries_eq raw _ [] _ sorted _ _ rfl rfl hfit hsorted
  unfold unzip
  rw [if_neg (by omega), hlen, Nat.add_sub_cancel]
  simp only [Option.bind_eq_bind, findEnd_eq hsig, Option.bind_some, hn, hp]
  exact hentries

/-! ## Which files fit -/

/-- The size of the local parts. -/
def partsSize (raw : Raw) (files : List File) : ℕ :=
  (files.map fun file => 30 + (encode file.1).length + (stored raw file.2).2.length).sum

/-- The size of the central directory. -/
def directorySize (files : List File) : ℕ :=
  (files.map fun file => 46 + (encode file.1).length).sum

/-- Fewer than 65536 files, with sizes and offsets below 2^32. -/
structure Small (raw : Raw) (files : List File) : Prop where
  count : files.length < 65536
  sizes : ∀ file ∈ files, file.2.length < 2 ^ 32
  offsets : partsSize raw files < 2 ^ 32
  directory : directorySize files < 2 ^ 32

theorem Small.perm {raw : Raw} {files files' : List File} (h : Small raw files)
    (hperm : files'.Perm files) : Small raw files' where
  count := by rw [hperm.length_eq]; exact h.count
  sizes file hfile := h.sizes file (hperm.subset hfile)
  offsets := by
    rw [partsSize, (hperm.map _).sum_eq]
    exact h.offsets
  directory := by
    rw [directorySize, (hperm.map _).sum_eq]
    exact h.directory

theorem length_parts (raw : Raw) (files : List File) :
    (files.flatMap (localPart raw)).length = partsSize raw files := by
  rw [List.length_flatMap, partsSize]
  simp only [length_localPart]

theorem length_centralParts (raw : Raw) (files : List File) (off : ℕ) :
    (centralParts raw files off).length = directorySize files := by
  induction files generalizing off with
  | nil => rfl
  | cons file files ih =>
    rw [centralParts, List.length_append, ih, centralPart, List.length_append,
      length_layout (inOrder_central _ _)]
    simp [directorySize]

/-- The numbers of one file's headers fit if its name does. -/
theorem fits_iff {raw : Raw} {file : File} {off : ℕ} (hdata : file.2.length < 2 ^ 32)
    (hoff : off < 2 ^ 32) : ((∀ f ∈ (entryOf raw file).localFields, f.Fits) ∧
      ∀ f ∈ (entryOf raw file).centralFields off, f.Fits) ↔ (encode file.1).length < 65536 := by
  have hcrc := crc32_bounds file.2
  have hbody := length_stored_le raw file.2
  have hmethod : (stored raw file.2).1 < 65536 := by
    rcases stored_method raw file.2 with h | h <;> omega
  simp only [Entry.localFields, Entry.centralFields, entryOf, List.forall_mem_cons, u16, u32,
    Field.Fits, dosDate_eq, attributes_eq, dosTime, List.not_mem_nil, false_implies, implies_true,
    and_true, Nat.reducePow] at hdata hoff ⊢
  omega

theorem allFit_iff {raw : Raw} {files : List File} {off : ℕ}
    (hdata : ∀ file ∈ files, file.2.length < 2 ^ 32) (hoff : off + partsSize raw files < 2 ^ 32) :
    AllFit raw files off ↔ ∀ file ∈ files, (encode file.1).length < 65536 := by
  induction files generalizing off with
  | nil => simp [AllFit]
  | cons file files ih =>
    obtain ⟨hfile, hrest⟩ := List.forall_mem_cons.1 hdata
    have hsize : partsSize raw (file :: files) =
        (localPart raw file).length + partsSize raw files := by
      rw [length_localPart, partsSize, partsSize, List.map_cons, List.sum_cons]
    rw [AllFit, fits_iff hfile (by omega), ih hrest (by omega), List.forall_mem_cons]

/-- Files within the limits are packed, unless a name is too long. -/
theorem zip_isSome_iff {raw : Raw} {files : List File} (h : Small raw files) :
    (∃ out, zip raw files = some out) ↔ ∀ file ∈ files, (encode file.1).length < 65536 := by
  have hsmall := h.perm (sortByName_perm files)
  have hfit := @allFit_iff raw _ 0 hsmall.sizes (by rw [Nat.zero_add]; exact hsmall.offsets)
  have hend : ∀ f ∈ endFields files.length (centralParts raw (sortByName files) 0).length
      ((sortByName files).flatMap (localPart raw)).length, f.Fits := by
    have hcount := h.count
    have hoffsets := hsmall.offsets
    have hdirectory := hsmall.directory
    rw [length_centralParts, length_parts]
    simp only [endFields, List.forall_mem_cons, u16, u32, Field.Fits, List.not_mem_nil,
      false_implies, implies_true, and_true, Nat.reducePow] at hoffsets hdirectory ⊢
    omega
  have hmem : (∀ file ∈ sortByName files, (encode file.1).length < 65536) ↔
      ∀ file ∈ files, (encode file.1).length < 65536 :=
    forall_congr' fun file => by rw [(sortByName_perm files).mem_iff]
  constructor
  · rintro ⟨out, hzip⟩
    exact hmem.1 (hfit.1 (zip_eq_some.1 hzip).1)
  · intro hnames
    exact ⟨_, zip_eq_some.2 ⟨hfit.2 (hmem.2 hnames), hend, rfl⟩⟩

/-! ## The theorem -/

/-- **Packages.**  Files with distinct well-formed names, within the limits, are packed
    (unless a name has more bytes than its field can say); what is packed is read again,
    by its central directory, as the files with their names and contents, while
    signatures, sizes, check sums and local headers agree; and another list of the same
    files is packed into the same bytes. -/
theorem package_round_trip (raw : Raw) {files : List File} (hdistinct : (files.map Prod.fst).Nodup)
    (hnames : ∀ file ∈ files, Paired file.1) (hsmall : Small raw files) :
    ((∃ out, zip raw files = some out) ↔ ∀ file ∈ files, (encode file.1).length < 65536) ∧
    (∀ out, zip raw files = some out →
      ∃ files', unzip raw out = some files' ∧ files'.Perm files) ∧
    ∀ files', (files'.map Prod.fst).Nodup → (∀ file, file ∈ files' ↔ file ∈ files) →
      zip raw files' = zip raw files := by
  refine ⟨zip_isSome_iff hsmall, ?_, ?_⟩
  · intro out hzip
    exact ⟨_, unzip_zip hnames hzip, sortByName_perm files⟩
  · intro files' hdistinct' hmem
    have hperm : files'.Perm files :=
      (List.perm_ext_iff_of_nodup (List.Nodup.of_map _ hdistinct') (List.Nodup.of_map _ hdistinct)).2
        hmem
    rw [zip, zip, sortByName_congr hdistinct hperm, hperm.length_eq]

/-! Ten zeros get shorter, a single byte does not. -/

/-- What deflate makes of two short files. -/
def deflateSample (data : Bytes) : Bytes :=
  if data = List.replicate 10 0 then [0x63, 0x60, 0x80, 0x01, 0x00]
  else if data = [1] then [0x63, 0x04, 0x00] else 0 :: data

/-- And what inflate makes of that. -/
def inflateSample (body : Bytes) : Option Bytes :=
  if body = [0x63, 0x60, 0x80, 0x01, 0x00] then some (List.replicate 10 0)
  else if body = [0x63, 0x04, 0x00] then some [1] else some body.tail

theorem inflate_deflateSample (data : Bytes) : inflateSample (deflateSample data) = some data := by
  unfold deflateSample
  split
  · next h => rw [h]; rfl
  split
  · next h => rw [h]; rfl
  rw [inflateSample, if_neg (by simp), if_neg (by simp), List.tail_cons]

/-- The two as a codec. -/
def sampleRaw : Raw := ⟨deflateSample, inflateSample, inflate_deflateSample⟩

/-- `b` is given before `a`. -/
def sampleFiles : List File := [([98], List.replicate 10 0), ([97], [1])]

theorem sampleFiles_packed :
    (sampleFiles.map fun file => (stored sampleRaw file.2).1) = [8, 0] ∧
    (∃ out, zip sampleRaw sampleFiles = some out) ∧
    (∀ out, zip sampleRaw sampleFiles = some out →
      ∃ files, unzip sampleRaw out = some files ∧ files.Perm sampleFiles) ∧
    zip sampleRaw sampleFiles.reverse = zip sampleRaw sampleFiles := by
  have hnames : ∀ file ∈ sampleFiles, Paired file.1 := by
    simp [sampleFiles, Paired, isSurrogate_eq_false]
  have hsmall : Small sampleRaw sampleFiles :=
    ⟨by decide, by decide, by decide +kernel, by decide⟩
  obtain ⟨hzip, hunzip, hsame⟩ := package_round_trip sampleRaw (by decide) hnames hsmall
  exact ⟨by decide +kernel, hzip.2 (by decide), hunzip,
    hsame _ (by decide) fun _ => List.mem_reverse⟩

end Package
