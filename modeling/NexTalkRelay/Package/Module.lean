/-
  The queue module that `wasmasm.mjs` assembles.

  * `Op` has the instructions of its table `op`, and `fns` the exported functions;
  * `buildQueueModule` is the function of that name, from the text of the
    capabilities to the bytes;
  * `Module` is what a module says, and `parseModule` reads it by the rules of the
    binary format;
  * `parseModule_build`: the bytes are read as the module that was assembled.
-/
import NexTalkRelay.Package.Leb

open Js Binary

namespace Package

/-! ## Instructions -/

/-- The instructions of the table `op`, and `eqz`, which `ntx_send` writes as a byte. -/
inductive Op where
  | i32c (v : ℤ) | i64c (v : ℤ)
  | get (i : ℕ) | set (i : ℕ) | gget (i : ℕ) | gset (i : ℕ)
  | add | sub | and | shru | gtu | eqz
  | store8 (off : ℕ)
  | ifv | end_ | ret
  | ext | shl64 | or64
  | memcopy
  deriving DecidableEq

/-- The bytes of an instruction. -/
def Op.bytes : Op → Bytes
  | i32c v => 0x41 :: sleb v
  | i64c v => 0x42 :: sleb v
  | get i => 0x20 :: uleb i
  | set i => 0x21 :: uleb i
  | gget i => 0x23 :: uleb i
  | gset i => 0x24 :: uleb i
  | add => [0x6a]
  | sub => [0x6b]
  | and => [0x71]
  | shru => [0x76]
  | gtu => [0x4b]
  | eqz => [0x45]
  | store8 off => 0x3a :: 0x00 :: uleb off
  | ifv => [0x04, 0x40]
  | end_ => [0x0b]
  | ret => [0x0f]
  | ext => [0xad]
  | shl64 => [0x86]
  | or64 => [0x84]
  | memcopy => [0xfc, 0x0a, 0x00, 0x00]

/-- The type `i32`. -/
def I32 : UInt8 := 0x7f

/-- The type `i64`. -/
def I64 : UInt8 := 0x7e

/-- The body of a function with its size. -/
def body (nlocals : UInt8) (ops : List Op) : Bytes :=
  let b := (if nlocals ≠ 0 then vec [[nlocals, I32]] else [0]) ++ ops.flatMap Op.bytes ++ [0x0b]
  uleb b.length ++ b

/-! ## The functions of the queue -/

/-- An exported function, of the type with a given index. -/
structure Fn where
  type : ℕ
  name : JString
  nlocals : UInt8
  ops : List Op

/-- The queue. -/
def Q : ℤ := 0x4000

/-- The output of `ntx_poll`. -/
def OUT : ℤ := 0x8000

section

open Op

/-- `ntx_init`. -/
def ntxInit : List Op := [i32c 0]

/-- The address of the capabilities and their length. -/
def ntxCaps (len : ℕ) : List Op := [i64c ((0x100 <<< 32 ||| len : ℕ) : ℤ)]

/-- `ntx_start`. -/
def ntxStart : List Op := [i32c 1, gset 0, i32c 0]

/-- `ntx_stop`. -/
def ntxStop : List Op := [i32c 0, gset 0, i32c 0]

/-- `ntx_status`. -/
def ntxStatus : List Op := [gget 0]

/-- `ntx_alloc`. -/
def ntxAlloc : List Op :=
  [gget 2, set 1,
    get 1, get 0, add, i32c 0x3f00, gtu, ifv, i32c 0x1000, set 1, end_,
    get 1, get 0, add, i32c 7, add, i32c (-8), and, gset 2,
    get 1]

/-- `ntx_send`. -/
def ntxSend : List Op :=
  [gget 0, eqz, ifv, i32c 1, ret, end_,
    gget 1, get 1, add, i32c 4, add, i32c 0x4000, gtu, ifv, i32c 3, ret, end_,
    i32c Q, gget 1, add, set 4,
    get 4, get 1, i32c 24, shru, store8 0,
    get 4, get 1, i32c 16, shru, store8 1,
    get 4, get 1, i32c 8, shru, store8 2,
    get 4, get 1, store8 3,
    get 4, i32c 4, add, get 0, get 1, memcopy,
    gget 1, get 1, add, i32c 4, add, gset 1,
    i32c 0]

/-- `ntx_attach`. -/
def ntxAttach : List Op := [i32c 0]

/-- `ntx_detach`. -/
def ntxDetach : List Op := [i32c 0]

/-- `ntx_poll`. -/
def ntxPoll : List Op :=
  [i32c OUT, i32c Q, gget 1, memcopy,
    i32c OUT, ext, i64c 32, shl64, gget 1, ext, or64,
    i32c 0, gset 1]

end

/-- The functions of a module whose capabilities have a given length. -/
def fns (capsLength : ℕ) : List Fn :=
  [⟨1, js "ntx_init", 0, ntxInit⟩,
    ⟨2, js "ntx_caps", 0, ntxCaps capsLength⟩,
    ⟨0, js "ntx_start", 0, ntxStart⟩,
    ⟨0, js "ntx_stop", 0, ntxStop⟩,
    ⟨0, js "ntx_status", 0, ntxStatus⟩,
    ⟨5, js "ntx_alloc", 1, ntxAlloc⟩,
    ⟨3, js "ntx_send", 1, ntxSend⟩,
    ⟨4, js "ntx_attach", 0, ntxAttach⟩,
    ⟨5, js "ntx_detach", 0, ntxDetach⟩,
    ⟨6, js "ntx_poll", 0, ntxPoll⟩]

/-- The parameters and the results of a type. -/
abbrev FnType := Bytes × Bytes

/-- The type section. -/
def types : List FnType :=
  [([], [I32]), ([I32, I32], [I32]), ([], [I64]), ([I32, I32, I32, I32], [I32]),
    (List.replicate 6 I32, [I32]), ([I32], [I32]), ([I32, I32, I32], [I64])]

/-! ## The module -/

/-- The bytes of a function type. -/
def typeBytes (t : FnType) : Bytes :=
  0x60 :: (vec (t.1.map fun b => [b]) ++ vec (t.2.map fun b => [b]))

/-- A global that can be changed, with its first value. -/
def globalBytes (v : ℤ) : Bytes := [I32, 0x01] ++ (Op.i32c v).bytes ++ [0x0b]

/-- The functions with their numbers, and the memory. -/
def exports (fns : List Fn) : List Bytes :=
  fns.zipIdx.map (fun e => str e.1.name ++ 0x00 :: uleb e.2) ++ [str (js "memory") ++ [0x02, 0x00]]

/-- The magic number and the version. -/
def header : Bytes := [0x00, 0x61, 0x73, 0x6d, 0x01, 0x00, 0x00, 0x00]

/-- The bytes after the header. -/
def sections (caps : Bytes) : List (UInt8 × Bytes) :=
  let fns := fns caps.length
  [(1, vec (types.map typeBytes)),
    (3, vec (fns.map fun f => uleb f.type)),
    (5, vec [[0x00, 0x02]]),
    (6, vec ([0, 0, 0x1000].map globalBytes)),
    (7, vec (exports fns)),
    (10, vec (fns.map fun f => body f.nlocals f.ops)),
    (11, vec [0x00 :: ((Op.i32c 0x100).bytes ++ 0x0b :: vec (caps.map fun c => [c]))])]

/-- `none` is the error for a text that is too long. -/
def buildQueueModule (capsCsv : JString) : Option Bytes :=
  let caps := encode capsCsv
  if 32 < caps.length then none
  else some (header ++ (sections caps).flatMap fun s => sec s.1 s.2)

/-! ## Reading a module -/

/-- Reads one instruction. -/
def readOp : Reader Op := do
  match (← byte).toNat with
  | 0x41 => Op.i32c <$> readSleb
  | 0x42 => Op.i64c <$> readSleb
  | 0x20 => Op.get <$> readUleb
  | 0x21 => Op.set <$> readUleb
  | 0x23 => Op.gget <$> readUleb
  | 0x24 => Op.gset <$> readUleb
  | 0x6a => return .add
  | 0x6b => return .sub
  | 0x71 => return .and
  | 0x76 => return .shru
  | 0x4b => return .gtu
  | 0x45 => return .eqz
  | 0x3a => do expect 0x00; Op.store8 <$> readUleb
  | 0x04 => do expect 0x40; return .ifv
  | 0x0b => return .end_
  | 0x0f => return .ret
  | 0xad => return .ext
  | 0x86 => return .shl64
  | 0x84 => return .or64
  | 0xfc => do expect 0x0a; expect 0x00; expect 0x00; return .memcopy
  | _ => failure

/-- A function: numbers and types of its locals, and its instructions with the last
    `end`. -/
structure Code where
  locals : List (ℕ × UInt8)
  ops : List Op

/-- What a module says. -/
structure Module where
  types : List FnType
  funcs : List ℕ
  /-- The pages that each memory has. -/
  memories : List ℕ
  /-- The types and first values of the globals. -/
  globals : List (UInt8 × Op)
  exports : List (Bytes × UInt8 × ℕ)
  code : List Code
  data : List (Op × Bytes)

/-- Reads a function type. -/
def readType : Reader FnType := do
  expect 0x60
  let params ← readVec byte
  let results ← readVec byte
  return (params, results)

/-- Reads the pages of a memory. -/
def readMemory : Reader ℕ := do
  expect 0x00
  readUleb

/-- A constant expression of one instruction. -/
def readConst : Reader Op := do
  let op ← readOp
  expect 0x0b
  return op

/-- Reads a global. -/
def readGlobal : Reader (UInt8 × Op) := do
  let type ← byte
  expect 0x01
  let op ← readConst
  return (type, op)

/-- Reads an export. -/
def readExport : Reader (Bytes × UInt8 × ℕ) := do
  let name ← readSized
  let kind ← byte
  let index ← readUleb
  return (name, kind, index)

/-- Reads a group of locals. -/
def readLocal : Reader (ℕ × UInt8) := do
  let count ← readUleb
  let type ← byte
  return (count, type)

/-- Reads the body of a function. -/
def readCode : Reader Code := do
  let b ← readSized
  let (locals, rest) ← StateT.lift ((readVec readLocal).run b)
  let ops ← StateT.lift (items readOp rest)
  return { locals, ops }

/-- Reads a data segment. -/
def readData : Reader (Op × Bytes) := do
  expect 0x00
  let op ← readConst
  let bytes ← readVec byte
  return (op, bytes)

/-- The sections that a module of the assembler has, in their order. -/
def parseSections : List (UInt8 × Bytes) → Option Module
  | [(1, b1), (3, b3), (5, b5), (6, b6), (7, b7), (10, b10), (11, b11)] => do
    let types ← whole (readVec readType) b1
    let funcs ← whole (readVec readUleb) b3
    let memories ← whole (readVec readMemory) b5
    let globals ← whole (readVec readGlobal) b6
    let exports ← whole (readVec readExport) b7
    let code ← whole (readVec readCode) b10
    let data ← whole (readVec readData) b11
    return { types, funcs, memories, globals, exports, code, data }
  | _ => none

/-- Reads a module. -/
def parseModule (bytes : Bytes) : Option Module := do
  let (magic, rest) ← (take 8).run bytes
  if magic = header then parseSections (← items readSec rest) else none

/-! ### Instructions -/

/-- **Immediates.**  An instruction is read from its bytes, whatever follows. -/
theorem reads_op (op : Op) : Reads readOp op.bytes op := by
  have hu (code : UInt8) (f : ℕ → Op) (i : ℕ) (h : ∀ rest, readOp.run (code :: rest) =
      (f <$> readUleb).run rest) : Reads readOp (code :: uleb i) (f i) := by
    intro rest
    rw [List.cons_append, h]
    exact (reads_uleb i).map f rest
  have hs (code : UInt8) (f : ℤ → Op) (v : ℤ) (h : ∀ rest, readOp.run (code :: rest) =
      (f <$> readSleb).run rest) : Reads readOp (code :: sleb v) (f v) := by
    intro rest
    rw [List.cons_append, h]
    exact (reads_sleb v).map f rest
  cases op with
  | i32c v => exact hs 0x41 .i32c v fun _ => rfl
  | i64c v => exact hs 0x42 .i64c v fun _ => rfl
  | get i => exact hu 0x20 .get i fun _ => rfl
  | set i => exact hu 0x21 .set i fun _ => rfl
  | gget i => exact hu 0x23 .gget i fun _ => rfl
  | gset i => exact hu 0x24 .gset i fun _ => rfl
  | store8 off =>
    intro rest
    exact (reads_uleb off).map Op.store8 rest
  | _ => exact fun _ => rfl

theorem op_bytes_ne_nil (op : Op) : op.bytes ≠ [] := by
  cases op <;> exact List.cons_ne_nil _ _

theorem items_ops (ops : List Op) : items readOp (ops.flatMap Op.bytes) = some ops :=
  items_eq fun op _ => ⟨reads_op op, op_bytes_ne_nil op⟩

/-! ### Sections -/

theorem reads_byteVec (bytes : Bytes) : Reads (readVec byte) (vec (bytes.map fun b => [b])) bytes :=
  reads_vec fun b _ => reads_byte b

theorem reads_type (t : FnType) : Reads readType (typeBytes t) t :=
  Reads.bind (a := [0x60]) (reads_expect 0x60) <|
    (reads_byteVec t.1).bind <| (reads_byteVec t.2).bind_pure fun results => (t.1, results)

theorem reads_memory : Reads readMemory [0x00, 0x02] 2 :=
  Reads.bind (a := [0x00]) (reads_expect 0x00) (reads_uleb 2)

theorem reads_const (op : Op) : Reads readConst (op.bytes ++ [0x0b]) op :=
  (reads_op op).bind ((reads_expect 0x0b).bind_pure fun _ => op)

theorem reads_global (v : ℤ) : Reads readGlobal (globalBytes v) (I32, .i32c v) :=
  Reads.bind (a := [I32]) (reads_byte I32) <|
    Reads.bind (a := [0x01]) (reads_expect 0x01) <|
      (reads_const (.i32c v)).bind_pure fun op => (I32, op)

theorem str_ascii {s : JString} (hs : Ascii s) :
    str s = uleb (encode s).length ++ encode s := by
  rw [str, length_encode_ascii hs]

/-- An export, its name in UTF-8. -/
def exportBytes (e : Bytes × UInt8 × ℕ) : Bytes :=
  (uleb e.1.length ++ e.1) ++ e.2.1 :: uleb e.2.2

theorem reads_export (e : Bytes × UInt8 × ℕ) : Reads readExport (exportBytes e) e :=
  (reads_sized e.1).bind <| Reads.bind (a := [e.2.1]) (reads_byte e.2.1) <|
    (reads_uleb e.2.2).bind_pure fun index => (e.1, e.2.1, index)

/-- The function that the bytes of `body` are read as. -/
def codeOf (nlocals : UInt8) (ops : List Op) : Code where
  locals := if nlocals ≠ 0 then [(nlocals.toNat, I32)] else []
  ops := ops ++ [.end_]

theorem reads_locals {nlocals : UInt8} (hsmall : nlocals < 128) :
    Reads (readVec readLocal) (if nlocals ≠ 0 then vec [[nlocals, I32]] else [0])
      (codeOf nlocals []).locals := by
  have huleb : Reads readUleb [nlocals] nlocals.toNat := (Leb.reads_single hsmall).map Int.toNat
  unfold codeOf
  by_cases hzero : nlocals = 0
  · rw [hzero]
    exact reads_vec (e := fun _ : ℕ × UInt8 => []) (l := []) (by simp)
  · rw [if_pos hzero, if_pos hzero]
    refine reads_vecMap (e := fun _ => [nlocals, I32]) (f := fun _ => (nlocals.toNat, I32))
      (l := [()]) fun _ _ => ?_
    exact Reads.bind (a := [nlocals]) huleb ((reads_byte I32).bind_pure fun t => (nlocals.toNat, t))

theorem reads_code {nlocals : UInt8} (hsmall : nlocals < 128) (ops : List Op) :
    Reads readCode (body nlocals ops) (codeOf nlocals ops) := by
  have hops : items readOp (ops.flatMap Op.bytes ++ [0x0b]) = some (ops ++ [.end_]) := by
    rw [← items_ops, List.flatMap_append]
    rfl
  have hlocals := reads_locals hsmall (ops.flatMap Op.bytes ++ [0x0b])
  intro rest
  unfold body readCode
  dsimp only
  rw [List.append_assoc (if nlocals ≠ 0 then _ else _), StateT.run_bind, reads_sized]
  simp only [Option.bind_eq_bind, Option.bind_some, StateT.run_bind, hlocals]
  show ((StateT.lift (items readOp (ops.flatMap Op.bytes ++ [0x0b]))).run rest).bind _ = _
  rw [hops]
  rfl

theorem reads_data (caps : Bytes) :
    Reads readData (0x00 :: ((Op.i32c 0x100).bytes ++ 0x0b :: vec (caps.map fun c => [c])))
      (.i32c 0x100, caps) := by
  have hbytes : 0x00 :: ((Op.i32c 0x100).bytes ++ 0x0b :: vec (caps.map fun c => [c])) =
      [0x00] ++ (((Op.i32c 0x100).bytes ++ [0x0b]) ++ vec (caps.map fun c => [c])) := by
    simp
  rw [hbytes]
  exact (reads_expect 0x00).bind <| (reads_const (.i32c 0x100)).bind <|
    (reads_byteVec caps).bind_pure fun bytes => (Op.i32c 0x100, bytes)

/-! ### The module -/

/-- What the module of some capabilities says. -/
def queueModule (caps : Bytes) : Module where
  types := types
  funcs := (fns caps.length).map Fn.type
  memories := [2]
  globals := [(I32, .i32c 0), (I32, .i32c 0), (I32, .i32c 0x1000)]
  exports := (fns caps.length).zipIdx.map (fun e => (encode e.1.name, 0x00, e.2)) ++
    [(encode (js "memory"), 0x02, 0)]
  code := (fns caps.length).map fun f => codeOf f.nlocals f.ops
  data := [(.i32c 0x100, caps)]

theorem fns_names (n : ℕ) : ∀ f ∈ fns n, Ascii f.name ∧ f.nlocals < 128 := by
  have hall : (fns n).all (fun f => f.name.all (fun c => decide (c < 0x80)) &&
      decide (f.nlocals < 128)) = true := by rfl
  intro f hf
  have h := List.all_eq_true.1 hall f hf
  rw [Bool.and_eq_true] at h
  exact ⟨ascii_of_all h.1, of_decide_eq_true h.2⟩

theorem exports_eq (caps : Bytes) :
    exports (fns caps.length) = (queueModule caps).exports.map exportBytes := by
  unfold exports queueModule
  dsimp only
  rw [List.map_append, List.map_map]
  refine congrArg₂ _ (List.map_congr_left fun e he => ?_) ?_
  · have hascii := (fns_names caps.length e.1 (List.fst_mem_of_mem_zipIdx he)).1
    rw [str_ascii hascii]
    rfl
  · rw [str_ascii (ascii_of_all rfl)]
    rfl

theorem parseSections_eq (caps : Bytes) :
    parseSections (sections caps) = some (queueModule caps) := by
  have htypes : whole (readVec readType) (vec (types.map typeBytes)) = some types :=
    whole_eq (reads_vec fun t _ => reads_type t)
  have hfuncs : whole (readVec readUleb) (vec ((fns caps.length).map fun f => uleb f.type)) =
      some ((fns caps.length).map Fn.type) :=
    whole_eq (reads_vecMap fun f _ => reads_uleb f.type)
  have hmemories : whole (readVec readMemory) (vec [[0x00, 0x02]]) = some [2] :=
    whole_eq (reads_vecMap (l := [()]) fun _ _ => reads_memory)
  have hglobals : whole (readVec readGlobal) (vec ([0, 0, 0x1000].map globalBytes)) =
      some [(I32, .i32c 0), (I32, .i32c 0), (I32, .i32c 0x1000)] :=
    whole_eq (reads_vecMap fun v _ => reads_global v)
  have hexports : whole (readVec readExport) (vec (exports (fns caps.length))) =
      some (queueModule caps).exports := by
    rw [exports_eq]
    exact whole_eq (reads_vec fun e _ => reads_export e)
  have hcode : whole (readVec readCode) (vec ((fns caps.length).map fun f => body f.nlocals f.ops)) =
      some ((fns caps.length).map fun f => codeOf f.nlocals f.ops) :=
    whole_eq (reads_vecMap fun f hf => reads_code (fns_names caps.length f hf).2 f.ops)
  have hdata : whole (readVec readData)
      (vec [0x00 :: ((Op.i32c 0x100).bytes ++ 0x0b :: vec (caps.map fun c => [c]))]) =
        some [(.i32c 0x100, caps)] :=
    whole_eq (reads_vecMap (l := [()]) fun _ _ => reads_data caps)
  unfold sections parseSections
  simp only [htypes, hfuncs, hmemories, hglobals, hexports, hcode, hdata, Option.bind_eq_bind,
    Option.bind_some]
  rfl

theorem caps_short {capsCsv : JString} {bytes : Bytes}
    (h : buildQueueModule capsCsv = some bytes) : (encode capsCsv).length ≤ 32 := by
  unfold buildQueueModule at h
  dsimp only at h
  split at h
  · cases h
  · omega

/-- **The module.**  The bytes of the module are read as what was assembled. -/
theorem parseModule_build {capsCsv : JString} {bytes : Bytes}
    (h : buildQueueModule capsCsv = some bytes) :
    parseModule bytes = some (queueModule (encode capsCsv)) := by
  unfold buildQueueModule at h
  dsimp only at h
  split at h
  · cases h
  obtain rfl := Option.some.inj h
  have hmagic := reads_take header ((sections (encode capsCsv)).flatMap fun s => sec s.1 s.2)
  have hsecs : items readSec ((sections (encode capsCsv)).flatMap fun s => sec s.1 s.2) =
      some (sections (encode capsCsv)) :=
    items_eq fun s _ => ⟨reads_sec s.1 s.2, List.cons_ne_nil _ _⟩
  unfold parseModule
  rw [show 8 = header.length from rfl, hmagic]
  simp only [Option.bind_eq_bind, Option.bind_some, if_pos, hsecs]
  exact parseSections_eq _

/-! ## The theorem -/

/-- **The encoders are exact.**  Both stop, with any fuel above the number; their bytes
    are read again as the number, are the fewest, and all but the last are continued.
    So immediates, vectors, sections and the whole module are read as they were
    written. -/
theorem encoders_exact :
    (∀ n : ℕ, (∀ fuel, n < fuel → ulebLoop fuel n = some (uleb n)) ∧
      Leb.Exact Leb.unsigned n (uleb n)) ∧
    (∀ n : ℤ, (∀ fuel, n.natAbs < fuel → slebLoop fuel n = some (sleb n)) ∧
      Leb.Exact Leb.signed n (sleb n)) ∧
    (∀ ops : List Op, items readOp (ops.flatMap Op.bytes) = some ops) ∧
    (∀ (α : Type) (item : Reader α) (enc : α → Bytes) (xs : List α),
      (∀ x ∈ xs, Reads item (enc x) x) → Reads (readVec item) (vec (xs.map enc)) xs) ∧
    (∀ secs : List (UInt8 × Bytes), items readSec (secs.flatMap fun s => sec s.1 s.2) = some secs) ∧
    ∀ capsCsv bytes, buildQueueModule capsCsv = some bytes →
      parseModule bytes = some (queueModule (encode capsCsv)) :=
  ⟨fun n => ⟨fun _ => ulebLoop_eq n, uleb_exact n⟩, fun n => ⟨fun _ => slebLoop_eq n, sleb_exact n⟩,
    items_ops, fun _ _ _ _ => reads_vec,
    fun _ => items_eq fun s _ => ⟨reads_sec s.1 s.2, List.cons_ne_nil _ _⟩,
    fun _ _ => parseModule_build⟩

end Package
