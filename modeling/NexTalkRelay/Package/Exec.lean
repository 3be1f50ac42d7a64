/-
  Running the queue module.

  * `Instance` is what the functions of a module share, and `step` what one instruction
    does; an instruction that traps is `none`;
  * `run` runs the instructions of a function, `Module.call` an exported function;
  * `call_alloc`, `call_send_accepted` and `call_poll` are what the functions of the queue
    do, by the numbers in their globals (`inst`).
-/
import NexTalkRelay.Lib.Memory
import NexTalkRelay.Package.Module

open Js LinearMemory

namespace Package

/-! ## Instructions -/

/-- A value on the stack. -/
inductive Value where
  | i32 (v : BitVec 32)
  | i64 (v : BitVec 64)

/-- The globals and the memory. -/
structure Instance where
  globals : List (BitVec 32)
  memory : Memory

/-- What an instruction reads and changes. -/
structure State where
  stack : List Value
  locals : List (BitVec 32)
  globals : List (BitVec 32)
  memory : Memory

/-- The bytes of a memory, of which a module has at most one.  No instruction of the
    assembler makes it larger. -/
def Module.memorySize (m : Module) : ℕ := m.memories.headD 0 * 65536

/-- A value on top of the stack. -/
def State.push (s : State) (v : Value) : State := { s with stack := v :: s.stack }

/-- An operator on the two topmost numbers. -/
def State.binary (s : State) (f : BitVec 32 → BitVec 32 → BitVec 32) : Option State :=
  match s.stack with
  | .i32 y :: .i32 x :: stack => some { s with stack := .i32 (f x y) :: stack }
  | _ => none

/-- An operation on the two uppermost numbers of 64 bits. -/
def State.binary64 (s : State) (f : BitVec 64 → BitVec 64 → BitVec 64) : Option State :=
  match s.stack with
  | .i64 y :: .i64 x :: stack => some { s with stack := .i64 (f x y) :: stack }
  | _ => none

/-- The instructions that do not change the flow, on a memory of the given size. -/
def step (size : ℕ) : Op → State → Option State
  | .i32c v, s => some (s.push (.i32 (BitVec.ofInt 32 v)))
  | .i64c v, s => some (s.push (.i64 (BitVec.ofInt 64 v)))
  | .get i, s => (s.locals[i]?).map fun v => s.push (.i32 v)
  | .set i, s =>
    match s.stack with
    | .i32 v :: stack =>
      if i < s.locals.length then some { s with stack, locals := s.locals.set i v } else none
    | _ => none
  | .gget i, s => (s.globals[i]?).map fun v => s.push (.i32 v)
  | .gset i, s =>
    match s.stack with
    | .i32 v :: stack =>
      if i < s.globals.length then some { s with stack, globals := s.globals.set i v } else none
    | _ => none
  | .add, s => s.binary fun x y => x + y
  | .sub, s => s.binary fun x y => x - y
  | .and, s => s.binary fun x y => x &&& y
  | .shru, s => s.binary fun x y => x >>> (y.toNat % 32)
  | .gtu, s => s.binary fun x y => if y.toNat < x.toNat then 1 else 0
  | .eqz, s =>
    match s.stack with
    | .i32 x :: stack => some { s with stack := .i32 (if x = 0 then 1 else 0) :: stack }
    | _ => none
  | .store8 off, s =>
    match s.stack with
    | .i32 v :: .i32 a :: stack =>
      if a.toNat + off < size then
        some { s with stack, memory := write s.memory (a.toNat + off) [UInt8.ofNat v.toNat] }
      else none
    | _ => none
  | .ext, s =>
    match s.stack with
    | .i32 x :: stack => some { s with stack := .i64 (x.setWidth 64) :: stack }
    | _ => none
  | .shl64, s => s.binary64 fun x y => x <<< (y.toNat % 64)
  | .or64, s => s.binary64 fun x y => x ||| y
  | .memcopy, s =>
    match s.stack with
    | .i32 n :: .i32 src :: .i32 dst :: stack =>
      if src.toNat + n.toNat ≤ size ∧ dst.toNat + n.toNat ≤ size then
        some { s with stack, memory := write s.memory dst.toNat (read s.memory src.toNat n.toNat) }
      else none
    | _ => none
  | .ifv, _ | .end_, _ | .ret, _ => none

/-- The instructions of a function, where the number counts the blocks that are
    skipped. -/
def run (size : ℕ) : ℕ → List Op → State → Option State
  | _, [], s => some s
  | 0, .ret :: _, s => some s
  | 0, .end_ :: ops, s => run size 0 ops s
  | 0, .ifv :: ops, s =>
    match s.stack with
    | .i32 v :: stack =>
      if v = 0 then run size 1 ops { s with stack } else run size 0 ops { s with stack }
    | _ => none
  | 0, op :: ops, s => (step size op s).bind fun s => run size 0 ops s
  | k + 1, .ifv :: ops, s => run size (k + 2) ops s
  | k + 1, .end_ :: ops, s => run size k ops s
  | k + 1, _ :: ops, s => run size (k + 1) ops s

/-! ## Functions -/

/-- The value of a constant expression. -/
def constant : Op → Option (BitVec 32)
  | .i32c v => some (BitVec.ofInt 32 v)
  | _ => none

/-- Data of the module in its memory; outside of it they trap. -/
def Module.fill (m : Module) (mem : Memory) (d : Op × Bytes) : Option Memory := do
  let p ← constant d.1
  if p.toNat + d.2.length ≤ m.memorySize then return write mem p.toNat d.2 else none

/-- A memory of zeros with the data of the module. -/
def Module.instantiate (m : Module) : Option Instance := do
  let globals ← m.globals.mapM fun g => constant g.2
  let memory ← m.data.foldlM m.fill fun _ => 0
  return { globals, memory }

/-- Call the function that is exported under the name. -/
def Module.call (m : Module) (name : JString) (args : List (BitVec 32)) (i : Instance) :
    Option (Value × Instance) := do
  let e ← m.exports.find? fun e => e.1 == encode name && e.2.1 == 0
  let code ← m.code[e.2.2]?
  let type ← m.funcs[e.2.2]? >>= fun t => m.types[t]?
  if type.1.length = args.length then
    let zeros := code.locals.flatMap fun l => List.replicate l.1 (0 : BitVec 32)
    let s ← run m.memorySize 0 code.ops ⟨[], args ++ zeros, i.globals, i.memory⟩
    let v ← s.stack.head?
    return (v, ⟨s.globals, s.memory⟩)
  else none

/-! ### One instruction -/

section

variable {size k i off : ℕ} {v : ℤ} {op : Op} {ops : List Op} {x y a n : BitVec 32} {u w : BitVec 64}
  {s : List Value} {l g : List (BitVec 32)} {m : Memory}

@[simp] theorem run_i32c : run size 0 (.i32c v :: ops) ⟨s, l, g, m⟩ =
    run size 0 ops ⟨.i32 (BitVec.ofInt 32 v) :: s, l, g, m⟩ := rfl

@[simp] theorem run_i64c : run size 0 (.i64c v :: ops) ⟨s, l, g, m⟩ =
    run size 0 ops ⟨.i64 (BitVec.ofInt 64 v) :: s, l, g, m⟩ := rfl

@[simp] theorem run_get (h : i < l.length) :
    run size 0 (.get i :: ops) ⟨s, l, g, m⟩ = run size 0 ops ⟨.i32 l[i] :: s, l, g, m⟩ := by
  simp [run, step, h, State.push]

@[simp] theorem run_set (h : i < l.length) :
    run size 0 (.set i :: ops) ⟨.i32 x :: s, l, g, m⟩ = run size 0 ops ⟨s, l.set i x, g, m⟩ := by
  simp [run, step, h]

@[simp] theorem run_gget (h : i < g.length) :
    run size 0 (.gget i :: ops) ⟨s, l, g, m⟩ = run size 0 ops ⟨.i32 g[i] :: s, l, g, m⟩ := by
  simp [run, step, h, State.push]

@[simp] theorem run_gset (h : i < g.length) :
    run size 0 (.gset i :: ops) ⟨.i32 x :: s, l, g, m⟩ = run size 0 ops ⟨s, l, g.set i x, m⟩ := by
  simp [run, step, h]

@[simp] theorem run_add : run size 0 (.add :: ops) ⟨.i32 y :: .i32 x :: s, l, g, m⟩ =
    run size 0 ops ⟨.i32 (x + y) :: s, l, g, m⟩ := rfl

@[simp] theorem run_and : run size 0 (.and :: ops) ⟨.i32 y :: .i32 x :: s, l, g, m⟩ =
    run size 0 ops ⟨.i32 (x &&& y) :: s, l, g, m⟩ := rfl

@[simp] theorem run_shru : run size 0 (.shru :: ops) ⟨.i32 y :: .i32 x :: s, l, g, m⟩ =
    run size 0 ops ⟨.i32 (x >>> (y.toNat % 32)) :: s, l, g, m⟩ := rfl

@[simp] theorem run_gtu : run size 0 (.gtu :: ops) ⟨.i32 y :: .i32 x :: s, l, g, m⟩ =
    run size 0 ops ⟨.i32 (if y.toNat < x.toNat then 1 else 0) :: s, l, g, m⟩ := rfl

@[simp] theorem run_eqz : run size 0 (.eqz :: ops) ⟨.i32 x :: s, l, g, m⟩ =
    run size 0 ops ⟨.i32 (if x = 0 then 1 else 0) :: s, l, g, m⟩ := rfl

@[simp] theorem run_store8 (h : a.toNat + off < size) :
    run size 0 (.store8 off :: ops) ⟨.i32 x :: .i32 a :: s, l, g, m⟩ =
      run size 0 ops ⟨s, l, g, write m (a.toNat + off) [UInt8.ofNat x.toNat]⟩ := by
  simp [run, step, h]

@[simp] theorem run_ext : run size 0 (.ext :: ops) ⟨.i32 x :: s, l, g, m⟩ =
    run size 0 ops ⟨.i64 (x.setWidth 64) :: s, l, g, m⟩ := rfl

@[simp] theorem run_shl64 : run size 0 (.shl64 :: ops) ⟨.i64 w :: .i64 u :: s, l, g, m⟩ =
    run size 0 ops ⟨.i64 (u <<< (w.toNat % 64)) :: s, l, g, m⟩ := rfl

@[simp] theorem run_or64 : run size 0 (.or64 :: ops) ⟨.i64 w :: .i64 u :: s, l, g, m⟩ =
    run size 0 ops ⟨.i64 (u ||| w) :: s, l, g, m⟩ := rfl

@[simp] theorem run_memcopy (hsrc : x.toNat + n.toNat ≤ size)
    (hdst : a.toNat + n.toNat ≤ size) :
    run size 0 (.memcopy :: ops) ⟨.i32 n :: .i32 x :: .i32 a :: s, l, g, m⟩ =
      run size 0 ops ⟨s, l, g, write m a.toNat (read m x.toNat n.toNat)⟩ := by
  simp [run, step, hsrc, hdst]

@[simp] theorem run_ifv : run size 0 (.ifv :: ops) ⟨.i32 x :: s, l, g, m⟩ =
    if x = 0 then run size 1 ops ⟨s, l, g, m⟩ else run size 0 ops ⟨s, l, g, m⟩ := rfl

@[simp] theorem run_skip {st : State} (hif : op ≠ .ifv) (hend : op ≠ .end_) :
    run size (k + 1) (op :: ops) st = run size (k + 1) ops st := by
  cases op with
  | ifv => exact absurd rfl hif
  | end_ => exact absurd rfl hend
  | _ => rfl

@[simp] theorem run_skip_end {st : State} :
    run size (k + 1) (.end_ :: ops) st = run size k ops st := rfl

@[simp] theorem run_end {st : State} : run size 0 (.end_ :: ops) st = run size 0 ops st := rfl

@[simp] theorem run_ret {st : State} : run size 0 (.ret :: ops) st = some st := rfl

@[simp] theorem run_nil {st : State} : run size k [] st = some st := by
  cases k <;> rfl

end

/-! ## The functions of the queue -/

/-- The memory of the queue: two pages. -/
def queueMemory : ℕ := 2 * 65536

/-- The globals of the queue, by their numbers. -/
def numbers (running qlen bump : ℕ) : List (BitVec 32) :=
  [running, qlen, bump].map (BitVec.ofNat 32)

/-- The queue between two calls. -/
def inst (running qlen bump : ℕ) (memory : Memory) : Instance where
  globals := numbers running qlen bump
  memory

theorem Module.call_of_export {m : Module} {name : JString} {args : List (BitVec 32)}
    {i i' : Instance} {e : Bytes × UInt8 × ℕ} {code : Code} {t : ℕ} {type : FnType} {v : Value}
    {stack : List Value} {locals : List (BitVec 32)}
    (hexport : m.exports.find? (fun e => e.1 == encode name && e.2.1 == 0) = some e)
    (hcode : m.code[e.2.2]? = some code) (hfunc : m.funcs[e.2.2]? = some t)
    (htype : m.types[t]? = some type) (hargs : type.1.length = args.length)
    (hrun : run m.memorySize 0 code.ops ⟨[], args ++ code.locals.flatMap fun l =>
      List.replicate l.1 0, i.globals, i.memory⟩ = some ⟨v :: stack, locals, i'.globals, i'.memory⟩) :
    m.call name args i = some (v, i') := by
  unfold Module.call
  simp only [hexport, hcode, hfunc, htype, Option.bind_eq_bind, Option.bind_some, if_pos hargs]
  rw [hrun, Option.bind_some]
  rfl

section

variable (caps : Bytes) (r q b : ℕ) (mem : Memory)

theorem call_init (x y : BitVec 32) :
    (queueModule caps).call (js "ntx_init") [x, y] (inst r q b mem) =
      some (.i32 0, inst r q b mem) :=
  Module.call_of_export rfl rfl rfl rfl rfl rfl

theorem call_start :
    (queueModule caps).call (js "ntx_start") [] (inst r q b mem) =
      some (.i32 0, inst 1 q b mem) :=
  Module.call_of_export rfl rfl rfl rfl rfl rfl

theorem call_stop :
    (queueModule caps).call (js "ntx_stop") [] (inst r q b mem) =
      some (.i32 0, inst 0 q b mem) :=
  Module.call_of_export rfl rfl rfl rfl rfl rfl

theorem call_status :
    (queueModule caps).call (js "ntx_status") [] (inst r q b mem) =
      some (.i32 (BitVec.ofNat 32 r), inst r q b mem) :=
  Module.call_of_export rfl rfl rfl rfl rfl rfl

theorem call_attach (x y z u v w : BitVec 32) :
    (queueModule caps).call (js "ntx_attach") [x, y, z, u, v, w] (inst r q b mem) =
      some (.i32 0, inst r q b mem) :=
  Module.call_of_export rfl rfl rfl rfl rfl rfl

theorem call_detach (x : BitVec 32) :
    (queueModule caps).call (js "ntx_detach") [x] (inst r q b mem) =
      some (.i32 0, inst r q b mem) :=
  Module.call_of_export rfl rfl rfl rfl rfl rfl

end

/-! ### The allocator -/

/-- Where `ntx_alloc` puts `n` bytes, from the bump pointer. -/
def spot (b n : ℕ) : ℕ := if 0x3f00 < b + n then 0x1000 else b

/-- The bump pointer after `ntx_alloc`. -/
def bumped (b n : ℕ) : ℕ := (spot b n + n + 7) / 8 * 8

theorem and_minus_eight {n : ℕ} (hn : n < 4294967296) :
    BitVec.ofNat 32 n &&& 4294967288#32 = BitVec.ofNat 32 (n / 8 * 8) := by
  have hmask : (4294967288#32) = ~~~ BitVec.ofNat 32 (2 ^ 3 - 1) := by decide
  have hshift : BitVec.ofNat 32 n &&& 4294967288#32 = (BitVec.ofNat 32 n >>> 3) <<< 3 := by
    rw [hmask]
    ext i hi
    rw [BitVec.getElem_and, BitVec.getElem_not, BitVec.getElem_shiftLeft,
      BitVec.getElem_eq_testBit_toNat (BitVec.ofNat 32 (2 ^ 3 - 1)), BitVec.toNat_ofNat,
      Nat.mod_eq_of_lt (by decide), Nat.testBit_two_pow_sub_one, BitVec.getElem_ushiftRight]
    by_cases hlow : i < 3
    · simp [hlow]
    · have hback : 3 + (i - 3) = i := by omega
      simp [hlow, hback, hi, BitVec.getLsbD_eq_getElem]
  rw [hshift]
  apply BitVec.eq_of_toNat_eq
  simp only [BitVec.toNat_shiftLeft, BitVec.toNat_ushiftRight, BitVec.toNat_ofNat,
    Nat.shiftRight_eq_div_pow, Nat.shiftLeft_eq]
  omega

/-- The three instructions that round up to a multiple of eight. -/
theorem round_up {p n : ℕ} (hp : p + n + 7 < 4294967296) :
    BitVec.ofNat 32 p + BitVec.ofNat 32 n + 7#32 &&& 4294967288#32 =
      BitVec.ofNat 32 ((p + n + 7) / 8 * 8) := by
  rw [← and_minus_eight hp, BitVec.ofNat_add, BitVec.ofNat_add]

section

variable {r q b n : ℕ}

theorem run_alloc (mem : Memory) (hb : b + n + 0x1007 < 4294967296) :
    run queueMemory 0 (ntxAlloc ++ [.end_]) ⟨[], [BitVec.ofNat 32 n, 0], numbers r q b, mem⟩ =
      some ⟨[.i32 (BitVec.ofNat 32 (spot b n))],
        [BitVec.ofNat 32 n, BitVec.ofNat 32 (spot b n)],
        numbers r q (bumped b n), mem⟩ := by
  have hsum : (b + n) % 4294967296 = b + n := Nat.mod_eq_of_lt (by omega)
  by_cases hbig : 0x3f00 < b + n
  · have hround := round_up (p := 0x1000) (n := n) (by omega)
    simp [ntxAlloc, numbers, spot, bumped, hbig, hsum, hround]
  · have hround := round_up (p := b) (n := n) (by omega)
    simp [ntxAlloc, numbers, spot, bumped, hbig, hsum, hround]

theorem call_alloc (caps : Bytes) (mem : Memory) (hb : b + n + 0x1007 < 4294967296) :
    (queueModule caps).call (js "ntx_alloc") [BitVec.ofNat 32 n] (inst r q b mem) =
      some (.i32 (BitVec.ofNat 32 (spot b n)), inst r q (bumped b n) mem) :=
  Module.call_of_export rfl rfl rfl rfl rfl (run_alloc mem hb)

end

/-! ### Sending -/

/-- The length of a frame, in front of it. -/
def be32 (n : ℕ) : Bytes :=
  [UInt8.ofNat (n >>> 24), UInt8.ofNat (n >>> 16), UInt8.ofNat (n >>> 8), UInt8.ofNat n]

@[simp] theorem length_be32 (n : ℕ) : (be32 n).length = 4 := rfl

/-- The memory after a frame of `n` bytes at `p` is put in the queue. -/
def enqueued (q p n : ℕ) (mem : Memory) : Memory :=
  let mem := write mem (0x4000 + q) (be32 n)
  write mem (0x4000 + q + 4) (read mem p n)

section

open Op

variable {q b n p x y d : ℕ} {s : List Value} {g : List (BitVec 32)} (mem : Memory)

/-- The locals of `ntx_send`. -/
def sendLocals (p n x y dst : ℕ) : List (BitVec 32) := [p, n, x, y, dst].map (BitVec.ofNat 32)

theorem run_send_stopped :
    run queueMemory 0 (ntxSend ++ [.end_]) ⟨[], sendLocals p n x y 0, numbers 0 q b, mem⟩ =
      some ⟨[.i32 1], sendLocals p n x y 0, numbers 0 q b, mem⟩ := by
  simp [ntxSend, sendLocals, numbers]

theorem run_send_full (hq : q ≤ 0x4000) (hn : n < 0x10000) (hfull : 0x4000 < q + n + 4) :
    run queueMemory 0 (ntxSend ++ [.end_]) ⟨[], sendLocals p n x y 0, numbers 1 q b, mem⟩ =
      some ⟨[.i32 3], sendLocals p n x y 0, numbers 1 q b, mem⟩ := by
  have hsum : (q + n + 4) % 4294967296 = q + n + 4 := Nat.mod_eq_of_lt (by omega)
  simp [ntxSend, sendLocals, numbers, hsum, hfull]

theorem run_store (ops : List Op) {k off : ℕ} (hk : k < 32) (hd : d + off < queueMemory)
    (hn : n < 4294967296) :
    run queueMemory 0 (get 4 :: get 1 :: i32c k :: shru :: store8 off :: ops)
      ⟨s, sendLocals p n x y d, g, mem⟩ =
    run queueMemory 0 ops
      ⟨s, sendLocals p n x y d, g, write mem (d + off) [UInt8.ofNat (n >>> k)]⟩ := by
  have hdst : d % 4294967296 = d := Nat.mod_eq_of_lt (by unfold queueMemory at hd; omega)
  have hlen : n % 4294967296 = n := Nat.mod_eq_of_lt hn
  have hshift : k % 4294967296 % 32 = k := by omega
  simp [sendLocals, hdst, hlen, hshift, hd]

theorem run_store_low (ops : List Op) {off : ℕ} (hd : d + off < queueMemory)
    (hn : n < 4294967296) :
    run queueMemory 0 (get 4 :: get 1 :: store8 off :: ops) ⟨s, sendLocals p n x y d, g, mem⟩ =
    run queueMemory 0 ops ⟨s, sendLocals p n x y d, g, write mem (d + off) [UInt8.ofNat n]⟩ := by
  have hdst : d % 4294967296 = d := Nat.mod_eq_of_lt (by unfold queueMemory at hd; omega)
  have hlen : n % 4294967296 = n := Nat.mod_eq_of_lt hn
  simp [sendLocals, hdst, hlen, hd]

theorem run_room (ops : List Op) (hroom : q + n + 4 ≤ 0x4000) :
    run queueMemory 0 (gget 0 :: eqz :: ifv :: i32c 1 :: ret :: end_ :: gget 1 :: get 1 :: add ::
        i32c 4 :: add :: i32c 0x4000 :: gtu :: ifv :: i32c 3 :: ret :: end_ ::
        i32c Q :: gget 1 :: add :: set 4 :: ops)
      ⟨[], sendLocals p n x y 0, numbers 1 q b, mem⟩ =
      run queueMemory 0 ops ⟨[], sendLocals p n x y (0x4000 + q), numbers 1 q b, mem⟩ := by
  have hsum : (q + n + 4) % 4294967296 ≤ 16384 := by omega
  simp [sendLocals, numbers, hsum, Q, BitVec.ofNat_add]

theorem run_header (ops : List Op) (hd : d + 4 ≤ queueMemory) (hn : n < 4294967296) :
    run queueMemory 0 (get 4 :: get 1 :: i32c 24 :: shru :: store8 0 ::
        get 4 :: get 1 :: i32c 16 :: shru :: store8 1 ::
        get 4 :: get 1 :: i32c 8 :: shru :: store8 2 ::
        get 4 :: get 1 :: store8 3 :: ops) ⟨s, sendLocals p n x y d, g, mem⟩ =
      run queueMemory 0 ops ⟨s, sendLocals p n x y d, g, write mem d (be32 n)⟩ := by
  refine (run_store mem _ (k := 24) (by omega) (by omega) hn).trans ?_
  refine (run_store _ _ (k := 16) (by omega) (by omega) hn).trans ?_
  refine (run_store _ _ (k := 8) (by omega) (by omega) hn).trans ?_
  refine (run_store_low _ _ (by omega) hn).trans ?_
  have hbytes : be32 n = [UInt8.ofNat (n >>> 24)] ++ [UInt8.ofNat (n >>> 16)] ++
      [UInt8.ofNat (n >>> 8)] ++ [UInt8.ofNat n] := rfl
  rw [hbytes, ← write_write, ← write_write, ← write_write]
  rfl

theorem run_frame (hd : d + 4 + n ≤ queueMemory) (hp : p + n ≤ queueMemory) :
    run queueMemory 0 [get 4, i32c 4, add, get 0, get 1, memcopy,
        gget 1, get 1, add, i32c 4, add, gset 1, i32c 0, end_]
      ⟨[], sendLocals p n x y d, numbers 1 q b, mem⟩ =
      some ⟨[.i32 0], sendLocals p n x y d, numbers 1 (q + n + 4) b,
        write mem (d + 4) (read mem p n)⟩ := by
  have hsize : queueMemory = 131072 := rfl
  have hdst : (d + 4) % 4294967296 = d + 4 := Nat.mod_eq_of_lt (by omega)
  have hlen : n % 4294967296 = n := Nat.mod_eq_of_lt (by omega)
  have hsrc : p % 4294967296 = p := Nat.mod_eq_of_lt (by omega)
  simp [sendLocals, numbers, hdst, hlen, hsrc, hd, hp, BitVec.ofNat_add]

theorem run_send_accepted (hroom : q + n + 4 ≤ 0x4000) (hp : p + n ≤ queueMemory) :
    run queueMemory 0 (ntxSend ++ [.end_]) ⟨[], sendLocals p n x y 0, numbers 1 q b, mem⟩ =
      some ⟨[.i32 0], sendLocals p n x y (0x4000 + q), numbers 1 (q + n + 4) b,
        enqueued q p n mem⟩ := by
  have hin : 0x4000 + q + 4 + n ≤ queueMemory := by
    unfold queueMemory
    omega
  simp only [ntxSend, List.cons_append, List.nil_append]
  have hhead : 0x4000 + q + 4 ≤ queueMemory := by omega
  have hsmall : n < 4294967296 := by omega
  rw [run_room mem _ hroom, run_header mem _ hhead hsmall]
  exact run_frame _ hin hp

variable {r : ℕ}

/-- An address and a length in one word. -/
theorem packed_word (hq : q ≤ 0x4000) :
    140737488355328#64 ||| (BitVec.ofNat 32 q).setWidth 64 =
      BitVec.ofNat 64 (0x8000 * 4294967296 + q) := by
  have hor := Nat.shiftLeft_add_eq_or_of_lt (i := 32) (b := q) (by omega) 0x8000
  have hhigh : 0x8000 <<< 32 = 140737488355328 := rfl
  have hlow : q % 2 ^ 32 = q := Nat.mod_eq_of_lt (by omega)
  rw [hhigh] at hor
  apply BitVec.eq_of_toNat_eq
  rw [BitVec.toNat_or, BitVec.toNat_setWidth, BitVec.toNat_ofNat, BitVec.toNat_ofNat,
    BitVec.toNat_ofNat, hlow, Nat.mod_eq_of_lt (show 140737488355328 < 2 ^ 64 by decide),
    Nat.mod_eq_of_lt (show q < 2 ^ 64 by omega), ← hor]
  omega

theorem run_poll (hq : q ≤ 0x4000) :
    run queueMemory 0 (ntxPoll ++ [.end_])
      ⟨[], [x, y, n].map (BitVec.ofNat 32), numbers r q b, mem⟩ =
      some ⟨[.i64 (BitVec.ofNat 64 (0x8000 * 4294967296 + q))], [x, y, n].map (BitVec.ofNat 32),
        numbers r 0 b, write mem 0x8000 (read mem 0x4000 q)⟩ := by
  have hlen : q % 4294967296 = q := Nat.mod_eq_of_lt (by omega)
  have hin : 0x8000 + q ≤ queueMemory := by unfold queueMemory; omega
  have hsrc : 0x4000 + q ≤ queueMemory := by unfold queueMemory; omega
  simp [ntxPoll, numbers, Q, OUT, hlen, hin, hsrc]
  exact packed_word hq

variable (caps : Bytes)

theorem call_send_stopped :
    (queueModule caps).call (js "ntx_send") ([p, n, x, y].map (BitVec.ofNat 32)) (inst 0 q b mem) =
      some (.i32 1, inst 0 q b mem) :=
  Module.call_of_export rfl rfl rfl rfl rfl (run_send_stopped mem)

theorem call_send_full (hq : q ≤ 0x4000) (hn : n < 0x10000) (hfull : 0x4000 < q + n + 4) :
    (queueModule caps).call (js "ntx_send") ([p, n, x, y].map (BitVec.ofNat 32)) (inst 1 q b mem) =
      some (.i32 3, inst 1 q b mem) :=
  Module.call_of_export rfl rfl rfl rfl rfl (run_send_full mem hq hn hfull)

theorem call_send_accepted (hroom : q + n + 4 ≤ 0x4000) (hp : p + n ≤ queueMemory) :
    (queueModule caps).call (js "ntx_send") ([p, n, x, y].map (BitVec.ofNat 32)) (inst 1 q b mem) =
      some (.i32 0, inst 1 (q + n + 4) b (enqueued q p n mem)) :=
  Module.call_of_export rfl rfl rfl rfl rfl (run_send_accepted mem hroom hp)

theorem call_poll (hq : q ≤ 0x4000) :
    (queueModule caps).call (js "ntx_poll") ([x, y, n].map (BitVec.ofNat 32)) (inst r q b mem) =
      some (.i64 (BitVec.ofNat 64 (0x8000 * 4294967296 + q)),
        inst r 0 b (write mem 0x8000 (read mem 0x4000 q))) :=
  Module.call_of_export rfl rfl rfl rfl rfl (run_poll mem hq)

theorem memorySize_queue : (queueModule caps).memorySize = queueMemory := rfl

theorem instantiate_queue (h : caps.length ≤ 32) :
    (queueModule caps).instantiate = some (inst 0 0 0x1000 (write (fun _ => 0) 0x100 caps)) := by
  have hin : (BitVec.ofNat 32 0x100).toNat + caps.length ≤ (queueModule caps).memorySize := by
    rw [memorySize_queue]
    show 0x100 + caps.length ≤ 2 * 65536
    omega
  have hdata : (queueModule caps).fill (fun _ => 0) (.i32c 0x100, caps) =
      some (write (fun _ => 0) 0x100 caps) := if_pos hin
  have hfold : (queueModule caps).data.foldlM (queueModule caps).fill (fun _ => 0) =
      some (write (fun _ => 0) 0x100 caps) := by
    show ((queueModule caps).fill (fun _ => 0) (.i32c 0x100, caps)).bind some = _
    rw [hdata]
    rfl
  unfold Module.instantiate
  rw [hfold]
  rfl

end

end Package
