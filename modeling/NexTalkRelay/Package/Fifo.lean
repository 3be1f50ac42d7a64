/-
  The queue module as a queue.

  * `hostCall` is a call of the host, which puts the data where `ntx_alloc` says and then
    calls the function, as `put` and `blob` of `verify-wasm.mjs` do; `play` makes one
    after the other;
  * `Fifo`: each poll returns the frames that were accepted since the last one, and no
    other call changes the queue;
  * `Safe` says when the data of a call lie apart from what they must not touch, and
    `fifo_of_safe` that a run of safe calls is lossless; `small_frame_safe` has the frames
    that always are, `queue_overwritten` a run with one that is not.
-/
import NexTalkRelay.Lib.Runs
import NexTalkRelay.Package.Exec

open Js LinearMemory

namespace Package

/-! ## The host -/

/-- Where `ntx_alloc` says. -/
def put (m : Module) (data : Bytes) (i : Instance) : Option (BitVec 32 × Instance) := do
  let (v, i) ← m.call (js "ntx_alloc") [BitVec.ofNat 32 data.length] i
  match v with
  | .i32 p =>
    if p.toNat + data.length ≤ m.memorySize then
      some (p, { i with memory := write i.memory p.toNat data })
    else none
  | .i64 _ => none

/-- A call of the host. -/
inductive HostCall where
  | init | start | stop | status
  | attach (mailbox secret : Bytes)
  | detach (mailbox : Bytes)
  | send (frame recipient : Bytes)
  | poll (limit : BitVec 32) (mailbox : Bytes) (count : BitVec 32)

/-- What a call hands back: a return code, or the bytes of a blob. -/
inductive Answer where
  | code (rc : BitVec 32)
  | blob (bytes : Bytes)
  deriving DecidableEq

/-- A return code. -/
def code : Value × Instance → Option (Answer × Instance)
  | (.i32 rc, i) => some (.code rc, i)
  | (.i64 _, _) => none

/-- The part of the memory that a word names. -/
def blob (m : Module) : Value × Instance → Option (Answer × Instance)
  | (.i64 packed, i) =>
    let p := packed.toNat / 4294967296
    let l := packed.toNat % 4294967296
    some (.blob (read i.memory p (min (p + l) m.memorySize - p)), i)
  | (.i32 _, _) => none

/-- How the host calls the module: the arguments are written first. -/
def hostCall (m : Module) : HostCall → Instance → Option (Answer × Instance)
  | .init, i => do
    let (p, i) ← put m [] i
    code (← m.call (js "ntx_init") [p, 0] i)
  | .start, i => do code (← m.call (js "ntx_start") [] i)
  | .stop, i => do code (← m.call (js "ntx_stop") [] i)
  | .status, i => do code (← m.call (js "ntx_status") [] i)
  | .attach mailbox secret, i => do
    let (p, i) ← put m mailbox i
    let (s, i) ← put m secret i
    code (← m.call (js "ntx_attach") [p, s, 0, 0, 0, 0] i)
  | .detach mailbox, i => do
    let (p, i) ← put m mailbox i
    code (← m.call (js "ntx_detach") [p] i)
  | .send frame recipient, i => do
    let (f, i) ← put m frame i
    let (p, i) ← put m recipient i
    code (← m.call (js "ntx_send")
      [f, BitVec.ofNat 32 frame.length, p, BitVec.ofNat 32 recipient.length] i)
  | .poll limit mailbox count, i => do
    let (p, i) ← put m mailbox i
    blob m (← m.call (js "ntx_poll") [limit, p, count] i)

/-- The lengths of the ABI. -/
def HostCall.Ok : HostCall → Prop
  | .attach mailbox secret => mailbox.length = 16 ∧ secret.length = 32
  | .detach mailbox => mailbox.length = 16
  | .send frame recipient =>
    1 ≤ frame.length ∧ frame.length ≤ 40 * 1024 ∧ recipient.length = 32
  | .poll _ mailbox _ => mailbox.length = 16
  | _ => True

/-- A call with its answer and what it leaves. -/
structure Turn where
  call : HostCall
  answer : Answer
  after : Instance

/-- Calls one after the other, as long as none fails. -/
def play (m : Module) : List HostCall → Instance → Option (List Turn)
  | [], _ => some []
  | call :: calls, i => do
    let (answer, after) ← hostCall m call i
    let turns ← play m calls after
    return ⟨call, answer, after⟩ :: turns

/-! ## A queue -/

/-- Frames with their lengths in front. -/
def framed (frames : List Bytes) : Bytes := frames.flatMap fun f => be32 f.length ++ f

/-- The global with a number. -/
def Instance.number (i : Instance) (k : ℕ) : ℕ := (i.globals[k]?.getD 0).toNat

/-- The bytes in the queue. -/
def Instance.queued (i : Instance) : Bytes := read i.memory 0x4000 (i.number 1)

/-- The frames that wait after a turn. -/
def Turn.left (waiting : List Bytes) (t : Turn) : List Bytes :=
  match t.call, t.answer with
  | .send frame _, .code rc => if rc = 0 then waiting ++ [frame] else waiting
  | .poll _ _ _, _ => []
  | _, _ => waiting

/-- What a poll returns. -/
def Turn.Returned (waiting : List Bytes) (t : Turn) : Prop :=
  match t.call, t.answer with
  | .poll _ _ _, .blob bytes => bytes = framed waiting
  | .poll _ _ _, .code _ => False
  | _, _ => True

/-- **A lossless queue.**  Polls return what was taken, and the other calls leave the
    queue as it is. -/
def Fifo : List Bytes → List Turn → Prop
  | _, [] => True
  | waiting, t :: turns =>
    t.Returned waiting ∧ t.after.queued = framed (t.left waiting) ∧ Fifo (t.left waiting) turns

/-! ## Safe calls -/

/-- Two pieces of memory with nothing in common. -/
def Apart (p n q k : ℕ) : Prop := n = 0 ∨ k = 0 ∨ p + n ≤ q ∨ q + k ≤ p

/-- `ntx_send` takes a frame of `n` bytes. -/
def Instance.Accepts (i : Instance) (n : ℕ) : Prop :=
  i.number 0 ≠ 0 ∧ i.number 1 + n + 4 ≤ 0x4000

/-- The frame lies apart from the recipient, if it is taken, and else from the queue. -/
def Safe (i : Instance) : HostCall → Prop
  | .send frame recipient =>
    let p := spot (i.number 2) frame.length
    let r := spot (bumped (i.number 2) frame.length) recipient.length
    (i.Accepts frame.length → Apart p frame.length r recipient.length) ∧
      (¬ i.Accepts frame.length → Apart p frame.length 0x4000 (i.number 1))
  | _ => True

/-- The state after a call. -/
def next (m : Module) (call : HostCall) (i : Instance) : Instance :=
  match hostCall m call i with
  | some (_, after) => after
  | none => i

/-! ### The allocator -/

/-- The numbers of a queue between two calls. -/
structure Numbers (r q b : ℕ) : Prop where
  running : r ≤ 1
  length : q ≤ 0x4000
  low : 0x1000 ≤ b
  high : b ≤ 0xb000
  aligned : 8 ∣ b

theorem spot_le {b n : ℕ} : spot b n ≤ 0x3f00 := by
  unfold spot
  split <;> omega

theorem le_spot {b n : ℕ} (hb : 0x1000 ≤ b) : 0x1000 ≤ spot b n := by
  unfold spot
  split <;> omega

theorem spot_add_le {b n : ℕ} (hn : n ≤ 0x2f00) : spot b n + n ≤ 0x3f00 := by
  unfold spot
  split <;> omega

theorem spot_end_le {b n : ℕ} (hn : n ≤ 40960) : spot b n + n ≤ 0xb000 := by
  unfold spot
  split <;> omega

variable {r q b : ℕ} {mem : Memory} (caps : Bytes) {data frame recipient : Bytes}

theorem Numbers.bumped (h : Numbers r q b) {n : ℕ} (hn : n ≤ 40960) :
    Numbers r q (bumped b n) := by
  have hle := spot_end_le (b := b) hn
  have hge := le_spot (n := n) h.low
  refine ⟨h.running, h.length, ?_, ?_, ?_⟩
  · unfold Package.bumped
    omega
  · unfold Package.bumped
    omega
  · exact Nat.dvd_mul_left 8 _

theorem put_eq (mem : Memory) (hb : b ≤ 0xb000) (hn : data.length ≤ 40960) :
    put (queueModule caps) data (inst r q b mem) =
      some (BitVec.ofNat 32 (spot b data.length),
        inst r q (bumped b data.length) (write mem (spot b data.length) data)) := by
  have hspot : (BitVec.ofNat 32 (spot b data.length)).toNat = spot b data.length := by
    have hle := spot_le (b := b) (n := data.length)
    rw [BitVec.toNat_ofNat]
    omega
  have hin : spot b data.length + data.length ≤ queueMemory := by
    have hle := spot_end_le (b := b) hn
    unfold queueMemory
    omega
  unfold put
  rw [call_alloc caps mem (by omega)]
  simp only [Option.bind_eq_bind, Option.bind_some, hspot, memorySize_queue, if_pos hin]
  rfl

/-! ### The queue -/

/-- A queue between two calls, with its bytes. -/
def Holds (i : Instance) (bytes : Bytes) : Prop :=
  ∃ r q b mem, i = inst r q b mem ∧ Numbers r q b ∧ read mem 0x4000 q = bytes

theorem number_inst (mem : Memory) (h : Numbers r q b) :
    (inst r q b mem).number 0 = r ∧ (inst r q b mem).number 1 = q ∧
      (inst r q b mem).number 2 = b := by
  have hr := h.running
  have hq := h.length
  have hb := h.high
  refine ⟨?_, ?_, ?_⟩
  · exact Nat.mod_eq_of_lt (by omega)
  · exact Nat.mod_eq_of_lt (by omega)
  · exact Nat.mod_eq_of_lt (by omega)

theorem Holds.queued {i : Instance} {bytes : Bytes} (h : Holds i bytes) : i.queued = bytes := by
  obtain ⟨r, q, b, mem, rfl, hnum, hbytes⟩ := h
  rw [← hbytes]
  unfold Instance.queued
  rw [(number_inst mem hnum).2.1]
  rfl

/-- Data that the allocator keeps below the queue. -/
theorem read_put_queue (hn : data.length ≤ 0x2f00) (k : ℕ) :
    read (write mem (spot b data.length) data) 0x4000 k = read mem 0x4000 k := by
  have hle := spot_add_le (b := b) hn
  exact read_write_disjoint (Or.inr (by omega))

theorem put_holds (data : Bytes) {i : Instance} {bytes : Bytes} (h : Holds i bytes)
    (hn : data.length ≤ 32) :
    ∃ p i', put (queueModule caps) data i = some (p, i') ∧ Holds i' bytes := by
  obtain ⟨r, q, b, mem, rfl, hnum, hbytes⟩ := h
  refine ⟨_, _, put_eq caps _ hnum.high (by omega), r, q, _, _, rfl, hnum.bumped (by omega), ?_⟩
  rw [read_put_queue (by omega), hbytes]

/-- The calls but `send` and `poll`. -/
def HostCall.Quiet : HostCall → Prop
  | .send _ _ | .poll _ _ _ => False
  | _ => True

theorem quiet_holds {call : HostCall} {i : Instance} {bytes : Bytes} (hquiet : call.Quiet)
    (hok : call.Ok) (h : Holds i bytes) :
    ∃ rc i', hostCall (queueModule caps) call i = some (.code rc, i') ∧ Holds i' bytes := by
  cases call with
  | send => exact hquiet.elim
  | poll => exact hquiet.elim
  | init =>
    obtain ⟨p, i', hput, h'⟩ := put_holds caps [] h (by simp)
    obtain ⟨r, q, b, mem, rfl, hnum⟩ := h'
    simp only [hostCall, hput, Option.bind_eq_bind, Option.bind_some, call_init, code]
    exact ⟨_, _, rfl, r, q, b, mem, rfl, hnum⟩
  | start =>
    obtain ⟨r, q, b, mem, rfl, hnum, hbytes⟩ := h
    simp only [hostCall, Option.bind_eq_bind, Option.bind_some, call_start, code]
    exact ⟨_, _, rfl, 1, q, b, mem, rfl, { hnum with running := Nat.le_refl 1 }, hbytes⟩
  | stop =>
    obtain ⟨r, q, b, mem, rfl, hnum, hbytes⟩ := h
    simp only [hostCall, Option.bind_eq_bind, Option.bind_some, call_stop, code]
    exact ⟨_, _, rfl, 0, q, b, mem, rfl, { hnum with running := Nat.zero_le 1 }, hbytes⟩
  | status =>
    obtain ⟨r, q, b, mem, rfl, hnum, hbytes⟩ := h
    simp only [hostCall, Option.bind_eq_bind, Option.bind_some, call_status, code]
    exact ⟨_, _, rfl, r, q, b, mem, rfl, hnum, hbytes⟩
  | attach mailbox secret =>
    obtain ⟨hmailbox, hsecret⟩ := hok
    obtain ⟨p, i₁, hput, h₁⟩ := put_holds caps mailbox h (by omega)
    obtain ⟨s, i₂, hput₂, h₂⟩ := put_holds caps secret h₁ (by omega)
    obtain ⟨r, q, b, mem, rfl, hnum⟩ := h₂
    simp only [hostCall, hput, hput₂, Option.bind_eq_bind, Option.bind_some, call_attach, code]
    exact ⟨_, _, rfl, r, q, b, mem, rfl, hnum⟩
  | detach mailbox =>
    have hmailbox : mailbox.length = 16 := hok
    obtain ⟨p, i', hput, h'⟩ := put_holds caps mailbox h (by omega)
    obtain ⟨r, q, b, mem, rfl, hnum⟩ := h'
    simp only [hostCall, hput, Option.bind_eq_bind, Option.bind_some, call_detach, code]
    exact ⟨_, _, rfl, r, q, b, mem, rfl, hnum⟩

theorem poll_holds {i : Instance} {bytes mailbox : Bytes} (limit count : BitVec 32)
    (hmailbox : mailbox.length = 16) (h : Holds i bytes) :
    ∃ i', hostCall (queueModule caps) (.poll limit mailbox count) i = some (.blob bytes, i') ∧
      Holds i' [] := by
  obtain ⟨p, i', hput, h'⟩ := put_holds caps mailbox h (by omega)
  obtain ⟨r, q, b, mem, rfl, hnum, hbytes⟩ := h'
  have hq := hnum.length
  have hargs : [limit, p, count] =
      [limit.toNat, p.toNat, count.toNat].map (BitVec.ofNat 32) := by
    simp
  have hword : (BitVec.ofNat 64 (0x8000 * 4294967296 + q)).toNat = 0x8000 * 4294967296 + q := by
    rw [BitVec.toNat_ofNat]
    omega
  have haddress : (0x8000 * 4294967296 + q) / 4294967296 = 0x8000 := by omega
  have hlength : (0x8000 * 4294967296 + q) % 4294967296 = q := by omega
  have hwhole : min (0x8000 + q) queueMemory - 0x8000 = (read mem 0x4000 q).length := by
    rw [length_read]
    unfold queueMemory
    omega
  refine ⟨inst r 0 b (write mem 0x8000 (read mem 0x4000 q)), ?_, r, 0, b, _, rfl,
    { hnum with length := Nat.zero_le _ }, rfl⟩
  simp only [hostCall, hput, hargs, Option.bind_eq_bind, Option.bind_some, call_poll mem caps hq,
    blob, memorySize_queue, hword, haddress, hlength, hwhole]
  rw [← hbytes]
  exact congrArg some (congrArg (·, _) (congrArg Answer.blob (read_write mem 0x8000 _)))

/-! ### Sending -/

/-- The memory after the frame and the recipient are put. -/
def placed (b : ℕ) (frame recipient : Bytes) (mem : Memory) : Memory :=
  write (write mem (spot b frame.length) frame)
    (spot (bumped b frame.length) recipient.length) recipient

/-- The bump pointer afterwards. -/
def bumpedTwice (b : ℕ) (frame recipient : Bytes) : ℕ :=
  bumped (bumped b frame.length) recipient.length

theorem send_eq (hnum : Numbers r q b) (hframe : frame.length ≤ 40960)
    (hrecipient : recipient.length = 32) :
    hostCall (queueModule caps) (.send frame recipient) (inst r q b mem) =
      ((queueModule caps).call (js "ntx_send")
        ([spot b frame.length, frame.length, spot (bumped b frame.length) recipient.length,
          recipient.length].map (BitVec.ofNat 32))
        (inst r q (bumpedTwice b frame recipient) (placed b frame recipient mem))).bind code := by
  have hrec : recipient.length ≤ 40960 := by omega
  have hput := put_eq caps (r := r) (q := q) mem hnum.high hframe
  have hput' := put_eq caps (r := r) (q := q) (write mem (spot b frame.length) frame)
    (hnum.bumped hframe).high hrec
  simp only [hostCall, hput, hput', Option.bind_eq_bind, Option.bind_some]
  rfl

theorem read_placed_queue (hapart : Apart (spot b frame.length) frame.length 0x4000 q)
    (hrecipient : recipient.length = 32) :
    read (placed b frame recipient mem) 0x4000 q = read mem 0x4000 q := by
  unfold placed
  rw [read_put_queue (by omega)]
  rcases hapart with hzero | hzero | hbelow | habove
  · exact read_write_disjoint (Or.inr (by have := spot_le (b := b) (n := frame.length); omega))
  · rw [hzero, read_zero, read_zero]
  · exact read_write_disjoint (Or.inr hbelow)
  · exact read_write_disjoint (Or.inl habove)

theorem read_placed_frame (hapart : Apart (spot b frame.length) frame.length
    (spot (bumped b frame.length) recipient.length) recipient.length)
    (hrecipient : recipient.length = 32) :
    read (placed b frame recipient mem) (spot b frame.length) frame.length = frame := by
  unfold placed
  rcases hapart with hzero | hzero | hbelow | habove
  · rw [List.eq_nil_of_length_eq_zero hzero]
    rfl
  · omega
  · rw [read_write_disjoint (Or.inl hbelow), read_write]
  · rw [read_write_disjoint (Or.inr habove), read_write]

theorem read_enqueued {p n : ℕ} (hp : p + n ≤ 0x4000) :
    read (enqueued q p n mem) 0x4000 (q + n + 4) =
      read mem 0x4000 q ++ (be32 n ++ read mem p n) := by
  have hframe : read (write mem (0x4000 + q) (be32 n)) p n = read mem p n :=
    read_write_disjoint (Or.inl (by omega))
  have hlen : (be32 n ++ read mem p n).length = n + 4 := by simp; omega
  unfold enqueued
  dsimp only
  rw [hframe, ← length_be32 n, write_write, length_be32, Nat.add_assoc, ← hlen]
  exact read_write_end mem 0x4000 q _

theorem send_stopped_holds {bytes : Bytes} (h : Numbers 0 q b)
    (hbytes : read mem 0x4000 q = bytes) (hframe : frame.length ≤ 40960)
    (hrecipient : recipient.length = 32)
    (hapart : Apart (spot b frame.length) frame.length 0x4000 q) :
    ∃ i', hostCall (queueModule caps) (.send frame recipient) (inst 0 q b mem) =
      some (.code 1, i') ∧ Holds i' bytes := by
  refine ⟨_, ?_, 0, q, _, _, rfl, (h.bumped hframe).bumped (n := recipient.length) (by omega),
    (read_placed_queue hapart hrecipient).trans hbytes⟩
  rw [send_eq caps h hframe hrecipient, call_send_stopped]
  rfl

theorem send_full_holds {bytes : Bytes} (h : Numbers 1 q b)
    (hbytes : read mem 0x4000 q = bytes) (hframe : frame.length ≤ 40960)
    (hrecipient : recipient.length = 32) (hfull : 0x4000 < q + frame.length + 4)
    (hapart : Apart (spot b frame.length) frame.length 0x4000 q) :
    ∃ i', hostCall (queueModule caps) (.send frame recipient) (inst 1 q b mem) =
      some (.code 3, i') ∧ Holds i' bytes := by
  refine ⟨_, ?_, 1, q, _, _, rfl, (h.bumped hframe).bumped (n := recipient.length) (by omega),
    (read_placed_queue hapart hrecipient).trans hbytes⟩
  rw [send_eq caps h hframe hrecipient, call_send_full _ _ h.length (by omega) hfull]
  rfl

/-- A frame apart from the recipient ends below the queue: else it would start where the
    recipient does. -/
theorem frame_below {n : ℕ} (hb : 0x1000 ≤ b)
    (hapart : Apart (spot b n) n (spot (bumped b n) 32) 32) (hn : n ≤ 0x4000) :
    spot b n + n ≤ 0x4000 := by
  have hle := spot_le (b := bumped b n) (n := 32)
  have hge := le_spot (n := n) hb
  rcases hapart with hzero | hzero | hbelow | habove
  · have hle' := spot_le (b := b) (n := n)
    omega
  · omega
  · omega
  · unfold spot bumped at *
    split at habove <;> split at habove <;> split <;> omega

theorem send_accepted_holds {bytes : Bytes} (h : Numbers 1 q b)
    (hbytes : read mem 0x4000 q = bytes) (hrecipient : recipient.length = 32)
    (hroom : q + frame.length + 4 ≤ 0x4000)
    (hapart : Apart (spot b frame.length) frame.length
      (spot (bumped b frame.length) recipient.length) recipient.length) :
    ∃ i', hostCall (queueModule caps) (.send frame recipient) (inst 1 q b mem) =
      some (.code 0, i') ∧ Holds i' (bytes ++ (be32 frame.length ++ frame)) := by
  have hbelow : spot b frame.length + frame.length ≤ 0x4000 := by
    rw [hrecipient] at hapart
    exact frame_below h.low hapart (by omega)
  have hin : spot b frame.length + frame.length ≤ queueMemory := by
    unfold queueMemory
    omega
  have hqueue : Apart (spot b frame.length) frame.length 0x4000 q := Or.inr (Or.inr (Or.inl hbelow))
  have hnum := (h.bumped (n := frame.length) (by omega)).bumped (n := recipient.length) (by omega)
  refine ⟨_, ?_, 1, q + frame.length + 4, _, enqueued q (spot b frame.length) frame.length
    (placed b frame recipient mem), rfl, { hnum with length := hroom }, ?_⟩
  · rw [send_eq caps h (by omega) hrecipient, call_send_accepted _ _ hroom hin]
    rfl
  · rw [read_enqueued hbelow, read_placed_queue hqueue hrecipient,
      read_placed_frame hapart hrecipient, hbytes]

/-! ## Runs -/

theorem framed_append (waiting : List Bytes) (frame : Bytes) :
    framed (waiting ++ [frame]) = framed waiting ++ (be32 frame.length ++ frame) := by
  simp [framed]

/-- A safe call is answered, as the queue must. -/
theorem safe_call {i : Instance} {call : HostCall} {waiting : List Bytes} (hok : call.Ok)
    (hsafe : Safe i call) (h : Holds i (framed waiting)) :
    ∃ answer after, hostCall (queueModule caps) call i = some (answer, after) ∧
      Turn.Returned waiting ⟨call, answer, after⟩ ∧
      Holds after (framed (Turn.left waiting ⟨call, answer, after⟩)) := by
  by_cases hquiet : call.Quiet
  · obtain ⟨rc, i', hcall, h'⟩ := quiet_holds caps hquiet hok h
    refine ⟨_, _, hcall, ?_, ?_⟩
    · cases call with
      | poll => exact hquiet.elim
      | _ => trivial
    · cases call with
      | send => exact hquiet.elim
      | poll => exact hquiet.elim
      | _ => exact h'
  cases call with
  | poll limit mailbox count =>
    obtain ⟨i', hcall, h'⟩ := poll_holds caps limit count hok h
    exact ⟨_, _, hcall, rfl, h'⟩
  | send frame recipient =>
    obtain ⟨_, hframe, hrecipient⟩ := hok
    obtain ⟨r, q, b, mem, rfl, hnum, hbytes⟩ := h
    obtain ⟨hr, hq, hb⟩ := number_inst mem hnum
    simp only [Safe, Instance.Accepts, hr, hq, hb] at hsafe
    obtain rfl | rfl : r = 0 ∨ r = 1 := by have := hnum.running; omega
    · have hapart := hsafe.2 fun h => h.1 rfl
      obtain ⟨i', hcall, h'⟩ := send_stopped_holds caps hnum hbytes hframe hrecipient hapart
      exact ⟨_, _, hcall, trivial, h'⟩
    by_cases hfull : 0x4000 < q + frame.length + 4
    · have hapart := hsafe.2 fun h => by omega
      obtain ⟨i', hcall, h'⟩ :=
        send_full_holds caps hnum hbytes hframe hrecipient hfull hapart
      exact ⟨_, _, hcall, trivial, h'⟩
    · have hapart := hsafe.1 ⟨Nat.one_ne_zero, by omega⟩
      obtain ⟨i', hcall, h'⟩ :=
        send_accepted_holds caps hnum hbytes hrecipient (by omega) hapart
      rw [← framed_append] at h'
      exact ⟨_, _, hcall, trivial, h'⟩
  | _ => exact (hquiet trivial).elim

theorem next_eq {m : Module} {call : HostCall} {i after : Instance} {answer : Answer}
    (h : hostCall m call i = some (answer, after)) : next m call i = after := by
  simp [next, h]

theorem play_cons {m : Module} {call : HostCall} {calls : List HostCall} {i after : Instance}
    {answer : Answer} {turns : List Turn} (hcall : hostCall m call i = some (answer, after))
    (hplay : play m calls after = some turns) :
    play m (call :: calls) i = some (⟨call, answer, after⟩ :: turns) := by
  simp [play, hcall, hplay]

/-- Safe calls from any queue. -/
theorem play_safe {calls : List HostCall} {i : Instance} {waiting : List Bytes}
    (hok : ∀ call ∈ calls, call.Ok) (hsafe : Runs.Always (next (queueModule caps)) Safe i calls)
    (h : Holds i (framed waiting)) :
    ∃ turns, play (queueModule caps) calls i = some turns ∧ Fifo waiting turns := by
  induction calls generalizing i waiting with
  | nil => exact ⟨[], rfl, trivial⟩
  | cons call calls ih =>
    obtain ⟨hhead, htail⟩ := hsafe
    obtain ⟨answer, after, hcall, hreturned, h'⟩ :=
      safe_call caps (hok call List.mem_cons_self) hhead h
    rw [next_eq hcall] at htail
    obtain ⟨turns, hplay, hfifo⟩ :=
      ih (fun call' hmem => hok call' (List.mem_cons_of_mem _ hmem)) htail h'
    exact ⟨_, play_cons hcall hplay, hreturned, h'.queued, hfifo⟩

theorem holds_initial (caps : Bytes) :
    Holds (inst 0 0 0x1000 (write (fun _ => 0) 0x100 caps)) (framed []) :=
  ⟨0, 0, 0x1000, _, rfl, ⟨by omega, by omega, by omega, by omega, ⟨512, rfl⟩⟩, rfl⟩

/-- **Small frames.**  A frame of at most 11,976 bytes is apart from everything. -/
theorem small_frame_safe {i : Instance} {bytes : Bytes} {call : HostCall} (h : Holds i bytes)
    (hok : call.Ok)
    (hsmall : ∀ frame recipient, call = .send frame recipient → frame.length ≤ 11976) :
    Safe i call := by
  cases call with
  | send frame recipient =>
    obtain ⟨r, q, b, mem, rfl, hnum, _⟩ := h
    obtain ⟨hr, hq, hb⟩ := number_inst mem hnum
    have hlen := hsmall frame recipient rfl
    have haligned := hnum.aligned
    have hlow := hnum.low
    simp only [Safe, Instance.Accepts, hr, hq, hb, hok.2.2]
    refine ⟨fun _ => ?_, fun _ => Or.inr (Or.inr (Or.inl ?_))⟩
    · unfold Apart spot bumped spot
      split <;> split <;> omega
    · have := spot_add_le (b := b) (n := frame.length) (by omega)
      omega
  | _ => trivial

theorem small_frames_safe {calls : List HostCall} {i : Instance} {waiting : List Bytes}
    (hok : ∀ call ∈ calls, call.Ok)
    (hsmall : ∀ frame recipient, .send frame recipient ∈ calls → frame.length ≤ 11976)
    (h : Holds i (framed waiting)) : Runs.Always (next (queueModule caps)) Safe i calls := by
  have hall : ∀ call ∈ calls, call.Ok ∧
      ∀ frame recipient, call = .send frame recipient → frame.length ≤ 11976 := by
    intro call hcall
    refine ⟨hok call hcall, fun frame recipient heq => ?_⟩
    exact hsmall frame recipient (heq ▸ hcall)
  refine Runs.Always.imp (I := fun i => ∃ waiting, Holds i (framed waiting)) ?_ ?_ ⟨waiting, h⟩
    (Runs.always_of_forall hall)
  · rintro i call ⟨waiting, h⟩ ⟨hok, hsmall⟩
    obtain ⟨answer, after, hcall, _, h'⟩ :=
      safe_call caps hok (small_frame_safe h hok hsmall) h
    rw [next_eq hcall]
    exact ⟨_, h'⟩
  · rintro i call ⟨waiting, h⟩ ⟨hok, hsmall⟩
    exact small_frame_safe h hok hsmall

/-- **The queue module.**  From the bytes of the module on, calls that are safe are all
    answered, and the queue is lossless. -/
theorem fifo_of_safe {capsCsv : JString} {bytes : Bytes} {m : Module} {i : Instance}
    (hbuild : buildQueueModule capsCsv = some bytes) (hparse : parseModule bytes = some m)
    (hstart : m.instantiate = some i) {calls : List HostCall} (hok : ∀ call ∈ calls, call.Ok)
    (hsafe : Runs.Always (next m) Safe i calls) :
    ∃ turns, play m calls i = some turns ∧ Fifo [] turns := by
  obtain rfl := Option.some.inj (hparse.symm.trans (parseModule_build hbuild))
  obtain rfl := Option.some.inj (hstart.symm.trans (instantiate_queue _ (caps_short hbuild)))
  exact play_safe _ hok hsafe (holds_initial _)

/-- Two frames and two polls. -/
def loopbackCalls : List HostCall :=
  [.start, .send [3, 1, 2, 3] (List.replicate 32 7), .send [1, 9] (List.replicate 32 7),
    .poll 32 (List.replicate 16 1) 1, .poll 32 (List.replicate 16 1) 1]

theorem message_module : ∃ bytes, buildQueueModule (js "message") = some bytes := by
  unfold buildQueueModule
  dsimp only
  rw [if_neg (show ¬ 32 < (encode (js "message")).length by decide)]
  exact ⟨_, rfl⟩

theorem loopback_fifo : ∃ bytes m i, buildQueueModule (js "message") = some bytes ∧
    parseModule bytes = some m ∧ m.instantiate = some i ∧
      ∃ turns, play m loopbackCalls i = some turns ∧ Fifo [] turns := by
  obtain ⟨bytes, hbuild⟩ := message_module
  have hok : ∀ call ∈ loopbackCalls, call.Ok := by
    simp [loopbackCalls, HostCall.Ok]
  have hsmall : ∀ frame recipient, .send frame recipient ∈ loopbackCalls →
      frame.length ≤ 11976 := by
    simp [loopbackCalls]
    rintro frame recipient (⟨rfl, _⟩ | ⟨rfl, _⟩) <;> simp
  have hstart := instantiate_queue _ (caps_short hbuild)
  exact ⟨bytes, _, _, hbuild, parseModule_build hbuild, hstart,
    fifo_of_safe hbuild (parseModule_build hbuild) hstart hok
      (small_frames_safe _ hok hsmall (holds_initial _))⟩

/-! ### A frame over the queue -/

/-- A frame of one byte, then one of many zeros, and a poll. -/
def overwritingCalls (n : ℕ) : List HostCall :=
  [.start, .send [1] (List.replicate 32 7), .send (List.replicate n 0) (List.replicate 32 7),
    .poll 32 (List.replicate 16 1) 1]

theorem overwritingCalls_ok {n : ℕ} (hlow : 1 ≤ n) (hhigh : n ≤ 40960) :
    ∀ call ∈ overwritingCalls n, call.Ok := by
  simp [overwritingCalls, HostCall.Ok]
  omega

theorem read_placed_zeros {n : ℕ} (hspot : spot b n = 0x1000) (hn : 0x3005 ≤ n)
    (hrecipient : recipient.length = 32) :
    read (placed b (List.replicate n 0) recipient mem) 0x4000 5 = [0, 0, 0, 0, 0] := by
  have hin := read_write_inside (m := mem) (p := 0x1000) (x := List.replicate n 0) (i := 0x3000)
    (n := 5) (by rw [List.length_replicate]; omega)
  unfold placed
  rw [read_put_queue (by omega), List.length_replicate, hspot, hin, List.drop_replicate,
    List.take_replicate, Nat.min_eq_left (by omega)]
  rfl

/-- A frame of zeros that reaches over a queue without room for it. -/
theorem send_zeros (mem : Memory) {n : ℕ} (hnum : Numbers 1 5 b) (hlow : 0x4000 ≤ n)
    (hhigh : n ≤ 40960)
    (hrecipient : recipient.length = 32) :
    ∃ i', hostCall (queueModule caps) (.send (List.replicate n 0) recipient) (inst 1 5 b mem) =
      some (.code 3, i') ∧ Holds i' [0, 0, 0, 0, 0] := by
  have hlen : (List.replicate n (0 : UInt8)).length = n := List.length_replicate
  have hspot : spot b n = 0x1000 := if_pos (by have := hnum.low; omega)
  refine ⟨_, ?_, 1, 5, _, placed b (List.replicate n 0) recipient mem, rfl,
    (hnum.bumped (n := (List.replicate n (0 : UInt8)).length) (by omega)).bumped
      (n := recipient.length) (by omega),
    read_placed_zeros hspot (by omega) hrecipient⟩
  rw [send_eq caps hnum (by omega) hrecipient, call_send_full _ _ hnum.length (by omega) (by omega)]
  rfl

theorem play_zeros (mem : Memory) {n : ℕ} (hlow : 0x4000 ≤ n) (hhigh : n ≤ 40960) :
    ∃ turns, play (queueModule caps) (overwritingCalls n) (inst 0 0 0x1000 mem) = some turns ∧
      turns.map Turn.answer = [.code 0, .code 0, .code 3, .blob [0, 0, 0, 0, 0]] ∧
      ¬ Fifo [] turns := by
  let recipient : Bytes := List.replicate 32 7
  let mailbox : Bytes := List.replicate 16 1
  have hrecipient : recipient.length = 32 := rfl
  have hmailbox : mailbox.length = 16 := rfl
  have hnum : Numbers 1 0 0x1000 := ⟨by omega, by omega, by omega, by omega, ⟨512, rfl⟩⟩
  have hnum₂ : Numbers 1 5 (bumpedTwice 0x1000 [1] recipient) :=
    { (hnum.bumped (n := 1) (by omega)).bumped (n := recipient.length) (by omega) with
      length := by omega }
  have hstart : hostCall (queueModule caps) .start (inst 0 0 0x1000 mem) =
      some (.code 0, inst 1 0 0x1000 mem) := by
    simp only [hostCall, call_start, Option.bind_eq_bind, Option.bind_some, code]
  have hone : hostCall (queueModule caps) (.send [1] recipient) (inst 1 0 0x1000 mem) =
      some (.code 0, inst 1 5 (bumpedTwice 0x1000 [1] recipient)
        (enqueued 0 (spot 0x1000 1) 1 (placed 0x1000 [1] recipient mem))) := by
    rw [send_eq caps hnum (by simp) hrecipient, call_send_accepted _ _ (by simp) (by decide)]
    rfl
  obtain ⟨i₃, hzeros, h₃⟩ := send_zeros caps
    (enqueued 0 (spot 0x1000 1) 1 (placed 0x1000 [1] recipient mem)) hnum₂ hlow hhigh
    hrecipient
  obtain ⟨i₄, hpoll, _⟩ := poll_holds caps 32 1 hmailbox h₃
  refine ⟨_, play_cons hstart (play_cons hone (play_cons hzeros (play_cons hpoll rfl))), rfl, ?_⟩
  rintro ⟨_, _, _, _, _, hqueued, _⟩
  rw [h₃.queued] at hqueued
  exact absurd (hqueued.trans (show _ = [0, 0, 0, 1, 1] from rfl)) (by decide)

/-- **Overwritten.**  The frame of 40 KiB is refused, but it was put over the queue, and
    the poll returns its bytes instead of the accepted frame. -/
theorem queue_overwritten : (∀ call ∈ overwritingCalls (40 * 1024), call.Ok) ∧
    ∃ bytes m i turns, buildQueueModule (js "message") = some bytes ∧
      parseModule bytes = some m ∧ m.instantiate = some i ∧
      play m (overwritingCalls (40 * 1024)) i = some turns ∧
      turns.map Turn.answer = [.code 0, .code 0, .code 3, .blob [0, 0, 0, 0, 0]] ∧
      ¬ Fifo [] turns := by
  obtain ⟨bytes, hbuild⟩ := message_module
  obtain ⟨turns, hplay, hanswers, hfifo⟩ := play_zeros (encode (js "message"))
    (write (fun _ => 0) 0x100 (encode (js "message"))) (n := 40 * 1024) (by omega) (by omega)
  exact ⟨overwritingCalls_ok (by omega) (by omega), bytes, _, _, turns, hbuild,
    parseModule_build hbuild, instantiate_queue _ (caps_short hbuild), hplay, hanswers, hfifo⟩

end Package
