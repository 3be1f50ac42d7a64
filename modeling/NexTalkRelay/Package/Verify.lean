/-
  The conformance check.

  * `verifyWasm` is the function of `verify-wasm.mjs`: it loads a module, calls its functions
    and collects what fails; `none` is an exception;
  * `frames` splits what a poll returns, and `frames_framed` gives the frames of a queue
    back;
  * `verify_build`: of a module that the assembler has built, nothing can fail but what is
    said about its capabilities;
  * `polled_in_order`: over a run of calls the host gets the frames in the order of the
    sends.
-/
import NexTalkRelay.Js.Number
import NexTalkRelay.Package.Fifo
import NexTalkRelay.Package.Validate

open Js LinearMemory

namespace Package

/-! ## Failures -/

/-- A check that collects messages. -/
abbrev Checks (α : Type) := StateT (List JString) Option α

/-- Note the message unless the condition holds. -/
def ok (c : Bool) (message : JString) : Checks Unit :=
  fun fails => some ((), if c then fails else fails ++ [message])

/-- A call of the module, whose exception ends the check. -/
def attempt {α : Type} (o : Option α) : Checks α := fun fails => o.map fun a => (a, fails)

section

variable {α β : Type} {fails : List JString}

@[simp] theorem run_ok_true (message : JString) : (ok true message).run fails = some ((), fails) :=
  rfl

@[simp] theorem run_ok (c : Bool) (message : JString) :
    (ok c message).run fails = some ((), if c then fails else fails ++ [message]) := rfl

@[simp] theorem run_attempt (a : α) : (attempt (some a)).run fails = some (a, fails) := rfl

end

/-! ## `frames` -/

/-- `MAX_FRAME` -/
def maxFrame : ℕ := 40 * 1024

/-- The number of four bytes, the highest first. -/
def beValue (w x y z : UInt8) : ℕ :=
  w.toNat * 16777216 + x.toNat * 65536 + y.toNat * 256 + z.toNat

/-- The loop of `frames`; a frame takes more than one byte, so that the fuel need not exceed
    the length. -/
def framesLoop : ℕ → Bytes → Checks (List Bytes)
  | _, [] => return []
  | fuel + 1, w :: x :: y :: z :: b =>
    let n := beValue w x y z
    if 0 < n ∧ n ≤ maxFrame ∧ n ≤ b.length then do
      let rest ← framesLoop fuel (b.drop n)
      return b.take n :: rest
    else do
      ok false (js "poll frame out of bounds")
      return []
  | _, _ => do
    ok false (js "poll blob truncated")
    return []

/-- `frames`. -/
def frames (b : Bytes) : Checks (List Bytes) := framesLoop b.length b

theorem be32_eq {n : ℕ} (hn : n < 4294967296) :
    ∃ w x y z, be32 n = [w, x, y, z] ∧ beValue w x y z = n := by
  refine ⟨_, _, _, _, rfl, ?_⟩
  simp only [beValue, UInt8.toNat_ofNat', Nat.shiftRight_eq_div_pow]
  omega

theorem length_framed_cons (f : Bytes) (fs : List Bytes) :
    (framed (f :: fs)).length = f.length + 4 + (framed fs).length := by
  simp [framed]
  omega

/-- A frame of a size that a host takes. -/
def InBounds (f : Bytes) : Prop := 0 < f.length ∧ f.length ≤ maxFrame

theorem framesLoop_framed {fs : List Bytes} (h : ∀ f ∈ fs, InBounds f) (fails : List JString)
    (fuel : ℕ) (hfuel : fs.length ≤ fuel) :
    (framesLoop fuel (framed fs)).run fails = some (fs, fails) := by
  induction fs generalizing fuel with
  | nil => cases fuel <;> rfl
  | cons f fs ih =>
    obtain ⟨hpos, hle⟩ := h f List.mem_cons_self
    have hrest := ih fun g hg => h g (List.mem_cons_of_mem _ hg)
    cases fuel with
    | zero => cases hfuel
    | succ fuel =>
      have hlt : f.length < 4294967296 := by
        unfold maxFrame at hle
        omega
      obtain ⟨w, x, y, z, hbe, hvalue⟩ := be32_eq hlt
      have hbytes : framed (f :: fs) = w :: x :: y :: z :: (f ++ framed fs) := by
        show (be32 f.length ++ f) ++ framed fs = _
        rw [hbe]
        simp
      rw [hbytes]
      unfold framesLoop
      dsimp only
      rw [hvalue, if_pos ⟨hpos, hle, by simp⟩, List.drop_left, List.take_left, StateT.run_bind,
        hrest fuel (Nat.le_of_succ_le_succ hfuel)]
      rfl

/-- **A queue comes back as its frames.** -/
theorem frames_framed {fs : List Bytes} (h : ∀ f ∈ fs, InBounds f) (fails : List JString) :
    (frames (framed fs)).run fails = some (fs, fails) := by
  refine framesLoop_framed h fails _ ?_
  clear h
  induction fs with
  | nil => simp
  | cons f fs ih =>
    rw [length_framed_cons, List.length_cons]
    omega

/-! ## `verifyWasm` -/

/-- `KNOWN_CAPABILITIES`. -/
def knownCapabilities : List JString :=
  [js "message", js "binary-transfer", js "presence", js "local-network", js "p2p"]

/-- The exports that a transport must have. -/
def requiredExports : List JString :=
  [js "memory", js "ntx_init", js "ntx_caps", js "ntx_start", js "ntx_stop", js "ntx_send",
    js "ntx_attach", js "ntx_detach", js "ntx_poll", js "ntx_status"]

/-- `v === n` -/
def Value.isNumber (v : Value) (n : ℕ) : Bool :=
  match v with
  | .i32 rc => rc == BitVec.ofNat 32 n
  | .i64 _ => false

@[simp] theorem isNumber_ofNat (n : ℕ) : (Value.i32 (BitVec.ofNat 32 n)).isNumber n = true := by
  simp [Value.isNumber]

@[simp] theorem isNumber_zero : (Value.i32 0).isNumber 0 = true := isNumber_ofNat 0

@[simp] theorem isNumber_one : (Value.i32 1).isNumber 1 = true := isNumber_ofNat 1

/-- The text of a value in a template. -/
def Value.text : Value → JString
  | .i32 v => (Number.ofInt v.toInt).text
  | .i64 v => (Number.ofInt v.toInt).text

/-- The function `blob`. -/
def blobOf (m : Module) (r : Value × Instance) : Option (Bytes × Instance) :=
  match blob m r with
  | some (.blob bytes, i) => some (bytes, i)
  | _ => none

/-- The capabilities in the text of a module. -/
def capsOf (text : JString) : List JString :=
  ((text.splitOn 44).map trim).filter fun s => !s.isEmpty

/-- A capability is known, and the manifest declares it. -/
def checkCap (manifestCaps : Option (List JString)) (c : JString) : Checks Unit := do
  ok (knownCapabilities.contains c) (js "unknown capability " ++ c)
  match manifestCaps with
  | some declared =>
    ok (declared.contains c) (js "module claims \"" ++ c ++
      js "\" which the manifest does not declare (the host refuses this)")
  | none => return ()

/-- All of them. -/
def checkCaps (manifestCaps : Option (List JString)) : List JString → Checks Unit
  | [] => return ()
  | c :: caps => do
    checkCap manifestCaps c
    checkCaps manifestCaps caps

/-- The frame that the check sends. -/
def conformanceFrame : Bytes := 3 :: encode (js "conformance")

/-- The public key that it sends to. -/
def conformancePub : Bytes := List.replicate 32 7

/-- The mailbox that it attaches. -/
def conformanceMailbox : Bytes := List.replicate 16 1

/-- The read secret of this mailbox. -/
def conformanceSecret : Bytes := List.replicate 32 2

/-- `ntx_send` of a frame and a recipient that are put first. -/
def transmit (m : Module) (frame recipient : Bytes) (i : Instance) : Option (Value × Instance) := do
  let (f, i) ← put m frame i
  let (p, i) ← put m recipient i
  m.call (js "ntx_send")
    [f, BitVec.ofNat 32 frame.length, p, BitVec.ofNat 32 recipient.length] i

/-- A poll of the module. -/
def pollAt (m : Module) (mailbox : BitVec 32) (i : Instance) : Option (Bytes × Instance) := do
  blobOf m (← m.call (js "ntx_poll") [10, mailbox, 1] i)

/-- The calls before `ntx_start`. -/
def checkIdle (m : Module) (manifestCaps : Option (List JString)) (i : Instance) :
    Checks Instance := do
  let (p, i) ← attempt (put m [] i)
  let (rc, i) ← attempt (m.call (js "ntx_init") [p, 0] i)
  ok (rc.isNumber 0) (js "ntx_init must return 0")
  let (bytes, i) ← attempt (m.call (js "ntx_caps") [] i >>= blobOf m)
  let caps := capsOf (decode bytes)
  ok (!caps.isEmpty) (js "ntx_caps is empty")
  checkCaps manifestCaps caps
  let (rc, i) ← attempt (m.call (js "ntx_status") [] i)
  ok (rc.isNumber 0) (js "status must be 0 before start")
  let (rc, i) ← attempt (transmit m conformanceFrame conformancePub i)
  ok (rc.isNumber 1) (js "send before start must return 1")
  return i

/-- `ntx_start` and what follows up to the frame. -/
def checkStart (m : Module) (i : Instance) : Checks Instance := do
  let (rc, i) ← attempt (m.call (js "ntx_start") [] i)
  ok (rc.isNumber 0) (js "ntx_start must return 0")
  let (rc, i) ← attempt (m.call (js "ntx_status") [] i)
  ok (rc.isNumber 1) (js "status must be 1 after start")
  let (mb, i) ← attempt (put m conformanceMailbox i)
  let (s, i) ← attempt (put m conformanceSecret i)
  let (rc, i) ← attempt (m.call (js "ntx_attach") [mb, s, 0, 0, 0, 0] i)
  ok (rc.isNumber 0) (js "attach must return 0")
  let (rc, i) ← attempt (transmit m conformanceFrame conformancePub i)
  ok (rc.isNumber 0 || rc.isNumber 3)
    (js "send returned " ++ rc.text ++ js " (want 0 or 3)")
  return i

/-- The polls. -/
def checkPoll (m : Module) (loopback : Bool) (i : Instance) : Checks Instance := do
  let (mb, i) ← attempt (put m conformanceMailbox i)
  let (bytes, i) ← attempt (pollAt m mb i)
  let got ← frames bytes
  if loopback then do
    ok (got == [conformanceFrame]) (js "loopback poll returned " ++ digits got.length ++
      js " frame(s), want the one sent")
    let (bytes, i) ← attempt (pollAt m mb i)
    let rest ← frames bytes
    ok rest.isEmpty (js "poll must drain")
    return i
  else return i

/-- The calls at the end. -/
def checkStop (m : Module) (i : Instance) : Checks Unit := do
  let (mb, i) ← attempt (put m conformanceMailbox i)
  let (rc, i) ← attempt (m.call (js "ntx_detach") [mb] i)
  ok (rc.isNumber 0) (js "detach must return 0")
  let (rc, i) ← attempt (m.call (js "ntx_stop") [] i)
  ok (rc.isNumber 0) (js "ntx_stop must return 0")
  let (rc, _) ← attempt (m.call (js "ntx_status") [] i)
  ok (rc.isNumber 0) (js "status must be 0 after stop")

/-- The conformance check, step after step. -/
def conformance (m : Module) (manifestCaps : Option (List JString)) (loopback : Bool)
    (i : Instance) : Checks Unit := do
  let i ← checkIdle m manifestCaps i
  let i ← checkStart m i
  let i ← checkPoll m loopback i
  checkStop m i

/-- Nothing is imported by what `parseModule` reads. -/
def verifyWasm (bytes : Bytes) (manifestCaps : Option (List JString)) (loopback : Bool) :
    Option (List JString) :=
  match (parseModule bytes).filter Module.validate with
  | none => some [js "module does not validate"]
  | some m =>
    let fails := (requiredExports.filter fun n => !m.exports.any fun e => e.1 == encode n).map
      fun n => js "missing export " ++ n
    if fails ≠ [] then some fails
    else do
      let i ← m.instantiate
      let r ← (conformance m manifestCaps loopback i).run []
      return r.2

/-! ## The queue module -/

/-- A queue that runs or does not, with its bytes. -/
def Held (r : ℕ) (i : Instance) (bytes : Bytes) : Prop :=
  ∃ q b mem, i = inst r q b mem ∧ Numbers r q b ∧ read mem 0x4000 q = bytes

section

variable (caps : Bytes) {r : ℕ} {i : Instance} {bytes : Bytes}

theorem put_held (data : Bytes) (h : Held r i bytes) (hn : data.length ≤ 32) :
    ∃ p i', put (queueModule caps) data i = some (p, i') ∧ Held r i' bytes := by
  obtain ⟨q, b, mem, rfl, hnum, hbytes⟩ := h
  refine ⟨_, _, put_eq caps _ hnum.high (by omega), q, _, _, rfl, hnum.bumped (by omega), ?_⟩
  rw [read_put_queue (by omega), hbytes]

theorem start_held (h : Held r i bytes) :
    ∃ i', (queueModule caps).call (js "ntx_start") [] i = some (.i32 0, i') ∧ Held 1 i' bytes := by
  obtain ⟨q, b, mem, rfl, hnum, hbytes⟩ := h
  exact ⟨_, call_start caps r q b mem, q, b, mem, rfl, { hnum with running := Nat.le_refl 1 }, hbytes⟩

theorem stop_held (h : Held r i bytes) :
    ∃ i', (queueModule caps).call (js "ntx_stop") [] i = some (.i32 0, i') ∧ Held 0 i' bytes := by
  obtain ⟨q, b, mem, rfl, hnum, hbytes⟩ := h
  exact ⟨_, call_stop caps r q b mem, q, b, mem, rfl, { hnum with running := Nat.zero_le 1 }, hbytes⟩

theorem status_held (h : Held r i bytes) :
    (queueModule caps).call (js "ntx_status") [] i = some (.i32 (BitVec.ofNat 32 r), i) := by
  obtain ⟨q, b, mem, rfl, -⟩ := h
  exact call_status caps r q b mem

theorem attach_held (h : Held r i bytes) (p s : BitVec 32) :
    (queueModule caps).call (js "ntx_attach") [p, s, 0, 0, 0, 0] i = some (.i32 0, i) := by
  obtain ⟨q, b, mem, rfl, -⟩ := h
  exact call_attach caps r q b mem p s 0 0 0 0

theorem detach_held (h : Held r i bytes) (p : BitVec 32) :
    (queueModule caps).call (js "ntx_detach") [p] i = some (.i32 0, i) := by
  obtain ⟨q, b, mem, rfl, -⟩ := h
  exact call_detach caps r q b mem p

theorem transmit_eq {q b : ℕ} {mem : Memory} {frame recipient : Bytes} (hnum : Numbers r q b)
    (hframe : frame.length ≤ 40960) (hrecipient : recipient.length = 32) :
    transmit (queueModule caps) frame recipient (inst r q b mem) =
      (queueModule caps).call (js "ntx_send")
        ([spot b frame.length, frame.length, spot (bumped b frame.length) recipient.length,
          recipient.length].map (BitVec.ofNat 32))
        (inst r q (bumpedTwice b frame recipient) (placed b frame recipient mem)) := by
  have hput := put_eq caps (r := r) (q := q) mem hnum.high hframe
  have hrec : recipient.length ≤ 40960 := by omega
  have hput' := put_eq caps (r := r) (q := q) (write mem (spot b frame.length) frame)
    (hnum.bumped hframe).high hrec
  simp only [transmit, hput, hput', Option.bind_eq_bind, Option.bind_some]
  rfl

/-- A small frame that is sent before the start. -/
theorem transmit_stopped (frame recipient : Bytes) (h : Held 0 i bytes)
    (hframe : frame.length ≤ 32) (hrecipient : recipient.length = 32) :
    ∃ i', transmit (queueModule caps) frame recipient i = some (.i32 1, i') ∧ Held 0 i' bytes := by
  obtain ⟨q, b, mem, rfl, hnum, hbytes⟩ := h
  have hend := spot_add_le (b := b) (n := frame.length) (by omega)
  have hapart : Apart (spot b frame.length) frame.length 0x4000 q :=
    Or.inr (Or.inr (Or.inl (by omega)))
  refine ⟨_, ?_, q, _, _, rfl, (hnum.bumped (n := frame.length) (by omega)).bumped
    (n := recipient.length) (by omega), (read_placed_queue hapart hrecipient).trans hbytes⟩
  rw [transmit_eq caps hnum (by omega) hrecipient, call_send_stopped]
  rfl

/-- A small frame that is sent to an empty queue. -/
theorem transmit_first (frame recipient : Bytes) (h : Held 1 i [])
    (hframe : frame.length ≤ 32) (hrecipient : recipient.length = 32) :
    ∃ i', transmit (queueModule caps) frame recipient i = some (.i32 0, i') ∧
      Held 1 i' (framed [frame]) := by
  obtain ⟨q, b, mem, rfl, hnum, hbytes⟩ := h
  have hq : q = 0 := by
    have hlen := congrArg List.length hbytes
    rwa [length_read] at hlen
  subst hq
  have hend := spot_add_le (b := b) (n := frame.length) (by omega)
  have hin : spot b frame.length + frame.length ≤ queueMemory := by
    unfold queueMemory
    omega
  have hapart : Apart (spot b frame.length) frame.length
      (spot (bumped b frame.length) recipient.length) recipient.length := by
    have haligned := hnum.aligned
    have hlow := hnum.low
    rw [hrecipient]
    unfold Apart spot bumped spot
    split <;> split <;> omega
  have hnum' := (hnum.bumped (n := frame.length) (by omega)).bumped (n := recipient.length) (by omega)
  refine ⟨_, ?_, 0 + frame.length + 4, _, enqueued 0 (spot b frame.length) frame.length
    (placed b frame recipient mem), rfl, { hnum' with length := by omega }, ?_⟩
  · rw [transmit_eq caps hnum (by omega) hrecipient, call_send_accepted _ _ (by omega) hin]
    rfl
  · rw [read_enqueued (by omega), read_placed_frame hapart hrecipient, read_zero]
    simp [framed]

/-- The part of the memory that a word with a place and a length names. -/
theorem blobOf_word {m : Module} {p l : ℕ} (i : Instance) (hp : p < 4294967296)
    (hl : l < 4294967296) (hin : p + l ≤ m.memorySize) :
    blobOf m (.i64 (BitVec.ofNat 64 (p * 4294967296 + l)), i) = some (read i.memory p l, i) := by
  have hword : (BitVec.ofNat 64 (p * 4294967296 + l)).toNat = p * 4294967296 + l := by
    rw [BitVec.toNat_ofNat]
    omega
  have haddress : (p * 4294967296 + l) / 4294967296 = p := by omega
  have hlength : (p * 4294967296 + l) % 4294967296 = l := by omega
  have hwhole : min (p + l) m.memorySize - p = l := by omega
  simp only [blobOf, blob, hword, haddress, hlength, hwhole]

theorem poll_held (h : Held r i bytes) (mb : BitVec 32) :
    ∃ i', pollAt (queueModule caps) mb i = some (bytes, i') ∧ Held r i' [] := by
  obtain ⟨q, b, mem, rfl, hnum, hbytes⟩ := h
  have hq := hnum.length
  have hin : 0x8000 + q ≤ (queueModule caps).memorySize := by
    rw [memorySize_queue]
    unfold queueMemory
    omega
  have hargs : [10, mb, 1] = [10, mb.toNat, 1].map (BitVec.ofNat 32) := by simp
  refine ⟨_, ?_, 0, b, write mem 0x8000 (read mem 0x4000 q), rfl,
    { hnum with length := Nat.zero_le _ }, rfl⟩
  have hread := read_write mem 0x8000 (read mem 0x4000 q)
  rw [length_read] at hread
  simp only [pollAt, hargs, Option.bind_eq_bind, call_poll mem caps hq, Option.bind_some]
  rw [blobOf_word _ (by omega) (by omega) hin, ← hbytes]
  exact congrArg (fun bytes => some (bytes, _)) hread

/-- What `ntx_caps` names, after `ntx_init` on no data. -/
theorem caps_initial (h : caps.length ≤ 32) :
    ∃ p i, put (queueModule caps) [] (inst 0 0 0x1000 (write (fun _ => 0) 0x100 caps)) =
        some (p, i) ∧
      (queueModule caps).call (js "ntx_init") [p, 0] i = some (.i32 0, i) ∧
      ((queueModule caps).call (js "ntx_caps") [] i).bind (blobOf (queueModule caps)) =
        some (caps, i) ∧
      Held 0 i [] := by
  have hnum : Numbers 0 0 0x1000 := ⟨by omega, by omega, by omega, by omega, ⟨512, rfl⟩⟩
  have hput : put (queueModule caps) [] (inst 0 0 0x1000 (write (fun _ => 0) 0x100 caps)) = _ :=
    put_eq caps _ hnum.high (Nat.zero_le _)
  have hmem : write (write (fun _ => 0) 0x100 caps) (spot 0x1000 0) [] =
      write (fun _ => 0) 0x100 caps := by
    funext a
    exact write_outside (by rw [List.length_nil]; omega)
  refine ⟨_, _, hput, call_init caps _ _ _ _ _ _, ?_, 0, bumped 0x1000 0, _, rfl,
    hnum.bumped (Nat.zero_le _), rfl⟩
  have hword : BitVec.ofInt 64 ((0x100 <<< 32 ||| caps.length : ℕ) : ℤ) =
      BitVec.ofNat 64 (0x100 * 4294967296 + caps.length) := by
    rw [capsWord_eq h]
    rfl
  have hin : 0x100 + caps.length ≤ (queueModule caps).memorySize := by
    rw [memorySize_queue]
    unfold queueMemory
    omega
  have hcall (i : Instance) : (queueModule caps).call (js "ntx_caps") [] i =
      some (.i64 (BitVec.ofNat 64 (0x100 * 4294967296 + caps.length)), i) := by
    rw [← hword]
    exact Module.call_of_export rfl rfl rfl rfl rfl rfl
  rw [hcall, Option.bind_some, blobOf_word _ (by omega) (by omega) hin]
  refine congrArg (fun bytes => some (bytes, _)) ?_
  show read (write (write (fun _ => 0) 0x100 caps) (spot 0x1000 0) []) 0x100 caps.length = caps
  rw [hmem, read_write]

end

/-! ## Verification of a build -/

/-- What is said about a capability. -/
def capFails (manifestCaps : Option (List JString)) (c : JString) : List JString :=
  (if knownCapabilities.contains c then [] else [js "unknown capability " ++ c]) ++
    match manifestCaps with
    | some declared => if declared.contains c then [] else [js "module claims \"" ++ c ++
        js "\" which the manifest does not declare (the host refuses this)"]
    | none => []

/-- What is said about the capabilities. -/
def capsFails (manifestCaps : Option (List JString)) (caps : List JString) : List JString :=
  (if caps.isEmpty then [js "ntx_caps is empty"] else []) ++ caps.flatMap (capFails manifestCaps)

section

variable (manifestCaps : Option (List JString))

theorem checkCap_run (c : JString) (fails : List JString) :
    (checkCap manifestCaps c).run fails = some ((), fails ++ capFails manifestCaps c) := by
  cases manifestCaps with
  | none =>
    simp only [checkCap, capFails, StateT.run_bind, run_ok]
    split <;> simp
  | some declared =>
    simp only [checkCap, capFails, StateT.run_bind, run_ok]
    split <;> split <;> simp

theorem checkCaps_run (caps fails : List JString) :
    (checkCaps manifestCaps caps).run fails =
      some ((), fails ++ caps.flatMap (capFails manifestCaps)) := by
  induction caps generalizing fails with
  | nil => simp [checkCaps]
  | cons c caps ih =>
    simp only [checkCaps, StateT.run_bind, checkCap_run, Option.bind_eq_bind, Option.bind_some, ih,
      List.flatMap_cons, List.append_assoc]

variable (caps : Bytes) {i : Instance}

theorem checkIdle_run (h : caps.length ≤ 32) :
    ∃ i, (checkIdle (queueModule caps) manifestCaps
        (inst 0 0 0x1000 (write (fun _ => 0) 0x100 caps))).run [] =
      some (i, capsFails manifestCaps (capsOf (decode caps))) ∧ Held 0 i [] := by
  obtain ⟨p, i, hput, hinit, hcaps, hheld⟩ := caps_initial caps h
  obtain ⟨i', hsend, hheld'⟩ := transmit_stopped caps conformanceFrame conformancePub hheld (by decide) rfl
  refine ⟨i', ?_, hheld'⟩
  simp only [checkIdle, hput, hinit, hcaps, status_held caps hheld, hsend, StateT.run_bind,
    run_attempt, run_ok, isNumber_zero, isNumber_one, isNumber_ofNat, if_true, checkCaps_run,
    Option.bind_eq_bind, Option.bind_some]
  cases hempty : (capsOf (decode caps)).isEmpty <;> simp [capsFails, hempty]

theorem checkStart_run (fails : List JString) (h : Held 0 i []) :
    ∃ i', (checkStart (queueModule caps) i).run fails = some (i', fails) ∧
      Held 1 i' (framed [conformanceFrame]) := by
  obtain ⟨i₁, hstart, h₁⟩ := start_held caps h
  obtain ⟨mb, i₂, hmb, h₂⟩ := put_held caps conformanceMailbox h₁ (by decide)
  obtain ⟨s, i₃, hs, h₃⟩ := put_held caps conformanceSecret h₂ (by decide)
  obtain ⟨i', hsend, h'⟩ := transmit_first caps conformanceFrame conformancePub h₃ (by decide) rfl
  refine ⟨i', ?_, h'⟩
  simp only [checkStart, hstart, status_held caps h₁, hmb, hs, attach_held caps h₃, hsend,
    StateT.run_bind, run_attempt, run_ok, isNumber_zero, isNumber_ofNat, if_true, Bool.true_or,
    Option.bind_eq_bind, Option.bind_some]
  rfl

theorem checkPoll_run (loopback : Bool) (fails : List JString)
    (h : Held 1 i (framed [conformanceFrame])) :
    ∃ i', (checkPoll (queueModule caps) loopback i).run fails = some (i', fails) ∧
      Held 1 i' [] := by
  obtain ⟨mb, i₁, hmb, h₁⟩ := put_held caps conformanceMailbox h (by decide)
  obtain ⟨i₂, hpoll, h₂⟩ := poll_held caps h₁ mb
  obtain ⟨i₃, hpoll', h₃⟩ := poll_held caps h₂ mb
  have hbounds : ∀ f ∈ [conformanceFrame], InBounds f := by
    simp only [List.mem_singleton, forall_eq]
    exact ⟨by decide, by decide⟩
  have hframes := frames_framed hbounds fails
  have hnone : (frames []).run fails = some ([], fails) := rfl
  cases loopback with
  | false =>
    refine ⟨i₂, ?_, h₂⟩
    simp only [checkPoll, hmb, hpoll, hframes, StateT.run_bind, run_attempt, Option.bind_eq_bind,
      Option.bind_some]
    rfl
  | true =>
    refine ⟨i₃, ?_, h₃⟩
    simp only [checkPoll, hmb, hpoll, hpoll', hframes, hnone, StateT.run_bind, run_attempt, run_ok,
      beq_self_eq_true, if_true, Option.bind_eq_bind, Option.bind_some]
    rfl

theorem checkStop_run (fails : List JString) (h : Held 1 i []) :
    (checkStop (queueModule caps) i).run fails = some ((), fails) := by
  obtain ⟨mb, i₁, hmb, h₁⟩ := put_held caps conformanceMailbox h (by decide)
  obtain ⟨i₂, hstop, h₂⟩ := stop_held caps h₁
  simp only [checkStop, hmb, detach_held caps h₁, hstop, status_held caps h₂, StateT.run_bind,
    run_attempt, run_ok, isNumber_zero, isNumber_ofNat, if_true, Option.bind_eq_bind,
    Option.bind_some]

theorem conformance_run (loopback : Bool) (h : caps.length ≤ 32) :
    (conformance (queueModule caps) manifestCaps loopback
        (inst 0 0 0x1000 (write (fun _ => 0) 0x100 caps))).run [] =
      some ((), capsFails manifestCaps (capsOf (decode caps))) := by
  obtain ⟨i₁, hidle, h₁⟩ := checkIdle_run manifestCaps caps h
  obtain ⟨i₂, hstart, h₂⟩ := checkStart_run caps (capsFails manifestCaps (capsOf (decode caps))) h₁
  obtain ⟨i₃, hpoll, h₃⟩ :=
    checkPoll_run caps loopback (capsFails manifestCaps (capsOf (decode caps))) h₂
  simp only [conformance, StateT.run_bind, hidle, hstart, hpoll, checkStop_run caps _ h₃,
    Option.bind_eq_bind, Option.bind_some]

theorem verify_build {capsCsv : JString} {bytes : Bytes}
    (hbuild : buildQueueModule capsCsv = some bytes) (loopback : Bool) :
    verifyWasm bytes manifestCaps loopback =
      some (capsFails manifestCaps (capsOf (decode (encode capsCsv)))) := by
  have hlen := caps_short hbuild
  have hvalid : (parseModule bytes).filter Module.validate = some (queueModule (encode capsCsv)) := by
    rw [parseModule_build hbuild, Option.filter_some, if_pos (validate_queue hlen)]
  have hexports : (requiredExports.filter fun n =>
      !(queueModule (encode capsCsv)).exports.any fun e => e.1 == encode n) = [] := by rfl
  unfold verifyWasm
  rw [hvalid]
  dsimp only
  rw [hexports, List.map_nil, if_neg (fun h => h rfl), instantiate_queue _ hlen]
  simp only [Option.bind_eq_bind, Option.bind_some, conformance_run manifestCaps _ _ hlen]
  rfl

end

theorem capFails_nil {manifestCaps : Option (List JString)} {c : JString} :
    capFails manifestCaps c = [] ↔
      c ∈ knownCapabilities ∧ ∀ declared, manifestCaps = some declared → c ∈ declared := by
  unfold capFails
  rw [List.append_eq_nil_iff]
  refine and_congr ?_ ?_
  · simp
  · cases manifestCaps <;> simp

theorem capsFails_nil {manifestCaps : Option (List JString)} {caps : List JString} :
    capsFails manifestCaps caps = [] ↔ caps ≠ [] ∧ ∀ c ∈ caps,
      c ∈ knownCapabilities ∧ ∀ declared, manifestCaps = some declared → c ∈ declared := by
  unfold capsFails
  rw [List.append_eq_nil_iff, List.flatMap_eq_nil_iff]
  refine and_congr ?_ (forall₂_congr fun c _ => capFails_nil)
  cases caps <;> simp

/-- **Conformance.**  The verification of a module that the assembler has built comes to its
    end, and nothing fails exactly if its text names a capability, and only capabilities
    that are known and declared. -/
theorem conforms_iff {capsCsv : JString} {bytes : Bytes}
    (hbuild : buildQueueModule capsCsv = some bytes) (manifestCaps : Option (List JString))
    (loopback : Bool) :
    ∃ fails, verifyWasm bytes manifestCaps loopback = some fails ∧
      (fails = [] ↔ capsOf (decode (encode capsCsv)) ≠ [] ∧
        ∀ c ∈ capsOf (decode (encode capsCsv)), c ∈ knownCapabilities ∧
          ∀ declared, manifestCaps = some declared → c ∈ declared) :=
  ⟨_, verify_build manifestCaps hbuild loopback, capsFails_nil⟩

theorem message_conforms : ∃ bytes, buildQueueModule (js "message") = some bytes ∧
    verifyWasm bytes (some [js "message"]) true = some [] := by
  obtain ⟨bytes, hbuild⟩ := message_module
  obtain ⟨fails, hverify, hiff⟩ := conforms_iff hbuild (some [js "message"]) true
  have hcaps : capsOf (decode (encode (js "message"))) = [js "message"] := by decide
  rw [hiff.2 (by rw [hcaps]; decide)] at hverify
  exact ⟨bytes, hbuild, hverify⟩

/-! ## Frames in order -/

/-- The frame of a send that is answered 0. -/
def Turn.accepted (t : Turn) : List Bytes :=
  match t.call, t.answer with
  | .send frame _, .code rc => if rc = 0 then [frame] else []
  | _, _ => []

/-- The frames of a poll, if nothing is wrong with them. -/
def Turn.polled (t : Turn) : Option (List Bytes) :=
  match t.answer with
  | .code _ => some []
  | .blob bytes => (frames bytes).run [] >>= fun r => if r.2 = [] then some r.1 else none

/-- The frames that wait after some turns. -/
def leftAfter (waiting : List Bytes) (turns : List Turn) : List Bytes :=
  turns.foldl (fun waiting t => t.left waiting) waiting

section

variable {waiting : List Bytes} {t : Turn}

theorem left_in_bounds (hw : ∀ f ∈ waiting, InBounds f) (hok : t.call.Ok) :
    ∀ f ∈ t.left waiting, InBounds f := by
  obtain ⟨call, answer, after⟩ := t
  unfold Turn.left
  dsimp only
  split
  · rename_i frame recipient rc
    split
    · intro f hf
      rcases List.mem_append.1 hf with hf | hf
      · exact hw f hf
      · obtain rfl := List.mem_singleton.1 hf
        exact ⟨hok.1, hok.2.1⟩
    · exact hw
  · simp
  · exact hw

/-- One turn: what it takes is added at the end of what waits, and what it hands out is taken
    from the front. -/
theorem polled_turn (hw : ∀ f ∈ waiting, InBounds f) (h : t.Returned waiting)
    (hkind : ∀ bytes, t.answer = .blob bytes →
      ∃ limit mailbox count, t.call = .poll limit mailbox count) :
    ∃ fs, t.polled = some fs ∧ waiting ++ t.accepted = fs ++ t.left waiting := by
  obtain ⟨call, answer, after⟩ := t
  cases answer with
  | code rc =>
    refine ⟨[], rfl, ?_⟩
    cases call with
    | send frame recipient =>
      simp only [Turn.accepted, Turn.left]
      split <;> simp
    | poll => exact h.elim
    | _ => simp [Turn.accepted, Turn.left]
  | blob bytes =>
    obtain ⟨limit, mailbox, count, rfl⟩ := hkind bytes rfl
    obtain rfl : bytes = framed waiting := h
    refine ⟨waiting, ?_, rfl⟩
    simp [Turn.polled, frames_framed hw []]

/-- Only a poll is answered by bytes. -/
theorem hostCall_blob {m : Module} {call : HostCall} {i i' : Instance} {bytes : Bytes}
    (h : hostCall m call i = some (.blob bytes, i')) :
    ∃ limit mailbox count, call = .poll limit mailbox count := by
  have hcode {o : Option (Value × Instance)} : o.bind code ≠ some (.blob bytes, i') := by
    intro heq
    obtain ⟨⟨v, _⟩, _, hv⟩ := Option.bind_eq_some_iff.1 heq
    cases v <;> cases hv
  cases call with
  | poll limit mailbox count => exact ⟨limit, mailbox, count, rfl⟩
  | init | detach =>
    obtain ⟨_, _, h⟩ := Option.bind_eq_some_iff.1 h
    exact (hcode h).elim
  | attach | send =>
    obtain ⟨_, _, h⟩ := Option.bind_eq_some_iff.1 h
    obtain ⟨_, _, h⟩ := Option.bind_eq_some_iff.1 h
    exact (hcode h).elim
  | start | stop | status => exact (hcode h).elim

/-- The turns of a run: what was taken is handed out in its order, but for what waits. -/
theorem polled_play {m : Module} {calls : List HostCall} {i : Instance} {turns : List Turn}
    (hplay : play m calls i = some turns) (hok : ∀ call ∈ calls, call.Ok)
    (hfifo : Fifo waiting turns) (hw : ∀ f ∈ waiting, InBounds f)
    (hqueued : i.queued = framed waiting) :
    ∃ parts, turns.mapM Turn.polled = some parts ∧
      waiting ++ turns.flatMap Turn.accepted = parts.flatten ++ leftAfter waiting turns ∧
      ((turns.map Turn.after).getLastD i).queued = framed (leftAfter waiting turns) := by
  induction calls generalizing i waiting turns with
  | nil =>
    cases hplay
    exact ⟨[], rfl, by simp [leftAfter], hqueued⟩
  | cons call calls ih =>
    obtain ⟨⟨answer, after⟩, hcall, hplay⟩ := Option.bind_eq_some_iff.1 hplay
    obtain ⟨rest, hrest, hturns⟩ := Option.bind_eq_some_iff.1 hplay
    obtain rfl := Option.some.inj hturns
    obtain ⟨hreturned, hleft, hfifo⟩ := hfifo
    have hhead := hok call List.mem_cons_self
    obtain ⟨fs, hpolled, hsum⟩ := polled_turn (t := ⟨call, answer, after⟩) hw hreturned
      fun bytes hbytes => by
        obtain rfl : answer = .blob bytes := hbytes
        exact hostCall_blob hcall
    obtain ⟨parts, hparts, htotal, hend⟩ := ih hrest
      (fun call' hmem => hok call' (List.mem_cons_of_mem _ hmem)) hfifo
      (left_in_bounds hw hhead) hleft
    refine ⟨fs :: parts, ?_, ?_, ?_⟩
    · simp [hpolled, hparts]
    · rw [List.flatMap_cons, ← List.append_assoc, hsum, List.append_assoc, htotal,
        List.flatten_cons, List.append_assoc]
      rfl
    · cases rest with
      | nil => exact hend
      | cons t rest => exact hend

end

/-- **Frames in order.**  In every run of safe calls the host splits each poll without an error,
    and the frames of all the polls, followed by those that still wait in the module, are the
    frames that were taken, in their order. -/
theorem polled_in_order {capsCsv : JString} {bytes : Bytes} {m : Module} {i : Instance}
    (hbuild : buildQueueModule capsCsv = some bytes) (hparse : parseModule bytes = some m)
    (hstart : m.instantiate = some i) {calls : List HostCall} (hok : ∀ call ∈ calls, call.Ok)
    (hsafe : Runs.Always (next m) Safe i calls) :
    ∃ turns parts waiting, play m calls i = some turns ∧
      turns.mapM Turn.polled = some parts ∧
      turns.flatMap Turn.accepted = parts.flatten ++ waiting ∧
      ((turns.map Turn.after).getLastD i).queued = framed waiting := by
  obtain rfl := Option.some.inj (hparse.symm.trans (parseModule_build hbuild))
  obtain rfl := Option.some.inj (hstart.symm.trans (instantiate_queue _ (caps_short hbuild)))
  have hinitial := holds_initial (encode capsCsv)
  obtain ⟨turns, hplay, hfifo⟩ := play_safe _ hok hsafe hinitial
  obtain ⟨parts, hparts, hsum, hend⟩ :=
    polled_play hplay hok hfifo (by simp) hinitial.queued
  exact ⟨turns, parts, _, hplay, hparts, hsum, hend⟩

theorem loopback_in_order : ∃ bytes m i, buildQueueModule (js "message") = some bytes ∧
    parseModule bytes = some m ∧ m.instantiate = some i ∧
    ∃ turns parts waiting, play m loopbackCalls i = some turns ∧
      turns.mapM Turn.polled = some parts ∧
      turns.flatMap Turn.accepted = parts.flatten ++ waiting ∧
      ((turns.map Turn.after).getLastD i).queued = framed waiting := by
  obtain ⟨bytes, hbuild⟩ := message_module
  have hok : ∀ call ∈ loopbackCalls, call.Ok := by
    simp [loopbackCalls, HostCall.Ok]
  have hsmall : ∀ frame recipient, .send frame recipient ∈ loopbackCalls →
      frame.length ≤ 11976 := by
    simp only [loopbackCalls, List.mem_cons, List.not_mem_nil, reduceCtorEq, false_or, or_false,
      HostCall.send.injEq]
    rintro frame recipient (⟨rfl, _⟩ | ⟨rfl, _⟩) <;> simp
  have hstart := instantiate_queue _ (caps_short hbuild)
  exact ⟨bytes, _, _, hbuild, parseModule_build hbuild, hstart,
    polled_in_order hbuild (parseModule_build hbuild) hstart hok
      (small_frames_safe _ hok hsmall (holds_initial _))⟩

end Package
