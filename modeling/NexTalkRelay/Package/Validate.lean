/-
  Validation of a module.

  * `checkOp` follows the types on the stack over one instruction, and `Module.validate`
    checks the functions and what else a module says, as `WebAssembly.validate` does for
    the instructions of the assembler;
  * `checked_run`: the instructions of a function that passes run to their end, unless one
    of them reaches outside of the memory (`Traps`);
  * `validated_call` says so for the calls of a module.
-/
import NexTalkRelay.Js.Utf8
import NexTalkRelay.Package.Exec

open Js

namespace Package

/-! ## Types on the stack -/

/-- The type of a value. -/
def Value.type : Value → UInt8
  | .i32 _ => I32
  | .i64 _ => I64

/-- A block that is being checked: the types of the operands that it has pushed, and whether
    what follows in it is never run. -/
structure Frame where
  operands : List UInt8
  unreachable : Bool

/-- A block at its beginning. -/
def Frame.new : Frame := ⟨[], false⟩

/-- An operand of the type is taken from the stack; where nothing is run, there is one. -/
def Frame.pop (f : Frame) (t : UInt8) : Option Frame :=
  match f.operands with
  | [] => if f.unreachable then some f else none
  | u :: operands => if u = t then some { f with operands } else none

/-- Pops several types. -/
def Frame.pops (f : Frame) : List UInt8 → Option Frame
  | [] => some f
  | t :: ts => (f.pop t).bind fun f => f.pops ts

/-- The types of the operands that an instruction takes, and of those that it leaves. -/
def Op.effect : Op → List UInt8 × List UInt8
  | .i32c _ | .get _ | .gget _ => ([], [I32])
  | .i64c _ => ([], [I64])
  | .set _ | .gset _ | .ifv => ([I32], [])
  | .add | .sub | .and | .shru | .gtu => ([I32, I32], [I32])
  | .eqz => ([I32], [I32])
  | .store8 _ => ([I32, I32], [])
  | .ext => ([I32], [I64])
  | .shl64 | .or64 => ([I64, I64], [I64])
  | .memcopy => ([I32, I32, I32], [])
  | .end_ | .ret => ([], [])

/-- The constants are in range, and what an instruction names exists. -/
def Op.inRange (locals globals memories : ℕ) : Op → Bool
  | .i32c v => decide (-2147483648 ≤ v ∧ v < 2147483648)
  | .i64c v => decide (-9223372036854775808 ≤ v ∧ v < 9223372036854775808)
  | .get i | .set i => decide (i < locals)
  | .gget i | .gset i => decide (i < globals)
  | .store8 _ | .memcopy => decide (0 < memories)
  | _ => true

/-- One instruction, in the blocks that are open, the innermost first.  The results are those
    of the function, the topmost first. -/
def checkOp (results : List UInt8) : Op → List Frame → Option (List Frame)
  | _, [] => none
  | .end_, [f] => (f.pops results).bind fun f => if f.operands = [] then some [] else none
  | .end_, f :: g :: frames => if f.operands = [] then some (g :: frames) else none
  | .ret, f :: frames => (f.pops results).map fun _ => ⟨[], true⟩ :: frames
  | .ifv, f :: frames => (f.pop I32).map fun f => .new :: f :: frames
  | op, f :: frames =>
    (f.pops op.effect.1).map fun f => { f with operands := op.effect.2 ++ f.operands } :: frames

/-- Checks the instructions one after the other. -/
def checkOps (results : List UInt8) : List Op → List Frame → Option (List Frame)
  | [], frames => some frames
  | op :: ops, frames => (checkOp results op frames).bind fun frames => checkOps results ops frames

/-! ## Modules -/

/-- A number is initialised with a constant. -/
def isConstant (op : Op) : Bool := (constant op).isSome && op.inRange 0 0 0

/-- The locals of a function, its parameters first. -/
def Code.localCount (code : Code) (type : FnType) : ℕ :=
  type.1.length + (code.locals.flatMap fun l => List.replicate l.1 (0 : BitVec 32)).length

/-- A function is valid: its type is there, and its code fits it. -/
def Module.checkFunction (m : Module) (t : ℕ) (code : Code) : Bool :=
  match m.types[t]? with
  | some type =>
    type.1.all (fun t => t == I32) && code.locals.all (fun l => l.2 == I32) &&
      code.ops.all (Op.inRange (code.localCount type) m.globals.length m.memories.length) &&
      (checkOps type.2.reverse code.ops [.new]).any List.isEmpty
  | none => false

/-- What is exported exists, under a name in UTF-8. -/
def Module.checkExport (m : Module) (e : Bytes × UInt8 × ℕ) : Bool :=
  encode (Decoder.run {} e.1) == e.1 &&
    (e.2.1 == 0 && decide (e.2.2 < m.funcs.length) ||
      e.2.1 == 2 && decide (e.2.2 < m.memories.length) ||
      e.2.1 == 3 && decide (e.2.2 < m.globals.length))

/-- `WebAssembly.validate` -/
def Module.validate (m : Module) : Bool :=
  m.types.all (fun t => (t.1 ++ t.2).all fun t => t == I32 || t == I64) &&
    m.funcs.length == m.code.length &&
    (m.funcs.zip m.code).all (fun f => m.checkFunction f.1 f.2) &&
    decide (m.memories.length ≤ 1) && m.memories.all (fun pages => decide (pages ≤ 65536)) &&
    m.globals.all (fun g => g.1 == I32 && isConstant g.2) &&
    decide (m.exports.map Prod.fst).Nodup && m.exports.all m.checkExport &&
    m.data.all (fun d => isConstant d.1 && decide (0 < m.memories.length))

/-! ## Traps -/

/-- The instruction reaches outside of the memory. -/
def OutOfBounds (size : ℕ) : Op → State → Prop
  | .store8 off, s =>
    match s.stack with
    | .i32 _ :: .i32 a :: _ => size ≤ a.toNat + off
    | _ => False
  | .memcopy, s =>
    match s.stack with
    | .i32 n :: .i32 src :: .i32 dst :: _ =>
      size < src.toNat + n.toNat ∨ size < dst.toNat + n.toNat
    | _ => False
  | _, _ => False

/-- One of the instructions that are run reaches outside of the memory. -/
def Traps (size : ℕ) : ℕ → List Op → State → Prop
  | _, [], _ => False
  | 0, .ret :: _, _ => False
  | 0, .end_ :: ops, s => Traps size 0 ops s
  | 0, .ifv :: ops, s =>
    match s.stack with
    | .i32 v :: stack =>
      if v = 0 then Traps size 1 ops { s with stack } else Traps size 0 ops { s with stack }
    | _ => False
  | 0, op :: ops, s => OutOfBounds size op s ∨ ∃ s', step size op s = some s' ∧ Traps size 0 ops s'
  | k + 1, .ifv :: ops, s => Traps size (k + 2) ops s
  | k + 1, .end_ :: ops, s => Traps size k ops s
  | k + 1, _ :: ops, s => Traps size (k + 1) ops s

/-! ## Operands -/

section

variable {f f' : Frame} {t : UInt8} {ts : List UInt8} {stack : List Value}

theorem pop_reachable (h : f.pop t = some f') (hf : f.unreachable = false) :
    f.operands = t :: f'.operands ∧ f'.unreachable = false := by
  unfold Frame.pop at h
  split at h
  · rw [hf] at h
    cases h
  · next u operands hu =>
    split at h
    · next heq =>
      obtain rfl := Option.some.inj h
      rw [hu, heq]
      exact ⟨rfl, hf⟩
    · cases h

theorem pops_reachable (h : f.pops ts = some f') (hf : f.unreachable = false) :
    f.operands = ts ++ f'.operands ∧ f'.unreachable = false := by
  induction ts generalizing f with
  | nil =>
    obtain rfl := Option.some.inj h
    exact ⟨rfl, hf⟩
  | cons t ts ih =>
    obtain ⟨g, hpop, hpops⟩ := Option.bind_eq_some_iff.1 h
    obtain ⟨hg, hreach⟩ := pop_reachable hpop hf
    obtain ⟨hrest, hreach'⟩ := ih hpops hreach
    refine ⟨?_, hreach'⟩
    rw [hg, hrest]
    rfl

theorem typed_i32 (h : stack.map Value.type = I32 :: ts) :
    ∃ v rest, stack = .i32 v :: rest ∧ rest.map Value.type = ts := by
  cases stack with
  | nil => cases h
  | cons v rest =>
    obtain ⟨hv, hrest⟩ := List.cons.inj h
    cases v with
    | i32 v => exact ⟨v, rest, rfl, hrest⟩
    | i64 v => exact absurd hv (show I64 ≠ I32 by decide)

theorem typed_i64 (h : stack.map Value.type = I64 :: ts) :
    ∃ v rest, stack = .i64 v :: rest ∧ rest.map Value.type = ts := by
  cases stack with
  | nil => cases h
  | cons v rest =>
    obtain ⟨hv, hrest⟩ := List.cons.inj h
    cases v with
    | i32 v => exact absurd hv (show I32 ≠ I64 by decide)
    | i64 v => exact ⟨v, rest, rfl, hrest⟩

end

/-! ## Progress -/

/-- The instructions inside of a block. -/
def Op.Plain : Op → Prop
  | .ifv | .end_ | .ret => False
  | _ => True

/-- What an instruction keeps. -/
structure SameShape (s s' : State) : Prop where
  locals : s'.locals.length = s.locals.length
  globals : s'.globals.length = s.globals.length

/-- **Progress.**  An instruction whose operands are on the stack reaches outside of the memory,
    or leaves what its type says. -/
theorem step_typed {size : ℕ} {op : Op} {s : State} (ts : List UInt8) {memories : ℕ}
    (hplain : op.Plain)
    (hrange : op.inRange s.locals.length s.globals.length memories = true)
    (hstack : s.stack.map Value.type = op.effect.1 ++ ts) :
    OutOfBounds size op s ∨ ∃ s', step size op s = some s' ∧
      s'.stack.map Value.type = op.effect.2 ++ ts ∧ SameShape s s' := by
  obtain ⟨stack, locals, globals, memory⟩ := s
  dsimp only at hrange hstack
  cases op with
  | ifv | end_ | ret => exact hplain.elim
  | i32c v => exact Or.inr ⟨_, rfl, congrArg (I32 :: ·) hstack, rfl, rfl⟩
  | i64c v => exact Or.inr ⟨_, rfl, congrArg (I64 :: ·) hstack, rfl, rfl⟩
  | get i =>
    have hi : i < locals.length := of_decide_eq_true hrange
    refine Or.inr ⟨⟨.i32 locals[i] :: stack, locals, globals, memory⟩, ?_,
      congrArg (I32 :: ·) hstack, rfl, rfl⟩
    simp [step, hi, State.push]
  | gget i =>
    have hi : i < globals.length := of_decide_eq_true hrange
    refine Or.inr ⟨⟨.i32 globals[i] :: stack, locals, globals, memory⟩, ?_,
      congrArg (I32 :: ·) hstack, rfl, rfl⟩
    simp [step, hi, State.push]
  | set i =>
    have hi : i < locals.length := of_decide_eq_true hrange
    obtain ⟨v, rest, rfl, hrest⟩ := typed_i32 hstack
    exact Or.inr ⟨⟨rest, locals.set i v, globals, memory⟩, if_pos hi, hrest,
      List.length_set, rfl⟩
  | gset i =>
    have hi : i < globals.length := of_decide_eq_true hrange
    obtain ⟨v, rest, rfl, hrest⟩ := typed_i32 hstack
    exact Or.inr ⟨⟨rest, locals, globals.set i v, memory⟩, if_pos hi, hrest, rfl,
      List.length_set⟩
  | add | sub | and | shru | gtu =>
    obtain ⟨y, below, rfl, hbelow⟩ := typed_i32 hstack
    obtain ⟨x, rest, rfl, hrest⟩ := typed_i32 hbelow
    exact Or.inr ⟨_, rfl, congrArg (I32 :: ·) hrest, rfl, rfl⟩
  | eqz =>
    obtain ⟨x, rest, rfl, hrest⟩ := typed_i32 hstack
    exact Or.inr ⟨_, rfl, congrArg (I32 :: ·) hrest, rfl, rfl⟩
  | ext =>
    obtain ⟨x, rest, rfl, hrest⟩ := typed_i32 hstack
    exact Or.inr ⟨_, rfl, congrArg (I64 :: ·) hrest, rfl, rfl⟩
  | shl64 | or64 =>
    obtain ⟨y, below, rfl, hbelow⟩ := typed_i64 hstack
    obtain ⟨x, rest, rfl, hrest⟩ := typed_i64 hbelow
    exact Or.inr ⟨_, rfl, congrArg (I64 :: ·) hrest, rfl, rfl⟩
  | store8 off =>
    obtain ⟨v, below, rfl, hbelow⟩ := typed_i32 hstack
    obtain ⟨a, rest, rfl, hrest⟩ := typed_i32 hbelow
    by_cases hin : a.toNat + off < size
    · exact Or.inr ⟨_, if_pos hin, hrest, rfl, rfl⟩
    · exact Or.inl (Nat.le_of_not_lt hin)
  | memcopy =>
    obtain ⟨n, below, rfl, hbelow⟩ := typed_i32 hstack
    obtain ⟨src, under, rfl, hunder⟩ := typed_i32 hbelow
    obtain ⟨dst, rest, rfl, hrest⟩ := typed_i32 hunder
    by_cases hin : src.toNat + n.toNat ≤ size ∧ dst.toNat + n.toNat ≤ size
    · exact Or.inr ⟨_, if_pos hin, hrest, rfl, rfl⟩
    · refine Or.inl ?_
      show size < _ ∨ size < _
      omega

/-! ### Equations -/

section

variable {size k : ℕ} {op : Op} {ops : List Op} {s : State} {results : List UInt8} {f : Frame}
  {frames : List Frame}

theorem run_plain (h : op.Plain) : run size 0 (op :: ops) s = (step size op s).bind fun s => run size 0 ops s := by
  cases op with
  | ifv | end_ | ret => exact h.elim
  | _ => rfl

theorem traps_plain (h : op.Plain) :
    Traps size 0 (op :: ops) s ↔ OutOfBounds size op s ∨ ∃ s', step size op s = some s' ∧ Traps size 0 ops s' := by
  cases op with
  | ifv | end_ | ret => exact h.elim
  | _ => exact Iff.rfl

theorem run_passed (h : op.Plain) : run size (k + 1) (op :: ops) s = run size (k + 1) ops s := by
  cases op with
  | ifv | end_ | ret => exact h.elim
  | _ => rfl

theorem traps_passed (h : op.Plain) : Traps size (k + 1) (op :: ops) s = Traps size (k + 1) ops s := by
  cases op with
  | ifv | end_ | ret => exact h.elim
  | _ => rfl

theorem checkOp_ifv : checkOp results .ifv (f :: frames) =
    (f.pop I32).map fun f => .new :: f :: frames := by
  cases frames <;> rfl

theorem checkOp_ret : checkOp results .ret (f :: frames) =
    (f.pops results).map fun _ => ⟨[], true⟩ :: frames := by
  cases frames <;> rfl

theorem checkOp_plain (h : op.Plain) : checkOp results op (f :: frames) =
    (f.pops op.effect.1).map fun f =>
      { f with operands := op.effect.2 ++ f.operands } :: frames := by
  cases op with
  | ifv | end_ | ret => exact h.elim
  | _ => cases frames <;> rfl

end

/-! ## Soundness -/

/-- The operands that the blocks have on the stack when `k` of them are skipped. -/
def operandsFrom (k : ℕ) (frames : List Frame) : List UInt8 :=
  (frames.drop k).flatMap Frame.operands

/-- The state fits what the check knows when `k` blocks are skipped. -/
structure Fits (locals globals k : ℕ) (frames : List Frame) (s : State) : Prop where
  inside : k < frames.length
  reachable : ∀ f ∈ frames.drop k, f.unreachable = false
  stack : s.stack.map Value.type = operandsFrom k frames
  locals : s.locals.length = locals
  globals : s.globals.length = globals

section

variable {size k locals globals memories : ℕ} {op : Op} {ops : List Op} {s : State}
  {results : List UInt8} {frames frames' : List Frame}

/-- What a run of checked instructions ends with. -/
def Ends (results : List UInt8) (locals globals : ℕ) (o : Option State) : Prop :=
  ∃ s, o = some s ∧ results <+: s.stack.map Value.type ∧ s.locals.length = locals ∧
    s.globals.length = globals

/-- From every state that fits, the instructions run to their end, or one reaches outside of
    the memory. -/
def Sound (size : ℕ) (results : List UInt8) (locals globals : ℕ) (ops : List Op) : Prop :=
  ∀ k frames s, checkOps results ops frames = some [] → Fits locals globals k frames s →
    Ends results locals globals (run size k ops s) ∨ Traps size k ops s

theorem Fits.tail {f : Frame} (h : Fits locals globals 0 (f :: frames) s) {f' : Frame}
    (hf : f'.unreachable = false) : ∀ g ∈ f' :: frames, g.unreachable = false := by
  intro g hg
  rcases List.mem_cons.1 hg with rfl | hg
  · exact hf
  · exact h.reachable g (List.mem_cons_of_mem _ hg)

theorem sound_plain (hops : Sound size results locals globals ops) (hplain : op.Plain)
    (hrange : op.inRange locals globals memories = true) :
    Sound size results locals globals (op :: ops) := by
  intro k frames s hcheck h
  obtain ⟨frames', hop, hrest⟩ := Option.bind_eq_some_iff.1 hcheck
  have hin := h.inside
  cases frames with
  | nil => cases hin
  | cons f frames =>
    rw [checkOp_plain hplain] at hop
    obtain ⟨f', hpops, rfl⟩ := Option.map_eq_some_iff.1 hop
    cases k with
    | succ k =>
      rw [run_passed hplain, traps_passed hplain]
      exact hops (k + 1) _ s hrest ⟨h.inside, h.reachable, h.stack, h.locals, h.globals⟩
    | zero =>
      obtain ⟨hf, hf'⟩ := pops_reachable hpops (h.reachable f List.mem_cons_self)
      have hfit : s.stack.map Value.type =
          op.effect.1 ++ (f'.operands ++ operandsFrom 0 frames) := by
        rw [h.stack, ← List.append_assoc, ← hf]
        rfl
      have htyped : OutOfBounds size op s ∨ ∃ s', step size op s = some s' ∧
          s'.stack.map Value.type = op.effect.2 ++ (f'.operands ++ operandsFrom 0 frames) ∧
          SameShape s s' :=
        step_typed _ hplain (by rw [h.locals, h.globals]; exact hrange) hfit
      rw [run_plain hplain, traps_plain hplain]
      rcases htyped with hout | ⟨s', hstep, hstack', hsame⟩
      · exact Or.inr (Or.inl hout)
      · rw [hstep, Option.bind_some]
        refine (hops 0 _ s' hrest ⟨h.inside, h.tail hf', ?_, hsame.locals.trans h.locals,
          hsame.globals.trans h.globals⟩).imp id fun htraps => Or.inr ⟨s', rfl, htraps⟩
        rw [hstack', ← List.append_assoc]
        rfl

theorem sound_ifv (hops : Sound size results locals globals ops) :
    Sound size results locals globals (.ifv :: ops) := by
  intro k frames s hcheck h
  obtain ⟨frames', hop, hrest⟩ := Option.bind_eq_some_iff.1 hcheck
  have hin := h.inside
  cases frames with
  | nil => cases hin
  | cons f frames =>
    rw [checkOp_ifv] at hop
    obtain ⟨f', hpop, rfl⟩ := Option.map_eq_some_iff.1 hop
    cases k with
    | succ k =>
      exact hops (k + 2) _ s hrest
        ⟨Nat.succ_lt_succ h.inside, h.reachable, h.stack, h.locals, h.globals⟩
    | zero =>
      obtain ⟨hf, hf'⟩ := pop_reachable hpop (h.reachable f List.mem_cons_self)
      have hfit : s.stack.map Value.type = I32 :: (f'.operands ++ operandsFrom 0 frames) := by
        rw [h.stack, ← List.cons_append, ← hf]
        rfl
      obtain ⟨v, stack, hv, hbelow⟩ := typed_i32 hfit
      unfold run Traps
      rw [hv]
      dsimp only
      split
      · exact hops 1 _ _ hrest
          ⟨Nat.succ_lt_succ h.inside, h.tail hf', hbelow, h.locals, h.globals⟩
      · refine hops 0 _ _ hrest ⟨Nat.succ_pos _, ?_, hbelow, h.locals, h.globals⟩
        intro g hg
        rcases List.mem_cons.1 hg with rfl | hg
        · rfl
        · exact h.tail hf' g hg

theorem ends_results {f f' : Frame} (hpops : f.pops results = some f')
    (h : Fits locals globals 0 (f :: frames) s) : Ends results locals globals (some s) := by
  obtain ⟨hf, -⟩ := pops_reachable hpops (h.reachable f List.mem_cons_self)
  refine ⟨s, rfl, ?_, h.locals, h.globals⟩
  rw [h.stack]
  show results <+: f.operands ++ _
  rw [hf, List.append_assoc]
  exact List.prefix_append _ _

theorem sound_ret (hops : Sound size results locals globals ops) :
    Sound size results locals globals (.ret :: ops) := by
  intro k frames s hcheck h
  obtain ⟨frames', hop, hrest⟩ := Option.bind_eq_some_iff.1 hcheck
  have hin := h.inside
  cases frames with
  | nil => cases hin
  | cons f frames =>
    rw [checkOp_ret] at hop
    obtain ⟨f', hpops, rfl⟩ := Option.map_eq_some_iff.1 hop
    cases k with
    | succ k =>
      exact hops (k + 1) _ s hrest ⟨h.inside, h.reachable, h.stack, h.locals, h.globals⟩
    | zero => exact Or.inl (ends_results hpops h)

theorem sound_end (hops : Sound size results locals globals ops) :
    Sound size results locals globals (.end_ :: ops) := by
  intro k frames s hcheck h
  obtain ⟨frames', hop, hrest⟩ := Option.bind_eq_some_iff.1 hcheck
  have hin := h.inside
  cases frames with
  | nil => cases hin
  | cons f frames =>
    cases frames with
    | nil =>
      -- the block of the function is the last one, so that nothing follows
      obtain rfl : k = 0 := Nat.lt_one_iff.1 hin
      obtain ⟨f', hpops, hend⟩ := Option.bind_eq_some_iff.1 hop
      split at hend
      · obtain rfl := Option.some.inj hend
        cases ops with
        | nil => exact Or.inl (ends_results hpops h)
        | cons op ops => cases hrest
      · cases hend
    | cons g frames =>
      obtain ⟨hempty, rfl⟩ : f.operands = [] ∧ g :: frames = frames' := by
        simp only [checkOp] at hop
        split at hop
        · next hempty => exact ⟨hempty, Option.some.inj hop⟩
        · cases hop
      cases k with
      | succ k =>
        exact hops k _ s hrest
          ⟨Nat.lt_of_succ_lt_succ h.inside, h.reachable, h.stack, h.locals, h.globals⟩
      | zero =>
        refine hops 0 _ s hrest ⟨Nat.succ_pos _, ?_, ?_, h.locals, h.globals⟩
        · exact fun g' hg' => h.reachable g' (List.mem_cons_of_mem _ hg')
        · rw [h.stack]
          show f.operands ++ _ = _
          rw [hempty]
          rfl

/-- **Soundness of the check.**  By induction on the instructions: the blocks that are open
    fit the stack, and those that are skipped do not matter. -/
theorem checked_run (hrange : ∀ op ∈ ops, op.inRange locals globals memories = true) :
    Sound size results locals globals ops := by
  induction ops with
  | nil =>
    intro k frames s hcheck h
    obtain rfl := Option.some.inj hcheck
    exact absurd h.inside (Nat.not_lt_zero k)
  | cons op ops ih =>
    have hops := ih fun op hop => hrange op (List.mem_cons_of_mem _ hop)
    cases op with
    | ifv => exact sound_ifv hops
    | ret => exact sound_ret hops
    | end_ => exact sound_end hops
    | _ => exact sound_plain hops trivial (hrange _ List.mem_cons_self)

end

/-! ## Calls -/

/-- The type of an exported function. -/
def Module.signature (m : Module) (name : JString) : Option FnType := do
  let e ← m.exports.find? fun e => e.1 == encode name && e.2.1 == 0
  let t ← m.funcs[e.2.2]?
  m.types[t]?

/-- The state in which a function starts. -/
def Code.entry (code : Code) (args : List (BitVec 32)) (i : Instance) : State :=
  ⟨[], args ++ code.locals.flatMap fun l => List.replicate l.1 0, i.globals, i.memory⟩

/-- The call reaches outside of the memory. -/
def Module.CallTraps (m : Module) (name : JString) (args : List (BitVec 32)) (i : Instance) : Prop :=
  ∃ e ∈ m.exports.find? (fun e => e.1 == encode name && e.2.1 == 0), ∃ code ∈ m.code[e.2.2]?,
    Traps m.memorySize 0 code.ops (code.entry args i)

/-- A call and the type of what it returns. -/
structure Invocation where
  name : JString
  args : List (BitVec 32)
  result : UInt8

/-- The function takes these arguments and returns one value of the type. -/
def Invocation.Ok (m : Module) (c : Invocation) : Prop :=
  ∃ params, m.signature c.name = some (params, [c.result]) ∧ params.length = c.args.length

/-- Calls one after the other, as long as none fails. -/
def Module.calls (m : Module) : List Invocation → Instance → Option (List Value)
  | [], _ => some []
  | c :: run, i => do
    let (v, i) ← m.call c.name c.args i
    return v :: (← m.calls run i)

/-- One of the calls reaches outside of the memory. -/
def Module.RunTraps (m : Module) : List Invocation → Instance → Prop
  | [], _ => False
  | c :: run, i =>
    m.CallTraps c.name c.args i ∨ ∃ v i', m.call c.name c.args i = some (v, i') ∧ m.RunTraps run i'

section

variable {m : Module} {i : Instance} {c : Invocation}

theorem validate_functions (hm : m.validate = true) {k t : ℕ} {code : Code}
    (hfunc : m.funcs[k]? = some t) (hcode : m.code[k]? = some code) :
    m.checkFunction t code = true := by
  unfold Module.validate at hm
  simp only [Bool.and_eq_true] at hm
  refine List.all_eq_true.1 hm.1.1.1.1.1.1.2 (t, code) ?_
  refine List.mem_of_getElem? (i := k) ?_
  rw [List.getElem?_zip_eq_some]
  exact ⟨hfunc, hcode⟩

theorem validate_lengths (hm : m.validate = true) : m.funcs.length = m.code.length := by
  unfold Module.validate at hm
  simp only [Bool.and_eq_true] at hm
  exact eq_of_beq hm.1.1.1.1.1.1.1.2

/-- **A call of a validated module** returns a value of the type of the function, unless it
    reaches outside of the memory. -/
theorem validated_call (hm : m.validate = true) (hi : i.globals.length = m.globals.length)
    (hc : c.Ok m) :
    (∃ v i', m.call c.name c.args i = some (v, i') ∧ v.type = c.result ∧
        i'.globals.length = m.globals.length) ∨ m.CallTraps c.name c.args i := by
  obtain ⟨params, hsig, hargs⟩ := hc
  simp only [Module.signature, Option.bind_eq_bind, Option.bind_eq_some_iff] at hsig
  obtain ⟨e, hexport, t, hfunc, htype⟩ := hsig
  have hlen := validate_lengths hm
  obtain ⟨hk, -⟩ := List.getElem?_eq_some_iff.1 hfunc
  have hcode : m.code[e.2.2]? = some m.code[e.2.2] := List.getElem?_eq_getElem (hlen ▸ hk)
  generalize m.code[e.2.2] = code at hcode
  have hcheck := validate_functions hm hfunc hcode
  unfold Module.checkFunction at hcheck
  rw [htype] at hcheck
  simp only [Bool.and_eq_true] at hcheck
  obtain ⟨⟨-, hrange⟩, hops⟩ := hcheck
  obtain ⟨frames, hframes, hempty⟩ := (Option.any_eq_true _ _).1 hops
  obtain rfl := List.isEmpty_iff.1 hempty
  have hfits : Fits (code.localCount (params, [c.result])) m.globals.length 0 [.new]
      (code.entry c.args i) := by
    refine ⟨Nat.one_pos, ?_, rfl, ?_, hi⟩
    · intro f hf
      obtain rfl := List.mem_singleton.1 hf
      rfl
    · simp [Code.entry, Code.localCount, hargs]
  have hcall : m.call c.name c.args i = do
      let s ← run m.memorySize 0 code.ops (code.entry c.args i)
      let v ← s.stack.head?
      return (v, ⟨s.globals, s.memory⟩) := by
    unfold Module.call
    simp only [hexport, hcode, hfunc, htype, Option.bind_eq_bind, Option.bind_some, if_pos hargs]
    rfl
  rcases checked_run (List.all_eq_true.1 hrange) 0 _ _ hframes hfits with hends | htraps
  · obtain ⟨s, hrun, hstack, -, hglobals⟩ := hends
    obtain ⟨rest, hrest⟩ := hstack
    obtain ⟨v, stack, hv, hbelow⟩ : ∃ v stack, s.stack = v :: stack ∧ v.type = c.result := by
      cases hs : s.stack with
      | nil =>
        rw [hs] at hrest
        cases hrest
      | cons v stack =>
        rw [hs] at hrest
        exact ⟨v, stack, rfl, (List.cons.inj hrest).1.symm⟩
    refine Or.inl ⟨v, ⟨s.globals, s.memory⟩, ?_, hbelow, hglobals⟩
    rw [hcall, hrun]
    simp [hv]
  · exact Or.inr ⟨e, hexport, code, hcode, htraps⟩

theorem mapM_length {α β : Type} {f : α → Option β} {l : List α} {l' : List β}
    (h : l.mapM f = some l') : l'.length = l.length := by
  induction l generalizing l' with
  | nil =>
    cases h
    rfl
  | cons a l ih =>
    simp only [List.mapM_cons, Option.bind_eq_bind, Option.bind_eq_some_iff, Option.pure_def] at h
    obtain ⟨b, -, bs, hbs, heq⟩ := h
    cases heq
    exact congrArg Nat.succ (ih hbs)

theorem instantiate_globals (h : m.instantiate = some i) :
    i.globals.length = m.globals.length := by
  simp only [Module.instantiate, Option.bind_eq_bind, Option.bind_eq_some_iff,
    Option.pure_def] at h
  obtain ⟨globals, hglobals, memory, -, heq⟩ := h
  cases heq
  exact mapM_length hglobals

theorem validated_calls (hm : m.validate = true) {run : List Invocation}
    (hi : i.globals.length = m.globals.length) (hrun : ∀ c ∈ run, c.Ok m) :
    (∃ vs, m.calls run i = some vs ∧ vs.map Value.type = run.map Invocation.result) ∨
      m.RunTraps run i := by
  induction run generalizing i with
  | nil => exact Or.inl ⟨[], rfl, rfl⟩
  | cons c run ih =>
    rcases validated_call hm hi (hrun c List.mem_cons_self) with
      ⟨v, i', hcall, hv, hi'⟩ | htraps
    · rcases ih hi' fun c hc => hrun c (List.mem_cons_of_mem _ hc) with ⟨vs, hvs, htypes⟩ | htraps
      · refine Or.inl ⟨v :: vs, ?_, ?_⟩
        · simp [Module.calls, hcall, hvs]
        · rw [List.map_cons, List.map_cons, hv, htypes]
      · exact Or.inr (Or.inr ⟨v, i', hcall, htraps⟩)
    · exact Or.inr (Or.inl htraps)

/-- **Validated modules do not get stuck.**  From the instance of a module that passes, calls with
    the right arguments all return values of the types of their functions, or one of them
    reaches outside of the memory. -/
theorem validated_session (hm : m.validate = true) (hstart : m.instantiate = some i)
    {run : List Invocation} (hrun : ∀ c ∈ run, c.Ok m) :
    (∃ vs, m.calls run i = some vs ∧ vs.map Value.type = run.map Invocation.result) ∨
      m.RunTraps run i :=
  validated_calls hm (instantiate_globals hstart) hrun

end

/-! ## The queue module -/

/-- The constant of `ntx_caps`. -/
theorem capsWord_eq {n : ℕ} (h : n ≤ 32) : 0x100 <<< 32 ||| n = 1099511627776 + n := by
  have hor := Nat.shiftLeft_add_eq_or_of_lt (i := 32) (b := n) (by omega) 0x100
  exact hor.symm

theorem inRange_capsWord {n : ℕ} (h : n ≤ 32) :
    Op.inRange 0 3 1 (.i64c ((0x100 <<< 32 ||| n : ℕ) : ℤ)) = true := by
  generalize hword : 0x100 <<< 32 ||| n = word
  have heq : word = 1099511627776 + n := hword.symm.trans (capsWord_eq h)
  have hrange : -9223372036854775808 ≤ (word : ℤ) ∧ (word : ℤ) < 9223372036854775808 := by omega
  simp only [Op.inRange, decide_eq_true_eq]
  exact hrange

/-- A function that returns a constant. -/
theorem checkFunction_constant (caps : Bytes) {v : ℤ} (h : Op.inRange 0 3 1 (.i64c v) = true) :
    (queueModule caps).checkFunction 2 (codeOf 0 [.i64c v]) = true := by
  show (true && (Op.inRange 0 3 1 (.i64c v) && (true && true)) && true) = true
  rw [h]
  rfl

theorem checkFunctions_queue {caps : Bytes} (h : caps.length ≤ 32) :
    ((queueModule caps).funcs.zip (queueModule caps).code).all
      (fun f => (queueModule caps).checkFunction f.1 f.2) = true := by
  have hrest : (((queueModule caps).funcs.zip (queueModule caps).code).drop 2).all
      (fun f => (queueModule caps).checkFunction f.1 f.2) = true := by rfl
  show ((queueModule caps).checkFunction 1 (codeOf 0 ntxInit) &&
    ((queueModule caps).checkFunction 2 (codeOf 0 (ntxCaps caps.length)) &&
      (((queueModule caps).funcs.zip (queueModule caps).code).drop 2).all
        (fun f => (queueModule caps).checkFunction f.1 f.2))) = true
  rw [hrest, ntxCaps, checkFunction_constant caps (inRange_capsWord h)]
  rfl

/-- The module of the assembler is valid. -/
theorem validate_queue {caps : Bytes} (h : caps.length ≤ 32) :
    (queueModule caps).validate = true := by
  unfold Module.validate
  rw [checkFunctions_queue h]
  rfl

/-- Three calls of a host. -/
def sampleSession : List Invocation :=
  [⟨js "ntx_start", [], I32⟩, ⟨js "ntx_caps", [], I64⟩, ⟨js "ntx_alloc", [8], I32⟩]

theorem sampleSession_typed :
    (∃ vs, (queueModule (encode (js "message"))).calls sampleSession
        (inst 0 0 0x1000 (LinearMemory.write (fun _ => 0) 0x100 (encode (js "message")))) = some vs ∧
      vs.map Value.type = sampleSession.map Invocation.result) ∨
    (queueModule (encode (js "message"))).RunTraps sampleSession
      (inst 0 0 0x1000 (LinearMemory.write (fun _ => 0) 0x100 (encode (js "message")))) := by
  have hcaps : (encode (js "message")).length ≤ 32 := by decide
  refine validated_session (validate_queue hcaps) (instantiate_queue _ hcaps) ?_
  intro c hc
  simp only [sampleSession, List.mem_cons, List.not_mem_nil, or_false] at hc
  rcases hc with rfl | rfl | rfl
  · exact ⟨[], rfl, rfl⟩
  · exact ⟨[], rfl, rfl⟩
  · exact ⟨[I32], rfl, rfl⟩

end Package
