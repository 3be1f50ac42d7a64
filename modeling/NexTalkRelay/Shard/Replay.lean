/-
  Replay protection of `/send`.

  `verifySenderAuth` remembers an accepted request for
  `max(60, ceil(MAX_CLOCK_SKEW / 1000))` seconds from its acceptance, while a
  timestamp stays acceptable for twice `MAX_CLOCK_SKEW`, if it was ahead of the
  clock at first.

  * `acceptances` lists the (pubkey, timestamp, signature) triples that a run
    of `/send` requests had accepted, in lower case;
  * `Guarded` is the invariant: the entry of an accepted triple is there until
    a known instant;
  * `acceptances_nodup_iff`: no triple is accepted twice, in any run, exactly
    for the skews below 30 seconds and those that are not finite.
-/
import NexTalkRelay.Shard.Frame

open Effect Js

namespace Shard

/-! ## Accepted requests -/

/-- Public key, timestamp and signature in lower case. -/
abbrev Triple := JString × JString × JString

/-- The triple as it is recorded. -/
def lowerTriple (p : HexStr 64 64 × DigitStr × HexStr 128 128) : Triple :=
  (p.1.lower, p.2.1.1, p.2.2.lower)

/-- The key under which the triple is remembered. -/
@[reducible] def tripleKey (c : Crypto) (T : Triple) : Key :=
  .replay (c.sha256 (encode (T.1 ++ js ":" ++ T.2.1 ++ js ":" ++ T.2.2)))

/-- The triple of a request that `verifySenderAuth` accepts at the instant `t`. -/
def acceptance (env : Env) (t : ℕ) (rq : SendRequest) (kv : Kv) : Option Triple :=
  match sendFields env rq.body with
  | .error _ => none
  | .ok f =>
    match templateText (fieldOf f.sender "timestamp") with
    | none => none
    | some senderTimestamp =>
      if (runAt env.crypto t (verifySenderAuth env f.sender env.cfg.maxClockSkew
          (sendSignedMessage env.crypto f senderTimestamp)) kv).1 = some none then
        (authFields f.sender).toOption.map lowerTriple
      else none

/-- The triples that were accepted in a run of `/send` requests. -/
def acceptances (env : Env) : Kv → List (ℕ × SendRequest) → List Triple
  | _, [] => []
  | kv, (t, rq) :: run =>
    (acceptance env t rq kv).toList ++ acceptances env (handle env t (.send rq) kv).2 run

/-! ## One request -/

/-- **What acceptance means.** -/
theorem verifySenderAuth_accepts {env : Env} {auth : Option Json} {skew : Number} {msg : JString}
    {t : ℕ} {kv : Kv} {log : List Service}
    (h : ((verifySenderAuth env auth skew msg).run (KvOp.exec t (services env.crypto))
      (kv, log)).1 = some none) :
    ∃ pk ts sig n, authFields auth = .ok (pk, ts, sig) ∧ skew.lt (clockSkew t ts) = false ∧
      kv.get t (replayKey env.crypto pk ts sig) = none ∧
      verifyEd25519Message env.crypto pk.1 msg sig.1 = true ∧ (replayTtl skew).toInt? = some n ∧
      (verifySenderAuth env auth skew msg).run (KvOp.exec t (services env.crypto)) (kv, log) =
        (some none, (kv.put t (replayKey env.crypto pk ts sig) () (some n), log)) := by
  unfold verifySenderAuth at *
  cases ha : authFields auth with
  | error e => simp [ha] at h
  | ok p =>
    obtain ⟨pk, ts, sig⟩ := p
    simp only [ha, dateNow, kvGet, Prog.bind_eq, Prog.perform_bind, KvOp.run_now] at h ⊢
    split at h
    · simp at h
    · next hskew =>
      simp only [KvOp.run_get] at h
      split at h
      · simp at h
      · next hseen =>
        split at h
        · simp at h
        · next hvalid =>
          unfold kvPut at h ⊢
          split at h
          · next n hn =>
            refine ⟨pk, ts, sig, n, rfl, by simpa using hskew, by simpa using hseen,
              by simpa using hvalid, hn, ?_⟩
            rw [if_neg hskew, KvOp.run_get, if_neg hseen, if_neg hvalid]
            rfl
          · simp at h

/-- The lifetime of a replay entry is at least a minute. -/
theorem replayTtl_ge {skew : Number} {n : ℤ} (h : (replayTtl skew).toInt? = some n) : 60 ≤ n := by
  unfold replayTtl Number.max at h
  split at h
  · simp [Number.toInt?] at h
  split at h
  · next hlt =>
    obtain ⟨d, hd, hn⟩ := Number.toInt?_eq_some.1 h
    rw [hd, Number.ofInt_lt] at hlt
    rw [hn] at hlt
    exact_mod_cast hlt.le
  · rw [Number.toInt?_ofInt, Option.some.injEq] at h
    exact h.le

/-- Only a finite skew gives a lifetime that the store takes, unless every
    timestamp is rejected. -/
theorem finite_of_replayTtl {skew : Number} {n : ℤ} {t : ℕ} {ts : DigitStr}
    (h : (replayTtl skew).toInt? = some n) (hs : skew.lt (clockSkew t ts) = false) :
    ∃ d, skew = .fin d := by
  obtain ⟨e, he, -⟩ := clockSkew_val t ts
  cases skew with
  | nan => simp [replayTtl, Number.divThousand, Number.ceil, Number.max, Number.toInt?] at h
  | inf s =>
    cases s with
    | true => simp [he, Number.lt] at hs
    | false => simp [replayTtl, Number.divThousand, Number.ceil, Number.max, Number.lt, Number.ofInt, Number.toInt?] at h
  | fin d => exact ⟨d, rfl⟩

/-- An accepted timestamp is at most the skew away from the clock. -/
theorem skew_window {d : Dec} {t : ℕ} {ts : DigitStr} (h : (Number.fin d).lt (clockSkew t ts) = false) :
    |(t : ℚ) - decValue ts.1| ≤ d.val := by
  obtain ⟨e, he, hv⟩ := clockSkew_val t ts
  rw [he] at h
  rw [← hv]
  simpa [Number.lt] using h

/-- Two accepted timestamps: the clock has moved by at most twice the skew. -/
theorem skew_twice {d : Dec} {t t' : ℕ} {ts ts' : DigitStr} (hts : ts.1 = ts'.1)
    (h : (Number.fin d).lt (clockSkew t ts) = false) (h' : (Number.fin d).lt (clockSkew t' ts') = false) :
    (t' : ℚ) - t ≤ 2 * d.val := by
  have h1 := abs_le.1 (skew_window h)
  have h2 := abs_le.1 (skew_window h')
  rw [← hts] at h2
  linarith [h1.1, h2.2]

/-! ## The invariant of a run -/

/-- The entry of `k` is there until the instant `x`, at least. -/
def Guarded (x : ℤ) (k : Key) (kv : Kv) : Prop :=
  ∃ e, kv k = some e ∧ ∀ y, e.expires = some y → x ≤ y

theorem Guarded.present {x : ℤ} {k : Key} {kv : Kv} (h : Guarded x k kv) {t : ℕ} (ht : (t : ℤ) < x) :
    kv.get t k ≠ none := by
  obtain ⟨e, he, hx⟩ := h
  have hl : e.live t = true := by
    unfold Slot.live
    split
    · rfl
    · next y hy => simpa using lt_of_lt_of_le ht (hx y hy)
  rw [Store.get_live he hl]
  exact Option.some_ne_none _

/-- Replay entries are written with a lifetime of at least a minute and never
    deleted. -/
def KeepsReplays : KvOp Key Val Service → Prop
  | .put (.replay _) _ ttl => ∃ n, 60 ≤ n ∧ ttl = some n
  | .delete (.replay _) => False
  | _ => True

theorem keepsReplays_of_writes {o : KvOp Key Val Service}
    (h : o.Writes fun k => ∀ d, k ≠ .replay d) : KeepsReplays o := by
  cases o with
  | put k v ttl => cases k <;> first | trivial | exact absurd rfl (h _)
  | delete k => cases k <;> first | trivial | exact absurd rfl (h _)
  | _ => trivial

theorem guarded_step {x : ℤ} {d : Digest} {t : ℕ} (ht : x ≤ t + 60000) {c : Crypto}
    (o : KvOp Key Val Service) (s : Kv × List Service) (ho : KeepsReplays o)
    (hs : Guarded x (.replay d) s.1) :
    Guarded x (.replay d) (KvOp.exec t (services c) o s).2.1 := by
  cases o with
  | put k v ttl =>
    by_cases hk : k = .replay d
    · subst hk
      obtain ⟨n, hn, rfl⟩ := ho
      refine ⟨_, Store.put_same s.1 t v (some n), fun y hy => ?_⟩
      simp only [Option.map_some, Option.some.injEq] at hy
      omega
    · obtain ⟨e, he, hx⟩ := hs
      exact ⟨e, (Store.put_other s.1 t (Ne.symm hk) v ttl).trans he, hx⟩
  | delete k =>
    by_cases hk : k = .replay d
    · subst hk; exact ho.elim
    · obtain ⟨e, he, hx⟩ := hs
      exact ⟨e, (Store.delete_other s.1 (Ne.symm hk)).trans he, hx⟩
  | get k => exact hs
  | now => exact hs
  | call e => exact hs

theorem verifySenderAuth_keeps (env : Env) (auth : Option Json) (skew : Number) (msg : JString) :
    (verifySenderAuth env auth skew msg).Only KeepsReplays := by
  unfold verifySenderAuth
  split
  · trivial
  · simp only [dateNow, kvGet, Prog.bind_eq, Prog.perform_bind, Prog.only_op]
    refine ⟨trivial, fun now => ?_⟩
    split
    · trivial
    · refine ⟨trivial, fun seen => ?_⟩
      beta_reduce
      split
      · trivial
      · split
        · trivial
        · unfold kvPut
          split
          · next n hn => exact ⟨⟨n, replayTtl_ge hn, rfl⟩, fun _ => trivial⟩
          · trivial

/-- What follows the authentication of a sender writes no replay entry. -/
theorem afterAuth_writes (env : Env) (rq : SendRequest) (f : SendFields) :
    (gated (sendLimits env rq.ip f) (sendMailbox env rq f)).Only
      (KvOp.Writes fun k => ∀ d, k ≠ .replay d) := by
  refine gated_only ?_ ?_
  · exact sendLimits_writes env rq.ip (fun _ _ _ => nofun) f
  · refine (sendMailbox_writes env rq f).mono fun o ho => ho.mono ?_
    rintro k hk d rfl
    exact hk

/-- `/send` with well-formed fields authenticates its sender first. -/
theorem handleSend_eq {env : Env} {rq : SendRequest} {f : SendFields}
    (hf : sendFields env rq.body = .ok f) :
    handleSend env rq = match templateText (fieldOf f.sender "timestamp") with
      | none => .throw
      | some ts =>
        (verifySenderAuth env f.sender env.cfg.maxClockSkew
          (sendSignedMessage env.crypto f ts)).bind fun r => match r with
            | some e => .ret (err (js "sender auth failed: " ++ e) 401)
            | none => gated (sendLimits env rq.ip f) (sendMailbox env rq f) := by
  unfold handleSend guarded sendGate
  rw [hf]
  dsimp only
  cases templateText (fieldOf f.sender "timestamp") with
  | none => rfl
  | some ts =>
    simp only [gated, Prog.bind_eq, Prog.bind_assoc]
    congr 1
    funext r
    cases r <;> rfl

theorem handleSend_keeps (env : Env) (rq : SendRequest) : (handleSend env rq).Only KeepsReplays := by
  cases hf : sendFields env rq.body with
  | error e => unfold handleSend; rw [hf]; cases e <;> trivial
  | ok f =>
    rw [handleSend_eq hf]
    split
    · trivial
    · refine (verifySenderAuth_keeps _ _ _ _).bind fun r => ?_
      cases r with
      | some e => trivial
      | none => exact (afterAuth_writes env rq f).mono fun _ => keepsReplays_of_writes

/-- A request of the run keeps the guarded entries. -/
theorem guarded_handle {x : ℤ} {d : Digest} {t : ℕ} (ht : x ≤ t + 60000) (env : Env)
    (rq : SendRequest) {kv : Kv} (h : Guarded x (.replay d) kv) :
    Guarded x (.replay d) (handle env t (.send rq) kv).2 :=
  Prog.run_inv (I := fun s : Kv × List Service => Guarded x (.replay d) s.1)
    (guarded_step ht) (handleSend_keeps env rq) h

/-- **What an accepted request leaves behind.**  Its triple was not remembered
    and now is, for the lifetime of a replay entry. -/
theorem acceptance_spec {env : Env} {t : ℕ} {rq : SendRequest} {kv : Kv} {T : Triple}
    (h : acceptance env t rq kv = some T) :
    ∃ (ts : DigitStr) (d : Dec) (n : ℤ), T.2.1 = ts.1 ∧ env.cfg.maxClockSkew = .fin d ∧
      (Number.fin d).lt (clockSkew t ts) = false ∧
      (replayTtl env.cfg.maxClockSkew).toInt? = some n ∧
      kv.get t (tripleKey env.crypto T) = none ∧
      (handle env t (.send rq) kv).2 (tripleKey env.crypto T) = some ⟨(), some (t + 1000 * n)⟩ := by
  unfold acceptance at h
  split at h
  · cases h
  next f hf =>
    split at h
    · cases h
    next senderTimestamp hts =>
      split at h
      · next hacc =>
        obtain ⟨pk, ts, sig, n, hauth, hskew, hseen, -, hn, hrun⟩ :=
          verifySenderAuth_accepts hacc
        obtain ⟨d, hd⟩ := finite_of_replayTtl hn hskew
        simp only [hauth, Except.toOption, Option.map_some, Option.some.injEq] at h
        subst h
        refine ⟨ts, d, n, rfl, hd, hd ▸ hskew, hn, hseen, ?_⟩
        -- the rest of the handler runs on the store with the new entry
        simp only [handle, fetch, runAt]
        rw [handleSend_eq hf, hts]
        dsimp only
        rw [Prog.run_bind_some hrun]
        have hrest := (afterAuth_writes env rq f).mono
          (Q := KvOp.Spares (replayKey env.crypto pk ts sig)) fun o ho => ho.mono fun k hk => hk _
        exact (KvOp.run_spares hrest t _ _).trans (Store.put_same _ _ _ _)
      · cases h

/-- An entry of a minute or more guards its key. -/
theorem guarded_of_slot {t : ℕ} {n : ℤ} (hn : 60 ≤ n) {d : Digest} {kv : Kv}
    (h : kv (.replay d) = some ⟨(), some (t + 1000 * n)⟩) :
    Guarded (t + 60000) (.replay d) kv :=
  ⟨_, h, fun y hy => by simp only [Option.some.injEq] at hy; omega⟩

/-! ## Whole runs -/

/-- **Run lemma.** While a triple is guarded and its skew is below 30 seconds,
    no later request with it is accepted. -/
theorem notMem_acceptances {env : Env} {d : Dec} (hd : env.cfg.maxClockSkew = .fin d)
    (hsmall : d.val < 30000) {T : Triple} {t₀ : ℕ} {ts : DigitStr} (hT : T.2.1 = ts.1)
    (hskew : (Number.fin d).lt (clockSkew t₀ ts) = false) (run : List (ℕ × SendRequest)) (kv : Kv)
    (ht : ∀ p ∈ run, t₀ ≤ p.1) (hg : Guarded (t₀ + 60000) (tripleKey env.crypto T) kv) :
    T ∉ acceptances env kv run := by
  induction run generalizing kv with
  | nil => exact List.not_mem_nil
  | cons p run ih =>
    obtain ⟨t, rq⟩ := p
    have ht₀ : t₀ ≤ t := ht _ (List.mem_cons_self ..)
    simp only [acceptances, List.mem_append, Option.mem_toList, not_or]
    constructor
    · intro hacc
      obtain ⟨ts', d', n, hT', hd', hskew', -, hnone, -⟩ := acceptance_spec hacc
      obtain rfl : d = d' := by rw [hd] at hd'; exact Number.fin.inj hd'
      refine hg.present ?_ hnone
      have := skew_twice (hT.symm.trans hT') hskew hskew'
      have hlt : (t : ℚ) < t₀ + 60000 := by linarith
      exact_mod_cast hlt
    · exact ih _ (fun p hp => ht p (List.mem_cons_of_mem _ hp))
        (guarded_handle (by omega) env rq hg)

/-- The skews under which a triple can be accepted again. -/
def wideSkew (skew : Number) : Bool := skew.isFinite && (Number.ofInt 30000).le skew

theorem acceptances_nodup {env : Env} (hs : wideSkew env.cfg.maxClockSkew = false)
    (run : List (ℕ × SendRequest)) (kv : Kv) (ht : (run.map Prod.fst).Pairwise (· ≤ ·)) :
    (acceptances env kv run).Nodup := by
  induction run generalizing kv with
  | nil => exact List.nodup_nil
  | cons p run ih =>
    obtain ⟨t, rq⟩ := p
    rw [List.map_cons, List.pairwise_cons] at ht
    rw [acceptances]
    cases hacc : acceptance env t rq kv with
    | none => exact ih _ ht.2
    | some T =>
      obtain ⟨ts, d, n, hT, hd, hskew, hn, -, hslot⟩ := acceptance_spec hacc
      have hsmall : d.val < 30000 := by
        simpa [wideSkew, hd, Number.isFinite, Number.le, Number.ofInt] using hs
      refine List.nodup_cons.2 ⟨?_, ih _ ht.2⟩
      exact notMem_acceptances hd hsmall hT hskew run _
        (fun p hp => ht.1 _ (List.mem_map_of_mem hp)) (guarded_of_slot (replayTtl_ge hn) hslot)

/-! ## Wide skews -/

/-- A shard with the given skew and otherwise the default limits. -/
def skewEnv (skew : Number) : Env := trustingEnv { maxClockSkew := skew }

/-- A `sender` with the timestamp `ts`. -/
def sampleSender (ts : JString) : Json :=
  .obj [(js "pubkey", .str (letters 64)), (js "timestamp", .str ts),
    (js "signature", .str (letters 128))]

/-- A request whose sender gives the timestamp `ts`. -/
def sampleSend (ts : JString) : SendRequest where
  ip := none
  body := some (.obj [(js "mailbox_id", .str (letters 16)), (js "message", .str (js "m")),
    (js "sender", sampleSender ts)])
  entryId := []
  freshIdentity := ⟨[], []⟩

theorem sendFields_sample (skew : Number) (ts : JString) :
    sendFields (skewEnv skew) (sampleSend ts).body = .ok {
      mailboxId := ⟨letters 16, by decide⟩
      message := js "m"
      sender := some (sampleSender ts)
      senderPubkey := ⟨letters 64, by decide⟩
      requestId := none } := by
  rfl

theorem authFields_sample (n : ℕ) : authFields (some (sampleSender (digits n))) =
    .ok (⟨letters 64, by decide⟩, ⟨digits n, isDigits_digits n⟩, ⟨letters 128, by decide⟩) := by
  have hts : (Json.asStr? (fieldOf (some (sampleSender (digits n))) "timestamp")).bind
      DigitStr.parse = some ⟨digits n, isDigits_digits n⟩ :=
    DigitStr.parse_eq_some.2 rfl
  unfold authFields
  rw [hts]
  rfl

/-- The triple that is recorded for it. -/
def sampleTriple (n : ℕ) : Triple := (letters 64, digits n, letters 128)

/-- The sample is accepted whenever its timestamp is near enough and its triple
    not remembered. -/
theorem acceptance_sample {skew : Number} {n t : ℕ} {ttl : ℤ} {kv : Kv}
    (hskew : skew.lt (clockSkew t ⟨digits n, isDigits_digits n⟩) = false)
    (hseen : kv.get t (tripleKey Crypto.trusting (sampleTriple n)) = none)
    (httl : (replayTtl skew).toInt? = some ttl) :
    acceptance (skewEnv skew) t (sampleSend (digits n)) kv = some (sampleTriple n) := by
  have hacc (msg : JString) : (runAt (skewEnv skew).crypto t (verifySenderAuth (skewEnv skew)
      (some (sampleSender (digits n))) (skewEnv skew).cfg.maxClockSkew msg) kv).1 = some none := by
    change (runAt Crypto.trusting t (verifySenderAuth (skewEnv skew)
      (some (sampleSender (digits n))) skew msg) kv).1 = some none
    have hvalid : verifyEd25519Message Crypto.trusting (letters 64) msg (letters 128) = true := rfl
    unfold verifySenderAuth
    rw [authFields_sample]
    simp only [runAt, dateNow, kvGet, Prog.bind_eq, Prog.perform_bind, KvOp.run_now]
    rw [if_neg (by simp [hskew]), KvOp.run_get]
    change (Prog.run _ (if (kv.get t (tripleKey Crypto.trusting (sampleTriple n))).isSome = true
      then _ else _) _).1 = _
    rw [if_neg (by simp [hseen])]
    change (Prog.run _ (if (!verifyEd25519Message Crypto.trusting (letters 64) msg (letters 128))
      = true then _ else _) _).1 = _
    rw [if_neg (by simp [hvalid])]
    simp only [kvPut, httl]
    rfl
  unfold acceptance
  rw [sendFields_sample]
  dsimp only
  have hts : templateText (fieldOf (some (sampleSender (digits n))) "timestamp") =
    some (digits n) := rfl
  rw [hts]
  dsimp only
  rw [if_pos (hacc _), authFields_sample]
  rfl

/-- The lifetime of a replay entry under a finite skew. -/
theorem replayTtl_fin (d : Dec) : (replayTtl (.fin d)).toInt? = some (max 60 ⌈d.val / 1000⌉) := by
  obtain ⟨e, he, hv⟩ := Number.max_fin (Dec.ofDigits 60 0) (Dec.ofDigits (d.shift 3).ceil 0)
  refine Number.toInt?_eq_some.2 ⟨e, he, ?_⟩
  rw [hv, Dec.val_ofDigits, Dec.val_ofDigits, Dec.ceil_eq, Dec.val_shift]
  norm_num

theorem lt_clockSkew {d : Dec} {t : ℕ} {ts : DigitStr} (h : |(t : ℚ) - decValue ts.1| ≤ d.val) :
    (Number.fin d).lt (clockSkew t ts) = false := by
  obtain ⟨e, he, hv⟩ := clockSkew_val t ts
  rw [he]
  simpa [Number.lt, hv] using h

/-- **A wide skew accepts a triple twice.**  A timestamp as far ahead of the
    clock as allowed outlives its replay entry. -/
theorem acceptances_sample {d : Dec} (hd : 30000 ≤ d.val) :
    acceptances (skewEnv (.fin d)) (fun _ => none)
      [(0, sampleSend (digits ⌊d.val⌋.toNat)),
        ((1000 * max 60 ⌈d.val / 1000⌉).toNat, sampleSend (digits ⌊d.val⌋.toNat))] =
      [sampleTriple ⌊d.val⌋.toNat, sampleTriple ⌊d.val⌋.toNat] := by
  have httl := replayTtl_fin d
  have hge := replayTtl_ge httl
  have hF0 : 30000 ≤ ⌊d.val⌋ := Int.le_floor.2 (by exact_mod_cast hd)
  have hF1 : ((⌊d.val⌋.toNat : ℕ) : ℤ) = ⌊d.val⌋ := Int.toNat_of_nonneg (by omega)
  have hT1 : (((1000 * max 60 ⌈d.val / 1000⌉).toNat : ℕ) : ℤ) = 1000 * max 60 ⌈d.val / 1000⌉ :=
    Int.toNat_of_nonneg (by omega)
  generalize ⌊d.val⌋.toNat = F at *
  generalize (1000 * max 60 ⌈d.val / 1000⌉).toNat = t at *
  generalize hn : max 60 ⌈d.val / 1000⌉ = n at *
  have hF2 : (F : ℚ) ≤ d.val := by
    rw [← Int.cast_natCast, hF1]; exact Int.floor_le _
  have hF3 : (30000 : ℚ) ≤ F := by
    rw [← Int.cast_natCast, hF1]; exact_mod_cast hF0
  -- the entry is gone before the window closes
  have ht : (t : ℚ) ≤ d.val + F := by
    have hceil : (1000 * n : ℚ) ≤ d.val + F := by
      rw [← hn]
      rcases max_cases (60 : ℤ) ⌈d.val / 1000⌉ with ⟨h, -⟩ | ⟨h, -⟩
      · rw [h]; push_cast; linarith
      · rw [h]
        have := Int.ceil_lt_add_one (d.val / 1000)
        linarith
    have : (t : ℚ) = 1000 * n := by exact_mod_cast hT1
    linarith
  have hacc₀ : acceptance (skewEnv (.fin d)) 0 (sampleSend (digits F)) (fun _ => none) =
      some (sampleTriple F) :=
    acceptance_sample (lt_clockSkew (by
      rw [decValue_digits, abs_le]; constructor <;> push_cast <;> linarith)) rfl httl
  obtain ⟨-, -, m, -, -, -, hm, -, hslot⟩ := acceptance_spec hacc₀
  obtain rfl : n = m := by
    have := httl.symm.trans hm; simpa using this
  have hacc₁ : acceptance (skewEnv (.fin d)) t (sampleSend (digits F))
      (handle (skewEnv (.fin d)) 0 (.send (sampleSend (digits F))) fun _ => none).2 =
      some (sampleTriple F) := by
    refine acceptance_sample (lt_clockSkew ?_) ?_ httl
    · rw [decValue_digits, abs_le]
      have : (0 : ℚ) ≤ t := Nat.cast_nonneg t
      constructor <;> linarith
    · refine Store.get_expired hslot ?_
      simp only [Slot.live, decide_eq_false_iff_not]
      omega
  simp only [acceptances, hacc₀, hacc₁, Option.toList_some, List.append_nil]
  rfl

/-- **Exactly the narrow skews protect `/send` from replay.** -/
theorem acceptances_nodup_iff (skew : Number) :
    (∀ (env : Env) (kv : Kv) (run : List (ℕ × SendRequest)), env.cfg.maxClockSkew = skew →
      (run.map Prod.fst).Pairwise (· ≤ ·) → (acceptances env kv run).Nodup) ↔
    wideSkew skew = false := by
  constructor
  · intro h
    by_contra hw
    simp only [wideSkew, Bool.and_eq_false_imp, Classical.not_imp, Bool.not_eq_false] at hw
    obtain ⟨d, rfl⟩ := Number.isFinite_iff.1 hw.1
    have hd := Number.ofInt_le.1 hw.2
    have hdup := acceptances_sample (by exact_mod_cast hd : 30000 ≤ d.val)
    have hnodup := h (skewEnv (.fin d)) (fun _ => none)
      [(0, sampleSend (digits ⌊d.val⌋.toNat)),
        ((1000 * max 60 ⌈d.val / 1000⌉).toNat, sampleSend (digits ⌊d.val⌋.toNat))] rfl (by simp)
    rw [hdup] at hnodup
    simp at hnodup
  · rintro hs env kv run rfl ht
    exact acceptances_nodup hs run kv ht

/-- The default skew accepts a timestamp 30 seconds ahead of the clock again
    after a minute, when its replay entry is gone. -/
theorem default_skew_accepts_twice :
    ¬ (acceptances (skewEnv (.ofInt 30000)) (fun _ => none)
      [(0, sampleSend (digits 30000)), (60000, sampleSend (digits 30000))]).Nodup := by
  have h := acceptances_sample (d := .ofDigits 30000 0) (by simp)
  have hv : (Dec.ofDigits 30000 0).val = 30000 := by simp
  have hF : ⌊(Dec.ofDigits 30000 0).val⌋.toNat = 30000 := by rw [hv]; norm_num; rfl
  have hT : (1000 * max 60 ⌈(Dec.ofDigits 30000 0).val / 1000⌉).toNat = 60000 := by
    rw [hv]; norm_num; rfl
  rw [hF, hT] at h
  change ¬ (acceptances (skewEnv (.fin (.ofDigits 30000 0))) _ _).Nodup
  rw [h]
  simp

end Shard
