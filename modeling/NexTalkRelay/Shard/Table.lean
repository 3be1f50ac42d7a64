/-
  The routing table that a shard caches.

  * `Accepts` says of a pushed document that the Router signed it, that it names
    a shard, and that it has not expired;
  * `handleRoutingTablePush_run`: exactly the accepted documents are cached.
-/
import NexTalkRelay.Shard.Spec

open Effect Js

namespace Shard

/-- The part of a document that is signed. -/
def unsigned (doc : Json) : Json := without (js "signature") doc

/-- `Number(unsigned.expires_at)` -/
def expiresAt (doc : Json) : Option Number := numberOf ((unsigned doc).field (js "expires_at"))

/-- The signature of the Router on the document verifies. -/
def RouterSigned (env : Env) (doc : Json) : Prop :=
  ∃ signature : HexStr 128 128, hexField 128 128 (doc.field (js "signature")) = some signature ∧
    verifyEd25519Message env.crypto env.routerSigningPublic (unsigned doc).stringify signature.1 = true

/-- The document has not expired at the instant `t`. -/
def Unexpired (t : ℕ) (doc : Json) : Prop :=
  ∃ x, expiresAt doc = some x ∧ x.isFinite = true ∧ x.lt (.ofInt t) = false

/-- What a shard caches. -/
structure Accepts (env : Env) (t : ℕ) (doc : Json) : Prop where
  signed : RouterSigned env doc
  urls : ∃ us, Json.asArr? ((unsigned doc).field (js "shard_urls")) = some us ∧ us ≠ []
  unexpired : Unexpired t doc

/-- The check of a pushed document. -/
def tableFields (body : Option Json) : Check Response (Json × HexStr 128 128 × Number) := do
  let doc ← Check.orAnswer body notJson
  let signature ← Check.orAnswer (hexField 128 128 (doc.field (js "signature")))
    (err (js "signature must be a 128-char hex Ed25519 signature") 400)
  Check.require (((Json.asArr? ((unsigned doc).field (js "shard_urls"))).map fun us =>
    !us.isEmpty).getD false) (err (js "shard_urls must be a non-empty array") 400)
  let x ← Check.orCrash (expiresAt doc)
  Check.require x.isFinite (err (js "expires_at is required") 400)
  return (doc, signature, x)

theorem tableFields_answers {Q : Response → Prop} (hbad : ∀ message, Q (err message))
    (body : Option Json) : (tableFields body).Answers Q := by
  refine (Check.answers_orAnswer (hbad _) _).bind fun doc => ?_
  refine (Check.answers_orAnswer (hbad _) _).bind fun signature => ?_
  refine (Check.answers_require (hbad _) _).bind fun _ => ?_
  refine (Check.answers_orCrash Q _).bind fun x => ?_
  exact (Check.answers_require (hbad _) _).bind fun _ => Check.answers_ok Q _

theorem tableFields_ok {body : Option Json} {doc : Json} {signature : HexStr 128 128} {x : Number} :
    tableFields body = .ok (doc, signature, x) ↔
      body = some doc ∧ hexField 128 128 (doc.field (js "signature")) = some signature ∧
        (∃ us, Json.asArr? ((unsigned doc).field (js "shard_urls")) = some us ∧ us ≠ []) ∧
        expiresAt doc = some x ∧ x.isFinite = true := by
  have hurls (o : Option (List Json)) : (o.map fun us => !us.isEmpty).getD false = true ↔
      ∃ us, o = some us ∧ us ≠ [] := by cases o <;> simp
  simp only [tableFields, Check.orAnswer_bind, Check.require_bind, Check.orCrash_bind, hurls]
  constructor
  · rintro ⟨doc', rfl, sig', hsig, hus, x', hx, hfin, h⟩
    cases h
    exact ⟨rfl, hsig, hus, hx, hfin⟩
  · rintro ⟨rfl, hsig, hus, hx, hfin⟩
    exact ⟨doc, rfl, signature, hsig, hus, x, hx, hfin, rfl⟩

/-- A document is cached if its signature verifies and it has not expired. -/
def cacheTable (env : Env) (p : Json × HexStr 128 128 × Number) : M Response := do
  if !verifyEd25519Message env.crypto env.routerSigningPublic (unsigned p.1).stringify p.2.1.1 then
    return err (js "routing table signature verification failed") 401
  else
    let now ← dateNow
    if p.2.2.lt (.ofInt now) then return err (js "pushed routing table is already expired") 400
    else
      kvPutForever .routingTable p.1
      return json (.cached ((unsigned p.1).field (js "version")))

theorem handleRoutingTablePush_eq (env : Env) (body : Option Json) :
    handleRoutingTablePush env body = guarded (tableFields body) (cacheTable env) := by
  refine guarded_bind_congr fun doc => guarded_bind_congr fun sig => ?_
  exact guarded_bind_congr fun _ => guarded_bind_congr fun x => guarded_bind_congr fun _ => rfl

/-- **Exactly the accepted documents are cached.** -/
theorem handleRoutingTablePush_run (env : Env) (t : ℕ) (kv : Kv) (log : List Service)
    (body : Option Json) :
    ∃ o kv', (handleRoutingTablePush env body).run (KvOp.exec t (services env.crypto)) (kv, log) =
        (o, (kv', log)) ∧
      ((∃ doc, body = some doc ∧ Accepts env t doc ∧
          o = some (json (.cached ((unsigned doc).field (js "version")))) ∧
          kv' = kv.put t .routingTable doc none) ∨
        (∀ doc, body = some doc → ¬ Accepts env t doc) ∧ kv' = kv ∧ ∀ r ∈ o, r.Refusal) := by
  have hbad (message : JString) {status : ℕ} (h : status ≠ 200) : ∀ r ∈ some (err message status),
      r.Refusal := by rintro _ ⟨⟩; exact refusal_err message h none
  rw [handleRoutingTablePush_eq]
  cases hf : tableFields body with
  | error e =>
    have hno : ∀ doc, body = some doc → ¬ Accepts env t doc := by
      rintro doc rfl ⟨⟨sig, hsig, -⟩, hus, x, hx, hfin, -⟩
      cases hf.symm.trans (tableFields_ok.2 ⟨rfl, hsig, hus, hx, hfin⟩)
    cases e with
    | crash => exact ⟨none, kv, rfl, Or.inr ⟨hno, rfl, by rintro _ ⟨⟩⟩⟩
    | answer r =>
      refine ⟨some r, kv, rfl, Or.inr ⟨hno, rfl, ?_⟩⟩
      rintro _ ⟨⟩
      exact tableFields_answers refusal_bad body r hf
  | ok p =>
    obtain ⟨doc, sig, x⟩ := p
    obtain ⟨rfl, hsig, hus, hx, hfin⟩ := tableFields_ok.1 hf
    have hiff : Accepts env t doc ↔
        verifyEd25519Message env.crypto env.routerSigningPublic (unsigned doc).stringify sig.1 = true ∧
          x.lt (.ofInt t) = false := by
      constructor
      · rintro ⟨⟨sig', hsig', hv⟩, -, x', hx', -, hlt⟩
        obtain rfl : sig = sig' := Option.some.inj (hsig.symm.trans hsig')
        obtain rfl : x = x' := Option.some.inj (hx.symm.trans hx')
        exact ⟨hv, hlt⟩
      · rintro ⟨hv, hlt⟩
        exact ⟨⟨sig, hsig, hv⟩, hus, x, hx, hfin, hlt⟩
    dsimp only [guarded, cacheTable]
    cases hv : verifyEd25519Message env.crypto env.routerSigningPublic (unsigned doc).stringify
        sig.1 with
    | false =>
      refine ⟨_, kv, rfl, Or.inr ⟨?_, rfl, hbad _ (by decide)⟩⟩
      rintro _ ⟨⟩ hacc
      cases hv.symm.trans (hiff.1 hacc).1
    | true =>
      simp only [dateNow, Prog.bind_eq, Prog.perform_bind, Bool.not_true, Bool.false_eq_true,
        if_false, KvOp.run_now]
      cases hlt : x.lt (.ofInt t) with
      | true =>
        refine ⟨_, kv, rfl, Or.inr ⟨?_, rfl, hbad _ (by decide)⟩⟩
        rintro _ ⟨⟩ hacc
        cases hlt.symm.trans (hiff.1 hacc).2
      | false => exact ⟨_, _, rfl, Or.inl ⟨doc, rfl, hiff.2 ⟨hv, hlt⟩, rfl, rfl⟩⟩

/-! ## The cache -/

/-- The table that a shard has cached. -/
def cachedTable (kv : Kv) : Option Json := (kv .routingTable).map Slot.val

/-- A handler that writes rate limits, replay entries, its own mailbox and the
    identity of the shard spares the cached table. -/
theorem gated_spares_table {α : Type} {c : Check Response α} {gate : α → M Verdict}
    {act : α → M Response} {id : α → JString} (hg : ∀ a, (gate a).Only (KvOp.Writes Gate))
    (ha : ∀ a, (act a).Only (KvOp.Writes (Own (id a)))) :
    (guarded c fun a => gated (gate a) (act a)).Only (KvOp.Spares .routingTable) := by
  refine guarded_only fun a _ => gated_only ?_ ?_
  · refine (hg a).mono fun o ho => ho.mono ?_
    rintro k hk rfl
    exact hk
  · refine (ha a).mono fun o ho => ho.mono ?_
    rintro k hk rfl
    exact hk

theorem fetch_spares_table (env : Env) {rq : Request} (h : ∀ body, rq ≠ .routingTablePush body) :
    (fetch env rq).Only (KvOp.Spares .routingTable) := by
  cases rq with
  | create rq => exact gated_spares_table (createGate_writes env rq.ip) (createMailbox_writes env)
  | exists_ rq =>
    exact gated_spares_table (fun _ => existsGate_writes rq.ip)
      fun id => existsMailbox_writes (S := Own id.lower) id
  | send rq => exact gated_spares_table (sendGate_writes env rq.ip) (sendMailbox_writes env rq)
  | read rq =>
    exact gated_spares_table (fun _ => readGate_writes rq.ip) (readMailbox_writes env rq)
  | replicate rq =>
    exact gated_spares_table (replicateGate_writes env) (replicateMailbox_writes env)
  | routingTablePush body => exact absurd rfl (h body)
  | routingTableServe =>
    refine ⟨trivial, fun table => ?_⟩
    cases table <;> trivial

end Shard
