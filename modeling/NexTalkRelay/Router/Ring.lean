/-
  The shard ring under requests and operator appends.

  Requests only ever let the shard list grow at its end; an operator who
  extends the static list may push the registered shards back.

  * `Event` is a request, an append to the static list, or a new list of earlier
    shard counts;
  * `Continues` is the condition on an append under which it keeps the list;
  * `ring_grows_iff` says that it is the exact one, over whole runs.
-/
import NexTalkRelay.Lib.Runs
import NexTalkRelay.Router.Topology

open Effect Js Runs

namespace Router

/-- What may change the shard list. -/
inductive Event where
  | request (t : ℕ) (rq : Request)
  /-- The operator puts a longer static list under `shard_urls`. -/
  | appendStatic (urls : List JString)
  /-- The operator puts a list under `prior_shard_counts`. -/
  | setPriorCounts (counts : List Json)

/-- The store after the operator extended the static list in force. -/
def appendStatic (env : Env) (urls : List JString) (kv : Kv) : Kv :=
  kv.put 0 .shardUrls (baseOf env kv ++ urls) none

/-- The state after an event. -/
def Event.apply (env : Env) (answer : JString → CreateBody → Created) : Event → State → State
  | request t rq, s => (handle env answer t rq s).2
  | appendStatic urls, s => (Router.appendStatic env urls s.1, s.2)
  | setPriorCounts counts, s => (s.1.put 0 .priorShardCounts counts none, s.2)

section
variable {env : Env} {answer : JString → CreateBody → Created}

/-! ## Operator appends -/

/-- The registered shards that the static list lacks. -/
def missing (env : Env) (kv : Kv) : List JString :=
  Merge.absent (baseOf env kv) (registeredUrls env kv)

/-- The static list and the registered shards grow into the same ring: what the
    operator appends and what the static list lacks continue each other. -/
def Continues (env : Env) (urls : List JString) (kv : Kv) : Prop :=
  env.adminKv = true → urls <+: missing env kv ∨ missing env kv <+: urls

theorem baseOf_append (hkv : env.adminKv = true) (urls : List JString) (kv : Kv) :
    baseOf env (appendStatic env urls kv) = baseOf env kv ++ urls := by
  have hput : stored env (appendStatic env urls kv) .shardUrls = some (baseOf env kv ++ urls) :=
    stored_of_slot hkv (Store.put_same kv 0 (k := .shardUrls) (baseOf env kv ++ urls) none)
  unfold baseOf at hput ⊢
  rw [hput]
  cases hs : baseUrls env (stored env kv .shardUrls) ++ urls with
  | cons url rest => rfl
  | nil =>
    obtain ⟨hb, -⟩ := List.append_eq_nil_iff.1 hs
    -- an empty list in the store counts as none
    unfold baseUrls at hb
    split at hb
    · cases hb
    · exact hb

theorem registeredUrls_append (urls : List JString) (kv : Kv) :
    registeredUrls env (appendStatic env urls kv) = registeredUrls env kv :=
  registeredUrls_congr
    (Store.put_other kv 0 (show Key.registeredShards ≠ .shardUrls from nofun) _ none)

/-- **Operator appends keep the list exactly under `Continues`.** -/
theorem append_grows_iff (urls : List JString) (kv : Kv) :
    shardUrlsOf env kv <+: shardUrlsOf env (appendStatic env urls kv) ↔ Continues env urls kv := by
  unfold shardUrlsOf Continues
  rw [registeredUrls_append]
  cases hkv : env.adminKv with
  | true =>
    rw [baseOf_append hkv, Merge.prefix_insert_iff]
    exact ⟨fun h _ => h, fun h => h rfl⟩
  | false =>
    have hbase : baseOf env (appendStatic env urls kv) = baseOf env kv := by
      simp only [baseOf, stored, hkv, Bool.false_eq_true, if_false]
    rw [hbase]
    exact iff_of_true List.prefix_rfl nofun

/-- The operator's lists are put without a lifetime. -/
theorem durable_put {kv : Kv} (hd : Durable kv) (k : Key) (v : Val k) :
    Durable (kv.put 0 k v none) := by
  intro k' hk e he
  by_cases h : k' = k
  · subst h
    rw [Store.put_same] at he
    cases he
    rfl
  · rw [Store.put_other kv 0 h] at he
    exact hd k' hk e he

/-! ## Runs -/

/-- The step keeps the shard list as a prefix. -/
def Grows (env : Env) (answer : JString → CreateBody → Created) (s : State) (e : Event) : Prop :=
  shardUrlsOf env s.1 <+: shardUrlsOf env (e.apply env answer s).1

instance (env : Env) (answer : JString → CreateBody → Created) (s : State) (e : Event) :
    Decidable (Grows env answer s e) := inferInstanceAs (Decidable (_ <+: _))

/-- An append to the static list continues the ring. -/
def Event.Fits (env : Env) (s : State) : Event → Prop
  | appendStatic urls => Continues env urls s.1
  | _ => True

theorem apply_durable {s : State} (hd : Durable s.1) (e : Event) :
    Durable (e.apply env answer s).1 := by
  cases e with
  | request t rq => exact handle_durable hd
  | appendStatic urls => exact durable_put hd .shardUrls _
  | setPriorCounts counts => exact durable_put hd .priorShardCounts counts

/-- **Step lemma.** -/
theorem grows_iff {s : State} (hd : Durable s.1) (e : Event) :
    Grows env answer s e ↔ e.Fits env s := by
  cases e with
  | request t rq =>
    refine iff_of_true ?_ trivial
    change shardUrlsOf env s.1 <+: shardUrlsOf env (handle env answer t rq s).2.1
    rcases handle_cases env answer t rq hd with ⟨-, h⟩ | ⟨-, h⟩
    · rw [h]
    · rw [h.shardUrls]; exact Merge.prefix_pushAbsent _ _
  | appendStatic urls => exact append_grows_iff urls s.1
  | setPriorCounts counts =>
    refine iff_of_true ?_ trivial
    change shardUrlsOf env s.1 <+: shardUrlsOf env (s.1.put 0 .priorShardCounts counts none)
    rw [shardUrlsOf_congr (Store.put_other s.1 0 (show Key.shardUrls ≠ .priorShardCounts from nofun)
        counts none)
      (Store.put_other s.1 0 (show Key.registeredShards ≠ .priorShardCounts from nofun) counts none)]

/-- **The ring is append-only exactly when the operator continues it.**  Over
    any run of requests and appends to the static list, in any order, every
    step keeps the shard list as a prefix iff every append fits the registered
    shards of that moment. -/
theorem ring_grows_iff (env : Env) (answer : JString → CreateBody → Created) {s : State}
    (hd : Durable s.1) (run : List Event) :
    Always (Event.apply env answer) (Grows env answer) s run ↔
      Always (Event.apply env answer) (fun s e => e.Fits env s) s run :=
  always_congr (I := fun s : State => Durable s.1) (fun _ e hi => apply_durable hi e)
    (fun _ e hi => grows_iff hi e) hd

end

instance (env : Env) (urls : List JString) (kv : Kv) : Decidable (Continues env urls kv) :=
  inferInstanceAs (Decidable (_ → _))

/-- A shard registers itself, the operator takes it into the static list together with
    another one, and a third one registers itself. -/
def growing : List Event :=
  (joins 7 (js "http://b") 97).map (Event.request 0) ++
    .appendStatic [js "http://b", js "http://d"] ::
    (joins 8 (js "http://c") 98).map (Event.request 0)

theorem registrations_grow : Always (Event.apply meshEnv up) (Grows meshEnv up) fresh growing ∧
    shardUrlsOf meshEnv (after (Event.apply meshEnv up) fresh growing).1 =
      [js "http://a", js "http://b", js "http://d", js "http://c"] :=
  have hfits : Continues meshEnv [js "http://b", js "http://d"]
      (after (Event.apply meshEnv up) fresh ((joins 7 (js "http://b") 97).map (Event.request 0))).1 := by
    decide +kernel
  ⟨(ring_grows_iff meshEnv up fresh_durable growing).2
    ⟨trivial, trivial, hfits, trivial, trivial, trivial⟩, by decide +kernel⟩

/-- A shard that registered itself at index 1 is pushed to index 2 by an append
    to the static list. -/
theorem append_displaces_registered : ¬ Always (Event.apply meshEnv up) (Grows meshEnv up) fresh
    ((joins 7 (js "http://b") 97).map (Event.request 0) ++ [.appendStatic [js "http://c"]]) := by
  intro h
  have hlast := h.last
  unfold Grows at hlast
  revert hlast
  decide +kernel

end Router
