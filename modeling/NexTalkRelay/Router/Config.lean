/-
  The configuration of the Router as its handlers read it, and the ring of
  shards.

  * `getShardUrls` merges the static list with the shards that registered
    themselves;
  * an `Era` is a shard count that the list can serve; `eraCountsDescending`
    lists the eras that `/resolve` walks, and `replicaSetForEra` the shards of
    a point of the ring in an era.
-/
import Mathlib.Data.List.Sort
import NexTalkRelay.Lib.Merge
import NexTalkRelay.Router.Types

open Effect Js

namespace Router

/-! ## Live configuration -/

/-- A value of the administration store, if one is bound. -/
def adminGet (env : Env) (k : Key) : M (Option (Val k)) :=
  if env.adminKv then kvGet k else return none

/-- The shards that have registered themselves. -/
def getRegisteredShards (env : Env) : M (List Registered) := do
  return (← adminGet env .registeredShards).getD []

/-- The list of the store, unless it is missing or empty. -/
def baseUrls (env : Env) (stored : Option (List JString)) : List JString :=
  match stored with
  | some (url :: urls) => url :: urls
  | _ => env.shardUrls

/-- The static list, and behind it the registered shards that it lacks. -/
def getShardUrls (env : Env) : M (List JString) := do
  let base := baseUrls env (← adminGet env .shardUrls)
  let registered := (← getRegisteredShards env).map (·.url)
  return Merge.pushAbsent base registered

/-- `getShardPubkeys(env)[url]`: the last record of a URL counts. -/
def pubkeyOf (registered : List Registered) (url : JString) : Option JString :=
  (registered.reverse.find? fun s => s.url == url).map (·.pubkey)

/-- The earlier numbers of shards, as the operator has put them. -/
def getPriorShardCounts (env : Env) : M (List Json) := do
  return (← adminGet env .priorShardCounts).getD env.priorShardCounts

/-- The version in the store, if it is a number, or the configured one. -/
def getRoutingTableVersion (env : Env) : M Number := do
  match ← adminGet env .routingTableVersion with
  | some raw => return if isDigits (trim raw) then stringToNumber (trim raw) else env.routingTableVersion
  | none => return env.routingTableVersion

/-- Count a request of the bucket; the answer is whether it is allowed. -/
def adminRateLimit (env : Env) (bucketKey : JString) (limit windowSeconds : ℕ) : M Bool := do
  if !env.adminKv then return true
  else
    let now ← dateNow
    let key := Key.rl bucketKey (now / (windowSeconds * 1000))
    let current := (← kvGet key).getD 0
    if limit ≤ current then return false
    else
      kvPutFor key (current + 1 : ℕ) (windowSeconds + 5)
      return true

/-! ## The ring -/

/-- The first 32 bits of the hash of a text. -/
def hashPoint (c : Crypto) (str : JString) : ℕ :=
  ((c.sha256 (encode str)).1.take 4).foldl (fun n b => 256 * n + b.toNat) 0

/-- A shard count that the list can serve. -/
def Era (shardUrls : List JString) : Type := {n : ℕ // 0 < n ∧ n ≤ shardUrls.length}

/-- The shard at an index of the ring of the first `n` shards. -/
def Era.shard {shardUrls : List JString} (n : Era shardUrls) (i : ℕ) : JString :=
  shardUrls.get ⟨i % n.1, (Nat.mod_lt i n.2.1).trans_le n.2.2⟩

/-- The era of `n` shards, if there are as many. -/
def Era.ofInt? (shardUrls : List JString) (n : ℤ) : Option (Era shardUrls) :=
  if h : 0 < n.toNat ∧ n.toNat ≤ shardUrls.length then some ⟨n.toNat, h⟩ else none

/-- The era of the whole list. -/
def Era.current {shardUrls : List JString} (h : shardUrls ≠ []) : Era shardUrls :=
  ⟨shardUrls.length, List.length_pos_of_ne_nil h, le_rfl⟩

/-- The shard of a key in an era. -/
def ownerForEra (c : Crypto) (pubkey : JString) {shardUrls : List JString} (n : Era shardUrls) :
    JString := n.shard (hashPoint c (toLowerCase pubkey))

instance (shardUrls : List JString) : DecidableEq (Era shardUrls) :=
  inferInstanceAs (DecidableEq (Subtype _))

/-- `Number.isInteger(n)`, with its value. -/
def integer? : Json → Option ℤ
  | .num n => n.toInt?
  | _ => none

/-- The current count and the earlier ones that the list can serve, without
    repetition, the largest first. -/
def eraCountsDescending (shardUrls : List JString) (priorCounts : List Json) : List (Era shardUrls) :=
  let all := ((shardUrls.length : ℤ) :: priorCounts.filterMap integer?).filterMap
    (Era.ofInt? shardUrls)
  (Merge.pushAbsent [] all).insertionSort fun a b => b.1 ≤ a.1

/-- The number of turns of `for (let i = 0; i < r; i++)`, for an `r` that is not
    infinite. -/
def turns : Number → ℕ
  | .fin r => r.ceil.toNat
  | _ => 0

/-- The first shard of a point and those that follow it on the ring. -/
def replicaSetForEra (point : ℕ) {shardUrls : List JString} (n : Era shardUrls) (r : Number) :
    List JString :=
  (List.range (turns r)).map fun i => n.shard (point % n.1 + i)

/-- The shards of a key in an era, the owner first. -/
def replicasForEra (c : Crypto) (pubkeyOrId : JString) {shardUrls : List JString}
    (n : Era shardUrls) (r : Number) : List JString :=
  replicaSetForEra (hashPoint c (toLowerCase pubkeyOrId)) n r

/-- At least one, and at most the number of shards, unless it is no number. -/
def replicationFactor (env : Env) (n : ℕ) : Number :=
  (Number.ofInt 1).max (env.replicationFactor.min (.ofInt n))

end Router
