/-
  The record of one URL after a request.

  * `handle_recordedKey` says what a request does to the key of a URL: nothing,
    or what an accepted registration or rotation of that URL does;
  * `registered_of_ok`: a registration is answered without an error only if its
    key is recorded.
-/
import NexTalkRelay.Router.Identity

open Effect Js

namespace Router

/-- The key of a URL after an upsert. -/
theorem key_upsert (existing : List Registered) (url url' key : JString) (now : ℕ) :
    ((upsert existing url' key now).find? fun s => s.url == url).map (·.pubkey) =
      if url = url' then some key else (existing.find? fun s => s.url == url).map (·.pubkey) := by
  cases hs : existing.find? fun s => s.url == url with
  | some s =>
    rw [find_upsert hs]
    split <;> rfl
  | none =>
    unfold upsert
    split
    · next hany =>
      have hne : url ≠ url' := by
        rintro rfl
        obtain ⟨s, hmem, hurl⟩ := List.any_eq_true.1 hany
        exact List.find?_eq_none.1 hs s hmem hurl
      rw [if_neg hne, find_map_of_url fun s => by split <;> [exact (‹s.url = url'›).symm; rfl], hs]
      rfl
    · rw [List.find?_append, hs]
      by_cases hurl : url = url'
      · subst hurl
        simp
      · simp [hurl, Ne.symm hurl]

/-- The key of a URL after a rotation. -/
theorem key_replaceKey (existing : List Registered) (f : RotateFields) (url : JString) (now : ℕ) :
    ((replaceKey existing f now).find? fun s => s.url == url).map (·.pubkey) =
      ((existing.find? fun s => s.url == url).map (·.pubkey)).map fun key =>
        if url = f.shardUrl then f.newPubkey.lower else key := by
  cases hs : existing.find? fun s => s.url == url with
  | some s =>
    rw [find_replaceKey hs]
    rfl
  | none =>
    unfold replaceKey
    rw [find_map_of_url fun s => by split <;> [exact (‹s.url = f.shardUrl›).symm; rfl], hs]
    rfl

section
variable {env : Env} {answer : JString → CreateBody → Created} {t : ℕ} {rq : Request} {s : State}

theorem recordedKey_of_slot (hkv : env.adminKv = true) {kv : Kv} {l : List Registered}
    (h : kv .registeredShards = some ⟨l, none⟩) (url : JString) :
    recordedKey env kv url = (l.find? fun s => s.url == url).map (·.pubkey) := by
  unfold recordedKey registeredOf
  rw [stored_of_slot hkv h]
  rfl

theorem recordedKey_congr {kv kv' : Kv} (h : kv' .registeredShards = kv .registeredShards)
    (url : JString) : recordedKey env kv' url = recordedKey env kv url := by
  unfold recordedKey
  rw [registeredOf_congr h]

/-- **The key of a URL after a request.** -/
theorem handle_recordedKey (hd : Durable s.1) (url : JString) :
    recordedKey env (handle env answer t rq s).2.1 url = recordedKey env s.1 url ∨
      (∃ rs p, rq = .registerShard rs ∧ admitted env t rs s.1 = some p ∧
        recordedKey env (handle env answer t rq s).2.1 url =
          if url = p.1 then some p.2.lower else recordedKey env s.1 url) ∨
      ∃ body f, rq = .rotateShardKey body ∧ rotated env t body s.1 = some f ∧
        recordedKey env (handle env answer t rq s).2.1 url =
          (recordedKey env s.1 url).map fun key =>
            if url = f.shardUrl then f.newPubkey.lower else key := by
  rcases handle_cases env answer t rq hd with ⟨-, heq⟩ | ⟨-, hre⟩
  · exact Or.inl (by rw [heq])
  have hreg := hre.registered
  cases rq with
  | registerShard rs =>
    dsimp only [rewrites] at hreg
    cases had : admitted env t rs s.1 with
    | none =>
      rw [had] at hreg
      exact Or.inl (recordedKey_congr hreg url)
    | some p =>
      rw [had] at hreg
      refine Or.inr (Or.inl ⟨rs, p, rfl, had, ?_⟩)
      rw [recordedKey_of_slot (adminKv_of_admitted had) hreg, key_upsert]
      rfl
  | rotateShardKey body =>
    dsimp only [rewrites] at hreg
    cases hro : rotated env t body s.1 with
    | none =>
      rw [hro] at hreg
      exact Or.inl (recordedKey_congr hreg url)
    | some f =>
      rw [hro] at hreg
      refine Or.inr (Or.inr ⟨body, f, rfl, hro, ?_⟩)
      rw [recordedKey_of_slot (adminKv_of_rotated hro) hreg, key_replaceKey]
      rfl
  | _ => exact Or.inl (recordedKey_congr hreg url)

/-- A registration is answered without an error only if its key is recorded. -/
theorem registered_of_ok {rs : RegisterShardRequest} (hd : Durable s.1)
    (hok : (handle env answer t (.registerShard rs) s).1.status < 300) :
    ∃ p, admitted env t rs s.1 = some p ∧
      recordedKey env (handle env answer t (.registerShard rs) s).2.1 p.1 = some p.2.lower := by
  by_cases hempty : shardUrlsOf env s.1 = []
  · rw [handle_empty hd hempty] at hok
    exact jsonErr_fails (by decide) hok
  have had : admitted env t rs s.1 ≠ none := by
    rw [handle_eq hd hempty] at hok
    exact (handleRegisterShard_registered hd rs).2 hok
  obtain ⟨p, hp⟩ := Option.ne_none_iff_exists'.1 had
  rcases handle_cases env answer t (.registerShard rs) hd with ⟨heq, -⟩ | ⟨-, hre⟩
  · exact absurd heq hempty
  have hreg := hre.registered
  dsimp only [rewrites] at hreg
  rw [hp] at hreg
  exact ⟨p, hp, by rw [recordedKey_of_slot (adminKv_of_admitted hp) hreg, key_upsert, if_pos rfl]⟩

end

end Router
