/-
  The arithmetic of the ring.

  Whatever the operator lists as earlier shard counts and as replication factor, the
  eras are shard counts that the list can serve, and the replicas of an era are as
  many distinct shards of it.

  * `eraNumbers` is `eraCountsDescending` on numbers, and `eraNumbers_eq` says that the
    eras of the model are the same;
  * `copies` is the number of replicas, and `turns_replicationFactor` the number of
    turns of the loop that collects them;
  * `placement_in_range` is the whole.
-/
import Mathlib.Data.Int.ModEq
import NexTalkRelay.Router.Placement

open Effect Js

namespace Router

/-! ## The eras -/

/-- `eraCountsDescending` of the Router, on numbers: what is no integer, or is not in
    the range of the list, is left out. -/
def eraNumbers (shardUrls : List JString) (priorCounts : List Json) : List ℤ :=
  let all := ((shardUrls.length : ℤ) :: priorCounts.filterMap integer?).filter fun n : ℤ =>
    decide (0 < n ∧ n ≤ shardUrls.length)
  (Merge.pushAbsent [] all).insertionSort fun a b => b ≤ a

section

variable {shardUrls : List JString} {priorCounts : List Json}

theorem mem_eraNumbers {k : ℤ} : k ∈ eraNumbers shardUrls priorCounts ↔
    (k = shardUrls.length ∨ ∃ j ∈ priorCounts, integer? j = some k) ∧
      0 < k ∧ k ≤ shardUrls.length := by
  unfold eraNumbers
  rw [List.mem_insertionSort, Merge.mem_pushAbsent]
  simp only [List.not_mem_nil, false_or, List.mem_filter, List.mem_cons, List.mem_filterMap,
    decide_eq_true_eq]

theorem eraNumbers_pairwise : (eraNumbers shardUrls priorCounts).Pairwise fun a b => b < a := by
  unfold eraNumbers
  dsimp only
  generalize List.filter (fun n : ℤ => decide (0 < n ∧ n ≤ shardUrls.length)) _ = all
  have htotal : Std.Total fun a b : ℤ => b ≤ a := ⟨fun a b => le_total b a⟩
  have htrans : IsTrans ℤ fun a b => b ≤ a := ⟨fun a b c h h' => h'.trans h⟩
  have hsorted := List.pairwise_insertionSort (fun a b : ℤ => b ≤ a) (Merge.pushAbsent [] all)
  have hnodup : ((Merge.pushAbsent [] all).insertionSort fun a b => b ≤ a).Nodup :=
    (List.perm_insertionSort _ _).nodup_iff.2 (Merge.nodup_pushAbsent List.nodup_nil)
  exact (hsorted.and hnodup).imp fun h => lt_of_le_of_ne h.1 fun he => h.2 he.symm

/-- The eras of the model are those numbers. -/
theorem eraNumbers_eq : (eraCountsDescending shardUrls priorCounts).map (fun n => (n.1 : ℤ)) =
    eraNumbers shardUrls priorCounts := by
  have hsorted : ((eraCountsDescending shardUrls priorCounts).map fun n => (n.1 : ℤ)).Pairwise
      fun a b => b < a := by
    rw [List.pairwise_map]
    refine (eraCountsDescending_pairwise shardUrls priorCounts).imp fun h => ?_
    exact_mod_cast h
  have hne {l : List ℤ} (h : l.Pairwise fun a b => b < a) : l.Nodup :=
    h.imp fun h => (ne_of_lt h).symm
  have hmem (k : ℤ) : k ∈ (eraCountsDescending shardUrls priorCounts).map (fun n => (n.1 : ℤ)) ↔
      k ∈ eraNumbers shardUrls priorCounts := by
    rw [List.mem_map, mem_eraNumbers]
    constructor
    · rintro ⟨n, hn, rfl⟩
      have hpos := n.2.1
      have hle := n.2.2
      refine ⟨?_, by exact_mod_cast hpos, by exact_mod_cast hle⟩
      rcases mem_eraCountsDescending.1 hn with h | h
      · exact Or.inl (by exact_mod_cast h)
      · exact Or.inr h
    · rintro ⟨hk, hpos, hle⟩
      obtain ⟨m, rfl⟩ := Int.eq_ofNat_of_zero_le hpos.le
      obtain ⟨n, hn⟩ : ∃ n : Era shardUrls, n.1 = m :=
        ⟨⟨m, by exact_mod_cast hpos, by exact_mod_cast hle⟩, rfl⟩
      refine ⟨n, mem_eraCountsDescending.2 ?_, by rw [hn]⟩
      rw [hn]
      rcases hk with h | h
      · exact Or.inl (by exact_mod_cast h)
      · exact Or.inr h
  have hperm := (List.perm_ext_iff_of_nodup (hne hsorted) (hne eraNumbers_pairwise)).2 hmem
  refine hperm.eq_of_pairwise (fun a b _ _ hab hba => ?_) hsorted eraNumbers_pairwise
  omega

end

/-! ## The replicas -/

/-- The number of replicas in an era of `n` shards. -/
def copies (factor : Number) (n : ℕ) : ℕ :=
  match factor with
  | .nan => 0
  | .inf negative => if negative then 1 else n
  | .fin d => (max 1 (min d.ceil n)).toNat

theorem turns_fin (d : Dec) : turns (.fin d) = ⌈d.val⌉.toNat := by
  rw [← Dec.ceil_eq]
  rfl

theorem turns_ofInt (n : ℕ) : turns (.ofInt n) = n := by
  rw [Number.ofInt, turns_fin]
  simp

theorem turns_max_one {a : Number} {n : ℕ} (hturns : turns a = n)
    (hlt : (Number.ofInt 1).lt a = false → n = 1) (hnan : a ≠ .nan) :
    turns ((Number.ofInt 1).max a) = n := by
  rw [Number.max, if_neg (by simp [hnan, Number.ofInt])]
  split
  · exact hturns
  · next h =>
    rw [hlt (Bool.not_eq_true _ ▸ h)]
    exact turns_ofInt 1

theorem turns_replicationFactor (env : Env) {n : ℕ} (hn : 0 < n) :
    turns (replicationFactor env n) = copies env.replicationFactor n := by
  have hall : turns ((Number.ofInt 1).max (.ofInt n)) = n := by
    refine turns_max_one (turns_ofInt n) (fun h => ?_) (by simp [Number.ofInt])
    have := mt Number.ofInt_lt_ofInt.2 (Bool.not_eq_true _ ▸ h)
    omega
  unfold replicationFactor copies
  cases hf : env.replicationFactor with
  | nan => simp [Number.min, Number.max, turns]
  | inf negative =>
    cases negative with
    | true =>
      have hmin : (Number.inf true).min (.ofInt n) = .inf true := rfl
      rw [hmin]
      exact turns_ofInt 1
    | false =>
      have hmin : (Number.inf false).min (.ofInt n) = .ofInt n := rfl
      rw [hmin]
      exact hall
  | fin d =>
    dsimp only
    rw [Number.min, if_neg (by simp [Number.ofInt])]
    by_cases hlt : (Number.fin d).lt (.ofInt n) = true
    · have hval := Number.lt_ofInt.1 hlt
      have hceil : ⌈d.val⌉ ≤ n := Int.ceil_le.2 hval.le
      rw [if_pos hlt, Number.max, if_neg (by simp [Number.ofInt]), Dec.ceil_eq]
      by_cases hone : (Number.ofInt 1).lt (.fin d) = true
      · have hpos : 1 < ⌈d.val⌉ := Int.lt_ceil.2 (Number.ofInt_lt.1 hone)
        rw [if_pos hone, turns_fin]
        omega
      · have hle : ⌈d.val⌉ ≤ 1 := Int.ceil_le.2 (not_lt.1 (mt Number.ofInt_lt.2 hone))
        rw [if_neg hone, show turns (.ofInt 1) = 1 from turns_ofInt 1]
        omega
    · have hle : (n : ℚ) ≤ d.val := by
        have := mt Number.lt_ofInt.2 hlt
        push_cast at this
        exact not_lt.1 this
      have hceil : (n : ℤ) ≤ ⌈d.val⌉ := by
        have := hle.trans (Int.le_ceil d.val)
        exact_mod_cast this
      rw [if_neg hlt, hall, Dec.ceil_eq]
      omega

theorem copies_pos {factor : Number} (h : factor ≠ .nan) {n : ℕ} (hn : 0 < n) :
    0 < copies factor n := by
  unfold copies
  cases factor with
  | nan => exact absurd rfl h
  | inf negative => cases negative <;> simp [hn]
  | fin d =>
    dsimp only
    omega

theorem copies_le (factor : Number) {n : ℕ} (hn : 0 < n) : copies factor n ≤ n := by
  unfold copies
  cases factor with
  | nan => exact Nat.zero_le n
  | inf negative =>
    cases negative with
    | true => exact hn
    | false => exact le_rfl
  | fin d =>
    dsimp only
    omega

/-- A larger factor gives no fewer replicas. -/
theorem copies_mono {f g : Number} (h : f.le g = true) {n : ℕ} (hn : 0 < n) :
    copies f n ≤ copies g n := by
  unfold copies
  cases f with
  | nan => exact Nat.zero_le _
  | inf a =>
    cases g with
    | nan => cases a <;> cases h
    | inf b =>
      cases a with
      | true =>
        cases b with
        | true => exact le_rfl
        | false => exact hn
      | false =>
        cases b with
        | true => cases h
        | false => exact le_rfl
    | fin d =>
      cases a with
      | true =>
        dsimp only
        rw [if_pos rfl]
        omega
      | false => cases h
  | fin d =>
    cases g with
    | nan => cases h
    | inf b =>
      cases b with
      | true => cases h
      | false =>
        dsimp only
        rw [if_neg Bool.false_ne_true]
        omega
    | fin e =>
      have hval : d.val ≤ e.val := of_decide_eq_true h
      have hceil : d.ceil ≤ e.ceil := by
        rw [Dec.ceil_eq, Dec.ceil_eq]
        exact Int.ceil_mono hval
      dsimp only
      omega

section

variable {shardUrls : List JString} (point : ℕ) (n : Era shardUrls)

theorem shard_injective (hurls : shardUrls.Nodup) {i j : ℕ} (hi : i < n.1) (hj : j < n.1)
    (h : n.shard (point % n.1 + i) = n.shard (point % n.1 + j)) : i = j := by
  unfold Era.shard at h
  have hindex := (List.Nodup.get_inj_iff hurls).1 h
  have hmod : (point % n.1 + i) % n.1 = (point % n.1 + j) % n.1 := congrArg Fin.val hindex
  have hcancel : Nat.ModEq n.1 i j := Nat.ModEq.add_left_cancel' (point % n.1) hmod
  rwa [Nat.ModEq, Nat.mod_eq_of_lt hi, Nat.mod_eq_of_lt hj] at hcancel

theorem shard_mem_take (i : ℕ) : n.shard i ∈ shardUrls.take n.1 := by
  have hlt := Nat.mod_lt i n.2.1
  rw [List.mem_take_iff_getElem]
  refine ⟨i % n.1, ?_, rfl⟩
  have := n.2.2
  omega

/-- As many replicas as fit on the ring are distinct. -/
theorem nodup_replicaSetForEra (hurls : shardUrls.Nodup) {r : Number} (hr : turns r ≤ n.1) :
    (replicaSetForEra point n r).Nodup := by
  unfold replicaSetForEra
  refine List.Nodup.map_on ?_ List.nodup_range
  intro i hi j hj h
  rw [List.mem_range] at hi hj
  exact shard_injective point n hurls (by omega) (by omega) h

theorem prefix_replicaSetForEra {r r' : Number} (h : turns r ≤ turns r') :
    replicaSetForEra point n r <+: replicaSetForEra point n r' := by
  unfold replicaSetForEra
  refine List.IsPrefix.map (f := fun i => n.shard (point % n.1 + i)) ?_
  rw [List.prefix_iff_eq_take, List.length_range, List.take_range, min_eq_left h]

end

/-- **Placement is in range.** -/
theorem placement_in_range {shardUrls : List JString} (hne : shardUrls ≠ [])
    (hurls : shardUrls.Nodup) (priorCounts : List Json) (point : ℕ) :
    ((eraNumbers shardUrls priorCounts).head? = some (shardUrls.length : ℤ) ∧
      (eraNumbers shardUrls priorCounts).Pairwise (fun a b => b < a) ∧
      ∀ k ∈ eraNumbers shardUrls priorCounts, 1 ≤ k ∧ k ≤ shardUrls.length) ∧
    (eraCountsDescending shardUrls priorCounts).map (fun n => (n.1 : ℤ)) =
      eraNumbers shardUrls priorCounts ∧
    ∀ n ∈ eraCountsDescending shardUrls priorCounts, ∀ env : Env, env.replicationFactor ≠ .nan →
      (∃ rest, replicaSetForEra point n (replicationFactor env n.1) = n.shard point :: rest) ∧
      shardUrls[point % n.1]? = some (n.shard point) ∧
      (replicaSetForEra point n (replicationFactor env n.1)).Nodup ∧
      (∀ url ∈ replicaSetForEra point n (replicationFactor env n.1), url ∈ shardUrls.take n.1) ∧
      ∀ larger : Env, env.replicationFactor.le larger.replicationFactor = true →
        replicaSetForEra point n (replicationFactor env n.1) <+:
          replicaSetForEra point n (replicationFactor larger n.1) := by
  have hlen : 0 < shardUrls.length := List.length_pos_of_ne_nil hne
  have hlast : (shardUrls.length : ℤ) ∈ eraNumbers shardUrls priorCounts :=
    mem_eraNumbers.2 ⟨Or.inl rfl, by omega, le_rfl⟩
  have hrange : ∀ k ∈ eraNumbers shardUrls priorCounts, 1 ≤ k ∧ k ≤ shardUrls.length := by
    intro k hk
    have := (mem_eraNumbers.1 hk).2
    omega
  refine ⟨⟨?_, eraNumbers_pairwise, hrange⟩, eraNumbers_eq, ?_⟩
  · have hsorted := @eraNumbers_pairwise shardUrls priorCounts
    cases hl : eraNumbers shardUrls priorCounts with
    | nil =>
      rw [hl] at hlast
      cases hlast
    | cons k rest =>
      rw [hl] at hlast hsorted hrange
      -- the largest is the current count, which is among them
      have hk := (hrange k List.mem_cons_self).2
      rcases List.mem_cons.1 hlast with h | h
      · rw [h, List.head?_cons]
      · have := List.rel_of_pairwise_cons hsorted h
        omega
  · intro n _ env hnan
    have hturns := turns_replicationFactor env n.2.1
    have hpos := copies_pos hnan n.2.1
    have hle := copies_le env.replicationFactor n.2.1
    refine ⟨?_, n.getElem?_shard point, ?_, ?_, ?_⟩
    · obtain ⟨m, hm⟩ : ∃ m, turns (replicationFactor env n.1) = m + 1 :=
        ⟨copies env.replicationFactor n.1 - 1, by omega⟩
      unfold replicaSetForEra
      rw [hm, List.range_succ_eq_map, List.map_cons, Nat.add_zero, Era.shard_mod]
      exact ⟨_, rfl⟩
    · exact nodup_replicaSetForEra point n hurls (by omega)
    · intro url hurl
      obtain ⟨i, -, rfl⟩ := List.mem_map.1 hurl
      exact shard_mem_take n _
    · intro larger hfactor
      apply prefix_replicaSetForEra
      rw [hturns, turns_replicationFactor larger n.2.1]
      exact copies_mono hfactor n.2.1

/-! Two shards, of which the first was alone. -/

/-- Two shards. -/
def twoShards : List JString := [js "http://a", js "http://b"]

/-- Earlier counts, some of which are no era of two shards. -/
def priors : List Json := [.num (.ofInt 0), .num (.ofInt 1), .num (.ofInt 1), .num (.ofInt 7)]

/-- The current era. -/
def both : Era twoShards := ⟨2, by decide⟩

theorem twoShards_in_range :
    ((eraNumbers twoShards priors).head? = some 2 ∧
      (eraNumbers twoShards priors).Pairwise (fun a b => b < a)) ∧
    (∃ rest, replicaSetForEra 3 both (replicationFactor meshEnv 2) = both.shard 3 :: rest) ∧
    replicaSetForEra 3 both (replicationFactor meshEnv 2) <+:
      replicaSetForEra 3 both
        (replicationFactor { meshEnv with replicationFactor := .inf false } 2) := by
  obtain ⟨⟨hhead, hsorted, -⟩, -, heras⟩ :=
    @placement_in_range twoShards (by decide) (by decide) priors 3
  obtain ⟨hprimary, -, -, -, hlonger⟩ :=
    heras both (mem_eraCountsDescending.2 (Or.inl rfl)) meshEnv (by decide)
  exact ⟨⟨hhead, hsorted⟩, hprimary, hlonger _ (by decide)⟩

end Router
