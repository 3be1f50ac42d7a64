/-
  Clients of a server, over a network that delays, reorders and loses messages.

  The clients are the processes of a pool, and some of their operations are calls
  of the server.  A call is under way from the moment when it is the next
  operation of its client: its request arrives at any later time or never, and so
  does the answer, unless the client has given up before.  A request that its
  client has given up may still arrive.

  * `Net.step` is one local operation, one arrival or one loss;
  * `Net.Moved` says all that a step can do, `Net.step_follow` that the clients
    go on following their rules, and `Net.step_awaited` that answers go only to
    clients that make a call.
-/
import NexTalkRelay.Lib.Interleave
import NexTalkRelay.Lib.Store

namespace Effect

/-- The services at the side of the clients and the server at the other, and what a
    client that gives up is told. -/
structure Sides (E C : Type) (R : E → Type) (A σ ρ τ ε : Type) where
  services : Prog.Handler E R σ
  serve : τ → C → ρ → A × ρ
  lost : ε → A

/-- The clients, the server, the answers on their way back, and the requests on
    their way whose clients no longer wait. -/
structure Net (ι K : Type) (V : K → Type) (E C : Type) (R : E → Type) (A α σ ρ μ : Type) where
  clients : Pool ι (KvOp K V (E ⊕ C)) (KvOp.Res (Sum.elim R fun _ => A)) α (Store K V × σ) μ
  server : ρ
  answers : ι → Option A
  strays : List C

variable {ι K E C A α σ ρ τ ε μ : Type} {V : K → Type} {R : E → Type}

/-- The services of the clients, and an answer of the server. -/
def Sides.answering (S : Sides E C R A σ ρ τ ε) (a : Option A) :
    Prog.Handler (E ⊕ C) (Sum.elim R fun _ => A) σ
  | .inl e, s => S.services e s
  | .inr _, s => (a, s)

namespace Net

/-- The events of clients that share a server. -/
inductive Event (ι τ ε : Type) where
  /-- A client performs an operation of its own. -/
  | act (i : ι) (t : ℕ)
  /-- The request of a client reaches the server. -/
  | deliver (i : ι) (x : τ)
  /-- The answer to a client reaches it. -/
  | receive (i : ι)
  /-- A client waits no longer. -/
  | giveUp (i : ι) (e : ε)
  /-- A request whose client no longer waits reaches the server. -/
  | arrive (n : ℕ) (x : τ)
  /-- Such a request is lost. -/
  | lose (n : ℕ)

/-- The operation is a call of the server. -/
def IsCall : KvOp K V (E ⊕ C) → Prop
  | .call (.inr _) => True
  | _ => False

section
variable [DecidableEq ι] [DecidableEq K] (S : Sides E C R A σ ρ τ ε)
  (note : μ → (o : KvOp K V (E ⊕ C)) → KvOp.Res (Sum.elim R fun _ => A) o → μ)

/-- Client `i` goes on with the answer `a` to its call. -/
def resume (i : ι) (a : A)
    (P : Pool ι (KvOp K V (E ⊕ C)) (KvOp.Res (Sum.elim R fun _ => A)) α (Store K V × σ) μ) :
    Pool ι (KvOp K V (E ⊕ C)) (KvOp.Res (Sum.elim R fun _ => A)) α (Store K V × σ) μ :=
  Pool.step note (fun _ : Unit => KvOp.exec 0 (S.answering (some a))) (i, ()) P

/-- What happens at an event; where it is impossible, nothing. -/
def step (e : Event ι τ ε) (N : Net ι K V E C R A α σ ρ μ) : Net ι K V E C R A α σ ρ μ :=
  match e with
  | .act i t =>
    match N.clients.prog i with
    | .op (.call (.inr _)) _ => N
    | _ =>
      { N with
        clients := Pool.step note (fun t => KvOp.exec t (S.answering none)) (i, t) N.clients }
  | .deliver i x =>
    match N.clients.prog i, N.answers i with
    | .op (.call (.inr c)) _, none =>
      { N with
        server := (S.serve x c N.server).2
        answers := Function.update N.answers i (some (S.serve x c N.server).1) }
    | _, _ => N
  | .receive i =>
    match N.clients.prog i, N.answers i with
    | .op (.call (.inr _)) _, some a =>
      { N with clients := resume S note i a N.clients, answers := Function.update N.answers i none }
    | _, _ => N
  | .giveUp i e =>
    match N.clients.prog i with
    | .op (.call (.inr c)) _ =>
      { N with
        clients := resume S note i (S.lost e) N.clients
        answers := Function.update N.answers i none
        strays := if (N.answers i).isNone then c :: N.strays else N.strays }
    | _ => N
  | .arrive n x =>
    match N.strays[n]? with
    | some c => { N with server := (S.serve x c N.server).2, strays := N.strays.eraseIdx n }
    | none => N
  | .lose n => { N with strays := N.strays.eraseIdx n }

variable {S note} {N : Net ι K V E C R A α σ ρ μ}

/-- **What a step can do.** -/
inductive Moved (S : Sides E C R A σ ρ τ ε)
    (note : μ → (o : KvOp K V (E ⊕ C)) → KvOp.Res (Sum.elim R fun _ => A) o → μ)
    (N : Net ι K V E C R A α σ ρ μ) :
    Event ι τ ε → Net ι K V E C R A α σ ρ μ → Prop where
  | idle (e : Event ι τ ε) : Moved S note N e N
  | acted {i : ι} {t : ℕ} {o k r s} (hp : N.clients.prog i = .op o k) (hlocal : ¬ IsCall o)
      (ho : KvOp.exec t (S.answering none) o N.clients.shared = (some r, s)) :
      Moved S note N (.act i t)
        { N with
          clients :=
            { shared := s
              prog := Function.update N.clients.prog i (k r)
              memory := Function.update N.clients.memory i (note (N.clients.memory i) o r) } }
  | threw {i : ι} {t : ℕ} {o k s} (hp : N.clients.prog i = .op o k) (hlocal : ¬ IsCall o)
      (ho : KvOp.exec t (S.answering none) o N.clients.shared = (none, s)) :
      Moved S note N (.act i t)
        { N with
          clients :=
            { N.clients with shared := s, prog := Function.update N.clients.prog i .throw } }
  | delivered {i : ι} {x : τ} {c k} (hp : N.clients.prog i = .op (.call (.inr c)) k)
      (ha : N.answers i = none) :
      Moved S note N (.deliver i x)
        { N with
          server := (S.serve x c N.server).2
          answers := Function.update N.answers i (some (S.serve x c N.server).1) }
  | received {i : ι} {c k a} (hp : N.clients.prog i = .op (.call (.inr c)) k)
      (ha : N.answers i = some a) :
      Moved S note N (.receive i)
        { N with
          clients :=
            { shared := N.clients.shared
              prog := Function.update N.clients.prog i (k a)
              memory :=
                Function.update N.clients.memory i (note (N.clients.memory i) (.call (.inr c)) a) }
          answers := Function.update N.answers i none }
  | gaveUp {i : ι} {e : ε} {c k} (hp : N.clients.prog i = .op (.call (.inr c)) k) :
      Moved S note N (.giveUp i e)
        { N with
          clients :=
            { shared := N.clients.shared
              prog := Function.update N.clients.prog i (k (S.lost e))
              memory := Function.update N.clients.memory i
                (note (N.clients.memory i) (.call (.inr c)) (S.lost e)) }
          answers := Function.update N.answers i none
          strays := if (N.answers i).isNone then c :: N.strays else N.strays }
  | arrived {n : ℕ} {x : τ} {c} (hc : N.strays[n]? = some c) :
      Moved S note N (.arrive n x)
        { N with server := (S.serve x c N.server).2, strays := N.strays.eraseIdx n }
  | lost {n : ℕ} : Moved S note N (.lose n) { N with strays := N.strays.eraseIdx n }

theorem resume_eq {i : ι} {c : C} {k} (hp : N.clients.prog i = .op (.call (.inr c)) k) (a : A) :
    resume S note i a N.clients =
      { shared := N.clients.shared
        prog := Function.update N.clients.prog i (k a)
        memory := Function.update N.clients.memory i (note (N.clients.memory i) (.call (.inr c)) a) } := by
  unfold resume Pool.step
  simp only [hp]
  rfl

theorem moved (e : Event ι τ ε) : Moved S note N e (step S note e N) := by
  cases e with
  | act i t =>
    unfold step
    dsimp only
    split
    · exact .idle _
    · next hcall =>
      have hlocal {o k} (hp : N.clients.prog i = .op o k) : ¬ IsCall o := by
        intro ho
        cases o with
        | call c =>
          cases c with
          | inl c => exact ho
          | inr c => exact hcall c k hp
        | _ => exact ho
      rcases Pool.step_cases note (fun t => KvOp.exec t (S.answering none)) N.clients (i, t) with
        heq | ⟨o, k, s, hp, ⟨r, ho, heq⟩ | ⟨ho, heq⟩⟩ <;> rw [heq]
      · exact .idle _
      · exact .acted hp (hlocal hp) ho
      · exact .threw hp (hlocal hp) ho
  | deliver i x =>
    unfold step
    dsimp only
    split
    · next hp ha => exact .delivered hp ha
    · exact .idle _
  | receive i =>
    unfold step
    dsimp only
    split
    · next hp ha => rw [resume_eq hp]; exact .received hp ha
    · exact .idle _
  | giveUp i e =>
    unfold step
    dsimp only
    split
    · next hp => rw [resume_eq hp]; exact .gaveUp hp
    · exact .idle _
  | arrive n x =>
    unfold step
    dsimp only
    split
    · next hc => exact .arrived hc
    · exact .idle _
  | lose n => exact .lost

/-- The clients follow their rules. -/
theorem step_follow {ok : ι → μ → KvOp K V (E ⊕ C) → Prop} {fin : ι → μ → α → Prop}
    (hN : N.clients.Follow note ok fin) (e : Event ι τ ε) :
    (step S note e N).clients.Follow note ok fin := by
  cases e with
  | act i t =>
    unfold step
    dsimp only
    split
    · exact hN
    · exact hN.step
  | deliver i x =>
    unfold step
    dsimp only
    split <;> exact hN
  | receive i =>
    unfold step
    dsimp only
    split
    · exact hN.step
    · exact hN
  | giveUp i e =>
    unfold step
    dsimp only
    split
    · exact hN.step
    · exact hN
  | arrive n x =>
    unfold step
    dsimp only
    split <;> exact hN
  | lose n => exact hN

/-- What holds of every program and all its continuations goes on holding. -/
theorem step_progs {I : ι → Prog (KvOp K V (E ⊕ C)) (KvOp.Res (Sum.elim R fun _ => A)) α → Prop}
    (hop : ∀ i o k r, I i (.op o k) → I i (k r)) (hthrow : ∀ i, I i .throw)
    (hN : ∀ i, I i (N.clients.prog i)) (e : Event ι τ ε) (i : ι) :
    I i ((step S note e N).clients.prog i) := by
  have hupdate {j : ι} {q} (hq : I j q) : I i (Function.update N.clients.prog j q i) := by
    by_cases hij : i = j
    · subst hij
      rwa [Function.update_self]
    · rw [Function.update_of_ne hij]
      exact hN i
  have hm : Moved S note N e _ := moved e
  generalize step S note e N = N' at hm
  cases hm with
  | idle | delivered _ _ | arrived _ | lost => exact hN i
  | @acted j t o k r s hp => exact hupdate (hop j o k r (hp ▸ hN j))
  | @threw j => exact hupdate (hthrow j)
  | @received j c k a hp => exact hupdate (hop j _ k _ (hp ▸ hN j))
  | @gaveUp j e c k hp => exact hupdate (hop j _ k _ (hp ▸ hN j))

/-! ## Answers -/

/-- Only a client that makes a call is sent an answer. -/
def Awaited (N : Net ι K V E C R A α σ ρ μ) : Prop :=
  ∀ i, N.answers i ≠ none → ∃ c k, N.clients.prog i = .op (.call (.inr c)) k

theorem step_awaited (hN : N.Awaited) (e : Event ι τ ε) : (step S note e N).Awaited := by
  have hother {i j : ι} (hij : j ≠ i) {p q} (hp : N.clients.prog j = p) :
      Function.update N.clients.prog i q j = p := by rw [Function.update_of_ne hij, hp]
  have hm : Moved S note N e _ := moved e
  generalize step S note e N = N' at hm
  intro j hj
  cases hm with
  | idle | arrived _ | lost => exact hN j hj
  | @acted i t o k r s hp hlocal ho | @threw i t o k s hp hlocal ho =>
    obtain ⟨c, k', hc⟩ := hN j hj
    have hij : j ≠ i := by
      rintro rfl
      cases hp.symm.trans hc
      exact hlocal trivial
    exact ⟨c, k', hother hij hc⟩
  | @delivered i x c k hp ha =>
    by_cases hij : j = i
    · exact ⟨c, k, hij ▸ hp⟩
    · exact hN j (Function.update_of_ne hij (some _) N.answers ▸ hj)
  | @received i c k a hp ha | @gaveUp i e c k hp =>
    have hij : j ≠ i := by
      rintro rfl
      exact hj (Function.update_self ..)
    obtain ⟨c', k', hc⟩ := hN j (Function.update_of_ne hij none N.answers ▸ hj)
    exact ⟨c', k', hother hij hc⟩

end

end Net

end Effect
