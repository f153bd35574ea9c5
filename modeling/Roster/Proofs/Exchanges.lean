import Roster.Postgres.Exchange
/-! # What an exchange does to a pair of databases

One equation for each way in which an exchange is put together, and from these what sending a
statement comes to where a session is to be had. -/
namespace Roster.Postgres

variable {σ : Type}

namespace Exchange

variable {α β : Type}

theorem exec_bind (x : Exchange σ α) (f : α → Exchange σ β) (p : Pair σ) :
    (x >>= f).exec p =
      match x.exec p with
      | (.ok a, q) => (f a).exec q
      | (.error chain, q) => (.error chain, q) := by
  change ((x >>= f).run.run p : Id _) = _
  rw [ExceptT.run_bind, StateT.run_bind]
  have h : StateT.run x.run p = x.exec p := rfl
  rw [h]
  rcases x.exec p with ⟨_ | _, q⟩ <;> rfl

@[simp] theorem exec_map (g : α → β) (x : Exchange σ α) (p : Pair σ) :
    (g <$> x).exec p = ((x.exec p).1.map g, (x.exec p).2) := by
  rw [← bind_pure_comp, exec_bind]
  rcases x.exec p with ⟨_ | _, q⟩ <;> rfl

@[simp] theorem exec_pure (a : α) (p : Pair σ) :
    (pure a : Exchange σ α).exec p = (.ok a, p) := rfl

@[simp] theorem exec_throw (chain : Chain) (p : Pair σ) :
    (throw chain : Exchange σ α).exec p = (.error chain, p) := rfl

@[simp] theorem exec_get (p : Pair σ) : (get : Exchange σ (Pair σ)).exec p = (.ok p, p) := rfl

@[simp] theorem exec_set (p q : Pair σ) : (set q : Exchange σ PUnit).exec p = (.ok (), q) := rfl

@[simp] theorem exec_send (side : Side) (packet : Packet) (p : Pair σ) :
    (send side packet).exec p =
      (.ok (), { p with traffic := p.traffic ++ [(side, packet)] }) := rfl

@[simp] theorem exec_changePool (side : Side) (f : Pool → Pool) (p : Pair σ) :
    (changePool side f).exec p = (.ok (), p.withPool side (f (p.pool side))) := rfl

end Exchange

namespace Pair

variable (p : Pair σ) (side : Side) (pool : Pool)

@[simp] theorem pool_withPool : (p.withPool side pool).pool side = pool := by cases side <;> rfl

theorem pool_withPool_of_ne {other : Side} (h : other ≠ side) :
    (p.withPool side pool).pool other = p.pool other := by
  cases side <;> cases other <;> first | rfl | exact absurd rfl h

@[simp] theorem peers_withPool : (p.withPool side pool).peers = p.peers := by cases side <;> rfl

end Pair

/-- A session of the pool is to be had: one is idle, or there is room for another. -/
structure Pool.Usable (pool : Pool) : Prop where
  unclosed : pool.closed = false
  room : 0 < pool.idle ∨ pool.held < pool.endpoint.maxConnections.toNat ∧
    ∃ mode, pool.endpoint.sslMode? = .ok mode ∧ insistsOnEncryption mode = false

/-- Both sides have sessions to be had. -/
def Pair.Usable (p : Pair σ) : Prop := ∀ side, (p.pool side).Usable

theorem Pool.Usable.of_idle {pool : Pool} (hclosed : pool.closed = false) (h : 0 < pool.idle) :
    pool.Usable := ⟨hclosed, .inl h⟩

section

variable {peers : Peers σ} {side : Side} {p : Pair σ}

theorem exec_openSession {e : Endpoint} {mode : SslMode}
    (hadmits : ∀ side state, peers.refusal side state = none) (hmode : e.sslMode? = .ok mode)
    (hplain : insistsOnEncryption mode = false) :
    (openSession peers side e).exec p =
      (.ok (), { p with traffic := p.traffic ++ [(side, .session (sessionFor side e))] }) := by
  simp [openSession, Exchange.exec_bind, hmode, hplain, hadmits, Except.map]

/-- Taking a session out changes neither the databases nor whether a pool is closed, and nothing at
all in the other pool. -/
theorem exec_acquire (hadmits : ∀ side state, peers.refusal side state = none)
    (h : (p.pool side).Usable) :
    ∃ q : Pair σ, (acquire peers side).exec p = (.ok (), q) ∧ q.peers = p.peers ∧
      (q.pool side).closed = false ∧ ∀ other, other ≠ side → q.pool other = p.pool other := by
  have hclosed := h.unclosed
  by_cases hidle : 0 < (p.pool side).idle
  · let taken : Pool := { p.pool side with idle := (p.pool side).idle - 1 }
    refine ⟨p.withPool side taken, ?_, ?_, ?_, fun other => p.pool_withPool_of_ne side taken⟩
    · simp [acquire, Exchange.exec_bind, hclosed, hidle, taken]
    · rw [Pair.peers_withPool]
    · rw [Pair.pool_withPool]
      exact hclosed
  · obtain ⟨hheld, mode, hmode, hplain⟩ := h.room.resolve_left hidle
    have hroom : ¬ (p.pool side).endpoint.maxConnections.toNat ≤ (p.pool side).held :=
      Nat.not_le.mpr hheld
    refine ⟨{ p with traffic := p.traffic ++
      [(side, .session (sessionFor side (p.pool side).endpoint))] }, ?_, rfl, ?_, ?_⟩
    · simp [acquire, Exchange.exec_bind, hclosed, hidle, hroom,
        exec_openSession hadmits hmode hplain]
    · cases side <;> exact hclosed
    · intro other _
      cases other <;> rfl

theorem exec_ask (side : Side) (s : Sql.Statement) (p : Pair σ) :
    (ask peers side s).exec p =
      (.ok (peers.answer side s p.peers).1,
        { p with
          peers := (peers.answer side s p.peers).2
          traffic := p.traffic ++ [(side, .statement s)] }) := by
  simp [ask, Exchange.exec_bind, Except.map]

/-- A statement is answered by the database it is sent to. The session goes back to its pool. -/
theorem exec_execute (hadmits : ∀ side state, peers.refusal side state = none) (h : p.Usable)
    (side : Side) (s : Sql.Statement) :
    ∃ q : Pair σ,
      (execute peers side s).exec p = ((peers.answer side s p.peers).1.mapError reported, q) ∧
      q.peers = (peers.answer side s p.peers).2 ∧ q.Usable := by
  obtain ⟨r, hacquire, hpeers, hclosed, hother⟩ := exec_acquire hadmits (h side)
  let answered : Pair σ :=
    { r with
      peers := (peers.answer side s r.peers).2
      traffic := r.traffic ++ [(side, .statement s)] }
  let back : Pool := { answered.pool side with idle := (answered.pool side).idle + 1 }
  have hpool (other : Side) : answered.pool other = r.pool other := by cases other <;> rfl
  refine ⟨answered.withPool side back, ?_, ?_, ?_⟩
  · simp only [execute, Exchange.exec_bind, hacquire, exec_ask, release, Exchange.exec_changePool]
    rw [← hpeers]
    cases (peers.answer side s r.peers).1 <;> rfl
  · rw [Pair.peers_withPool, ← hpeers]
  · intro other
    by_cases ho : other = side
    · subst ho
      rw [Pair.pool_withPool]
      refine .of_idle ?_ (Nat.succ_pos _)
      rw [← hclosed, ← hpool other]
    · rw [Pair.pool_withPool_of_ne _ _ _ ho, hpool, hother other ho]
      exact h other

end

end Roster.Postgres
