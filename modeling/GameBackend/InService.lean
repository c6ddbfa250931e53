import GameBackend.Abstraction
import GameBackend.AllOrNothing
import GameBackend.Locks
import GameBackend.Ownership
import GameBackend.PaidBattles

/-!
# A backend in service

The backend that serves one request after the other while no command fails.

* `Store.InService` — the invariant between two requests: the store is at rest, nothing is
  owed that cannot be paid, every snapshot is current and nobody holds a lock.
* `Serving` — what holds while a request is served: on top of these, what it has done to the
  tables and to the sessions so far.
* `Store.InService.serve` — every request is answered, and leaves the backend in service.
-/

namespace GameBackend

variable {ι : Type} [DecidableEq ι] {env : Env} {cfg : DungeonConfig} {i : ι}
  {s s' s₀ : Store ι} {φ ψ : Phase} {c : Cmd} {r : c.Reply} {fault : Option String}
  {t t' : Tables} {deed : Deed} {β : Filling}

/-! ## Between requests -/

/-- A backend between two requests. -/
structure Store.InService (env : Env) (s : Store ι) : Prop where
  rest : s.AtRest env
  owed : Owed env.dungeonConfig s.mysql.tables
  coherent : Coherent s .outside
  unlocked : ∀ p, s.redis.live (.playerLock p) = none

/-- The servers before they are opened: there are no battles, no battle contexts and no
logged rewards, and Redis holds neither snapshots nor locks. Players, their assets, their
progress and sessions are arbitrary. -/
structure Store.Opened (env : Env) (s : Store ι) : Prop where
  fresh : s.Fresh env
  unpaid : s.mysql.tables.rewardLog.rows = []
  uncached : ∀ p, s.redis.live (.playerSnapshot p) = none
  unlocked : ∀ p, s.redis.live (.playerLock p) = none

omit [DecidableEq ι] in
theorem Store.Opened.inService (h : s.Opened env) : s.InService env where
  rest := h.fresh.atRest
  owed := .init h.fresh.battles h.unpaid
  coherent := .init h.uncached
  unlocked := h.unlocked

/-! ## While a request is served -/

/-- The reward of a deed fits the columns it is added to. -/
def Deed.Fits (cfg : DungeonConfig) (t : Tables) : Deed → Prop
  | .enter _ => True
  | .settle s => ∀ a, t.playerAsset.find s.playerId = some a →
      inBigint (a.gold + cfg.normalGoldReward) = true ∧
        inBigint (a.diamond + (s.diamond cfg).getD 0) = true

/-- What a request that began in `s₀` has left in the store in phase `φ`. -/
structure Serving (env : Env) (s₀ s : Store ι) (φ : Phase) : Prop where
  effect : Effect env.dungeonConfig s₀ s φ
  owed : Owed env.dungeonConfig s.mysql.tables
  configured : φ.Configured env.dungeonConfig
  coherent : Coherent s φ
  /-- nobody but this request holds a lock -/
  locks : ∀ p, φ.lock ≠ some p → s.redis.live (.playerLock p) = none
  /-- only a `COMMIT` changes the tables -/
  quiet : φ.done = none → s.mysql.tables = s₀.mysql.tables
  fits : ∀ deed, φ.done = some deed → deed.Fits env.dungeonConfig s₀.mysql.tables
  now : s.redis.now = s₀.redis.now
  /-- only a login changes sessions -/
  logins : φ ≠ .signing → ∀ k : RedisKey, k.ofLogin = true →
    s.redis.entries k = s₀.redis.entries k

omit [DecidableEq ι] in
theorem Store.InService.serving (h : s.InService env) : Serving env s s .outside where
  effect := .init s
  owed := h.owed
  configured := trivial
  coherent := h.coherent
  locks p _ := h.unlocked p
  quiet _ := rfl
  fits _ hdone := nomatch hdone
  now := rfl
  logins _ _ _ := rfl

/-- A request that has committed nothing had committed nothing before. -/
theorem Advance.done_eq_none (hadv : Advance cfg φ c r ψ) (hψ : ψ.done = none) :
    φ.done = none := by
  cases hadv with
  | pass _ _ => exact hψ
  | unlock exit =>
    obtain rfl : _ = none := hψ
    cases φ with
    | invalidated deed => cases (Prod.mk.inj (Option.some.inj exit)).2
    | locked | found | leaving => rfl
    | _ => cases exit
  | commit | saveContext _ | expireContext | dropContext | invalidate => cases hψ
  | _ => rfl

/-- The statements of a transaction that is committed go through on the tables, so the
reward fits. -/
theorem Steady.fits (h : Store.Steady env i s φ β)
    (hwriting : φ = .writing deed (deed.plan env.dungeonConfig) []) :
    deed.Fits env.dungeonConfig s.mysql.tables := by
  subst hwriting
  cases deed with
  | enter row => trivial
  | settle settlement =>
    intro a ha
    obtain ⟨u, hwrote⟩ := h.sound.justified i _ h.txn (.updateAssetReward settlement.playerId
      env.dungeonConfig.normalGoldReward (settlement.diamond env.dungeonConfig))
      (by simp [Deed.plan])
    cases hwrote with
    | updateAssetReward found fits =>
      obtain rfl := Option.some.inj (found.symm.trans ha)
      exact Bool.and_eq_true_iff.mp fits

/-- A request that holds no lock, or that of another player, leaves a lock alone that is
free. -/
theorem Advance.locks (hadv : Advance cfg φ c r ψ) (hp : s.Performed i none c r s')
    (h : ∀ p, φ.lock ≠ some p → s.redis.live (.playerLock p) = none) (p : ℤ)
    (hψ : ψ.lock ≠ some p) : s'.redis.live (.playerLock p) = none := by
  cases hadv.lockStep hp with
  | keep lock live => exact (live p).trans (h p (lock ▸ hψ))
  | acquire before after positive free redis =>
    rename_i q v ttl
    have hpq : RedisKey.playerLock p ≠ .playerLock q := by
      intro hpq
      rw [after, RedisKey.playerLock.inj hpq] at hψ
      exact hψ rfl
    rw [redis, Redis.live_put_ne hpq]
    refine h p ?_
    rw [before]
    exact (Option.some_ne_none p).symm
  | release before after redis =>
    rename_i q r
    obtain ⟨message, hfault, -, -⟩ | ⟨-, -, rfl⟩ := hp.redis_cases
    · cases hfault
    by_cases hpq : p = q
    · subst hpq
      simp [Redis.execute, Redis.live]
    · have hkey : RedisKey.playerLock p ≠ .playerLock q :=
        fun hk => hpq (RedisKey.playerLock.inj hk)
      refine (Redis.live_put_ne hkey).trans (h p ?_)
      rw [before]
      exact fun hq => hpq (Option.some.inj hq).symm

/-- Every command keeps the invariant. -/
theorem Serving.step (h : Serving env s₀ s φ) (hsteady : Store.Steady env i s φ β)
    (hp : s.Performed i none c r s') (hadv : Advance env.dungeonConfig φ c r ψ)
    (hstep : DbStep env.dungeonConfig s.mysql s'.mysql φ ψ) : Serving env s₀ s' ψ where
  effect := h.effect.step hadv hp hsteady.txn (fun _ => rfl) hstep
  owed := by
    rcases hstep with ⟨htables, -⟩ | ⟨rfl, -, htransacts, -⟩
    · exact htables ▸ h.owed
    · exact h.owed.step htransacts h.configured
  configured := hadv.configured h.configured
  coherent := h.coherent.step hadv hp (fun _ => rfl) hsteady.txn hstep
  locks := hadv.locks hp h.locks
  quiet hψ := by
    rcases hstep with ⟨htables, -⟩ | ⟨-, rfl, -, -⟩
    · exact htables.trans (h.quiet (hadv.done_eq_none hψ))
    · cases hψ
  fits deed hψ := by
    rcases hadv.done hψ with hφ | ⟨done, hφ, -⟩
    · exact h.fits deed hφ
    · subst hφ
      have hplan : done = deed.plan env.dungeonConfig := by
        rw [← hsteady.knows.2, List.append_nil]
      subst hplan
      rw [← h.quiet rfl]
      exact Steady.fits hsteady rfl
  now := hp.now_eq.trans h.now
  logins hψ k hk := by
    obtain ⟨hφ, hkeys⟩ := hadv.leavesLogin hψ
    refine (hp.entries_eq fun d hd => ?_).trans (h.logins hφ k hk)
    refine (hkeys d hd).imp_right fun hother hkey => ?_
    rw [← hkey, hk] at hother
    cases hother

/-- **Every request is answered**, and leaves the backend in service. -/
theorem Store.InService.serve (h : s.InService env) (i : ι) (request : Request) :
    ∃ response s' φ, s.serve env i request (fun _ => none) = some (response, s') ∧
      Ends env.dungeonConfig request response φ ∧ s'.InService env ∧ Serving env s s' φ := by
  have hstep : ∀ {s₁ s₂ : Store ι} {φ ψ : Phase} {β : Filling} {fault : Option String} {c : Cmd}
      {r : c.Reply}, Store.Steady env i s₁ φ β → Serving env s s₁ φ →
      s₁.Performed i fault c r s₂ → Advance env.dungeonConfig φ c r ψ → fault = none →
      DbStep env.dungeonConfig s₁.mysql s₂.mysql φ ψ → Serving env s s₂ ψ := by
    rintro s₁ s₂ φ ψ β _ c r hsteady hserving hp hadv rfl hdb
    exact hserving.step hsteady hp hadv hdb
  have hexec : ∀ (s : Store ι) (u : Unit) (c : Cmd), ∃ fault : Option String,
      Store.faultless i s u c = s.perform i fault c ∧ fault = none :=
    fun s _ c => ⟨none, rfl, rfl⟩
  obtain ⟨response, s', φ, hserve, hends, hrest, hserving⟩ := h.rest.run
    (P := fun _ _ fault => fault = none) (J := Serving env s) hexec
    (fun _ _ _ hfault => ⟨fun _ => hfault, fun _ _ _ _ => hfault⟩)
    h.serving hstep request fun _ => ()
  refine ⟨response, s', φ, (Store.serve_faultless request).trans hserve, hends, ⟨hrest,
    hserving.owed, ⟨fun p e he _ => hserving.coherent.snapshots p e he fun hstale => ?_, trivial⟩,
    fun p => hserving.locks p ?_⟩, hserving⟩
  · -- a request returns only after it has deleted the snapshot that became stale
    have hlock := hends.lock
    cases φ with
    | committed deed => cases hlock
    | _ => cases hstale
  · rw [hends.lock]
    exact (Option.some_ne_none p).symm

end GameBackend
