import GameBackend.Core
import GameBackend.Balance
import GameBackend.Trails

/-!
# The player lock

`SET NX EX` and an unconditional `DEL` make a mutual exclusion lock only as long
as no lock key disappears while its holder is still running. Under this
condition, `KeepsLocks`, at most one request is inside the lock of a player
(`Exclusive`), and what a request reads about its player stays true until it has
committed: a settlement that takes itself for a first clear is one
(`Honest`).
-/

namespace GameBackend

variable {ι : Type} [DecidableEq ι] {env : Env} {cfg : DungeonConfig}

/-! ## Lock commands -/

/-- What a command of a request does to the player locks. -/
inductive LockStep (s s' : Store ι) (φ ψ : Phase) : (c : Cmd) → c.Reply → Prop where
  | keep {c : Cmd} {r : c.Reply} (lock : ψ.lock = φ.lock)
      (live : ∀ p, s'.redis.live (.playerLock p) = s.redis.live (.playerLock p))
      (acquires : Exchange.acquires ⟨c, r⟩ = none) (releases : Exchange.releases ⟨c, r⟩ = false) :
      LockStep s s' φ ψ c r
  | acquire {p : ℤ} {v : String} {ttl : ℕ} (before : φ.lock = none) (after : ψ.lock = some p)
      (positive : 0 < ttl) (free : s.redis.live (.playerLock p) = none)
      (redis : s'.redis = s.redis.put (.playerLock p)
        (some ⟨.string v, some (s.redis.now + 1000 * ttl)⟩)) :
      LockStep s s' φ ψ (.redis (.setNx (.playerLock p) v ttl)) (some true)
  | release {p : ℤ} {r : Bool} (before : φ.lock = some p) (after : ψ.lock = none)
      (redis : s'.redis = s.redis ∨ s'.redis = s.redis.put (.playerLock p) none) :
      LockStep s s' φ ψ (.redis (.del (.playerLock p))) r

/-- A command that is not about a player lock, or only reads, keeps the player
locks. -/
theorem Store.Performed.locks_eq {s s' : Store ι} {i : ι} {fault : Option String} {c : Cmd}
    {r : c.Reply} (h : s.Performed i fault c r s')
    (hc : ∀ d, c = .redis d → d.reads = true ∨ ∀ p, RedisKey.playerLock p ≠ d.key) (p : ℤ) :
    s'.redis.live (.playerLock p) = s.redis.live (.playerLock p) :=
  Redis.live_congr (h.entries_eq fun d hd => (hc d hd).imp_right fun hk => hk p) h.now_eq

theorem Advance.lockStep {s s' : Store ι} {i : ι} {fault : Option String} {c : Cmd} {r : c.Reply}
    {φ ψ : Phase} (hadv : Advance cfg φ c r ψ) (hp : s.Performed i fault c r s') :
    LockStep s s' φ ψ c r := by
  cases hadv with
  | lock positive =>
    obtain ⟨message, -, hr, -⟩ | ⟨-, hr, rfl⟩ := hp.redis_cases
    · cases hr
    · simp only [Redis.execute] at hr ⊢
      split at hr
      · rename_i hlive
        exact .acquire rfl rfl positive hlive rfl
      · cases hr
  | busy refused =>
    rename_i p v ttl r
    refine .keep rfl ?_ (if_neg refused) rfl
    intro q
    obtain ⟨message, -, -, rfl⟩ | ⟨-, hr, rfl⟩ := hp.redis_cases
    · rfl
    · simp only [Redis.execute] at hr ⊢
      split at hr
      · exact absurd hr refused
      · rfl
  | unlock exit =>
    refine .release (Phase.lock_of_exit exit) rfl ?_
    obtain ⟨message, -, -, rfl⟩ | ⟨-, -, rfl⟩ := hp.redis_cases
    · exact .inl rfl
    · exact .inr rfl
  | pass harmless _ =>
    refine .keep rfl (hp.locks_eq fun d hd => ?_) (silent_of_harmless harmless).acquires
      (silent_of_harmless harmless).releases
    subst hd
    exact (Cmd.reads_or_others harmless).imp_right fun hkey p => hkey _ rfl
  | miss _ | hit _ | findContext _ | noContext =>
    exact .keep rfl (hp.locks_eq fun d hd => .inl (Cmd.redis.inj hd ▸ rfl)) rfl rfl
  | fill _ | fillExpire | saveContext _ | expireContext | dropContext | invalidate =>
    refine .keep rfl (hp.locks_eq fun d hd => .inr fun p => ?_) rfl rfl
    rw [← Cmd.redis.inj hd]
    simp [RedisCmd.key]
  | _ => exact .keep rfl (hp.locks_eq fun d hd => by cases hd) rfl rfl

/-! ## Mutual exclusion -/

/-- The step `l` lets no player lock disappear by time or eviction while a
request is inside of it. -/
def KeepsLocks (w : World ι) : Label ι → Prop
  | .tick ms => ∀ i task p, w.tasks i = some task → heldLock task.trail = some p →
      ((w.store.tick ms).redis.live (.playerLock p)).isSome = true
  | .evict k => ∀ i task p, w.tasks i = some task → heldLock task.trail = some p →
      k ≠ .playerLock p
  | _ => True

/-- Mutual exclusion: a lock that a request is inside of is present, and no other
request is inside of it. -/
structure Exclusive (w : World ι) (φ : ι → Phase) : Prop where
  present : ∀ i p, (φ i).lock = some p → (w.store.redis.live (.playerLock p)).isSome = true
  unique : ∀ i j p, (φ i).lock = some p → (φ j).lock = some p → i = j

variable {w w' w₀ : World ι} {φ φ' : ι → Phase} {l : Label ι}

omit [DecidableEq ι] in
theorem Exclusive.init : Exclusive w fun _ => .outside where
  present _ _ h := nomatch h
  unique _ _ _ h := nomatch h

omit [DecidableEq ι] in
/-- Mutual exclusion survives when requests only leave locks and no lock
disappears. -/
theorem Exclusive.mono (h : Exclusive w φ) (hlock : ∀ i p, (φ' i).lock = some p →
      (φ i).lock = some p)
    (hlive : ∀ i p, (φ' i).lock = some p → (w.store.redis.live (.playerLock p)).isSome = true →
      (w'.store.redis.live (.playerLock p)).isSome = true) : Exclusive w' φ' where
  present i p hi := hlive i p hi (h.present i p (hlock i p hi))
  unique i j p hi hj := h.unique i j p (hlock i p hi) (hlock j p hj)

omit [DecidableEq ι] in
/-- The trail of a request shows the lock its phase says. -/
theorem Phased.heldLock (hphased : Phased env w φ) {i : ι} {p : ℤ} (h : (φ i).lock = some p) :
    ∃ task, w.tasks i = some task ∧ heldLock task.trail = some p := by
  rcases hi : w.tasks i with _ | task
  · rw [hphased.idle i hi] at h
    cases h
  · exact ⟨task, rfl, (heldLock_eq (hphased.path i task hi)).trans h⟩

theorem lock_update_outside {i j : ι} {p : ℤ}
    (h : (Function.update φ i .outside j).lock = some p) : (φ j).lock = some p := by
  by_cases hj : j = i
  · subst hj
    rw [Function.update_self] at h
    cases h
  · rwa [Function.update_of_ne hj] at h

/-- Process `i` acquires a lock that was free. -/
theorem Exclusive.acquire (h : Exclusive w φ) {i : ι} {ψ : Phase} {p : ℤ} {v : String} {ttl : ℕ}
    (hafter : ψ.lock = some p) (hpositive : 0 < ttl)
    (hfree : w.store.redis.live (.playerLock p) = none)
    (hredis : w'.store.redis = w.store.redis.put (.playerLock p)
      (some ⟨.string v, some (w.store.redis.now + 1000 * ttl)⟩)) :
    Exclusive w' (Function.update φ i ψ) := by
  have hcases : ∀ j q, (Function.update φ i ψ j).lock = some q →
      (j = i ∧ q = p) ∨ (q ≠ p ∧ (φ j).lock = some q) := by
    intro j q hj
    by_cases hji : j = i
    · rw [hji, Function.update_self, hafter] at hj
      exact .inl ⟨hji, (Option.some.inj hj).symm⟩
    · rw [Function.update_of_ne hji] at hj
      refine .inr ⟨?_, hj⟩
      -- nobody else is inside: the key was free
      rintro rfl
      have hlive := h.present j q hj
      rw [hfree] at hlive
      cases hlive
  refine ⟨fun j q hj => ?_, fun j j' q hj hj' => ?_⟩
  · rw [hredis]
    rcases hcases j q hj with ⟨-, rfl⟩ | ⟨hq, hj⟩
    · have hlt : w.store.redis.now < w.store.redis.now + 1000 * ttl := by omega
      rw [Redis.live_put_self (by simpa using hlt)]
      rfl
    · rw [Redis.live_put_ne (by simpa using hq)]
      exact h.present j q hj
  · rcases hcases j q hj with ⟨rfl, hq⟩ | ⟨hq, hj⟩ <;>
      rcases hcases j' q hj' with ⟨rfl, hq'⟩ | ⟨hq', hj'⟩
    · rfl
    · exact absurd hq hq'
    · exact absurd hq' hq
    · exact h.unique j j' q hj hj'

/-- Process `i` gives its lock back. -/
theorem Exclusive.release (h : Exclusive w φ) {i : ι} {ψ : Phase} {p : ℤ}
    (hbefore : (φ i).lock = some p) (hafter : ψ.lock = none)
    (hredis : w'.store.redis = w.store.redis ∨
      w'.store.redis = w.store.redis.put (.playerLock p) none) :
    Exclusive w' (Function.update φ i ψ) := by
  have hlock : ∀ j q, (Function.update φ i ψ j).lock = some q → j ≠ i ∧ (φ j).lock = some q := by
    intro j q hj
    by_cases hji : j = i
    · rw [hji, Function.update_self, hafter] at hj
      cases hj
    · rw [Function.update_of_ne hji] at hj
      exact ⟨hji, hj⟩
  refine h.mono (fun j q hj => (hlock j q hj).2) fun j q hj hlive => ?_
  obtain ⟨hji, hjq⟩ := hlock j q hj
  have hq : RedisKey.playerLock q ≠ .playerLock p := by
    intro hqp
    rw [RedisKey.playerLock.inj hqp] at hjq
    exact hji (h.unique j i p hjq hbefore)
  rcases hredis with hredis | hredis
  · rw [hredis]
    exact hlive
  · rw [hredis, Redis.live_put_ne hq]
    exact hlive

/-- Every move that keeps the locks keeps mutual exclusion. -/
theorem Exclusive.step (h : Exclusive w φ) (hphased : Phased env w φ) (hkeep : KeepsLocks w l)
    (hmove : Moves env w φ l w' φ') : Exclusive w' φ' := by
  cases hmove with
  | start idle => exact h.mono (fun _ _ hi => hi) fun _ _ _ hlive => hlive
  | finish task ends => exact h.mono (fun _ _ => lock_update_outside) fun _ _ _ hlive => hlive
  | crash => exact h.mono (fun _ _ => lock_update_outside) fun _ _ _ hlive => hlive
  | tick =>
    refine h.mono (fun _ _ hi => hi) fun i p hi _ => ?_
    obtain ⟨task, htask, hheld⟩ := hphased.heldLock hi
    exact hkeep i task p htask hheld
  | evict =>
    refine h.mono (fun _ _ hi => hi) fun i p hi hlive => ?_
    obtain ⟨task, htask, hheld⟩ := hphased.heldLock hi
    exact (congrArg Option.isSome (Redis.live_put_ne (hkeep i task p htask hheld).symm)).trans hlive
  | exec task performed advance =>
    rename_i i fault id request trail c k r store ψ
    cases advance.lockStep performed with
    | keep lock live =>
      have hlock : ∀ j, (Function.update φ i ψ j).lock = (φ j).lock := by
        intro j
        by_cases hj : j = i
        · rw [hj, Function.update_self, lock]
        · rw [Function.update_of_ne hj]
      refine h.mono (fun j p hj => (hlock j).symm.trans hj) fun j p _ hlive => ?_
      rw [live p]
      exact hlive
    | acquire before after positive free hredis => exact h.acquire after positive free hredis
    | release before after hredis => exact h.release before after hredis

/-! ## Honest requests -/

/-- A request that has decided whether its settlement is a first clear is right
about it. -/
def Phase.Honest (t : Tables) : Phase → Prop
  | .decided s => (Deed.settle s).Honest t
  | .writing deed _ _ => deed.Honest t
  | _ => True

/-- Deeds of other players do not make a deed dishonest. -/
theorem Deed.Honest.mono {t t' : Tables} {deed deed' : Deed} (h : deed.Honest t)
    (ht : Transacts cfg deed' t t') (hp : deed.player ≠ deed'.player) : deed.Honest t' := by
  intro s hs
  subst hs
  rw [ht.progress_ne fun s' hs' hk => ?_]
  · exact h s rfl
  · subst hs'
    exact hp (Prod.mk.inj hk).1

theorem Phase.Honest.mono {t t' : Tables} {φ : Phase} {deed : Deed} (h : φ.Honest t)
    (ht : Transacts cfg deed t t') (hp : φ.lock ≠ some deed.player) : φ.Honest t' := by
  cases φ with
  | decided s => exact Deed.Honest.mono h ht fun heq => hp (congrArg some heq)
  | writing deed' done todo => exact Deed.Honest.mono h ht fun heq => hp (congrArg some heq)
  | _ => trivial

/-- A request that decides without a failing `SELECT` is right. -/
theorem Advance.honest {s s' : Store ι} {i : ι} {fault : Option String} {c : Cmd} {r : c.Reply}
    {φ ψ : Phase} (hadv : Advance cfg φ c r ψ) (hp : s.Performed i fault c r s')
    (hselect : ∀ p d, c = .sql (.select (.firstClear p d)) → fault = none)
    (htxn : φ.Txn (s.mysql.txns i)) (h : φ.Honest s.mysql.tables) :
    ψ.Honest s.mysql.tables := by
  cases hadv with
  | pass harmless _ => exact h
  | decide player dungeon unsettled =>
    rename_i p star context r
    obtain ⟨message, hf, -, -⟩ | ⟨-, m, hexec, -⟩ := hp.sql_cases
    · rw [hselect _ _ rfl] at hf
      cases hf
    · have hview : s.mysql.view i = s.mysql.tables := by
        rw [Mysql.view, show s.mysql.txns i = none from htxn]
        rfl
      simp only [Mysql.execute, hview, Option.some.injEq, Prod.mk.injEq] at hexec
      obtain ⟨rfl, -⟩ := hexec
      intro settlement hs
      obtain rfl := Deed.settle.inj hs
      cases hfind : s.mysql.tables.playerDungeon.find (p, cfg.dungeonId) with
      | none => simp [Query.rows, hfind]
      | some row => simp [Query.rows, hfind]
  | settleBegin => exact h
  | write accepted => exact h
  | noPending empty =>
    intro settlement hs
    cases hs
  | _ => trivial

/-- Under mutual exclusion every move keeps the requests honest. -/
theorem honest_step (hcore : Core env w φ) (hexclusive : Exclusive w φ)
    (hselect : ∀ p d, ¬w.Fails l (.sql (.select (.firstClear p d))))
    (h : ∀ i, (φ i).Honest w.store.mysql.tables) (hmove : Moves env w φ l w' φ')
    (hstep : TableStep env.dungeonConfig w w' φ φ' l) :
    ∀ i, (φ' i).Honest w'.store.mysql.tables := by
  rcases hstep with ⟨htables, -⟩ | ⟨-, -, hbefore, rfl, htransacts, -⟩
  · rw [htables]
    have hout : ∀ i j, (Function.update φ i .outside j).Honest w.store.mysql.tables := by
      intro i j
      by_cases hj : j = i
      · rw [hj, Function.update_self]
        trivial
      · rw [Function.update_of_ne hj]
        exact h j
    cases hmove with
    | start idle => exact h
    | finish task ends => exact hout _
    | crash => exact hout _
    | tick => exact h
    | evict => exact h
    | exec task performed advance =>
      rename_i i fault id request trail c k r store ψ
      intro j
      by_cases hj : j = i
      · rw [hj, Function.update_self]
        refine advance.honest performed ?_ (hcore.txn i) (h i)
        rintro p d rfl
        rcases fault with _ | message
        · rfl
        · exact absurd ⟨i, message, rfl, by rw [World.next, task]⟩ (hselect p d)
      · rw [Function.update_of_ne hj]
        exact h j
  · rename_i i fault deed
    intro j
    by_cases hj : j = i
    · rw [hj, Function.update_self]
      trivial
    · rw [Function.update_of_ne hj]
      refine (h j).mono htransacts fun hlock => hj ?_
      exact hexclusive.unique j i _ hlock (by rw [hbefore]; rfl)

end GameBackend
