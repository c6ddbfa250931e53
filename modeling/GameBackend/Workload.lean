import GameBackend.Core
import GameBackend.Trails

/-!
# The workload of a request

What a request costs at most, whatever answers it gets. `Spends` is a protocol whose
phases are the commands a request may still send, together with where it stands:
outside of the player lock, inside of it, or with its transaction open.

A command counts once, together with the `PING` that its client method sends in front.

* `serve_spends` — every request keeps to its `budget`, and from the acquisition of the
  player lock on it sends at most 16 commands, the last of which gives the lock back.
* An exception stops a request only while its transaction is not open.
* `bounded_work` — the same of every request of every run.
-/

namespace GameBackend

variable {env : Env} {cfg : DungeonConfig}

/-! ## The budget -/

/-- Where a request stands. -/
inductive Mode where
  /-- without player lock -/
  | outside
  /-- with the player lock, without a transaction -/
  | inside
  /-- with the player lock and an open transaction -/
  | writing
  deriving DecidableEq, Repr

/-- The commands that neither take nor give back a lock, neither open nor end a
transaction and draw no number. -/
def Cmd.ordinary : Cmd → Bool
  | .sql .startTransaction => false
  | .sql .commit => false
  | .sql .rollback => false
  | .redis (.setNx _ _ _) => false
  | .redis (.del (.playerLock _)) => false
  | .fetchAddSequence => false
  | _ => true

/-- `Spends env (mode, n + 1) c r (mode', n)`: a request with a budget of `n + 1` commands
may send `c`. With the player lock, which it takes for the configured lifetime, it gets a
budget of at most 16; it draws its number before it opens its transaction. -/
inductive Spends (env : Env) : Mode × ℕ → (c : Cmd) → c.Reply → Mode × ℕ → Prop where
  | pass {mode : Mode} {n : ℕ} {c : Cmd} {r : c.Reply} (ordinary : c.ordinary = true) :
      Spends env (mode, n + 1) c r (mode, n)
  | draw {mode : Mode} {n : ℕ} {number : UInt64} (before : mode ≠ .writing) :
      Spends env (mode, n + 1) .fetchAddSequence number (mode, n)
  | lock {n : ℕ} {p : ℤ} {v : String} {ttl : ℕ} (window : n ≤ 16)
      (lifetime : ttl = (RedisPlayerLockRepository.ttlSeconds env).toNat) :
      Spends env (.outside, n + 1) (.redis (.setNx (.playerLock p) v ttl)) (some true)
        (.inside, n)
  | busy {n : ℕ} {p : ℤ} {v : String} {ttl : ℕ} {r : Option Bool} (refused : r ≠ some true) :
      Spends env (.outside, n + 1) (.redis (.setNx (.playerLock p) v ttl)) r (.outside, n)
  | unlock {n : ℕ} {p : ℤ} {r : Bool} :
      Spends env (.inside, n + 1) (.redis (.del (.playerLock p))) r (.outside, n)
  | start {n : ℕ} :
      Spends env (.inside, n + 1) (.sql .startTransaction) (.ok ()) (.writing, n)
  | noStart {n : ℕ} {message : String} :
      Spends env (.inside, n + 1) (.sql .startTransaction) (.error message) (.inside, n)
  | commit {n : ℕ} : Spends env (.writing, n + 1) (.sql .commit) (.ok ()) (.inside, n)
  | noCommit {n : ℕ} {message : String} :
      Spends env (.writing, n + 1) (.sql .commit) (.error message) (.writing, n)
  | rollback {n : ℕ} {r : Except String Unit} :
      Spends env (.writing, n + 1) (.sql .rollback) r (.inside, n)

/-- An exception costs one command too, and it is not raised while a transaction is
open. -/
def MayThrow (φ : Mode × ℕ) : Prop := φ.1 ≠ .writing ∧ 0 < φ.2

/-- `Spending env Q m mode n`: the routine `m` keeps to a budget of `n` commands. -/
abbrev Spending (env : Env) {α : Type} (Q : α → Mode × ℕ → Prop) (m : Program α) (mode : Mode)
    (n : ℕ) : Prop :=
  Follows Cmd.Plausible (Spends env) MayThrow Q m (mode, n)

/-- After a routine that costs at most `cost`. -/
def Left (mode : Mode) (n cost : ℕ) (φ : Mode × ℕ) : Prop := φ.1 = mode ∧ n ≤ φ.2 + cost

/-! ## Clients -/

section Clients

variable {mode : Mode} {n : ℕ}

theorem spending_send {c : Cmd} {Q : c.Reply → Mode × ℕ → Prop} (hc : c.ordinary = true)
    (hQ : ∀ r, Q r (mode, n)) : Spending env Q (Prog.send (R := Cmd.Reply) c) mode (n + 1) :=
  fun r _ => ⟨_, .pass hc, hQ r⟩

theorem spending_draw (h : mode ≠ .writing) :
    Spending env (fun _ φ => φ = (mode, n)) fetchAddSequence mode (n + 1) :=
  fun _ _ => ⟨(mode, n), .draw h, rfl⟩

theorem spending_query {q : Query} {Q : List q.Row → Mode × ℕ → Prop}
    (hQ : ∀ rows, Q rows (mode, n)) : Spending env Q (MySqlClient.query q) mode (n + 1) := by
  refine Follows.bind (P := fun _ φ => φ = (mode, n)) (spending_send rfl fun _ => rfl) ?_
  rintro (_ | rows) φ rfl
  · exact hQ []
  · exact hQ rows

theorem spending_queryOne {q : Query} {Q : Option q.Row → Mode × ℕ → Prop}
    (hQ : ∀ row, Q row (mode, n)) : Spending env Q (MySqlClient.queryOne q) mode (n + 1) :=
  Follows.bind (spending_query (Q := fun _ φ => φ = (mode, n)) fun _ => rfl)
    fun rows _ h => h ▸ hQ rows.head?

theorem spending_execute {w : SqlWrite} {Q : Except String ℕ → Mode × ℕ → Prop}
    (hQ : ∀ r, Q r (mode, n)) : Spending env Q (MySqlClient.execute w) mode (n + 1) :=
  spending_send (c := .sql (.write w)) rfl hQ

theorem spending_get {k : RedisKey} {Q : Option String → Mode × ℕ → Prop}
    (hQ : ∀ v, Q v (mode, n)) : Spending env Q (RedisClient.get k) mode (n + 1) := by
  refine Follows.bind (P := fun _ φ => φ = (mode, n)) (spending_send rfl fun _ => rfl) ?_
  rintro (_ | v) φ rfl
  · exact hQ none
  · exact hQ v

theorem spending_hGetAll {k : RedisKey} {Q : Option (List (String × String)) → Mode × ℕ → Prop}
    (hQ : ∀ values, Q values (mode, n)) : Spending env Q (RedisClient.hGetAll k) mode (n + 1) := by
  refine Follows.bind (P := fun _ φ => φ = (mode, n)) (spending_send rfl fun _ => rfl) ?_
  rintro (_ | _ | ⟨field, rest⟩) φ rfl
  · exact hQ none
  · exact hQ none
  · exact hQ _

/-- The loop of `HSET`s sends at most one command a field. -/
theorem spending_hSetFields {k : RedisKey} :
    ∀ (values : List (String × String)) {n : ℕ},
      Spending env (fun _ => Left mode (n + values.length) values.length)
        (RedisClient.hSetFields k values) mode (n + values.length)
  | [], n => ⟨rfl, le_rfl⟩
  | (f, v) :: rest, n => by
    refine Follows.bind (P := fun _ φ => φ = (mode, n + rest.length))
      (spending_send rfl fun _ => rfl) ?_
    rintro (_ | _) φ rfl
    · exact ⟨rfl, by simp only [List.length_cons]; omega⟩
    · refine Follows.mono ?_ (spending_hSetFields rest (n := n))
      rintro stored φ ⟨rfl, hleft⟩
      exact ⟨rfl, by simp only [List.length_cons]; omega⟩

theorem spending_hSet {k : RedisKey} (values : List (String × String)) {ttl : ℤ}
    (h : values.length + 1 ≤ n) :
    Spending env (fun _ => Left mode n (values.length + 1)) (RedisClient.hSet env k values ttl)
      mode n := by
  have hlength : (env.fieldOrder values).length = values.length :=
    (env.fieldOrder_perm values).length_eq
  obtain ⟨l, rfl⟩ : ∃ l, n = l + 1 + (env.fieldOrder values).length :=
    ⟨n - values.length - 1, by omega⟩
  refine Follows.bind (spending_hSetFields _) ?_
  rintro (_ | _) ⟨mode', n'⟩ ⟨rfl, hleft⟩
  · exact ⟨rfl, by dsimp only at hleft ⊢; omega⟩
  · dsimp only at hleft
    rw [if_pos rfl]
    split
    · obtain ⟨n', rfl⟩ : ∃ m, n' = m + 1 := ⟨n' - 1, by omega⟩
      exact spending_send rfl fun _ => ⟨rfl, by dsimp only; omega⟩
    · exact ⟨rfl, by dsimp only; omega⟩

/-- Decoding a hash may fail. -/
theorem spending_orThrow {α : Type} {o : Option α} {Q : α → Mode × ℕ → Prop}
    (hmode : mode ≠ .writing) (hn : 0 < n) (hQ : ∀ a, Q a (mode, n)) :
    Spending env Q (orThrow o) mode n :=
  follows_ofOption.mpr ⟨fun a _ => hQ a, fun _ => ⟨hmode, hn⟩⟩

end Clients

/-! ## Repositories -/

section Repositories

variable {mode : Mode} {n : ℕ}

theorem spending_findById {sessionId : String} (hmode : mode ≠ .writing) (hn : 0 < n) :
    Spending env (fun _ φ => φ = (mode, n)) (RedisSessionRepository.findById sessionId) mode
      (n + 1) := by
  refine Follows.bind (spending_hGetAll (Q := fun _ φ => φ = (mode, n)) fun _ => rfl) ?_
  rintro (_ | values) φ rfl
  · rfl
  · exact Follows.bind (spending_orThrow (Q := fun _ φ => φ = (mode, n)) hmode hn fun _ => rfl)
      fun _ _ h => h

theorem spending_findByPlayerId {playerId : ℤ} (hmode : mode ≠ .writing) (hn : 0 < n) :
    Spending env (fun _ φ => φ = (mode, n)) (RedisPlayerCacheRepository.findByPlayerId playerId)
      mode (n + 1) := by
  refine Follows.bind (spending_hGetAll (Q := fun _ φ => φ = (mode, n)) fun _ => rfl) ?_
  rintro (_ | values) φ rfl
  · rfl
  · exact Follows.bind (spending_orThrow (Q := fun _ φ => φ = (mode, n)) hmode hn fun _ => rfl)
      fun _ _ h => h

theorem spending_findByBattleId {battleId : String} (hmode : mode ≠ .writing) (hn : 0 < n) :
    Spending env (fun _ φ => φ = (mode, n)) (RedisBattleContextRepository.findByBattleId battleId)
      mode (n + 1) := by
  refine Follows.bind (spending_hGetAll (Q := fun _ φ => φ = (mode, n)) fun _ => rfl) ?_
  rintro (_ | values) φ rfl
  · rfl
  · exact Follows.bind (spending_orThrow (Q := fun _ φ => φ = (mode, n)) hmode hn fun _ => rfl)
      fun _ _ h => h

theorem spending_loadPlayerState {playerId : ℤ} :
    Spending env (fun _ => Left mode (n + 2) 2) (MySqlPlayerRepository.loadPlayerState playerId)
      mode (n + 2) := by
  refine Follows.bind (spending_queryOne (Q := fun _ φ => φ = (mode, n + 1)) fun _ => rfl) ?_
  rintro (_ | profile) φ rfl
  · exact ⟨rfl, by dsimp only; omega⟩
  · exact Follows.bind (spending_query (Q := fun _ φ => φ = (mode, n)) fun _ => rfl)
      fun _ φ h => h ▸ ⟨rfl, le_rfl⟩

/-- Creating a session: at most nine commands. -/
theorem spending_create {accountId playerId : ℤ} :
    Spending env (fun _ φ => φ.1 = .outside) (RedisSessionRepository.create env accountId playerId)
      .outside 9 := by
  refine Follows.bind (P := fun _ φ => φ = (.outside, 8)) (spending_send rfl fun _ => rfl) ?_
  rintro createdAt φ rfl
  refine Follows.bind (spending_draw (n := 7) (by simp)) ?_
  rintro sequence φ rfl
  refine Follows.bind (spending_get (Q := fun _ φ => φ = (.outside, 6)) fun _ => rfl) ?_
  have hstore : ∀ (session : Session) (n : ℕ), 5 ≤ n → Spending env (fun _ φ => φ.1 = .outside) (do
        let _ ← RedisClient.hSet env (.session session.sessionId)
          (RedisSessionRepository.fields session) env.sessionTtl
        let _ ← RedisClient.set (.accountSession accountId) session.sessionId env.sessionTtl
        return session) .outside n := by
    intro session n hn
    refine Follows.bind (spending_hSet (RedisSessionRepository.fields session)
      (by simp only [RedisSessionRepository.fields, List.length_cons, List.length_nil]; omega)) ?_
    rintro _ ⟨mode, left⟩ ⟨rfl, hleft⟩
    simp only [RedisSessionRepository.fields, List.length_cons, List.length_nil] at hleft
    obtain ⟨l, rfl⟩ : ∃ l, left = l + 1 := ⟨left - 1, by omega⟩
    refine Follows.bind (P := fun _ φ => φ = (.outside, l)) (spending_send rfl fun _ => rfl) ?_
    rintro _ φ rfl
    rfl
  rintro (_ | old) φ rfl
  · exact hstore _ 6 (by omega)
  · refine Follows.bind (P := fun _ φ => φ = (.outside, 5)) (spending_send rfl fun _ => rfl) ?_
    rintro _ φ rfl
    exact hstore _ 5 le_rfl

/-- Ending a transaction: a rollback follows on a commit that fails. -/
theorem spending_finishTransaction {transaction : Except String Unit} :
    Spending env (fun r φ => φ.1 = .inside ∧ n ≤ φ.2 ∧ (r.isOk = true → n + 1 ≤ φ.2))
      (MySqlDungeonRepository.finishTransaction transaction) .writing (n + 2) := by
  have hrollback : ∀ message l, n ≤ l →
      Spending env (fun (r : Except String Unit) φ =>
        φ.1 = .inside ∧ n ≤ φ.2 ∧ (r.isOk = true → n + 1 ≤ φ.2)) (do
        let _ ← MySqlClient.rollback
        return .error message) .writing (l + 1) := by
    intro message l hl r _
    refine ⟨_, .rollback, rfl, hl, fun h => ?_⟩
    cases h
  cases transaction with
  | error message => exact hrollback message (n + 1) (by omega)
  | ok _ =>
    rintro (message | _) -
    · exact ⟨_, .noCommit, hrollback message n le_rfl⟩
    · exact ⟨_, .commit, rfl, by dsimp only; omega, fun _ => le_rfl⟩

theorem spending_enterStatements {profile : PlayerProfile} {config : DungeonConfig}
    {battleId : String} :
    Spending env (fun _ => Left .writing (n + 3) 3)
      (MySqlDungeonRepository.enterStatements profile config battleId) .writing (n + 3) := by
  refine Follows.bind (spending_queryOne (Q := fun _ φ => φ = (.writing, n + 2)) fun _ => rfl) ?_
  rintro pending φ rfl
  split
  · exact ⟨rfl, by dsimp only; omega⟩
  refine Follows.bind (spending_execute (Q := fun _ φ => φ = (.writing, n + 1)) fun _ => rfl) ?_
  rintro r φ rfl
  split
  · exact ⟨rfl, by dsimp only; omega⟩
  refine Follows.bind (spending_execute (Q := fun _ φ => φ = (.writing, n)) fun _ => rfl) ?_
  rintro r φ rfl
  split
  · exact ⟨rfl, le_rfl⟩
  · exact ⟨rfl, le_rfl⟩

theorem spending_settleStatements {context : BattleContext} {config : DungeonConfig} {star : ℤ}
    {firstClear : Bool} :
    Spending env (fun _ => Left .writing (n + 5) 5)
      (MySqlDungeonRepository.settleStatements context config star firstClear) .writing
      (n + 5) := by
  refine Follows.bind (spending_execute (Q := fun _ φ => φ = (.writing, n + 4)) fun _ => rfl) ?_
  rintro r φ rfl
  split
  · exact ⟨rfl, by dsimp only; omega⟩
  refine Follows.bind (spending_execute (Q := fun _ φ => φ = (.writing, n + 3)) fun _ => rfl) ?_
  rintro r φ rfl
  split
  · exact ⟨rfl, by dsimp only; omega⟩
  refine Follows.bind (spending_execute (Q := fun _ φ => φ = (.writing, n + 2)) fun _ => rfl) ?_
  rintro r φ rfl
  split
  · exact ⟨rfl, by dsimp only; omega⟩
  refine Follows.bind (spending_execute (Q := fun _ φ => φ = (.writing, n + 1)) fun _ => rfl) ?_
  rintro r φ rfl
  split
  · exact ⟨rfl, by dsimp only; omega⟩
  split
  · refine Follows.bind (spending_execute (Q := fun _ φ => φ = (.writing, n)) fun _ => rfl) ?_
    rintro r φ rfl
    split
    · exact ⟨rfl, le_rfl⟩
    · exact ⟨rfl, le_rfl⟩
  · exact ⟨rfl, by dsimp only; omega⟩

/-- `START TRANSACTION`, and what is done in the transaction. -/
theorem spending_beginTransaction :
    Spending env (fun r φ => φ = (if r.isOk then .writing else .inside, n))
      MySqlClient.beginTransaction .inside (n + 1) := by
  rintro (message | _) -
  · exact ⟨_, .noStart, rfl⟩
  · exact ⟨_, .start, rfl⟩

/-- Entering a dungeon in MySQL: at most six commands, five when it succeeds. -/
theorem spending_enterDungeon {playerState : PlayerState} {config : DungeonConfig}
    {battleId : String} :
    Spending env (fun result φ => φ.1 = .inside ∧ n ≤ φ.2 ∧ (result.success = true → n + 1 ≤ φ.2))
      (MySqlDungeonRepository.enterDungeon playerState config battleId) .inside (n + 6) := by
  refine Follows.bind spending_beginTransaction ?_
  rintro (message | _) φ rfl
  · exact ⟨rfl, by dsimp only; omega, fun h => absurd h Bool.false_ne_true⟩
  refine Follows.bind (spending_enterStatements (n := n + 2)) ?_
  rintro transaction ⟨mode, left⟩ ⟨rfl, hleft⟩
  obtain ⟨l, rfl, hl⟩ : ∃ l, left = l + 2 ∧ n ≤ l := ⟨left - 2, by dsimp only at hleft; omega⟩
  refine Follows.bind spending_finishTransaction ?_
  rintro (message | _) ⟨mode, left⟩ ⟨rfl, hle, hok⟩
  · exact ⟨rfl, hl.trans hle, fun h => absurd h Bool.false_ne_true⟩
  · exact ⟨rfl, hl.trans hle, fun _ => (Nat.succ_le_succ hl).trans (hok rfl)⟩

/-- Settling a battle in MySQL: at most nine commands, eight when it succeeds. -/
theorem spending_settleDungeon {context : BattleContext} {config : DungeonConfig} {star : ℤ} :
    Spending env (fun result φ => φ.1 = .inside ∧ n ≤ φ.2 ∧ (result.success = true → n + 1 ≤ φ.2))
      (MySqlDungeonRepository.settleDungeon context config star) .inside (n + 9) := by
  refine Follows.bind (spending_queryOne (Q := fun _ φ => φ = (.inside, n + 8)) fun _ => rfl) ?_
  rintro first φ rfl
  refine Follows.bind spending_beginTransaction ?_
  rintro (message | _) φ rfl
  · exact ⟨rfl, by dsimp only; omega, fun h => absurd h Bool.false_ne_true⟩
  refine Follows.bind (spending_settleStatements (n := n + 2)) ?_
  rintro transaction ⟨mode, left⟩ ⟨rfl, hleft⟩
  obtain ⟨l, rfl, hl⟩ : ∃ l, left = l + 2 ∧ n ≤ l := ⟨left - 2, by dsimp only at hleft; omega⟩
  refine Follows.bind spending_finishTransaction ?_
  rintro (message | _) ⟨mode, left⟩ ⟨rfl, hle, hok⟩
  · exact ⟨rfl, hl.trans hle, fun h => absurd h Bool.false_ne_true⟩
  · exact ⟨rfl, hl.trans hle, fun _ => (Nat.succ_le_succ hl).trans (hok rfl)⟩

end Repositories

/-! ## Services -/

section Services

/-- What a request may spend. -/
def Request.budget : Request → ℕ
  | .login _ => 10
  | .loadPlayer _ => 13
  | .enterDungeon _ => 18
  | .settleDungeon _ => 15
  | .restoreBinding _ _ => 2

/-- Back outside of the lock. -/
abbrev EndsOutside {α : Type} (_ : α) (φ : Mode × ℕ) : Prop := φ.1 = .outside

theorem spending_login (request : LoginRequest) :
    Spending env EndsOutside (LoginService.login env request) .outside 10 := by
  refine Follows.bind (spending_queryOne (Q := fun _ φ => φ = (.outside, 9)) fun _ => rfl) ?_
  rintro (_ | account) φ rfl
  · rfl
  dsimp only
  split
  · rfl
  split
  · rfl
  exact Follows.bind spending_create fun _ _ h => h

theorem spending_loadPlayer (request : LoadPlayerRequest) :
    Spending env EndsOutside (PlayerService.loadPlayer env request) .outside 13 := by
  refine Follows.bind (spending_findById (n := 12) (by simp) (by omega)) ?_
  rintro session φ rfl
  split
  · rfl
  refine Follows.bind (spending_findByPlayerId (n := 11) (by simp) (by omega)) ?_
  rintro (_ | cached) φ rfl
  · refine Follows.bind (spending_loadPlayerState (n := 9)) ?_
    rintro (_ | playerState) ⟨mode, left⟩ ⟨rfl, hleft⟩
    · rfl
    · dsimp only at hleft
      refine Follows.bind (spending_hSet (RedisPlayerCacheRepository.fields playerState)
        (by simp only [RedisPlayerCacheRepository.fields, List.length_cons, List.length_nil]
            omega)) ?_
      rintro _ ⟨mode, left⟩ ⟨rfl, -⟩
      rfl
  · rfl

/-- Giving the lock back takes one command. -/
theorem spending_release {α : Type} {p : ℤ} {response : α} {n : ℕ} (hn : 1 ≤ n) :
    Spending env EndsOutside (do
      DungeonService.releasePlayerLock p
      return response) .inside n := by
  obtain ⟨l, rfl⟩ : ∃ l, n = l + 1 := ⟨n - 1, by omega⟩
  exact fun r _ => ⟨_, .unlock, rfl⟩

/-- Acquiring the lock: from then on at most 16 commands. -/
theorem spending_acquire {p : ℤ} {n : ℕ} (hn : n ≤ 16) :
    Spending env (fun acquired φ => φ = (if acquired then .inside else .outside, n))
      (DungeonService.acquirePlayerLock env p) .outside (n + 1) := by
  intro r _
  by_cases hr : r = some true
  · subst hr
    exact ⟨_, .lock hn rfl, rfl⟩
  · refine ⟨_, .busy hr, ?_⟩
    have hnot : decide (r = some true) = false := decide_eq_false hr
    change (Mode.outside, n) = (if decide (r = some true) then .inside else .outside, n)
    rw [hnot]
    rfl

theorem spending_enterLocked {config : DungeonConfig} {request : EnterDungeonRequest} :
    Spending env (fun _ φ => φ.1 = .inside ∧ 1 ≤ φ.2)
      (DungeonService.enterLocked env config request) .inside 16 := by
  refine Follows.bind (spending_loadPlayerState (n := 14)) ?_
  rintro (_ | playerState) ⟨mode, left⟩ ⟨rfl, hleft⟩
  · dsimp only at hleft
    exact ⟨rfl, by dsimp only; omega⟩
  dsimp only at hleft ⊢
  split
  · exact ⟨rfl, by dsimp only; omega⟩
  split
  · exact ⟨rfl, by dsimp only; omega⟩
  obtain ⟨l, rfl, hl⟩ : ∃ l, left = l + 7 ∧ 7 ≤ l := ⟨left - 7, by omega, by omega⟩
  have hnumber : Spending env (fun _ φ => φ = (.inside, l + 6))
      (DungeonService.generateBattleId request.playerId request.dungeonId) .inside (l + 7) := by
    refine Follows.bind (spending_draw (n := l + 6) (by simp)) ?_
    rintro _ φ rfl
    rfl
  refine Follows.bind hnumber ?_
  rintro battleId φ rfl
  refine Follows.bind spending_enterDungeon ?_
  rintro result ⟨mode, left⟩ ⟨rfl, hle, hok⟩
  dsimp only at hle hok
  by_cases hsuccess : result.success = true
  · rw [if_neg (by simp [hsuccess])]
    have hleft := hok hsuccess
    refine Follows.bind (spending_hSet
      (RedisBattleContextRepository.fields result.battleContext)
      (by simp only [RedisBattleContextRepository.fields, List.length_cons, List.length_nil]
          omega)) ?_
    rintro _ ⟨mode, left⟩ ⟨rfl, hleft⟩
    simp only [RedisBattleContextRepository.fields, List.length_cons, List.length_nil] at hleft
    obtain ⟨l, rfl⟩ : ∃ l, left = l + 1 := ⟨left - 1, by omega⟩
    refine Follows.bind (P := fun _ φ => φ = (.inside, l)) (spending_send rfl fun _ => rfl) ?_
    rintro _ φ rfl
    exact ⟨rfl, by dsimp only; omega⟩
  · rw [if_pos (by simpa using hsuccess)]
    exact ⟨rfl, by dsimp only; omega⟩

theorem spending_enterDungeonService (request : EnterDungeonRequest) :
    Spending env EndsOutside (DungeonService.enterDungeon env request) .outside 18 := by
  refine Follows.bind (spending_findById (n := 17) (by simp) (by omega)) ?_
  rintro session φ rfl
  split
  · rfl
  split
  · rfl
  refine Follows.bind (spending_acquire (n := 16) le_rfl) ?_
  rintro (_ | _) φ rfl
  · rfl
  refine Follows.bind spending_enterLocked ?_
  rintro response ⟨mode, left⟩ ⟨rfl, hleft⟩
  exact spending_release hleft

theorem spending_findBattle {battleId : String} {n : ℕ} :
    Spending env (fun _ => Left .inside (n + 2) 2) (DungeonService.findBattle battleId) .inside
      (n + 2) := by
  refine Follows.bind (spending_findByBattleId (n := n + 1) (by simp) (by omega)) ?_
  rintro (_ | context) φ rfl
  · exact Follows.bind (spending_queryOne (Q := fun _ φ => φ = (.inside, n)) fun _ => rfl)
      fun _ φ h => h ▸ ⟨rfl, le_rfl⟩
  · exact ⟨rfl, by dsimp only; omega⟩

theorem spending_settleLocked {config : DungeonConfig} {request : SettleDungeonRequest} :
    Spending env (fun _ φ => φ.1 = .inside ∧ 1 ≤ φ.2)
      (DungeonService.settleLocked config request) .inside 13 := by
  refine Follows.bind (spending_findBattle (n := 11)) ?_
  rintro (_ | context) ⟨mode, left⟩ ⟨rfl, hleft⟩
  · dsimp only at hleft
    exact ⟨rfl, by dsimp only; omega⟩
  dsimp only at hleft ⊢
  split
  · exact ⟨rfl, by dsimp only; omega⟩
  split
  · exact ⟨rfl, by dsimp only; omega⟩
  obtain ⟨l, rfl, hl⟩ : ∃ l, left = l + 9 ∧ 2 ≤ l := ⟨left - 9, by omega, by omega⟩
  refine Follows.bind spending_settleDungeon ?_
  rintro result ⟨mode, left⟩ ⟨rfl, hle, hok⟩
  dsimp only at hle hok
  by_cases hsuccess : result.success = true
  · rw [if_neg (by simp [hsuccess])]
    have hleft := hok hsuccess
    obtain ⟨l, rfl⟩ : ∃ l, left = l + 2 := ⟨left - 2, by omega⟩
    refine Follows.bind (P := fun _ φ => φ = (.inside, l + 1)) (spending_send rfl fun _ => rfl) ?_
    rintro _ φ rfl
    refine Follows.bind (P := fun _ φ => φ = (.inside, l)) (spending_send rfl fun _ => rfl) ?_
    rintro _ φ rfl
    exact ⟨rfl, by dsimp only; omega⟩
  · rw [if_pos (by simpa using hsuccess)]
    exact ⟨rfl, by dsimp only; omega⟩

theorem spending_settleDungeonService (request : SettleDungeonRequest) :
    Spending env EndsOutside (DungeonService.settleDungeon env request) .outside 15 := by
  rw [DungeonService.settleDungeon]
  split
  · rfl
  refine Follows.bind (spending_findById (n := 14) (by simp) (by omega)) ?_
  rintro session φ rfl
  split
  · rfl
  split
  · rfl
  split
  · rfl
  refine Follows.bind (spending_acquire (n := 13) (by omega)) ?_
  rintro (_ | _) φ rfl
  · rfl
  refine Follows.bind spending_settleLocked ?_
  rintro response ⟨mode, left⟩ ⟨rfl, hleft⟩
  exact spending_release hleft

theorem spending_restoreBinding (sessionId : String) (playerId : ℤ) :
    Spending env EndsOutside (SessionBindingAuthorizer.restoreBindingFromSession sessionId playerId)
      .outside 2 := by
  rw [SessionBindingAuthorizer.restoreBindingFromSession]
  split
  · rfl
  refine Follows.bind (spending_findById (n := 1) (by simp) (by omega)) ?_
  rintro session φ rfl
  split
  · rfl
  · rfl

/-- Every request keeps to its budget. -/
theorem serve_spends (env : Env) (request : Request) :
    Spending env EndsOutside (serve env request) .outside request.budget := by
  cases request with
  | login request => exact Follows.bind (spending_login request) fun _ _ h => h
  | loadPlayer request => exact Follows.bind (spending_loadPlayer request) fun _ _ h => h
  | enterDungeon request =>
    exact Follows.bind (spending_enterDungeonService request) fun _ _ h => h
  | settleDungeon request =>
    exact Follows.bind (spending_settleDungeonService request) fun _ _ h => h
  | restoreBinding sessionId playerId =>
    exact Follows.bind (spending_restoreBinding sessionId playerId) fun _ _ h => h

end Services

/-! ## Budgets and phases -/

/-- Where a request in a phase stands. -/
def Phase.mode : Phase → Mode
  | .locked _ => .inside
  | .numbered _ => .inside
  | .opened _ => .writing
  | .found _ _ => .inside
  | .decided _ => .inside
  | .writing _ _ _ => .writing
  | .aborting _ => .writing
  | .committed _ => .inside
  | .invalidated _ => .inside
  | .leaving _ => .inside
  | _ => .outside

theorem Phase.mode_eq_outside {φ : Phase} : φ.mode = .outside ↔ φ.lock = none := by
  cases φ <;> simp [mode, lock]

/-- Outside of the writing phases there is no open transaction. -/
theorem Phase.txn_of_mode {φ : Phase} {o : Option (List SqlWrite)} (h : φ.mode ≠ .writing)
    (ht : φ.Txn o) : o = none := by
  cases φ <;> first | exact ht | exact absurd rfl h

/-- A request spends its budget as it goes through the phases. -/
theorem Advance.mode {c : Cmd} {r : c.Reply} {φ ψ : Phase} {mode mode' : Mode} {n n' : ℕ}
    (hadv : Advance cfg φ c r ψ) (hspends : Spends env (mode, n) c r (mode', n'))
    (hmode : mode = φ.mode) : mode' = ψ.mode := by
  cases hadv with
  | pass harmless _ =>
    cases hspends with
    | pass _ => exact hmode
    | draw _ => exact hmode
    | _ => cases harmless
  | unlock exit =>
    cases hspends with
    | pass ordinary => cases ordinary
    | unlock => rfl
  | lock positive =>
    cases hspends with
    | pass ordinary => cases ordinary
    | lock _ _ => rfl
    | busy refused => exact absurd rfl refused
  | busy refused =>
    cases hspends with
    | pass ordinary => cases ordinary
    | lock _ _ => exact absurd rfl refused
    | busy _ => rfl
  | enterBegin | settleBegin =>
    cases hspends with
    | pass ordinary => cases ordinary
    | start => rfl
  | enterNoBegin | settleNoBegin =>
    cases hspends with
    | pass ordinary => cases ordinary
    | noStart => rfl
  | commit =>
    cases hspends with
    | pass ordinary => cases ordinary
    | commit => rfl
  | noCommit =>
    cases hspends with
    | pass ordinary => cases ordinary
    | noCommit => rfl
  | rollback =>
    cases hspends with
    | pass ordinary => cases ordinary
    | rollback => rfl
  | number =>
    cases hspends with
    | pass _ => exact hmode
    | draw _ => exact hmode
  | _ =>
    cases hspends with
    | pass _ => exact hmode

/-! ## Running requests -/

variable {ι : Type} [DecidableEq ι] {w w' w₀ : World ι} {φ φ' : ι → Phase} {l : Label ι}

/-- The commands a request with this trail has sent since it acquired the player lock. -/
def sinceLock : List Exchange → ℕ
  | [] => 0
  | e :: trail => if e.acquires.isSome then 0 else sinceLock trail + 1

/-- Every request has the rest of its budget left, and of the 16 commands it may send
under the player lock. -/
def Budgeted (env : Env) (w : World ι) (φ : ι → Phase) : Prop :=
  ∀ i task, w.tasks i = some task → ∃ n, task.trail.length + n = task.request.budget ∧
    ((φ i).mode ≠ .outside → sinceLock task.trail + n ≤ 16) ∧
    Spending env EndsOutside task.rest (φ i).mode n

/-- One command of a request. -/
theorem Spends.spent {c : Cmd} {r : c.Reply} {mode mode' : Mode} {n n' : ℕ}
    (h : Spends env (mode, n) c r (mode', n')) : n = n' + 1 ∧
      ∀ trail, (mode ≠ .outside → sinceLock trail + n ≤ 16) → mode' ≠ .outside →
        sinceLock (⟨c, r⟩ :: trail) + n' ≤ 16 := by
  have hcount : ∀ {mode : Mode} {trail : List Exchange} {n : ℕ}, mode ≠ .outside →
      (mode ≠ .outside → sinceLock trail + (n + 1) ≤ 16) →
      sinceLock (⟨c, r⟩ :: trail) + n ≤ 16 := by
    intro mode trail n hmode hle
    have hle := hle hmode
    rw [sinceLock]
    split
    · omega
    · omega
  cases h with
  | pass ordinary => exact ⟨rfl, fun trail hle hmode => hcount hmode hle⟩
  | draw before => exact ⟨rfl, fun trail hle hmode => hcount hmode hle⟩
  | lock window lifetime =>
    refine ⟨rfl, fun trail _ _ => ?_⟩
    have hzero : ∀ {v : String} {ttl : ℕ} {p : ℤ},
        sinceLock (⟨.redis (.setNx (.playerLock p) v ttl), some true⟩ :: trail) = 0 := rfl
    rw [hzero, Nat.zero_add]
    exact window
  | busy refused => exact ⟨rfl, fun _ _ hmode => absurd rfl hmode⟩
  | unlock => exact ⟨rfl, fun _ _ hmode => absurd rfl hmode⟩
  | start => exact ⟨rfl, fun trail hle _ => hcount (by simp) hle⟩
  | noStart => exact ⟨rfl, fun trail hle _ => hcount (by simp) hle⟩
  | commit => exact ⟨rfl, fun trail hle _ => hcount (by simp) hle⟩
  | noCommit => exact ⟨rfl, fun trail hle _ => hcount (by simp) hle⟩
  | rollback => exact ⟨rfl, fun trail hle _ => hcount (by simp) hle⟩

omit [DecidableEq ι] in
theorem Budgeted.init (h : ∀ i, w.tasks i = none) : Budgeted env w φ := by
  intro i task hi
  rw [h i] at hi
  cases hi

/-- A command that is performed gets its answer. -/
theorem Store.Performed.perform {s s' : Store ι} {i : ι} {fault : Option String} {c : Cmd}
    {r : c.Reply} (h : s.Performed i fault c r s') : s.perform i fault c = some (r, s') := by
  cases h with
  | sql executed => simp only [Store.perform, executed, Option.map_some]
  | redis executed => simp only [Store.perform, executed]
  | _ => rfl

/-- Every move keeps the requests to their budgets. -/
theorem Budgeted.step (h : Budgeted env w φ) (hphased : Phased env w φ)
    (hmove : Moves env w φ l w' φ') : Budgeted env w' φ' := by
  -- a process that goes back to rest
  have hrest : ∀ {i : ι}, ∀ j task, Function.update w.tasks i none j = some task →
      Function.update φ i .outside j = φ j ∧ w.tasks j = some task := by
    intro i j task hj
    rcases some_of_update hj with ⟨-, heq⟩ | ⟨hji, hj⟩
    · cases heq
    · exact ⟨Function.update_of_ne hji .., hj⟩
  cases hmove with
  | start idle =>
    rename_i i request
    intro j task hj
    rcases some_of_update hj with ⟨rfl, heq⟩ | ⟨-, hj⟩
    · obtain rfl := Option.some.inj heq
      have hφ : φ j = .outside := hphased.idle j idle
      refine ⟨request.budget, Nat.zero_add _, fun hmode => ?_, ?_⟩
      · rw [hφ] at hmode
        exact absurd rfl hmode
      · rw [hφ]
        exact serve_spends env request
    · exact h j task hj
  | exec task performed advance =>
    rename_i i fault id request trail c k r store ψ
    intro j task' hj
    rcases some_of_update hj with ⟨rfl, heq⟩ | ⟨hji, hj⟩
    · obtain rfl := Option.some.inj heq
      obtain ⟨n, hlength, hwindow, hspending⟩ := h j _ task
      obtain ⟨⟨mode', n'⟩, hspends, hk⟩ := hspending r
        (Store.plausible_of_perform performed.perform)
      obtain rfl := advance.mode hspends rfl
      obtain ⟨rfl, hspent⟩ := hspends.spent
      rw [Function.update_self]
      refine ⟨n', ?_, hspent trail hwindow, hk⟩
      dsimp only [List.length_cons] at hlength ⊢
      omega
    · rw [Function.update_of_ne hji]
      exact h j task' hj
  | finish task ends =>
    intro j task' hj
    obtain ⟨hφ, hj⟩ := hrest j task' hj
    rw [hφ]
    exact h j task' hj
  | crash noted =>
    intro j task' hj
    obtain ⟨hφ, hj⟩ := hrest j task' hj
    rw [hφ]
    exact h j task' hj
  | tick => exact h
  | evict => exact h

omit [DecidableEq ι] in
/-- A request that an exception has stopped has no transaction open. -/
theorem Budgeted.txn_of_throw (h : Budgeted env w φ) (hcore : Core env w φ) {i : ι} {task : Task}
    (hi : w.tasks i = some task) (hthrow : task.rest = .throw) :
    w.store.mysql.txns i = none := by
  obtain ⟨n, -, -, hspending⟩ := h i task hi
  rw [hthrow] at hspending
  exact Phase.txn_of_mode hspending.1 (hcore.txn i)

end GameBackend
