import GameBackend.World

/-!
# The protocol of the services

What the services do, seen from the two stores: the phases a request goes
through and the commands it may send in each. `Advance` is read off the service
code once, by the conformance proof of `Conformance`; everything later argues
about phases and never about service code.

* A dungeon request acquires the player lock (`locked`), learns what it is about
  (`numbered`, `found`), decides (`decided`), opens a transaction (`opened`,
  `writing`), ends it (`aborting`, `committed`), cleans up in Redis
  (`invalidated`) and gives the lock back (`released`).
* A login creates a session (`signing`).
* A `LoadPlayer` request finds a snapshot (`hit`), or misses it (`missed`), reads
  MySQL (`profiled`, `loaded`) and writes the snapshot back.
* A `Deed` is what a transaction is about; `Deed.plan` its write statements, in
  order.
-/

namespace GameBackend

/-! ## Deeds -/

/-- What a settlement is about. -/
structure Settlement where
  battleId : String
  playerId : ℤ
  dungeonId : ℤ
  star : ℤ
  firstClear : Bool
  deriving DecidableEq, Repr

/-- What a transaction is about. -/
inductive Deed where
  /-- enter a dungeon: the battle row to insert -/
  | enter (row : BattleRow)
  | settle (s : Settlement)
  deriving DecidableEq, Repr

/-- The player concerned. -/
def Deed.player : Deed → ℤ
  | .enter row => row.playerId
  | .settle s => s.playerId

/-- The diamonds a settlement credits, if it does. -/
def Settlement.diamond (cfg : DungeonConfig) (s : Settlement) : Option ℤ :=
  if s.firstClear then some cfg.firstClearDiamondReward else none

/-- The reward rows of a settlement. -/
def Settlement.rewardRows (cfg : DungeonConfig) (s : Settlement) : List RewardRow :=
  ⟨s.playerId, s.battleId, "gold", cfg.normalGoldReward⟩ ::
    (if s.firstClear then [⟨s.playerId, s.battleId, "diamond", cfg.firstClearDiamondReward⟩]
    else [])

/-- The write statements of a deed, in order. -/
def Deed.plan (cfg : DungeonConfig) : Deed → List SqlWrite
  | .enter row => [.updateAssetStamina row.playerId row.costStamina, .insertBattle row]
  | .settle s =>
    .updateBattle s.battleId ::
    .updateAssetReward s.playerId cfg.normalGoldReward (s.diamond cfg) ::
    .upsertProgress s.playerId s.dungeonId s.star s.firstClear ::
    (s.rewardRows cfg).map .insertRewardLog

/-- The statements whose number of affected rows the code checks. -/
def SqlWrite.guarded : SqlWrite → Bool
  | updateAssetStamina _ _ => true
  | updateBattle _ => true
  | _ => false

/-- The context `EnterDungeon` stores for a battle row. -/
def contextOfEntered (cfg : DungeonConfig) (row : BattleRow) : BattleContext :=
  { battleId := row.battleId
    playerId := row.playerId
    dungeonId := row.dungeonId
    costStamina := row.costStamina
    maxStar := cfg.maxStar }

/-- The state `LoadPlayerState` builds from its two result sets. -/
def stateOf (profile : PlayerProfile) (rows : List ProgressRow) : PlayerState :=
  ⟨profile, MySqlPlayerRepository.sortProgress (rows.map MySqlPlayerRepository.progressOf)⟩

/-! ## Phases -/

/-- Where a request is. -/
inductive Phase where
  /-- no lock taken, no snapshot looked up -/
  | outside
  /-- a login that creates a session -/
  | signing
  /-- `LoadPlayer` found no snapshot -/
  | missed (p : ℤ)
  /-- it has read the profile -/
  | profiled (p : ℤ) (profile : PlayerProfile)
  /-- it has read the progress too and writes the snapshot -/
  | loaded (p : ℤ) (state : PlayerState)
  /-- `LoadPlayer` found a snapshot -/
  | hit (p : ℤ) (values : List (String × String))
  /-- the player lock is acquired -/
  | locked (p : ℤ)
  /-- `EnterDungeon` has drawn a battle id -/
  | numbered (row : BattleRow)
  /-- its transaction is open, the pending battle not checked yet -/
  | opened (row : BattleRow)
  /-- `SettleDungeon` has found its battle -/
  | found (p : ℤ) (context : BattleContext)
  /-- it knows whether this is a first clear -/
  | decided (s : Settlement)
  /-- a transaction is open; these writes are done, these are left -/
  | writing (deed : Deed) (done todo : List SqlWrite)
  /-- a transaction is open and will be rolled back -/
  | aborting (p : ℤ)
  /-- the transaction is committed -/
  | committed (deed : Deed)
  /-- and the snapshot was deleted -/
  | invalidated (deed : Deed)
  /-- nothing was committed, the lock is still to be given back -/
  | leaving (p : ℤ)
  /-- the lock was given back -/
  | released (deed : Option Deed)

/-- The player whose lock a request has acquired and not yet given back. -/
def Phase.lock : Phase → Option ℤ
  | .locked p => some p
  | .numbered row => some row.playerId
  | .opened row => some row.playerId
  | .found p _ => some p
  | .decided s => some s.playerId
  | .writing deed _ _ => some deed.player
  | .aborting p => some p
  | .committed deed => some deed.player
  | .invalidated deed => some deed.player
  | .leaving p => some p
  | _ => none

/-- The phases in which a request gives the lock back, with the player and what
was committed. -/
def Phase.exit : Phase → Option (ℤ × Option Deed)
  | .locked p => some (p, none)
  | .found p _ => some (p, none)
  | .leaving p => some (p, none)
  | .invalidated deed => some (deed.player, some deed)
  | _ => none

/-- A query that fails or has no result row. -/
abbrev emptyReply {α : Type} (r : Option (List α)) : Prop := r.getD [] = []

/-- The commands that touch neither the tables nor a snapshot, a battle context
or a player lock. -/
def Cmd.harmless : Cmd → Bool
  | .sql (.select (.account _)) => true
  | .sql (.select (.profile _)) => true
  | .sql (.select (.progress _)) => true
  | .redis (.get _) => true
  | .redis (.hgetall (.session _)) => true
  | .redis (.set (.accountSession _) _ _) => true
  | .redis (.hset (.session _) _ _) => true
  | .redis (.expire (.session _) _) => true
  | .redis (.del (.session _)) => true
  | .fetchAddSequence => true
  | .epochSeconds => true
  | _ => false

/-- The commands that write a session. -/
def Cmd.signs : Cmd → Bool
  | .redis (.set (.accountSession _) _ _) => true
  | .redis (.hset (.session _) _ _) => true
  | .redis (.expire (.session _) _) => true
  | .redis (.del (.session _)) => true
  | _ => false

/-- The keys of the login server. -/
def RedisKey.ofLogin : RedisKey → Bool
  | session _ => true
  | accountSession _ => true
  | _ => false

/-- A harmless Redis command only reads, or is about a key of the login
server. -/
theorem Cmd.reads_or_ofLogin {d : RedisCmd} (h : (Cmd.redis d).harmless = true) :
    d.reads = true ∨ d.key.ofLogin = true := by
  cases d with
  | get k => exact .inl rfl
  | hgetall k => exact .inl rfl
  | set k v ttl => cases k <;> first | exact .inr rfl | cases h
  | hset k f v => cases k <;> first | exact .inr rfl | cases h
  | expire k ttl => cases k <;> first | exact .inr rfl | cases h
  | del k => cases k <;> first | exact .inr rfl | cases h
  | setNx k v ttl => cases h

/-- So it writes no other key. -/
theorem Cmd.reads_or_others {d : RedisCmd} (h : (Cmd.redis d).harmless = true) :
    d.reads = true ∨ ∀ k : RedisKey, k.ofLogin = false → k ≠ d.key := by
  refine (Cmd.reads_or_ofLogin h).imp_right fun hlogin k hk hkey => ?_
  rw [hkey, hlogin] at hk
  cases hk

/-- `Advance cfg φ c r φ'`: in phase `φ` a request may send `c`, and the answer
`r` takes it to phase `φ'`. -/
inductive Advance (cfg : DungeonConfig) : Phase → (c : Cmd) → c.Reply → Phase → Prop where
  | pass {φ : Phase} {c : Cmd} {r : c.Reply} (harmless : c.harmless = true)
      (signs : c.signs = true → φ = .signing) : Advance cfg φ c r φ
  -- `Login`
  | sign {t : ℤ} : Advance cfg .outside .epochSeconds t .signing
  -- `LoadPlayer`
  | miss {p : ℤ} {r : Option (List (String × String))} (empty : emptyReply r) :
      Advance cfg .outside (.redis (.hgetall (.playerSnapshot p))) r (.missed p)
  | hit {p : ℤ} {values : List (String × String)} (nonempty : values ≠ []) :
      Advance cfg .outside (.redis (.hgetall (.playerSnapshot p))) (some values) (.hit p values)
  | profile {p : ℤ} {profile : PlayerProfile} {rows : List PlayerProfile} :
      Advance cfg (.missed p) (.sql (.select (.profile p))) (some (profile :: rows))
        (.profiled p profile)
  | progress {p : ℤ} {profile : PlayerProfile} {r : Option (List ProgressRow)} :
      Advance cfg (.profiled p profile) (.sql (.select (.progress p))) r
        (.loaded p (stateOf profile (r.getD [])))
  | fill {p : ℤ} {state : PlayerState} {f v : String} {r : Bool}
      (field : (f, v) ∈ RedisPlayerCacheRepository.fields state) :
      Advance cfg (.loaded p state) (.redis (.hset (.playerSnapshot p) f v)) r (.loaded p state)
  | fillExpire {p : ℤ} {state : PlayerState} {ttl : ℕ} {r : Bool} :
      Advance cfg (.loaded p state) (.redis (.expire (.playerSnapshot p) ttl)) r (.loaded p state)
  -- the player lock
  | lock {p : ℤ} {v : String} {ttl : ℕ} (positive : 0 < ttl) :
      Advance cfg .outside (.redis (.setNx (.playerLock p) v ttl)) (some true) (.locked p)
  | busy {p : ℤ} {v : String} {ttl : ℕ} {r : Option Bool} (refused : r ≠ some true) :
      Advance cfg .outside (.redis (.setNx (.playerLock p) v ttl)) r .outside
  | unlock {φ : Phase} {p : ℤ} {deed : Option Deed} {r : Bool} (exit : φ.exit = some (p, deed)) :
      Advance cfg φ (.redis (.del (.playerLock p))) r (.released deed)
  -- `EnterDungeon`
  | number {p : ℤ} {n : UInt64} :
      Advance cfg (.locked p) .fetchAddSequence n
        (.numbered ⟨DungeonService.battleIdText p cfg.dungeonId n, p, cfg.dungeonId, 0,
          cfg.costStamina⟩)
  | enterBegin {row : BattleRow} :
      Advance cfg (.numbered row) (.sql .startTransaction) (.ok ()) (.opened row)
  | enterNoBegin {row : BattleRow} {message : String} :
      Advance cfg (.numbered row) (.sql .startTransaction) (.error message)
        (.leaving row.playerId)
  | noPending {row : BattleRow} {r : Option (List String)} (empty : emptyReply r) :
      Advance cfg (.opened row) (.sql (.select (.pendingBattle row.playerId))) r
        (.writing (.enter row) [] ((Deed.enter row).plan cfg))
  | pending {row : BattleRow} {r : Option (List String)} (nonempty : ¬emptyReply r) :
      Advance cfg (.opened row) (.sql (.select (.pendingBattle row.playerId))) r
        (.aborting row.playerId)
  -- `SettleDungeon`
  | findContext {p : ℤ} {b : String} {values : List (String × String)} {context : BattleContext}
      (decoded : RedisBattleContextRepository.decode b values = some context) :
      Advance cfg (.locked p) (.redis (.hgetall (.battleCtx b))) (some values) (.found p context)
  | noContext {p : ℤ} {b : String} {r : Option (List (String × String))} :
      Advance cfg (.locked p) (.redis (.hgetall (.battleCtx b))) r (.locked p)
  | noBattle {p : ℤ} {b : String} {r : Option (List BattleRow)} (empty : emptyReply r) :
      Advance cfg (.locked p) (.sql (.select (.battle b))) r (.locked p)
  | findBattle {p : ℤ} {b : String} {row : BattleRow} {rows : List BattleRow}
      (key : row.battleId = b) :
      Advance cfg (.locked p) (.sql (.select (.battle b))) (some (row :: rows))
        (.found p (MySqlDungeonRepository.contextOf row))
  | decide {p star : ℤ} {context : BattleContext} {r : Option (List ℤ)}
      (player : context.playerId = p) (dungeon : context.dungeonId = cfg.dungeonId)
      (unsettled : context.settled = false) :
      Advance cfg (.found p context) (.sql (.select (.firstClear p cfg.dungeonId))) r
        (.decided ⟨context.battleId, p, cfg.dungeonId, star, (r.getD []).isEmpty⟩)
  | settleBegin {s : Settlement} :
      Advance cfg (.decided s) (.sql .startTransaction) (.ok ())
        (.writing (.settle s) [] ((Deed.settle s).plan cfg))
  | settleNoBegin {s : Settlement} {message : String} :
      Advance cfg (.decided s) (.sql .startTransaction) (.error message) (.leaving s.playerId)
  -- the transaction
  | write {deed : Deed} {done todo : List SqlWrite} {w : SqlWrite} {n : ℕ}
      (accepted : w.guarded = true → n = 1) :
      Advance cfg (.writing deed done (w :: todo)) (.sql (.write w)) (.ok n)
        (.writing deed (done ++ [w]) todo)
  | refuse {deed : Deed} {done todo : List SqlWrite} {w : SqlWrite} {r : Except String ℕ}
      (refused : ∀ n, r = .ok n → w.guarded = true ∧ n ≠ 1) :
      Advance cfg (.writing deed done (w :: todo)) (.sql (.write w)) r (.aborting deed.player)
  | commit {deed : Deed} {done : List SqlWrite} :
      Advance cfg (.writing deed done []) (.sql .commit) (.ok ()) (.committed deed)
  | noCommit {deed : Deed} {done : List SqlWrite} {message : String} :
      Advance cfg (.writing deed done []) (.sql .commit) (.error message) (.aborting deed.player)
  | rollback {p : ℤ} {r : Except String Unit} :
      Advance cfg (.aborting p) (.sql .rollback) r (.leaving p)
  -- the clean-up in Redis
  | saveContext {row : BattleRow} {f v : String} {r : Bool}
      (field : (f, v) ∈ RedisBattleContextRepository.fields (contextOfEntered cfg row)) :
      Advance cfg (.committed (.enter row)) (.redis (.hset (.battleCtx row.battleId) f v)) r
        (.committed (.enter row))
  | expireContext {row : BattleRow} {ttl : ℕ} {r : Bool} :
      Advance cfg (.committed (.enter row)) (.redis (.expire (.battleCtx row.battleId) ttl)) r
        (.committed (.enter row))
  | dropContext {s : Settlement} {r : Bool} :
      Advance cfg (.committed (.settle s)) (.redis (.del (.battleCtx s.battleId))) r
        (.committed (.settle s))
  | invalidate {deed : Deed} {r : Bool} :
      Advance cfg (.committed deed) (.redis (.del (.playerSnapshot deed.player))) r
        (.invalidated deed)

/-- A command that touches nothing of importance is allowed in every phase. -/
theorem Advance.read {cfg : DungeonConfig} {φ : Phase} {c : Cmd} {r : c.Reply}
    (harmless : c.harmless = true) (hsigns : c.signs = false) : Advance cfg φ c r φ :=
  .pass harmless fun h => absurd (hsigns.symm.trans h) Bool.false_ne_true

/-! ## What a response says about the phase -/

/-- A phase without lock in which nothing was committed. -/
def Phase.Clean (φ : Phase) : Prop := φ = .outside ∨ φ = .released none

/-- The phase a request ends in, as far as its response tells. -/
def Ends (cfg : DungeonConfig) : Request → Response → Phase → Prop
  | .login _, .login _, φ => φ = .outside ∨ φ = .signing
  | .restoreBinding _ _, .restoreBinding _, φ => φ = .outside
  | .loadPlayer request, .loadPlayer response, φ => φ.lock = none ∧ φ ≠ .signing ∧
      (response.success = true → ∃ state, response.playerState = some state ∧
        (φ = .loaded request.playerId state ∨
          ∃ values, φ = .hit request.playerId values ∧
            RedisPlayerCacheRepository.decode values = some state))
  | .enterDungeon request, .enterDungeon response, φ =>
      (response.success = true → φ = .released (some (.enter
        ⟨response.battleId, request.playerId, request.dungeonId, 0, cfg.costStamina⟩))) ∧
      (response.success = false → φ.Clean)
  | .settleDungeon request, .settleDungeon response, φ =>
      (response.success = true → φ = .released (some (.settle ⟨request.battleId,
        request.playerId, request.dungeonId, request.star, response.firstClear⟩))) ∧
      (response.success = false → φ.Clean)
  | _, _, _ => False

theorem Phase.Clean.lock {φ : Phase} (h : φ.Clean) : φ.lock = none := by
  obtain rfl | rfl := h
  · rfl
  · rfl

/-- No request returns while it holds the lock. -/
theorem Ends.lock {cfg : DungeonConfig} {request : Request} {response : Response} {φ : Phase}
    (h : Ends cfg request response φ) : φ.lock = none := by
  cases request <;> cases response <;> try exact h.elim
  case login =>
    obtain rfl | rfl : φ = .outside ∨ φ = .signing := h
    · rfl
    · rfl
  case loadPlayer => exact h.1
  case enterDungeon response =>
    cases hs : response.success with
    | true => exact h.1 hs ▸ rfl
    | false => exact (h.2 hs).lock
  case settleDungeon response =>
    cases hs : response.success with
    | true => exact h.1 hs ▸ rfl
    | false => exact (h.2 hs).lock
  case restoreBinding => exact (show φ = .outside from h) ▸ rfl

end GameBackend
