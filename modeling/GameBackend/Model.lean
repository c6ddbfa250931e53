import Mathlib.Data.Int.Basic

/-!
# The data model shared by the servers

The records of `common/model`, the error codes, the dungeon configuration and
the request and response records of the three services, field by field. Player,
account and dungeon numbers, levels and amounts are integers; the width of a
column matters only where a statement computes a new value, and is checked
there.
-/

namespace GameBackend

/-! ## `common/model` -/

/-- A row of `account`, joined with the account's first player. -/
structure Account where
  accountId : ℤ
  accountName : String
  passwordHash : String
  defaultPlayerId : ℤ
  enabled : Bool
  deriving DecidableEq, Repr

/-- What is known of a battle between entering and settling. -/
structure BattleContext where
  battleId : String
  playerId : ℤ
  dungeonId : ℤ
  costStamina : ℤ
  maxStar : ℤ := 3
  settled : Bool := false
  deriving DecidableEq, Repr

structure PlayerDungeonProgress where
  dungeonId : ℤ
  bestStar : ℤ
  isFirstClear : Bool
  deriving DecidableEq, Repr

structure PlayerProfile where
  playerId : ℤ
  accountId : ℤ
  playerName : String
  level : ℤ
  stamina : ℤ
  gold : ℤ
  diamond : ℤ
  deriving DecidableEq, Repr

structure PlayerState where
  profile : PlayerProfile
  dungeonProgress : List PlayerDungeonProgress
  deriving DecidableEq, Repr

structure Reward where
  rewardType : String
  amount : ℤ
  deriving DecidableEq, Repr

structure Session where
  sessionId : String
  accountId : ℤ
  playerId : ℤ
  createdAtEpochSeconds : ℤ
  deriving DecidableEq, Repr

/-! ## Error codes -/

inductive ErrorCode where
  | ok
  | accountNotFound
  | accountDisabled
  | invalidPassword
  | sessionInvalid
  | playerNotFound
  | playerBusy
  | dungeonNotFound
  | dungeonLocked
  | staminaNotEnough
  | battleNotFound
  | battleMismatch
  | battleAlreadySettled
  | invalidDungeonId
  | invalidStar
  | storageError
  | serviceUnavailable
  | upstreamTimeout
  | badGateway
  deriving DecidableEq, Repr

/-! ## Configuration -/

structure DungeonConfig where
  dungeonId : ℤ := 0
  requiredLevel : ℤ := 1
  costStamina : ℤ := 10
  maxStar : ℤ := 3
  normalGoldReward : ℤ := 100
  firstClearDiamondReward : ℤ := 50
  deriving DecidableEq, Repr

/-- What the deployment fixes for all servers: the dungeon, the configured
lifetimes in seconds, the order in which `unordered_map` hands out the fields of
a hash, and the password check. -/
structure Env where
  /-- the dungeon of `InMemoryDungeonConfigRepository` -/
  dungeonConfig : DungeonConfig
  /-- `ttl.session_seconds` -/
  sessionTtl : ℤ := 3600
  /-- `ttl.player_snapshot_seconds` -/
  snapshotTtl : ℤ := 300
  /-- `ttl.battle_context_seconds` -/
  battleContextTtl : ℤ := 3600
  /-- `ttl.player_lock_seconds` -/
  playerLockTtl : ℤ := 10
  /-- the iteration order of the field map -/
  fieldOrder : List (String × String) → List (String × String)
  /-- iteration visits every field exactly once -/
  fieldOrder_perm : ∀ fields, (fieldOrder fields).Perm fields
  /-- `PasswordHasher::VerifyPassword` -/
  verifyPassword : String → String → Bool

/-! ## Requests and responses -/

structure LoginRequest where
  accountName : String
  password : String
  deriving DecidableEq, Repr

structure LoginResponse where
  success : Bool
  errorCode : ErrorCode
  errorMessage : String
  session : Option Session
  defaultPlayerId : ℤ
  deriving DecidableEq, Repr

structure LoadPlayerRequest where
  sessionId : String
  playerId : ℤ
  deriving DecidableEq, Repr

structure LoadPlayerResponse where
  success : Bool
  errorCode : ErrorCode
  errorMessage : String
  playerState : Option PlayerState
  loadedFromCache : Bool
  deriving DecidableEq, Repr

structure EnterDungeonRequest where
  sessionId : String
  playerId : ℤ
  dungeonId : ℤ
  deriving DecidableEq, Repr

structure EnterDungeonResponse where
  success : Bool
  errorCode : ErrorCode
  errorMessage : String
  battleId : String
  remainStamina : ℤ
  deriving DecidableEq, Repr

structure SettleDungeonRequest where
  sessionId : String
  playerId : ℤ
  battleId : String
  dungeonId : ℤ
  star : ℤ
  result : Bool := true
  deriving DecidableEq, Repr

structure SettleDungeonResponse where
  success : Bool
  errorCode : ErrorCode
  errorMessage : String
  firstClear : Bool
  rewards : List Reward
  deriving DecidableEq, Repr

/-- `MySqlDungeonRepository::EnterDungeon`'s result. -/
structure EnterDungeonResult where
  success : Bool := false
  remainStamina : ℤ := 0
  errorMessage : String := ""
  battleContext : BattleContext
  deriving DecidableEq, Repr

/-- `MySqlDungeonRepository::SettleDungeon`'s result. -/
structure SettleDungeonResult where
  success : Bool := false
  firstClear : Bool := false
  errorMessage : String := ""
  rewards : List Reward := []
  deriving DecidableEq, Repr

end GameBackend
