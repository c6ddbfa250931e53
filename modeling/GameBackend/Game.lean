import GameBackend.Services
import GameBackend.Simulation

/-!
# The game

What the backend is for, without tables, transactions, locks, caches and contexts: heroes
who own something and have cleared dungeons, battles that are on or over, sessions that end
some time, and servers that name battles and sessions with numbers.

`Game.Serves` says what a request is answered in a game and what becomes of the game;
`Game.happen` is what happens between requests: time passes, a server starts again, a session
is lost. `Game.Later` is the order in which games go on: what was gained is kept, and a
battle that is over stays over.
-/

namespace GameBackend

/-! ## Heroes -/

/-- A player as the game sees one. -/
structure Hero where
  profile : PlayerProfile
  /-- best star and first-clear mark of each dungeon that was cleared -/
  progress : ℤ → Option (ℤ × Bool)

namespace Hero

variable {cfg : DungeonConfig} {hero hero' hero'' : Hero}

/-- The hero has paid to enter a dungeon. -/
def spend (cfg : DungeonConfig) (hero : Hero) : Hero :=
  { hero with profile := { hero.profile with stamina := hero.profile.stamina - cfg.costStamina } }

/-- The hero clears the dungeon for the first time. -/
def Novice (cfg : DungeonConfig) (hero : Hero) : Bool := (hero.progress cfg.dungeonId).isNone

/-- The diamonds for clearing the dungeon. -/
def bonus (cfg : DungeonConfig) (hero : Hero) : ℤ :=
  if hero.Novice cfg then cfg.firstClearDiamondReward else 0

/-- The rewards for clearing the dungeon. -/
def rewards (cfg : DungeonConfig) (hero : Hero) : List Reward :=
  ⟨"gold", cfg.normalGoldReward⟩ ::
    if hero.Novice cfg then [⟨"diamond", cfg.firstClearDiamondReward⟩] else []

/-- The hero can carry the rewards. -/
def CanCarry (cfg : DungeonConfig) (hero : Hero) : Bool :=
  inBigint (hero.profile.gold + cfg.normalGoldReward) &&
    inBigint (hero.profile.diamond + hero.bonus cfg)

/-- What is known of a dungeon once it is cleared again. -/
def improve (star : ℤ) : Option (ℤ × Bool) → ℤ × Bool
  | none => (star, true)
  | some (best, first) => (max best star, first)

/-- The hero has cleared the dungeon with this star. -/
def clear (cfg : DungeonConfig) (star : ℤ) (hero : Hero) : Hero where
  profile := { hero.profile with
    gold := hero.profile.gold + cfg.normalGoldReward
    diamond := hero.profile.diamond + hero.bonus cfg }
  progress := Function.update hero.progress cfg.dungeonId
    (some (improve star (hero.progress cfg.dungeonId)))

/-- The state shows the hero: the profile, and every dungeon once, in order. -/
structure Shown (hero : Hero) (state : PlayerState) : Prop where
  profile : state.profile = hero.profile
  ordered : state.dungeonProgress.Pairwise fun left right => left.dungeonId < right.dungeonId
  progress : ∀ entry, entry ∈ state.dungeonProgress ↔
    hero.progress entry.dungeonId = some (entry.bestStar, entry.isFirstClear)

/-- The hero has gone on: what was gained is still there. -/
structure Later (hero hero' : Hero) : Prop where
  playerId : hero'.profile.playerId = hero.profile.playerId
  accountId : hero'.profile.accountId = hero.profile.accountId
  level : hero'.profile.level = hero.profile.level
  gold : hero.profile.gold ≤ hero'.profile.gold
  diamond : hero.profile.diamond ≤ hero'.profile.diamond
  /-- nobody spends more than they have -/
  stamina : 0 ≤ hero.profile.stamina → 0 ≤ hero'.profile.stamina
  progress : ∀ d best first, hero.progress d = some (best, first) →
    ∃ best' first', hero'.progress d = some (best', first') ∧ best ≤ best' ∧
      (first = true → first' = true)

theorem Later.refl (hero : Hero) : hero.Later hero where
  playerId := rfl
  accountId := rfl
  level := rfl
  gold := le_rfl
  diamond := le_rfl
  stamina h := h
  progress _ best first h := ⟨best, first, h, le_rfl, id⟩

theorem Later.trans (h : hero.Later hero') (h' : hero'.Later hero'') : hero.Later hero'' where
  playerId := h'.playerId.trans h.playerId
  accountId := h'.accountId.trans h.accountId
  level := h'.level.trans h.level
  gold := h.gold.trans h'.gold
  diamond := h.diamond.trans h'.diamond
  stamina h₀ := h'.stamina (h.stamina h₀)
  progress d best first hd := by
    obtain ⟨best', first', hd', hbest, hfirst⟩ := h.progress d best first hd
    obtain ⟨best'', first'', hd'', hbest', hfirst'⟩ := h'.progress d best' first' hd'
    exact ⟨best'', first'', hd'', hbest.trans hbest', fun hf => hfirst' (hfirst hf)⟩

end Hero

/-! ## Games -/

/-- A battle as the game sees it. -/
structure Battle where
  playerId : ℤ
  dungeonId : ℤ
  settled : Bool
  deriving DecidableEq, Repr

/-- Something that ends at some time, or lasts. -/
structure Lasting (α : Type) where
  value : α
  ends : Option ℕ
  deriving DecidableEq, Repr

/-- It is still there at this time. -/
def Lasting.lasts {α : Type} (now : ℕ) (x : Lasting α) : Bool := x.ends.all fun t => now < t

/-- `ι` are the servers. -/
@[ext]
structure Game (ι : Type) where
  account : String → Option Account
  hero : ℤ → Option Hero
  battle : String → Option Battle
  session : String → Option (Lasting Session)
  /-- the session of the latest login of an account, as long as it is remembered -/
  latest : ℤ → Option (Lasting String)
  /-- milliseconds -/
  now : ℕ
  /-- the number that a server draws next -/
  number : ι → UInt64

namespace Game

variable {ι : Type} {cfg : DungeonConfig} {check : String → String → Bool} {lifetime : ℤ}
  {g g' g'' : Game ι}

/-- The session is one of player `p`. -/
def Admits (g : Game ι) (sessionId : String) (p : ℤ) : Prop :=
  (g.session sessionId).map (fun session => session.value.playerId) = some p

/-- Player `p` has a battle that is not over. -/
def Fighting (g : Game ι) (p : ℤ) : Prop :=
  ∃ b battle, g.battle b = some battle ∧ battle.playerId = p ∧ battle.settled = false

/-- What server `i` would call the battle of this request. -/
def battleId (g : Game ι) (i : ι) (request : EnterDungeonRequest) : String :=
  DungeonService.battleIdText request.playerId request.dungeonId (g.number i)

/-- The session that server `i` would make for a player. -/
def newSession (g : Game ι) (i : ι) (account : Account) : Session where
  sessionId := RedisSessionRepository.sessionIdText account.accountId account.defaultPlayerId
    (g.number i)
  accountId := account.accountId
  playerId := account.defaultPlayerId
  createdAtEpochSeconds := (g.now / 1000 : ℕ)

/-- The end of a lifetime that begins now. -/
def endOf (g : Game ι) (lifetime : ℤ) : Option ℕ :=
  if 0 < lifetime then some (g.now + 1000 * lifetime.toNat) else none

/-- The player may ask for a battle, and has the level and the stamina for it. -/
def Eligible (cfg : DungeonConfig) (g : Game ι) (request : EnterDungeonRequest) : Prop :=
  g.Admits request.sessionId request.playerId ∧ request.dungeonId = cfg.dungeonId ∧
    ∃ hero, g.hero request.playerId = some hero ∧ cfg.requiredLevel ≤ hero.profile.level ∧
      cfg.costStamina ≤ hero.profile.stamina

/-! ### What requests are answered -/

def loginCode (check : String → String → Bool) (g : Game ι) (request : LoginRequest) : ErrorCode :=
  match g.account request.accountName with
  | none => .accountNotFound
  | some account =>
    if account.enabled = false then .accountDisabled
    else if check request.password account.passwordHash = false then .invalidPassword
    else .ok

open Classical in
noncomputable def loadCode (g : Game ι) (request : LoadPlayerRequest) : ErrorCode :=
  if ¬g.Admits request.sessionId request.playerId then .sessionInvalid
  else if g.hero request.playerId = none then .playerNotFound
  else .ok

open Classical in
/-- The code of `EnterDungeon` if the battle is to be called `battleId`. -/
noncomputable def enterCode (cfg : DungeonConfig) (g : Game ι) (request : EnterDungeonRequest)
    (battleId : String) : ErrorCode :=
  if ¬g.Admits request.sessionId request.playerId then .sessionInvalid
  else if request.dungeonId ≠ cfg.dungeonId then .dungeonNotFound
  else
    match g.hero request.playerId with
    | none => .playerNotFound
    | some hero =>
      if hero.profile.level < cfg.requiredLevel then .dungeonLocked
      else if hero.profile.stamina < cfg.costStamina then .staminaNotEnough
      else if g.Fighting request.playerId then .playerBusy
      else if inInt (hero.profile.stamina - cfg.costStamina) = false then .staminaNotEnough
      else if (g.battle battleId).isSome then .storageError
      else .ok

open Classical in
noncomputable def settleCode (cfg : DungeonConfig) (g : Game ι) (request : SettleDungeonRequest) :
    ErrorCode :=
  if request.result = false then .storageError
  else if ¬g.Admits request.sessionId request.playerId then .sessionInvalid
  else if request.dungeonId ≠ cfg.dungeonId then .dungeonNotFound
  else if request.star ≤ 0 ∨ request.star > cfg.maxStar then .invalidStar
  else
    match g.battle request.battleId with
    | none => .battleNotFound
    | some battle =>
      if battle.playerId ≠ request.playerId ∨ battle.dungeonId ≠ request.dungeonId then
        .battleMismatch
      else if battle.settled then .battleAlreadySettled
      else if (g.hero request.playerId).any (Hero.CanCarry cfg) then .ok
      else .storageError

/-- When a player is let into the dungeon. -/
theorem enterCode_eq_ok {request : EnterDungeonRequest} {b : String} :
    g.enterCode cfg request b = .ok ↔ g.Admits request.sessionId request.playerId ∧
      request.dungeonId = cfg.dungeonId ∧
      (∃ hero, g.hero request.playerId = some hero ∧ cfg.requiredLevel ≤ hero.profile.level ∧
        cfg.costStamina ≤ hero.profile.stamina ∧
        inInt (hero.profile.stamina - cfg.costStamina) = true) ∧
      ¬g.Fighting request.playerId ∧ g.battle b = none := by
  by_cases hadmits : g.Admits request.sessionId request.playerId
  swap
  · simp [enterCode, hadmits]
  by_cases hdungeon : request.dungeonId = cfg.dungeonId
  swap
  · simp [enterCode, hadmits, hdungeon]
  rw [enterCode, if_neg (not_not_intro hadmits), if_neg (not_not_intro hdungeon)]
  cases hhero : g.hero request.playerId with
  | none => simp
  | some hero =>
    by_cases hlevel : hero.profile.level < cfg.requiredLevel
    · simp [hlevel]
    by_cases hstamina : hero.profile.stamina < cfg.costStamina
    · simp [hlevel, hstamina]
    by_cases hfighting : g.Fighting request.playerId
    · simp [hlevel, hstamina, hfighting]
    cases hfits : inInt (hero.profile.stamina - cfg.costStamina) with
    | false => simp [hlevel, hstamina, hfighting, hfits]
    | true =>
      cases hbattle : g.battle b with
      | none => simp [hadmits, hdungeon, hlevel, hstamina, hfighting, hfits, not_lt.mp hlevel,
          not_lt.mp hstamina]
      | some battle => simp [hlevel, hstamina, hfighting, hfits]

theorem eligible_of_enterCode {request : EnterDungeonRequest} {b : String}
    (h : g.enterCode cfg request b = .ok) : g.Eligible cfg request := by
  obtain ⟨hadmits, hdungeon, ⟨hero, hhero, hlevel, hstamina, -⟩, -⟩ := enterCode_eq_ok.mp h
  exact ⟨hadmits, hdungeon, hero, hhero, hlevel, hstamina⟩

/-- When a battle is settled that is on. -/
theorem settleCode_of_on {request : SettleDungeonRequest} {hero : Hero}
    (hresult : request.result = true) (hadmits : g.Admits request.sessionId request.playerId)
    (hdungeon : request.dungeonId = cfg.dungeonId)
    (hstar : 0 < request.star ∧ request.star ≤ cfg.maxStar)
    (hon : g.battle request.battleId = some ⟨request.playerId, request.dungeonId, false⟩)
    (hhero : g.hero request.playerId = some hero) (hcarry : hero.CanCarry cfg = true) :
    g.settleCode cfg request = .ok := by
  have hstar' : ¬(request.star ≤ 0 ∨ request.star > cfg.maxStar) := by omega
  simp [settleCode, hresult, hadmits, hdungeon ▸ hon, hdungeon, hstar', hhero, hcarry]

/-- Only a battle that is on is settled. -/
theorem battle_of_settleCode {request : SettleDungeonRequest}
    (h : g.settleCode cfg request = .ok) : ∃ battle, g.battle request.battleId = some battle ∧
      battle.playerId = request.playerId ∧ battle.settled = false := by
  rw [settleCode] at h
  split at h
  · cases h
  split at h
  · cases h
  split at h
  · cases h
  split at h
  · cases h
  split at h
  · cases h
  rename_i battle hbattle
  split at h
  · cases h
  rename_i hmatch
  split at h
  · cases h
  rename_i hon
  exact ⟨battle, hbattle, not_not.mp (not_or.mp hmatch).1, Bool.eq_false_of_not_eq_true hon⟩

/-! ### What becomes of the game -/

/-- The session is the latest of its account, and the one before is over. -/
def signIn (session : Lasting Session) (remembered : Option ℕ) (g : Game ι) : Game ι :=
  { g with
    session := fun sessionId =>
      if sessionId = session.value.sessionId then some session
      else if (g.latest session.value.accountId).map Lasting.value = some sessionId then none
      else g.session sessionId
    latest := Function.update g.latest session.value.accountId
      (some ⟨session.value.sessionId, remembered⟩) }

/-- Server `i` has drawn a number. -/
def draw [DecidableEq ι] (i : ι) (g : Game ι) : Game ι :=
  { g with number := Function.update g.number i (g.number i + 1) }

/-- Player `p` has entered the dungeon. -/
def enter (cfg : DungeonConfig) (p : ℤ) (battleId : String) (g : Game ι) : Game ι :=
  { g with
    hero := Function.update g.hero p ((g.hero p).map (Hero.spend cfg))
    battle := Function.update g.battle battleId (some ⟨p, cfg.dungeonId, false⟩) }

/-- Player `p` has won the battle. -/
def settle (cfg : DungeonConfig) (p : ℤ) (battleId : String) (star : ℤ) (g : Game ι) : Game ι :=
  { g with
    hero := Function.update g.hero p ((g.hero p).map (Hero.clear cfg star))
    battle := Function.update g.battle battleId
      ((g.battle battleId).map fun battle => { battle with settled := true }) }

section Parts

variable {p p' star : ℤ} {b b' : String}

theorem signIn_session {session : Lasting Session} {remembered : Option ℕ} {sessionId : String} :
    (g.signIn session remembered).session sessionId =
      if sessionId = session.value.sessionId then some session
      else if (g.latest session.value.accountId).map Lasting.value = some sessionId then none
      else g.session sessionId := rfl

@[simp] theorem draw_session [DecidableEq ι] {i : ι} : (g.draw i).session = g.session := rfl

@[simp] theorem draw_hero [DecidableEq ι] {i : ι} : (g.draw i).hero = g.hero := rfl

@[simp] theorem draw_battle [DecidableEq ι] {i : ι} : (g.draw i).battle = g.battle := rfl

@[simp] theorem enter_hero_self :
    (g.enter cfg p b).hero p = (g.hero p).map (Hero.spend cfg) := Function.update_self ..

theorem enter_hero_ne (h : p' ≠ p) : (g.enter cfg p b).hero p' = g.hero p' :=
  Function.update_of_ne h ..

@[simp] theorem enter_battle_self :
    (g.enter cfg p b).battle b = some ⟨p, cfg.dungeonId, false⟩ := Function.update_self ..

theorem enter_battle_ne (h : b' ≠ b) : (g.enter cfg p b).battle b' = g.battle b' :=
  Function.update_of_ne h ..

@[simp] theorem settle_hero_self :
    (g.settle cfg p b star).hero p = (g.hero p).map (Hero.clear cfg star) :=
  Function.update_self ..

theorem settle_hero_ne (h : p' ≠ p) : (g.settle cfg p b star).hero p' = g.hero p' :=
  Function.update_of_ne h ..

@[simp] theorem settle_battle_self : (g.settle cfg p b star).battle b =
    (g.battle b).map fun battle => { battle with settled := true } := Function.update_self ..

theorem settle_battle_ne (h : b' ≠ b) : (g.settle cfg p b star).battle b' = g.battle b' :=
  Function.update_of_ne h ..

end Parts

/-- What a request can be answered in the game `g`, and the game behind it. Server `i`
answers; sessions are made for `lifetime` seconds. -/
inductive Serves [DecidableEq ι] (cfg : DungeonConfig) (check : String → String → Bool)
    (lifetime : ℤ) (g : Game ι) : Request × Response → Game ι → Prop where
  /-- without a lifetime a session may keep the end of an older one of its name -/
  | login {i : ι} {request : LoginRequest} {account : Account} {session : Lasting Session}
      (code : g.loginCode check request = .ok)
      (named : g.account request.accountName = some account)
      (created : session.value = g.newSession i account)
      (ends : 0 < lifetime → session.ends = g.endOf lifetime) :
      Serves cfg check lifetime g (.login request,
        .login ⟨true, .ok, "", some session.value, account.defaultPlayerId⟩)
        ((g.signIn session (g.endOf lifetime)).draw i)
  | noLogin {request : LoginRequest} {response : LoginResponse}
      (refused : g.loginCode check request ≠ .ok) (failed : response.success = false)
      (code : response.errorCode = g.loginCode check request) :
      Serves cfg check lifetime g (.login request, .login response) g
  | load {request : LoadPlayerRequest} {hero : Hero} {state : PlayerState} {cached : Bool}
      (code : g.loadCode request = .ok) (found : g.hero request.playerId = some hero)
      (shown : hero.Shown state) :
      Serves cfg check lifetime g (.loadPlayer request,
        .loadPlayer ⟨true, .ok, "", some state, cached⟩) g
  | noLoad {request : LoadPlayerRequest} {response : LoadPlayerResponse}
      (refused : g.loadCode request ≠ .ok) (failed : response.success = false)
      (code : response.errorCode = g.loadCode request) :
      Serves cfg check lifetime g (.loadPlayer request, .loadPlayer response) g
  | enter {i : ι} {request : EnterDungeonRequest} {response : EnterDungeonResponse} {hero : Hero}
      (named : response.battleId = g.battleId i request)
      (code : g.enterCode cfg request response.battleId = .ok)
      (found : g.hero request.playerId = some hero) (success : response.success = true)
      (remains : response.remainStamina = hero.profile.stamina - cfg.costStamina) :
      Serves cfg check lifetime g (.enterDungeon request, .enterDungeon response)
        ((g.enter cfg request.playerId response.battleId).draw i)
  | noEnter {i : ι} {request : EnterDungeonRequest} {response : EnterDungeonResponse}
      (refused : ¬g.Eligible cfg request) (failed : response.success = false)
      (code : response.errorCode = g.enterCode cfg request (g.battleId i request)) :
      Serves cfg check lifetime g (.enterDungeon request, .enterDungeon response) g
  /-- the battle has a name already when the player is refused -/
  | noBattle {i : ι} {request : EnterDungeonRequest} {response : EnterDungeonResponse}
      (eligible : g.Eligible cfg request)
      (refused : g.enterCode cfg request (g.battleId i request) ≠ .ok)
      (failed : response.success = false)
      (code : response.errorCode = g.enterCode cfg request (g.battleId i request)) :
      Serves cfg check lifetime g (.enterDungeon request, .enterDungeon response) (g.draw i)
  | settle {request : SettleDungeonRequest} {response : SettleDungeonResponse} {hero : Hero}
      (code : g.settleCode cfg request = .ok) (found : g.hero request.playerId = some hero)
      (success : response.success = true) (first : response.firstClear = hero.Novice cfg)
      (rewards : response.rewards = hero.rewards cfg) :
      Serves cfg check lifetime g (.settleDungeon request, .settleDungeon response)
        (g.settle cfg request.playerId request.battleId request.star)
  | noSettle {request : SettleDungeonRequest} {response : SettleDungeonResponse}
      (refused : g.settleCode cfg request ≠ .ok) (failed : response.success = false)
      (code : response.errorCode = g.settleCode cfg request) :
      Serves cfg check lifetime g (.settleDungeon request, .settleDungeon response) g
  | restore {sessionId : String} {playerId : ℤ} (admitted : g.Admits sessionId playerId)
      (named : sessionId ≠ "" ∧ playerId ≠ 0) :
      Serves cfg check lifetime g (.restoreBinding sessionId playerId,
        .restoreBinding (some (sessionId, playerId))) g
  | noRestore {sessionId : String} {playerId : ℤ}
      (refused : ¬(g.Admits sessionId playerId ∧ sessionId ≠ "" ∧ playerId ≠ 0)) :
      Serves cfg check lifetime g (.restoreBinding sessionId playerId, .restoreBinding none) g

/-- Time passes: the sessions end whose time is up. -/
def pass (ms : ℕ) (g : Game ι) : Game ι :=
  { g with
    session := fun sessionId => (g.session sessionId).filter (Lasting.lasts (g.now + ms))
    latest := fun accountId => (g.latest accountId).filter (Lasting.lasts (g.now + ms))
    now := g.now + ms }

/-- What happens between requests. -/
inductive Happening (ι : Type) where
  | pass (ms : ℕ)
  /-- a server starts again, with its first number -/
  | restart (i : ι)
  | loseSession (sessionId : String)
  /-- it is forgotten which session of an account is the latest -/
  | loseLatest (accountId : ℤ)
  deriving DecidableEq, Repr

section Fades

variable [DecidableEq ι] {may : Happening ι → Prop}

/-- What becomes of the game when this happens. -/
def happen (g : Game ι) : Happening ι → Game ι
  | .pass ms => g.pass ms
  | .restart i => { g with number := Function.update g.number i 1 }
  | .loseSession sessionId => { g with session := Function.update g.session sessionId none }
  | .loseLatest accountId => { g with latest := Function.update g.latest accountId none }

/-- Something happens that may happen. -/
inductive Fades (may : Happening ι → Prop) (g : Game ι) : Game ι → Prop where
  | happen (x : Happening ι) (allowed : may x) : Fades may g (g.happen x)
  /-- something is lost that is no part of the game -/
  | stay : Fades may g g

theorem Fades.hero (h : Fades may g g') : g'.hero = g.hero := by
  cases h with
  | happen x =>
    cases x with
    | pass | restart | loseSession | loseLatest => rfl
  | stay => rfl

theorem Fades.battle (h : Fades may g g') : g'.battle = g.battle := by
  cases h with
  | happen x =>
    cases x with
    | pass | restart | loseSession | loseLatest => rfl
  | stay => rfl

end Fades

/-! ## Going on -/

/-- The game has gone on. -/
structure Later (g g' : Game ι) : Prop where
  account : g'.account = g.account
  hero : ∀ p hero, g.hero p = some hero → ∃ hero', g'.hero p = some hero' ∧ hero.Later hero'
  nobody : ∀ p, g.hero p = none → g'.hero p = none
  battle : ∀ b battle, g.battle b = some battle → ∃ battle', g'.battle b = some battle' ∧
    battle'.playerId = battle.playerId ∧ battle'.dungeonId = battle.dungeonId ∧
    (battle.settled = true → battle'.settled = true)

theorem Later.refl (g : Game ι) : g.Later g where
  account := rfl
  hero _ hero h := ⟨hero, h, .refl hero⟩
  nobody _ h := h
  battle _ battle h := ⟨battle, h, rfl, rfl, id⟩

theorem Later.trans (h : g.Later g') (h' : g'.Later g'') : g.Later g'' where
  account := h'.account.trans h.account
  hero p hero hp := by
    obtain ⟨hero', hp', hlater⟩ := h.hero p hero hp
    obtain ⟨hero'', hp'', hlater'⟩ := h'.hero p hero' hp'
    exact ⟨hero'', hp'', hlater.trans hlater'⟩
  nobody p hp := h'.nobody p (h.nobody p hp)
  battle b battle hb := by
    obtain ⟨battle', hb', hplayer, hdungeon, hsettled⟩ := h.battle b battle hb
    obtain ⟨battle'', hb'', hplayer', hdungeon', hsettled'⟩ := h'.battle b battle' hb'
    exact ⟨battle'', hb'', hplayer'.trans hplayer, hdungeon'.trans hdungeon,
      fun hs => hsettled' (hsettled hs)⟩

end Game

end GameBackend
