import GameBackend.InService
import GameBackend.ErrorCodes

/-!
# The backend serves the game

A backend that serves one request after the other, while no command fails, is the game:
under `Store.game` every answer is one of `Game.Serves`, and what happens between two
requests happens to the game (`Store.game_happen`, `serves_the_game`). So nobody who talks
to it learns that there are tables, transactions, locks, snapshots and contexts behind it.

Each kind of request has its own theorem. They rest on the decision tables of the requests
and on what `Store.InService.serve` says of the store behind a request.
-/

namespace GameBackend

variable {ι : Type} [DecidableEq ι] {env : Env} {cfg : DungeonConfig} {i : ι}
  {s s' s₀ : Store ι} {φ : Phase} {t : Tables} {p : ℤ} {faults : ℕ → Option String} {n : ℕ}

/-! ## Runs of a service -/

/-- A request that meets no fault. -/
theorem Store.serve_eq_runFailing (request : Request) :
    s.serve env i request (fun _ => none) =
      s.runFailing i (GameBackend.serve env request) fun _ => none :=
  (Store.serve_faultless request).trans
    (@Prog.run_comp _ _ _ _ _ (Store.failing i) _ (fun _ : Unit => none) _ (fun _ => ()) s).symm

/-- What a service yields, of a request that is served by it. -/
theorem Prog.Yields.serve {α : Type} {m : Program α} {f : α → Response} {request : Request}
    {stuck : Prop} {Q : α → ℕ → Store ι → Prop} {response : Response}
    (hserve : GameBackend.serve env request = f <$> m)
    (h : m.Yields (Store.failing i) (fun _ => none) stuck Q 0 s)
    (hrun : s.serve env i request (fun _ => none) = some (response, s')) :
    ∃ a n, response = f a ∧ Q a n s' := by
  rw [Store.serve_eq_runFailing, hserve] at hrun
  have hyields : (f <$> m).Yields (Store.failing i) (fun _ => none) stuck
      (fun response n s' => ∃ a, response = f a ∧ Q a n s') 0 s :=
    Prog.Yields.bind h fun a n s' hQ => ⟨a, rfl, hQ⟩
  obtain ⟨n, a, hresponse, hQ⟩ := hyields.runFailing hrun
  exact ⟨a, n, hresponse, hQ⟩

/-- What a service ensures, of a request that is served by it. -/
theorem Prog.Ensures.serve {α : Type} {m : Program α} {f : α → Response} {request : Request}
    {Q : α → Store ι → Prop} {response : Response}
    (hserve : GameBackend.serve env request = f <$> m) (h : m.Ensures (Store.faultless i) Q s)
    (hrun : s.serve env i request (fun _ => none) = some (response, s')) :
    ∃ a, response = f a ∧ Q a s' := by
  have hensures : (f <$> m).Ensures (Store.faultless i)
      (fun response s' => ∃ a, response = f a ∧ Q a s') s :=
    Prog.Ensures.bind h fun a s' hQ => ⟨a, rfl, hQ⟩
  obtain ⟨_, _, hrun', hresult⟩ := hensures.run fun _ => ()
  rw [Store.serve_faultless, hserve, hrun'] at hrun
  obtain ⟨rfl, rfl⟩ := Prod.mk.inj (Option.some.inj hrun)
  exact hresult

/-- A program that gets plausible answers comes to one of its results. -/
theorem yields_returns {α : Type} : ∀ (m : Program α) (n : ℕ) (s : Store ι),
    m.Yields (Store.failing i) faults True (fun a _ _ => m.Returns Cmd.Plausible a) n s
  | .ret _, _, _ => rfl
  | .throw, _, _ => trivial
  | .call _ k, n, _ => ⟨fun _ => trivial, fun r s' hs => (yields_returns (k r) (n + 1) s').mono
      fun _ _ _ ha => ⟨r, Store.plausible_of_perform hs, ha⟩⟩

/-- A program that draws no number leaves the counters alone. -/
theorem yields_undrawn {α : Type} : ∀ {m : Program α} {n : ℕ} {s : Store ι},
    m.Uses (fun c => c ≠ .fetchAddSequence) →
      m.Yields (Store.failing i) faults True (fun _ _ s' => s'.sequence = s.sequence) n s
  | .ret _, _, _, _ => rfl
  | .throw, _, _, _ => trivial
  | .call c k, n, s, h => by
    refine ⟨fun _ => trivial, fun r s' hs => ?_⟩
    have hkept : s'.sequence = s.sequence := by
      generalize faults n = fault at hs
      cases Store.performed_of_perform hs with
      | fetchAddSequence => exact absurd rfl h.1
      | _ => rfl
    exact (yields_undrawn (h.2 r)).mono fun _ _ _ hlast => hlast.trans hkept

theorem Common.undrawn {α : Type} {m : Program α} (h : Common m) :
    m.Uses fun c => c ≠ .fetchAddSequence := by
  refine h.mono fun c hc => ?_
  rintro rfl
  cases hc

/-- The requests that draw numbers. -/
def Request.draws : Request → Bool
  | .login _ => true
  | .enterDungeon _ => true
  | _ => false

/-- All others leave the counters alone. -/
theorem Store.sequence_of_serve {request : Request} {response : Response}
    (hdraws : request.draws = false)
    (hrun : s.serve env i request (fun _ => none) = some (response, s')) :
    s'.sequence = s.sequence := by
  rw [Store.serve_eq_runFailing] at hrun
  have hyields : (GameBackend.serve env request).Yields (Store.failing i) (fun _ => none) True
      (fun _ _ s' => s'.sequence = s.sequence) 0 s := by
    refine yields_undrawn ((serve_sends env request).mono fun c hc => ?_)
    rintro rfl
    obtain ⟨r, rfl⟩ | ⟨r, rfl, -⟩ := hc
    · cases hdraws
    · cases hdraws
  obtain ⟨_, hsequence⟩ := hyields.runFailing hrun
  exact hsequence

/-! ## Redis as the game sees it -/

theorem Redis.session_congr {d d' : Redis} {sessionId : String}
    (h : d'.live (.session sessionId) = d.live (.session sessionId)) :
    d'.session sessionId = d.session sessionId := by
  rw [Redis.session, Redis.session, Redis.hGetAll_congr h]

/-- A session whose hash is gone is over. -/
theorem Redis.session_of_live_none {d : Redis} {sessionId : String}
    (h : d.live (.session sessionId) = none) : d.session sessionId = none := by
  rw [Redis.session, Redis.hGetAll, Redis.hash?, h]
  rfl

theorem Redis.oldSession_of_live_none {d : Redis} {accountId : ℤ}
    (h : d.live (.accountSession accountId) = none) : d.oldSession none accountId = none := by
  simp [Redis.oldSession, Redis.execute, h]

theorem Redis.lasting_congr {α : Type} {d d' : Redis} {k : RedisKey} {read : Option α}
    (h : d'.live k = d.live k) : d'.lasting k read = d.lasting k read := by
  rw [Redis.lasting, Redis.lasting, Redis.endOf, Redis.endOf, h]

theorem Redis.lasting_of_live {α : Type} {d : Redis} {k : RedisKey} {e : RedisEntry}
    (h : d.live k = some e) (a : α) : d.lasting k (some a) = some ⟨a, e.expiresAt⟩ := by
  rw [Redis.lasting, Redis.endOf, h]
  rfl

theorem Redis.live_of_session {d : Redis} {sessionId : String} {session : Session}
    (h : d.session sessionId = some session) : ∃ e, d.live (.session sessionId) = some e := by
  rcases hlive : d.live (.session sessionId) with _ | e
  · rw [Redis.session_of_live_none hlive] at h
    cases h
  · exact ⟨e, rfl⟩

theorem Redis.live_of_oldSession {d : Redis} {accountId : ℤ} {sessionId : String}
    (h : d.oldSession none accountId = some sessionId) :
    ∃ e, d.live (.accountSession accountId) = some e := by
  rcases hlive : d.live (.accountSession accountId) with _ | e
  · rw [Redis.oldSession_of_live_none hlive] at h
    cases h
  · exact ⟨e, rfl⟩

/-- The entries that are there later. -/
theorem Redis.live_tick_eq (d : Redis) (ms : ℕ) (k : RedisKey) :
    (d.tick ms).live k = (d.live k).filter fun e => e.expiresAt.all fun t => d.now + ms < t := by
  rw [Redis.live, Redis.live, Option.filter_filter]
  refine congrArg (Option.filter · (d.entries k)) (funext fun e => ?_)
  cases e.expiresAt with
  | none => rfl
  | some t =>
    by_cases ht : d.now + ms < t
    · simp [Redis.tick, ht, Nat.lt_of_le_of_lt (Nat.le_add_right _ ms) ht]
    · simp [Redis.tick, ht]

/-- What is read from one entry ends with it. -/
theorem Redis.lasting_tick {α : Type} (read : Redis → Option α) {k : RedisKey}
    (hcongr : ∀ {d d' : Redis}, d'.live k = d.live k → read d' = read d)
    (hnone : ∀ {d : Redis}, d.live k = none → read d = none) (d : Redis) (ms : ℕ) :
    (d.tick ms).lasting k (read (d.tick ms)) =
      (d.lasting k (read d)).filter (Lasting.lasts (d.now + ms)) := by
  have hlater := d.live_tick_eq ms k
  rcases hlive : d.live k with _ | e
  · rw [hlive] at hlater
    rw [hnone hlive, hnone hlater]
    rfl
  rw [hlive, Option.filter_some] at hlater
  have hends : d.endOf k = e.expiresAt := by rw [Redis.endOf, hlive, Option.bind_some]
  split at hlater
  · rename_i hlasts
    have hsame := hlater.trans hlive.symm
    rw [hcongr hsame, Redis.lasting_congr hsame, Redis.lasting, hends]
    cases read d with
    | none => rfl
    | some a =>
      have hstays : Lasting.lasts (d.now + ms) ⟨a, e.expiresAt⟩ = true := hlasts
      exact (Option.filter_some_pos hstays).symm
  · rename_i hover
    rw [hnone hlater, Redis.lasting, Redis.lasting, hends]
    cases read d with
    | none => rfl
    | some a =>
      have hends : Lasting.lasts (d.now + ms) ⟨a, e.expiresAt⟩ = false :=
        Bool.eq_false_of_not_eq_true hover
      exact (Option.filter_some_neg hends).symm

omit [DecidableEq ι] in
/-- Time passes in the game. -/
theorem Store.game_tick (s : Store ι) (ms : ℕ) : (s.tick ms).game = s.game.pass ms := by
  have hsession : (s.tick ms).game.session = (s.game.pass ms).session :=
    funext fun sessionId => Redis.lasting_tick (fun d => d.session sessionId)
      Redis.session_congr Redis.session_of_live_none s.redis ms
  have hlatest : (s.tick ms).game.latest = (s.game.pass ms).latest :=
    funext fun accountId => Redis.lasting_tick (fun d => d.oldSession none accountId)
      Redis.oldSession_congr Redis.oldSession_of_live_none s.redis ms
  exact Game.ext rfl rfl rfl hsession hlatest rfl rfl

omit [DecidableEq ι] in
theorem Store.game_session_congr {sessionId : String}
    (h : s'.redis.live (.session sessionId) = s.redis.live (.session sessionId)) :
    s'.game.session sessionId = s.game.session sessionId :=
  (Redis.lasting_congr h).trans (congrArg _ (Redis.session_congr h))

omit [DecidableEq ι] in
theorem Store.game_latest_congr {accountId : ℤ}
    (h : s'.redis.live (.accountSession accountId) = s.redis.live (.accountSession accountId)) :
    s'.game.latest accountId = s.game.latest accountId :=
  (Redis.lasting_congr h).trans (congrArg _ (Redis.oldSession_congr h))

/-- What happens to the store between requests. A session is lost with its key. -/
def Store.happen (s : Store ι) : Game.Happening ι → Store ι
  | .pass ms => s.tick ms
  | .restart i => s.crash i
  | .loseSession sessionId => s.evict (.session sessionId)
  | .loseLatest accountId => s.evict (.accountSession accountId)

omit [DecidableEq ι] in
theorem Store.live_evict_ne {k k' : RedisKey} (h : k' ≠ k) :
    (s.evict k).redis.live k' = s.redis.live k' := Redis.live_put_ne h

omit [DecidableEq ι] in
theorem Store.live_evict_self (s : Store ι) (k : RedisKey) : (s.evict k).redis.live k = none := by
  simp [Redis.live, Store.evict]

/-- **What happens to the store happens to the game.** -/
theorem Store.game_happen (s : Store ι) (x : Game.Happening ι) :
    (s.happen x).game = s.game.happen x := by
  cases x with
  | pass ms => exact s.game_tick ms
  | restart i => rfl
  | loseSession sessionId =>
    refine Game.ext rfl rfl rfl (eq_update_of_ne ?_ fun other hne => ?_)
      (funext fun accountId => ?_) rfl rfl
    · exact congrArg (Redis.lasting _ _)
        (Redis.session_of_live_none (s.live_evict_self (.session sessionId)))
    · exact Store.game_session_congr (Store.live_evict_ne fun hk => hne (RedisKey.session.inj hk))
    · exact Store.game_latest_congr (Store.live_evict_ne (by simp))
  | loseLatest accountId =>
    refine Game.ext rfl rfl rfl (funext fun sessionId => ?_)
      (eq_update_of_ne ?_ fun other hne => ?_) rfl rfl
    · exact Store.game_session_congr (Store.live_evict_ne (by simp))
    · exact congrArg (Redis.lasting _ _)
        (Redis.oldSession_of_live_none (s.live_evict_self (.accountSession accountId)))
    · exact Store.game_latest_congr
        (Store.live_evict_ne fun hk => hne (RedisKey.accountSession.inj hk))

omit [DecidableEq ι] in
/-- All other keys are no part of the game. -/
theorem Store.game_evict {k : RedisKey} (hk : k.ofLogin = false) : (s.evict k).game = s.game := by
  have hother : ∀ k' : RedisKey, k'.ofLogin = true →
      (s.evict k).redis.live k' = s.redis.live k' := by
    refine fun k' hk' => Store.live_evict_ne ?_
    rintro rfl
    exact Bool.false_ne_true (hk.symm.trans hk')
  exact Game.ext rfl rfl rfl (funext fun _ => Store.game_session_congr (hother _ rfl))
    (funext fun _ => Store.game_latest_congr (hother _ rfl)) rfl rfl

omit [DecidableEq ι] in
/-- A request that is no login leaves the sessions as they are. -/
theorem Serving.sessions (h : Serving env s s' φ) (hφ : φ ≠ .signing) :
    s'.game.session = s.game.session ∧ s'.game.latest = s.game.latest := by
  have hlive : ∀ k : RedisKey, k.ofLogin = true → s'.redis.live k = s.redis.live k :=
    fun k hk => Redis.live_congr (h.logins hφ k hk) h.now
  exact ⟨funext fun _ => Store.game_session_congr (hlive _ rfl),
    funext fun _ => Store.game_latest_congr (hlive _ rfl)⟩

omit [DecidableEq ι] in
/-- If it leaves the tables as they are too, it leaves all but the counters of the game. -/
theorem Serving.game_of_tables (h : Serving env s s' φ) (hφ : φ ≠ .signing)
    (htables : s'.mysql.tables = s.mysql.tables) :
    s'.game = { s.game with number := s'.sequence } := by
  obtain ⟨hsession, hlatest⟩ := h.sessions hφ
  refine Game.ext ?_ ?_ ?_ hsession hlatest h.now rfl
  · simp only [Store.game, htables]
  · simp only [Store.game, htables]
  · simp only [Store.game, htables]

omit [DecidableEq ι] in
/-- And the counters, if it draws no number. -/
theorem Serving.game (h : Serving env s s' φ) (hφ : φ ≠ .signing)
    (htables : s'.mysql.tables = s.mysql.tables) (hsequence : s'.sequence = s.sequence) :
    s'.game = s.game := by
  rw [h.game_of_tables hφ htables, hsequence]
  rfl

omit [DecidableEq ι] in
/-- A request that has failed leaves all but the counters of the game as it is. -/
theorem Serving.game_of_clean (h : Serving env s s' φ) (hφ : φ.Clean) :
    s'.game = { s.game with number := s'.sequence } := by
  obtain rfl | rfl := hφ
  · exact h.game_of_tables (by simp) (h.quiet rfl)
  · exact h.game_of_tables (by simp) (h.quiet rfl)

omit [DecidableEq ι] in
theorem Store.admits_game {sessionId : String} :
    s.game.Admits sessionId p ↔ s.redis.Admits sessionId p := by
  simp only [Game.Admits, Store.game, Redis.lasting, Option.map_map]
  rfl

omit [DecidableEq ι] in
/-- Between two requests everybody sees the committed tables. -/
theorem Store.InService.view (h : s.InService env) (i : ι) : s.mysql.view i = s.mysql.tables := by
  rw [Mysql.view, h.rest.txns i]
  rfl

/-! ## Entering a dungeon -/

omit [DecidableEq ι] in
/-- A player fights if there is a pending row. -/
theorem Store.fighting_iff (s : Store ι) (p : ℤ) :
    s.game.Fighting p ↔ s.mysql.tables.HasPending p := by
  constructor
  · rintro ⟨b, battle, hbattle, hp, hon⟩
    obtain ⟨row, hrow, rfl⟩ := Option.map_eq_some_iff.mp hbattle
    exact ⟨row, Table.mem_of_find hrow, hp, not_not.mp (of_decide_eq_false hon)⟩
  · rintro ⟨row, hrow, hp, hstatus⟩
    refine ⟨row.battleId, row.battle, congrArg (Option.map _) (Table.find_of_mem hrow), hp, ?_⟩
    exact decide_eq_false (not_not.mpr hstatus)

/-- A hero who has the stamina, which is not nothing, pays if the rest fits its column. -/
theorem Tables.pays_iff {cost : ℤ} (hcost : 0 < cost) (henough : cost ≤ t.stamina p) :
    t.Pays p cost ↔ inInt (t.stamina p - cost) = true := by
  rw [Tables.stamina] at henough ⊢
  constructor
  · rintro ⟨-, a, ha, -, hfits⟩
    rw [Option.mem_def.mp ha]
    exact hfits
  · intro hfits
    rcases ha : t.playerAsset.find p with _ | a
    · rw [ha] at henough
      exact absurd (hcost.trans_le henough) (lt_irrefl 0)
    · rw [ha] at henough hfits
      exact ⟨hcost.ne', a, ha, henough, hfits⟩

omit [DecidableEq ι] in
/-- The decision table of `EnterDungeon` is that of the game. -/
theorem Store.InService.enterCode (h : s.InService env) (hcost : 0 < env.dungeonConfig.costStamina)
    (i : ι) (request : EnterDungeonRequest) :
    s.enterCode env i request (fun _ => none) = s.game.enterCode env.dungeonConfig request
      (DungeonService.battleIdText request.playerId request.dungeonId (s.sequence i)) := by
  have hlocks : s.Locks request.playerId fun _ => none := ⟨rfl, h.unlocked _⟩
  rw [Store.enterCode, Game.enterCode]
  by_cases hadmits : s.redis.Admits request.sessionId request.playerId
  swap
  · rw [if_pos fun h => hadmits h.2, if_pos (mt Store.admits_game.mp hadmits)]
  rw [if_neg (not_not_intro ⟨rfl, hadmits⟩),
    if_neg (not_not_intro (Store.admits_game.mpr hadmits))]
  by_cases hdungeon : request.dungeonId ≠ env.dungeonConfig.dungeonId
  · rw [if_pos hdungeon, if_pos hdungeon]
  rw [if_neg hdungeon, if_neg hdungeon, if_neg (not_not_intro hlocks), Store.enterLockedCode,
    if_pos rfl, h.view i]
  have hhero : s.game.hero request.playerId = s.mysql.tables.hero request.playerId := rfl
  rw [hhero, Tables.hero]
  rcases s.mysql.tables.player.find request.playerId with _ | player
  · rfl
  have hstamina : (player.profile (s.mysql.tables.playerAsset.find request.playerId)).stamina =
      s.mysql.tables.stamina request.playerId := rfl
  have hlevel : (player.profile (s.mysql.tables.playerAsset.find request.playerId)).level =
      player.level := rfl
  simp only [Option.map_some, hstamina, hlevel]
  by_cases hlow : player.level < env.dungeonConfig.requiredLevel
  · rw [if_pos hlow, if_pos hlow]
  rw [if_neg hlow, if_neg hlow]
  by_cases hpoor : s.mysql.tables.stamina request.playerId < env.dungeonConfig.costStamina
  · rw [if_pos hpoor, if_pos hpoor]
  rw [if_neg hpoor, if_neg hpoor, enterResult, entryResult]
  by_cases hpending : s.mysql.tables.HasPending request.playerId
  · rw [if_pos ((s.fighting_iff _).mpr hpending)]
    simp [hpending, DungeonService.enterErrorCode]
  rw [if_neg fun hfighting => hpending ((s.fighting_iff _).mp hfighting)]
  have hpays := Tables.pays_iff hcost (not_lt.mp hpoor)
  by_cases hfits : inInt (s.mysql.tables.stamina request.playerId -
      env.dungeonConfig.costStamina) = true
  swap
  · simp [hpending, hpays, hfits, DungeonService.enterErrorCode]
  have hbattle : ∀ b, (s.game.battle b).isSome = (s.mysql.tables.dungeonBattle.find b).isSome :=
    fun b => Option.isSome_map
  by_cases hused : (s.mysql.tables.dungeonBattle.find (DungeonService.battleIdText
      request.playerId request.dungeonId (s.sequence i))).isSome = true
  · simp [hpending, hpays, hfits, hbattle, hused, DungeonService.enterErrorCode]
  · simp [hpending, hpays, hfits, hbattle, hused]

/-- The player has the level and the stamina for the dungeon. -/
def Store.Fit (cfg : DungeonConfig) (s : Store ι) (i : ι) (p : ℤ) : Prop :=
  ∃ profile, ((Query.profile p).rows (s.mysql.view i)).head? = some profile ∧
    cfg.requiredLevel ≤ profile.level ∧ cfg.costStamina ≤ profile.stamina

/-- Process `i` has drawn a number if this holds, and none otherwise. -/
def Store.Drew (s : Store ι) (i : ι) (draws : Prop) (s' : Store ι) : Prop :=
  draws ∧ s'.sequence = Function.update s.sequence i (s.sequence i + 1) ∨
    ¬draws ∧ s'.sequence = s.sequence

omit [DecidableEq ι] in
/-- Who is eligible, by the rows. -/
theorem Store.InService.eligible_iff (h : s.InService env) (cfg : DungeonConfig) (i : ι)
    (request : EnterDungeonRequest) : s.game.Eligible cfg request ↔
      s.redis.Admits request.sessionId request.playerId ∧ request.dungeonId = cfg.dungeonId ∧
        s.Fit cfg i request.playerId := by
  have hhero : s.game.hero request.playerId = s.mysql.tables.hero request.playerId := rfl
  rw [Game.Eligible, Store.admits_game, Store.Fit, h.view i, Tables.rows_profile,
    Option.head?_toList, hhero, Tables.hero]
  simp only [Option.map_eq_some_iff]
  constructor
  · rintro ⟨hadmits, hdungeon, _, ⟨player, hplayer, rfl⟩, hfit⟩
    exact ⟨hadmits, hdungeon, _, ⟨player, hplayer, rfl⟩, hfit⟩
  · rintro ⟨hadmits, hdungeon, _, ⟨player, hplayer, rfl⟩, hfit⟩
    exact ⟨hadmits, hdungeon, _, ⟨player, hplayer, rfl⟩, hfit⟩

/-- Behind the number: the battle is named with it, and the stamina that is reported is what
the price leaves. -/
theorem yields_named (state : PlayerState) (p : ℤ) (battleId : String) :
    Prog.Yields (Store.failing i) faults True (fun response _ s' =>
      (response.success = true → response.battleId = battleId ∧
        response.remainStamina = state.profile.stamina - cfg.costStamina) ∧
      s'.sequence = s.sequence) (do
      let result ← MySqlDungeonRepository.enterDungeon state cfg battleId
      if !result.success then
        return DungeonService.refuseEnter (DungeonService.enterErrorCode result.errorMessage)
          result.errorMessage
      let _ ← RedisBattleContextRepository.save env result.battleContext
      let _ ← RedisPlayerCacheRepository.invalidate p
      return ⟨true, .ok, "", battleId, result.remainStamina⟩) n s := by
  refine ((yields_returns _ _ _).and (yields_undrawn
    (common_enterDungeon _ _ _).undrawn)).bind ?_
  rintro result _ s₁ ⟨hresult, hkept⟩
  split
  · exact ⟨nofun, hkept⟩
  rename_i hdone
  have hsave : (RedisBattleContextRepository.save env result.battleContext).Uses
      fun c => c ≠ .fetchAddSequence := uses_hSet (fun _ _ _ => nofun) fun _ => nofun
  have hinvalidate : (RedisPlayerCacheRepository.invalidate p).Uses
      fun c => c ≠ .fetchAddSequence := .send nofun
  refine (yields_undrawn hsave).bind ?_
  rintro _ _ s₂ hkept₂
  refine (yields_undrawn hinvalidate).bind ?_
  rintro _ _ s₃ hkept₃
  exact ⟨fun _ => ⟨rfl, remainStamina_enterDungeon hresult (by simpa using hdone)⟩,
    hkept₃.trans (hkept₂.trans hkept)⟩

/-- Under the lock a number is drawn for whoever has level and stamina. -/
theorem yields_entryLocked (request : EnterDungeonRequest) :
    (DungeonService.enterLocked env cfg request).Yields (Store.failing i) (fun _ => none) True
      (fun response _ s' =>
        (response.success = true → response.battleId = DungeonService.battleIdText
            request.playerId request.dungeonId (s.sequence i) ∧ ∃ profile,
              ((Query.profile request.playerId).rows (s.mysql.view i)).head? = some profile ∧
              response.remainStamina = profile.stamina - cfg.costStamina) ∧
        s.Drew i (s.Fit cfg i request.playerId) s') n s := by
  rw [Store.Fit]
  refine (yields_loadPlayerState request.playerId).bind ?_
  rintro state _ s₁ ⟨rfl, -, hstate⟩
  rw [if_pos rfl] at hstate
  rw [← hstate]
  cases state with
  | none => exact ⟨nofun, .inr ⟨fun ⟨_, hnone, _⟩ => (nomatch hnone), rfl⟩⟩
  | some state =>
    dsimp only
    split
    · rename_i hlow
      refine ⟨nofun, .inr ⟨?_, rfl⟩⟩
      rintro ⟨_, ⟨⟩, hlevel, -⟩
      exact hlevel.not_gt hlow
    rename_i hlevel
    split
    · rename_i hpoor
      refine ⟨nofun, .inr ⟨?_, rfl⟩⟩
      rintro ⟨_, ⟨⟩, -, hstamina⟩
      exact hstamina.not_gt hpoor
    rename_i hstamina
    refine ⟨fun _ => trivial, fun number s₂ hs => ?_⟩
    obtain ⟨rfl, rfl⟩ := Prod.mk.inj (Option.some.inj hs)
    refine (yields_named state _ _).mono ?_
    rintro response _ s₃ ⟨hreported, hkept⟩
    refine ⟨fun hs => ?_, .inl ⟨⟨_, rfl, not_lt.mp hlevel, not_lt.mp hstamina⟩, hkept⟩⟩
    obtain ⟨hbattle, hremains⟩ := hreported hs
    exact ⟨hbattle, _, rfl, hremains⟩

/-- `EnterDungeon` draws a number for whoever is eligible. -/
theorem yields_entry (request : EnterDungeonRequest)
    (hlock : s.redis.live (.playerLock request.playerId) = none) :
    (DungeonService.enterDungeon env request).Yields (Store.failing i) (fun _ => none) True
      (fun response _ s' =>
        (response.success = true → response.battleId = DungeonService.battleIdText
            request.playerId request.dungeonId (s.sequence i) ∧ ∃ profile,
              ((Query.profile request.playerId).rows (s.mysql.view i)).head? = some profile ∧
              response.remainStamina = profile.stamina - env.dungeonConfig.costStamina) ∧
        s.Drew i (s.redis.Admits request.sessionId request.playerId ∧
          request.dungeonId = env.dungeonConfig.dungeonId ∧
          s.Fit env.dungeonConfig i request.playerId) s') n s := by
  refine (yields_findById _ fun _ _ _ => trivial).bind ?_
  rintro session _ s₁ ⟨rfl, rfl, hsession⟩
  rw [if_pos rfl] at hsession
  subst hsession
  by_cases hadmits : (s₁.redis.session request.sessionId).map Session.playerId =
    some request.playerId
  swap
  · rw [if_pos hadmits]
    exact ⟨nofun, .inr ⟨fun h => hadmits h.1, rfl⟩⟩
  rw [if_neg (not_not_intro hadmits)]
  unfold InMemoryDungeonConfigRepository.findByDungeonId
  by_cases hdungeon : request.dungeonId ≠ env.dungeonConfig.dungeonId
  · rw [if_pos hdungeon]
    exact ⟨nofun, .inr ⟨fun h => hdungeon h.2.1, rfl⟩⟩
  rw [if_neg hdungeon]
  refine (yields_acquire request.playerId).bind ?_
  rintro acquired _ s₂ ⟨rfl, hs₂, hacquired⟩
  obtain rfl := hacquired.mpr ⟨rfl, hlock⟩
  have hmysql : s₂.mysql = s₁.mysql := by rw [hs₂, if_pos rfl]; rfl
  have hsequence : s₂.sequence = s₁.sequence := by rw [hs₂, if_pos rfl]; rfl
  refine (yields_entryLocked request).bind ?_
  rintro response _ s₃ ⟨hreported, hdrew⟩
  rw [hmysql, hsequence] at hreported
  rw [Store.Drew, Store.Fit, hmysql, hsequence] at hdrew
  have hrelease : (DungeonService.releasePlayerLock request.playerId).Uses
      fun c => c ≠ .fetchAddSequence := Prog.Uses.bind (.send nofun) fun _ => trivial
  refine (yields_undrawn hrelease).bind ?_
  rintro _ _ s₄ hkept
  refine ⟨hreported, hdrew.imp ?_ ?_⟩
  · rintro ⟨hfit, hdrawn⟩
    exact ⟨⟨hadmits, not_not.mp hdungeon, hfit⟩, hkept.trans hdrawn⟩
  · rintro ⟨hnot, hsame⟩
    exact ⟨fun h => hnot h.2.2, hkept.trans hsame⟩

omit [DecidableEq ι] in
/-- The rows of an entry are an entry in the game. -/
theorem Serving.game_of_entered (h : Serving env s s' φ) (hφ : φ ≠ .signing) {row : BattleRow}
    (hentered : Entered row s.mysql.tables s'.mysql.tables)
    (hcost : row.costStamina = env.dungeonConfig.costStamina)
    (hdungeon : row.dungeonId = env.dungeonConfig.dungeonId) :
    s'.game = { s.game.enter env.dungeonConfig row.playerId row.battleId with
      number := s'.sequence } := by
  have htransacts : Transacts env.dungeonConfig (.enter row) s.mysql.tables s'.mysql.tables :=
    hentered
  obtain ⟨hsession, hlatest⟩ := h.sessions hφ
  refine Game.ext ?_ ?_ ?_ hsession hlatest h.now rfl
  · simp only [Store.game, Game.enter, Query.rows, htransacts.account, htransacts.player]
  · simp only [Store.game, Game.enter, hentered.hero hcost]
  · simp only [Store.game, Game.enter, hentered.battles, hdungeon]

/-- **`EnterDungeon` is an act of the game.** -/
theorem Store.InService.serves_enterDungeon (h : s.InService env)
    (hcost : 0 < env.dungeonConfig.costStamina) {request : EnterDungeonRequest}
    {response : EnterDungeonResponse}
    (hrun : s.serve env i (.enterDungeon request) (fun _ => none) =
      some (.enterDungeon response, s')) :
    Game.Serves env.dungeonConfig env.verifyPassword env.sessionTtl s.game
      (.enterDungeon request, .enterDungeon response) s'.game := by
  obtain ⟨_, s'', φ, hserve, hends, -, hserving⟩ := h.serve i (.enterDungeon request)
  obtain ⟨rfl, rfl⟩ := Prod.mk.inj (Option.some.inj (hserve.symm.trans hrun))
  obtain ⟨_, -, heq, hcode, hsuccess⟩ := (yields_enterDungeon request (fun _ _ _ => trivial)
    (.inr trivial)).serve rfl hrun
  cases heq
  rw [h.enterCode hcost] at hcode hsuccess
  obtain ⟨_, -, heq, hreported, hdrew⟩ := (yields_entry request (h.unlocked _)).serve rfl hrun
  cases heq
  have heligible := h.eligible_iff env.dungeonConfig i request
  cases hs : response.success with
  | false =>
    have hrefused : s.game.enterCode env.dungeonConfig request (s.game.battleId i request) ≠ .ok :=
      fun hok => Bool.false_ne_true (hs.symm.trans (hsuccess.mpr hok))
    rw [hserving.game_of_clean (hends.2 hs)]
    obtain ⟨hel, hdrawn⟩ | ⟨hnot, hsame⟩ := hdrew
    · rw [hdrawn]
      exact .noBattle (heligible.mpr hel) hrefused hs hcode
    · rw [hsame]
      exact .noEnter (mt heligible.mp hnot) hs hcode
  | true =>
    obtain rfl := hends.1 hs
    have hok := hsuccess.mp hs
    have hentered : Entered ⟨response.battleId, request.playerId, request.dungeonId, 0,
        env.dungeonConfig.costStamina⟩ s.mysql.tables s''.mysql.tables :=
      hserving.effect.applied _ rfl rfl
    have hdungeon := (Game.enterCode_eq_ok.mp hok).2.1
    have hdrawn : s''.sequence = Function.update s.sequence i (s.sequence i + 1) := by
      obtain ⟨-, hdrawn⟩ | ⟨hnot, -⟩ := hdrew
      · exact hdrawn
      · exact absurd (heligible.mp (Game.eligible_of_enterCode hok)) hnot
    obtain ⟨hnamed, profile, hprofile, hremain⟩ := hreported hs
    rw [h.view, Tables.rows_profile, Option.head?_toList] at hprofile
    obtain ⟨player, hplayer, rfl⟩ := Option.map_eq_some_iff.mp hprofile
    rw [hserving.game_of_entered (by simp) hentered rfl hdungeon, hdrawn]
    have hcode : s.game.enterCode env.dungeonConfig request response.battleId = .ok :=
      hnamed ▸ hok
    exact .enter hnamed hcode (congrArg (Option.map _) hplayer) hs hremain

/-! ## Settling a battle -/

/-- A hero who has assets can carry the rewards if they fit the columns. -/
theorem Tables.canCarry_iff {player : PlayerRow} {a : AssetRow}
    (hplayer : t.player.find p = some player) (ha : t.playerAsset.find p = some a) :
    (t.hero p).any (Hero.CanCarry cfg) = true ↔ RewardFits cfg t p := by
  rw [Tables.hero, hplayer, ha, RewardFits, ha]
  simp only [Option.map_some, Option.any_some, Hero.CanCarry, Hero.bonus, Hero.Novice,
    PlayerRow.profile, Option.getD_some, Option.isNone_map, Bool.and_eq_true]
  constructor
  · rintro h _ ⟨⟩
    exact h
  · exact fun h => h a rfl

omit [DecidableEq ι] in
/-- The player of a battle has a player row and assets. -/
theorem Store.InService.fighter (h : s.InService env) {b : String} {row : BattleRow}
    (hrow : s.mysql.tables.dungeonBattle.find b = some row) :
    ∃ player a, s.mysql.tables.player.find row.playerId = some player ∧
      s.mysql.tables.playerAsset.find row.playerId = some a := by
  obtain ⟨a, ha⟩ := Option.isSome_iff_exists.mp (h.rest.asset b row hrow)
  have hkey : a.playerId = row.playerId := Table.key_of_find ha
  have hplayer := s.mysql.tables.fkAssetPlayer a (Table.mem_of_find ha)
  rw [hkey] at hplayer
  obtain ⟨player, hplayer⟩ := Option.isSome_iff_exists.mp hplayer
  exact ⟨player, a, hplayer, ha⟩

omit [DecidableEq ι] in
/-- What a settlement consults is the battle of the game, apart from whether it is over. -/
theorem Store.InService.consulted (h : s.InService env) (i : ι) (b : String) :
    s.mysql.tables.dungeonBattle.find b = none ∧ s.consulted i b (fun _ => none) = none ∨
      ∃ row context n, s.mysql.tables.dungeonBattle.find b = some row ∧
        s.consulted i b (fun _ => none) = some (context, n) ∧
        context.playerId = row.playerId ∧ context.dungeonId = row.dungeonId ∧
        (context.settled = true → row.status ≠ 0) := by
  rw [Store.consulted, if_pos rfl, if_pos rfl, h.view i, Tables.battle]
  rcases hcontext : s.redis.context b with _ | context
  · rcases s.mysql.tables.dungeonBattle.find b with _ | row
    · exact .inl ⟨rfl, rfl⟩
    · refine .inr ⟨row, _, _, rfl, rfl, rfl, rfl, fun hsettled => ?_⟩
      have hstatus : row.status = 1 := of_decide_eq_true hsettled
      rw [hstatus]
      exact one_ne_zero
  · obtain ⟨row, hrow, rfl⟩ := h.rest.context hcontext
    exact .inr ⟨row, _, _, hrow, rfl, rfl, rfl, fun hsettled => Bool.noConfusion hsettled⟩

/-- The request is about a pending battle of its player, and in order. -/
structure Store.Due (env : Env) (s : Store ι) (request : SettleDungeonRequest) (row : BattleRow) :
    Prop where
  found : s.mysql.tables.dungeonBattle.find request.battleId = some row
  player : row.playerId = request.playerId
  dungeon : row.dungeonId = request.dungeonId
  pending : row.status = 0
  result : request.result = true
  session : s.redis.Admits request.sessionId request.playerId
  star : 1 ≤ request.star ∧ request.star ≤ env.dungeonConfig.maxStar

omit [DecidableEq ι] in
/-- The decision table of `SettleDungeon` is that of the game, up to the reward of a battle
that is due. -/
theorem Store.InService.settleCode (h : s.InService env) {request : SettleDungeonRequest}
    {code : ErrorCode} (hcode : s.SettleCode env i request (fun _ => none) code) :
    code = s.game.settleCode env.dungeonConfig request ∨
      (∃ row, s.Due env request row) ∧ (code = .storageError ∨ code = .ok) ∧
        s.game.settleCode env.dungeonConfig request =
          if (s.game.hero request.playerId).any (Hero.CanCarry env.dungeonConfig) then .ok
          else .storageError := by
  have hlocks : s.Locks request.playerId fun _ => none := ⟨rfl, h.unlocked _⟩
  unfold Store.SettleCode at hcode
  unfold Game.settleCode
  by_cases hresult : request.result = false
  · rw [if_pos hresult] at hcode ⊢
    exact .inl hcode
  rw [if_neg hresult] at hcode ⊢
  by_cases hadmits : s.redis.Admits request.sessionId request.playerId
  swap
  · rw [if_pos fun h => hadmits h.2] at hcode
    rw [if_pos (mt Store.admits_game.mp hadmits)]
    exact .inl hcode
  rw [if_neg (not_not_intro ⟨rfl, hadmits⟩)] at hcode
  rw [if_neg (not_not_intro (Store.admits_game.mpr hadmits))]
  by_cases hdungeon : request.dungeonId ≠ env.dungeonConfig.dungeonId
  · rw [if_pos hdungeon] at hcode ⊢
    exact .inl hcode
  rw [if_neg hdungeon] at hcode ⊢
  by_cases hstar : request.star ≤ 0 ∨ request.star > env.dungeonConfig.maxStar
  · rw [if_pos hstar] at hcode ⊢
    exact .inl hcode
  rw [if_neg hstar] at hcode ⊢
  rw [if_neg (not_not_intro hlocks), Store.SettleLocked, h.view i] at hcode
  have hbattle : s.game.battle request.battleId =
      (s.mysql.tables.dungeonBattle.find request.battleId).map BattleRow.battle := rfl
  rw [hbattle]
  obtain ⟨hrow, hnone⟩ | ⟨row, context, n, hrow, hfound, hplayer, hdungeon', hsettled⟩ :=
    h.consulted i request.battleId
  · rw [hnone] at hcode
    rw [hrow]
    exact .inl hcode
  rw [hfound] at hcode
  rw [hrow]
  dsimp only at hcode
  rw [hplayer, hdungeon'] at hcode
  simp only [Option.map_some, BattleRow.battle]
  by_cases hmismatch : row.playerId ≠ request.playerId ∨ row.dungeonId ≠ request.dungeonId
  · rw [if_pos hmismatch] at hcode ⊢
    exact .inl hcode
  rw [if_neg hmismatch] at hcode ⊢
  by_cases hstatus : row.status = 0
  swap
  · -- a battle that is over is noticed at once, or when it cannot be marked
    rw [if_pos (decide_eq_true hstatus)]
    split at hcode
    · exact .inl hcode
    · have hover : ¬s.mysql.tables.Unsettled request.battleId := by
        rintro ⟨row', hrow', hpending⟩
        obtain rfl := Option.some.inj (hrow.symm.trans hrow')
        exact hstatus hpending
      rw [SettleResult, if_pos ⟨rfl, .inr hover⟩] at hcode
      exact .inl hcode
  · rw [if_neg fun h => hsettled h hstatus] at hcode
    rw [if_neg (by simp [hstatus])]
    have hpending : s.mysql.tables.Unsettled request.battleId := ⟨row, hrow, hstatus⟩
    rw [SettleResult, if_neg (by simp [hpending])] at hcode
    simp only [not_or, not_not, not_le, not_lt] at hmismatch hstar
    refine .inr ⟨⟨row, ?_⟩, hcode, rfl⟩
    exact ⟨hrow, hmismatch.1, hmismatch.2, hstatus, by simpa using hresult, hadmits, hstar⟩

/-- A battle that is due is settled, if its player can carry the reward. -/
theorem Store.InService.settles (h : s.InService env) {request : SettleDungeonRequest}
    {response : SettleDungeonResponse} {row : BattleRow} (hdue : s.Due env request row)
    (hfits : RewardFits env.dungeonConfig s.mysql.tables request.playerId)
    (hrun : s.serve env i (.settleDungeon request) (fun _ => none) =
      some (.settleDungeon response, s')) : response.success = true := by
  obtain ⟨_, heq, hsuccess⟩ := (h.rest.ensures_settleDungeon reliable_faultless h.owed hdue.found
    hdue.pending hdue.player hdue.dungeon hdue.result hdue.session hdue.star (h.unlocked _)
    hfits).serve rfl hrun
  cases heq
  exact hsuccess

/-- The rewards that are reported are those of the reward rows. -/
theorem Store.rewards_of_serve {request : SettleDungeonRequest} {response : SettleDungeonResponse}
    (hrun : s.serve env i (.settleDungeon request) (fun _ => none) =
      some (.settleDungeon response, s')) (hsuccess : response.success = true) :
    response.rewards = (Settlement.rewardRows env.dungeonConfig ⟨request.battleId,
      request.playerId, request.dungeonId, request.star, response.firstClear⟩).map
        RewardRow.reward := by
  rw [Store.serve_faultless] at hrun
  have hexec : ∀ (s : Store ι) (φ : Clearance) (x : Unit) (c : Cmd) (r : c.Reply) (s' : Store ι),
      True → Store.faultless i s x c = some (r, s') →
        c.Plausible r ∧ ∀ φ', Clears (some (request.sessionId, request.playerId)) φ c r φ' → True :=
    fun _ _ _ _ _ _ _ hperform => ⟨Store.plausible_of_perform hperform, fun _ _ => trivial⟩
  obtain ⟨ψ, hcertifies, -⟩ := Follows.kept (I := fun _ _ => True) hexec
    (serve_clears env (.settleDungeon request)) trivial hrun
  exact (hcertifies hsuccess).2

omit [DecidableEq ι] in
/-- The rows of a settlement are a settlement in the game. -/
theorem Serving.game_of_settled (h : Serving env s s' φ) (hφ : φ ≠ .signing)
    {settlement : Settlement}
    (hsettled : Settled env.dungeonConfig settlement s.mysql.tables s'.mysql.tables)
    (hdungeon : settlement.dungeonId = env.dungeonConfig.dungeonId)
    (hfirst : settlement.firstClear = (s.mysql.tables.playerDungeon.find
      (settlement.playerId, settlement.dungeonId)).isNone) :
    s'.game = { s.game.settle env.dungeonConfig settlement.playerId settlement.battleId
      settlement.star with number := s'.sequence } := by
  have htransacts : Transacts env.dungeonConfig (.settle settlement) s.mysql.tables
    s'.mysql.tables := hsettled
  obtain ⟨hsession, hlatest⟩ := h.sessions hφ
  refine Game.ext ?_ ?_ ?_ hsession hlatest h.now rfl
  · simp only [Store.game, Game.settle, Query.rows, htransacts.account, htransacts.player]
  · simp only [Store.game, Game.settle, hsettled.hero hdungeon hfirst]
  · simp only [Store.game, Game.settle, hsettled.battles']

/-- **`SettleDungeon` is an act of the game.** -/
theorem Store.InService.serves_settleDungeon (h : s.InService env)
    {request : SettleDungeonRequest} {response : SettleDungeonResponse}
    (hrun : s.serve env i (.settleDungeon request) (fun _ => none) =
      some (.settleDungeon response, s')) :
    Game.Serves env.dungeonConfig env.verifyPassword env.sessionTtl s.game
      (.settleDungeon request, .settleDungeon response) s'.game := by
  obtain ⟨_, s'', φ, hserve, hends, -, hserving⟩ := h.serve i (.settleDungeon request)
  obtain ⟨rfl, rfl⟩ := Prod.mk.inj (Option.some.inj (hserve.symm.trans hrun))
  have hforeign : ForeignTexts fun _ => none := fun _ _ hmessage => nomatch hmessage
  obtain ⟨_, -, heq, hcode, hsuccess⟩ := (yields_settleDungeon hforeign request).serve rfl hrun
  cases heq
  have htable := h.settleCode hcode
  cases hs : response.success with
  | false =>
    rw [hserving.game_of_clean (hends.2 hs), Store.sequence_of_serve rfl hrun]
    have hfailed : response.errorCode ≠ .ok :=
      fun hok => Bool.false_ne_true (hs.symm.trans (hsuccess.mpr hok))
    have hsame : response.errorCode = s.game.settleCode env.dungeonConfig request := by
      rcases htable with hsame | ⟨⟨row, hdue⟩, hstorage, hreward⟩
      · exact hsame
      obtain ⟨player, a, hplayer, ha⟩ := h.fighter hdue.found
      rw [hdue.player] at hplayer ha
      have hcarry : ¬(s.game.hero request.playerId).any (Hero.CanCarry env.dungeonConfig) = true :=
        fun hcarry => Bool.false_ne_true (hs.symm.trans
          (h.settles hdue ((Tables.canCarry_iff hplayer ha).mp hcarry) hrun))
      rw [hreward, if_neg hcarry]
      exact hstorage.resolve_right hfailed
    exact .noSettle (hsame ▸ hfailed) hs hsame
  | true =>
    obtain rfl := hends.1 hs
    have hsettled : Settled env.dungeonConfig ⟨request.battleId, request.playerId,
        request.dungeonId, request.star, response.firstClear⟩ s.mysql.tables s''.mysql.tables :=
      hserving.effect.applied _ rfl rfl
    have hfirst : response.firstClear = (s.mysql.tables.playerDungeon.find
        (request.playerId, request.dungeonId)).isNone := hserving.effect.judged _ rfl
    obtain ⟨row, hrow, -, hp, hd⟩ := hsettled.battle
    have hp : row.playerId = request.playerId := hp
    have hdungeon : request.dungeonId = env.dungeonConfig.dungeonId :=
      hd.symm.trans (h.owed.dungeon _ row hrow)
    obtain ⟨player, a, hplayer, ha⟩ := h.fighter hrow
    rw [hp] at hplayer ha
    have hfits : RewardFits env.dungeonConfig s.mysql.tables request.playerId := by
      intro a' ha'
      obtain ⟨hgold, hdiamond⟩ := hserving.fits _ rfl a' ha'
      refine ⟨hgold, ?_⟩
      rw [← hdungeon, ← hfirst]
      rw [Settlement.diamond] at hdiamond
      cases hclear : response.firstClear with
      | true => simpa [hclear] using hdiamond
      | false => simpa [hclear] using hdiamond
    have hok : s.game.settleCode env.dungeonConfig request = .ok := by
      rcases htable with hsame | ⟨-, -, hreward⟩
      · exact hsame.symm.trans (hsuccess.mp hs)
      · exact hreward.trans (if_pos ((Tables.canCarry_iff hplayer ha).mpr hfits))
    have hnovice : ∀ hero, s.mysql.tables.hero request.playerId = some hero →
        response.firstClear = hero.Novice env.dungeonConfig := by
      intro hero hhero
      obtain ⟨r, -, rfl⟩ := Option.map_eq_some_iff.mp hhero
      rw [hfirst, hdungeon, Hero.Novice, Option.isNone_map]
    have hhero : s.mysql.tables.hero request.playerId = some _ :=
      congrArg (Option.map _) hplayer
    have hrewards := Store.rewards_of_serve hrun hs
    rw [hserving.game_of_settled (by simp) hsettled hdungeon hfirst,
      Store.sequence_of_serve rfl hrun]
    refine .settle hok hhero hs (hnovice _ hhero) (hrewards.trans ?_)
    rw [Settlement.rewardRows, Hero.rewards, ← hnovice _ hhero]
    cases response.firstClear with
    | true => rfl
    | false => rfl

/-! ## Loading a player -/

/-- `LoadPlayer` writes nothing into MySQL. -/
theorem yields_loadPlayer_mysql (request : LoadPlayerRequest) :
    (PlayerService.loadPlayer env request).Yields (Store.failing i) faults True
      (fun _ _ s' => s'.mysql = s.mysql) n s := by
  refine (yields_findById _ fun _ _ _ => trivial).bind ?_
  rintro session _ s₁ ⟨rfl, rfl, -⟩
  split
  · rfl
  refine (yields_find _ _ fun _ _ _ => trivial).bind ?_
  rintro cached _ s₂ ⟨rfl, rfl, -⟩
  cases cached with
  | some cachedState => rfl
  | none =>
    refine (yields_loadPlayerState request.playerId).bind ?_
    rintro state _ s₃ ⟨rfl, -, -⟩
    cases state with
    | none => rfl
    | some playerState =>
      refine ((serves_failing i).yields_hSet _ _ _).bind ?_
      rintro saved _ s₄ ⟨d, rfl, -⟩
      rfl

/-- **`LoadPlayer` shows the game.** -/
theorem Store.InService.serves_loadPlayer (h : s.InService env) {request : LoadPlayerRequest}
    {response : LoadPlayerResponse}
    (hrun : s.serve env i (.loadPlayer request) (fun _ => none) =
      some (.loadPlayer response, s')) :
    Game.Serves env.dungeonConfig env.verifyPassword env.sessionTtl s.game
      (.loadPlayer request, .loadPlayer response) s'.game := by
  obtain ⟨_, s'', φ, hserve, hends, -, hserving⟩ := h.serve i (.loadPlayer request)
  obtain ⟨rfl, rfl⟩ := Prod.mk.inj (Option.some.inj (hserve.symm.trans hrun))
  obtain ⟨_, -, -, hmysql⟩ := (yields_loadPlayer_mysql request).serve rfl hrun
  rw [hserving.game hends.2.1 (congrArg Mysql.tables hmysql)
    (Store.sequence_of_serve rfl hrun)]
  obtain ⟨_, heq, hanswer⟩ := (loadPlayer_answers reliable_faultless (h.rest.txns i)
    (Redis.decodes_of_filled h.rest.filled) h.coherent request).serve rfl hrun
  cases heq
  obtain ⟨success, errorCode, errorMessage, playerState, cached⟩ := response
  by_cases hadmits : (s.redis.session request.sessionId).map Session.playerId =
    some request.playerId
  swap
  · have hcode : s.game.loadCode request = .sessionInvalid :=
      if_pos (mt Store.admits_game.mp hadmits)
    rw [PlayerService.answer, if_pos hadmits] at hanswer
    cases hanswer
    exact .noLoad (by simp [hcode]) rfl hcode.symm
  rw [PlayerService.answer, if_neg (not_not_intro hadmits)] at hanswer
  rcases hstate : s.mysql.tables.playerState request.playerId with _ | state
  · have hnone : s.game.hero request.playerId = none := Tables.playerState_eq_none.mp hstate
    have hcode : s.game.loadCode request = .playerNotFound := by
      rw [Game.loadCode, if_neg (not_not_intro (Store.admits_game.mpr hadmits)),
        if_pos hnone]
    rw [hstate] at hanswer
    cases hanswer
    exact .noLoad (by simp [hcode]) rfl hcode.symm
  · obtain ⟨hero, hhero, hshown⟩ := Tables.shown hstate
    have hfound : s.game.hero request.playerId = some hero := hhero
    have hcode : s.game.loadCode request = .ok := by
      rw [Game.loadCode, if_neg (not_not_intro (Store.admits_game.mpr hadmits)),
        if_neg (by simp [hfound])]
    rw [hstate] at hanswer
    cases hanswer
    exact .load hcode hfound hshown

/-! ## Restoring a binding -/

theorem yields_restoreBinding (sessionId : String) (p : ℤ) :
    (SessionBindingAuthorizer.restoreBindingFromSession sessionId p).Yields (Store.failing i)
      (fun _ => none) True (fun binding _ _ => binding =
        if s.redis.Admits sessionId p ∧ sessionId ≠ "" ∧ p ≠ 0 then some (sessionId, p)
        else none) n s := by
  unfold SessionBindingAuthorizer.restoreBindingFromSession
  by_cases hnamed : sessionId = "" ∨ p = 0
  · rw [if_pos hnamed]
    exact (if_neg (by tauto)).symm
  rw [if_neg hnamed]
  refine (yields_findById sessionId fun _ _ _ => trivial).bind ?_
  rintro session _ s₁ ⟨rfl, rfl, hsession⟩
  rw [if_pos rfl] at hsession
  subst hsession
  by_cases hadmits : (s₁.redis.session sessionId).map Session.playerId = some p
  · rw [if_neg (not_not_intro hadmits),
      if_pos (show s₁.redis.Admits sessionId p ∧ _ from ⟨hadmits, by tauto⟩)]
    obtain ⟨session, hfound, hp⟩ := Option.map_eq_some_iff.mp hadmits
    obtain ⟨values, -, hdecode⟩ := Option.bind_eq_some_iff.mp hfound
    show Option.map (fun s => (s.sessionId, s.playerId)) (s₁.redis.session sessionId) = _
    rw [hfound, Option.map_some, sessionId_decode hdecode, hp]
  · rw [if_pos hadmits]
    exact (if_neg fun h => hadmits h.1).symm

/-- **A binding is restored from a session of the game.** -/
theorem Store.InService.serves_restoreBinding (h : s.InService env) {sessionId : String}
    {binding : Option (String × ℤ)}
    (hrun : s.serve env i (.restoreBinding sessionId p) (fun _ => none) =
      some (.restoreBinding binding, s')) :
    Game.Serves env.dungeonConfig env.verifyPassword env.sessionTtl s.game
      (.restoreBinding sessionId p, .restoreBinding binding) s'.game := by
  obtain ⟨_, s'', φ, hserve, hends, -, hserving⟩ := h.serve i (.restoreBinding sessionId p)
  obtain ⟨rfl, rfl⟩ := Prod.mk.inj (Option.some.inj (hserve.symm.trans hrun))
  obtain rfl : φ = .outside := hends
  rw [hserving.game_of_clean (.inl rfl), Store.sequence_of_serve rfl hrun]
  obtain ⟨_, -, heq, hbinding⟩ := (yields_restoreBinding sessionId p).serve rfl hrun
  cases heq
  rw [hbinding]
  by_cases hadmits : s.redis.Admits sessionId p ∧ sessionId ≠ "" ∧ p ≠ 0
  · rw [if_pos hadmits]
    exact .restore (Store.admits_game.mpr hadmits.1) hadmits.2
  · rw [if_neg hadmits]
    exact .noRestore fun hgame => hadmits ⟨Store.admits_game.mp hgame.1, hgame.2⟩

/-! ## Logging in -/

/-- `HSET`s into a hash go through. -/
theorem yields_hSetFields_done {k : RedisKey} :
    ∀ {values : List (String × String)} {n : ℕ} {s : Store ι},
      (s.redis.hash? k).isSome = true →
      (RedisClient.hSetFields k values).Yields (Store.failing i) (fun _ => none) True
        (fun done _ s' => done = true ∧ s.redis.OnlyAt k s'.redis) n s
  | [], _, s, _ => ⟨rfl, .refl k s.redis⟩
  | (f, v) :: rest, n, s, h => by
    refine (yields_redis (.hset k f v)).bind ?_
    rintro ok _ s₁ ⟨-, hs₁⟩
    obtain ⟨rfl, rfl⟩ := Prod.mk.inj (hs₁.trans (if_pos rfl))
    obtain ⟨hok, hhash⟩ := Redis.hset_hash? s.redis k f v
    rw [hok, h]
    have hsome : ((s.redis.execute (.hset k f v)).2.hash? k).isSome = true := by
      rw [hhash, Option.isSome_map]
      exact h
    refine (yields_hSetFields_done hsome).mono ?_
    rintro done _ s₂ ⟨hdone, honly⟩
    exact ⟨hdone, (Redis.onlyAt_execute (.hset k f v)).trans honly⟩

/-- `HSet` gives the hash its lifetime. -/
theorem yields_hSet_done {k : RedisKey} {values : List (String × String)} {ttl : ℤ}
    (h : (s.redis.hash? k).isSome = true) :
    (RedisClient.hSet env k values ttl).Yields (Store.failing i) (fun _ => none) True
      (fun _ _ s' => s.redis.OnlyAt k s'.redis ∧ (0 < ttl → ∀ e, s'.redis.live k = some e →
        e.expiresAt = some (s.redis.now + 1000 * ttl.toNat))) n s := by
  refine (yields_hSetFields_done h).bind ?_
  rintro _ _ s₁ ⟨rfl, honly⟩
  rw [if_pos rfl]
  split
  · rename_i httl
    refine (yields_redis (.expire k ttl.toNat)).mono ?_
    rintro _ _ s₂ ⟨-, hs₂⟩
    obtain ⟨-, rfl⟩ := Prod.mk.inj (hs₂.trans (if_pos rfl))
    refine ⟨honly.trans (Redis.onlyAt_execute (.expire k ttl.toNat)), fun _ e he => ?_⟩
    rw [← honly.now]
    rcases hlive : s₁.redis.live k with _ | old
    · simp [Redis.execute, hlive] at he
    · have hput := Redis.live_put_self (d := s₁.redis) (k := k)
        (e := { old with expiresAt := some (s₁.redis.now + 1000 * ttl.toNat) })
        fun t ht => Option.some.inj ht ▸ by omega
      simp only [Redis.execute, hlive] at he
      obtain rfl := Option.some.inj (hput.symm.trans he)
      rfl
  · rename_i httl
    exact ⟨honly, fun hpositive => absurd hpositive httl⟩

/-- How long what a login leaves in Redis lasts. -/
structure Redis.Timely (env : Env) (d : Redis) (session : Session) (d' : Redis) : Prop where
  now : d'.now = d.now
  ends : 0 < env.sessionTtl → ∀ e, d'.live (.session session.sessionId) = some e →
    e.expiresAt = some (d.now + 1000 * env.sessionTtl.toNat)
  pointer : ∀ e, d'.live (.accountSession session.accountId) = some e →
    e.expiresAt = if 0 < env.sessionTtl then some (d.now + 1000 * env.sessionTtl.toNat) else none
  others : ∀ sessionId, sessionId ≠ session.sessionId →
    d.oldSession none session.accountId ≠ some sessionId →
    d'.live (.session sessionId) = d.live (.session sessionId)

/-- The writes of `Create`. -/
theorem yields_save_timely (session : Session)
    (h : (s.redis.hash? (.session session.sessionId)).isSome = true) :
    Prog.Yields (Store.failing i) (fun _ => none) True (fun created _ s' => created = session ∧
      s'.redis.now = s.redis.now ∧
      (0 < env.sessionTtl → ∀ e, s'.redis.live (.session session.sessionId) = some e →
        e.expiresAt = some (s.redis.now + 1000 * env.sessionTtl.toNat)) ∧
      (∀ e, s'.redis.live (.accountSession session.accountId) = some e → e.expiresAt =
        if 0 < env.sessionTtl then some (s.redis.now + 1000 * env.sessionTtl.toNat) else none) ∧
      ∀ sessionId, sessionId ≠ session.sessionId →
        s'.redis.live (.session sessionId) = s.redis.live (.session sessionId)) (do
      let _ ← RedisClient.hSet env (.session session.sessionId)
        (RedisSessionRepository.fields session) env.sessionTtl
      let _ ← RedisClient.set (.accountSession session.accountId) session.sessionId
        env.sessionTtl
      return session) n s := by
  refine (yields_hSet_done h).bind ?_
  rintro _ _ s₁ ⟨honly, hends⟩
  refine (yields_redis _).bind ?_
  rintro _ _ s₂ ⟨-, hs₂⟩
  obtain ⟨-, rfl⟩ := Prod.mk.inj (hs₂.trans (if_pos rfl))
  have hset := Redis.onlyAt_execute (d := s₁.redis) (.set (.accountSession session.accountId)
    session.sessionId (if 0 < env.sessionTtl then some env.sessionTtl.toNat else none))
  refine ⟨rfl, hset.now.trans honly.now, fun httl e he => ?_, fun e he => ?_,
    fun sessionId hne => ?_⟩
  · exact hends httl e ((hset.live RedisKey.noConfusion).symm.trans he)
  · have hstored := (Redis.live_eq_some.mp he).1
    obtain rfl := Option.some.inj (Redis.entries_put_self.symm.trans hstored)
    rw [← honly.now]
    split
    · rfl
    · rfl
  · exact (hset.live RedisKey.noConfusion).trans
      (honly.live fun hk => hne (RedisKey.session.inj hk))

/-- What `Create` leaves lasts as it should, if session keys hold hashes. -/
theorem yields_create_timely {a p : ℤ}
    (h : ∀ sessionId, (s.redis.hash? (.session sessionId)).isSome = true) :
    (RedisSessionRepository.create env a p).Yields (Store.failing i) (fun _ => none) True
      (fun session _ s' => s.redis.Timely env session s'.redis) n s := by
  refine ⟨nofun, fun createdAt s₁ hs₁ => ?_⟩
  obtain ⟨rfl, rfl⟩ := Prod.mk.inj (Option.some.inj hs₁)
  refine ⟨nofun, fun sequence s₂ hs₂ => ?_⟩
  obtain ⟨rfl, rfl⟩ := Prod.mk.inj (Option.some.inj hs₂)
  refine ((serves_failing i).yields_get a).bind ?_
  rintro old _ _ ⟨-, rfl, hold⟩
  cases old with
  | none =>
    refine (yields_save_timely ⟨_, a, p, _⟩ ?_).mono ?_
    · exact h _
    rintro _ _ s₃ ⟨rfl, hnow, hends, hpointer, hothers⟩
    exact ⟨hnow, hends, hpointer, fun sessionId hne _ => hothers sessionId hne⟩
  | some old =>
    refine (yields_redis (.del (.session old))).bind ?_
    rintro _ _ s₃ ⟨-, hs₃⟩
    obtain ⟨-, rfl⟩ := Prod.mk.inj (hs₃.trans (if_pos rfl))
    have hother : ∀ sessionId, sessionId ≠ old →
        (s.redis.put (.session old) none).live (.session sessionId) =
          s.redis.live (.session sessionId) := fun sessionId hne =>
      Redis.live_put_ne fun hk => hne (RedisKey.session.inj hk)
    have hhash : ∀ sessionId,
        ((s.redis.put (.session old) none).hash? (.session sessionId)).isSome = true := by
      intro sessionId
      by_cases hid : sessionId = old
      · subst hid
        simp [Redis.hash?, Redis.live]
      · rw [Redis.hash?_congr (hother sessionId hid)]
        exact h sessionId
    refine (yields_save_timely ⟨_, a, p, _⟩ ?_).mono ?_
    · exact hhash _
    rintro _ _ s₄ ⟨rfl, hnow, hends, hpointer, hothers⟩
    refine ⟨hnow, hends, hpointer, fun sessionId hne hremoved => ?_⟩
    have hid : sessionId ≠ old := by
      rintro rfl
      exact hremoved hold.symm
    exact (hothers sessionId hne).trans (hother sessionId hid)

/-- `Login` refuses with the code of the game and leaves the store alone, or creates the
session of the account. -/
theorem yields_login_answer (request : LoginRequest) (hview : s.mysql.view i = s.mysql.tables)
    (hhash : ∀ sessionId, (s.redis.hash? (.session sessionId)).isSome = true) :
    (LoginService.login env request).Yields (Store.failing i) (fun _ => none) True
      (fun response _ s' =>
        (s.game.loginCode env.verifyPassword request ≠ .ok ∧ response.success = false ∧
          response.errorCode = s.game.loginCode env.verifyPassword request ∧ s' = s) ∨
        s.game.loginCode env.verifyPassword request = .ok ∧ ∃ account,
          s.game.account request.accountName = some account ∧
          response = ⟨true, .ok, "", some (s.loginSession i account), account.defaultPlayerId⟩ ∧
          s'.mysql = s.mysql ∧ s'.sequence = Function.update s.sequence i (s.sequence i + 1) ∧
          Created env s.redis (fun _ => none) 3 (s.loginSession i account) s'.redis ∧
          s.redis.Timely env (s.loginSession i account) s'.redis) 0 s := by
  refine (yields_queryOne _).bind ?_
  rintro row _ s₁ ⟨rfl, rfl, hrow⟩
  rw [if_pos rfl, hview] at hrow
  have hnamed : s₁.game.account request.accountName = row := hrow.symm
  rw [Game.loginCode, hnamed]
  cases row with
  | none => exact .inl ⟨nofun, rfl, rfl, rfl⟩
  | some account =>
    simp only
    cases henabled : account.enabled with
    | false => exact .inl ⟨nofun, rfl, rfl, rfl⟩
    | true =>
      cases hverified : env.verifyPassword request.password account.passwordHash with
      | false => exact .inl ⟨nofun, rfl, rfl, rfl⟩
      | true =>
        simp only [Bool.not_true, Bool.false_eq_true, if_false]
        refine (((serves_failing i).yields_create _ _).and (yields_create_timely hhash)).bind ?_
        rintro session _ _ ⟨⟨rfl, d, rfl, hcreated⟩, htimely⟩
        exact .inr ⟨rfl, account, rfl, rfl, rfl, rfl, hcreated, htimely⟩

omit [DecidableEq ι] in
/-- What is stored under a session key is a hash. -/
theorem Store.InService.sessionHash (h : s.InService env) (sessionId : String) :
    (s.redis.hash? (.session sessionId)).isSome = true := by
  rw [Redis.hash?]
  rcases hlive : s.redis.live (.session sessionId) with _ | ⟨value, expires⟩
  · rfl
  · obtain ⟨values, hvalue, -⟩ := h.rest.filled.genuine _ _ (by simp [RedisKey.fieldNames])
      (Redis.entries_of_live hlive)
    obtain rfl : value = .hash values := hvalue
    rfl

omit [DecidableEq ι] in
/-- A session that was created without a fault is there. -/
theorem Store.InService.found_of_created (h : s.InService env) {session : Session}
    (hcreated : Created env s.redis (fun _ => none) n session s'.redis) :
    s'.redis.session session.sessionId = some session := by
  obtain ⟨values, hvalues⟩ := Option.isSome_iff_exists.mp (h.sessionHash session.sessionId)
  refine hcreated.found_iff.mpr ?_
  have hwritten := @written_all (fun _ => none) (fun _ => rfl)
    (s.redis.firstHSet (fun _ => none) n session.accountId)
    (env.fieldOrder (RedisSessionRepository.fields session))
  rw [Redis.leftover, hwritten]
  have hmem : ∀ f v, (f, v) ∈ RedisSessionRepository.fields session →
      (f, v) ∈ env.fieldOrder (RedisSessionRepository.fields session) :=
    fun f v hfv => (env.fieldOrder_perm _).mem_iff.mpr hfv
  split
  · exact ⟨_, rfl, fun f v hfv => .inl (hmem f v hfv)⟩
  · exact ⟨values, hvalues, fun f v hfv => .inl (hmem f v hfv)⟩

/-- **What a login that meets no fault leaves behind.** -/
theorem Store.InService.signIn (h : s.InService env) {session : Session}
    (hmysql : s'.mysql = s.mysql)
    (hsequence : s'.sequence = Function.update s.sequence i (s.sequence i + 1))
    (hcreated : Created env s.redis (fun _ => none) n session s'.redis)
    (htimely : s.redis.Timely env session s'.redis) :
    ∃ ends, (0 < env.sessionTtl → ends = s.game.endOf env.sessionTtl) ∧
      s'.game = (s.game.signIn ⟨session, ends⟩ (s.game.endOf env.sessionTtl)).draw i := by
  have hremoved : s.redis.removed (fun _ => none) n session.accountId =
      s.redis.oldSession none session.accountId := if_pos rfl
  have hfound := h.found_of_created hcreated
  obtain ⟨e, he⟩ := Redis.live_of_session hfound
  have hlatest : (s.game.latest session.accountId).map Lasting.value =
      s.redis.oldSession none session.accountId := by
    simp [Store.game, Redis.lasting, Function.comp_def]
  refine ⟨e.expiresAt, fun httl => (htimely.ends httl e he).trans (if_pos httl).symm, ?_⟩
  refine Game.ext ?_ ?_ ?_ (funext fun sessionId => ?_) (eq_update_of_ne ?_ fun a ha => ?_)
    htimely.now hsequence
  · simp only [Store.game, Game.draw, Game.signIn, hmysql]
  · simp only [Store.game, Game.draw, Game.signIn, hmysql]
  · simp only [Store.game, Game.draw, Game.signIn, hmysql]
  · -- the new session, the one before, and all others
    rw [Game.draw_session, Game.signIn_session, hlatest]
    by_cases hid : sessionId = session.sessionId
    · rw [if_pos hid, hid]
      exact (congrArg (Redis.lasting _ _) hfound).trans (Redis.lasting_of_live he session)
    rw [if_neg hid]
    by_cases hold : s.redis.oldSession none session.accountId = some sessionId
    · rw [if_pos hold]
      have hover : s'.redis.session sessionId = none := by
        rw [hcreated.other hid, hremoved, if_pos hold]
      exact congrArg (Redis.lasting _ _) hover
    · rw [if_neg hold]
      exact Store.game_session_congr (htimely.others sessionId hid hold)
  · have hpointer := hcreated.pointer fun _ => rfl
    obtain ⟨e', he'⟩ := Redis.live_of_oldSession hpointer
    have hends : e'.expiresAt = s.game.endOf env.sessionTtl := htimely.pointer e' he'
    rw [← hends]
    exact (congrArg (Redis.lasting _ _) hpointer).trans (Redis.lasting_of_live he' _)
  · exact Store.game_latest_congr (hcreated.pointers a ha)

/-- **`Login` is an act of the game.** -/
theorem Store.InService.serves_login (h : s.InService env) {request : LoginRequest}
    {response : LoginResponse}
    (hrun : s.serve env i (.login request) (fun _ => none) = some (.login response, s')) :
    Game.Serves env.dungeonConfig env.verifyPassword env.sessionTtl s.game
      (.login request, .login response) s'.game := by
  obtain ⟨_, -, heq, hanswer⟩ :=
    (yields_login_answer request (h.view i) h.sessionHash).serve rfl hrun
  cases heq
  rcases hanswer with ⟨hrefused, hfailed, hcode, rfl⟩ |
    ⟨hcode, account, hnamed, rfl, hmysql, hsequence, hcreated, htimely⟩
  · exact .noLogin hrefused hfailed hcode
  · obtain ⟨ends, hends, hgame⟩ := h.signIn hmysql hsequence hcreated htimely
    rw [hgame]
    have hmade : (⟨s.loginSession i account, ends⟩ : Lasting Session).value =
        s.game.newSession i account := rfl
    exact .login hcode hnamed hmade hends

/-! ## Runs -/

variable {may : Game.Happening ι → Prop}

/-- The store answers a request, which one of the processes serves, while no command
fails. -/
def Store.Answers (env : Env) (s : Store ι) (e : Request × Response) (s' : Store ι) : Prop :=
  ∃ i, s.serve env i e.1 (fun _ => none) = some (e.2, s')

/-- Something happens that may happen, or another key is evicted. -/
inductive Store.Idles (may : Game.Happening ι → Prop) (s : Store ι) : Store ι → Prop where
  | happen (x : Game.Happening ι) (allowed : may x) : Idles may s (s.happen x)
  | evict (k : RedisKey) (other : k.ofLogin = false) : Idles may s (s.evict k)

/-- A store that answers goes on as the game. -/
theorem Store.InService.answers (h : s.InService env) (hcost : 0 < env.dungeonConfig.costStamina)
    {e : Request × Response} (hanswers : s.Answers env e s') : s'.InService env ∧
      Game.Serves env.dungeonConfig env.verifyPassword env.sessionTtl s.game e s'.game := by
  obtain ⟨request, response⟩ := e
  obtain ⟨i, hrun⟩ := hanswers
  obtain ⟨answer, s'', φ, hserve, hends, hservice, -⟩ := h.serve i request
  obtain ⟨rfl, rfl⟩ := Prod.mk.inj (Option.some.inj (hserve.symm.trans hrun))
  refine ⟨hservice, ?_⟩
  cases request <;> cases answer <;> try exact hends.elim
  case login.login => exact h.serves_login hrun
  case loadPlayer.loadPlayer => exact h.serves_loadPlayer hrun
  case enterDungeon.enterDungeon => exact h.serves_enterDungeon hcost hrun
  case settleDungeon.settleDungeon => exact h.serves_settleDungeon hrun
  case restoreBinding.restoreBinding => exact h.serves_restoreBinding hrun

omit [DecidableEq ι] in
/-- A store that loses keys between requests stays in service. -/
theorem Store.InService.lose (h : s.InService env) (hrest : s'.AtRest env)
    (htables : s'.mysql.tables = s.mysql.tables)
    (hlost : ∀ k e, s'.redis.live k = some e → s.redis.live k = some e) : s'.InService env := by
  refine ⟨hrest, htables ▸ h.owed, ⟨fun p e he => ?_, trivial⟩, fun p => ?_⟩
  · rw [htables]
    exact h.coherent.snapshots p e (hlost _ e he)
  · rcases hlive : s'.redis.live (.playerLock p) with _ | e
    · rfl
    · have hheld := hlost _ e hlive
      rw [h.unlocked p] at hheld
      cases hheld

omit [DecidableEq ι] in
theorem Store.InService.evict (h : s.InService env) (k : RedisKey) : (s.evict k).InService env := by
  refine h.lose (h.rest.evict k) rfl fun k' e he => ?_
  by_cases hk : k' = k
  · rw [hk, s.live_evict_self k] at he
    cases he
  · exact (Store.live_evict_ne hk).symm.trans he

theorem Store.InService.happen (h : s.InService env) (x : Game.Happening ι) :
    (s.happen x).InService env := by
  cases x with
  | pass ms => exact h.lose (h.rest.tick ms) rfl fun k e he => Redis.live_of_tick he
  | restart i => exact h.lose (h.rest.crash i) rfl fun k e he => he
  | loseSession sessionId => exact h.evict (.session sessionId)
  | loseLatest accountId => exact h.evict (.accountSession accountId)

/-- Between requests the game fades. -/
theorem Store.InService.idles (h : s.InService env) (hidles : s.Idles may s') :
    s'.InService env ∧ s.game.Fades may s'.game := by
  cases hidles with
  | happen x allowed => exact ⟨h.happen x, s.game_happen x ▸ .happen x allowed⟩
  | evict k other => exact ⟨h.evict k, Store.game_evict other ▸ .stay⟩

/-- A backend in service stays in service, and its runs are runs of the game. -/
theorem Store.InService.simulates (h₀ : s₀.InService env)
    (hcost : 0 < env.dungeonConfig.costStamina) {events : List (Request × Response)}
    (h : Trace (Store.Answers env) (Store.Idles may) s₀ events s) : s.InService env ∧
      Trace (Game.Serves env.dungeonConfig env.verifyPassword env.sessionTtl) (Game.Fades may)
        s₀.game events s.game :=
  h.simulate (I := Store.InService env) Store.game h₀
    (fun _ _ _ hs hanswers => hs.answers hcost hanswers) (fun _ _ hs hidles => hs.idles hidles)

/-- **The backend serves the game.** Opened with any players, assets and progress, and for
dungeons that cost something, it answers every request, and its answers to requests that come
one after the other, without a failing command, are answers of the game: under `Store.game` a
run of the backend is a run of the game with the same requests and responses. Between requests
time may pass, processes may be restarted and keys be evicted, and nothing happens in the game
that may not happen to the backend. Names and battle ids are spelled as they are stored. -/
theorem serves_the_game (hcost : 0 < env.dungeonConfig.costStamina) (h₀ : s₀.Opened env)
    {events : List (Request × Response)}
    (h : Trace (Store.Answers env) (Store.Idles may) s₀ events s) :
    Trace (Game.Serves env.dungeonConfig env.verifyPassword env.sessionTtl) (Game.Fades may)
        s₀.game events s.game ∧
      ∀ (i : ι) (request : Request), ∃ response s',
        s.serve env i request (fun _ => none) = some (response, s') := by
  obtain ⟨hservice, htrace⟩ := h₀.inService.simulates hcost h
  refine ⟨htrace, fun i request => ?_⟩
  obtain ⟨response, s', -, hserve, -⟩ := hservice.serve i request
  exact ⟨response, s', hserve⟩

/-- One process answers requests, one after the other. -/
def Store.play (env : Env) (i : ι) : List (Request × Response) → Store ι → List Request →
    Option (List (Request × Response) × Store ι)
  | events, s, [] => some (events, s)
  | events, s, request :: rest => (s.serve env i request fun _ => none).bind fun answer =>
    play env i ((request, answer.1) :: events) answer.2 rest

theorem Trace.play {events events' : List (Request × Response)} {requests : List Request}
    (h : Trace (Store.Answers env) (Store.Idles may) s₀ events s)
    (hplay : s.play env i events requests = some (events', s')) :
    Trace (Store.Answers env) (Store.Idles may) s₀ events' s' := by
  induction requests generalizing events s with
  | nil =>
    obtain ⟨rfl, rfl⟩ := Prod.mk.inj (Option.some.inj hplay)
    exact h
  | cons request rest ih =>
    obtain ⟨⟨response, s₁⟩, hserve, hrest⟩ := Option.bind_eq_some_iff.mp hplay
    exact ih (h.act ⟨i, hserve⟩) hrest

/-- The demo servers before anybody has logged in. -/
theorem opened_emptyWorld : emptyWorld.store.Opened demoEnv :=
  ⟨Store.fresh_emptyWorld, rfl, fun _ => rfl, fun _ => rfl⟩

/-- A player logs in, looks at the hero, enters the dungeon and settles the battle. -/
def demoRound : List Request :=
  [.login ⟨"demo", "demo"⟩, .loadPlayer ⟨"sess-10001-20001-1", 20001⟩,
    .enterDungeon ⟨"sess-10001-20001-1", 20001, 1001⟩,
    .settleDungeon ⟨"sess-10001-20001-1", 20001, "battle-20001-1001-2", 1001, 3, true⟩]

/-- The round, and the hour after it, in which nothing happens. -/
theorem serves_the_game_demo :
    ∃ events s,
      Trace (Store.Answers demoEnv) (Store.Idles fun x => x = .pass 3600000) emptyWorld.store
        events s ∧
      events.map (fun e => e.2.success) = [true, true, true, true] ∧
      Trace (Game.Serves demoEnv.dungeonConfig demoEnv.verifyPassword demoEnv.sessionTtl)
        (Game.Fades fun x => x = .pass 3600000) emptyWorld.store.game events s.game := by
  have hrun : (emptyWorld.store.play demoEnv true [] demoRound).any
      (fun r => r.1.map (fun e => e.2.success) = [true, true, true, true]) = true := by
    decide +kernel
  obtain ⟨⟨events, s⟩, hplay, hsuccess⟩ := (Option.any_eq_true _ _).mp hrun
  have htrace : Trace (Store.Answers demoEnv) (Store.Idles fun x => x = .pass 3600000)
      emptyWorld.store events (s.happen (.pass 3600000)) :=
    (Trace.nil.play hplay).quiet (.happen _ rfl)
  exact ⟨events, _, htrace, of_decide_eq_true hsuccess,
    (serves_the_game (by decide) opened_emptyWorld htrace).1⟩

end GameBackend
