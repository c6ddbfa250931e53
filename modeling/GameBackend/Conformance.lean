import GameBackend.Protocol

/-!
# The services follow the protocol

`serve_obeys`: whatever answers a request gets, each of its commands is allowed
by `Advance` in the phase it has reached, and its response tells the phase as
`Ends` says. The proof goes through the classes of the source from the clients
up, with one lemma a method; each lemma has a postcondition as a parameter, so
that the callers compose.
-/

namespace GameBackend

/-- `Obeys cfg Q m φ`: from phase `φ` on, the routine `m` follows the protocol,
and it returns only results and phases in `Q`. -/
abbrev Obeys (cfg : DungeonConfig) {α : Type} (Q : α → Phase → Prop) (m : Program α) (φ : Phase) :
    Prop :=
  Follows Cmd.Plausible (Advance cfg) (fun _ => True) Q m φ

variable {cfg : DungeonConfig} {φ : Phase}

/-! ## Clients -/

section Clients

theorem obeys_sql {c : SqlCmd} {Q : c.Reply → Phase → Prop}
    (h : ∀ r, c.Plausible r → ∃ φ', Advance cfg φ (.sql c) r φ' ∧ Q r φ') :
    Obeys cfg Q (sql c) φ := h

theorem obeys_redis {c : RedisCmd} {Q : c.Reply → Phase → Prop}
    (h : ∀ r, ∃ φ', Advance cfg φ (.redis c) r φ' ∧ Q r φ') : Obeys cfg Q (redis c) φ :=
  fun r _ => h r

/-- A harmless command changes no phase. -/
theorem obeys_pass {c : Cmd} (hc : c.harmless = true) (hs : c.signs = false) :
    Obeys cfg (fun _ φ' => φ' = φ) (Prog.send (R := Cmd.Reply) c) φ :=
  fun _ _ => ⟨φ, .read hc hs, rfl⟩

/-- The rows a query hands to its caller come from a plausible answer. -/
theorem obeys_query {q : Query} {Q : List q.Row → Phase → Prop}
    (h : ∀ r, (SqlCmd.select q).Plausible r →
      ∃ φ', Advance cfg φ (.sql (.select q)) r φ' ∧ Q (r.getD []) φ') :
    Obeys cfg Q (MySqlClient.query q) φ := by
  refine Follows.bind (obeys_sql (c := .select q) (Q := fun r φ' => Q (r.getD []) φ') h) ?_
  intro r φ' hr
  cases r with
  | none => exact hr
  | some rows => exact hr

theorem obeys_queryOne {q : Query} {Q : Option q.Row → Phase → Prop}
    (h : ∀ r, (SqlCmd.select q).Plausible r →
      ∃ φ', Advance cfg φ (.sql (.select q)) r φ' ∧ Q (r.getD []).head? φ') :
    Obeys cfg Q (MySqlClient.queryOne q) φ :=
  Follows.bind (obeys_query (Q := fun rows φ' => Q rows.head? φ') h) fun _ _ hr => hr

theorem obeys_get {k : RedisKey} {Q : Option String → Phase → Prop} (h : ∀ v, Q v φ) :
    Obeys cfg Q (RedisClient.get k) φ := by
  refine Follows.bind
    (obeys_redis (c := .get k) (Q := fun _ φ' => ∀ v, Q v φ') fun r => ⟨φ, .read rfl rfl, h⟩) ?_
  intro r φ' hφ'
  cases r with
  | none => exact hφ' none
  | some v => exact hφ' v

/-- `HGetAll` returns the fields of a hash that has some, else nothing. -/
theorem obeys_hGetAll {k : RedisKey} {Q : Option (List (String × String)) → Phase → Prop}
    (hmiss : ∀ r : Option (List (String × String)), emptyReply r →
      ∃ φ', Advance cfg φ (.redis (.hgetall k)) r φ' ∧ Q none φ')
    (hhit : ∀ values, values ≠ [] →
      ∃ φ', Advance cfg φ (.redis (.hgetall k)) (some values) φ' ∧ Q (some values) φ') :
    Obeys cfg Q (RedisClient.hGetAll k) φ := by
  rintro (_ | _ | ⟨x, rest⟩) -
  · exact hmiss none rfl
  · exact hmiss (some []) rfl
  · exact hhit (x :: rest) (List.cons_ne_nil _ _)

/-- The `HSET` loop stays in a phase that allows each of its fields. -/
theorem obeys_hSetFields {k : RedisKey} :
    ∀ {values : List (String × String)},
      (∀ f v r, (f, v) ∈ values → Advance cfg φ (.redis (.hset k f v)) r φ) →
      Obeys cfg (fun _ φ' => φ' = φ) (RedisClient.hSetFields k values) φ
  | [], _ => rfl
  | (f, v) :: rest, h => by
    rintro (_ | _) -
    · exact ⟨φ, h f v false List.mem_cons_self, rfl⟩
    · exact ⟨φ, h f v true List.mem_cons_self,
        obeys_hSetFields fun f' v' r hmem => h f' v' r (List.mem_cons_of_mem _ hmem)⟩

theorem obeys_hSet {env : Env} {k : RedisKey} {values : List (String × String)} {ttl : ℤ}
    {Q : Bool → Phase → Prop}
    (hset : ∀ f v r, (f, v) ∈ values → Advance cfg φ (.redis (.hset k f v)) r φ)
    (hexpire : ∀ s r, Advance cfg φ (.redis (.expire k s)) r φ) (hQ : ∀ r, Q r φ) :
    Obeys cfg Q (RedisClient.hSet env k values ttl) φ := by
  refine Follows.bind (obeys_hSetFields fun f v r hmem =>
    hset f v r ((env.fieldOrder_perm values).mem_iff.mp hmem)) ?_
  rintro (_ | _) φ' rfl
  · exact hQ false
  · rw [if_pos rfl]
    split
    · exact obeys_redis fun r => ⟨φ', hexpire _ r, hQ r⟩
    · exact hQ true

end Clients

/-! ## Repositories -/

section Repositories

theorem obeys_findById {sessionId : String} {Q : Option Session → Phase → Prop}
    (h : ∀ session, Q session φ) : Obeys cfg Q (RedisSessionRepository.findById sessionId) φ := by
  refine Follows.bind (obeys_hGetAll (Q := fun _ φ' => φ' = φ)
    (fun _ _ => ⟨φ, .read rfl rfl, rfl⟩) fun _ _ => ⟨φ, .read rfl rfl, rfl⟩) ?_
  rintro (_ | values) φ' rfl
  · exact h none
  · exact Follows.bind (follows_ofOption.mpr ⟨fun _ _ => rfl, fun _ => trivial⟩)
      fun session φ' hφ' => hφ' ▸ h session

/-- Creating a session: from the clock on, the request is signing. -/
theorem obeys_create {env : Env} {accountId playerId : ℤ} :
    Obeys cfg (fun _ φ' => φ' = .signing)
      (RedisSessionRepository.create env accountId playerId) .outside := by
  have hclock : Obeys cfg (fun _ φ' => φ' = .signing) epochSeconds .outside :=
    fun _ _ => ⟨_, .sign, rfl⟩
  refine Follows.bind hclock ?_
  rintro createdAt φ' rfl
  refine Follows.bind (obeys_pass rfl rfl) ?_
  rintro sequence φ' rfl
  refine Follows.bind (obeys_get (Q := fun _ φ' => φ' = .signing) fun _ => rfl) ?_
  have hstore : ∀ session : Session, Obeys cfg (fun _ φ' => φ' = .signing) (do
        let _ ← RedisClient.hSet env (.session session.sessionId)
          (RedisSessionRepository.fields session) env.sessionTtl
        let _ ← RedisClient.set (.accountSession accountId) session.sessionId env.sessionTtl
        return session) .signing := by
    intro session
    refine Follows.bind (obeys_hSet (Q := fun _ φ' => φ' = .signing)
      (fun _ _ _ _ => .pass rfl fun _ => rfl) (fun _ _ => .pass rfl fun _ => rfl)
      fun _ => rfl) ?_
    rintro _ φ' rfl
    exact fun r _ => ⟨_, .pass rfl fun _ => rfl, rfl⟩
  rintro oldSession φ' rfl
  cases oldSession with
  | none => exact hstore _
  | some oldSession => exact fun r _ => ⟨_, .pass rfl fun _ => rfl, hstore _⟩

/-- Under the player lock, reading the player's state changes no phase. -/
theorem obeys_loadPlayerState {p : ℤ} {Q : Option PlayerState → Phase → Prop}
    (h : ∀ state, (∀ s ∈ state, s.profile.playerId = p) → Q state φ) :
    Obeys cfg Q (MySqlPlayerRepository.loadPlayerState p) φ := by
  refine Follows.bind (obeys_queryOne (q := .profile p)
    (Q := fun r φ' => φ' = φ ∧ ∀ profile ∈ r, profile.playerId = p)
    fun r hr => ⟨φ, .read rfl rfl, rfl, ?_⟩) ?_
  · intro profile hprofile
    rcases r with _ | _ | ⟨x, rows⟩
    · cases hprofile
    · cases hprofile
    · exact Option.some.inj hprofile ▸ hr _ rfl x List.mem_cons_self
  · rintro (_ | profile) φ' ⟨rfl, hp⟩
    · exact h none (by simp)
    · refine Follows.bind (obeys_query (q := .progress p) (Q := fun _ φ'' => φ'' = φ')
        fun r _ => ⟨φ', .read rfl rfl, rfl⟩) ?_
      rintro rows φ'' rfl
      exact h _ fun s hs => Option.some.inj hs ▸ hp profile rfl

/-- After a miss, `LoadPlayer` reads the profile and then the progress. -/
theorem obeys_loadPlayerState_missed {p : ℤ} :
    Obeys cfg (fun state φ' => (state = none → φ' = .missed p) ∧
        ∀ s ∈ state, φ' = .loaded p s ∧ s.profile.playerId = p)
      (MySqlPlayerRepository.loadPlayerState p) (.missed p) := by
  refine Follows.bind (obeys_queryOne (q := .profile p)
    (Q := fun r φ' => (r = none → φ' = .missed p) ∧
      ∀ profile ∈ r, φ' = .profiled p profile ∧ profile.playerId = p)
    fun r hr => ?_) ?_
  · rcases r with _ | _ | ⟨x, rows⟩
    · exact ⟨_, .read rfl rfl, fun _ => rfl, by simp⟩
    · exact ⟨_, .read rfl rfl, fun _ => rfl, by simp⟩
    · refine ⟨_, .profile, (fun h => nomatch h), fun profile hprofile => ?_⟩
      obtain rfl := Option.some.inj hprofile
      exact ⟨rfl, hr _ rfl x List.mem_cons_self⟩
  · rintro (_ | profile) φ' ⟨hnone, hφ'⟩
    · exact ⟨fun _ => hnone rfl, fun s hs => nomatch hs⟩
    · obtain ⟨rfl, hp⟩ := hφ' profile rfl
      refine Follows.bind (obeys_query (q := .progress p)
        (Q := fun rows φ'' => φ'' = .loaded p (stateOf profile rows))
        fun r _ => ⟨_, .progress, rfl⟩) ?_
      rintro rows φ'' rfl
      exact ⟨fun h => (nomatch h), fun s hs => Option.some.inj hs ▸ ⟨rfl, hp⟩⟩

/-- Writing the snapshot back. -/
theorem obeys_save_snapshot {env : Env} {p : ℤ} {state : PlayerState}
    {Q : Bool → Phase → Prop} (hp : state.profile.playerId = p)
    (h : ∀ r, Q r (.loaded p state)) :
    Obeys cfg Q (RedisPlayerCacheRepository.save env state) (.loaded p state) := by
  subst hp
  exact obeys_hSet (fun _ _ _ hmem => .fill hmem) (fun _ _ => .fillExpire) h

/-- Storing the battle context of a committed row. -/
theorem obeys_save_context {env : Env} {row : BattleRow} {Q : Bool → Phase → Prop}
    (h : ∀ r, Q r (.committed (.enter row))) :
    Obeys cfg Q (RedisBattleContextRepository.save env (contextOfEntered cfg row))
      (.committed (.enter row)) :=
  obeys_hSet (fun _ _ _ hmem => .saveContext hmem) (fun _ _ => .expireContext) h

/-- A write statement whose affected rows the code checks. -/
theorem obeys_execute_guarded {deed : Deed} {done todo : List SqlWrite} {w : SqlWrite}
    (hw : w.guarded = true) (none' : String) :
    Obeys cfg (fun r φ' =>
        (MySqlDungeonRepository.affectedOne none' r = .ok () ∧
          φ' = .writing deed (done ++ [w]) todo) ∨
        ∃ message, MySqlDungeonRepository.affectedOne none' r = .error message ∧
          φ' = .aborting deed.player)
      (MySqlClient.execute w) (.writing deed done (w :: todo)) := by
  refine obeys_sql fun r _ => ?_
  rcases r with message | _ | _ | n
  · exact ⟨_, .refuse (fun n hn => nomatch hn), .inr ⟨_, rfl, rfl⟩⟩
  · refine ⟨_, .refuse fun n hn => ⟨hw, ?_⟩, .inr ⟨_, rfl, rfl⟩⟩
    exact Except.ok.inj hn ▸ Nat.zero_ne_one
  · exact ⟨_, .write fun _ => rfl, .inl ⟨rfl, rfl⟩⟩
  · refine ⟨_, .refuse fun m hm => ⟨hw, ?_⟩, .inr ⟨_, rfl, rfl⟩⟩
    have hm := Except.ok.inj hm
    omega

/-- A write statement whose affected rows the code ignores. -/
theorem obeys_execute {deed : Deed} {done todo : List SqlWrite} {w : SqlWrite}
    (hw : w.guarded = false) :
    Obeys cfg (fun r φ' =>
        (∃ n, r = .ok n ∧ φ' = .writing deed (done ++ [w]) todo) ∨
        ∃ message, r = .error message ∧ φ' = .aborting deed.player)
      (MySqlClient.execute w) (.writing deed done (w :: todo)) := by
  refine obeys_sql fun r _ => ?_
  rcases r with message | n
  · exact ⟨_, .refuse (fun n hn => nomatch hn), .inr ⟨_, rfl, rfl⟩⟩
  · exact ⟨_, .write fun h => absurd h (by simp [hw]), .inl ⟨n, rfl, rfl⟩⟩

theorem obeys_beginTransaction {φ' : Phase} {p : ℤ}
    (hok : Advance cfg φ (.sql .startTransaction) (.ok ()) φ')
    (herror : ∀ message, Advance cfg φ (.sql .startTransaction) (.error message) (.leaving p)) :
    Obeys cfg (fun r φ'' => (r = .ok () ∧ φ'' = φ') ∨ ∃ message, r = .error message ∧
      φ'' = .leaving p) MySqlClient.beginTransaction φ := by
  rintro (message | _) -
  · exact ⟨_, herror message, .inr ⟨message, rfl, rfl⟩⟩
  · exact ⟨_, hok, .inl ⟨rfl, rfl⟩⟩

/-- What the body of a transaction comes to: all statements of the plan went
through, or the transaction has to be rolled back. -/
def Written (cfg : DungeonConfig) (deed : Deed) (r : Except String Unit) (φ : Phase) : Prop :=
  (r = .ok () ∧ φ = .writing deed (deed.plan cfg) []) ∨
    ∃ message, r = .error message ∧ φ = .aborting deed.player

/-- What the whole transaction comes to. -/
def Concluded (deed : Deed) (r : Except String Unit) (φ : Phase) : Prop :=
  (r = .ok () ∧ φ = .committed deed) ∨ ∃ message, r = .error message ∧ φ = .leaving deed.player

theorem obeys_finishTransaction {deed : Deed} {r : Except String Unit}
    (h : Written cfg deed r φ) :
    Obeys cfg (Concluded deed) (MySqlDungeonRepository.finishTransaction r) φ := by
  have hrollback : ∀ message, Obeys cfg (Concluded deed) (do
      let _ ← MySqlClient.rollback
      return .error message) (.aborting deed.player) :=
    fun message r _ => ⟨_, .rollback, .inr ⟨message, rfl, rfl⟩⟩
  obtain ⟨rfl, rfl⟩ | ⟨message, rfl, rfl⟩ := h
  · rintro (message | _) -
    · exact ⟨_, .noCommit, hrollback message⟩
    · exact ⟨_, .commit, .inl ⟨rfl, rfl⟩⟩
  · exact hrollback message

theorem obeys_enterStatements {profile : PlayerProfile} {row : BattleRow}
    (hp : profile.playerId = row.playerId) (hd : row.dungeonId = cfg.dungeonId)
    (hs : row.status = 0) (hc : row.costStamina = cfg.costStamina) :
    Obeys cfg (Written cfg (.enter row))
      (MySqlDungeonRepository.enterStatements profile cfg row.battleId) (.opened row) := by
  have hrow : (⟨row.battleId, profile.playerId, cfg.dungeonId, 0, cfg.costStamina⟩ : BattleRow) =
      row := by
    rw [hp, ← hd, ← hs, ← hc]
  rw [MySqlDungeonRepository.enterStatements, hrow, hp, ← hc]
  refine Follows.bind (obeys_queryOne (q := .pendingBattle row.playerId)
    (Q := fun r φ' => (r = none ∧ φ' = .writing (.enter row) [] ((Deed.enter row).plan cfg)) ∨
      (r.isSome = true ∧ φ' = .aborting row.playerId)) fun r _ => ?_) ?_
  · rcases r with _ | _ | ⟨x, rest⟩
    · exact ⟨_, .noPending rfl, .inl ⟨rfl, rfl⟩⟩
    · exact ⟨_, .noPending rfl, .inl ⟨rfl, rfl⟩⟩
    · exact ⟨_, .pending (List.cons_ne_nil x rest), .inr ⟨rfl, rfl⟩⟩
  · rintro r φ' (⟨rfl, rfl⟩ | ⟨hr, rfl⟩)
    · refine Follows.bind (obeys_execute_guarded rfl "stamina not enough") ?_
      rintro r φ' (⟨hr, rfl⟩ | ⟨message, hr, rfl⟩)
      · simp only [hr]
        refine Follows.bind (obeys_execute rfl) ?_
        rintro r φ' (⟨n, rfl, rfl⟩ | ⟨message, rfl, rfl⟩)
        · exact .inl ⟨rfl, rfl⟩
        · exact .inr ⟨message, rfl, rfl⟩
      · simp only [hr]
        exact .inr ⟨message, rfl, rfl⟩
    · rw [if_pos hr]
      exact .inr ⟨_, rfl, rfl⟩

theorem obeys_settleStatements {context : BattleContext} {star : ℤ} {firstClear : Bool} :
    let s : Settlement := ⟨context.battleId, context.playerId, cfg.dungeonId, star, firstClear⟩
    Obeys cfg (Written cfg (.settle s))
      (MySqlDungeonRepository.settleStatements context cfg star firstClear)
      (.writing (.settle s) [] ((Deed.settle s).plan cfg)) := by
  intro s
  rw [MySqlDungeonRepository.settleStatements]
  refine Follows.bind (obeys_execute_guarded rfl "battle already settled") ?_
  rintro r φ' (⟨hr, rfl⟩ | ⟨message, hr, rfl⟩)
  case inr => simpa only [hr] using .inr ⟨message, rfl, rfl⟩
  simp only [hr]
  refine Follows.bind (obeys_execute rfl) ?_
  rintro r φ' (⟨n, rfl, rfl⟩ | ⟨message, rfl, rfl⟩)
  case inr => exact .inr ⟨message, rfl, rfl⟩
  refine Follows.bind (obeys_execute rfl) ?_
  rintro r φ' (⟨n, rfl, rfl⟩ | ⟨message, rfl, rfl⟩)
  case inr => exact .inr ⟨message, rfl, rfl⟩
  refine Follows.bind (obeys_execute rfl) ?_
  rintro r φ' (⟨n, rfl, rfl⟩ | ⟨message, rfl, rfl⟩)
  case inr => exact .inr ⟨message, rfl, rfl⟩
  -- only a first clear has a second reward row
  cases firstClear with
  | false => exact .inl ⟨rfl, rfl⟩
  | true =>
    refine Follows.bind (obeys_execute rfl) ?_
    rintro r φ' (⟨n, rfl, rfl⟩ | ⟨message, rfl, rfl⟩)
    · exact .inl ⟨rfl, rfl⟩
    · exact .inr ⟨message, rfl, rfl⟩

theorem obeys_enterDungeon {playerState : PlayerState} {row : BattleRow}
    (hp : playerState.profile.playerId = row.playerId) (hd : row.dungeonId = cfg.dungeonId)
    (hs : row.status = 0) (hc : row.costStamina = cfg.costStamina) :
    Obeys cfg (fun result φ' =>
        (result.success = true ∧ result.battleContext = contextOfEntered cfg row ∧
          φ' = .committed (.enter row)) ∨
        (result.success = false ∧ φ' = .leaving row.playerId))
      (MySqlDungeonRepository.enterDungeon playerState cfg row.battleId) (.numbered row) := by
  have hctx : ({ battleId := row.battleId
                 playerId := playerState.profile.playerId
                 dungeonId := cfg.dungeonId
                 costStamina := cfg.costStamina
                 maxStar := cfg.maxStar } : BattleContext) = contextOfEntered cfg row := by
    rw [hp, ← hd, ← hc, contextOfEntered]
  rw [MySqlDungeonRepository.enterDungeon, hctx]
  refine Follows.bind (obeys_beginTransaction .enterBegin fun _ => .enterNoBegin) ?_
  rintro r φ' (⟨rfl, rfl⟩ | ⟨message, rfl, rfl⟩)
  · refine Follows.bind (obeys_enterStatements hp hd hs hc) fun transaction φ' ht => ?_
    refine Follows.bind (obeys_finishTransaction ht) ?_
    rintro r φ'' (⟨rfl, rfl⟩ | ⟨message, rfl, rfl⟩)
    · exact .inl ⟨rfl, rfl, rfl⟩
    · exact .inr ⟨rfl, rfl⟩
  · exact .inr ⟨rfl, rfl⟩

theorem obeys_settleDungeon {p : ℤ} {context : BattleContext} {star : ℤ}
    (hp : context.playerId = p) (hd : context.dungeonId = cfg.dungeonId)
    (hs : context.settled = false) :
    Obeys cfg (fun result φ' =>
        (result.success = true ∧ φ' = .committed (.settle
          ⟨context.battleId, p, cfg.dungeonId, star, result.firstClear⟩)) ∨
        (result.success = false ∧ φ' = .leaving p))
      (MySqlDungeonRepository.settleDungeon context cfg star) (.found p context) := by
  subst hp
  rw [MySqlDungeonRepository.settleDungeon]
  refine Follows.bind (obeys_queryOne (q := .firstClear context.playerId cfg.dungeonId)
    (Q := fun r φ' => φ' = .decided
      ⟨context.battleId, context.playerId, cfg.dungeonId, star, r.isNone⟩)
    fun r _ => ?_) ?_
  · refine ⟨.decided ⟨context.battleId, context.playerId, cfg.dungeonId, star, _⟩,
      .decide rfl hd hs, ?_⟩
    cases r.getD [] with
    | nil => rfl
    | cons x rest => rfl
  rintro r φ' rfl
  refine Follows.bind (obeys_beginTransaction .settleBegin fun _ => .settleNoBegin) ?_
  rintro r φ' (⟨rfl, rfl⟩ | ⟨message, rfl, rfl⟩)
  · refine Follows.bind obeys_settleStatements fun transaction φ' ht => ?_
    refine Follows.bind (obeys_finishTransaction ht) ?_
    rintro r φ'' (⟨rfl, rfl⟩ | ⟨message, rfl, rfl⟩)
    · exact .inl ⟨rfl, rfl⟩
    · exact .inr ⟨rfl, rfl⟩
  · exact .inr ⟨rfl, rfl⟩

end Repositories

/-! ## Services -/

section Services

variable {env : Env}

/-- What happens between acquiring and releasing the lock of `p`: a deed in `D`
was done and the snapshot deleted, or nothing was committed. -/
def Done (p : ℤ) (D : Deed → Prop) (success : Bool) (φ : Phase) : Prop :=
  (success = true ∧ ∃ deed, D deed ∧ deed.player = p ∧ φ = .invalidated deed) ∨
    (success = false ∧ φ.exit = some (p, none))

/-- Giving the lock back keeps the result. -/
theorem obeys_release {α : Type} {p : ℤ} {D : Deed → Prop} {success : Bool} {response : α}
    {Q : α → Phase → Prop} (h : Done p D success φ)
    (hdone : success = true → ∀ deed, D deed → deed.player = p →
      Q response (.released (some deed)))
    (hnot : success = false → Q response (.released none)) :
    Obeys cfg Q (do
      DungeonService.releasePlayerLock p
      return response) φ := by
  obtain ⟨hs, deed, hD, hp, rfl⟩ | ⟨hs, hexit⟩ := h
  · subst hp
    exact fun r _ => ⟨_, .unlock rfl, hdone hs deed hD rfl⟩
  · exact fun r _ => ⟨_, .unlock hexit, hnot hs⟩

theorem ttlSeconds_pos (env : Env) : 0 < RedisPlayerLockRepository.ttlSeconds env := by
  rw [RedisPlayerLockRepository.ttlSeconds]
  split
  · assumption
  · decide

/-- Acquiring the player lock. -/
theorem obeys_acquire {p : ℤ} :
    Obeys cfg (fun acquired φ' => (acquired = true ∧ φ' = .locked p) ∨
        (acquired = false ∧ φ' = .outside))
      (DungeonService.acquirePlayerLock env p) .outside := by
  rintro (_ | _ | _) -
  · exact ⟨_, .busy (by simp), .inr ⟨rfl, rfl⟩⟩
  · exact ⟨_, .busy (by simp), .inr ⟨rfl, rfl⟩⟩
  · exact ⟨_, .lock (Int.lt_toNat.mpr (ttlSeconds_pos env)), .inl ⟨rfl, rfl⟩⟩

/-- Drawing the battle id. -/
theorem obeys_generateBattleId {p : ℤ} :
    Obeys cfg (fun b φ' => φ' = .numbered ⟨b, p, cfg.dungeonId, 0, cfg.costStamina⟩)
      (DungeonService.generateBattleId p cfg.dungeonId) (.locked p) :=
  fun _ _ => ⟨_, .number, rfl⟩

theorem obeys_enterLocked {request : EnterDungeonRequest}
    (hd : request.dungeonId = env.dungeonConfig.dungeonId) :
    Obeys env.dungeonConfig
      (fun response => Done request.playerId
        (fun deed => deed = .enter ⟨response.battleId, request.playerId, request.dungeonId, 0,
          env.dungeonConfig.costStamina⟩)
        response.success)
      (DungeonService.enterLocked env env.dungeonConfig request) (.locked request.playerId) := by
  rw [DungeonService.enterLocked, hd]
  refine Follows.bind (obeys_loadPlayerState (Q := fun state φ' => φ' = .locked request.playerId ∧
    ∀ s ∈ state, s.profile.playerId = request.playerId) fun state hs => ⟨rfl, hs⟩) ?_
  rintro (_ | playerState) φ' ⟨rfl, hp⟩
  · exact .inr ⟨rfl, rfl⟩
  · dsimp only
    split
    · exact .inr ⟨rfl, rfl⟩
    split
    · exact .inr ⟨rfl, rfl⟩
    refine Follows.bind obeys_generateBattleId ?_
    rintro battleId φ' rfl
    have hrow : playerState.profile.playerId = (BattleRow.mk battleId request.playerId
        env.dungeonConfig.dungeonId 0 env.dungeonConfig.costStamina).playerId :=
      hp playerState rfl
    refine Follows.bind (obeys_enterDungeon hrow rfl rfl rfl) ?_
    rintro result φ' (⟨hsuccess, hcontext, rfl⟩ | ⟨hsuccess, rfl⟩)
    · simp only [hsuccess, hcontext, Bool.not_true, Bool.false_eq_true, if_false]
      refine Follows.bind (obeys_save_context (Q := fun _ φ' => φ' = .committed (.enter _))
        fun _ => rfl) ?_
      rintro _ φ' rfl r -
      exact ⟨_, .invalidate, .inl ⟨rfl, _, rfl, rfl, rfl⟩⟩
    · simp only [hsuccess, Bool.not_false, if_true]
      exact .inr ⟨rfl, rfl⟩

/-- The context a settlement works with, if there is one. -/
theorem obeys_findBattle {p : ℤ} {battleId : String} :
    Obeys cfg (fun context φ' => (context = none ∧ φ' = .locked p) ∨
        ∃ ctx, context = some ctx ∧ ctx.battleId = battleId ∧ φ' = .found p ctx)
      (DungeonService.findBattle battleId) (.locked p) := by
  have hmysql : Obeys cfg (fun context φ' => (context = none ∧ φ' = .locked p) ∨
        ∃ ctx, context = some ctx ∧ ctx.battleId = battleId ∧ φ' = .found p ctx)
      (MySqlDungeonRepository.findBattleById battleId) (.locked p) := by
    refine Follows.bind (obeys_queryOne (q := .battle battleId)
      (Q := fun row φ' => (row = none ∧ φ' = .locked p) ∨
        ∃ r, row = some r ∧ r.battleId = battleId ∧
          φ' = .found p (MySqlDungeonRepository.contextOf r)) fun r hr => ?_) ?_
    · rcases r with _ | _ | ⟨row, rows⟩
      · exact ⟨_, .noBattle rfl, .inl ⟨rfl, rfl⟩⟩
      · exact ⟨_, .noBattle rfl, .inl ⟨rfl, rfl⟩⟩
      · have hb : row.battleId = battleId := hr _ rfl row List.mem_cons_self
        exact ⟨_, .findBattle hb, .inr ⟨row, rfl, hb, rfl⟩⟩
    · rintro row φ' (⟨rfl, rfl⟩ | ⟨r, rfl, hr, rfl⟩)
      · exact .inl ⟨rfl, rfl⟩
      · exact .inr ⟨_, rfl, hr, rfl⟩
  refine Follows.bind (P := fun context φ' => (context = none ∧ φ' = .locked p) ∨
    ∃ ctx, context = some ctx ∧ ctx.battleId = battleId ∧ φ' = .found p ctx) ?_ ?_
  · refine Follows.bind (obeys_hGetAll (Q := fun values φ' => (values = none ∧ φ' = .locked p) ∨
      ∃ v, values = some v ∧ ∀ ctx, RedisBattleContextRepository.decode battleId v = some ctx →
        φ' = .found p ctx) (fun r _ => ⟨_, .noContext, .inl ⟨rfl, rfl⟩⟩) ?_) ?_
    · intro values _
      rcases hdec : RedisBattleContextRepository.decode battleId values with _ | ctx
      · refine ⟨_, .noContext, .inr ⟨values, rfl, fun ctx hctx => ?_⟩⟩
        rw [hdec] at hctx
        cases hctx
      · refine ⟨_, .findContext hdec, .inr ⟨values, rfl, fun ctx' hctx => ?_⟩⟩
        rw [hdec] at hctx
        rw [Option.some.inj hctx]
    · rintro values φ' (⟨rfl, rfl⟩ | ⟨v, rfl, hv⟩)
      · exact .inl ⟨rfl, rfl⟩
      · refine Follows.bind (P := fun ctx φ'' =>
          RedisBattleContextRepository.decode battleId v = some ctx ∧ φ'' = .found p ctx)
          (follows_ofOption.mpr ⟨fun ctx hctx => ⟨hctx, hv ctx hctx⟩, fun _ => trivial⟩) ?_
        rintro ctx φ'' ⟨hctx, rfl⟩
        exact .inr ⟨ctx, rfl, RedisBattleContextRepository.battleId_decode hctx, rfl⟩
  · rintro context φ' (⟨rfl, rfl⟩ | ⟨ctx, rfl, hctx, rfl⟩)
    · exact hmysql
    · exact .inr ⟨ctx, rfl, hctx, rfl⟩

theorem obeys_settleLocked {request : SettleDungeonRequest}
    (hd : request.dungeonId = env.dungeonConfig.dungeonId) :
    Obeys env.dungeonConfig
      (fun response => Done request.playerId
        (fun deed => deed = .settle ⟨request.battleId, request.playerId, request.dungeonId,
          request.star, response.firstClear⟩) response.success)
      (DungeonService.settleLocked env.dungeonConfig request) (.locked request.playerId) := by
  refine Follows.bind obeys_findBattle ?_
  rintro context φ' (⟨rfl, rfl⟩ | ⟨ctx, rfl, hb, rfl⟩)
  · exact .inr ⟨rfl, rfl⟩
  · dsimp only
    split
    · exact .inr ⟨rfl, rfl⟩
    rename_i hmatch
    rw [not_or, not_not, not_not] at hmatch
    split
    · exact .inr ⟨rfl, rfl⟩
    rename_i hunsettled
    refine Follows.bind (obeys_settleDungeon hmatch.1 (hmatch.2.trans hd)
      (Bool.eq_false_iff.mpr hunsettled)) ?_
    rintro result φ' (⟨hsuccess, rfl⟩ | ⟨hsuccess, rfl⟩)
    · simp only [hsuccess, Bool.not_true, Bool.false_eq_true, if_false, hb]
      refine Follows.bind (obeys_redis (Q := fun _ φ' => φ' = .committed (.settle _))
        fun r => ⟨_, .dropContext, rfl⟩) ?_
      rintro _ φ' rfl r -
      exact ⟨_, .invalidate, .inl ⟨rfl, _, by rw [hd], rfl, rfl⟩⟩
    · simp only [hsuccess, Bool.not_false, if_true]
      exact .inr ⟨rfl, rfl⟩

/-- The dungeon of a request that passed the configuration check. -/
theorem dungeonId_of_find {d : ℤ} {config : DungeonConfig}
    (h : InMemoryDungeonConfigRepository.findByDungeonId env d = some config) :
    config = env.dungeonConfig ∧ d = env.dungeonConfig.dungeonId := by
  rw [InMemoryDungeonConfigRepository.findByDungeonId] at h
  split at h
  · cases h
  · rename_i hd
    exact ⟨(Option.some.inj h).symm, not_not.mp hd⟩

theorem enterDungeon_obeys (request : EnterDungeonRequest) :
    Obeys env.dungeonConfig
      (fun response => Ends env.dungeonConfig (.enterDungeon request) (.enterDungeon response))
      (DungeonService.enterDungeon env request) .outside := by
  have hrefuse : ∀ code message, Ends env.dungeonConfig (.enterDungeon request)
      (.enterDungeon (DungeonService.refuseEnter code message)) .outside :=
    fun _ _ => ⟨fun h => absurd h Bool.false_ne_true, fun _ => .inl rfl⟩
  refine Follows.bind (obeys_findById (Q := fun _ φ' => φ' = .outside) fun _ => rfl) ?_
  rintro session φ' rfl
  split
  · exact hrefuse _ _
  split
  · exact hrefuse _ _
  rename_i config hconfig
  obtain ⟨rfl, hd⟩ := dungeonId_of_find hconfig
  refine Follows.bind obeys_acquire ?_
  rintro acquired φ' (⟨rfl, rfl⟩ | ⟨rfl, rfl⟩)
  · refine Follows.bind (obeys_enterLocked hd) fun response φ' hdone => ?_
    refine obeys_release hdone ?_ ?_
    · rintro hs _ rfl hp
      exact ⟨fun _ => rfl, fun h => absurd (hs.symm.trans h) (by decide)⟩
    · exact fun hs => ⟨fun h => absurd (hs.symm.trans h) (by decide), fun _ => .inr rfl⟩
  · exact hrefuse _ _

theorem settleDungeon_obeys (request : SettleDungeonRequest) :
    Obeys env.dungeonConfig
      (fun response => Ends env.dungeonConfig (.settleDungeon request) (.settleDungeon response))
      (DungeonService.settleDungeon env request) .outside := by
  have hrefuse : ∀ code message, Ends env.dungeonConfig (.settleDungeon request)
      (.settleDungeon (DungeonService.refuseSettle code message)) .outside :=
    fun _ _ => ⟨fun h => absurd h Bool.false_ne_true, fun _ => .inl rfl⟩
  rw [DungeonService.settleDungeon]
  split
  · exact hrefuse _ _
  refine Follows.bind (obeys_findById (Q := fun _ φ' => φ' = .outside) fun _ => rfl) ?_
  rintro session φ' rfl
  split
  · exact hrefuse _ _
  split
  · exact hrefuse _ _
  rename_i config hconfig
  obtain ⟨rfl, hd⟩ := dungeonId_of_find hconfig
  split
  · exact hrefuse _ _
  refine Follows.bind obeys_acquire ?_
  rintro acquired φ' (⟨rfl, rfl⟩ | ⟨rfl, rfl⟩)
  · refine Follows.bind (obeys_settleLocked hd) fun response φ' hdone => ?_
    refine obeys_release hdone ?_ ?_
    · rintro hs _ rfl hp
      exact ⟨fun _ => rfl, fun h => absurd (hs.symm.trans h) (by decide)⟩
    · exact fun hs => ⟨fun h => absurd (hs.symm.trans h) (by decide), fun _ => .inr rfl⟩
  · exact hrefuse _ _

theorem loadPlayer_obeys (request : LoadPlayerRequest) :
    Obeys cfg (fun response => Ends cfg (.loadPlayer request) (.loadPlayer response))
      (PlayerService.loadPlayer env request) .outside := by
  have hrefuse : ∀ code message φ, φ.lock = none → φ ≠ .signing → Ends cfg (.loadPlayer request)
      (.loadPlayer (PlayerService.refuse code message)) φ :=
    fun _ _ _ hlock hsigning => ⟨hlock, hsigning, fun h => absurd h Bool.false_ne_true⟩
  refine Follows.bind (obeys_findById (Q := fun _ φ' => φ' = .outside) fun _ => rfl) ?_
  rintro session φ' rfl
  split
  · exact hrefuse _ _ _ rfl (by simp)
  refine Follows.bind (P := fun cached φ' => (cached = none ∧ φ' = .missed request.playerId) ∨
    ∃ state values, cached = some state ∧ φ' = .hit request.playerId values ∧
      RedisPlayerCacheRepository.decode values = some state) ?_ ?_
  · refine Follows.bind (obeys_hGetAll (Q := fun values φ' =>
      (values = none ∧ φ' = .missed request.playerId) ∨
      ∃ v, values = some v ∧ φ' = .hit request.playerId v)
      (fun r hr => ⟨_, .miss hr, .inl ⟨rfl, rfl⟩⟩)
      fun values hvalues => ⟨_, .hit hvalues, .inr ⟨values, rfl, rfl⟩⟩) ?_
    rintro values φ' (⟨rfl, rfl⟩ | ⟨v, rfl, rfl⟩)
    · exact .inl ⟨rfl, rfl⟩
    · refine Follows.bind (P := fun state φ'' =>
        RedisPlayerCacheRepository.decode v = some state ∧ φ'' = .hit request.playerId v)
        (follows_ofOption.mpr ⟨fun state hstate => ⟨hstate, rfl⟩, fun _ => trivial⟩) ?_
      rintro state φ'' ⟨hstate, rfl⟩
      exact .inr ⟨state, v, rfl, rfl, hstate⟩
  · rintro cached φ' (⟨rfl, rfl⟩ | ⟨state, values, rfl, rfl, hstate⟩)
    · refine Follows.bind obeys_loadPlayerState_missed ?_
      rintro (_ | state) φ' ⟨hnone, hφ'⟩
      · obtain rfl := hnone rfl
        exact hrefuse _ _ _ rfl (by simp)
      · obtain ⟨rfl, hp⟩ := hφ' state rfl
        refine Follows.bind (obeys_save_snapshot (Q := fun _ φ' =>
          φ' = .loaded request.playerId state) hp fun _ => rfl) ?_
        rintro _ φ' rfl
        exact ⟨rfl, by simp, fun _ => ⟨state, rfl, .inl rfl⟩⟩
    · exact ⟨rfl, by simp, fun _ => ⟨state, rfl, .inr ⟨values, rfl, hstate⟩⟩⟩

theorem login_obeys (request : LoginRequest) :
    Obeys cfg (fun _ φ' => φ' = .outside ∨ φ' = .signing) (LoginService.login env request)
      .outside := by
  refine Follows.bind (obeys_queryOne (Q := fun _ φ' => φ' = .outside)
    fun r _ => ⟨_, .read rfl rfl, rfl⟩) ?_
  rintro (_ | account) φ' rfl
  · exact .inl rfl
  · dsimp only
    split
    · exact .inl rfl
    split
    · exact .inl rfl
    exact Follows.bind obeys_create fun _ _ h => .inr h

theorem restoreBinding_obeys (sessionId : String) (playerId : ℤ) :
    Obeys cfg (fun _ φ' => φ' = .outside)
      (SessionBindingAuthorizer.restoreBindingFromSession sessionId playerId) .outside := by
  rw [SessionBindingAuthorizer.restoreBindingFromSession]
  split
  · rfl
  refine Follows.bind (obeys_findById (Q := fun _ φ' => φ' = .outside) fun _ => rfl) ?_
  rintro session φ' rfl
  split
  · rfl
  · rfl

/-- **Conformance.** Every request follows the protocol. -/
theorem serve_obeys (env : Env) (request : Request) :
    Obeys env.dungeonConfig (Ends env.dungeonConfig request) (serve env request) .outside := by
  cases request with
  | login request => exact Follows.bind (login_obeys request) fun _ _ h => h
  | loadPlayer request => exact Follows.bind (loadPlayer_obeys request) fun _ _ h => h
  | enterDungeon request => exact Follows.bind (enterDungeon_obeys request) fun _ _ h => h
  | settleDungeon request => exact Follows.bind (settleDungeon_obeys request) fun _ _ h => h
  | restoreBinding sessionId playerId =>
    exact Follows.bind (restoreBinding_obeys sessionId playerId) fun _ _ h => h

end Services

end GameBackend
