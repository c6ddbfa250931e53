import GameBackend.Core
import GameBackend.Encodings

/-!
# Writing and reading hashes

`RedisClient::HSet` writes a hash field by field and sets its lifetime at the
end. So a second, much smaller protocol runs beside the one of `Protocol`: where
a request is in such a write.

* `Filling`, `Fills` — outside, or in the middle of writing the hash of a key.
* `serve_tidy` — every request follows it, goes through with every write it
  starts unless a command fails, and throws no exception as long as the hashes it
  reads decode.
* `Filled` — the invariant of Redis and the requests in the middle of a write:
  every hash is whole or somebody is writing it, and what has been written is
  there.
-/

namespace GameBackend

/-! ## Whole hashes -/

/-- The configured lifetime of a hash, in seconds. -/
def Env.ttlOf (env : Env) : RedisKey → ℤ
  | .session _ => env.sessionTtl
  | .playerSnapshot _ => env.snapshotTtl
  | .battleCtx _ => env.battleContextTtl
  | _ => 0

/-- The fields of a hash; a string has none. -/
def RedisEntry.fields (e : RedisEntry) : List (String × String) :=
  match e.value with
  | .hash fields => fields
  | .string _ => []

/-- The hash has all the fields its reader looks up. -/
def RedisEntry.Complete (k : RedisKey) (e : RedisEntry) : Prop :=
  ∀ f ∈ k.fieldNames, (fieldOf e.fields f).isSome = true

/-- And it expires, if a lifetime is configured. -/
def RedisEntry.Whole (env : Env) (k : RedisKey) (e : RedisEntry) : Prop :=
  e.Complete k ∧ (0 < env.ttlOf k → e.expiresAt.isSome = true)

instance (k : RedisKey) (e : RedisEntry) : Decidable (e.Complete k) := by
  unfold RedisEntry.Complete
  infer_instance

instance (env : Env) (k : RedisKey) (e : RedisEntry) : Decidable (e.Whole env k) := by
  unfold RedisEntry.Whole
  infer_instance

/-- The entry is a hash whose fields are those of records. -/
def RedisEntry.Genuine (k : RedisKey) (e : RedisEntry) : Prop :=
  ∃ values, e.value = .hash values ∧ ∀ f v, fieldOf values f = some v → k.Field f v

/-- All hashes of a Redis are whole records. -/
def Redis.Tidy (env : Env) (d : Redis) : Prop :=
  ∀ k e, k.fieldNames ≠ [] → d.entries k = some e → e.Genuine k ∧ e.Whole env k

/-- A list of fields that makes up a record. -/
structure RedisKey.Record (k : RedisKey) (values : List (String × String)) : Prop where
  complete : ∀ f ∈ k.fieldNames, f ∈ values.map Prod.fst
  genuine : ∀ f v, (f, v) ∈ values → k.Field f v

namespace RedisKey

variable {k : RedisKey} {values values' : List (String × String)}

theorem Record.perm (h : k.Record values) (hperm : values'.Perm values) : k.Record values' where
  complete f hf := (hperm.map Prod.fst).mem_iff.mpr (h.complete f hf)
  genuine f v hfv := h.genuine f v (hperm.mem_iff.mp hfv)

theorem record_session (sessionId : String) (s : Session) :
    (session sessionId).Record (RedisSessionRepository.fields s) where
  complete f hf := by simpa [fieldNames, RedisSessionRepository.fields] using hf
  genuine _ _ hfv := ⟨s, hfv⟩

theorem record_snapshot (p : ℤ) (playerState : PlayerState) :
    (playerSnapshot p).Record (RedisPlayerCacheRepository.fields playerState) where
  complete f hf := by simpa [fieldNames, RedisPlayerCacheRepository.fields] using hf
  genuine _ _ hfv := ⟨playerState, hfv⟩

theorem record_context (battleId : String) (battleContext : BattleContext) :
    (battleCtx battleId).Record (RedisBattleContextRepository.fields battleContext) where
  complete f hf := by simpa [fieldNames, RedisBattleContextRepository.fields] using hf
  genuine _ _ hfv := ⟨battleContext, hfv⟩

/-- Only keys of hashes have fields. -/
theorem fieldNames_of_field {f v : String} (h : k.Field f v) : k.fieldNames ≠ [] := by
  cases k with
  | session _ | playerSnapshot _ | battleCtx _ => exact List.cons_ne_nil _ _
  | accountSession _ | playerLock _ => exact h.elim

/-- A complete hash of records' fields decodes. -/
theorem decodes_of_complete {e : RedisEntry} (hgenuine : e.Genuine k) (hcomplete : e.Complete k) :
    k.Decodes e.fields := by
  obtain ⟨values, hvalue, hfields⟩ := hgenuine
  have he : e.fields = values := by simp only [RedisEntry.fields, hvalue]
  refine decodes fun f hf => ?_
  obtain ⟨v, hv⟩ := Option.isSome_iff_exists.mp (hcomplete f hf)
  exact ⟨v, hv, hfields f v (he ▸ hv)⟩

end RedisKey

/-! ## The protocol of a write -/

/-- Where a request is in the writing of a hash. -/
inductive Filling where
  | outside
  /-- these fields of the hash are written and these are left; when none is left,
  the lifetime is -/
  | midway (k : RedisKey) (written : List String) (left : List (String × String))

/-- After a field is written: the write is over if no field is left and no
lifetime is to be set. -/
def Filling.after (env : Env) (k : RedisKey) (written : List String)
    (left : List (String × String)) : Filling :=
  if left = [] ∧ env.ttlOf k ≤ 0 then .outside else .midway k written left

/-- The commands that do not write to a hash, except that they may delete it. -/
def Cmd.plain : Cmd → Bool
  | .redis (.hset _ _ _) => false
  | .redis (.expire _ _) => false
  | .redis (.set k _ _) => k.fieldNames.isEmpty
  | .redis (.setNx k _ _) => k.fieldNames.isEmpty
  | _ => true

/-- The commands of `RedisClient::HSet`. -/
def Cmd.ofHSet : Cmd → Bool
  | .redis (.hset _ _ _) => true
  | .redis (.expire _ _) => true
  | _ => false

/-- The commands of a write, and what they lead to. -/
inductive Fills (env : Env) : Filling → (c : Cmd) → c.Reply → Filling → Prop where
  | plain {c : Cmd} {r : c.Reply} (plain : c.plain = true) : Fills env .outside c r .outside
  | first {k : RedisKey} {f v : String} {left : List (String × String)}
      (record : k.Record ((f, v) :: left)) :
      Fills env .outside (.redis (.hset k f v)) true (.after env k [f] left)
  | firstFails {k : RedisKey} {f v : String} {left : List (String × String)}
      (record : k.Record ((f, v) :: left)) :
      Fills env .outside (.redis (.hset k f v)) false .outside
  | next {k : RedisKey} {written : List String} {f v : String} {left : List (String × String)} :
      Fills env (.midway k written ((f, v) :: left)) (.redis (.hset k f v)) true
        (.after env k (written ++ [f]) left)
  | nextFails {k : RedisKey} {written : List String} {f v : String}
      {left : List (String × String)} :
      Fills env (.midway k written ((f, v) :: left)) (.redis (.hset k f v)) false .outside
  | expire {k : RedisKey} {written : List String} {ttl : ℕ} {r : Bool} (positive : 0 < ttl) :
      Fills env (.midway k written []) (.redis (.expire k ttl)) r .outside

section Fills

variable {env : Env}

/-- In the middle of a write come the commands of the write. -/
theorem Fills.ofHSet {φ : Filling} {c : Cmd} {r : c.Reply} {k : RedisKey} {written : List String}
    {left : List (String × String)} (h : Fills env (.midway k written left) c r φ) :
    c.ofHSet = true := by
  cases h with
  | next | nextFails | expire _ => rfl

/-- A command that writes no hash and is not for Redis changes no place. -/
theorem Fills.not_redis {φ ψ : Filling} {c : Cmd} {r : c.Reply} (h : Fills env φ c r ψ)
    (hc : ∀ d, c ≠ .redis d) : φ = .outside ∧ ψ = .outside := by
  cases h with
  | plain _ => exact ⟨rfl, rfl⟩
  | first _ | firstFails _ | next | nextFails | expire _ => exact absurd rfl (hc _)

/-- A Redis command that fails ends the write it is part of. -/
theorem Fills.failed {φ ψ : Filling} {c : RedisCmd} (h : Fills env φ (.redis c) c.failed ψ) :
    ψ = .outside := by
  generalize hr : c.failed = r at h
  cases h with
  | first _ | next => cases hr
  | plain _ | firstFails _ | nextFails | expire _ => rfl

end Fills

/-- The answers of a Redis whose hashes decode. -/
def Cmd.Readable : (c : Cmd) → c.Reply → Prop
  | .redis (.hgetall k), r => ∀ values ∈ r, values ≠ [] → k.Decodes values
  | _, _ => True

/-- Every command can get an answer: it can fail. -/
theorem Cmd.exists_answer (c : Cmd) : ∃ r, c.Plausible r ∧ c.Readable r := by
  cases c with
  | sql c => exact ⟨c.failed "", SqlCmd.plausible_failed _ _, trivial⟩
  | redis c =>
    refine ⟨c.failed, trivial, ?_⟩
    cases c with
    | hgetall k => exact fun values hvalues => nomatch hvalues
    | _ => trivial
  | fetchAddSequence => exact ⟨0, trivial, trivial⟩
  | epochSeconds => exact ⟨0, trivial, trivial⟩

/-- `Tidy env m`: as long as the hashes it reads decode, the routine `m` finishes
every write it starts and throws no exception. -/
abbrev Tidy (env : Env) {α : Type} (m : Program α) : Prop :=
  Follows Cmd.Readable (Fills env) (fun _ => False) (fun _ φ => φ = .outside) m .outside

/-! ## The services are tidy -/

section Clients

variable {env : Env} {α β : Type}

theorem tidy_ret (a : α) : Tidy env (Prog.ret a) := rfl

theorem Tidy.bind {m : Program α} {f : α → Program β} (hm : Tidy env m)
    (hf : ∀ a, Tidy env (f a)) : Tidy env (m >>= f) := by
  refine Follows.bind hm ?_
  rintro a φ rfl
  exact hf a

/-- A command that writes no hash. -/
theorem tidy_send {c : Cmd} (h : c.plain = true) : Tidy env (Prog.send (R := Cmd.Reply) c) :=
  fun _ _ => ⟨.outside, .plain h, rfl⟩

theorem tidy_query (q : Query) : Tidy env (MySqlClient.query q) := by
  refine Tidy.bind (tidy_send rfl) ?_
  rintro (_ | rows)
  · exact tidy_ret _
  · exact tidy_ret _

theorem tidy_queryOne (q : Query) : Tidy env (MySqlClient.queryOne q) :=
  (tidy_query q).bind fun _ => tidy_ret _

/-- The `HSET` loop, from its second field on. -/
theorem fills_hSetFields {k : RedisKey} :
    ∀ {left : List (String × String)} {written : List String},
      Follows Cmd.Readable (Fills env) (fun _ => False)
        (fun ok φ => (ok = true ∧ ∃ written', φ = .after env k written' []) ∨
          (ok = false ∧ φ = .outside))
        (RedisClient.hSetFields k left) (.after env k written left)
  | [], written => .inl ⟨rfl, written, rfl⟩
  | (f, v) :: left, written => by
    rw [Filling.after, if_neg fun h => List.cons_ne_nil _ _ h.1]
    rintro (_ | _) -
    · exact ⟨_, .nextFails, .inr ⟨rfl, rfl⟩⟩
    · exact ⟨_, .next, fills_hSetFields⟩

/-- `HSet` of a record. -/
theorem tidy_hSet {k : RedisKey} {values : List (String × String)} (hrecord : k.Record values)
    (hne : values ≠ []) : Tidy env (RedisClient.hSet env k values (env.ttlOf k)) := by
  have hperm := env.fieldOrder_perm values
  have hrecord' := hrecord.perm hperm
  rw [RedisClient.hSet]
  rcases hvalues : env.fieldOrder values with _ | ⟨⟨f, v⟩, left⟩
  · rw [hvalues] at hperm
    exact absurd hperm.symm.eq_nil hne
  · rw [hvalues] at hrecord'
    refine Follows.bind (P := fun ok φ => (ok = true ∧ ∃ written, φ = .after env k written []) ∨
      (ok = false ∧ φ = .outside)) ?_ ?_
    · rintro (_ | _) -
      · exact ⟨_, .firstFails hrecord', .inr ⟨rfl, rfl⟩⟩
      · exact ⟨_, .first hrecord', fills_hSetFields⟩
    · rintro ok φ (⟨rfl, written, rfl⟩ | ⟨rfl, rfl⟩)
      · rw [if_pos rfl]
        split
        · rename_i hpos
          rw [Filling.after, if_neg fun h => absurd hpos (Int.not_lt.mpr h.2)]
          exact fun r _ => ⟨_, .expire (Int.lt_toNat.mpr hpos), rfl⟩
        · rename_i hneg
          rw [Filling.after, if_pos ⟨rfl, Int.not_lt.mp hneg⟩]
          exact tidy_ret _
      · exact tidy_ret _

/-- Reading a hash with a reader that never throws on one that decodes. -/
theorem tidy_find {k : RedisKey} {decode : List (String × String) → Option α}
    (hdecode : ∀ values, k.Decodes values → (decode values).isSome = true) :
    Tidy env (do
      match ← RedisClient.hGetAll k with
      | none => return none
      | some values => return some (← orThrow (decode values))) := by
  rintro (_ | _ | ⟨x, rest⟩) hr
  · exact ⟨_, .plain rfl, tidy_ret _⟩
  · exact ⟨_, .plain rfl, tidy_ret _⟩
  · refine ⟨_, .plain rfl, ?_⟩
    have hsome := hdecode (x :: rest) (hr _ rfl (List.cons_ne_nil _ _))
    obtain ⟨a, ha⟩ := Option.isSome_iff_exists.mp hsome
    change Tidy env (orThrow (decode (x :: rest)) >>= fun b => Prog.ret (some b))
    rw [ha]
    exact tidy_ret _

end Clients

section Repositories

variable {env : Env}

theorem tidy_findById (sessionId : String) :
    Tidy env (RedisSessionRepository.findById sessionId) :=
  tidy_find fun _ h => h

theorem tidy_create (accountId playerId : ℤ) :
    Tidy env (RedisSessionRepository.create env accountId playerId) := by
  refine (tidy_send rfl).bind fun createdAt => (tidy_send rfl).bind fun sequence => ?_
  refine Tidy.bind ((tidy_send rfl).bind fun r => ?_) fun oldSession => ?_
  · cases r with
    | none => exact tidy_ret _
    | some v => exact tidy_ret _
  have hstore : ∀ session : Session, Tidy env (do
        let _ ← RedisClient.hSet env (.session session.sessionId)
          (RedisSessionRepository.fields session) env.sessionTtl
        let _ ← RedisClient.set (.accountSession accountId) session.sessionId env.sessionTtl
        return session) := fun session =>
    (tidy_hSet (RedisKey.record_session _ session) (List.cons_ne_nil _ _)).bind fun _ =>
      (tidy_send rfl).bind fun _ => tidy_ret _
  cases oldSession with
  | none => exact hstore _
  | some oldSession => exact (tidy_send rfl).bind fun _ => hstore _

theorem tidy_loadPlayerState (p : ℤ) : Tidy env (MySqlPlayerRepository.loadPlayerState p) := by
  refine (tidy_queryOne _).bind ?_
  rintro (_ | profile)
  · exact tidy_ret _
  · exact (tidy_query _).bind fun _ => tidy_ret _

theorem tidy_findBattle (battleId : String) : Tidy env (DungeonService.findBattle battleId) := by
  refine Tidy.bind (tidy_find fun _ h => h) ?_
  rintro (_ | context)
  · exact (tidy_queryOne _).bind fun _ => tidy_ret _
  · exact tidy_ret _

theorem tidy_finishTransaction (transaction : Except String Unit) :
    Tidy env (MySqlDungeonRepository.finishTransaction transaction) := by
  rcases transaction with message | _
  · exact (tidy_send rfl).bind fun _ => tidy_ret _
  · refine (tidy_send rfl).bind ?_
    rintro (message | _)
    · exact (tidy_send rfl).bind fun _ => tidy_ret _
    · exact tidy_ret _

theorem tidy_enterStatements (profile : PlayerProfile) (config : DungeonConfig)
    (battleId : String) :
    Tidy env (MySqlDungeonRepository.enterStatements profile config battleId) := by
  refine (tidy_queryOne _).bind fun pending => ?_
  split
  · exact tidy_ret _
  refine (tidy_send rfl).bind fun r => ?_
  split
  · exact tidy_ret _
  refine (tidy_send rfl).bind ?_
  rintro (message | n)
  · exact tidy_ret _
  · exact tidy_ret _

theorem tidy_settleStatements (context : BattleContext) (config : DungeonConfig) (star : ℤ)
    (firstClear : Bool) :
    Tidy env (MySqlDungeonRepository.settleStatements context config star firstClear) := by
  refine (tidy_send rfl).bind fun r => ?_
  split
  · exact tidy_ret _
  refine (tidy_send rfl).bind ?_
  rintro (message | n)
  · exact tidy_ret _
  refine (tidy_send rfl).bind ?_
  rintro (message | n)
  · exact tidy_ret _
  refine (tidy_send rfl).bind ?_
  rintro (message | n)
  · exact tidy_ret _
  dsimp only
  split
  · refine (tidy_send rfl).bind ?_
    rintro (message | n)
    · exact tidy_ret _
    · exact tidy_ret _
  · exact tidy_ret _

/-- A transaction around tidy statements. -/
theorem tidy_transaction {α : Type} {statements : Program (Except String Unit)}
    {done : α} {failed : String → α} (h : Tidy env statements) :
    Tidy env (do
      match ← MySqlClient.beginTransaction with
      | .error message => return failed message
      | .ok () =>
        let transaction ← statements
        match ← MySqlDungeonRepository.finishTransaction transaction with
        | .error message => return failed message
        | .ok () => return done) := by
  refine (tidy_send rfl).bind ?_
  rintro (message | _)
  · exact tidy_ret _
  refine h.bind fun transaction => (tidy_finishTransaction transaction).bind ?_
  rintro (message | _)
  · exact tidy_ret _
  · exact tidy_ret _

end Repositories

section Services

variable {env : Env}

theorem tidy_enterLocked (config : DungeonConfig) (request : EnterDungeonRequest) :
    Tidy env (DungeonService.enterLocked env config request) := by
  refine (tidy_loadPlayerState _).bind ?_
  rintro (_ | playerState)
  · exact tidy_ret _
  dsimp only
  split
  · exact tidy_ret _
  split
  · exact tidy_ret _
  refine Tidy.bind ((tidy_send rfl).bind fun _ => tidy_ret _) fun battleId => ?_
  refine (tidy_transaction (tidy_enterStatements _ _ _)).bind fun result => ?_
  split
  · exact tidy_ret _
  refine (tidy_hSet (RedisKey.record_context _ _) (List.cons_ne_nil _ _)).bind fun _ => ?_
  exact (tidy_send rfl).bind fun _ => tidy_ret _

theorem tidy_settleLocked (config : DungeonConfig) (request : SettleDungeonRequest) :
    Tidy env (DungeonService.settleLocked config request) := by
  refine (tidy_findBattle _).bind ?_
  rintro (_ | context)
  · exact tidy_ret _
  dsimp only
  split
  · exact tidy_ret _
  split
  · exact tidy_ret _
  refine Tidy.bind ((tidy_queryOne _).bind fun row =>
    tidy_transaction (tidy_settleStatements _ _ _ _)) fun result => ?_
  split
  · exact tidy_ret _
  exact (tidy_send rfl).bind fun _ => (tidy_send rfl).bind fun _ => tidy_ret _

/-- What happens under the player lock. -/
theorem tidy_underLock {α : Type} {p : ℤ} {refused : α} {locked : Program α}
    (h : Tidy env locked) :
    Tidy env (do
      if !(← DungeonService.acquirePlayerLock env p) then
        return refused
      let response ← locked
      DungeonService.releasePlayerLock p
      return response) := by
  refine Tidy.bind ((tidy_send rfl).bind fun _ => tidy_ret _) fun acquired => ?_
  split
  · exact tidy_ret _
  refine h.bind fun response => ?_
  exact Tidy.bind ((tidy_send rfl).bind fun _ => tidy_ret _) fun _ => tidy_ret _

theorem tidy_enterDungeon (request : EnterDungeonRequest) :
    Tidy env (DungeonService.enterDungeon env request) := by
  refine (tidy_findById _).bind fun session => ?_
  split
  · exact tidy_ret _
  split
  · exact tidy_ret _
  · exact tidy_underLock (tidy_enterLocked _ _)

theorem tidy_settleDungeon (request : SettleDungeonRequest) :
    Tidy env (DungeonService.settleDungeon env request) := by
  rw [DungeonService.settleDungeon]
  split
  · exact tidy_ret _
  refine (tidy_findById _).bind fun session => ?_
  split
  · exact tidy_ret _
  split
  · exact tidy_ret _
  split
  · exact tidy_ret _
  · exact tidy_underLock (tidy_settleLocked _ _)

theorem tidy_loadPlayer (request : LoadPlayerRequest) :
    Tidy env (PlayerService.loadPlayer env request) := by
  refine (tidy_findById _).bind fun session => ?_
  split
  · exact tidy_ret _
  refine Tidy.bind (tidy_find fun _ h => h) ?_
  rintro (_ | cachedState)
  · refine (tidy_loadPlayerState _).bind ?_
    rintro (_ | playerState)
    · exact tidy_ret _
    · exact (tidy_hSet (RedisKey.record_snapshot _ _) (List.cons_ne_nil _ _)).bind fun _ =>
        tidy_ret _
  · exact tidy_ret _

theorem tidy_login (request : LoginRequest) : Tidy env (LoginService.login env request) := by
  refine (tidy_queryOne _).bind ?_
  rintro (_ | account)
  · exact tidy_ret _
  dsimp only
  split
  · exact tidy_ret _
  split
  · exact tidy_ret _
  exact (tidy_create _ _).bind fun _ => tidy_ret _

theorem tidy_restoreBinding (sessionId : String) (playerId : ℤ) :
    Tidy env (SessionBindingAuthorizer.restoreBindingFromSession sessionId playerId) := by
  rw [SessionBindingAuthorizer.restoreBindingFromSession]
  split
  · exact tidy_ret _
  refine (tidy_findById _).bind fun session => ?_
  split
  · exact tidy_ret _
  · exact tidy_ret _

/-- Every request is tidy. -/
theorem serve_tidy (env : Env) (request : Request) : Tidy env (serve env request) := by
  cases request with
  | login request => exact (tidy_login request).bind fun _ => tidy_ret _
  | loadPlayer request => exact (tidy_loadPlayer request).bind fun _ => tidy_ret _
  | enterDungeon request => exact (tidy_enterDungeon request).bind fun _ => tidy_ret _
  | settleDungeon request => exact (tidy_settleDungeon request).bind fun _ => tidy_ret _
  | restoreBinding sessionId playerId =>
    exact (tidy_restoreBinding sessionId playerId).bind fun _ => tidy_ret _

end Services

/-! ## Redis and the writes under way -/

section Invariant

variable {ι : Type} [DecidableEq ι] {env : Env} {d d' : Redis} {β : ι → Filling} {k : RedisKey}
  {written : List String} {left : List (String × String)}

/-- A write of the hash of `k` is under way: the fields of a record are written
or left, and what is written is there. -/
structure Begun (env : Env) (d : Redis) (k : RedisKey) (written : List String)
    (left : List (String × String)) : Prop where
  family : k.fieldNames ≠ []
  complete : ∀ f ∈ k.fieldNames, f ∈ written ∨ f ∈ left.map Prod.fst
  genuine : ∀ f v, (f, v) ∈ left → k.Field f v
  expires : left = [] → 0 < env.ttlOf k
  live : ∃ e, d.live k = some e ∧ ∀ f ∈ written, (fieldOf e.fields f).isSome = true

/-- The hashes of a Redis while the requests are where `β` says in their writes:
all fields are those of records, and a hash is whole unless it is being
written. -/
structure Filled (env : Env) (d : Redis) (β : ι → Filling) : Prop where
  genuine : ∀ k e, k.fieldNames ≠ [] → d.entries k = some e → e.Genuine k
  whole : ∀ k e, k.fieldNames ≠ [] → d.live k = some e →
    e.Whole env k ∨ ∃ i written left, β i = .midway k written left
  begun : ∀ i k written left, β i = .midway k written left → Begun env d k written left

/-- A write under way only looks at its own hash. -/
theorem Begun.congr (h : Begun env d k written left)
    (hlive : ∀ e, d.live k = some e → ∃ e', d'.live k = some e' ∧
      ∀ f, (fieldOf e.fields f).isSome = true → (fieldOf e'.fields f).isSome = true) :
    Begun env d' k written left := by
  obtain ⟨e, he, hwritten⟩ := h.live
  obtain ⟨e', he', hfields⟩ := hlive e he
  exact ⟨h.family, h.complete, h.genuine, h.expires, e', he',
    fun f hf => hfields f (hwritten f hf)⟩

omit [DecidableEq ι] in
/-- With whole hashes and no write under way the invariant holds. -/
theorem Filled.init (h : d.Tidy env) : Filled env d fun _ : ι => .outside where
  genuine k e hk he := (h k e hk he).1
  whole k e hk he := .inl (h k e hk (Redis.entries_of_live he)).2
  begun _ _ _ _ h := nomatch h

/-- When only the entry of one key and the place of one request in its write of
this key change, the invariant has to be checked for this key only. -/
theorem Filled.update {i : ι} {ψ : Filling} (h : Filled env d β) (k₀ : RedisKey)
    (hnow : d'.now = d.now) (hother : ∀ k, k ≠ k₀ → d'.entries k = d.entries k)
    (hi : ∀ k written left, β i = .midway k written left → k = k₀)
    (hψ : ∀ k written left, ψ = .midway k written left → k = k₀)
    (hgenuine : k₀.fieldNames ≠ [] → ∀ e, d'.entries k₀ = some e → e.Genuine k₀)
    (hwhole : k₀.fieldNames ≠ [] → ∀ e, d'.live k₀ = some e →
      e.Whole env k₀ ∨ ∃ j written left, Function.update β i ψ j = .midway k₀ written left)
    (hself : ∀ written left, ψ = .midway k₀ written left → Begun env d' k₀ written left)
    (hothers : ∀ j written left, j ≠ i → β j = .midway k₀ written left →
      Begun env d' k₀ written left) :
    Filled env d' (Function.update β i ψ) := by
  have hlive : ∀ k, k ≠ k₀ → d'.live k = d.live k := fun k hk =>
    Redis.live_congr (hother k hk) hnow
  refine ⟨?_, ?_, ?_⟩
  · intro k e hk he
    by_cases hk₀ : k = k₀
    · subst hk₀
      exact hgenuine hk e he
    · exact h.genuine k e hk (hother k hk₀ ▸ he)
  · intro k e hk he
    by_cases hk₀ : k = k₀
    · subst hk₀
      exact hwhole hk e he
    · refine (h.whole k e hk (hlive k hk₀ ▸ he)).imp_right ?_
      rintro ⟨j, written, left, hj⟩
      have hji : j ≠ i := fun hji => hk₀ (hi k written left (hji ▸ hj))
      exact ⟨j, written, left, (Function.update_of_ne hji ..).trans hj⟩
  · intro j k written left hj
    by_cases hji : j = i
    · subst hji
      rw [Function.update_self] at hj
      obtain rfl := hψ k written left hj
      exact hself written left hj
    · rw [Function.update_of_ne hji] at hj
      by_cases hk₀ : k = k₀
      · subst hk₀
        exact hothers j written left hji hj
      · exact (h.begun j k written left hj).congr fun e he =>
          ⟨e, (hlive k hk₀).trans he, fun _ hf => hf⟩

omit [DecidableEq ι] in
/-- What is stored at the key of a hash is a hash. -/
theorem Filled.hash_of_live (h : Filled env d β) (hk : k.fieldNames ≠ []) {e : RedisEntry}
    (he : d.live k = some e) : ∃ fields, e.value = .hash fields := by
  obtain ⟨fields, hvalue, -⟩ := h.genuine k e hk (Redis.entries_of_live he)
  exact ⟨fields, hvalue⟩

/-- A request that is in no write stops or sends a command that changes
nothing. -/
theorem Filled.drop {i : ι} (h : Filled env d β)
    (hwhole : ∀ k written left, β i = .midway k written left →
      ∀ e, d.live k = some e → e.Whole env k) :
    Filled env d (Function.update β i .outside) := by
  refine ⟨h.genuine, ?_, ?_⟩
  · intro k e hk he
    rcases h.whole k e hk he with hw | ⟨j, written, left, hj⟩
    · exact .inl hw
    · by_cases hji : j = i
      · subst hji
        exact .inl (hwhole k written left hj e he)
      · exact .inr ⟨j, written, left, (Function.update_of_ne hji ..).trans hj⟩
  · intro j k written left hj
    by_cases hji : j = i
    · subst hji
      simp at hj
    · rw [Function.update_of_ne hji] at hj
      exact h.begun j k written left hj

omit [DecidableEq ι] in
/-- The fields that `HSET` leaves are those of a record. -/
theorem Filled.genuine_setField (h : Filled env d β) {f v : String} (hfield : k.Field f v)
    {fields : List (String × String)} {expires : Option ℕ}
    (hbefore : d.live k = none ∧ fields = [] ∧ expires = none ∨
      d.live k = some ⟨.hash fields, expires⟩) {g u : String}
    (hg : fieldOf (setField f v fields) g = some u) : k.Field g u := by
  rw [fieldOf, lookup_setField] at hg
  split at hg
  · rename_i hgf
    obtain rfl := Option.some.inj hg
    exact hgf ▸ hfield
  · rcases hbefore with ⟨-, rfl, -⟩ | hbefore
    · cases hg
    · obtain ⟨fields', hvalue, hfields⟩ :=
        h.genuine k _ (RedisKey.fieldNames_of_field hfield) (Redis.entries_of_live hbefore)
      obtain rfl := RedisValue.hash.inj hvalue
      exact hfields g u hg

/-- The entry that `HSET` leaves is present, and has the new field and all old ones. -/
theorem Redis.present_setField {f v : String} {fields : List (String × String)}
    {expires : Option ℕ} (hbefore : d.live k = none ∧ fields = [] ∧ expires = none ∨
      d.live k = some ⟨.hash fields, expires⟩) :
    (d.put k (some ⟨.hash (setField f v fields), expires⟩)).live k =
        some ⟨.hash (setField f v fields), expires⟩ ∧
      (fieldOf (setField f v fields) f).isSome = true ∧
      ∀ e, d.live k = some e → ∀ g, (fieldOf e.fields g).isSome = true →
        (fieldOf (setField f v fields) g).isSome = true := by
  refine ⟨Redis.live_put_self fun t ht => ?_, ?_, fun e he g hg => ?_⟩
  · rcases hbefore with ⟨-, -, rfl⟩ | hbefore
    · cases ht
    · exact (Redis.live_eq_some.mp hbefore).2 t ht
  · rw [fieldOf, lookup_setField, if_pos rfl]
    rfl
  · rcases hbefore with ⟨hnone, -, -⟩ | hbefore
    · rw [hnone] at he
      cases he
    · obtain rfl := Option.some.inj (hbefore.symm.trans he)
      rw [fieldOf, lookup_setField]
      split
      · rfl
      · exact hg

/-- One field is written. -/
theorem Filled.hset {i : ι} {f v : String} (h : Filled env d β)
    (hi : ∀ k' written left, β i = .midway k' written left → k' = k)
    (hcomplete : ∀ g ∈ k.fieldNames, g ∈ written ∨ g ∈ ((f, v) :: left).map Prod.fst)
    (hgenuine : ∀ g u, (g, u) ∈ (f, v) :: left → k.Field g u)
    (hwritten : written = [] ∨
      ∃ e, d.live k = some e ∧ ∀ g ∈ written, (fieldOf e.fields g).isSome = true) :
    (d.execute (.hset k f v)).1 = true ∧
      Filled env (d.execute (.hset k f v)).2
        (Function.update β i (.after env k (written ++ [f]) left)) := by
  have hfield : k.Field f v := hgenuine f v List.mem_cons_self
  have hk : k.fieldNames ≠ [] := RedisKey.fieldNames_of_field hfield
  obtain ⟨fields, expires, hexec, hbefore⟩ := Redis.execute_hset (f := f) (v := v)
    fun e => h.hash_of_live hk (e := e)
  obtain ⟨hlive, hnew, hkept⟩ := Redis.present_setField (f := f) (v := v) hbefore
  rw [hexec]
  refine ⟨rfl, ?_⟩
  have hwritten' : ∀ g ∈ written ++ [f], (fieldOf (setField f v fields) g).isSome = true := by
    intro g hg
    rcases List.mem_append.mp hg with hg | hg
    · rcases hwritten with rfl | ⟨e, he, hall⟩
      · cases hg
      · exact hkept e he g (hall g hg)
    · exact List.mem_singleton.mp hg ▸ hnew
  have hcomplete' : ∀ g ∈ k.fieldNames, g ∈ written ++ [f] ∨ g ∈ left.map Prod.fst := by
    intro g hg
    have hg := hcomplete g hg
    simp only [List.map_cons, List.mem_cons] at hg
    simp only [List.mem_append, List.mem_singleton]
    tauto
  refine h.update k rfl (fun k' hk' => Redis.entries_put_ne hk') hi ?_ ?_ ?_ ?_ ?_
  · intro k' written' left' hafter
    rw [Filling.after] at hafter
    split at hafter
    · cases hafter
    · injection hafter with hk' _ _
      exact hk'.symm
  · intro _ e he
    rw [Redis.entries_put_self] at he
    obtain rfl := Option.some.inj he
    exact ⟨_, rfl, fun g u hg => h.genuine_setField hfield hbefore hg⟩
  · -- with nothing left to do the hash is whole
    intro _ e he
    obtain rfl := Option.some.inj (hlive.symm.trans he)
    by_cases hover : left = [] ∧ env.ttlOf k ≤ 0
    · obtain ⟨rfl, httl⟩ := hover
      refine .inl ⟨fun g hg => hwritten' g ?_, fun hpos => absurd hpos (Int.not_lt.mpr httl)⟩
      exact (hcomplete' g hg).resolve_right List.not_mem_nil
    · exact .inr ⟨i, _, _, by rw [Function.update_self, Filling.after, if_neg hover]⟩
  · intro written' left' hafter
    rw [Filling.after] at hafter
    split at hafter
    · cases hafter
    · rename_i hover
      injection hafter with _ hw hl
      subst hw hl
      exact ⟨hk, hcomplete', fun g u hg => hgenuine g u (List.mem_cons_of_mem _ hg),
        fun hl => not_le.mp fun httl => hover ⟨hl, httl⟩, _, hlive, hwritten'⟩
  · -- whoever else writes this hash still finds the fields it has written
    intro j written' left' _ hj
    exact (h.begun j k written' left' hj).congr fun e he => ⟨_, hlive, hkept e he⟩

/-- The lifetime is set. -/
theorem Filled.expire {i : ι} {ttl : ℕ} (h : Filled env d β) (hi : β i = .midway k written [])
    (hpos : 0 < ttl) :
    Filled env (d.execute (.expire k ttl)).2 (Function.update β i .outside) := by
  have hbegun := h.begun i k written [] hi
  obtain ⟨e, he, hwritten⟩ := hbegun.live
  have hexec : (d.execute (.expire k ttl)).2 =
      d.put k (some { e with expiresAt := some (d.now + 1000 * ttl) }) := by
    simp only [Redis.execute, he]
  have hlive : (d.put k (some { e with expiresAt := some (d.now + 1000 * ttl) })).live k =
      some { e with expiresAt := some (d.now + 1000 * ttl) } := by
    refine Redis.live_put_self fun t ht => ?_
    obtain rfl := Option.some.inj ht
    omega
  rw [hexec]
  refine h.update k rfl (fun k' hk' => Redis.entries_put_ne hk') ?_ (fun _ _ _ hψ => by cases hψ)
    ?_ ?_ (fun _ _ hψ => by cases hψ) ?_
  · intro k' written' left' hi'
    rw [hi] at hi'
    injection hi' with hk' _ _
    exact hk'.symm
  · intro hk e' he'
    rw [Redis.entries_put_self] at he'
    obtain rfl := Option.some.inj he'
    obtain ⟨fields, hvalue, hfields⟩ := h.genuine k e hk (Redis.entries_of_live he)
    exact ⟨fields, hvalue, hfields⟩
  · intro _ e' he'
    obtain rfl := Option.some.inj (hlive.symm.trans he')
    refine .inl ⟨fun f hf => hwritten f ?_, fun _ => rfl⟩
    exact (hbegun.complete f hf).resolve_right List.not_mem_nil
  · intro j written' left' _ hj
    refine (h.begun j k written' left' hj).congr fun e' he' => ⟨_, hlive, ?_⟩
    obtain rfl := Option.some.inj (he.symm.trans he')
    exact fun f hf => hf

omit [DecidableEq ι] in
/-- `HSET` on a hash does not fail. -/
theorem Filled.hset_succeeds {f v : String} (h : Filled env d β) (hk : k.fieldNames ≠ []) :
    (d.execute (.hset k f v)).1 = true := by
  obtain ⟨fields, expires, hexec, -⟩ := Redis.execute_hset (f := f) (v := v)
    fun e => h.hash_of_live hk (e := e)
  rw [hexec]

/-- A command that writes no hash reads, deletes, or is about another kind of
key. -/
theorem RedisCmd.plain_cases {c : RedisCmd} (h : (Cmd.redis c).plain = true) :
    c.reads = true ∨ (∃ k, c = .del k) ∨ c.key.fieldNames = [] := by
  cases c with
  | get k | hgetall k => exact .inl rfl
  | del k => exact .inr (.inl ⟨k, rfl⟩)
  | set k v ttl | setNx k v ttl => exact .inr (.inr (List.isEmpty_iff.mp h))
  | hset k f v | expire k ttl => cases h

/-- A command that writes no hash keeps the invariant, unless it deletes one that
somebody else is writing. -/
theorem Filled.plain {i : ι} {c : RedisCmd} (h : Filled env d β) (hi : β i = .outside)
    (hplain : (Cmd.redis c).plain = true)
    (hdel : ∀ k, c = .del k → ∀ j written left, j ≠ i → β j ≠ .midway k written left) :
    Filled env (d.execute c).2 (Function.update β i .outside) := by
  have hother := fun k hk => Redis.entries_execute_ne (d := d) (c := c) (k := k) hk
  have houtside : ∀ {k' : RedisKey} k written left, β i = .midway k written left → k = k' := by
    intro k' k written left hmid
    rw [hi] at hmid
    cases hmid
  rcases RedisCmd.plain_cases hplain with hreads | ⟨k, rfl⟩ | hstring
  · rw [Redis.execute_reads hreads, ← hi, Function.update_eq_self]
    exact h
  · refine h.update k rfl hother houtside (fun _ _ _ hψ => by cases hψ) ?_ ?_
      (fun _ _ hψ => by cases hψ) ?_
    · intro _ e he
      simp [Redis.execute] at he
    · intro _ e he
      simp [Redis.execute] at he
      exact absurd (Redis.entries_of_live he) (by simp)
    · exact fun j written left hj hmid => absurd hmid (hdel k rfl j written left hj)
  · refine h.update c.key Redis.now_execute hother houtside (fun _ _ _ hψ => by cases hψ)
      (fun hk => absurd hstring hk) (fun hk => absurd hstring hk) (fun _ _ hψ => by cases hψ) ?_
    exact fun j written left _ hmid => absurd hstring (h.begun j _ written left hmid).family

/-- A command of a request that follows its writes keeps the invariant, unless
it deletes a hash that somebody else is writing. -/
theorem Filled.execute {i : ι} {c : RedisCmd} {ψ : Filling} (h : Filled env d β)
    (hfills : Fills env (β i) (.redis c) (d.execute c).1 ψ)
    (hdel : ∀ k, c = .del k → ∀ j written left, j ≠ i → β j ≠ .midway k written left) :
    Filled env (d.execute c).2 (Function.update β i ψ) := by
  generalize hr : (d.execute c).1 = r at hfills
  generalize hβ : β i = φ at hfills
  cases hfills with
  | plain hplain => exact h.plain hβ hplain hdel
  | first record =>
    refine (h.hset ?_ (fun g hg => .inr (record.complete g hg)) record.genuine (.inl rfl)).2
    intro k' written' left' hmid
    rw [hβ] at hmid
    cases hmid
  | firstFails record =>
    rename_i k f v left
    have hfield := record.genuine f v List.mem_cons_self
    have htrue := h.hset_succeeds (f := f) (v := v) (RedisKey.fieldNames_of_field hfield)
    rw [hr] at htrue
    cases htrue
  | next =>
    rename_i k written f v left
    have hbegun := h.begun i k written _ hβ
    refine (h.hset ?_ hbegun.complete hbegun.genuine (.inr hbegun.live)).2
    intro k' written' left' hmid
    rw [hβ] at hmid
    injection hmid with hk _ _
    exact hk.symm
  | nextFails =>
    rename_i k written f v left
    have htrue := h.hset_succeeds (f := f) (v := v) (h.begun i k written _ hβ).family
    rw [hr] at htrue
    cases htrue
  | expire positive => exact h.expire hβ positive

/-- A command of a request that follows its writes keeps the invariant: one that
fails, if the hash it is about is whole; one that is executed, if it deletes no
hash that somebody else is writing. -/
theorem Filled.performed {s s' : Store ι} {i : ι} {fault : Option String} {c : Cmd} {r : c.Reply}
    {ψ : Filling} (h : Filled env s.redis β) (hp : s.Performed i fault c r s')
    (hfills : Fills env (β i) c r ψ)
    (hfails : ∀ d message, c = .redis d → fault = some message →
      ∀ k written left, β i = .midway k written left →
        ∀ e, s.redis.live k = some e → e.Whole env k)
    (hdel : ∀ k, c = .redis (.del k) → fault = none →
      ∀ j written left, j ≠ i → β j ≠ .midway k written left) :
    Filled env s'.redis (Function.update β i ψ) := by
  by_cases hc : ∀ d, c ≠ .redis d
  · obtain ⟨hβ, rfl⟩ := hfills.not_redis hc
    rw [hp.redis_eq hc, ← hβ, Function.update_eq_self]
    exact h
  · obtain ⟨d, hd⟩ := not_forall_not.mp hc
    subst hd
    obtain ⟨message, rfl, rfl, rfl⟩ | ⟨rfl, rfl, rfl⟩ := hp.redis_cases
    · obtain rfl := hfills.failed
      exact h.drop (hfails d message rfl rfl)
    · exact h.execute hfills fun k hk => hdel k (congrArg Cmd.redis hk) rfl

/-- What `HGETALL` returns is complete and decodes, if all fields are there
whenever somebody is writing the hash. -/
theorem Filled.reads {s s' : Store ι} {i : ι} {fault : Option String}
    {values : List (String × String)} (h : Filled env s.redis β)
    (hp : s.Performed i fault (.redis (.hgetall k)) (some values) s') (hne : values ≠ [])
    (hk : k.fieldNames ≠ [])
    (hcomplete : fault = none → ∀ j written left, β j = .midway k written left →
      ∀ e, s.redis.live k = some e → e.Complete k) :
    (∀ f ∈ k.fieldNames, (fieldOf values f).isSome = true) ∧ k.Decodes values := by
  obtain ⟨e, hlive, hvalue⟩ := hp.hgetall_values hne
  have hfields : e.fields = values := by simp only [RedisEntry.fields, hvalue]
  obtain ⟨message, -, hr, -⟩ | ⟨rfl, -, -⟩ := hp.redis_cases
  · cases hr
  have hall : e.Complete k := by
    rcases h.whole k e hk hlive with hwhole | ⟨j, written, left, hj⟩
    · exact hwhole.1
    · exact hcomplete rfl j written left hj e hlive
  exact hfields ▸
    ⟨hall, RedisKey.decodes_of_complete (h.genuine k e hk (Redis.entries_of_live hlive)) hall⟩

/-- Every answer is readable. -/
theorem Filled.readable {s s' : Store ι} {i : ι} {fault : Option String} {c : Cmd} {r : c.Reply}
    (h : Filled env s.redis β) (hp : s.Performed i fault c r s')
    (hcomplete : ∀ k, c = .redis (.hgetall k) → fault = none →
      ∀ j written left, β j = .midway k written left →
        ∀ e, s.redis.live k = some e → e.Complete k) : c.Readable r := by
  cases c with
  | redis c =>
    cases c with
    | hgetall k =>
      intro values hvalues hne
      obtain rfl : r = some values := hvalues
      cases k with
      | session _ | playerSnapshot _ | battleCtx _ =>
        exact (h.reads hp hne (List.cons_ne_nil _ _) (hcomplete _ rfl)).2
      | accountSession _ | playerLock _ => trivial
    | _ => trivial
  | _ => trivial

omit [DecidableEq ι] in
/-- Time passes, and no hash expires while it is being written. -/
theorem Filled.tick {ms : ℕ} (h : Filled env d β)
    (hkeep : ∀ i k written left, β i = .midway k written left →
      ((d.tick ms).live k).isSome = true) : Filled env (d.tick ms) β := by
  refine ⟨h.genuine, fun k e hk he => h.whole k e hk (Redis.live_of_tick he), ?_⟩
  intro i k written left hi
  obtain ⟨e, he⟩ := Option.isSome_iff_exists.mp (hkeep i k written left hi)
  refine (h.begun i k written left hi).congr fun e' he' => ⟨e, he, ?_⟩
  obtain rfl := Option.some.inj ((Redis.live_of_tick he).symm.trans he')
  exact fun f hf => hf

omit [DecidableEq ι] in
/-- A key is evicted that nobody is writing. -/
theorem Filled.evict {k₀ : RedisKey} (h : Filled env d β)
    (hkeep : ∀ i k written left, β i = .midway k written left → k₀ ≠ k) :
    Filled env (d.put k₀ none) β := by
  have hentries : ∀ k e, (d.put k₀ none).entries k = some e → k ≠ k₀ := by
    rintro k e he rfl
    simp at he
  refine ⟨?_, ?_, ?_⟩
  · intro k e hk he
    exact h.genuine k e hk ((Redis.entries_put_ne (hentries k e he)).symm.trans he)
  · intro k e hk he
    have hne := hentries k e (Redis.entries_of_live he)
    exact h.whole k e hk ((Redis.live_put_ne hne).symm.trans he)
  · intro i k written left hi
    refine (h.begun i k written left hi).congr fun e he => ⟨e, ?_, fun _ hf => hf⟩
    exact (Redis.live_put_ne (hkeep i k written left hi).symm).trans he

end Invariant

end GameBackend
