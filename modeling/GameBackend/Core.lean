import GameBackend.Database

/-!
# The core invariant

What holds of every state of every run that starts fresh, whatever the servers
are asked, in whatever order their commands interleave, whatever commands fail
(except a `ROLLBACK`), whenever processes stop, keys expire or are evicted. In
particular it does not rest on the player lock.

* `Core` — the invariant: row locking is sound, each open transaction is the one
  its request's phase says, requests know what their phase says about the
  committed tables, the player of a battle has assets, and stored battle contexts
  agree with the battle rows.
* `Core.step` — every move keeps it, and either leaves the committed tables alone
  or transacts one deed.
* `World.Run.core` — the invariant rule for further invariants on top of it.
-/

namespace GameBackend

variable {ι : Type} [DecidableEq ι] {env : Env} {cfg : DungeonConfig}

/-! ## Stored battle contexts -/

/-- The stored context of battle `b`, complete or not, consists of fields of the
context of its row. -/
def ContextOk (cfg : DungeonConfig) (t : Tables) (b : String) (e : RedisEntry) : Prop :=
  ∃ values row, e.value = .hash values ∧ t.dungeonBattle.find b = some row ∧
    SubHash values (RedisBattleContextRepository.fields (contextOfEntered cfg row))

theorem contextOfEntered_later (cfg : DungeonConfig) {row row' : BattleRow} (h : row.Later row') :
    contextOfEntered cfg row' = contextOfEntered cfg row := by
  obtain rfl | rfl := h
  · rfl
  · rfl

theorem ContextOk.mono {t t' : Tables} {deed : Deed} {b : String} {e : RedisEntry}
    (ht : Transacts cfg deed t t') (h : ContextOk cfg t b e) : ContextOk cfg t' b e := by
  obtain ⟨values, row, hvalue, hrow, hsub⟩ := h
  obtain ⟨row', hrow', hlater⟩ := ht.battle_kept hrow
  exact ⟨values, row', hvalue, hrow', (contextOfEntered_later cfg hlater) ▸ hsub⟩

/-! ## Requests and Redis -/

theorem Store.Performed.redis_cases {s s' : Store ι} {i : ι} {fault : Option String}
    {c : RedisCmd} {r : c.Reply} (h : s.Performed i fault (.redis c) r s') :
    (∃ message, fault = some message ∧ r = c.failed ∧ s' = s) ∨
      (fault = none ∧ r = (s.redis.execute c).1 ∧
        s' = { s with redis := (s.redis.execute c).2 }) := by
  cases h with
  | redisFault => exact .inl ⟨_, rfl, rfl, rfl⟩
  | redis executed => exact .inr ⟨rfl, by rw [executed], by rw [executed]⟩

/-- Only Redis commands change Redis. -/
theorem Store.Performed.redis_eq {s s' : Store ι} {i : ι} {fault : Option String} {c : Cmd}
    {r : c.Reply} (h : s.Performed i fault c r s') (hc : ∀ d, c ≠ .redis d) :
    s'.redis = s.redis := by
  cases h with
  | redis executed => exact absurd rfl (hc _)
  | _ => rfl

/-- No command moves the clock. -/
theorem Store.Performed.now_eq {s s' : Store ι} {i : ι} {fault : Option String} {c : Cmd}
    {r : c.Reply} (h : s.Performed i fault c r s') : s'.redis.now = s.redis.now := by
  cases h with
  | redis executed =>
    rename_i c r d
    have hnow : (s.redis.execute c).2.now = s.redis.now := Redis.now_execute
    rw [executed] at hnow
    exact hnow
  | _ => rfl

/-- A command of a request changes the entry of a key only if it is a Redis
command about this key that does not just read. -/
theorem Store.Performed.entries_eq {s s' : Store ι} {i : ι} {fault : Option String} {c : Cmd}
    {r : c.Reply} (h : s.Performed i fault c r s') {k : RedisKey}
    (hc : ∀ d, c = .redis d → d.reads = true ∨ k ≠ d.key) :
    s'.redis.entries k = s.redis.entries k := by
  cases c with
  | redis d =>
    obtain ⟨message, -, -, rfl⟩ | ⟨-, -, rfl⟩ := h.redis_cases
    · rfl
    · rcases hc d rfl with hreads | hk
      · exact congrArg (fun d : Redis => d.entries k) (Redis.execute_reads hreads)
      · exact Redis.entries_execute_ne hk
  | _ => rw [h.redis_eq (by intro d hd; cases hd)]

/-- A command to the context of one battle leaves those of the others alone. -/
theorem contexts_execute {d : Redis} {t : Tables} {c : RedisCmd} {battleId : String}
    (hkey : c.key = .battleCtx battleId)
    (h : ∀ b e, d.entries (.battleCtx b) = some e → ContextOk cfg t b e)
    (hnew : ∀ e, (d.execute c).2.entries (.battleCtx battleId) = some e →
      ContextOk cfg t battleId e) :
    ∀ b e, (d.execute c).2.entries (.battleCtx b) = some e → ContextOk cfg t b e := by
  intro b e he
  by_cases hb : b = battleId
  · subst hb
    exact hnew e he
  · have hne : RedisKey.battleCtx b ≠ c.key := by
      rw [hkey]
      exact fun hk => hb (RedisKey.battleCtx.inj hk)
    exact h b e ((Redis.entries_execute_ne hne).symm.trans he)

/-- A field of the battle's context is stored. -/
theorem contexts_saveContext {d : Redis} {t : Tables} {row : BattleRow} {f v : String}
    (hfield : (f, v) ∈ RedisBattleContextRepository.fields (contextOfEntered cfg row))
    (hknows : ∃ row', t.dungeonBattle.find row.battleId = some row' ∧ row.Later row')
    (h : ∀ b e, d.entries (.battleCtx b) = some e → ContextOk cfg t b e) {e : RedisEntry}
    (he : (d.execute (.hset (.battleCtx row.battleId) f v)).2.entries (.battleCtx row.battleId) =
      some e) : ContextOk cfg t row.battleId e := by
  obtain ⟨row', hrow', hlater⟩ := hknows
  have hfv : fieldOf (RedisBattleContextRepository.fields (contextOfEntered cfg row')) f =
      some v := by
    rw [contextOfEntered_later cfg hlater]
    exact fieldOf_of_mem (RedisBattleContextRepository.fields_nodup _) hfield
  simp only [Redis.execute] at he
  split at he
  · rw [Redis.entries_put_self] at he
    obtain rfl := Option.some.inj he
    exact ⟨_, row', rfl, hrow', (SubHash.nil _).setField hfv⟩
  · rename_i values expires hlive
    obtain ⟨values', row'', hvalue, hrow'', hsub⟩ := h _ _ (Redis.entries_of_live hlive)
    obtain rfl := RedisValue.hash.inj hvalue
    obtain rfl := Option.some.inj (hrow'.symm.trans hrow'')
    rw [Redis.entries_put_self] at he
    obtain rfl := Option.some.inj he
    exact ⟨_, row', rfl, hrow', hsub.setField hfv⟩
  · exact h _ e he

/-- Stored battle contexts stay true. -/
theorem Advance.contexts {s s' : Store ι} {i : ι} {fault : Option String} {c : Cmd} {r : c.Reply}
    {φ ψ : Phase} (hadv : Advance cfg φ c r ψ) (hp : s.Performed i fault c r s')
    {t : Tables} (hknows : φ.Knows cfg t)
    (h : ∀ b e, s.redis.entries (.battleCtx b) = some e → ContextOk cfg t b e) :
    ∀ b e, s'.redis.entries (.battleCtx b) = some e → ContextOk cfg t b e := by
  -- the commands that are about no context
  have hsame : (∀ b d, c = .redis d → d.reads = true ∨ RedisKey.battleCtx b ≠ d.key) →
      ∀ b e, s'.redis.entries (.battleCtx b) = some e → ContextOk cfg t b e := by
    intro hc b e he
    rw [hp.entries_eq (hc b)] at he
    exact h b e he
  cases hadv with
  | saveContext field =>
    obtain ⟨message, -, -, rfl⟩ | ⟨-, -, rfl⟩ := hp.redis_cases
    · exact h
    · exact contexts_execute rfl h fun e he => contexts_saveContext field hknows h he
  | expireContext =>
    obtain ⟨message, -, -, rfl⟩ | ⟨-, -, rfl⟩ := hp.redis_cases
    · exact h
    refine contexts_execute rfl h fun e he => ?_
    simp only [Redis.execute] at he
    split at he
    · exact h _ e he
    · rename_i e' hlive
      rw [Redis.entries_put_self] at he
      obtain rfl := Option.some.inj he
      exact h _ e' (Redis.entries_of_live hlive)
  | dropContext =>
    obtain ⟨message, -, -, rfl⟩ | ⟨-, -, rfl⟩ := hp.redis_cases
    · exact h
    refine contexts_execute rfl h fun e he => ?_
    simp only [Redis.execute, Redis.entries_put_self, reduceCtorEq] at he
  | pass harmless _ =>
    refine hsame fun b d hd => ?_
    subst hd
    exact (Cmd.reads_or_others harmless).imp_right fun hkey => hkey _ rfl
  | miss _ | hit _ | findContext _ | noContext =>
    exact hsame fun b d hd => .inl (Cmd.redis.inj hd ▸ rfl)
  | fill _ | fillExpire | lock _ | busy _ | unlock _ | invalidate =>
    exact hsame fun b d hd => .inr (by rw [← Cmd.redis.inj hd]; simp [RedisCmd.key])
  | _ => exact hsame fun b d hd => by cases hd

/-! ## What requests learn -/

/-- What a query returned was in the tables its connection saw. -/
theorem Store.Performed.select_rows {s s' : Store ι} {i : ι} {fault : Option String} {q : Query}
    {rows : List q.Row} (h : s.Performed i fault (.sql (.select q)) (some rows) s')
    (hnone : s.mysql.txns i = none) : rows = q.rows s.mysql.tables := by
  obtain ⟨message, -, hr, -⟩ | ⟨-, m, hexec, -⟩ := h.sql_cases
  · cases hr
  · have hview : s.mysql.view i = s.mysql.tables := by
      rw [Mysql.view, hnone]
      rfl
    simp only [Mysql.execute, hview, Option.some.injEq, Prod.mk.injEq] at hexec
    exact hexec.1.symm

/-- A `COMMIT` that succeeds writes the binary log. -/
theorem Store.Performed.binlog_commit {s s' : Store ι} {i : ι} {fault : Option String}
    {ws : List SqlWrite} (h : s.Performed i fault (.sql .commit) (.ok ()) s')
    (hopen : s.mysql.txns i = some ws) : s'.mysql.binlog = ws :: s.mysql.binlog := by
  obtain ⟨message, -, hr, -⟩ | ⟨-, m, hexec, rfl⟩ := h.sql_cases
  · cases hr
  · simp only [Mysql.execute, Option.some.injEq, Prod.mk.injEq] at hexec
    obtain ⟨-, rfl⟩ := hexec
    simp only [Mysql.commitTxn, hopen]

/-- The fields `HGETALL` returned were stored. -/
theorem Store.Performed.hgetall_values {s s' : Store ι} {i : ι} {fault : Option String}
    {k : RedisKey} {values : List (String × String)}
    (h : s.Performed i fault (.redis (.hgetall k)) (some values) s') (hne : values ≠ []) :
    ∃ e, s.redis.live k = some e ∧ e.value = .hash values := by
  obtain ⟨message, -, hr, -⟩ | ⟨-, hr, -⟩ := h.redis_cases
  · cases hr
  · simp only [Redis.execute, Redis.hash?] at hr
    split at hr
    · exact absurd (Option.some.inj hr) hne
    · rename_i fields expires hlive
      exact ⟨_, hlive, by rw [Option.some.inj hr]⟩
    · cases hr

/-- Nothing decodes from an empty hash. -/
theorem decode_nil (b : String) : RedisBattleContextRepository.decode b [] = none := rfl

/-- What a request knows in its new phase, as far as it did not commit. -/
theorem Advance.knows {s s' : Store ι} {i : ι} {fault : Option String} {c : Cmd} {r : c.Reply}
    {φ ψ : Phase} (hadv : Advance cfg φ c r ψ) (hp : s.Performed i fault c r s')
    (htxn : φ.Txn (s.mysql.txns i)) (hknows : φ.Knows cfg s.mysql.tables)
    (hcontexts : ∀ b e, s.redis.entries (.battleCtx b) = some e →
      ContextOk cfg s.mysql.tables b e)
    (hstep : DbStep cfg s.mysql s'.mysql φ ψ) : ψ.Knows cfg s'.mysql.tables := by
  rcases hstep with ⟨htables, hbinlog⟩ | ⟨-, rfl, htransacts, -⟩
  case commit => exact htransacts.shown
  rw [htables]
  cases hadv with
  | pass harmless _ => exact hknows
  | findContext decoded =>
    rename_i p b values context
    have hne : values ≠ [] := by
      rintro rfl
      rw [decode_nil] at decoded
      cases decoded
    obtain ⟨e, hlive, hvalue⟩ := hp.hgetall_values hne
    obtain ⟨values', row, hvalue', hrow, hsub⟩ := hcontexts b e (Redis.entries_of_live hlive)
    obtain rfl := RedisValue.hash.inj (hvalue.symm.trans hvalue')
    obtain rfl : row.battleId = b := Table.key_of_find hrow
    obtain rfl : context = contextOfEntered cfg row :=
      RedisBattleContextRepository.decode_of_subHash hsub decoded
    exact ⟨row, hrow, rfl, rfl⟩
  | findBattle key =>
    rename_i p b row rows
    have hrows := hp.select_rows htxn
    rcases hfind : s.mysql.tables.dungeonBattle.find b with _ | row'
    · simp [Query.rows, hfind] at hrows
    · simp only [Query.rows, hfind, Option.toList_some, List.cons.injEq] at hrows
      obtain ⟨rfl, -⟩ := hrows
      obtain rfl : row.battleId = b := Table.key_of_find hfind
      exact ⟨row, hfind, rfl, rfl⟩
  | decide player dungeon unsettled =>
    obtain ⟨row, hrow, hp', hd⟩ := hknows
    exact ⟨row, hrow, hp'.trans player, hd.trans dungeon⟩
  | unlock exit =>
    rename_i p deed r
    cases φ with
    | locked | found | leaving =>
      obtain ⟨-, rfl⟩ := Prod.mk.inj (Option.some.inj exit)
      trivial
    | invalidated deed =>
      obtain ⟨-, rfl⟩ := Prod.mk.inj (Option.some.inj exit)
      exact hknows
    | _ => cases exit
  | number => exact rfl
  | enterBegin => exact hknows
  | noPending empty => exact ⟨hknows, rfl⟩
  | settleBegin => exact ⟨hknows, rfl⟩
  | write accepted => exact ⟨hknows.1, by rw [List.append_assoc]; exact hknows.2⟩
  | commit =>
    -- a commit does not leave the binary log alone
    exact absurd ((hp.binlog_commit htxn).symm.trans hbinlog) (List.cons_ne_self _ _)
  | saveContext _ | expireContext | dropContext | invalidate => exact hknows
  | _ => trivial

/-! ## The invariant -/

/-- The core invariant. -/
structure Core (env : Env) (w : World ι) (φ : ι → Phase) : Prop where
  sound : w.store.mysql.Sound
  txn : ∀ i, (φ i).Txn (w.store.mysql.txns i)
  knows : ∀ i, (φ i).Knows env.dungeonConfig w.store.mysql.tables
  asset : ∀ b row, w.store.mysql.tables.dungeonBattle.find b = some row →
    (w.store.mysql.tables.playerAsset.find row.playerId).isSome = true
  contexts : ∀ b e, w.store.redis.entries (.battleCtx b) = some e →
    ContextOk env.dungeonConfig w.store.mysql.tables b e

/-- What a move does to the committed tables. -/
inductive TableStep (cfg : DungeonConfig) (w w' : World ι) (φ φ' : ι → Phase) (l : Label ι) :
    Prop where
  | quiet (tables : w'.store.mysql.tables = w.store.mysql.tables)
      (binlog : w'.store.mysql.binlog = w.store.mysql.binlog)
  | commit {i : ι} {fault : Option String} {deed : Deed} (label : l = .exec i fault)
      (next : w.next i = some (.sql .commit)) (before : φ i = .writing deed (deed.plan cfg) [])
      (after : φ' = Function.update φ i (.committed deed))
      (transacts : Transacts cfg deed w.store.mysql.tables w'.store.mysql.tables)
      (binlog : w'.store.mysql.binlog = deed.plan cfg :: w.store.mysql.binlog)

variable {w w' w₀ : World ι} {φ φ' : ι → Phase} {l : Label ι} {t t' : Tables}

theorem asset_mono {deed : Deed} (ht : Transacts cfg deed t t')
    (h : ∀ b row, t.dungeonBattle.find b = some row →
      (t.playerAsset.find row.playerId).isSome = true) :
    ∀ b row, t'.dungeonBattle.find b = some row →
      (t'.playerAsset.find row.playerId).isSome = true := by
  intro b row hrow
  rw [ht.find_asset, Option.isSome_map]
  rcases ht.battle_from hrow with ⟨row₀, hrow₀, rfl | rfl⟩ | ⟨rfl, -⟩
  · exact h b _ hrow₀
  · exact h b row₀ hrow₀
  · obtain ⟨a, ha, -⟩ := Entered.asset ht
    rw [ha]
    rfl

omit [DecidableEq ι] in
theorem Core.init (hw : w.Fresh) : Core env w fun _ => .outside where
  sound := .of_idle hw.txns hw.locks
  txn i := hw.txns i
  knows _ := trivial
  asset b row hrow := by
    have := Table.mem_of_find hrow
    rw [hw.battles] at this
    cases this
  contexts b e he := by
    rw [hw.contexts b] at he
    cases he

omit [DecidableEq ι] in
/-- The invariant only looks at MySQL and at the battle contexts. -/
theorem Core.congr (h : Core env w φ) (hmysql : w'.store.mysql = w.store.mysql)
    (hcontexts : ∀ b e, w'.store.redis.entries (.battleCtx b) = some e →
      w.store.redis.entries (.battleCtx b) = some e) : Core env w' φ where
  sound := hmysql ▸ h.sound
  txn := hmysql ▸ h.txn
  knows := hmysql ▸ h.knows
  asset := hmysql ▸ h.asset
  contexts b e he := hmysql ▸ h.contexts b e (hcontexts b e he)

/-- Process `i` goes back to rest without an open transaction. -/
theorem Core.rest (h : Core env w φ) {i : ι} {m : Mysql ι} {tasks : ι → Option Task}
    {history : List Event} {sequence : ι → UInt64} (hm : m.Sound)
    (hnone : m.txns i = none) (hothers : ∀ j, j ≠ i → m.txns j = w.store.mysql.txns j)
    (htables : m.tables = w.store.mysql.tables) :
    Core env ⟨⟨m, w.store.redis, sequence⟩, tasks, history⟩ (Function.update φ i .outside) where
  sound := hm
  txn j := by
    by_cases hj : j = i
    · subst hj
      rw [Function.update_self]
      exact hnone
    · rw [Function.update_of_ne hj, hothers j hj]
      exact h.txn j
  knows j := by
    by_cases hj : j = i
    · subst hj
      rw [Function.update_self]
      trivial
    · rw [Function.update_of_ne hj, htables]
      exact h.knows j
  asset := by
    rw [htables]
    exact h.asset
  contexts := by
    rw [htables]
    exact h.contexts

/-- Every move keeps the core invariant, and either leaves the committed tables
alone or transacts one deed. -/
theorem Core.step (h : Core env w φ) (hroll : ¬w.Fails l (.sql .rollback))
    (hmove : Moves env w φ l w' φ') :
    Core env w' φ' ∧ TableStep env.dungeonConfig w w' φ φ' l := by
  cases hmove with
  | start idle => exact ⟨h.congr rfl fun _ _ he => he, .quiet rfl rfl⟩
  | exec task performed advance =>
    rename_i i fault id request trail c k r store ψ
    have hfault : c = .sql .rollback → fault = none := by
      rintro rfl
      rcases fault with _ | message
      · rfl
      · exact absurd ⟨i, message, rfl, by rw [World.next, task]⟩ hroll
    have hgood := advance.dbStep performed hfault h.sound (h.txn i) (h.knows i) h.asset
    have hi := advance.knows performed (h.txn i) (h.knows i) h.contexts hgood.step
    have hcontexts := advance.contexts performed (h.knows i) h.contexts
    have htxn : ∀ j, (Function.update φ i ψ j).Txn (store.mysql.txns j) := by
      intro j
      by_cases hj : j = i
      · subst hj
        rw [Function.update_self]
        exact hgood.txn
      · rw [Function.update_of_ne hj, hgood.others j hj]
        exact h.txn j
    have hknows : (∀ j, (φ j).Knows env.dungeonConfig store.mysql.tables) →
        ∀ j, (Function.update φ i ψ j).Knows env.dungeonConfig store.mysql.tables := by
      intro hmono j
      by_cases hj : j = i
      · subst hj
        rw [Function.update_self]
        exact hi
      · rw [Function.update_of_ne hj]
        exact hmono j
    -- the tables stay, or this is the `COMMIT` of a deed
    rcases hgood.step with ⟨htables, hbinlog⟩ | ⟨hbefore, hafter, htransacts, hbinlog⟩
    · refine ⟨⟨hgood.sound, htxn, hknows ?_, ?_, ?_⟩, .quiet htables hbinlog⟩
      · rw [htables]
        exact h.knows
      · rw [htables]
        exact h.asset
      · rw [htables]
        exact hcontexts
    · have hcommit : c = .sql .commit := by
        rw [hbefore, hafter] at advance
        exact advance.commits
      refine ⟨⟨hgood.sound, htxn, hknows ?_, ?_, ?_⟩,
        .commit rfl ?_ hbefore ?_ htransacts hbinlog⟩
      · exact fun j => (h.knows j).mono htransacts
      · exact asset_mono htransacts h.asset
      · exact fun b e he => (hcontexts b e he).mono htransacts
      · simp only [World.next, task, hcommit]
      · rw [hafter]
  | finish task ends =>
    rename_i i id request trail response
    -- a request that has answered holds no transaction open
    have hnone : w.store.mysql.txns i = none := Phase.txn_of_lock ends.lock (h.txn i)
    exact ⟨h.rest h.sound hnone (fun _ _ => rfl) rfl, .quiet rfl rfl⟩
  | crash noted =>
    rename_i i history
    -- the database rolls back what the process had open
    refine ⟨h.rest h.sound.rollback ?_ ?_ rfl, .quiet rfl rfl⟩
    · simp [Mysql.rollbackTxn]
    · exact fun j hj => Function.update_of_ne hj ..
  | tick => exact ⟨h.congr rfl fun _ _ he => he, .quiet rfl rfl⟩
  | evict =>
    rename_i k
    refine ⟨h.congr rfl fun b e he => ?_, .quiet rfl rfl⟩
    by_cases hk : RedisKey.battleCtx b = k
    · subst hk
      simp [Store.evict] at he
    · exact (Redis.entries_put_ne hk).symm.trans he

/-! ## Runs -/

variable {ok : World ι → Label ι → Prop}

/-- The invariant rule on top of the core invariant. -/
theorem World.Run.core {I : World ι → (ι → Phase) → Prop} (hw₀ : w₀.Fresh)
    (hroll : ∀ w l, ok w l → ¬w.Fails l (.sql .rollback)) (h₀ : I w₀ fun _ => .outside)
    (hstep : ∀ w φ l w' φ', World.Run env ok w₀ w → Phased env w φ → Core env w φ → I w φ →
      ok w l → Moves env w φ l w' φ' → Core env w' φ' →
      TableStep env.dungeonConfig w w' φ φ' l → I w' φ')
    (h : World.Run env ok w₀ w) : ∃ φ, Phased env w φ ∧ Core env w φ ∧ I w φ := by
  refine h.phased (I := fun w φ => Core env w φ ∧ I w φ) hw₀.tasks ⟨.init hw₀, h₀⟩ ?_
  rintro w φ l w' φ' hr hphased ⟨hcore, hI⟩ hok hmove
  obtain ⟨hcore', htables⟩ := hcore.step (hroll w l hok) hmove
  exact ⟨hcore', hstep w φ l w' φ' hr hphased hcore hI hok hmove hcore' htables⟩

/-- The committed tables and the binary log of a world are those of a ledger. -/
def World.Books (cfg : DungeonConfig) (Q : Deed → Tables → Prop) (w₀ w : World ι) : Prop :=
  ∃ deeds, w.store.mysql.binlog = deeds.map (Deed.plan cfg) ∧
    Ledger cfg Q w₀.store.mysql.tables deeds w.store.mysql.tables

omit [DecidableEq ι] in
theorem World.Fresh.books (hw₀ : w₀.Fresh) (cfg : DungeonConfig) (Q : Deed → Tables → Prop) :
    w₀.Books cfg Q w₀ :=
  ⟨[], hw₀.binlog, .nil⟩

/-- A step of the committed tables goes on with the books, if the condition holds
when a deed is committed. -/
theorem World.Books.step {Q : Deed → Tables → Prop} (h : World.Books cfg Q w₀ w)
    (hstep : TableStep cfg w w' φ φ' l)
    (hQ : ∀ i deed, φ i = .writing deed (deed.plan cfg) [] → Q deed w.store.mysql.tables) :
    World.Books cfg Q w₀ w' := by
  obtain ⟨deeds, hlog, hledger⟩ := h
  rcases hstep with ⟨htables, hbinlog⟩ | ⟨-, -, hbefore, -, htransacts, hbinlog⟩
  · exact ⟨deeds, hbinlog.trans hlog, htables ▸ hledger⟩
  · rename_i i fault deed
    refine ⟨deed :: deeds, ?_, hledger.cons (hQ i deed hbefore) htransacts⟩
    rw [hbinlog, hlog, List.map_cons]

/-- **Refinement.** Along every run the committed tables and the binary log are
those of the ledger. -/
theorem World.Run.books (hw₀ : w₀.Fresh)
    (hroll : ∀ w l, ok w l → ¬w.Fails l (.sql .rollback)) (h : World.Run env ok w₀ w) :
    World.Books env.dungeonConfig (fun _ _ => True) w₀ w := by
  obtain ⟨φ, -, -, hbooks⟩ := h.core
    (I := fun w _ => World.Books env.dungeonConfig (fun _ _ => True) w₀ w) hw₀ hroll
    (hw₀.books _ _) fun w φ l w' φ' _ _ _ hI _ _ _ hstep => hI.step hstep fun _ _ _ => trivial
  exact hbooks

end GameBackend
