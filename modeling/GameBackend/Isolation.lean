import GameBackend.Ownership

/-!
# Nobody else is concerned

What a step of a request leaves alone: the rows, the snapshot and the battles of every
player but the one that the session of the request is for (`World.Run.isolated`). A
transaction is about the player whose lock the request holds, and this is the player it
names; a snapshot is written back by a request that has missed it; the contexts that are
written or dropped are those of battles of this player. And before its session is checked a
request does nothing at all.
-/

namespace GameBackend

variable {ι : Type} [DecidableEq ι] {env : Env} {cfg : DungeonConfig} {q : ℤ}

/-! ## What is a player's -/

/-- The rows of player `q` are the same in `t'` as in `t`. -/
structure Tables.SameFor (q : ℤ) (t t' : Tables) : Prop where
  account : t'.account = t.account
  player : t'.player = t.player
  asset : t'.playerAsset.find q = t.playerAsset.find q
  progress : ∀ d, t'.playerDungeon.find (q, d) = t.playerDungeon.find (q, d)
  battles : ∀ b row, row.playerId = q →
    (t'.dungeonBattle.find b = some row ↔ t.dungeonBattle.find b = some row)
  rewards : ∀ row, row.playerId = q → (row ∈ t'.rewardLog.rows ↔ row ∈ t.rewardLog.rows)

/-- The rows, the snapshot and the battle contexts of player `q` are the same in `s'` as in
`s`. -/
structure Store.SameFor (q : ℤ) (s s' : Store ι) : Prop where
  tables : s.mysql.tables.SameFor q s'.mysql.tables
  snapshot : s'.redis.entries (.playerSnapshot q) = s.redis.entries (.playerSnapshot q)
  contexts : ∀ b row, s.mysql.tables.dungeonBattle.find b = some row → row.playerId = q →
    s'.redis.entries (.battleCtx b) = s.redis.entries (.battleCtx b)

theorem Tables.SameFor.refl (q : ℤ) (t : Tables) : t.SameFor q t where
  account := rfl
  player := rfl
  asset := rfl
  progress _ := rfl
  battles _ _ _ := Iff.rfl
  rewards _ _ := Iff.rfl

/-- A command that only reads. -/
theorem Store.SameFor.of_reads {s s' : Store ι} {i : ι} {fault : Option String} {d : RedisCmd}
    {r : d.Reply} (h : s.Performed i fault (.redis d) r s') (hreads : d.reads = true) :
    s.SameFor q s' where
  tables := by
    rw [h.mysql_eq rfl]
    exact .refl q _
  snapshot := h.entries_eq fun _ hd => .inl (Cmd.redis.inj hd ▸ hreads)
  contexts _ _ _ _ := h.entries_eq fun _ hd => .inl (Cmd.redis.inj hd ▸ hreads)

/-- The battles of other players are not concerned. -/
theorem Transacts.battles_same {t t' : Tables} {deed : Deed} (h : Transacts cfg deed t t')
    (hq : q ≠ deed.player) (b : String) (row : BattleRow) (hrow : row.playerId = q) :
    t'.dungeonBattle.find b = some row ↔ t.dungeonBattle.find b = some row := by
  cases deed with
  | enter new =>
    have hne : row.playerId ≠ new.playerId := hrow ▸ hq
    have hfind : t'.dungeonBattle.find b =
        if new.battleId = b then some new else t.dungeonBattle.find b := by
      rw [Entered.eq h]
      exact Table.find_insert (Entered.free h) b
    rw [hfind]
    split
    · rename_i hb
      have hfree := Entered.free h
      rw [hb] at hfree
      rw [hfree]
      exact ⟨fun heq => absurd (congrArg BattleRow.playerId (Option.some.inj heq)).symm hne,
        fun heq => by cases heq⟩
    · exact Iff.rfl
  | settle s =>
    have hne : row.playerId ≠ s.playerId := hrow ▸ hq
    have hfind : t'.dungeonBattle.find b =
        (t.dungeonBattle.find b).map fun r => if b = s.battleId then r.finish else r := by
      rw [Settled.battles h]
      exact t.find_finishBattle _ b
    rw [hfind]
    by_cases hb : b = s.battleId
    · obtain ⟨settled, hfound, -, hp, -⟩ := Settled.battle h
      rw [hb, hfound]
      simp only [Option.map_some, if_true, Option.some.injEq]
      constructor
      · intro heq
        exact absurd ((congrArg BattleRow.playerId heq).symm.trans hp) hne
      · intro heq
        exact absurd ((congrArg BattleRow.playerId heq).symm.trans hp) hne
    · simp only [hb, if_false, Option.map_id']

/-- A deed leaves the rows of other players alone. -/
theorem Transacts.sameFor {t t' : Tables} {deed : Deed} (h : Transacts cfg deed t t')
    (hq : q ≠ deed.player) : t.SameFor q t' where
  account := by
    cases deed with
    | enter row => rw [Entered.eq h]; rfl
    | settle s => exact Settled.account h
  player := by
    cases deed with
    | enter row => rw [Entered.eq h]; rfl
    | settle s => exact Settled.player h
  asset := by
    rw [h.find_asset]
    simp only [hq, if_false, Option.map_id']
  progress d := by
    refine h.progress_ne ?_
    rintro s rfl hk
    exact hq (congrArg Prod.fst hk)
  battles := h.battles_same hq
  rewards row hrow := by
    cases deed with
    | enter new => rw [Entered.eq h]; rfl
    | settle s =>
      rw [Settled.rewards h, List.mem_append, or_iff_left]
      intro hmem
      exact hq (hrow.symm.trans (of_mem_rewardRows hmem).1)

/-! ## What a request is about -/

/-- The lock a request may take is that of the player it names. -/
theorem Request.locks_of_claims {request : Request} {sessionId : String} {p p' : ℤ}
    (hclaims : request.claims = some (sessionId, p)) (hlocks : request.locks = some p') :
    p' = p := by
  cases request with
  | login r => cases hclaims
  | loadPlayer r => cases hlocks
  | enterDungeon r | settleDungeon r =>
    obtain ⟨-, rfl⟩ := Prod.mk.inj (Option.some.inj hclaims)
    exact (Option.some.inj hlocks).symm
  | restoreBinding sessionId p => cases hlocks

theorem mem_of_missedSnapshot {p : ℤ} :
    ∀ {trail : List Exchange}, missedSnapshot trail = some p →
      ∃ e ∈ trail, e.1 = .redis (.hgetall (.playerSnapshot p))
  | [], h => nomatch h
  | e :: trail, h => by
    rw [missedSnapshot] at h
    rcases he : e.missesSnapshot with _ | q
    · rw [he] at h
      obtain ⟨e', hmem, hcmd⟩ := mem_of_missedSnapshot h
      exact ⟨e', List.mem_cons_of_mem _ hmem, hcmd⟩
    · rw [he] at h
      obtain rfl := Option.some.inj h
      refine ⟨e, List.mem_cons_self, ?_⟩
      unfold Exchange.missesSnapshot at he
      split at he
      · split at he
        · rw [Option.some.inj he]
        · cases he
      · cases he

variable {w w' w₀ : World ι} {φ φ' : ι → Phase}

omit [DecidableEq ι] in
/-- The player whose snapshot a request writes back is the one it names. -/
theorem Phased.missed (hphased : Phased env w φ) {i : ι} {task : Task} (hi : w.tasks i = some task)
    (hsends : ∀ x ∈ task.trail, task.request.Sends env x.1) {sessionId : String} {p p' : ℤ}
    (hclaims : task.request.claims = some (sessionId, p))
    (hmissed : (φ i).missedSnapshot = some p') : p' = p := by
  have hmisses := missedSnapshot_of (hphased.path i task hi) hmissed
  obtain ⟨x, hmem, hcmd⟩ := mem_of_missedSnapshot hmisses
  have hx := hsends x hmem
  rw [hcmd] at hx
  obtain ⟨r, hrequest, rfl⟩ := hx
  rw [hrequest] at hclaims
  exact (Prod.mk.inj (Option.some.inj hclaims)).2

/-- The battle of a deed that is in the books is one of its player. -/
theorem Deed.Booked.battle {t : Tables} {deed : Deed} (h : deed.Booked cfg t) {b : String}
    (hb : deed.entered = some b ∨ deed.settled = some b) {row : BattleRow}
    (hrow : t.dungeonBattle.find b = some row) : row.playerId = deed.player := by
  cases deed with
  | enter new =>
    obtain rfl : new.battleId = b := by
      rcases hb with hb | hb
      · exact Option.some.inj hb
      · cases hb
    obtain ⟨row', hrow', hp⟩ := h
    rw [Option.some.inj (hrow.symm.trans hrow')]
    exact hp
  | settle s =>
    obtain rfl : s.battleId = b := by
      rcases hb with hb | hb
      · cases hb
      · exact Option.some.inj hb
    obtain ⟨⟨row', hrow', -, hp⟩, -⟩ := h
    rw [Option.some.inj (hrow.symm.trans hrow')]
    exact hp

/-- A command that is about the snapshot of a player, or about the context of one of their
battles, and does not just read, is sent for this player. -/
theorem Advance.concerns {φ ψ : Phase} {d : RedisCmd} {r : d.Reply}
    (hadv : Advance cfg φ (.redis d) r ψ) {t : Tables}
    (hbooked : ∀ deed, φ.done = some deed → deed.Booked cfg t) (hreads : d.reads = false)
    (hkey : d.key = .playerSnapshot q ∨
      ∃ b row, d.key = .battleCtx b ∧ t.dungeonBattle.find b = some row ∧ row.playerId = q) :
    φ.lock = some q ∨ φ.missedSnapshot = some q := by
  cases hadv with
  | pass harmless _ =>
    rcases Cmd.reads_or_others harmless with h | h
    · rw [hreads] at h
      cases h
    · rcases hkey with hkey | ⟨b, row, hkey, -⟩
      · exact absurd hkey.symm (h _ rfl)
      · exact absurd hkey.symm (h _ rfl)
  | miss _ | hit _ | findContext _ | noContext => cases hreads
  | lock _ | busy _ | unlock _ => rcases hkey with hkey | ⟨b, row, hkey, -⟩ <;> cases hkey
  | fill _ | fillExpire =>
    rcases hkey with hkey | ⟨b, row, hkey, -⟩
    · exact .inr (congrArg some (RedisKey.playerSnapshot.inj hkey))
    · cases hkey
  | saveContext _ | expireContext =>
    rcases hkey with hkey | ⟨b, row, hkey, hrow, hq⟩
    · cases hkey
    · have hp := (hbooked _ rfl).battle (.inl (congrArg some (RedisKey.battleCtx.inj hkey))) hrow
      exact .inl (congrArg some (hp.symm.trans hq))
  | dropContext =>
    rcases hkey with hkey | ⟨b, row, hkey, hrow, hq⟩
    · cases hkey
    · have hp := (hbooked _ rfl).battle (.inr (congrArg some (RedisKey.battleCtx.inj hkey))) hrow
      exact .inl (congrArg some (hp.symm.trans hq))
  | invalidate =>
    rcases hkey with hkey | ⟨b, row, hkey, -⟩
    · exact .inl (congrArg some (RedisKey.playerSnapshot.inj hkey))
    · cases hkey

/-! ## Steps of a request -/

/-- A command changes nothing of a player for whom it was not sent. -/
theorem sameFor_of_advance {s s' : Store ι} {i : ι} {fault : Option String} {c : Cmd} {r : c.Reply}
    {φ ψ : Phase} (hadv : Advance cfg φ c r ψ) (hp : s.Performed i fault c r s')
    (hbooked : ∀ deed, φ.done = some deed → deed.Booked cfg s.mysql.tables)
    (hlock : φ.lock ≠ some q) (hmissed : φ.missedSnapshot ≠ some q)
    (htables : s.mysql.tables.SameFor q s'.mysql.tables) : s.SameFor q s' := by
  have hkey : ∀ d k, c = .redis d → (k = .playerSnapshot q ∨ ∃ b row, k = .battleCtx b ∧
      s.mysql.tables.dungeonBattle.find b = some row ∧ row.playerId = q) →
      d.reads = true ∨ k ≠ d.key := by
    rintro d k rfl hk
    by_cases hreads : d.reads = true
    · exact .inl hreads
    · refine .inr ?_
      rintro rfl
      rcases hadv.concerns hbooked (Bool.eq_false_iff.mpr hreads) hk with h | h
      · exact hlock h
      · exact hmissed h
  exact ⟨htables, hp.entries_eq fun d hd => hkey d _ hd (.inl rfl),
    fun b row hrow hq => hp.entries_eq fun d hd => hkey d _ hd (.inr ⟨b, row, rfl, hrow, hq⟩)⟩

/-- A step of a request concerns nobody but the player that the request names. -/
theorem sameFor_of_exec (hphased : Phased env w φ) (hcustody : Custody env w φ)
    (hscoped : Scoped env w) {i : ι} {fault : Option String} {task : Task}
    (hi : w.tasks i = some task) (hsends : ∀ x ∈ task.trail, task.request.Sends env x.1)
    {sessionId : String} {p : ℤ} (hclaims : task.request.claims = some (sessionId, p)) (hq : q ≠ p)
    (hmove : Moves env w φ (.exec i fault) w' φ')
    (hstep : TableStep env.dungeonConfig w w' φ φ' (.exec i fault)) :
    w.store.SameFor q w'.store := by
  have hlock : (φ i).lock ≠ some q := fun h =>
    hq (Request.locks_of_claims hclaims (hscoped.lock hphased hi h))
  have htables : w.store.mysql.tables.SameFor q w'.store.mysql.tables := by
    rcases hstep with ⟨htables, -⟩ | ⟨hlabel, -, hbefore, -, htransacts, -⟩
    · rw [htables]
      exact .refl q _
    · obtain ⟨rfl, -⟩ := Label.exec.inj hlabel
      refine htransacts.sameFor ?_
      rintro rfl
      exact hlock (by rw [hbefore]; rfl)
  cases hmove with
  | exec task' performed advance =>
    exact sameFor_of_advance advance performed (hcustody.booked i) hlock
      (fun h => hq (hphased.missed hi hsends hclaims h)) htables

variable {ok : World ι → Label ι → Prop}

/-- **Nobody else is concerned.** In every run that starts without sessions and snapshots,
and in which no `ROLLBACK` fails, a step of a request leaves alone what belongs to any
player but the one its session is for. -/
theorem World.Run.isolated (hw₀ : w₀.Fresh)
    (hsessions : ∀ sessionId, w₀.store.redis.live (.session sessionId) = none)
    (hsnapshots : ∀ p, w₀.store.redis.live (.playerSnapshot p) = none)
    (hroll : ∀ w l, ok w l → ¬w.Fails l (.sql .rollback)) (h : World.Run env ok w₀ w)
    {i : ι} {fault : Option String} {task : Task} (hi : w.tasks i = some task)
    {sessionId : String} {p p' : ℤ} (hclaims : task.request.claims = some (sessionId, p'))
    (hsession : SessionFor p sessionId) (hok : ok w (.exec i fault))
    (hs : w.step env (.exec i fault) = some w') (hq : q ≠ p) : w.store.SameFor q w'.store := by
  obtain ⟨ψ, -, hclears, hfor⟩ := World.Run.clears hw₀.tasks hsessions h hi
  obtain ⟨φ, hphased, hcore, hcustody⟩ := World.Run.custody hw₀ hsessions hsnapshots hroll h
  obtain ⟨φ', hmove, -⟩ := hphased.step hs
  obtain ⟨-, hstep⟩ := hcore.step (hroll _ _ hok) hmove
  by_cases hcleared : ∃ profile, ψ = .cleared profile
  · obtain ⟨profile, hψ⟩ := hcleared
    obtain rfl := hsession.unique (hfor sessionId p' profile hclaims hψ)
    exact sameFor_of_exec hphased hcustody (World.Run.scoped hw₀ h) hi
      (World.Run.sends hw₀.tasks h hi).1 hclaims hq hmove hstep
  · -- before its session is checked, a request only looks it up
    cases does_of_step hs with
    | exec task' performed =>
      obtain rfl := Option.some.inj (hi.symm.trans task')
      obtain ⟨ψ', hadv, -⟩ := hclears _ (Store.plausible_of_perform performed)
      dsimp only at hclaims hadv
      rw [hclaims] at hadv
      have hperformed := Store.performed_of_perform performed
      cases hadv with
      | accept decoded player => exact .of_reads hperformed rfl
      | refuse => exact .of_reads hperformed rfl
      | act | read => exact absurd ⟨_, rfl⟩ hcleared

end GameBackend
