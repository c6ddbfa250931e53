import GameBackend.Alone

/-!
# All or nothing

`EnterDungeon` and `SettleDungeon`, processed alone, either succeed and have
applied the whole deed to the tables, or fail and have left the tables, the battle
contexts and the snapshots as they were, whichever of their statements fail.
-/

namespace GameBackend

variable {ι : Type} [DecidableEq ι] {env : Env} {cfg : DungeonConfig} {s s' s₀ : Store ι} {i : ι}
  {φ ψ : Phase} {c : Cmd} {r : c.Reply} {fault : Option String}

/-! ## What has happened so far -/

/-- The tables, the battle contexts and the snapshots of `s'` are those of `s`. -/
structure Store.Unchanged (s s' : Store ι) : Prop where
  tables : s'.mysql.tables = s.mysql.tables
  contexts : ∀ b, s'.redis.entries (.battleCtx b) = s.redis.entries (.battleCtx b)
  snapshots : ∀ p, s'.redis.entries (.playerSnapshot p) = s.redis.entries (.playerSnapshot p)

/-- The phases in which a request has changed none of these. -/
def Phase.unchanged : Phase → Bool
  | .loaded _ _ => false
  | .committed _ => false
  | .invalidated _ => false
  | .released deed => deed.isNone
  | _ => true

/-- What a request has decided to do. -/
def Phase.deed : Phase → Option Deed
  | .decided s => some (.settle s)
  | .writing deed _ _ => some deed
  | .committed deed => some deed
  | .invalidated deed => some deed
  | .released deed => deed
  | _ => none

/-- A settlement takes itself for a first clear if and only if there is no
progress row. -/
def Deed.Judged (t : Tables) : Deed → Prop
  | .enter _ => True
  | .settle s => s.firstClear = (t.playerDungeon.find (s.playerId, s.dungeonId)).isNone

/-- What a request that began in `s₀` has done when it is in phase `φ`. -/
structure Effect (cfg : DungeonConfig) (s₀ s : Store ι) (φ : Phase) : Prop where
  unchanged : φ.unchanged = true → s₀.Unchanged s
  judged : ∀ deed, φ.deed = some deed → deed.Judged s₀.mysql.tables
  applied : ∀ deed, φ.deed = some deed → φ.unchanged = false →
    Transacts cfg deed s₀.mysql.tables s.mysql.tables

omit [DecidableEq ι] in
theorem Effect.init (s : Store ι) : Effect cfg s s .outside where
  unchanged _ := ⟨rfl, fun _ => rfl, fun _ => rfl⟩
  judged _ h := nomatch h
  applied _ h := nomatch h

/-- A command that leads to a phase without changes was sent in one and is about
no battle context and no snapshot. -/
theorem Advance.unchanged (hadv : Advance cfg φ c r ψ) (hψ : ψ.unchanged = true) :
    φ.unchanged = true ∧ ∀ d, c = .redis d → d.reads = true ∨
      (∀ b, RedisKey.battleCtx b ≠ d.key) ∧ ∀ p, RedisKey.playerSnapshot p ≠ d.key := by
  cases hadv with
  | pass harmless _ =>
    refine ⟨hψ, fun d hd => ?_⟩
    subst hd
    exact (Cmd.reads_or_others harmless).imp_right fun hkey =>
      ⟨fun b => hkey _ rfl, fun p => hkey _ rfl⟩
  | miss _ | hit _ | findContext _ | noContext =>
    exact ⟨rfl, fun d hd => .inl (Cmd.redis.inj hd ▸ rfl)⟩
  | lock _ | busy _ =>
    exact ⟨rfl, fun d hd => .inr (by rw [← Cmd.redis.inj hd]; simp [RedisCmd.key])⟩
  | unlock exit =>
    rename_i p deed r
    obtain rfl : deed = none := Option.isNone_iff_eq_none.mp hψ
    refine ⟨?_, fun d hd => .inr (by rw [← Cmd.redis.inj hd]; simp [RedisCmd.key])⟩
    cases φ with
    | locked | found | leaving => rfl
    | _ => cases exit
  | progress | fill _ | fillExpire | commit | saveContext _ | expireContext | dropContext
  | invalidate => cases hψ
  | _ => exact ⟨rfl, fun d hd => by cases hd⟩

/-- A request that gives the lock back after a deed has deleted the snapshot. -/
theorem Phase.invalidated_of_exit {p : ℤ} {deed : Deed} (h : φ.exit = some (p, some deed)) :
    φ = .invalidated deed := by
  cases φ with
  | invalidated deed' =>
    obtain ⟨-, hdeed⟩ := Prod.mk.inj (Option.some.inj h)
    rw [Option.some.inj hdeed]
  | locked p | found p context | leaving p => cases (Prod.mk.inj (Option.some.inj h)).2
  | _ => cases h

/-- What a request has decided it sticks to, once the `SELECT` for its progress has
shown whether there is any. -/
theorem Effect.judge (h : Effect cfg s₀ s φ) (hadv : Advance cfg φ c r ψ)
    (hp : s.Performed i fault c r s') (htxn : φ.Txn (s.mysql.txns i))
    (hfault : c.mayFail = false → fault = none) (deed : Deed) (hdeed : ψ.deed = some deed) :
    deed.Judged s₀.mysql.tables := by
  cases hadv with
  | decide player dungeon unsettled =>
    rename_i p star context r
    obtain rfl := Option.some.inj hdeed
    obtain ⟨message, hf, -, -⟩ | ⟨-, m, hexec, -⟩ := hp.sql_cases
    · rw [hfault rfl] at hf
      cases hf
    have hview : s.mysql.view i = s₀.mysql.tables := by
      rw [Mysql.view, show s.mysql.txns i = none from htxn]
      exact (h.unchanged rfl).tables
    simp only [Mysql.execute, hview, Option.some.injEq, Prod.mk.injEq] at hexec
    obtain ⟨rfl, -⟩ := hexec
    rcases hfind : s₀.mysql.tables.playerDungeon.find (p, cfg.dungeonId) with _ | row
    · simp [Deed.Judged, Query.rows, hfind]
    · simp [Deed.Judged, Query.rows, hfind]
  | noPending empty =>
    obtain rfl := Option.some.inj hdeed
    trivial
  | unlock exit =>
    rename_i p deed' r
    obtain rfl : deed' = some deed := hdeed
    obtain rfl := Phase.invalidated_of_exit exit
    exact h.judged deed rfl
  | pass _ _ | settleBegin | write _ | commit | saveContext _ | expireContext | dropContext
  | invalidate => exact h.judged deed hdeed
  | _ => cases hdeed

/-- The deed is applied by its `COMMIT`, and by nothing else. -/
theorem Effect.apply (h : Effect cfg s₀ s φ) (hadv : Advance cfg φ c r ψ)
    (hp : s.Performed i fault c r s') (htxn : φ.Txn (s.mysql.txns i))
    (hstep : DbStep cfg s.mysql s'.mysql φ ψ) (deed : Deed) (hdeed : ψ.deed = some deed)
    (hψ : ψ.unchanged = false) : Transacts cfg deed s₀.mysql.tables s'.mysql.tables := by
  rcases hstep with ⟨htables, hbinlog⟩ | ⟨rfl, rfl, htransacts, -⟩
  · rw [htables]
    cases hadv with
    | commit => exact absurd ((hp.binlog_commit htxn).symm.trans hbinlog) (List.cons_ne_self _ _)
    | unlock exit =>
      rename_i p deed' r
      obtain rfl : deed' = some deed := hdeed
      obtain rfl := Phase.invalidated_of_exit exit
      exact h.applied deed rfl rfl
    | pass _ _ => exact h.applied deed hdeed hψ
    | saveContext _ | expireContext | dropContext | invalidate => exact h.applied deed hdeed rfl
    | progress | fill _ | fillExpire => cases hdeed
    | _ => cases hψ
  · obtain rfl := Option.some.inj hdeed
    rw [← (h.unchanged rfl).tables]
    exact htransacts

theorem Effect.step (h : Effect cfg s₀ s φ) (hadv : Advance cfg φ c r ψ)
    (hp : s.Performed i fault c r s') (htxn : φ.Txn (s.mysql.txns i))
    (hfault : c.mayFail = false → fault = none) (hstep : DbStep cfg s.mysql s'.mysql φ ψ) :
    Effect cfg s₀ s' ψ where
  unchanged hψ := by
    obtain ⟨hφ, hkeys⟩ := hadv.unchanged hψ
    have hbefore := h.unchanged hφ
    refine ⟨?_, fun b => ?_, fun p => ?_⟩
    · rcases hstep with ⟨htables, -⟩ | ⟨-, rfl, -, -⟩
      · exact htables.trans hbefore.tables
      · cases hψ
    · refine (hp.entries_eq fun d hd => ?_).trans (hbefore.contexts b)
      exact (hkeys d hd).imp_right fun hk => hk.1 b
    · refine (hp.entries_eq fun d hd => ?_).trans (hbefore.snapshots p)
      exact (hkeys d hd).imp_right fun hk => hk.2 p
  judged := h.judge hadv hp htxn hfault
  applied := h.apply hadv hp htxn hstep

/-! ## Every request -/

/-- What a dungeon request with this deed comes to: the whole deed, or nothing. -/
def AllOrNothing (cfg : DungeonConfig) (s s' : Store ι) (success : Bool) (deed : Deed) : Prop :=
  (success = true ∧ Transacts cfg deed s.mysql.tables s'.mysql.tables ∧
      deed.Judged s.mysql.tables) ∨
    (success = false ∧ s.Unchanged s')

omit [DecidableEq ι] in
theorem Effect.allOrNothing {success : Bool} {deed : Deed} (h : Effect cfg s s' φ)
    (hdone : success = true → φ = .released (some deed)) (hclean : success = false → φ.Clean) :
    AllOrNothing cfg s s' success deed := by
  cases hs : success with
  | true =>
    obtain rfl := hdone hs
    exact .inl ⟨rfl, h.applied deed rfl rfl, h.judged deed rfl⟩
  | false =>
    obtain rfl | rfl := hclean hs
    · exact .inr ⟨rfl, h.unchanged rfl⟩
    · exact .inr ⟨rfl, h.unchanged rfl⟩

/-- **All or nothing.** Whatever a backend has served before, and whichever
statements fail: `EnterDungeon` and `SettleDungeon` return, and their response tells
whether the battle was entered or settled or nothing was changed at all. -/
theorem all_or_nothing (hs₀ : s₀.Fresh env) (h : Store.Reached env s₀ s) (i : ι)
    (faults : ℕ → Option String) :
    (∀ request : EnterDungeonRequest, ∃ response s',
      s.serve env i (.enterDungeon request) faults = some (.enterDungeon response, s') ∧
      AllOrNothing env.dungeonConfig s s' response.success (.enter ⟨response.battleId,
        request.playerId, request.dungeonId, 0, env.dungeonConfig.costStamina⟩)) ∧
    ∀ request : SettleDungeonRequest, ∃ response s',
      s.serve env i (.settleDungeon request) faults = some (.settleDungeon response, s') ∧
      AllOrNothing env.dungeonConfig s s' response.success (.settle ⟨request.battleId,
        request.playerId, request.dungeonId, request.star, response.firstClear⟩) := by
  have hserve := fun request => (h.atRest hs₀).serve (i := i)
    (J := Effect env.dungeonConfig s) (.init s)
    (fun hsteady hJ hp hadv hfault hstep => hJ.step hadv hp hsteady.txn hfault hstep)
    request faults
  constructor
  · intro request
    obtain ⟨response, s', φ, hrun, hends, -, heffect⟩ := hserve (.enterDungeon request)
    cases response with
    | enterDungeon response => exact ⟨response, s', hrun, heffect.allOrNothing hends.1 hends.2⟩
    | login _ | loadPlayer _ | settleDungeon _ | restoreBinding _ => exact hends.elim
  · intro request
    obtain ⟨response, s', φ, hrun, hends, -, heffect⟩ := hserve (.settleDungeon request)
    cases response with
    | settleDungeon response => exact ⟨response, s', hrun, heffect.allOrNothing hends.1 hends.2⟩
    | login _ | loadPlayer _ | enterDungeon _ | restoreBinding _ => exact hends.elim

/-- A player logs in and enters a dungeon; the settlement's upsert of the progress
fails. -/
theorem all_or_nothing_demo :
    ∃ s, Store.Reached demoEnv emptyWorld.store s ∧ s.mysql.binlog.length = 1 ∧
      ∃ response s', s.serve demoEnv false (.settleDungeon
          ⟨"sess-10001-20001-1", 20001, "battle-20001-1001-1", 1001, 3, true⟩)
          (fun n => if n = 7 then some "lost" else none) =
            some (.settleDungeon response, s') ∧
        AllOrNothing demoEnv.dungeonConfig s s' response.success
          (.settle ⟨"battle-20001-1001-1", 20001, 1001, 3, response.firstClear⟩) := by
  have hrun : (replay (Store.work demoEnv) (fun _ _ => true) emptyWorld.store
      [.serve false (.login ⟨"demo", "demo"⟩) fun _ => none, .tick 1000,
        .serve true (.enterDungeon ⟨"sess-10001-20001-1", 20001, 1001⟩) fun _ => none]).any
      (fun s => s.mysql.binlog.length = 1) = true := by
    decide +kernel
  obtain ⟨s, hjobs, hlength⟩ := (Option.any_eq_true _ _).mp hrun
  exact ⟨s, .of_replay .start hjobs, of_decide_eq_true hlength,
    (all_or_nothing Store.fresh_emptyWorld (.of_replay .start hjobs) false _).2 _⟩

end GameBackend
