import GameBackend.Core
import GameBackend.Counting
import GameBackend.Scope

/-!
# Numbers of battles

A battle id is made of the player, the dungeon and a number that a dungeon server
counts up from 1. As long as no server draws a number that was drawn before for the
same player and dungeon, all battle ids are different and no `INSERT` of a battle
is refused. A server that was started again counts from 1 again; so do two servers
side by side. So all depends on where in the runs of the servers the calls of
`GenerateBattleId` are made.

* `battleDraws` — the numbers that were drawn, read off the history.
* `Mysql.Used` — the battle ids in the tables and in open transactions.
* `Numbering` — the invariant: the id of a battle that is still to be inserted was
  drawn by its own request only, and is not used.
* `Roster` — the backend with the starts of its servers and the calls of
  `GenerateBattleId` counted along; `unique_battle_ids` reads off these calls whether
  the ids are unique.
-/

namespace GameBackend

variable {ι : Type} [DecidableEq ι] {env : Env} {cfg : DungeonConfig}

/-! ## What was drawn -/

/-- A number drawn for a battle of a player in a dungeon. -/
structure BattleDraw where
  playerId : ℤ
  dungeonId : ℤ
  number : UInt64
  deriving DecidableEq, Repr

/-- What `GenerateBattleId` makes of it. -/
def BattleDraw.battleId (draw : BattleDraw) : String :=
  DungeonService.battleIdText draw.playerId draw.dungeonId draw.number

/-- What a request that draws `n` draws. -/
def Request.draw (n : UInt64) : Request → Option BattleDraw
  | .enterDungeon request => some ⟨request.playerId, request.dungeonId, n⟩
  | _ => none

/-- The numbers that calls of `GenerateBattleId` have drawn, newest first. -/
def battleDraws : List Event → List BattleDraw
  | [] => []
  | .call id ⟨.fetchAddSequence, n⟩ _ :: history =>
    ((requestOf history id).bind (Request.draw n)).toList ++ battleDraws history
  | _ :: history => battleDraws history

/-- The battle ids that calls of `GenerateBattleId` have returned, newest first. -/
def World.battleIds (w : World ι) : List String := (battleDraws w.history).map BattleDraw.battleId

/-- What process `i` is about to draw. -/
def World.drawing (w : World ι) (i : ι) : Option BattleDraw :=
  match w.tasks i with
  | some ⟨_, request, _, .call .fetchAddSequence _⟩ => request.draw (w.store.sequence i)
  | _ => none

/-- No number is drawn that was drawn before for the same player and dungeon. -/
def DrawsAfresh (w : World ι) : Label ι → Prop
  | .exec i _ => ∀ draw, w.drawing i = some draw → draw ∉ battleDraws w.history
  | _ => True

instance (w : World ι) : (l : Label ι) → Decidable (DrawsAfresh w l)
  | .exec i _ => decidable_of_iff ((w.drawing i).all fun draw => draw ∉ battleDraws w.history) (by
      simp [Option.all_eq_true, DrawsAfresh])
  | .start _ _ => isTrue trivial
  | .finish _ => isTrue trivial
  | .crash _ => isTrue trivial
  | .tick _ => isTrue trivial
  | .evict _ => isTrue trivial

theorem BattleDraw.battleId_injective : Function.Injective BattleDraw.battleId := by
  rintro ⟨p, d, n⟩ ⟨q, e, m⟩ h
  obtain ⟨rfl, rfl, rfl⟩ := DungeonService.battleIdText_inj h
  rfl

/-! ## Used battle ids -/

/-- A battle of this id is in the tables or inserted by an open transaction. -/
def Mysql.Used (m : Mysql ι) (b : String) : Prop :=
  (m.tables.dungeonBattle.find b).isSome = true ∨
    ∃ j ws row, m.txns j = some ws ∧ SqlWrite.insertBattle row ∈ ws ∧ row.battleId = b

/-- A battle that is there after a write was there before, or was inserted by it. -/
theorem SqlWrite.Wrote.battle_from {s : SqlWrite} {t t' : Tables} {b : String} (h : s.Wrote t t')
    (hb : (t'.dungeonBattle.find b).isSome = true) :
    (t.dungeonBattle.find b).isSome = true ∨ ∃ row, s = .insertBattle row ∧ row.battleId = b := by
  cases h with
  | insertBattle free =>
    rename_i row
    by_cases hrow : row.battleId = b
    · exact .inr ⟨row, rfl, hrow⟩
    · rw [Tables.insertBattle, Table.find_insert_ne _ hrow] at hb
      exact .inl hb
  | updateBattle found unsettled =>
    rw [Tables.find_finishBattle, Option.isSome_map] at hb
    exact .inl hb
  | _ => exact .inl hb

theorem battle_from_applyAll {ws : List SqlWrite} {b : String} :
    ∀ {t : Tables}, ((applyAll ws t).dungeonBattle.find b).isSome = true →
      (t.dungeonBattle.find b).isSome = true ∨
        ∃ row, SqlWrite.insertBattle row ∈ ws ∧ row.battleId = b := by
  induction ws with
  | nil => exact fun h => .inl h
  | cons s rest ih =>
    intro t h
    rcases ih (t := s.apply t) h with hb | ⟨row, hmem, hrow⟩
    · rcases s.apply_cases t with heq | hwrote
      · exact .inl (heq ▸ hb)
      · rcases hwrote.battle_from hb with hb | ⟨row, rfl, hrow⟩
        · exact .inl hb
        · exact .inr ⟨row, List.mem_cons_self, hrow⟩
    · exact .inr ⟨row, List.mem_cons_of_mem _ hmem, hrow⟩

namespace Mysql

variable {m m' : Mysql ι} {i : ι} {b : String}

theorem used_of_commitTxn (h : (m.commitTxn i).Used b) : m.Used b := by
  rw [commitTxn] at h
  split at h
  · exact h
  · rename_i ws hi
    rcases h with hb | ⟨j, vs, row, hj, hmem, hrow⟩
    · rcases battle_from_applyAll hb with hb | ⟨row, hmem, hrow⟩
      · exact .inl hb
      · exact .inr ⟨i, ws, row, hi, hmem, hrow⟩
    · rcases some_of_update hj with ⟨-, heq⟩ | ⟨-, hj⟩
      · cases heq
      · exact .inr ⟨j, vs, row, hj, hmem, hrow⟩

theorem used_of_rollbackTxn (h : (m.rollbackTxn i).Used b) : m.Used b := by
  rcases h with hb | ⟨j, vs, row, hj, hmem, hrow⟩
  · exact .inl hb
  · rcases some_of_update hj with ⟨-, heq⟩ | ⟨-, hj⟩
    · cases heq
    · exact .inr ⟨j, vs, row, hj, hmem, hrow⟩

/-- A statement uses no battle id but the one it inserts. -/
theorem used_of_execute {c : SqlCmd} {r : c.Reply} (h : m.execute i c = some (r, m'))
    (hb : m'.Used b) : m.Used b ∨ ∃ row, c = .write (.insertBattle row) ∧ row.battleId = b := by
  cases c with
  | startTransaction =>
    -- it commits what was open, and opens an empty transaction
    obtain ⟨-, rfl⟩ := Prod.mk.inj (Option.some.inj h)
    refine .inl (used_of_commitTxn (i := i) ?_)
    rcases hb with hb | ⟨j, vs, row, hj, hmem, hrow⟩
    · exact .inl hb
    · rcases some_of_update hj with ⟨-, heq⟩ | ⟨-, hj⟩
      · obtain rfl := Option.some.inj heq
        cases hmem
      · exact .inr ⟨j, vs, row, hj, hmem, hrow⟩
  | commit =>
    obtain ⟨-, rfl⟩ := Prod.mk.inj (Option.some.inj h)
    exact .inl (used_of_commitTxn hb)
  | rollback =>
    obtain ⟨-, rfl⟩ := Prod.mk.inj (Option.some.inj h)
    exact .inl (used_of_rollbackTxn hb)
  | select q =>
    obtain ⟨-, rfl⟩ := Prod.mk.inj (Option.some.inj h)
    exact .inl hb
  | write s =>
    simp only [execute] at h
    split at h
    · split at h
      · obtain ⟨-, rfl⟩ := Prod.mk.inj (Option.some.inj h)
        exact .inl hb
      · obtain ⟨-, rfl⟩ := Prod.mk.inj (Option.some.inj h)
        exact .inl hb
      · rename_i t n hrun
        split at h
        · rename_i ws hi
          obtain ⟨-, rfl⟩ := Prod.mk.inj (Option.some.inj h)
          rcases hb with hb | ⟨j, vs, row, hj, hmem, hrow⟩
          · exact .inl (.inl hb)
          · rcases some_of_update hj with ⟨rfl, heq⟩ | ⟨-, hj⟩
            · obtain rfl := Option.some.inj heq
              rcases List.mem_append.mp hmem with hmem | hmem
              · exact .inl (.inr ⟨j, ws, row, hi, hmem, hrow⟩)
              · exact .inr ⟨row, by rw [List.mem_singleton.mp hmem], hrow⟩
            · exact .inl (.inr ⟨j, vs, row, hj, hmem, hrow⟩)
        · -- without a transaction the statement writes to the tables
          rename_i hi
          obtain ⟨-, rfl⟩ := Prod.mk.inj (Option.some.inj h)
          have hview : m.view i = m.tables := by
            rw [view, hi]
            rfl
          rcases hb with hb | hb
          · rcases (SqlWrite.wrote_of_run hrun).battle_from hb with hb | ⟨row, rfl, hrow⟩
            · exact .inl (.inl (hview ▸ hb))
            · exact .inr ⟨row, rfl, hrow⟩
          · exact .inl (.inr hb)
    · cases h

omit [DecidableEq ι] in
/-- A battle id that is not used can be inserted. -/
theorem run_insertBattle {row : BattleRow} (h : ¬m.Used row.battleId) :
    ∃ t, (SqlWrite.insertBattle row).run (m.view i) = .hit t 1 := by
  have hfree : (m.view i).dungeonBattle.find row.battleId = none := by
    rcases hfind : (m.view i).dungeonBattle.find row.battleId with _ | found
    · rfl
    · refine absurd ?_ h
      rcases battle_from_applyAll (Option.isSome_iff_exists.mpr ⟨_, hfind⟩) with
        hb | ⟨row', hmem, hrow⟩
      · exact .inl hb
      · rcases hi : m.txns i with _ | ws
        · rw [hi] at hmem
          cases hmem
        · rw [hi] at hmem
          exact .inr ⟨i, ws, row', hi, hmem, hrow⟩
  exact ⟨_, by rw [SqlWrite.run, hfree]⟩

end Mysql

/-! ## Battles still to be inserted -/

/-- The id of the battle a request has drawn and not inserted yet. -/
def Phase.drawn : Phase → Option String
  | .numbered row => some row.battleId
  | .opened row => some row.battleId
  | .writing (.enter row) _ (_ :: _) => some row.battleId
  | _ => none

/-- What is done and what is left makes the whole deed. -/
def Phase.Planned (cfg : DungeonConfig) : Phase → Prop
  | .writing deed done todo => done ++ todo = deed.plan cfg
  | _ => True

section Phases

variable {c : Cmd} {r : c.Reply} {φ ψ : Phase} {b : String}

theorem Advance.planned (h : Advance cfg φ c r ψ) (hφ : φ.Planned cfg) : ψ.Planned cfg := by
  cases h with
  | pass _ _ => exact hφ
  | noPending empty => rfl
  | settleBegin => rfl
  | write accepted =>
    rw [Phase.Planned, List.append_assoc]
    exact hφ
  | unlock exit => trivial
  | _ => trivial

/-- A battle id is drawn under the player lock. -/
theorem Advance.drawn (h : Advance cfg φ c r ψ) (hb : ψ.drawn = some b) :
    φ.drawn = some b ∨ ∃ p n, φ = .locked p ∧ (⟨c, r⟩ : Exchange) = ⟨.fetchAddSequence, n⟩ ∧
      b = (⟨p, cfg.dungeonId, n⟩ : BattleDraw).battleId := by
  cases h with
  | pass _ _ => exact .inl hb
  | number => exact .inr ⟨_, _, rfl, rfl, (Option.some.inj hb).symm⟩
  | enterBegin => exact .inl hb
  | noPending empty => exact .inl hb
  | write accepted =>
    rename_i deed done todo w n
    cases deed with
    | settle s => cases hb
    | enter row =>
      cases todo with
      | nil => cases hb
      | cons w' todo => exact .inl hb
  | unlock exit => cases hb
  | _ => cases hb

/-- The `INSERT` of a battle is the last write of its deed. -/
theorem Advance.inserts {row : BattleRow} {r : Except String ℕ}
    (h : Advance cfg φ (.sql (.write (.insertBattle row))) r ψ) (hφ : φ.Planned cfg) :
    φ.drawn = some row.battleId ∧ ψ.drawn = none := by
  have hplan : ∀ {deed : Deed} {done todo : List SqlWrite},
      done ++ .insertBattle row :: todo = deed.plan cfg → deed = .enter row ∧ todo = [] := by
    intro deed done todo hplan
    cases deed with
    | settle s =>
      have hmem : SqlWrite.insertBattle row ∈ (Deed.settle s).plan cfg := by
        rw [← hplan]
        exact List.mem_append_right _ List.mem_cons_self
      simp [Deed.plan] at hmem
    | enter row' =>
      rcases done with _ | ⟨x, _ | ⟨y, done⟩⟩
      · simp [Deed.plan] at hplan
      · simp only [Deed.plan, List.cons_append, List.nil_append, List.cons.injEq,
          SqlWrite.insertBattle.injEq] at hplan
        obtain ⟨-, rfl, rfl⟩ := hplan
        exact ⟨rfl, rfl⟩
      · simp [Deed.plan] at hplan
  cases h with
  | pass harmless _ => cases harmless
  | write accepted =>
    obtain ⟨rfl, rfl⟩ := hplan hφ
    exact ⟨rfl, rfl⟩
  | refuse refused =>
    obtain ⟨rfl, rfl⟩ := hplan hφ
    exact ⟨rfl, rfl⟩

end Phases

/-! ## The invariant -/

variable {w w' w₀ : World ι} {φ φ' : ι → Phase} {l : Label ι}

/-- Battle ids are drawn once, and one that is still to be inserted is not used. -/
structure Numbering (cfg : DungeonConfig) (w : World ι) (φ : ι → Phase) : Prop where
  planned : ∀ i, (φ i).Planned cfg
  nodup : (battleDraws w.history).Nodup
  used : ∀ b, w.store.mysql.Used b → b ∈ w.battleIds
  free : ∀ i b, (φ i).drawn = some b → b ∈ w.battleIds ∧ ¬w.store.mysql.Used b
  distinct : ∀ i j b, (φ i).drawn = some b → (φ j).drawn = some b → i = j

omit [DecidableEq ι] in
theorem Numbering.init (hw : w.Fresh) : Numbering cfg w fun _ => .outside where
  planned _ := trivial
  nodup := by simp [hw.history, battleDraws]
  used b hb := by
    rcases hb with hb | ⟨j, ws, row, hj, -⟩
    · obtain ⟨row, hrow⟩ := Option.isSome_iff_exists.mp hb
      have hmem := Table.mem_of_find hrow
      rw [hw.battles] at hmem
      cases hmem
    · rw [hw.txns j] at hj
      cases hj
  free i b hb := nomatch hb
  distinct i j b hb := nomatch hb

/-- Process `i` goes back to rest. -/
theorem Numbering.rest (h : Numbering cfg w φ) {i : ι} {m : Mysql ι}
    {redis : Redis} {sequence : ι → UInt64} {tasks : ι → Option Task} {history : List Event}
    (hm : ∀ b, m.Used b → w.store.mysql.Used b)
    (hdraws : battleDraws history = battleDraws w.history) :
    Numbering cfg ⟨⟨m, redis, sequence⟩, tasks, history⟩ (Function.update φ i .outside) := by
  have hids : World.battleIds ⟨⟨m, redis, sequence⟩, tasks, history⟩ = w.battleIds :=
    congrArg (List.map BattleDraw.battleId) hdraws
  have hdrawn : ∀ j b, (Function.update φ i .outside j).drawn = some b → (φ j).drawn = some b := by
    intro j b hb
    by_cases hji : j = i
    · rw [hji, Function.update_self] at hb
      cases hb
    · rwa [Function.update_of_ne hji] at hb
  refine ⟨fun j => ?_, hdraws ▸ h.nodup, fun b hb => hids ▸ h.used b (hm b hb),
    fun j b hb => ?_, ?_⟩
  · by_cases hji : j = i
    · rw [hji, Function.update_self]
      trivial
    · rw [Function.update_of_ne hji]
      exact h.planned j
  · obtain ⟨hmem, hfree⟩ := h.free j b (hdrawn j b hb)
    exact ⟨hids ▸ hmem, fun hused => hfree (hm b hused)⟩
  · exact fun j k b hj hk => h.distinct j k b (hdrawn j b hj) (hdrawn k b hk)

/-! ### The next command -/

/-- What a command uses in MySQL. -/
theorem Store.Performed.used {s s' : Store ι} {i : ι} {fault : Option String} {c : Cmd}
    {r : c.Reply} (h : s.Performed i fault c r s') {b : String} (hb : s'.mysql.Used b) :
    s.mysql.Used b ∨ ∃ row, c = .sql (.write (.insertBattle row)) ∧ row.battleId = b := by
  cases h with
  | sql executed =>
    rcases Mysql.used_of_execute executed hb with hb | ⟨row, rfl, hrow⟩
    · exact .inl hb
    · exact .inr ⟨row, rfl, hrow⟩
  | _ => exact .inl hb

section Exec

variable {i : ι} {id : ℕ} {request : Request} {trail : List Exchange} {c : Cmd}
  {k : c.Reply → Program Response} {r : c.Reply} {fault : Option String} {store : Store ι}
  {time : ℕ}

/-- A command notes the number it draws for a battle. -/
theorem battleDraws_exec (hscoped : Scoped env w)
    (task : w.tasks i = some ⟨id, request, trail, .call c k⟩)
    (hp : w.store.Performed i fault c r store) :
    battleDraws (.call id ⟨c, r⟩ time :: w.history) =
      (w.drawing i).toList ++ battleDraws w.history := by
  have hstarted : requestOf w.history id = some request := hscoped.started i _ task
  cases c with
  | fetchAddSequence =>
    cases hp with
    | fetchAddSequence => simp only [battleDraws, World.drawing, task, hstarted, Option.bind_some]
  | _ => simp only [battleDraws, World.drawing, task, Option.toList_none, List.nil_append]

/-- A request that draws a battle id draws it for the player it names. -/
theorem Scoped.drawing (hscoped : Scoped env w) (hphased : Phased env w φ) {p : ℤ}
    (task : w.tasks i = some ⟨id, request, trail, .call c k⟩) (hlocked : φ i = .locked p)
    {n : UInt64} (hc : (⟨c, r⟩ : Exchange) = ⟨.fetchAddSequence, n⟩)
    (hp : w.store.Performed i fault c r store) :
    w.drawing i = some ⟨p, env.dungeonConfig.dungeonId, n⟩ := by
  obtain ⟨rfl, hr⟩ := Sigma.mk.inj hc
  obtain rfl := eq_of_heq hr
  have hlocks : request.locks = some p := hscoped.lock hphased task (by rw [hlocked]; rfl)
  obtain ⟨⟨login, rfl⟩ | ⟨enter, rfl, hdungeon⟩, -⟩ := hscoped.rest i _ task
  · cases hlocks
  · obtain rfl := Option.some.inj hlocks
    cases hp with
    | fetchAddSequence => simp only [World.drawing, task, Request.draw, hdungeon]

end Exec

/-- Process `i` reaches a phase in which it has drawn no battle id but its own or a new one,
and what is inserted now it has drawn before. -/
theorem Numbering.update (h : Numbering cfg w φ) {i : ι} {ψ : Phase} {store : Store ι}
    {tasks : ι → Option Task} {history : List Event} (hplanned : ψ.Planned cfg)
    (hnodup : (battleDraws history).Nodup)
    (hkept : ∀ b ∈ w.battleIds, b ∈ World.battleIds ⟨store, tasks, history⟩)
    (hnew : ∀ b, ψ.drawn = some b → (φ i).drawn = some b ∨
      (b ∉ w.battleIds ∧ b ∈ World.battleIds ⟨store, tasks, history⟩ ∧
        (store.mysql.Used b → w.store.mysql.Used b)))
    (hinserts : ∀ b, store.mysql.Used b →
      w.store.mysql.Used b ∨ ((φ i).drawn = some b ∧ ψ.drawn = none)) :
    Numbering cfg ⟨store, tasks, history⟩ (Function.update φ i ψ) := by
  refine ⟨fun j => ?_, hnodup, fun b hb => ?_, fun j b hb => ?_, fun j j' b hj hj' => ?_⟩
  · by_cases hji : j = i
    · rw [hji, Function.update_self]
      exact hplanned
    · rw [Function.update_of_ne hji]
      exact h.planned j
  · rcases hinserts b hb with hb | ⟨hdrawn, -⟩
    · exact hkept b (h.used b hb)
    · exact hkept b (h.free i b hdrawn).1
  · by_cases hji : j = i
    · rw [hji, Function.update_self] at hb
      rcases hnew b hb with hold | ⟨hfresh, hmem, hunused⟩
      · refine ⟨hkept b (h.free i b hold).1, fun hused => ?_⟩
        rcases hinserts b hused with hused | ⟨-, hnone⟩
        · exact (h.free i b hold).2 hused
        · rw [hnone] at hb
          cases hb
      · exact ⟨hmem, fun hused => hfresh (h.used b (hunused hused))⟩
    · rw [Function.update_of_ne hji] at hb
      obtain ⟨hmem, hfree⟩ := h.free j b hb
      refine ⟨hkept b hmem, fun hused => ?_⟩
      rcases hinserts b hused with hused | ⟨hdrawn, -⟩
      · exact hfree hused
      · exact hji (h.distinct j i b hb hdrawn)
  · -- nobody else has drawn the id that process `i` draws now
    have hcross : ∀ {j}, j ≠ i → ψ.drawn = some b → (φ j).drawn ≠ some b := by
      intro j hji hψ hj
      rcases hnew b hψ with hold | ⟨hfresh, -⟩
      · exact hji (h.distinct j i b hj hold)
      · exact hfresh (h.free j b hj).1
    by_cases hji : j = i
    · subst hji
      by_cases hji' : j' = j
      · exact hji'.symm
      · rw [Function.update_self] at hj
        rw [Function.update_of_ne hji'] at hj'
        exact absurd hj' (hcross hji' hj)
    · rw [Function.update_of_ne hji] at hj
      by_cases hji' : j' = i
      · subst hji'
        rw [Function.update_self] at hj'
        exact absurd hj (hcross hji hj')
      · rw [Function.update_of_ne hji'] at hj'
        exact h.distinct j j' b hj hj'

/-- Every move keeps the numbering, if the numbers it draws are fresh. -/
theorem Numbering.step (h : Numbering env.dungeonConfig w φ) (hphased : Phased env w φ)
    (hscoped : Scoped env w) (hafresh : DrawsAfresh w l) (hmove : Moves env w φ l w' φ') :
    Numbering env.dungeonConfig w' φ' := by
  cases hmove with
  | start idle => exact ⟨h.planned, h.nodup, h.used, h.free, h.distinct⟩
  | finish task ends => exact h.rest (fun _ hb => hb) rfl
  | crash noted =>
    refine h.rest (fun _ hb => Mysql.used_of_rollbackTxn hb) ?_
    rcases noted with rfl | ⟨task, -, rfl⟩
    · rfl
    · rfl
  | tick => exact ⟨h.planned, h.nodup, h.used, h.free, h.distinct⟩
  | evict => exact ⟨h.planned, h.nodup, h.used, h.free, h.distinct⟩
  | exec task performed advance =>
    rename_i i fault id request trail c k r store ψ
    have hdraws : battleDraws (.call id ⟨c, r⟩ w.store.redis.now :: w.history) =
        (w.drawing i).toList ++ battleDraws w.history :=
      battleDraws_exec hscoped task performed
    refine h.update (advance.planned (h.planned i)) ?_ (fun b hb => ?_) (fun b hb => ?_)
      fun b hb => ?_
    · rw [hdraws]
      rcases hdrawing : w.drawing i with _ | draw
      · exact h.nodup
      · exact List.nodup_cons.mpr ⟨hafresh draw hdrawing, h.nodup⟩
    · rw [World.battleIds, hdraws, List.map_append]
      exact List.mem_append_right _ hb
    · -- a battle id that is drawn now is new
      rcases advance.drawn hb with hold | ⟨p, n, hlocked, hexchange, rfl⟩
      · exact .inl hold
      · have hdrawing := hscoped.drawing hphased task hlocked hexchange performed
        refine .inr ⟨fun hmem => ?_, ?_, fun hused => ?_⟩
        · exact hafresh _ hdrawing
            ((List.mem_map_of_injective BattleDraw.battleId_injective).mp hmem)
        · rw [World.battleIds, hdraws, hdrawing]
          exact List.mem_cons_self
        · rcases performed.used hused with hused | ⟨row, rfl, -⟩
          · exact hused
          · cases (Sigma.mk.inj hexchange).1
    · -- a battle that is inserted now was drawn by this request
      rcases performed.used hb with hb | ⟨row, rfl, rfl⟩
      · exact .inl hb
      · exact .inr (advance.inserts (h.planned i))

/-! ## Every run -/

omit [DecidableEq ι] in
/-- A process that is about to insert a battle has drawn its id. -/
theorem Phased.inserting (hphased : Phased env w φ) (h : Numbering env.dungeonConfig w φ) {i : ι}
    {row : BattleRow} (hnext : w.next i = some (.sql (.write (.insertBattle row)))) :
    (φ i).drawn = some row.battleId := by
  rw [World.next] at hnext
  split at hnext
  · rename_i id request trail c k task
    obtain rfl := Option.some.inj hnext
    obtain ⟨ψ, hadv, -⟩ := hphased.obeys i _ task (.ok 1) trivial
    exact (hadv.inserts (h.planned i)).1
  · cases hnext

/-- As long as no number is drawn twice for the same player and dungeon, no `INSERT`
of a battle is refused. -/
theorem World.Run.inserts (hw₀ : w₀.Fresh) (h : World.Run env DrawsAfresh w₀ w) {i : ι}
    {row : BattleRow} (hnext : w.next i = some (.sql (.write (.insertBattle row)))) :
    ∃ t, (SqlWrite.insertBattle row).run (w.store.mysql.view i) = .hit t 1 := by
  obtain ⟨φ, hphased, hnumbering⟩ := h.phased (I := Numbering env.dungeonConfig) hw₀.tasks
    (.init hw₀) fun w φ l w' φ' hr hphased hI hok hmove =>
      hI.step hphased (World.Run.scoped hw₀ hr) hok hmove
  exact Mysql.run_insertBattle (hnumbering.free i _ (hphased.inserting hnumbering hnext)).2

/-! ## Starts and calls -/

/-- The player and the dungeon that a request generates a battle id for. -/
def Request.battleKey : Request → Option (ℤ × ℤ)
  | .enterDungeon request => some (request.playerId, request.dungeonId)
  | _ => none

/-- The player and the dungeon that process `i` is about to generate a battle id for. -/
def World.generating (w : World ι) (i : ι) : Option (ℤ × ℤ) :=
  match w.tasks i with
  | some ⟨_, request, _, .call .fetchAddSequence _⟩ => request.battleKey
  | _ => none

/-- Process `i` is about to call its counter. -/
def World.counting (w : World ι) (i : ι) : Bool :=
  match w.next i with
  | some .fetchAddSequence => true
  | _ => false

/-- The backend, with the starts and calls of its servers counted and the calls of
`GenerateBattleId`, newest first. -/
structure Roster (ι : Type) where
  world : World ι
  tally : Tally ι := {}
  calls : List ((ℤ × ℤ) × Place ι) := []

namespace Roster

/-- What a step counts. -/
def count (r : Roster ι) : Label ι → Tally ι
  | .exec i _ => if r.world.counting i then r.tally.call i else r.tally
  | .crash i => r.tally.restart i
  | _ => r.tally

/-- The call of `GenerateBattleId` that a step makes. -/
def called (r : Roster ι) : Label ι → List ((ℤ × ℤ) × Place ι)
  | .exec i _ => ((r.world.generating i).map fun key => (key, r.tally.place i)).toList
  | _ => []

/-- One step. -/
def step (env : Env) (r : Roster ι) (l : Label ι) : Option (Roster ι) :=
  (r.world.step env l).map fun world => ⟨world, r.count l, r.called l ++ r.calls⟩

/-- What a call draws, if the counters go with the tally. -/
def draw (call : (ℤ × ℤ) × Place ι) : BattleDraw := ⟨call.1.1, call.1.2, call.2.number⟩

/-- The tally counts what the counters count, and the history tells the calls. -/
structure Kept (r : Roster ι) : Prop where
  counts : r.tally.Counts (fun _ => True) r.world.store.sequence
  recorded : r.tally.Recorded r.calls
  draws : battleDraws r.world.history = r.calls.map draw

end Roster

omit [DecidableEq ι] in
/-- What is drawn is the number that the counter shows. -/
theorem World.drawing_eq (w : World ι) (i : ι) :
    w.drawing i = (w.generating i).map fun key => ⟨key.1, key.2, w.store.sequence i⟩ := by
  rw [drawing, generating]
  split
  · rename_i request _ _ _
    cases request with
    | _ => rfl
  · rfl

/-- A process that generates a battle id calls its counter. -/
theorem World.counting_eq {w : World ι} {i : ι} {id : ℕ} {request : Request}
    {trail : List Exchange} {c : Cmd} {k : c.Reply → Program Response} {fault : Option String}
    {r : c.Reply} {store : Store ι}
    (task : w.tasks i = some ⟨id, request, trail, .call c k⟩)
    (hp : w.store.Performed i fault c r store) :
    (w.counting i = true ∧
        store.sequence = Function.update w.store.sequence i (w.store.sequence i + 1)) ∨
      (w.counting i = false ∧ w.generating i = none ∧ store.sequence = w.store.sequence) := by
  cases hp with
  | fetchAddSequence => exact .inl ⟨by simp [counting, next, task], rfl⟩
  | sqlFault => exact .inr ⟨by simp [counting, next, task], by simp [generating, task], rfl⟩
  | sql => exact .inr ⟨by simp [counting, next, task], by simp [generating, task], rfl⟩
  | redisFault => exact .inr ⟨by simp [counting, next, task], by simp [generating, task], rfl⟩
  | redis => exact .inr ⟨by simp [counting, next, task], by simp [generating, task], rfl⟩
  | epochSeconds => exact .inr ⟨by simp [counting, next, task], by simp [generating, task], rfl⟩

namespace Roster

variable {r r' : Roster ι}

/-- Every step keeps the count. -/
theorem Kept.step (h : r.Kept) (hscoped : Scoped env r.world) (hs : r.step env l = some r') :
    r'.Kept := by
  obtain ⟨w', hworld, rfl⟩ := Option.map_eq_some_iff.mp hs
  cases does_of_step hworld with
  | start idle => exact ⟨h.counts, h.recorded, h.draws⟩
  | exec task performed =>
    rename_i i fault id request trail c k reply store
    have hperformed := Store.performed_of_perform performed
    have hdraws : battleDraws (.call id ⟨c, reply⟩ r.world.store.redis.now :: r.world.history) =
      _ := battleDraws_exec hscoped task hperformed
    rw [World.drawing_eq, h.draws] at hdraws
    rcases World.counting_eq task hperformed with
      ⟨hcounting, hsequence⟩ | ⟨hcounting, hnone, hsequence⟩
    · refine ⟨?_, ?_, hdraws.trans ?_⟩
      · simp only [count, hcounting, if_true, hsequence]
        exact h.counts.call i
      · simp only [count, hcounting, if_true, called]
        cases r.world.generating i with
        | none => exact h.recorded.skip i
        | some key => exact h.recorded.call i key
      · rw [called, h.counts i trivial]
        cases r.world.generating i with
        | none => rfl
        | some key => rfl
    · refine ⟨?_, ?_, hdraws.trans ?_⟩
      · simp only [count, hcounting, Bool.false_eq_true, if_false, hsequence]
        exact h.counts
      · simp only [count, hcounting, Bool.false_eq_true, if_false, called, hnone]
        exact h.recorded
      · rw [called, hnone]
        rfl
  | finish task => exact ⟨h.counts, h.recorded, h.draws⟩
  | stop running => exact ⟨h.counts.restart _, h.recorded.restart _, h.draws⟩
  | restart idle => exact ⟨h.counts.restart _, h.recorded.restart _, h.draws⟩
  | tick => exact ⟨h.counts, h.recorded, h.draws⟩
  | evict => exact ⟨h.counts, h.recorded, h.draws⟩

/-- The backend of a run runs. -/
theorem run_world {ok : Roster ι → Label ι → Prop} {r₀ : Roster ι}
    (h : Reach (Roster.step env) ok r₀ r) :
    World.Run env (fun _ _ => True) r₀.world r.world := by
  induction h with
  | refl => exact .refl
  | tail _ _ hs ih =>
    obtain ⟨w', hworld, rfl⟩ := Option.map_eq_some_iff.mp hs
    exact ih.tail trivial hworld

theorem kept {ok : Roster ι → Label ι → Prop} (hw₀ : w₀.Fresh)
    (hstarted : ∀ i, w₀.store.sequence i = 1)
    (h : Reach (Roster.step env) ok { world := w₀ } r) : r.Kept := by
  refine h.invariant (I := Roster.Kept) ⟨.init fun i _ => hstarted i, .init, ?_⟩
    fun r l r' hr hI _ hs => hI.step ((run_world hr).scoped hw₀) hs
  rw [hw₀.history]
  rfl

omit [DecidableEq ι] in
/-- The same is drawn by calls that clash, for the same player and dungeon. -/
theorem draw_eq_iff {a b : (ℤ × ℤ) × Place ι} : draw a = draw b ↔ a.1 = b.1 ∧ a.2.Clash b.2 := by
  rw [draw, draw, BattleDraw.mk.injEq, ← Place.number_eq_iff, Prod.ext_iff, and_assoc]

omit [DecidableEq ι] in
/-- Calls that are apart draw fresh numbers. -/
theorem Kept.afresh (h : r.Kept) {l : Label ι} (hapart : Apart (r.called l ++ r.calls)) :
    DrawsAfresh r.world l := by
  cases l with
  | exec i fault =>
    intro new hdrawing hmem
    rw [World.drawing_eq] at hdrawing
    obtain ⟨key, hgenerating, rfl⟩ := Option.map_eq_some_iff.mp hdrawing
    rw [h.draws, h.counts i trivial] at hmem
    obtain ⟨old, hold, heq⟩ := List.mem_map.mp hmem
    have hnew : (key, r.tally.place i) ∈ r.called (.exec i fault) := by
      rw [called, hgenerating]
      exact List.mem_singleton_self _
    have hsame : draw (key, r.tally.place i) = draw old := heq.symm
    obtain ⟨hkey, hclash⟩ := draw_eq_iff.mp hsame
    exact (List.pairwise_append.mp hapart).2.2 _ hnew old hold hkey hclash
  | _ => trivial

/-- A run whose calls are apart draws fresh numbers all along. -/
theorem run_afresh (hw₀ : w₀.Fresh) (hstarted : ∀ i, w₀.store.sequence i = 1)
    (h : Reach (Roster.step env) (fun _ _ => True) { world := w₀ } r) (hapart : Apart r.calls) :
    World.Run env DrawsAfresh w₀ r.world := by
  induction h with
  | refl => exact .refl
  | tail hr _ hs ih =>
    obtain ⟨w', hworld, rfl⟩ := Option.map_eq_some_iff.mp hs
    have hbefore := (List.pairwise_append.mp hapart).2.1
    exact (ih hbefore).tail ((kept hw₀ hstarted hr).afresh hapart) hworld

end Roster

/-- **Battle ids are unique** exactly if no two calls of `GenerateBattleId` for the same
player and dungeon are made at the same position of two runs of servers: in every run, with
any interleaving, failures and restarts, the ids that were returned are pairwise different
if and only if the calls are apart, and then no `INSERT` of a battle is refused. Calls are
apart if all those for a player and a dungeon are made by one run of a server. -/
theorem unique_battle_ids {r : Roster ι} (hw₀ : w₀.Fresh)
    (hstarted : ∀ i, w₀.store.sequence i = 1)
    (h : Reach (Roster.step env) (fun _ _ => True) { world := w₀ } r) :
    (r.world.battleIds.Nodup ↔ Apart r.calls) ∧
    (Apart r.calls → ∀ i row, r.world.next i = some (.sql (.write (.insertBattle row))) →
      ∃ t, (SqlWrite.insertBattle row).run (r.world.store.mysql.view i) = .hit t 1) ∧
    ((∀ a ∈ r.calls, ∀ b ∈ r.calls, a.1 = b.1 → a.2.SameRun b.2) →
      (∀ a ∈ r.calls, a.2.position < 2 ^ 64) → Apart r.calls) := by
  have hkept := Roster.kept hw₀ hstarted h
  refine ⟨?_, fun hapart i row hnext => ?_, hkept.recorded.apart_of_one_run⟩
  · rw [World.battleIds, List.nodup_map_iff BattleDraw.battleId_injective, hkept.draws,
      List.Nodup, List.pairwise_map, Apart]
    refine List.Pairwise.iff fun a b => ?_
    rw [Ne, Roster.draw_eq_iff, not_and]
  · exact (Roster.run_afresh hw₀ hstarted h hapart).inserts hw₀ hnext

/-- A server enters a dungeon, settles and enters again, and is started again before another
player enters. -/
theorem unique_battle_ids_demo :
    ∃ r : Roster Bool, Reach (Roster.step demoEnv) (fun _ _ => True) { world := demoWorld } r ∧
      r.world.battleIds =
        ["battle-20002-1001-1", "battle-20001-1001-2", "battle-20001-1001-1"] ∧
      r.world.battleIds.Nodup := by
  have hrun : (replay (Roster.step demoEnv) (fun _ _ => true) { world := demoWorld }
      (Label.alone true (.enterDungeon ⟨"s", 20001, 1001⟩) 18 ++
        Label.alone true (.settleDungeon ⟨"s", 20001, "battle-20001-1001-1", 1001, 3, true⟩) 14 ++
        Label.alone true (.enterDungeon ⟨"s", 20001, 1001⟩) 18 ++
        .crash true :: Label.alone true (.enterDungeon ⟨"t", 20002, 1001⟩) 18)).any (fun r =>
          r.world.battleIds =
            ["battle-20002-1001-1", "battle-20001-1001-2", "battle-20001-1001-1"] ∧
          Apart r.calls) = true := by
    decide +kernel
  obtain ⟨r, hreach, hfound⟩ := Reach.of_replay_any (fun _ _ _ => trivial) hrun
  obtain ⟨hids, hapart⟩ := of_decide_eq_true hfound
  exact ⟨r, hreach, hids, (unique_battle_ids demoWorld_fresh (fun _ => rfl) hreach).1.mpr hapart⟩

/-- The next command of process `i` inserts a battle that is already there. -/
private def insertsAgain (w : World ι) (i : ι) : Bool :=
  match w.next i with
  | some (.sql (.write (.insertBattle row))) =>
    ((w.store.mysql.view i).dungeonBattle.find row.battleId).isSome
  | _ => false

omit [DecidableEq ι] in
private theorem refused_of_insertsAgain {i : ι} (h : insertsAgain w i = true) :
    ∃ row, w.next i = some (.sql (.write (.insertBattle row))) ∧
      ∀ t, (SqlWrite.insertBattle row).run (w.store.mysql.view i) ≠ .hit t 1 := by
  unfold insertsAgain at h
  split at h
  · rename_i row hnext
    obtain ⟨found, hfound⟩ := Option.isSome_iff_exists.mp h
    exact ⟨row, hnext, fun t => by simp [SqlWrite.run, hfound]⟩
  · cases h

/-- A server enters a dungeon, settles and is started again: it draws the battle id
again, and its `INSERT` is refused. -/
theorem battle_id_drawn_again :
    (¬∀ w, World.Run demoEnv (fun _ l => (l.faultless && l.ofDungeon) = true) demoWorld w →
      w.battleIds.Nodup) ∧
    ¬∀ w, World.Run demoEnv (fun _ l => (l.faultless && l.ofDungeon) = true) demoWorld w →
      ∀ i row, w.next i = some (.sql (.write (.insertBattle row))) →
        ∃ t, (SqlWrite.insertBattle row).run (w.store.mysql.view i) = .hit t 1 := by
  have hrun : (replay (World.step demoEnv) (fun _ l => l.faultless && l.ofDungeon) demoWorld
      (Label.alone true (.enterDungeon ⟨"s", 20001, 1001⟩) 18 ++
        Label.alone true (.settleDungeon ⟨"s", 20001, "battle-20001-1001-1", 1001, 3, true⟩) 14 ++
        .crash true :: .start true (.enterDungeon ⟨"s", 20001, 1001⟩) ::
        List.replicate 8 (.exec true none))).any (fun w => insertsAgain w true ∧
          w.battleIds = ["battle-20001-1001-1", "battle-20001-1001-1"]) = true := by
    decide +kernel
  obtain ⟨w, hreach, hagain⟩ := Reach.of_replay_any (fun _ _ hl => hl) hrun
  obtain ⟨hinserts, hids⟩ := of_decide_eq_true hagain
  refine ⟨fun hall => ?_, fun hall => ?_⟩
  · have hnodup := hall w hreach
    rw [hids] at hnodup
    exact absurd hnodup (by decide)
  · obtain ⟨row, hnext, hrefused⟩ := refused_of_insertsAgain hinserts
    obtain ⟨t, ht⟩ := hall w hreach true row hnext
    exact hrefused t ht

end GameBackend
