import GameBackend.Atomic
import GameBackend.Errands
import GameBackend.PendingBattle
import GameBackend.Refinement
import GameBackend.Workload

/-!
# Requests served together

`serves_the_game` is about requests that come one after the other. Here they interleave
command by command, on any number of processes that may stop at any moment.

* `Game.Judges` — what the game makes of an answer: it grants an entry or a settlement, or it
  changes nothing, whatever it says. What `Login` and `LoadPlayer` answer, and the code of a
  refusal, is not judged.
* `writes_linearize` — as long as no player lock disappears under its request and none of three
  commands fails, the histories of the backend are linearizable to the game: an entry or a
  settlement that is granted is judged at one instant between its call and its return, one that
  is refused changes nothing, and one that stops is judged once or not at all.

That instant is the `COMMIT`. A command that fails has no effect: there is no `COMMIT` that
takes effect while its answer gets lost. `Mirrored` is the simulation: a request whose deed
is committed stands as served, all others as called.
-/

namespace GameBackend

variable {ι : Type} [DecidableEq ι] {env : Env} {cfg : DungeonConfig} {w w' w₀ : World ι}
  {φ φ' : ι → Phase} {l : Label ι}

/-! ## Judgements -/

/-- The answer grants an entry or a settlement. -/
def Response.grants : Response → Bool
  | .enterDungeon response => response.success
  | .settleDungeon response => response.success
  | _ => false

namespace Game

variable {ι : Type} {g g' : Game ι}

/-- What the game makes of the answer to a request. -/
inductive Judges (cfg : DungeonConfig) (g : Game ι) : Request × Response → Game ι → Prop where
  | pass {e : Request × Response} (refused : e.2.grants = false) : Judges cfg g e g
  | enter {request : EnterDungeonRequest} {battleId : String} {hero : Hero}
      (dungeon : request.dungeonId = cfg.dungeonId)
      (found : g.hero request.playerId = some hero)
      (level : cfg.requiredLevel ≤ hero.profile.level)
      (stamina : cfg.costStamina ≤ hero.profile.stamina)
      (idle : ¬g.Fighting request.playerId) (new : g.battle battleId = none) :
      Judges cfg g (.enterDungeon request, .enterDungeon
          ⟨true, .ok, "", battleId, hero.profile.stamina - cfg.costStamina⟩)
        (g.enter cfg request.playerId battleId)
  | settle {request : SettleDungeonRequest} {hero : Hero} (result : request.result = true)
      (star : 0 < request.star ∧ request.star ≤ cfg.maxStar)
      (on : g.battle request.battleId = some ⟨request.playerId, cfg.dungeonId, false⟩)
      (found : g.hero request.playerId = some hero) :
      Judges cfg g (.settleDungeon request, .settleDungeon
          ⟨true, .ok, "", hero.Novice cfg, hero.rewards cfg⟩)
        (g.settle cfg request.playerId request.battleId request.star)

/-- Sessions come and go. -/
structure Drifts (g g' : Game ι) : Prop where
  account : g'.account = g.account
  hero : g'.hero = g.hero
  battle : g'.battle = g.battle

end Game

omit [DecidableEq ι] in
/-- The game of the same tables. -/
theorem Store.drifts_of_tables {s s' : Store ι} (h : s'.mysql.tables = s.mysql.tables) :
    s.game.Drifts s'.game where
  account := by simp only [Store.game, h]
  hero := by simp only [Store.game, h]
  battle := by simp only [Store.game, h]

/-! ## A commit is a judgement -/

section Commit

variable {s s' : Store ι} {request : Request} {deed : Deed} {read : Option PlayerProfile}

omit [DecidableEq ι] in
/-- The profile of a player is that of the hero. -/
theorem Store.hero_of_profile {p : ℤ} {profile : PlayerProfile}
    (h : ((Query.profile p).rows s.mysql.tables).head? = some profile) :
    ∃ hero, s.game.hero p = some hero ∧ hero.profile = profile := by
  rw [Tables.rows_profile, Option.head?_toList] at h
  obtain ⟨row, hrow, rfl⟩ := Option.map_eq_some_iff.mp h
  change ∃ hero, s.mysql.tables.hero p = some hero ∧ _
  rw [Tables.hero, hrow]
  exact ⟨_, rfl, rfl⟩

omit [DecidableEq ι] in
/-- A player without pending battles does not fight. -/
theorem Store.not_fighting {p : ℤ} (h : s.mysql.tables.pendingBattles p = 0) :
    ¬s.game.Fighting p := by
  rw [Store.fighting_iff]
  rintro ⟨row, hrow, hp, hstatus⟩
  rw [Tables.pendingBattles, Table.count, List.countP_eq_zero] at h
  exact h row hrow (decide_eq_true ⟨hp, hstatus⟩)

omit [DecidableEq ι] in
/-- A deed leaves the accounts of the game alone. -/
theorem Store.account_of_transacts (h : Transacts cfg deed s.mysql.tables s'.mysql.tables) :
    s'.game.account = s.game.account := by
  simp only [Store.game, Query.rows, h.account, h.player]

omit [DecidableEq ι] in
/-- The commit of an entry. -/
theorem judges_enter {request : EnterDungeonRequest} {b : String}
    (hd : request.dungeonId = cfg.dungeonId)
    (haffords : (Request.enterDungeon request).Affords cfg read)
    (hread : ∀ profile, read = some profile →
      ((Query.profile request.playerId).rows s.mysql.tables).head? = some profile)
    (hpending : s.mysql.tables.pendingBattles request.playerId = 0)
    (h : Entered ⟨b, request.playerId, request.dungeonId, 0, cfg.costStamina⟩ s.mysql.tables
      s'.mysql.tables) :
    ∃ g, Game.Judges cfg s.game (.enterDungeon request, (Deed.enter
        ⟨b, request.playerId, request.dungeonId, 0, cfg.costStamina⟩).answer cfg read) g ∧
      g.Drifts s'.game := by
  have htransacts : Transacts cfg (.enter _) _ _ := h
  obtain ⟨profile, rfl, hlevel, hstamina⟩ := haffords
  obtain ⟨hero, hhero, rfl⟩ := Store.hero_of_profile (hread _ rfl)
  refine ⟨_, .enter hd hhero hlevel hstamina (Store.not_fighting hpending) ?_, ?_, ?_, ?_⟩
  · exact congrArg (Option.map _) h.free
  · exact Store.account_of_transacts htransacts
  · exact h.hero rfl
  · simp only [Store.game, Game.enter, h.battles, hd]

omit [DecidableEq ι] in
/-- The commit of a settlement. -/
theorem judges_settle {settlement : Settlement} {request : SettleDungeonRequest}
    (hasks : (Request.settleDungeon request).Asks cfg (.settle settlement))
    (hhonest : (Deed.settle settlement).Honest s.mysql.tables)
    (h : Settled cfg settlement s.mysql.tables s'.mysql.tables) :
    ∃ g, Game.Judges cfg s.game
        (.settleDungeon request, (Deed.settle settlement).answer cfg read) g ∧
      g.Drifts s'.game := by
  have htransacts : Transacts cfg (.settle _) _ _ := h
  cases hasks with
  | settle result dungeon star =>
  rename_i firstClear
  obtain ⟨row, hrow, hstatus, hplayer, hd⟩ := h.battle
  obtain ⟨a, ha⟩ := h.asset
  have hfk := s.mysql.tables.fkAssetPlayer a (Table.mem_of_find ha)
  have hkey : a.playerId = request.playerId := Table.key_of_find ha
  rw [hkey] at hfk
  obtain ⟨player, hfound⟩ := Option.isSome_iff_exists.mp hfk
  have hfirst : firstClear =
      (s.mysql.tables.playerDungeon.find (request.playerId, request.dungeonId)).isNone := by
    rw [Bool.eq_iff_iff, Option.isNone_iff_eq_none]
    exact hhonest _ rfl
  -- the hero is the one in the tables
  let hero : Hero := ⟨player.profile (s.mysql.tables.playerAsset.find request.playerId),
    fun d => (s.mysql.tables.playerDungeon.find (request.playerId, d)).map ProgressRow.mark⟩
  have hhero : s.game.hero request.playerId = some hero := by
    change s.mysql.tables.hero request.playerId = _
    rw [Tables.hero, hfound]
    rfl
  have hnovice : hero.Novice cfg = firstClear := by
    rw [hfirst, dungeon]
    exact Option.isNone_map
  have hrewards : hero.rewards cfg = (Settlement.rewardRows cfg ⟨request.battleId,
      request.playerId, request.dungeonId, request.star, firstClear⟩).map RewardRow.reward := by
    rw [Hero.rewards, hnovice, Settlement.rewardRows]
    cases firstClear <;> rfl
  have hon : s.game.battle request.battleId = some ⟨request.playerId, cfg.dungeonId, false⟩ := by
    change s.mysql.tables.battles request.battleId = _
    rw [Tables.battles, hrow, ← dungeon]
    simp only [Option.map_some, BattleRow.battle, hstatus, hplayer, hd]
    rfl
  have hjudges : Game.Judges cfg _ _ _ := .settle result star hon hhero
  rw [hrewards, hnovice] at hjudges
  refine ⟨_, hjudges, ?_, ?_, ?_⟩
  · exact Store.account_of_transacts htransacts
  · exact h.hero dungeon hfirst
  · exact h.battles'

end Commit

/-! ## What requests rely on -/

/-- What requests have read of their player inside of the lock is still so, until they
commit. -/
def Informed (w : World ι) (φ : ι → Phase) : Prop :=
  ∀ i task p profile, w.tasks i = some task → (φ i).lock = some p → (φ i).done = none →
    shownProfile task.trail = some profile →
      ((Query.profile p).rows w.store.mysql.tables).head? = some profile

omit [DecidableEq ι] in
theorem Informed.init (h : ∀ i, w.tasks i = none) : Informed w φ := by
  intro i task p profile hi
  rw [h i] at hi
  cases hi

omit [DecidableEq ι] in
/-- What was read is still so after a commit by another request. -/
theorem Informed.commit (h : Informed w φ) (hexclusive : Exclusive w φ) {i : ι} {deed : Deed}
    (hbefore : (φ i).lock = some deed.player)
    (htransacts : Transacts env.dungeonConfig deed w.store.mysql.tables w'.store.mysql.tables)
    {j : ι} {task : Task} {p : ℤ} {profile : PlayerProfile} (hj : j ≠ i)
    (htask : w.tasks j = some task) (hlock : (φ j).lock = some p) (hdone : (φ j).done = none)
    (hshown : shownProfile task.trail = some profile) :
    ((Query.profile p).rows w'.store.mysql.tables).head? = some profile := by
  have hp : p ≠ deed.player := by
    rintro rfl
    exact hj (hexclusive.unique j i _ hlock hbefore)
  rw [htransacts.profile_ne hp]
  exact h j task p profile htask hlock hdone hshown

/-- The profile that a command of a request reads is the committed one. -/
theorem head_of_shows {s s' : Store ι} {i : ι} {fault : Option String} {c : Cmd} {r : c.Reply}
    {id : ℕ} {request : Request} {trail : List Exchange} {rest : Program Response} {ψ : Phase}
    {p : ℤ} {profile : PlayerProfile} (hp : s.Performed i fault c r s')
    (herrand : Task.OnErrand cfg ⟨id, request, ⟨c, r⟩ :: trail, rest⟩)
    (hpath : Path (Advance cfg) .outside trail ψ) (htxn : ψ.Txn (s.mysql.txns i))
    (hlocks : request.locks = some p) (hshows : Exchange.showsProfile ⟨c, r⟩ = some profile) :
    ((Query.profile p).rows s.mysql.tables).head? = some profile := by
  unfold Exchange.showsProfile at hshows
  split at hshows
  · rename_i heq
    cases heq
    obtain ⟨hplayer, hbegin⟩ := herrand.reads (by simp [hlocks]) hshows
    obtain rfl := Option.some.inj (hlocks.symm.trans hplayer)
    have hbegun : ψ.begun = false := by
      rw [Bool.eq_false_iff]
      intro hbegun
      obtain ⟨r, hmem⟩ := begin_mem hpath hbegun
      exact hbegin r hmem
    rename_i r
    cases r with
    | none => cases hshows
    | some rows =>
      obtain rfl := hp.select_rows (Phase.txn_of_begun hbegun htxn)
      exact hshows
  · cases hshows

/-- A command of a request leaves what it relies on true, or commits. -/
theorem Informed.exec (h : Informed w φ) (hphased : Phased env w φ) (hcore : Core env w φ)
    (hscoped : Scoped env w) {i : ι} {fault : Option String} {id : ℕ} {request : Request}
    {trail : List Exchange} {c : Cmd} {k : c.Reply → Program Response} {r : c.Reply}
    {store : Store ι} {ψ : Phase} (htask : w.tasks i = some ⟨id, request, trail, .call c k⟩)
    (herrand : Task.OnErrand env.dungeonConfig ⟨id, request, ⟨c, r⟩ :: trail, k r⟩)
    (hp : w.store.Performed i fault c r store) (hadv : Advance env.dungeonConfig (φ i) c r ψ)
    {p : ℤ} {profile : PlayerProfile} (hlock : ψ.lock = some p) (hdone : ψ.done = none)
    (hshown : shownProfile (⟨c, r⟩ :: trail) = some profile) :
    ((Query.profile p).rows w.store.mysql.tables).head? = some profile := by
  have hbefore := hadv.done_eq_none hdone
  rw [shownProfile] at hshown
  split at hshown
  · cases hshown
  rename_i hacquires
  have hheld : (φ i).lock = some p := by
    cases hadv.lockStep hp with
    | keep lock => exact lock.symm.trans hlock
    | acquire => exact absurd rfl hacquires
    | release before after => rw [after] at hlock; cases hlock
  rcases hshows : Exchange.showsProfile ⟨c, r⟩ with _ | profile'
  · rw [hshows] at hshown
    exact h i _ p profile htask hheld hbefore hshown
  · rw [hshows] at hshown
    obtain rfl : profile' = profile := Option.some.inj hshown
    exact head_of_shows hp herrand (hphased.path i _ htask) (hcore.txn i)
      (hscoped.lock hphased htask hheld) hshows

theorem Informed.step (h : Informed w φ) (hphased : Phased env w φ) (hcore : Core env w φ)
    (hexclusive : Exclusive w φ) (hscoped : Scoped env w)
    (herrands : ∀ i task, w'.tasks i = some task → task.OnErrand env.dungeonConfig)
    (hmove : Moves env w φ l w' φ') (hstep : TableStep env.dungeonConfig w w' φ φ' l) :
    Informed w' φ' := by
  rcases hstep with ⟨htables, -⟩ | ⟨rfl, -, hbefore, hafter, htransacts, -⟩
  · intro j task p profile hj hlock hdone hshown
    rw [htables]
    cases hmove with
    | start idle =>
      rcases some_of_update hj with ⟨-, heq⟩ | ⟨-, hj⟩
      · obtain rfl := Option.some.inj heq
        cases hshown
      · exact h j task p profile hj hlock hdone hshown
    | exec htask performed advance =>
      rcases some_of_update hj with ⟨rfl, heq⟩ | ⟨hne, hj'⟩
      · have herrand := herrands j task hj
        obtain rfl := Option.some.inj heq
        rw [Function.update_self] at hlock hdone
        exact h.exec hphased hcore hscoped htask herrand performed advance hlock hdone hshown
      · rw [Function.update_of_ne hne] at hlock hdone
        exact h j task p profile hj' hlock hdone hshown
    | finish | crash =>
      rcases some_of_update hj with ⟨-, heq⟩ | ⟨hne, hj⟩
      · cases heq
      · rw [Function.update_of_ne hne] at hlock hdone
        exact h j task p profile hj hlock hdone hshown
    | tick | evict => exact h j task p profile hj hlock hdone hshown
  · rename_i i fault deed
    intro j task p profile hj hlock hdone hshown
    rw [hafter] at hlock hdone
    by_cases hji : j = i
    · subst hji
      rw [Function.update_self] at hdone
      cases hdone
    · rw [Function.update_of_ne hji] at hlock hdone
      have hj' : w.tasks j = some task := by
        cases hmove with
        | exec htask performed advance =>
          exact (Function.update_of_ne hji ..).symm.trans hj
      exact h.commit hexclusive (congrArg Phase.lock hbefore) htransacts hji hj' hlock hdone hshown

/-- What requests have committed is what they ask for. -/
def AsAsked (cfg : DungeonConfig) (w : World ι) (φ : ι → Phase) : Prop :=
  ∀ i task deed, w.tasks i = some task → (φ i).done = some deed → task.request.Asks cfg deed

omit [DecidableEq ι] in
theorem AsAsked.init : AsAsked cfg w fun _ => .outside := by
  intro i task deed _ hdone
  cases hdone

theorem AsAsked.step (h : AsAsked env.dungeonConfig w φ) (hphased : Phased env w φ)
    (hcore : Core env w φ) (hscoped : Scoped env w)
    (herrands : ∀ i task, w.tasks i = some task → task.OnErrand env.dungeonConfig)
    (hmove : Moves env w φ l w' φ') : AsAsked env.dungeonConfig w' φ' := by
  intro j task deed hj hdone
  cases hmove with
  | start idle =>
    rcases some_of_update hj with ⟨rfl, -⟩ | ⟨-, hj⟩
    · rw [hphased.idle j idle] at hdone
      cases hdone
    · exact h j task deed hj hdone
  | exec htask performed advance =>
    rcases some_of_update hj with ⟨rfl, heq⟩ | ⟨hne, hj⟩
    · obtain rfl := Option.some.inj heq
      rw [Function.update_self] at hdone
      rcases advance.done hdone with hbefore | ⟨done, hwriting, -⟩
      · have hasks := h j _ deed htask hbefore
        exact hasks
      · -- the commit, for which all of the plan was written
        have hknows := hcore.knows j
        have hpath := hphased.path j _ htask
        rw [hwriting] at hknows hpath
        obtain rfl : done = deed.plan env.dungeonConfig := by simpa using hknows.2
        have hlocks := hscoped.lock hphased htask (p := deed.player) (by rw [hwriting]; rfl)
        have hasks := (herrands j _ htask).asks (by simp [hlocks]) hpath
        exact hasks
    · rw [Function.update_of_ne hne] at hdone
      exact h j task deed hj hdone
  | finish | crash =>
    rcases some_of_update hj with ⟨-, heq⟩ | ⟨hne, hj⟩
    · cases heq
    · rw [Function.update_of_ne hne] at hdone
      exact h j task deed hj hdone
  | tick | evict => exact h j task deed hj hdone

/-! ## The simulation -/

/-- What can be seen of an event from outside. -/
def Event.interaction : Event → Option (Interaction ℕ Request Response)
  | .start id request => some (.call id request)
  | .call _ _ _ => none
  | .finish id request response => some (.ret id request response)
  | .stop id => some (.stop id)

/-- The history as seen from outside. -/
abbrev observed (history : List Event) : List (Interaction ℕ Request Response) :=
  history.filterMap Event.interaction

theorem mem_observed_call {history : List Event} {id : ℕ} {request : Request} :
    .call id request ∈ observed history ↔ .start id request ∈ history := by
  rw [List.mem_filterMap]
  constructor
  · rintro ⟨e, he, heq⟩
    cases e with
    | start id request => cases heq; exact he
    | _ => cases heq
  · exact fun h => ⟨_, h, rfl⟩

theorem mem_observed_ret {history : List Event} {id : ℕ} {request : Request}
    {response : Response} :
    .ret id request response ∈ observed history ↔ .finish id request response ∈ history := by
  rw [List.mem_filterMap]
  constructor
  · rintro ⟨e, he, heq⟩
    cases e with
    | finish id request response => cases heq; exact he
    | _ => cases heq
  · exact fun h => ⟨_, h, rfl⟩

/-- Where a request in a phase stands. -/
def Task.standing (cfg : DungeonConfig) (task : Task) (φ : Phase) : Standing Request Response :=
  match φ.done with
  | none => .called task.request
  | some deed => .served task.request (deed.answer cfg (shownProfile task.trail))

section Standing

variable {task : Task} {ψ : Phase} {deed : Deed}

theorem Task.standing_of_none (h : ψ.done = none) :
    task.standing cfg ψ = .called task.request := by
  rw [Task.standing, h]

theorem Task.standing_of_some (h : ψ.done = some deed) : task.standing cfg ψ =
    .served task.request (deed.answer cfg (shownProfile task.trail)) := by
  rw [Task.standing, h]

theorem Task.standing_ne_idle : task.standing cfg ψ ≠ .idle := by
  rw [Task.standing]
  split
  · nofun
  · nofun

end Standing

/-- The backend and the object. -/
structure Mirrored (cfg : DungeonConfig) (w : World ι) (φ : ι → Phase)
    (a : Atomic ℕ Request Response (Game ι)) : Prop where
  object : a.object = w.store.game
  running : ∀ i task, w.tasks i = some task → a.standing task.id = task.standing cfg (φ i)
  unused : ∀ id, w.history.length ≤ id → a.standing id = .idle

/-- The history so far is one of the object, which is where the backend is. -/
def Linear (cfg : DungeonConfig) (g₀ : Game ι) (w : World ι) (φ : ι → Phase) : Prop :=
  ∃ a, Trace Atomic.Acts (Atomic.Works (Game.Judges cfg) Game.Drifts) (.rest g₀)
    (observed w.history) a ∧ Mirrored cfg w φ a

section Simulation

variable {g₀ : Game ι} {a : Atomic ℕ Request Response (Game ι)}

omit [DecidableEq ι] in
theorem Linear.init (hw₀ : w₀.Fresh) : Linear cfg w₀.store.game w₀ fun _ => .outside := by
  refine ⟨.rest w₀.store.game, ?_, rfl, fun i task hi => ?_, fun _ _ => rfl⟩
  · rw [hw₀.history]
    exact .nil
  · rw [hw₀.tasks i] at hi
    cases hi

omit [DecidableEq ι] in
/-- The object may drift to where the backend is. -/
theorem Linear.of_drift
    (htrace : Trace Atomic.Acts (Atomic.Works (Game.Judges cfg) Game.Drifts) (.rest g₀)
      (observed w.history) a) (hdrift : a.object.Drifts w.store.game)
    (hrunning : ∀ i task, w.tasks i = some task → a.standing task.id = task.standing cfg (φ i))
    (hunused : ∀ id, w.history.length ≤ id → a.standing id = .idle) : Linear cfg g₀ w φ :=
  ⟨{ a with object := w.store.game }, htrace.quiet (.drift hdrift), rfl, hrunning, hunused⟩

omit [DecidableEq ι] in
/-- A request that stands somewhere else leaves the others where they are. -/
theorem Mirrored.others (h : Mirrored cfg w φ a) (hrecorded : Recorded w) {i : ι} {task : Task}
    (hi : w.tasks i = some task) {x : Standing Request Response} {j : ι} {task' : Task}
    (hji : j ≠ i) (hj : w.tasks j = some task') :
    (a.put task.id x).standing task'.id = task'.standing cfg (φ j) := by
  rw [Atomic.put_ne]
  · exact h.running j task' hj
  · exact fun heq => hji (hrecorded.distinct j i task' task hj hi heq)

/-- A request arrives. -/
theorem Linear.start (h : Linear cfg g₀ w φ) (hphased : Phased env w φ) (hrecorded : Recorded w)
    {i : ι} {request : Request} (idle : w.tasks i = none) :
    Linear cfg g₀ { w with
      tasks := Function.update w.tasks i
        (some ⟨w.history.length, request, [], serve env request⟩)
      history := .start w.history.length request :: w.history } φ := by
  obtain ⟨a, htrace, hmirrored⟩ := h
  refine .of_drift (htrace.act (.call (hmirrored.unused _ le_rfl))) ?_ ?_ ?_
  · rw [Atomic.put_object, hmirrored.object]
    exact Store.drifts_of_tables rfl
  · intro j task hj
    rcases some_of_update hj with ⟨rfl, heq⟩ | ⟨-, hj⟩
    · obtain rfl := Option.some.inj heq
      rw [Atomic.put_self, Task.standing_of_none]
      rw [hphased.idle j idle]
      rfl
    · rw [Atomic.put_ne (hrecorded.given j task hj).ne]
      exact hmirrored.running j task hj
  · intro id hid
    have hlt : w.history.length < id := hid
    exact (Atomic.put_ne hlt.ne').trans (hmirrored.unused id hlt.le)

/-- A command that commits nothing. -/
theorem Linear.exec (h : Linear cfg g₀ w φ) (hphased : Phased env w φ)
    (hasked : AsAsked env.dungeonConfig w φ) {i : ι} {id : ℕ} {request : Request}
    {trail : List Exchange} {c : Cmd} {k : c.Reply → Program Response} {r : c.Reply}
    {store : Store ι} {ψ : Phase} {time : ℕ}
    (htask : w.tasks i = some ⟨id, request, trail, .call c k⟩)
    (herrand : Task.OnErrand env.dungeonConfig ⟨id, request, ⟨c, r⟩ :: trail, k r⟩)
    (htables : store.mysql.tables = w.store.mysql.tables) (hdone : ψ.done = (φ i).done) :
    Linear cfg g₀ {
      store := store
      tasks := Function.update w.tasks i (some ⟨id, request, ⟨c, r⟩ :: trail, k r⟩)
      history := .call id ⟨c, r⟩ time :: w.history } (Function.update φ i ψ) := by
  obtain ⟨a, htrace, hmirrored⟩ := h
  refine .of_drift htrace ?_ ?_ fun id' hid => hmirrored.unused id' (Nat.le_of_succ_le hid)
  · rw [hmirrored.object]
    exact Store.drifts_of_tables htables
  · intro j task hj
    rcases some_of_update hj with ⟨rfl, heq⟩ | ⟨hne, hj⟩
    · obtain rfl := Option.some.inj heq
      have hstanding := hmirrored.running j _ htask
      rw [Function.update_self]
      rcases hbefore : (φ j).done with _ | deed
      · rw [Task.standing_of_none (hdone.trans hbefore)]
        rwa [Task.standing_of_none hbefore] at hstanding
      · have hasks := hasked j _ deed htask hbefore
        rw [Task.standing_of_some (hdone.trans hbefore),
          herrand.shownProfile_call hasks.locks (hphased.path j _ htask)
            (Phase.begun_of_done hbefore)]
        rwa [Task.standing_of_some hbefore] at hstanding
    · rw [Function.update_of_ne hne]
      exact hmirrored.running j task hj

/-- The request commits and is judged. -/
theorem Linear.commit (h : Linear cfg g₀ w φ) (hrecorded : Recorded w) {i : ι} {id : ℕ}
    {request : Request} {trail : List Exchange} {r : Except String Unit}
    {rest rest' : Program Response} {store : Store ι} {deed : Deed} {time : ℕ} {g : Game ι}
    (htask : w.tasks i = some ⟨id, request, trail, rest⟩) (hbefore : (φ i).done = none)
    (hjudges : Game.Judges cfg w.store.game (request, deed.answer cfg (shownProfile trail)) g)
    (hdrifts : g.Drifts store.game) :
    Linear cfg g₀ {
      store := store
      tasks := Function.update w.tasks i
        (some ⟨id, request, ⟨.sql .commit, r⟩ :: trail, rest'⟩)
      history := .call id ⟨.sql .commit, r⟩ time :: w.history }
      (Function.update φ i (.committed deed)) := by
  obtain ⟨a, htrace, hmirrored⟩ := h
  have hcalled : a.standing id = .called request := by
    have hstanding := hmirrored.running i _ htask
    rwa [Task.standing_of_none hbefore] at hstanding
  refine .of_drift (htrace.quiet (.serve hcalled (hmirrored.object ▸ hjudges))) hdrifts ?_ ?_
  · intro j task hj
    rcases some_of_update hj with ⟨rfl, heq⟩ | ⟨hne, hj⟩
    · obtain rfl := Option.some.inj heq
      rw [Function.update_self, Task.standing_of_some rfl, Atomic.put_self,
        shownProfile_skip rfl rfl]
    · rw [Function.update_of_ne hne]
      exact hmirrored.others hrecorded htask hne hj
  · intro id' hid
    have hlt : id < w.history.length := hrecorded.given i _ htask
    have hle : w.history.length < id' := hid
    exact (Atomic.put_ne (by omega)).trans (hmirrored.unused id' hle.le)

omit [DecidableEq ι] in
theorem Ends.grants {request : Request} {response : Response} {ψ : Phase}
    (h : Ends cfg request response ψ) (hdone : ψ.done = none) : response.grants = false := by
  cases request with
  | enterDungeon request =>
    cases response with
    | enterDungeon response =>
      rw [Response.grants, Bool.eq_false_iff]
      intro hsuccess
      rw [h.1 hsuccess] at hdone
      cases hdone
    | _ => exact h.elim
  | settleDungeon request =>
    cases response with
    | settleDungeon response =>
      rw [Response.grants, Bool.eq_false_iff]
      intro hsuccess
      rw [h.1 hsuccess] at hdone
      cases hdone
    | _ => exact h.elim
  | _ =>
    cases response with
    | enterDungeon | settleDungeon => exact h.elim
    | _ => rfl

/-- The process of a request goes back to rest. -/
theorem Mirrored.rest (h : Mirrored cfg w φ a) (hrecorded : Recorded w) {i : ι} {task : Task}
    (hi : w.tasks i = some task) {store : Store ι} {history : List Event}
    {a' : Atomic ℕ Request Response (Game ι)}
    (htables : store.mysql.tables = w.store.mysql.tables)
    (hlength : w.history.length ≤ history.length)
    (htrace : Trace Atomic.Acts (Atomic.Works (Game.Judges cfg) Game.Drifts) (.rest g₀)
      (observed history) a') (hobject : a'.object = a.object)
    (hothers : ∀ n, n ≠ task.id → a'.standing n = a.standing n) :
    Linear cfg g₀ ⟨store, Function.update w.tasks i none, history⟩
      (Function.update φ i .outside) := by
  refine .of_drift htrace ?_ ?_ ?_
  · rw [hobject, h.object]
    exact Store.drifts_of_tables htables
  · intro j task' hj
    rcases some_of_update hj with ⟨-, heq⟩ | ⟨hne, hj⟩
    · cases heq
    · rw [Function.update_of_ne hne, hothers]
      · exact h.running j task' hj
      · exact fun heq => hne (hrecorded.distinct j i task' task hj hi heq)
  · intro id hid
    have hlt : task.id < w.history.length := hrecorded.given i _ hi
    have hle : history.length ≤ id := hid
    rw [hothers id (by omega)]
    exact h.unused id (by omega)

/-- A request returns: what it was judged when it committed, or else that it is refused. -/
theorem Linear.finish (h : Linear env.dungeonConfig g₀ w φ) (hrecorded : Recorded w)
    (hasked : AsAsked env.dungeonConfig w φ) {i : ι} {id : ℕ} {request : Request}
    {trail : List Exchange} {response : Response}
    (htask : w.tasks i = some ⟨id, request, trail, .ret response⟩)
    (herrand : Task.OnErrand env.dungeonConfig ⟨id, request, trail, .ret response⟩)
    (hends : Ends env.dungeonConfig request response (φ i)) :
    Linear env.dungeonConfig g₀ { w with
      tasks := Function.update w.tasks i none
      history := .finish id request response :: w.history } (Function.update φ i .outside) := by
  obtain ⟨a, htrace, hmirrored⟩ := h
  have hstanding := hmirrored.running i _ htask
  rcases hdone : (φ i).done with _ | deed
  · rw [Task.standing_of_none hdone] at hstanding
    have hjudged := htrace.quiet (.serve hstanding (.pass (hends.grants hdone)))
    refine hmirrored.rest hrecorded htask rfl (Nat.le_succ _)
      (hjudged.act (.ret Atomic.put_self)) rfl fun n hn => ?_
    rw [Atomic.put_ne hn, Atomic.put_ne hn]
  · have hasks := hasked i _ deed htask hdone
    have hresponse := herrand.answered hasks hends hdone
    rw [Task.standing_of_some hdone, ← hresponse] at hstanding
    exact hmirrored.rest hrecorded htask rfl (Nat.le_succ _) (htrace.act (.ret hstanding)) rfl
      fun n hn => Atomic.put_ne hn

/-- A process stops or is restarted. -/
theorem Linear.crash (h : Linear cfg g₀ w φ) (hrecorded : Recorded w) {i : ι}
    {history : List Event} (hnoted : history = w.history ∨
      ∃ task, w.tasks i = some task ∧ history = .stop task.id :: w.history)
    (htables : (w.store.crash i).mysql.tables = w.store.mysql.tables) :
    Linear cfg g₀ {
      store := w.store.crash i
      tasks := Function.update w.tasks i none
      history := history } (Function.update φ i .outside) := by
  obtain ⟨a, htrace, hmirrored⟩ := h
  obtain rfl | ⟨task, htask, rfl⟩ := hnoted
  · refine .of_drift htrace ?_ ?_ hmirrored.unused
    · rw [hmirrored.object]
      exact Store.drifts_of_tables htables
    · intro j task hj
      rcases some_of_update hj with ⟨-, heq⟩ | ⟨hne, hj⟩
      · cases heq
      · rw [Function.update_of_ne hne]
        exact hmirrored.running j task hj
  · have hstop : a.standing task.id ≠ .idle := by
      rw [hmirrored.running i task htask]
      exact Task.standing_ne_idle
    exact hmirrored.rest hrecorded htask htables (Nat.le_succ _) (htrace.act (.stop hstop)) rfl
      fun n hn => Atomic.put_ne hn

end Simulation

/-! ## Every run -/

/-- The step `l` keeps what guards the writes: no player lock disappears while a request is inside
of it, and neither the checks under the lock nor a `ROLLBACK` fail. -/
structure KeepsGuards (w : World ι) (l : Label ι) : Prop where
  rollback : ¬w.Fails l (.sql .rollback)
  pending : ∀ p, ¬w.Fails l (.sql (.select (.pendingBattle p)))
  firstClear : ∀ p d, ¬w.Fails l (.sql (.select (.firstClear p d)))
  locks : KeepsLocks w l

/-- What the simulation rests on. -/
structure Serial (env : Env) (g₀ : Game ι) (w : World ι) (φ : ι → Phase) : Prop where
  exclusive : Exclusive w φ
  honest : ∀ i, (φ i).Honest w.store.mysql.tables
  onePending : OnePending w.store.mysql.tables φ
  asked : AsAsked env.dungeonConfig w φ
  informed : Informed w φ
  linear : Linear env.dungeonConfig g₀ w φ

/-- Every move keeps the requests on their errands. -/
theorem onErrand_step (h : ∀ i task, w.tasks i = some task → task.OnErrand env.dungeonConfig)
    (hmove : Moves env w φ l w' φ') :
    ∀ i task, w'.tasks i = some task → task.OnErrand env.dungeonConfig := by
  intro j task hj
  cases hmove with
  | start idle =>
    rcases some_of_update hj with ⟨-, heq⟩ | ⟨-, hj⟩
    · exact Option.some.inj heq ▸ Task.onErrand_start env _ _
    · exact h j task hj
  | exec htask performed advance =>
    rcases some_of_update hj with ⟨-, heq⟩ | ⟨-, hj⟩
    · obtain rfl := Option.some.inj heq
      exact (h _ _ htask).call (Store.plausible_of_perform performed.perform)
    · exact h j task hj
  | finish | crash =>
    rcases some_of_update hj with ⟨-, heq⟩ | ⟨-, hj⟩
    · cases heq
    · exact h j task hj
  | tick | evict => exact h j task hj

omit [DecidableEq ι] in
/-- Who has passed the check for a pending battle is inside of the player lock, and so alone. -/
theorem Exclusive.commitsAlone (h : Exclusive w φ) (hphased : Phased env w φ) :
    CommitsAlone w l := by
  have hlock : ∀ {ψ : Phase} {p : ℤ}, ψ.pendingPassed = some p → ψ.lock = some p := by
    intro ψ p hp
    cases ψ with
    | writing deed done todo =>
      cases deed with
      | enter row => exact hp
      | settle s => cases hp
    | _ => cases hp
  cases l with
  | exec i fault =>
    intro _ hne j heq
    rw [hphased.passedCheck, hphased.passedCheck] at heq
    rw [hphased.passedCheck] at hne
    obtain ⟨p, hp⟩ := Option.ne_none_iff_exists'.mp hne
    exact h.unique j i p (hlock (heq.trans hp)) (hlock hp)
  | _ => trivial

/-- A command after which the tables are the same has committed nothing. -/
theorem done_of_quiet {i : ι} {fault : Option String} {c : Cmd} {r : c.Reply} {store : Store ι}
    {ψ : Phase} (hcore : Core env w φ) (performed : w.store.Performed i fault c r store)
    (advance : Advance env.dungeonConfig (φ i) c r ψ)
    (hbinlog : store.mysql.binlog = w.store.mysql.binlog) : ψ.done = (φ i).done := by
  rcases hψ : ψ.done with _ | deed
  · exact (advance.done_eq_none hψ).symm
  rcases advance.done hψ with hdone | ⟨done, hwriting, heq⟩
  · exact hdone.symm
  · cases heq
    have htxn := hcore.txn i
    rw [hwriting] at htxn
    rw [performed.binlog_commit htxn] at hbinlog
    exact absurd hbinlog (List.cons_ne_self _ _)

omit [DecidableEq ι] in
/-- The commit of a request is what the game judges it to be. -/
theorem Serial.judges {g₀ : Game ι} (h : Serial env g₀ w φ) (hphased : Phased env w φ)
    {i : ι} {task : Task} {deed : Deed} {store : Store ι}
    (htask : w.tasks i = some task) (herrand : task.OnErrand env.dungeonConfig)
    (hasks : task.request.Asks env.dungeonConfig deed)
    (hbefore : φ i = .writing deed (deed.plan env.dungeonConfig) [])
    (htransacts : Transacts env.dungeonConfig deed w.store.mysql.tables store.mysql.tables) :
    ∃ g, Game.Judges env.dungeonConfig w.store.game
        (task.request, deed.answer env.dungeonConfig (shownProfile task.trail)) g ∧
      g.Drifts store.game := by
  obtain ⟨id, request, trail, rest⟩ := task
  have haffords := herrand.affords hasks.locks (hphased.path i _ htask)
    (φ := φ i) (by rw [hbefore]; rfl)
  cases deed with
  | enter row =>
    cases hasks with
    | enter dungeon =>
      refine judges_enter dungeon haffords (fun profile hread => ?_) ?_ htransacts
      · exact h.informed i _ _ profile htask (by rw [hbefore]; rfl) (by rw [hbefore]; rfl) hread
      · exact h.onePending.passed i _ (by rw [hbefore]; rfl)
  | settle s =>
    have hhonest := h.honest i
    rw [hbefore] at hhonest
    have hasks' := hasks
    cases hasks with
    | settle result dungeon star => exact judges_settle hasks' hhonest htransacts

theorem Serial.step {g₀ : Game ι} (h : Serial env g₀ w φ) (hphased : Phased env w φ)
    (hcore : Core env w φ) (hrecorded : Recorded w) (hscoped : Scoped env w)
    (herrands : ∀ i task, w.tasks i = some task → task.OnErrand env.dungeonConfig)
    (hguards : KeepsGuards w l) (hmove : Moves env w φ l w' φ')
    (hstep : TableStep env.dungeonConfig w w' φ φ' l) : Serial env g₀ w' φ' := by
  have herrands' := onErrand_step herrands hmove
  have hasked := h.asked.step hphased hcore hscoped herrands hmove
  refine ⟨h.exclusive.step hphased hguards.locks hmove, ?_, ?_, hasked, ?_, ?_⟩
  · exact honest_step hcore h.exclusive hguards.firstClear h.honest hmove hstep
  · exact h.onePending.step hphased hcore (fun p hp => absurd hp (hguards.pending p))
      (h.exclusive.commitsAlone hphased) hmove hstep
  · exact h.informed.step hphased hcore h.exclusive hscoped herrands' hmove hstep
  · cases hmove with
    | start idle => exact h.linear.start hphased hrecorded idle
    | finish htask ends => exact h.linear.finish hrecorded h.asked htask (herrands _ _ htask) ends
    | crash noted =>
      rcases hstep with ⟨htables, -⟩ | ⟨hlabel, -⟩
      · exact h.linear.crash hrecorded noted htables
      · cases hlabel
    | tick =>
      obtain ⟨a, htrace, hmirrored⟩ := h.linear
      exact .of_drift htrace (hmirrored.object ▸ Store.drifts_of_tables rfl) hmirrored.running
        hmirrored.unused
    | evict =>
      obtain ⟨a, htrace, hmirrored⟩ := h.linear
      exact .of_drift htrace (hmirrored.object ▸ Store.drifts_of_tables rfl) hmirrored.running
        hmirrored.unused
    | exec htask performed advance =>
      rename_i i fault id request trail c k r store ψ
      have htask' : Function.update w.tasks i (some ⟨id, request, ⟨c, r⟩ :: trail, k r⟩) i =
        some ⟨id, request, ⟨c, r⟩ :: trail, k r⟩ := Function.update_self ..
      rcases hstep with ⟨htables, hbinlog⟩ | ⟨hlabel, hnext, hbefore, hafter, htransacts, -⟩
      · exact h.linear.exec hphased h.asked htask (herrands' i _ htask') htables
          (done_of_quiet hcore performed advance hbinlog)
      · cases hlabel
        rename_i deed
        obtain rfl : ψ = .committed deed := by
          simpa using congrFun hafter i
        have hc : w.next i = some c := by rw [World.next, htask]
        obtain rfl : c = .sql .commit := Option.some.inj (hc.symm.trans hnext)
        have hasks := hasked i _ deed htask' (by rw [Function.update_self]; rfl)
        obtain ⟨g, hjudges, hdrifts⟩ := h.judges hphased htask (herrands i _ htask) hasks
          hbefore htransacts
        exact h.linear.commit hrecorded htask (by rw [hbefore]; rfl) hjudges hdrifts

/-- The simulation goes through in every run, and so the history is that of an atomic object. -/
theorem World.Run.linearizes (hw₀ : w₀.Fresh) (h : World.Run env KeepsGuards w₀ w) :
    ∃ order, Linearizes (Game.Judges env.dungeonConfig) Game.Drifts w₀.store.game
      (observed w.history) order w.store.game := by
  obtain ⟨φ, -, -, hserial⟩ : ∃ φ, Phased env w φ ∧ Core env w φ ∧
      Serial env w₀.store.game w φ := by
    refine h.core hw₀ (fun _ _ hok => hok.rollback)
      ⟨.init, fun _ => trivial, .init hw₀, .init, .init hw₀.tasks, .init hw₀⟩ ?_
    intro w φ l w' φ' hrun hphased hcore hserial hguards hmove _ hstep
    exact hserial.step hphased hcore (hrun.recorded hw₀) (hrun.scoped hw₀)
      (hrun.onErrand hw₀.tasks) hguards hmove hstep
  obtain ⟨a, htrace, hmirrored⟩ := hserial.linear
  rw [← hmirrored.object]
  exact Atomic.linearizes htrace

/-- **Requests served together.** In every run that starts fresh and keeps the guards, the history
that can be seen from outside is linearizable to the game, as far as entries and settlements
go. -/
theorem writes_linearize (hw₀ : w₀.Fresh) (h : World.Run env KeepsGuards w₀ w) :
    ∃ order, Linearizes (Game.Judges env.dungeonConfig) Game.Drifts w₀.store.game
      (observed w.history) order w.store.game :=
  h.linearizes hw₀

/-- Two entries interleave. One server stops right after its `COMMIT`; the battle of the other
one is settled. -/
def demoTogether : List (Label Bool) :=
  .start false (.enterDungeon ⟨"s", 20001, 1001⟩) ::
    .start true (.enterDungeon ⟨"t", 20002, 1001⟩) ::
    (List.replicate 10 [.exec false none, .exec true none]).flatten ++
    .crash false :: List.replicate 8 (.exec true none) ++ .finish true ::
    Label.alone false (.settleDungeon ⟨"t", 20002, "battle-20002-1001-1", 1001, 3, true⟩) 14

theorem KeepsGuards.of_quiet {w : World Bool} {l : Label Bool} (h : l.quiet = true) :
    KeepsGuards w l := by
  have hnot := Label.not_fails (w := w) (Label.faultless_of_quiet h)
  refine ⟨hnot _, fun p => hnot _, fun p d => hnot _, ?_⟩
  cases l with
  | tick | evict => cases h
  | _ => trivial

theorem writes_linearize_demo :
    ∃ w, World.Run demoEnv KeepsGuards demoWorld w ∧
      (observed w.history).length = 6 ∧ w.store.mysql.binlog.length = 3 ∧
      ∃ order, Linearizes (Game.Judges demoEnv.dungeonConfig) Game.Drifts demoWorld.store.game
        (observed w.history) order w.store.game := by
  have hrun : (replay (World.step demoEnv) (fun _ l => l.quiet) demoWorld demoTogether).any
      (fun w => (observed w.history).length = 6 ∧ w.store.mysql.binlog.length = 3) = true := by
    decide +kernel
  obtain ⟨w, hreach, hsize⟩ : ∃ w, World.Run demoEnv KeepsGuards demoWorld w ∧ _ = true :=
    Reach.of_replay_any (fun _ _ => KeepsGuards.of_quiet) hrun
  obtain ⟨hseen, hbinlog⟩ := of_decide_eq_true hsize
  exact ⟨w, hreach, hseen, hbinlog, writes_linearize demoWorld_fresh hreach⟩

end GameBackend
