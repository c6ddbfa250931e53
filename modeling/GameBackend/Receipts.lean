import GameBackend.Linearization

/-!
# What players are told

Consequences of `serves_the_game` and `writes_linearize` for those who only see requests and
responses.

* `receipts_balance` — the profile a player is shown is the first one, plus all rewards that
  were reported, minus the price of every entry that was granted; and one first clear at most
  was reported.
* `receipts_balance_together` — so it is with requests that interleave and processes that stop,
  up to what was served to requests that have not returned.
* `players_take_turns` — every player enters a battle, wins it, enters the next one and so on.
* `battle_pays` — a battle that a player was let into is on until it is settled: the player is
  refused the dungeon, and whenever they settle it they are told, and get, the rewards.

All are proved of the game, by what one act does.
-/

namespace GameBackend

variable {ι : Type} [DecidableEq ι] {env : Env} {cfg : DungeonConfig} {s s' s₀ : Store ι}
  {check : String → String → Bool} {lifetime : ℤ} {g g' g₀ : Game ι} {p : ℤ} {hero hero₀ : Hero}
  {e : Request × Response} {events : List (Request × Response)} {may : Game.Happening ι → Prop}

/-! ## Receipts -/

/-- The rewards of one kind, added up. -/
def amountOf (kind : String) (rewards : List Reward) : ℤ :=
  ((rewards.filter fun reward => reward.rewardType = kind).map Reward.amount).sum

/-- The rewards that an answer reports to player `p`. -/
def rewardsTo (p : ℤ) : Request × Response → List Reward
  | (.settleDungeon request, .settleDungeon response) =>
    if request.playerId = p ∧ response.success = true then response.rewards else []
  | _ => []

/-- The answer lets player `p` into the dungeon. -/
def entersFor (p : ℤ) : Request × Response → Bool
  | (.enterDungeon request, .enterDungeon response) =>
    request.playerId = p ∧ response.success = true
  | _ => false

/-- The answer reports a first clear to player `p`. -/
def firstClearFor (p : ℤ) : Request × Response → Bool
  | (.settleDungeon request, .settleDungeon response) =>
    request.playerId = p ∧ response.success = true ∧ response.firstClear = true
  | _ => false

/-- What player `p` was told they have received. -/
def received (kind : String) (p : ℤ) (events : List (Request × Response)) : ℤ :=
  (events.map fun e => amountOf kind (rewardsTo p e)).sum

/-- How often player `p` was let into the dungeon. -/
def entries (p : ℤ) (events : List (Request × Response)) : ℕ := events.countP (entersFor p)

/-- How often player `p` was told of a first clear. -/
def firstClears (p : ℤ) (events : List (Request × Response)) : ℕ :=
  events.countP (firstClearFor p)

/-! ## The balance of a hero -/

/-- The hero has what they had, what they were told they have received, and not what they
have paid. -/
structure Balances (cfg : DungeonConfig) (p : ℤ) (hero₀ : Hero)
    (events : List (Request × Response)) (hero : Hero) : Prop where
  profile : hero.profile = { hero₀.profile with
    stamina := hero₀.profile.stamina - entries p events * cfg.costStamina
    gold := hero₀.profile.gold + received "gold" p events
    diamond := hero₀.profile.diamond + received "diamond" p events }
  firstClears : firstClears p events =
    if hero₀.Novice cfg = true ∧ hero.Novice cfg = false then 1 else 0
  novice : hero.Novice cfg = true → hero₀.Novice cfg = true

theorem Balances.refl (cfg : DungeonConfig) (p : ℤ) (hero : Hero) :
    Balances cfg p hero [] hero where
  profile := by simp [entries, received]
  firstClears := by
    rw [if_neg]
    · rfl
    · rintro ⟨h, h'⟩
      exact Bool.false_ne_true (h'.symm.trans h)
  novice := id

/-- An answer that is no receipt of the player. -/
theorem Balances.keep (h : Balances cfg p hero₀ events hero) (hrewards : rewardsTo p e = [])
    (henters : entersFor p e = false) (hfirst : firstClearFor p e = false) :
    Balances cfg p hero₀ (e :: events) hero where
  profile := by
    rw [h.profile]
    simp [entries, received, hrewards, henters, amountOf]
  firstClears := by
    rw [← h.firstClears]
    simp [GameBackend.firstClears, hfirst]
  novice := h.novice

/-- The player is let into the dungeon and pays. -/
theorem Balances.spend (h : Balances cfg p hero₀ events hero) (hrewards : rewardsTo p e = [])
    (henters : entersFor p e = true) (hfirst : firstClearFor p e = false) :
    Balances cfg p hero₀ (e :: events) (hero.spend cfg) where
  profile := by
    rw [Hero.spend, h.profile]
    simp only [entries, received, henters, hrewards, List.countP_cons, List.map_cons,
      List.sum_cons, PlayerProfile.mk.injEq, true_and, amountOf, List.filter_nil, List.map_nil,
      List.sum_nil, zero_add, and_true, if_true]
    push_cast
    ring
  firstClears := by
    have hnovice : (hero.spend cfg).Novice cfg = hero.Novice cfg := rfl
    rw [hnovice, ← h.firstClears]
    simp [GameBackend.firstClears, hfirst]
  novice := h.novice

/-- The player is told of the rewards and gets them. -/
theorem Balances.clear (h : Balances cfg p hero₀ events hero) {star : ℤ}
    (hrewards : rewardsTo p e = hero.rewards cfg) (henters : entersFor p e = false)
    (hfirst : firstClearFor p e = hero.Novice cfg) :
    Balances cfg p hero₀ (e :: events) (hero.clear cfg star) where
  profile := by
    have hgold : amountOf "gold" (hero.rewards cfg) = cfg.normalGoldReward := by
      rw [amountOf, Hero.rewards]
      cases hero.Novice cfg with
      | true => simp
      | false => simp
    have hdiamond : amountOf "diamond" (hero.rewards cfg) = hero.bonus cfg := by
      rw [amountOf, Hero.rewards, Hero.bonus]
      cases hero.Novice cfg with
      | true => simp
      | false => simp
    rw [Hero.clear, h.profile]
    simp only [entries, received, henters, hrewards, hgold, hdiamond, List.countP_cons,
      List.map_cons, List.sum_cons, PlayerProfile.mk.injEq, true_and, Bool.false_eq_true,
      if_false, add_zero]
    exact ⟨by ring, by ring⟩
  firstClears := by
    have hcleared : (hero.clear cfg star).Novice cfg = false := by
      simp [Hero.Novice, Hero.clear]
    have hbefore := h.firstClears
    rw [hcleared]
    rw [GameBackend.firstClears, List.countP_cons, hfirst, ← GameBackend.firstClears, hbefore]
    cases hnovice : hero.Novice cfg with
    | true => simp [h.novice hnovice]
    | false => simp
  novice hnovice := by
    simp [Hero.Novice, Hero.clear] at hnovice

/-- **One act** keeps the balance of every hero. -/
theorem Balances.act (h : Balances cfg p hero₀ events hero) (hhero : g.hero p = some hero)
    (hserves : Game.Serves cfg check lifetime g e g') :
    ∃ hero', g'.hero p = some hero' ∧ Balances cfg p hero₀ (e :: events) hero' := by
  cases hserves with
  | login | noLogin | load | noLoad | restore | noRestore =>
    exact ⟨hero, hhero, h.keep rfl rfl rfl⟩
  | noEnter refused failed code | noBattle eligible refused failed code =>
    refine ⟨hero, hhero, h.keep rfl ?_ rfl⟩
    simp [entersFor, failed]
  | noSettle refused failed code =>
    refine ⟨hero, hhero, h.keep ?_ rfl ?_⟩
    · simp [rewardsTo, failed]
    · simp [firstClearFor, failed]
  | enter named code found success remains =>
    rename_i i request response hero'
    by_cases hp : request.playerId = p
    · subst hp
      obtain rfl := Option.some.inj (found.symm.trans hhero)
      refine ⟨_, ?_, h.spend rfl (by simp [entersFor, success]) rfl⟩
      simp [found]
    · refine ⟨hero, ?_, h.keep rfl (by simp [entersFor, hp]) rfl⟩
      rw [Game.draw_hero, Game.enter_hero_ne (Ne.symm hp), hhero]
  | settle code found success first rewards =>
    rename_i request response hero'
    by_cases hp : request.playerId = p
    · subst hp
      obtain rfl := Option.some.inj (found.symm.trans hhero)
      refine ⟨_, ?_, @Balances.clear _ _ _ _ _ _ h request.star ?_ rfl ?_⟩
      · simp [found]
      · simp [rewardsTo, success, rewards]
      · simp [firstClearFor, success, first]
    · refine ⟨hero, ?_, h.keep ?_ rfl ?_⟩
      · exact (Game.settle_hero_ne (Ne.symm hp)).trans hhero
      · simp [rewardsTo, hp]
      · simp [firstClearFor, hp]

omit [DecidableEq ι] in
/-- Whoever keeps the balances by acts, and the heroes otherwise, keeps the balances in every
run. -/
theorem Balances.run {act : Game ι → Request × Response → Game ι → Prop}
    {quiet : Game ι → Game ι → Prop}
    (hact : ∀ {events g hero e g'}, Balances cfg p hero₀ events hero → g.hero p = some hero →
      act g e g' → ∃ hero', g'.hero p = some hero' ∧ Balances cfg p hero₀ (e :: events) hero')
    (hquiet : ∀ {g g'}, quiet g g' → g'.hero = g.hero) (h₀ : g₀.hero p = some hero₀)
    (h : Trace act quiet g₀ events g) :
    ∃ hero, g.hero p = some hero ∧ Balances cfg p hero₀ events hero := by
  induction h with
  | nil => exact ⟨hero₀, h₀, .refl cfg p hero₀⟩
  | act before acts ih =>
    obtain ⟨hero, hhero, hbalances⟩ := ih
    exact hact hbalances hhero acts
  | quiet before steps ih =>
    obtain ⟨hero, hhero, hbalances⟩ := ih
    exact ⟨hero, hquiet steps ▸ hhero, hbalances⟩

/-- **Every run** of the game keeps the balance of every hero. -/
theorem Game.balances (h₀ : g₀.hero p = some hero₀)
    (h : Trace (Game.Serves cfg check lifetime) (Game.Fades may) g₀ events g) :
    ∃ hero, g.hero p = some hero ∧ Balances cfg p hero₀ events hero :=
  Balances.run Balances.act Fades.hero h₀ h

/-! ## What the backend tells -/

/-- **Receipts balance.** In every run of requests that come one after the other: the profile
that `LoadPlayer` shows a player is the one they began with, plus all rewards that responses
have reported to them, minus the price of the dungeon for every response that let them in; and
responses have reported at most one first clear to them, and none if they had cleared the
dungeon before. -/
theorem receipts_balance (hcost : 0 < env.dungeonConfig.costStamina) (h₀ : s₀.Opened env)
    (h : Trace (Store.Answers env) (Store.Idles may) s₀ events s) {request : LoadPlayerRequest}
    (hhero : s₀.game.hero request.playerId = some hero₀) {i : ι} {response : LoadPlayerResponse}
    (hload : s.serve env i (.loadPlayer request) (fun _ => none) =
      some (.loadPlayer response, s')) (hsuccess : response.success = true) :
    ∃ state, response.playerState = some state ∧
      state.profile = { hero₀.profile with
        stamina := hero₀.profile.stamina -
          entries request.playerId events * env.dungeonConfig.costStamina
        gold := hero₀.profile.gold + received "gold" request.playerId events
        diamond := hero₀.profile.diamond + received "diamond" request.playerId events } ∧
      firstClears request.playerId events ≤ if hero₀.Novice env.dungeonConfig then 1 else 0 := by
  obtain ⟨hservice, htrace⟩ := h₀.inService.simulates hcost h
  obtain ⟨hero, hfound, hbalances⟩ := Game.balances hhero htrace
  have hserves := hservice.serves_loadPlayer hload
  generalize s'.game = g' at hserves
  cases hserves with
  | noLoad refused failed code =>
    rw [failed] at hsuccess
    cases hsuccess
  | load code found shown =>
    obtain rfl := Option.some.inj (found.symm.trans hfound)
    refine ⟨_, rfl, shown.profile.trans hbalances.profile, ?_⟩
    rw [hbalances.firstClears]
    split
    · rename_i hfirst
      rw [if_pos hfirst.1]
    · exact Nat.zero_le _

/-- The demo player is shown what the round has left them. -/
theorem receipts_balance_demo :
    ∃ events s response s', Trace (Store.Answers demoEnv) (Store.Idles fun _ => True) emptyWorld.store events s ∧
      received "gold" 20001 events = 100 ∧ received "diamond" 20001 events = 50 ∧
      entries 20001 events = 1 ∧
      s.serve demoEnv false (.loadPlayer ⟨"sess-10001-20001-1", 20001⟩) (fun _ => none) =
        some (.loadPlayer response, s') ∧
      ∃ state, response.playerState = some state ∧ state.profile = ⟨20001, 10001, "hero_demo", 10,
        120 - entries 20001 events * 10, 1000 + received "gold" 20001 events,
        100 + received "diamond" 20001 events⟩ := by
  have hrun : (emptyWorld.store.play demoEnv true [] demoRound).any (fun r =>
      received "gold" 20001 r.1 = 100 ∧ received "diamond" 20001 r.1 = 50 ∧
      entries 20001 r.1 = 1 ∧
      ((r.2.serve demoEnv false (.loadPlayer ⟨"sess-10001-20001-1", 20001⟩) fun _ => none).any
        fun answer => answer.1 = .loadPlayer ⟨true, .ok, "", some
          ⟨⟨20001, 10001, "hero_demo", 10, 110, 1100, 150⟩, [⟨1001, 3, true⟩]⟩, false⟩) =
        true) = true := by
    decide +kernel
  obtain ⟨⟨events, s⟩, hplay, hround⟩ := (Option.any_eq_true _ _).mp hrun
  obtain ⟨hgold, hdiamond, hentries, hanswered⟩ := of_decide_eq_true hround
  obtain ⟨⟨answer, s'⟩, hload, hanswer⟩ := (Option.any_eq_true _ _).mp hanswered
  obtain rfl := of_decide_eq_true hanswer
  have htrace : Trace (Store.Answers demoEnv) (Store.Idles fun _ => True) emptyWorld.store
    events s := Trace.nil.play hplay
  have hhero : emptyWorld.store.game.hero 20001 =
    some ⟨⟨20001, 10001, "hero_demo", 10, 120, 1000, 100⟩, fun _ => none⟩ := rfl
  obtain ⟨state, hstate, hprofile, -⟩ :=
    receipts_balance (by decide) opened_emptyWorld htrace hhero hload rfl
  exact ⟨events, s, _, s', htrace, hgold, hdiamond, hentries, hload, state, hstate, hprofile⟩

/-! ## Requests that are served together -/

/-- The answer lets player `p` win. -/
def winsFor (p : ℤ) : Request × Response → Bool
  | (.settleDungeon request, .settleDungeon response) =>
    request.playerId = p ∧ response.success = true
  | _ => false

/-- An answer that grants nothing is nobody's receipt. -/
theorem no_receipt_of_refused (h : e.2.grants = false) (p : ℤ) :
    rewardsTo p e = [] ∧ entersFor p e = false ∧ firstClearFor p e = false ∧
      winsFor p e = false := by
  obtain ⟨request, response⟩ := e
  cases response with
  | enterDungeon response =>
    have hnot : response.success = false := h
    cases request <;> simp [rewardsTo, entersFor, firstClearFor, winsFor, hnot]
  | settleDungeon response =>
    have hnot : response.success = false := h
    cases request <;> simp [rewardsTo, entersFor, firstClearFor, winsFor, hnot]
  | _ => cases request <;> exact ⟨rfl, rfl, rfl, rfl⟩

omit [DecidableEq ι] in
/-- A judgement keeps the balance of every hero. -/
theorem Balances.judge (h : Balances cfg p hero₀ events hero) (hhero : g.hero p = some hero)
    (hjudges : Game.Judges cfg g e g') :
    ∃ hero', g'.hero p = some hero' ∧ Balances cfg p hero₀ (e :: events) hero' := by
  cases hjudges with
  | pass refused =>
    obtain ⟨hrewards, henters, hfirst, -⟩ := no_receipt_of_refused refused p
    exact ⟨hero, hhero, h.keep hrewards henters hfirst⟩
  | enter dungeon found level stamina idle new =>
    rename_i request battleId hero'
    by_cases hp : request.playerId = p
    · subst hp
      obtain rfl := Option.some.inj (found.symm.trans hhero)
      refine ⟨_, ?_, h.spend rfl (by simp [entersFor]) rfl⟩
      simp [found]
    · refine ⟨hero, ?_, h.keep rfl (by simp [entersFor, hp]) rfl⟩
      exact (Game.enter_hero_ne (Ne.symm hp)).trans hhero
  | settle result star on found =>
    rename_i request hero'
    by_cases hp : request.playerId = p
    · subst hp
      obtain rfl := Option.some.inj (found.symm.trans hhero)
      refine ⟨_, ?_, @Balances.clear _ _ _ _ _ _ h request.star ?_ rfl ?_⟩
      · simp [found]
      · simp [rewardsTo]
      · simp [firstClearFor]
    · refine ⟨hero, ?_, h.keep ?_ rfl ?_⟩
      · exact (Game.settle_hero_ne (Ne.symm hp)).trans hhero
      · simp [rewardsTo, hp]
      · simp [firstClearFor, hp]

/-- The balance does not depend on the order of the answers. -/
theorem Balances.perm (h : Balances cfg p hero₀ events hero)
    {events' : List (Request × Response)} (hperm : events.Perm events') :
    Balances cfg p hero₀ events' hero where
  profile := by
    have hreceived : ∀ kind, received kind p events = received kind p events' := fun kind =>
      (hperm.map _).sum_eq
    have hentries : entries p events = entries p events' := hperm.countP_eq _
    rw [h.profile, hreceived, hreceived, hentries]
  firstClears := by
    rw [← h.firstClears]
    exact (hperm.countP_eq _).symm
  novice := h.novice

/-- **Receipts balance together.** In every run that keeps the guards, with requests that
interleave and processes that stop, the requests have an order as in `writes_linearize`. It has
what was returned and, besides, what the game has granted requests that have not returned
(`lost`). A player has what they began with, plus all rewards that these answers report to them,
minus the price for every one that lets them in; and these report at most one first clear to
them, and none if they had cleared the dungeon before. -/
theorem receipts_balance_together {w₀ w : World ι} (hw₀ : w₀.Fresh)
    (h : World.Run env KeepsGuards w₀ w) (hhero : w₀.store.game.hero p = some hero₀) :
    ∃ order lost hero, Linearizes (Game.Judges env.dungeonConfig) Game.Drifts w₀.store.game
        (observed w.history) order w.store.game ∧
      order.Perm (answers (observed w.history) ++ lost) ∧
      (∀ id request response, (id, request, response) ∈ lost →
        .start id request ∈ w.history ∧ ∀ r a, .finish id r a ∉ w.history) ∧
      w.store.game.hero p = some hero ∧
      Balances env.dungeonConfig p hero₀
        (((answers (observed w.history)) ++ lost).map Prod.snd) hero := by
  obtain ⟨order, hlinearizes⟩ := h.linearizes hw₀
  obtain ⟨lost, hperm, hlost⟩ := hlinearizes.lost
  obtain ⟨hero, hfound, hbalances⟩ :=
    Balances.run Balances.judge Game.Drifts.hero hhero hlinearizes.runs
  refine ⟨order, lost, hero, hlinearizes, hperm, fun id request response hmem => ?_, hfound,
    hbalances.perm (hperm.map Prod.snd)⟩
  obtain ⟨hcall, hret⟩ := hlost id request response hmem
  exact ⟨mem_observed_call.mp hcall, fun r a hfinish => hret r a (mem_observed_ret.mpr hfinish)⟩

/-- The server of a demo player has stopped after its `COMMIT`. They have paid for an entry that
no response has told them of. -/
theorem receipts_balance_together_demo :
    ∃ w order lost hero, World.Run demoEnv KeepsGuards demoWorld w ∧
      Linearizes (Game.Judges demoEnv.dungeonConfig) Game.Drifts demoWorld.store.game
        (observed w.history) order w.store.game ∧
      order.Perm (answers (observed w.history) ++ lost) ∧
      entries 20001 ((answers (observed w.history)).map Prod.snd) = 0 ∧
      w.store.game.hero 20001 = some hero ∧ hero.profile.stamina = 110 ∧
      Balances demoEnv.dungeonConfig 20001 ⟨⟨20001, 10001, "hero_demo", 10, 120, 1000, 100⟩,
        fun _ => none⟩ (((answers (observed w.history)) ++ lost).map Prod.snd) hero := by
  have hrun : (replay (World.step demoEnv) (fun _ l => l.quiet) demoWorld demoTogether).any
      (fun w => entries 20001 ((answers (observed w.history)).map Prod.snd) = 0 ∧
        (w.store.game.hero 20001).all (fun hero => hero.profile.stamina = 110)) = true := by
    decide +kernel
  obtain ⟨w, hreach, hend⟩ : ∃ w, World.Run demoEnv KeepsGuards demoWorld w ∧ _ = true :=
    Reach.of_replay_any (fun _ _ => KeepsGuards.of_quiet) hrun
  obtain ⟨hentries, hstamina⟩ := of_decide_eq_true hend
  obtain ⟨order, lost, hero, hlinearizes, hperm, -, hhero, hbalances⟩ :=
    receipts_balance_together demoWorld_fresh hreach (p := 20001) rfl
  rw [hhero] at hstamina
  exact ⟨w, order, lost, hero, hreach, hlinearizes, hperm, hentries, hhero,
    of_decide_eq_true hstamina, hbalances⟩

/-! ## Turns -/

/-- The entries and the wins of player `p` among the answers, newest first, take turns; each win
is of the battle entered before. `b` is the battle that the player is left with. -/
inductive TakesTurns (p : ℤ) : Option String → List (Request × Response) → Prop where
  | start : TakesTurns p none []
  | other {b : Option String} {events : List (Request × Response)} {e : Request × Response}
      (before : TakesTurns p b events) (enters : entersFor p e = false)
      (wins : winsFor p e = false) : TakesTurns p b (e :: events)
  | enter {events : List (Request × Response)} {request : EnterDungeonRequest}
      {response : EnterDungeonResponse} (before : TakesTurns p none events)
      (player : request.playerId = p) (success : response.success = true) :
      TakesTurns p (some response.battleId)
        ((.enterDungeon request, .enterDungeon response) :: events)
  | win {events : List (Request × Response)} {request : SettleDungeonRequest}
      {response : SettleDungeonResponse} (before : TakesTurns p (some request.battleId) events)
      (player : request.playerId = p) (success : response.success = true) :
      TakesTurns p none ((.settleDungeon request, .settleDungeon response) :: events)

/-- The battle that the answer lets somebody into. -/
def entered : Request × Response → Option String
  | (.enterDungeon _, .enterDungeon response) =>
    if response.success = true then some response.battleId else none
  | _ => none

/-- Battle `b` is one of player `p` and not over. -/
def Game.On (g : Game ι) (p : ℤ) (b : String) : Prop :=
  ∃ battle, g.battle b = some battle ∧ battle.playerId = p ∧ battle.settled = false

namespace Game

variable {q star : ℤ} {b c : String}

omit [DecidableEq ι] in
theorem on_enter : (g.enter cfg q c).On p b ↔ if b = c then q = p else g.On p b := by
  by_cases hb : b = c
  · subst hb
    simp [On]
  · rw [if_neg hb, On, enter_battle_ne hb, On]

omit [DecidableEq ι] in
theorem on_settle : (g.settle cfg q c star).On p b ↔ b ≠ c ∧ g.On p b := by
  by_cases hb : b = c
  · subst hb
    simp [On]
  · rw [On, settle_battle_ne hb, and_iff_right hb, On]

end Game

omit [DecidableEq ι] in
/-- A judgement leaves every player with the battle that is on. -/
theorem TakesTurns.judge {b : Option String} (h : TakesTurns p b events)
    (hon : ∀ c, g.On p c ↔ b = some c) (hjudges : Game.Judges cfg g e g') :
    ∃ b', TakesTurns p b' (e :: events) ∧ ∀ c, g'.On p c ↔ b' = some c := by
  cases hjudges with
  | pass refused =>
    obtain ⟨-, henters, -, hwins⟩ := no_receipt_of_refused refused p
    exact ⟨b, h.other henters hwins, hon⟩
  | enter dungeon found level stamina idle new =>
    rename_i request battleId hero
    by_cases hp : request.playerId = p
    · -- the player has no other battle
      obtain rfl : b = none := by
        cases b with
        | none => rfl
        | some c =>
          obtain ⟨battle, hbattle, hplayer, hsettled⟩ := (hon c).mpr rfl
          exact absurd ⟨c, battle, hbattle, hplayer.trans hp.symm, hsettled⟩ idle
      refine ⟨_, h.enter hp rfl, fun c => ?_⟩
      rw [Game.on_enter, hon, Option.some.injEq]
      split
      · rename_i hc
        exact ⟨fun _ => hc.symm, fun _ => hp⟩
      · rename_i hc
        exact ⟨nofun, fun heq => absurd heq.symm hc⟩
    · refine ⟨b, h.other (by simp [entersFor, hp]) rfl, fun c => ?_⟩
      rw [Game.on_enter, ← hon]
      split
      · rename_i hc
        subst hc
        refine ⟨fun hq => absurd hq hp, ?_⟩
        rintro ⟨battle, hbattle, -⟩
        rw [new] at hbattle
        cases hbattle
      · rfl
  | settle result star on found =>
    rename_i request hero
    by_cases hp : request.playerId = p
    · obtain rfl : b = some request.battleId := (hon _).mp ⟨_, on, hp, rfl⟩
      refine ⟨none, h.win hp rfl, fun c => ?_⟩
      rw [Game.on_settle, hon, Option.some.injEq]
      exact ⟨fun hc => absurd hc.2.symm hc.1, nofun⟩
    · refine ⟨b, h.other rfl (by simp [winsFor, hp]), fun c => ?_⟩
      rw [Game.on_settle, ← hon]
      refine and_iff_right_of_imp ?_
      rintro ⟨battle, hbattle, hplayer, -⟩ rfl
      obtain rfl := Option.some.inj (on.symm.trans hbattle)
      exact hp hplayer

/-- The battles that were entered are there, each entered once. -/
structure Game.Lists (g : Game ι) (events : List (Request × Response)) : Prop where
  there : ∀ b ∈ events.filterMap entered, g.battle b ≠ none
  once : (events.filterMap entered).Nodup

omit [DecidableEq ι] in
/-- A judgement enters a new battle or none. -/
theorem Game.Lists.judge (h : g.Lists events) (hjudges : Game.Judges cfg g e g') :
    g'.Lists (e :: events) := by
  cases hjudges with
  | pass refused =>
    have hnone : entered e = none := by
      obtain ⟨request, response⟩ := e
      cases response with
      | enterDungeon response =>
        have hnot : response.success = false := refused
        cases request <;> simp [entered, hnot]
      | _ => cases request <;> rfl
    constructor
    · rw [List.filterMap_cons_none hnone]
      exact h.there
    · rw [List.filterMap_cons_none hnone]
      exact h.once
  | enter dungeon found level stamina idle new =>
    rename_i request battleId hero
    have hfresh : battleId ∉ events.filterMap entered := fun hmem => h.there _ hmem new
    constructor
    · intro b hb
      rcases List.mem_cons.mp hb with rfl | hb
      · rw [Game.enter_battle_self]
        exact Option.some_ne_none _
      · rw [Game.enter_battle_ne (ne_of_mem_of_not_mem hb hfresh)]
        exact h.there b hb
    · exact List.nodup_cons.mpr ⟨hfresh, h.once⟩
  | settle result star on found =>
    rename_i request hero
    refine ⟨fun b hb => ?_, h.once⟩
    by_cases hb' : b = request.battleId
    · subst hb'
      rw [Game.settle_battle_self, on]
      exact Option.some_ne_none _
    · rw [Game.settle_battle_ne hb']
      exact h.there b hb

omit [DecidableEq ι] in
/-- **Every run** of judgements. -/
theorem Game.turns (h₀ : ∀ b, g₀.battle b = none)
    (h : Trace (Game.Judges cfg) Game.Drifts g₀ events g) :
    g.Lists events ∧ ∀ p, ∃ b, TakesTurns p b events ∧ ∀ c, g.On p c ↔ b = some c := by
  induction h with
  | nil =>
    refine ⟨⟨nofun, List.nodup_nil⟩, fun p => ⟨none, .start, fun c => ⟨?_, nofun⟩⟩⟩
    rintro ⟨battle, hbattle, -⟩
    rw [h₀ c] at hbattle
    cases hbattle
  | act before acts ih =>
    refine ⟨ih.1.judge acts, fun p => ?_⟩
    obtain ⟨b, hturns, hon⟩ := ih.2 p
    exact hturns.judge hon acts
  | quiet before steps ih =>
    refine ⟨⟨steps.battle ▸ ih.1.there, ih.1.once⟩, fun p => ?_⟩
    obtain ⟨b, hturns, hon⟩ := ih.2 p
    refine ⟨b, hturns, fun c => ?_⟩
    rw [Game.On, steps.battle]
    exact hon c

/-- **Players take turns.** In every run that keeps the guards, with requests that interleave and
processes that stop, the requests have an order as in `writes_linearize` in which every player
enters a battle, wins this battle, enters the next one and so on; the battle a player has entered
and not won is the only one of theirs that is on in the end; and no battle is entered twice. -/
theorem players_take_turns {w₀ w : World ι} (hw₀ : w₀.Fresh)
    (h : World.Run env KeepsGuards w₀ w) :
    ∃ order, Linearizes (Game.Judges env.dungeonConfig) Game.Drifts w₀.store.game
        (observed w.history) order w.store.game ∧
      ((order.map Prod.snd).filterMap entered).Nodup ∧
      ∀ p, ∃ b, TakesTurns p b (order.map Prod.snd) ∧ ∀ c, w.store.game.On p c ↔ b = some c := by
  obtain ⟨order, hlinearizes⟩ := h.linearizes hw₀
  have hnone : ∀ b, w₀.store.game.battle b = none := by
    intro b
    change w₀.store.mysql.tables.battles b = none
    rw [Tables.battles, Table.find, hw₀.battles]
    rfl
  obtain ⟨hlists, hturns⟩ := Game.turns hnone hlinearizes.runs
  exact ⟨order, hlinearizes, hlists.once, hturns⟩

/-- The battle of the player whose server has stopped is on. -/
theorem players_take_turns_demo :
    ∃ w order, World.Run demoEnv KeepsGuards demoWorld w ∧
      Linearizes (Game.Judges demoEnv.dungeonConfig) Game.Drifts demoWorld.store.game
        (observed w.history) order w.store.game ∧
      TakesTurns 20001 (some "battle-20001-1001-1") (order.map Prod.snd) := by
  have hrun : (replay (World.step demoEnv) (fun _ l => l.quiet) demoWorld demoTogether).any
      (fun w => w.store.mysql.tables.battles "battle-20001-1001-1" =
        some ⟨20001, 1001, false⟩) = true := by
    decide +kernel
  obtain ⟨w, hreach, hbattle⟩ : ∃ w, World.Run demoEnv KeepsGuards demoWorld w ∧ _ = true :=
    Reach.of_replay_any (fun _ _ => KeepsGuards.of_quiet) hrun
  obtain ⟨order, hlinearizes, -, hturns⟩ := players_take_turns demoWorld_fresh hreach
  obtain ⟨b, hb, hon⟩ := hturns 20001
  obtain rfl : b = some "battle-20001-1001-1" :=
    (hon _).mp ⟨_, of_decide_eq_true hbattle, rfl, rfl⟩
  exact ⟨w, order, hreach, hlinearizes, hb⟩

/-! ## Battles that are on -/

/-- The answer tells that battle `b` is won. -/
def wins (b : String) : Request × Response → Bool
  | (.settleDungeon request, .settleDungeon response) =>
    request.battleId = b ∧ response.success = true
  | _ => false

/-- Battle `b` is on, it is the only one that player `p` has on, and the player is `hero`. -/
structure Game.Engaged (cfg : DungeonConfig) (p : ℤ) (b : String) (hero : Hero)
    (g : Game ι) : Prop where
  battle : g.battle b = some ⟨p, cfg.dungeonId, false⟩
  only : ∀ b' battle, g.battle b' = some battle → battle.playerId = p →
    battle.settled = false → b' = b
  hero : g.hero p = some hero

namespace Game

variable {b : String}

omit [DecidableEq ι] in
/-- Who enters the dungeon is engaged. -/
theorem engaged_of_enter {request : EnterDungeonRequest}
    (hcode : g.enterCode cfg request b = .ok) (hhero : g.hero request.playerId = some hero) :
    (g.enter cfg request.playerId b).Engaged cfg request.playerId b (hero.spend cfg) where
  battle := enter_battle_self
  only b' battle hbattle hplayer hsettled := by
    obtain ⟨-, -, -, hidle, -⟩ := enterCode_eq_ok.mp hcode
    by_contra hb'
    apply hidle
    exact ⟨b', battle, (enter_battle_ne hb').symm.trans hbattle, hplayer, hsettled⟩
  hero := by simp [hhero]

/-- **One act** leaves the player engaged, unless it is their win. -/
theorem Engaged.act (h : g.Engaged cfg p b hero) (hserves : Serves cfg check lifetime g e g')
    (hopen : wins b e = false) :
    g'.Engaged cfg p b hero ∧ entersFor p e = false ∧ rewardsTo p e = [] := by
  have hfighting : g.Fighting p := ⟨b, _, h.battle, rfl, rfl⟩
  cases hserves with
  | login | noLogin | load | noLoad | restore | noRestore =>
    exact ⟨⟨h.battle, h.only, h.hero⟩, rfl, rfl⟩
  | noEnter refused failed code | noBattle eligible refused failed code =>
    exact ⟨⟨h.battle, h.only, h.hero⟩, by simp [entersFor, failed], rfl⟩
  | noSettle refused failed code => exact ⟨h, rfl, by simp [rewardsTo, failed]⟩
  | enter named code found success remains =>
    -- somebody else enters, and their battle has another name
    rename_i request response hero'
    obtain ⟨-, -, -, hidle, hnew⟩ := enterCode_eq_ok.mp code
    have hp : p ≠ request.playerId := by
      rintro rfl
      exact hidle hfighting
    have hb : b ≠ response.battleId := by
      rintro rfl
      exact Option.some_ne_none _ (h.battle.symm.trans hnew)
    have hhero : (g.enter cfg request.playerId response.battleId).hero p = some hero :=
      (enter_hero_ne hp).trans h.hero
    refine ⟨⟨(enter_battle_ne hb).trans h.battle, fun b' battle hbattle hplayer hs => ?_, hhero⟩,
      by simp [entersFor, hp.symm], rfl⟩
    by_cases hb' : b' = response.battleId
    · subst hb'
      obtain rfl := Option.some.inj (enter_battle_self.symm.trans hbattle)
      exact absurd hplayer.symm hp
    · exact h.only b' battle ((enter_battle_ne hb').symm.trans hbattle) hplayer hs
  | settle code found success first rewards =>
    -- somebody else wins a battle of theirs
    rename_i request response hero'
    have hb : b ≠ request.battleId := by
      rintro rfl
      simp [wins, success] at hopen
    obtain ⟨battle, hbattle, hplayer, hon⟩ := battle_of_settleCode code
    have hp : p ≠ request.playerId := by
      rintro rfl
      exact hb (h.only _ battle hbattle hplayer hon).symm
    refine ⟨⟨(settle_battle_ne hb).trans h.battle, fun b' battle' hbattle' hplayer' hs => ?_,
      (settle_hero_ne hp).trans h.hero⟩, rfl, by simp [rewardsTo, hp.symm]⟩
    by_cases hb' : b' = request.battleId
    · subst hb'
      rw [settle_battle_self, hbattle] at hbattle'
      obtain rfl := Option.some.inj hbattle'
      cases hs
    · exact h.only b' battle' ((settle_battle_ne hb').symm.trans hbattle') hplayer' hs

/-- **Every run** leaves the player engaged, unless they win. -/
theorem Engaged.run (h₀ : g₀.Engaged cfg p b hero)
    (h : Trace (Serves cfg check lifetime) (Fades may) g₀ events g)
    (hopen : ∀ e ∈ events, wins b e = false) :
    g.Engaged cfg p b hero ∧ entries p events = 0 ∧ ∀ e ∈ events, rewardsTo p e = [] := by
  induction h with
  | nil => exact ⟨h₀, rfl, by simp⟩
  | act before acts ih =>
    obtain ⟨hengaged, hentries, hrewards⟩ := ih fun e he => hopen e (List.mem_cons_of_mem _ he)
    obtain ⟨hengaged', hnot, hnothing⟩ := hengaged.act acts (hopen _ List.mem_cons_self)
    refine ⟨hengaged', ?_, List.forall_mem_cons.mpr ⟨hnothing, hrewards⟩⟩
    rw [entries, List.countP_cons_of_neg (by simp [hnot])]
    exact hentries
  | quiet before steps ih =>
    obtain ⟨hengaged, hrest⟩ := ih hopen
    exact ⟨⟨steps.battle ▸ hengaged.battle, steps.battle ▸ hengaged.only,
      steps.hero ▸ hengaged.hero⟩, hrest⟩

/-- **A player who is engaged can win.** -/
theorem Engaged.settles {request : SettleDungeonRequest} {response : SettleDungeonResponse}
    (h : g.Engaged cfg request.playerId request.battleId hero)
    (hserves : Serves cfg check lifetime g (.settleDungeon request, .settleDungeon response) g')
    (hresult : request.result = true) (hadmits : g.Admits request.sessionId request.playerId)
    (hdungeon : request.dungeonId = cfg.dungeonId)
    (hstar : 0 < request.star ∧ request.star ≤ cfg.maxStar) (hcarry : hero.CanCarry cfg = true) :
    response.success = true ∧ response.firstClear = hero.Novice cfg ∧
      response.rewards = hero.rewards cfg ∧
      g'.hero request.playerId = some (hero.clear cfg request.star) := by
  cases hserves with
  | noSettle refused failed code =>
    have hon : g.battle request.battleId = some ⟨request.playerId, request.dungeonId, false⟩ :=
      hdungeon ▸ h.battle
    exact absurd (settleCode_of_on hresult hadmits hdungeon hstar hon h.hero hcarry) refused
  | settle code found success first rewards =>
    obtain rfl := Option.some.inj (found.symm.trans h.hero)
    refine ⟨success, first, rewards, ?_⟩
    rw [settle_hero_self, h.hero]
    rfl

end Game

/-- **Battles pay.** When `EnterDungeon` has let a player in, then in every run of requests that
come one after the other and do not settle the battle: the player is not let in again, no
response reports rewards to them, and they own what they owned before without the price. And
where the run ends, a `SettleDungeon` for the battle with one of the player's sessions, a star in
range and rewards that fit succeeds; it reports a first clear and the rewards as the player's
progress before the battle has it, and the player gets exactly these. -/
theorem battle_pays (hcost : 0 < env.dungeonConfig.costStamina) (h₀ : s₀.Opened env)
    {before : List (Request × Response)} (h : Trace (Store.Answers env) (Store.Idles may) s₀ before s)
    {i : ι} {enter : EnterDungeonRequest} {entered : EnterDungeonResponse} {s₁ s₂ : Store ι}
    (henter : s.serve env i (.enterDungeon enter) (fun _ => none) =
      some (.enterDungeon entered, s₁)) (hentered : entered.success = true)
    (hrun : Trace (Store.Answers env) (Store.Idles may) s₁ events s₂)
    (hopen : ∀ e ∈ events, wins entered.battleId e = false) :
    entries enter.playerId events = 0 ∧
    (∀ e ∈ events, rewardsTo enter.playerId e = []) ∧
    ∃ hero, s.game.hero enter.playerId = some hero ∧
      entered.remainStamina = hero.profile.stamina - env.dungeonConfig.costStamina ∧
      s₂.game.hero enter.playerId = some (hero.spend env.dungeonConfig) ∧
      ∀ (j : ι) (settle : SettleDungeonRequest) (settled : SettleDungeonResponse) (s₃ : Store ι),
        s₂.serve env j (.settleDungeon settle) (fun _ => none) =
          some (.settleDungeon settled, s₃) →
        settle.battleId = entered.battleId → settle.playerId = enter.playerId →
        settle.dungeonId = enter.dungeonId → settle.result = true →
        0 < settle.star ∧ settle.star ≤ env.dungeonConfig.maxStar →
        s₂.game.Admits settle.sessionId settle.playerId →
        hero.CanCarry env.dungeonConfig = true →
        settled.success = true ∧ settled.firstClear = hero.Novice env.dungeonConfig ∧
          settled.rewards = hero.rewards env.dungeonConfig ∧
          s₃.game.hero enter.playerId =
            some ((hero.spend env.dungeonConfig).clear env.dungeonConfig settle.star) := by
  obtain ⟨hservice, -⟩ := h₀.inService.simulates hcost h
  have hanswers : s.Answers env (.enterDungeon enter, .enterDungeon entered) s₁ := ⟨i, henter⟩
  obtain ⟨hservice₁, hserves⟩ := hservice.answers hcost hanswers
  obtain ⟨hservice₂, htrace⟩ := hservice₁.simulates hcost hrun
  have hstart : ∃ hero, s.game.hero enter.playerId = some hero ∧
      entered.remainStamina = hero.profile.stamina - env.dungeonConfig.costStamina ∧
      enter.dungeonId = env.dungeonConfig.dungeonId ∧
      s₁.game.Engaged env.dungeonConfig enter.playerId entered.battleId
        (hero.spend env.dungeonConfig) := by
    generalize s₁.game = g₁ at hserves
    cases hserves with
    | noEnter refused failed code | noBattle eligible refused failed code =>
      rw [failed] at hentered
      cases hentered
    | enter named code found success remains =>
      have hengaged := Game.engaged_of_enter code found
      exact ⟨_, found, remains, (Game.enterCode_eq_ok.mp code).2.1,
        hengaged.battle, hengaged.only, hengaged.hero⟩
  obtain ⟨hero, hhero, hremains, hdungeon, hengaged⟩ := hstart
  obtain ⟨hengaged₂, hentries, hrewards⟩ := hengaged.run htrace hopen
  refine ⟨hentries, hrewards, hero, hhero, hremains, hengaged₂.hero, ?_⟩
  intro j settle settled s₃ hsettle hbattle hplayer hdungeon' hresult hstar hadmits hcarry
  rw [← hbattle, ← hplayer] at hengaged₂
  rw [← hplayer]
  exact hengaged₂.settles (hservice₂.serves_settleDungeon hsettle) hresult hadmits
    (hdungeon'.trans hdungeon) hstar hcarry

/-- The demo player enters, looks at the hero and settles the battle. -/
theorem battle_pays_demo :
    ∃ before s s₁ events s₂ settled s₃ hero,
      Trace (Store.Answers demoEnv) (Store.Idles fun _ => True) emptyWorld.store before s ∧
      s.serve demoEnv true (.enterDungeon ⟨"sess-10001-20001-1", 20001, 1001⟩) (fun _ => none) =
        some (.enterDungeon ⟨true, .ok, "", "battle-20001-1001-2", 110⟩, s₁) ∧
      Trace (Store.Answers demoEnv) (Store.Idles fun _ => True) s₁ events s₂ ∧
      s₂.serve demoEnv false
        (.settleDungeon ⟨"sess-10001-20001-1", 20001, "battle-20001-1001-2", 1001, 3, true⟩)
        (fun _ => none) = some (.settleDungeon settled, s₃) ∧
      s.game.hero 20001 = some hero ∧ entries 20001 events = 0 ∧ settled.success = true ∧
      settled.rewards = hero.rewards demoEnv.dungeonConfig ∧ s₃.game.hero 20001 =
        some ((hero.spend demoEnv.dungeonConfig).clear demoEnv.dungeonConfig 3) := by
  have hrun : (emptyWorld.store.play demoEnv true [] [.login ⟨"demo", "demo"⟩]).any (fun r =>
      (r.2.game.hero 20001).all (Hero.CanCarry demoEnv.dungeonConfig) = true ∧
      (r.2.serve demoEnv true (.enterDungeon ⟨"sess-10001-20001-1", 20001, 1001⟩)
        fun _ => none).any (fun r₁ =>
          r₁.1 = .enterDungeon ⟨true, .ok, "", "battle-20001-1001-2", 110⟩ ∧
          (r₁.2.play demoEnv false [] [.loadPlayer ⟨"sess-10001-20001-1", 20001⟩]).any (fun r₂ =>
            r₂.1.all (fun e => !wins "battle-20001-1001-2" e) = true ∧
            (r₂.2.game.session "sess-10001-20001-1").map (fun session =>
              session.value.playerId) = some 20001 ∧
            (r₂.2.serve demoEnv false (.settleDungeon
              ⟨"sess-10001-20001-1", 20001, "battle-20001-1001-2", 1001, 3, true⟩)
              fun _ => none).any (fun r₃ => r₃.1 = .settleDungeon
                ⟨true, .ok, "", true, [⟨"gold", 100⟩, ⟨"diamond", 50⟩]⟩) = true) = true) = true) =
        true := by
    decide +kernel
  obtain ⟨⟨before, s⟩, hbefore, h⟩ := (Option.any_eq_true _ _).mp hrun
  obtain ⟨hcarry, hrun₁⟩ := of_decide_eq_true h
  obtain ⟨⟨answer, s₁⟩, henter, h₁⟩ := (Option.any_eq_true _ _).mp hrun₁
  obtain ⟨rfl, hrun₂⟩ := of_decide_eq_true h₁
  obtain ⟨⟨events, s₂⟩, hevents, h₂⟩ := (Option.any_eq_true _ _).mp hrun₂
  obtain ⟨hwins, hadmits, hrun₃⟩ := of_decide_eq_true h₂
  obtain ⟨⟨answer, s₃⟩, hsettle, h₃⟩ := (Option.any_eq_true _ _).mp hrun₃
  obtain rfl := of_decide_eq_true h₃
  have hopen : ∀ e ∈ events, wins "battle-20001-1001-2" e = false := fun e he => by
    simpa using List.all_eq_true.mp hwins e he
  have htrace : Trace (Store.Answers demoEnv) (Store.Idles fun _ => True) emptyWorld.store
    before s := Trace.nil.play hbefore
  have htrace' : Trace (Store.Answers demoEnv) (Store.Idles fun _ => True) s₁ events s₂ :=
    Trace.nil.play hevents
  obtain ⟨hentries, -, hero, hhero, -, -, hpays⟩ :=
    battle_pays (by decide) opened_emptyWorld htrace henter rfl htrace' hopen
  have hcarries : hero.CanCarry demoEnv.dungeonConfig = true := by
    simpa [hhero] using hcarry
  obtain ⟨hsuccess, -, hrewards, hhero'⟩ :=
    hpays false _ _ s₃ hsettle rfl rfl rfl rfl (by decide) hadmits hcarries
  exact ⟨before, s, s₁, events, s₂, _, s₃, hero, htrace, henter, htrace', hsettle, hhero, hentries,
    hsuccess, hrewards, hhero'⟩

end GameBackend
