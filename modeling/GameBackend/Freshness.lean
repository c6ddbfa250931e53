import GameBackend.Balance
import GameBackend.Ownership
import GameBackend.PaidBattles
import GameBackend.Snapshots

/-!
# Fresh profiles

`LoadPlayer`, `EnterDungeon` and `SettleDungeon` of several processes share the snapshots
without a common lock. A successful `LoadPlayer` returns the committed state of its player
at one instant, which comes after every deed of the player that was answered before the
request began (`UpToDate`), in every run in which no command fails and commits keep clear
of the requests that may still write a snapshot back or vouch for its absence
(`CommitsApart`).

* `Recent` — an instant of a run that comes after all deeds of a player answered so far.
* `Freshness` — the invariant: every snapshot shows the state of such an instant, and
  the current one while a request is running that found it missing or deleted it.
* `load_player_stale` — a commit between the reads and the write-back of a `LoadPlayer`
  leaves a snapshot of the old state behind.
-/

namespace GameBackend

variable {ι : Type} [DecidableEq ι] {env : Env} {cfg : DungeonConfig} {p : ℤ}

/-! ## Commits that keep apart -/

/-- The player whose snapshot an exchange deletes. -/
def Exchange.deletesSnapshot : Exchange → Option ℤ
  | ⟨.redis (.del (.playerSnapshot p)), _⟩ => some p
  | _ => none

/-- The request has found the snapshot of the player missing, or has deleted it. -/
def Task.Uncached (task : Task) (p : ℤ) : Prop :=
  ∃ x ∈ task.trail,
    Exchange.missesSnapshot x = some p ∨ Exchange.deletesSnapshot x = some p

/-- When a request commits, no other request is running that has found the snapshot of the
player missing, or has deleted it. -/
def CommitsApart (w : World ι) : Label ι → Prop
  | .exec i _ => w.next i = some (.sql .commit) → ∀ task p, w.tasks i = some task →
      task.request.locks = some p → ∀ j other, j ≠ i → w.tasks j = some other → ¬other.Uncached p
  | _ => True

/-- The player whose snapshot a request in a phase has found missing, or has deleted. -/
def Phase.uncached : Phase → Option ℤ
  | .missed p => some p
  | .profiled p _ => some p
  | .loaded p _ => some p
  | .invalidated deed => some deed.player
  | .released (some deed) => some deed.player
  | _ => none

/-- A phase without the snapshot is entered by looking it up in vain, or by deleting it. -/
theorem Advance.uncached {φ ψ : Phase} {c : Cmd} {r : c.Reply} (h : Advance cfg φ c r ψ)
    (hψ : ψ.uncached = some p) : φ.uncached = some p ∨
      (Exchange.missesSnapshot ⟨c, r⟩ = some p ∨ Exchange.deletesSnapshot ⟨c, r⟩ = some p) := by
  cases h with
  | pass _ _ | profile | progress | fill _ | fillExpire => exact .inl hψ
  | miss empty => exact .inr (.inl (by rw [Exchange.missesSnapshot, if_pos empty]; exact hψ))
  | invalidate => exact .inr (.inr hψ)
  | unlock exit =>
    rename_i p' deed r
    cases deed with
    | none => cases hψ
    | some deed => exact .inl (Phase.invalidated_of_exit exit ▸ hψ)
  | _ => cases hψ

/-- The trail of a request shows that it has no snapshot. -/
theorem uncached_of {φ : Phase} {trail : List Exchange} (h : Path (Advance cfg) .outside trail φ)
    (hp : φ.uncached = some p) :
    ∃ x ∈ trail, Exchange.missesSnapshot x = some p ∨ Exchange.deletesSnapshot x = some p := by
  induction h with
  | nil => cases hp
  | cons path advance ih =>
    rcases advance.uncached hp with hφ | hx
    · obtain ⟨x, hmem, hx⟩ := ih hφ
      exact ⟨x, List.mem_cons_of_mem _ hmem, hx⟩
    · exact ⟨_, List.mem_cons_self, hx⟩

/-! ## Instants of a run -/

/-- The event returns success to an `EnterDungeon` or `SettleDungeon` of the player. -/
def Event.Acknowledges (p : ℤ) : Event → Prop
  | .finish _ request response => request.locks = some p ∧ response.success = true
  | _ => False

variable {ok : World ι → Label ι → Prop} {w₀ w w' v : World ι} {l : Label ι} {φ φ' : ι → Phase}

/-- The instant `v` of the run to `w` comes after all deeds of the player that have been
answered. -/
structure Recent (env : Env) (ok : World ι → Label ι → Prop) (w₀ : World ι) (p : ℤ)
    (w v : World ι) : Prop where
  past : World.Run env ok w₀ v
  future : World.Run env ok v w
  acknowledged : ∀ e ∈ w.history, e.Acknowledges p → e ∈ v.history

/-- At some instant of the run to `w` the committed state of the player was `state`, and
the deeds of the player that were answered before request `id` began had been answered. -/
def UpToDate (env : Env) (ok : World ι → Label ι → Prop) (w₀ w : World ι) (id : ℕ) (p : ℤ)
    (state : PlayerState) : Prop :=
  ∃ v, World.Run env ok w₀ v ∧ World.Run env ok v w ∧
    v.store.mysql.tables.playerState p = some state ∧
    ∀ later request before, w.history = later ++ .start id request :: before →
      ∀ e ∈ before, e.Acknowledges p → e ∈ v.history

theorem Recent.refl (h : World.Run env ok w₀ w) : Recent env ok w₀ p w w :=
  ⟨h, .refl, fun _ he _ => he⟩

/-- An instant stays recent as long as no further deed is answered. -/
theorem Recent.step (h : Recent env ok w₀ p w v) (hok : ok w l) (hs : w.step env l = some w')
    (hquiet : ∀ e ∈ w'.history, e.Acknowledges p → e ∈ w.history) : Recent env ok w₀ p w' v :=
  ⟨h.past, h.future.tail hok hs, fun e he hack => h.acknowledged e (hquiet e he hack) hack⟩

/-- A state of a recent instant is up to date for every request that is running. -/
theorem Recent.upToDate (h : Recent env ok w₀ p w v) {state : PlayerState}
    (hstate : v.store.mysql.tables.playerState p = some state) (id : ℕ) :
    UpToDate env ok w₀ w id p state := by
  refine ⟨v, h.past, h.future, hstate, fun later request before hsplit e he hack => ?_⟩
  refine h.acknowledged e ?_ hack
  rw [hsplit]
  exact List.mem_append_right _ (List.mem_cons_of_mem _ he)

/-- A step adds at most one event to the history, and a request begins with the next
number. -/
theorem history_of_step (hs : w.step env l = some w') : w'.history = w.history ∨
    ∃ e, w'.history = e :: w.history ∧
      ∀ id request, e = .start id request → id = w.history.length := by
  cases does_of_step hs with
  | start idle => exact .inr ⟨_, rfl, fun id request h => (Event.start.inj h).1.symm⟩
  | exec task performed => exact .inr ⟨_, rfl, nofun⟩
  | finish task => exact .inr ⟨_, rfl, nofun⟩
  | stop running => exact .inr ⟨_, rfl, nofun⟩
  | restart idle | tick | evict => exact .inl rfl

/-- What is up to date for a request that has begun stays so. -/
theorem UpToDate.step {id : ℕ} {state : PlayerState} (h : UpToDate env ok w₀ w id p state)
    (hid : id < w.history.length) (hok : ok w l) (hs : w.step env l = some w') :
    UpToDate env ok w₀ w' id p state := by
  obtain ⟨v, hpast, hfuture, hstate, hbefore⟩ := h
  refine ⟨v, hpast, hfuture.tail hok hs, hstate, fun later request before hsplit => ?_⟩
  rcases history_of_step hs with heq | ⟨e, heq, hstart⟩
  · exact hbefore later request before (heq.symm.trans hsplit)
  · rw [heq] at hsplit
    cases later with
    | nil =>
      -- the request has begun already
      obtain ⟨he, -⟩ := List.cons.inj hsplit
      exact absurd (hstart id request he) hid.ne
    | cons e' later => exact hbefore later request before (List.cons.inj hsplit).2

/-! ## Commands and snapshots -/

section Commands

variable {s s' : Store ι} {i : ι} {ψ ψ' : Phase} {c : Cmd} {r : c.Reply} {e : RedisEntry}

/-- What the snapshot of a player holds after a command: what it held before, or fields of
the state a `LoadPlayer` writes back. -/
theorem Advance.snapshot (hadv : Advance cfg ψ c r ψ') (hp : s.Performed i none c r s')
    (hfill : ∀ state e, ψ = .loaded p state → s.redis.live (.playerSnapshot p) = some e →
      e.Shows (some state)) (he : s'.redis.live (.playerSnapshot p) = some e) :
    (∃ e', s.redis.live (.playerSnapshot p) = some e' ∧ e.value = e'.value) ∨
      ∃ state, ψ = .loaded p state ∧ ψ' = .loaded p state ∧ e.Shows (some state) := by
  have hsame : (∀ d, c = .redis d → d.reads = true ∨ RedisKey.playerSnapshot p ≠ d.key) →
      ∃ e', s.redis.live (.playerSnapshot p) = some e' ∧ e.value = e'.value :=
    fun hc => ⟨e, (Redis.live_congr (hp.entries_eq hc) hp.now_eq).symm.trans he, rfl⟩
  cases hadv with
  | pass harmless _ =>
    refine .inl (hsame fun d hd => ?_)
    subst hd
    exact (Cmd.reads_or_others harmless).imp_right fun hkey => hkey _ rfl
  | fill field =>
    rename_i q state f v r
    obtain ⟨message, hf, -, -⟩ | ⟨-, -, rfl⟩ := hp.redis_cases
    · cases hf
    by_cases hq : p = q
    · subst hq
      exact .inr ⟨state, rfl, rfl, RedisEntry.Shows.hset field (fun e => hfill state e rfl) he⟩
    · exact .inl (hsame fun d hd => .inr (by rw [← Cmd.redis.inj hd]; simp [RedisCmd.key, hq]))
  | fillExpire =>
    obtain ⟨message, hf, -, -⟩ | ⟨-, -, rfl⟩ := hp.redis_cases
    · cases hf
    exact .inl (Redis.live_of_expire he)
  | invalidate =>
    rename_i deed r
    obtain ⟨message, hf, -, -⟩ | ⟨-, -, rfl⟩ := hp.redis_cases
    · cases hf
    by_cases hq : p = deed.player
    · subst hq
      exact absurd (Redis.entries_of_live he) (by simp [Redis.execute])
    · exact .inl (hsame fun d hd => .inr (by rw [← Cmd.redis.inj hd]; simp [RedisCmd.key, hq]))
  | miss _ | hit _ | findContext _ | noContext =>
    exact .inl (hsame fun d hd => .inl (Cmd.redis.inj hd ▸ rfl))
  | lock _ | busy _ | unlock _ | saveContext _ | expireContext | dropContext =>
    exact .inl (hsame fun d hd => .inr (by rw [← Cmd.redis.inj hd]; simp [RedisCmd.key]))
  | _ => exact .inl (hsame fun d hd => by cases hd)

/-- A request that finds the snapshot missing, or deletes it, leaves nothing of it but an
empty hash. -/
theorem empty_of_uncached (hp : s.Performed i none c r s')
    (hx : Exchange.missesSnapshot ⟨c, r⟩ = some p ∨ Exchange.deletesSnapshot ⟨c, r⟩ = some p)
    (he : s'.redis.live (.playerSnapshot p) = some e) {values : List (String × String)}
    (hvalue : e.value = .hash values) : values = [] := by
  rcases hx with hx | hx
  · unfold Exchange.missesSnapshot at hx
    split at hx
    · rename_i q r' heq
      obtain ⟨rfl, hr⟩ := Sigma.mk.inj heq
      obtain rfl := eq_of_heq hr
      split at hx
      · rename_i hempty
        obtain rfl := Option.some.inj hx
        obtain ⟨message, hf, -, -⟩ | ⟨-, rfl, rfl⟩ := hp.redis_cases
        · cases hf
        obtain ⟨value, expires⟩ := e
        obtain rfl : value = .hash values := hvalue
        have hlive : s.redis.live (.playerSnapshot q) = some ⟨.hash values, expires⟩ := he
        simpa [emptyReply, Redis.execute, Redis.hash?, hlive] using hempty
      · cases hx
    · cases hx
  · unfold Exchange.deletesSnapshot at hx
    split at hx
    · rename_i q r' heq
      obtain ⟨rfl, hr⟩ := Sigma.mk.inj heq
      obtain rfl := Option.some.inj hx
      obtain ⟨message, hf, -, -⟩ | ⟨-, -, rfl⟩ := hp.redis_cases
      · cases hf
      exact absurd (Redis.entries_of_live he) (by simp [Redis.execute])
    · cases hx

/-- A request has found a snapshot before, or finds it now. -/
theorem Advance.found {values : List (String × String)}
    (h : Advance cfg ψ c r (.hit p values)) : ψ = .hit p values ∨
      values ≠ [] ∧ (⟨c, r⟩ : Exchange) = ⟨.redis (.hgetall (.playerSnapshot p)), some values⟩ := by
  cases h with
  | pass _ _ => exact .inl rfl
  | hit nonempty => exact .inr ⟨nonempty, rfl⟩

end Commands

/-! ## The invariant -/

/-- Snapshots, and what requests have seen of them, are up to date. -/
structure Freshness (env : Env) (ok : World ι → Label ι → Prop) (w₀ w : World ι)
    (φ : ι → Phase) : Prop where
  /-- a snapshot shows the state of a recent instant -/
  snapshots : ∀ p e, w.store.redis.live (.playerSnapshot p) = some e →
    (w.store.mysql.tables.playerState p).isSome = true ∧
      ∃ v, Recent env ok w₀ p w v ∧ e.Shows (v.store.mysql.tables.playerState p)
  /-- and the current one while a request is running that has seen it missing -/
  current : ∀ i p, (φ i).uncached = some p → ∀ e,
    w.store.redis.live (.playerSnapshot p) = some e → e.Shows (w.store.mysql.tables.playerState p)
  reads : ∀ i, (φ i).Reads w.store.mysql.tables
  hits : ∀ i task p values state, w.tasks i = some task → φ i = .hit p values →
    RedisPlayerCacheRepository.decode values = some state →
      UpToDate env ok w₀ w task.id p state
  answers : ∀ id request response, Event.finish id (.loadPlayer request) (.loadPlayer response) ∈
    w.history → response.success = true → ∃ state, response.playerState = some state ∧
      UpToDate env ok w₀ w id request.playerId state

omit [DecidableEq ι] in
/-- What a request has read stays true as long as the state of its player does. -/
theorem Phase.Reads.congr {ψ : Phase} {t t' : Tables} (h : ψ.Reads t)
    (hsame : ∀ p, ψ.uncached = some p → t'.playerState p = t.playerState p ∧
      (Query.profile p).rows t' = (Query.profile p).rows t) : ψ.Reads t' := by
  cases ψ with
  | profiled p profile => exact (congrArg List.head? (hsame p rfl).2).trans h
  | loaded p state => exact (hsame p rfl).1.trans h
  | _ => trivial

/-- No deed of a player is committed while a request is running that has seen no snapshot of
the player. -/
theorem playerState_of_uncached (hphased : Phased env w φ) (hscoped : Scoped env w)
    (hapart : CommitsApart w l) (hstep : TableStep env.dungeonConfig w w' φ φ' l) {j : ι}
    (hj : (φ' j).uncached = some p) :
    w'.store.mysql.tables.playerState p = w.store.mysql.tables.playerState p ∧
      (Query.profile p).rows w'.store.mysql.tables =
        (Query.profile p).rows w.store.mysql.tables := by
  rcases hstep with ⟨htables, -⟩ | ⟨hlabel, hnext, hbefore, hafter, htransacts, -⟩
  · rw [htables]
    exact ⟨rfl, rfl⟩
  · rename_i i fault deed
    have hp : p ≠ deed.player := by
      rintro rfl
      by_cases hji : j = i
      · subst hji
        rw [hafter, Function.update_self] at hj
        cases hj
      · rw [hafter, Function.update_of_ne hji] at hj
        rcases hother : w.tasks j with _ | other
        · rw [hphased.idle j hother] at hj
          cases hj
        rcases htask : w.tasks i with _ | task
        · simp [World.next, htask] at hnext
        have hlock := hscoped.lock (p := deed.player) hphased htask (by rw [hbefore]; rfl)
        subst hlabel
        exact hapart hnext task _ htask hlock j other hji hother
          (uncached_of (hphased.path j other hother) hj)
    exact ⟨htransacts.playerState_ne hp, htransacts.profile_ne hp⟩

theorem isSome_playerState_of_step (hstep : TableStep env.dungeonConfig w w' φ φ' l) (p : ℤ) :
    (w'.store.mysql.tables.playerState p).isSome =
      (w.store.mysql.tables.playerState p).isSome := by
  rcases hstep with ⟨htables, -⟩ | ⟨-, -, -, -, htransacts, -⟩
  · rw [htables]
  · exact htransacts.isSome_playerState

theorem Freshness.init (hhistory : w₀.history = [])
    (hsnapshots : ∀ p e, w₀.store.redis.live (.playerSnapshot p) = some e →
      e.Shows (w₀.store.mysql.tables.playerState p)) :
    Freshness env ok w₀ w₀ fun _ => .outside where
  snapshots p e he := by
    obtain ⟨values, state, hvalue, hstate, hsub⟩ := hsnapshots p e he
    exact ⟨hstate ▸ rfl, w₀, .refl .refl, values, state, hvalue, hstate, hsub⟩
  current i p hi := by cases hi
  reads _ := trivial
  hits i task p values state _ hφ := by cases hφ
  answers id request response hmem := by
    rw [hhistory] at hmem
    cases hmem

/-- The steps other than those of a command: no key appears, no table changes and no
request goes on. -/
theorem Freshness.keep (h : Freshness env ok w₀ w φ) (hr : World.Run env ok w₀ w)
    (hrecorded : Recorded w) (hok : ok w l) (hs : w.step env l = some w')
    (htables : w'.store.mysql.tables = w.store.mysql.tables)
    (hlive : ∀ p e, w'.store.redis.live (.playerSnapshot p) = some e →
      w.store.redis.live (.playerSnapshot p) = some e)
    (hphase : ∀ j, φ' j = .outside ∨ (φ' j = φ j ∧ w'.tasks j = w.tasks j))
    (hack : ∀ e ∈ w'.history, ∀ p, e.Acknowledges p → e ∈ w.history ∨
      ∃ i, (φ i).uncached = some p)
    (hanswers : ∀ id request response,
      Event.finish id (.loadPlayer request) (.loadPlayer response) ∈ w'.history →
      response.success = true →
        Event.finish id (.loadPlayer request) (.loadPlayer response) ∈ w.history ∨
          ∃ state, response.playerState = some state ∧ id < w.history.length ∧
            UpToDate env ok w₀ w id request.playerId state) :
    Freshness env ok w₀ w' φ' := by
  refine ⟨fun p e he => ?_, fun j p hj e he => ?_, fun j => ?_, ?_, ?_⟩
  · obtain ⟨hsome, v, hrecent, hshows⟩ := h.snapshots p e (hlive p e he)
    refine ⟨htables ▸ hsome, ?_⟩
    by_cases hrunning : ∃ i, (φ i).uncached = some p
    · -- a request that has seen the snapshot missing writes what is committed now
      obtain ⟨i, hi⟩ := hrunning
      exact ⟨w', .refl (hr.tail hok hs), htables ▸ h.current i p hi e (hlive p e he)⟩
    · exact ⟨v, hrecent.step hok hs fun e' hmem hacks =>
        (hack e' hmem p hacks).resolve_right hrunning, hshows⟩
  · rcases hphase j with hout | ⟨hsame, -⟩
    · rw [hout] at hj
      cases hj
    · exact htables ▸ h.current j p (hsame ▸ hj) e (hlive p e he)
  · rcases hphase j with hout | ⟨hsame, -⟩
    · rw [hout]
      trivial
    · rw [hsame, htables]
      exact h.reads j
  · intro j task p values state hj hhit hdecode
    rcases hphase j with hout | ⟨hsame, htasks⟩
    · rw [hout] at hhit
      cases hhit
    · rw [htasks] at hj
      have hgiven := hrecorded.given j task hj
      exact (h.hits j task p values state hj (hsame ▸ hhit) hdecode).step hgiven hok hs
  · intro id request response hmem hsuccess
    rcases hanswers id request response hmem hsuccess with hmem | ⟨state, hstate, hid, huptodate⟩
    · obtain ⟨state, hstate, huptodate⟩ := h.answers id request response hmem hsuccess
      exact ⟨state, hstate, huptodate.step (hrecorded.older _ hmem) hok hs⟩
    · exact ⟨state, hstate, huptodate.step hid hok hs⟩

section Exec

variable {i : ι} {c : Cmd} {r : c.Reply} {store : Store ι} {ψ : Phase}

/-- What a request writes back is committed, and is what the snapshot shows already. -/
theorem Freshness.loaded (h : Freshness env ok w₀ w φ) {state : PlayerState}
    (hφ : φ i = .loaded p state) : w.store.mysql.tables.playerState p = some state ∧
      ∀ e, w.store.redis.live (.playerSnapshot p) = some e → e.Shows (some state) := by
  have hreads := h.reads i
  rw [hφ] at hreads
  refine ⟨hreads, fun e he => ?_⟩
  have hcurrent := h.current i p (by rw [hφ]; rfl) e he
  rw [show w.store.mysql.tables.playerState p = some state from hreads] at hcurrent
  exact hcurrent

/-- A snapshot after a command shows the state of a recent instant, or what is committed
after it. -/
theorem Freshness.snapshots_exec (h : Freshness env ok w₀ w φ)
    (hp : w.store.Performed i none c r store) (hadv : Advance cfg (φ i) c r ψ)
    (hsteady : ∀ p, ψ.uncached = some p →
      store.mysql.tables.playerState p = w.store.mysql.tables.playerState p) {e : RedisEntry}
    (he : store.redis.live (.playerSnapshot p) = some e) :
    (w.store.mysql.tables.playerState p).isSome = true ∧
      (e.Shows (store.mysql.tables.playerState p) ∨
        ∃ v, Recent env ok w₀ p w v ∧ e.Shows (v.store.mysql.tables.playerState p)) := by
  rcases hadv.snapshot hp (fun state e hφ => (h.loaded hφ).2 e) he with
    ⟨e', he', hvalue⟩ | ⟨state, hφ, hψ, hshows⟩
  · obtain ⟨hsome, v, hrecent, values, state, hvalues, hstate, hsub⟩ := h.snapshots p e' he'
    exact ⟨hsome, .inr ⟨v, hrecent, values, state, hvalue.trans hvalues, hstate, hsub⟩⟩
  · have hstate := (h.loaded hφ).1
    rw [hsteady p (by rw [hψ]; rfl), hstate]
    exact ⟨rfl, .inl hshows⟩

/-- A snapshot after a command shows what is committed, if a request is running that has
seen it missing. -/
theorem Freshness.current_exec (h : Freshness env ok w₀ w φ)
    (hp : w.store.Performed i none c r store) (hadv : Advance cfg (φ i) c r ψ) {e : RedisEntry}
    (he : store.redis.live (.playerSnapshot p) = some e) {j : ι}
    (hj : (Function.update φ i ψ j).uncached = some p) :
    e.Shows (w.store.mysql.tables.playerState p) := by
  rcases hadv.snapshot hp (fun state e hφ => (h.loaded hφ).2 e) he with
    ⟨e', he', hvalue⟩ | ⟨state, hφ, hψ, hshows⟩
  · -- the snapshot was there before
    have hkept : e'.Shows (w.store.mysql.tables.playerState p) →
        e.Shows (w.store.mysql.tables.playerState p) := by
      rintro ⟨values, state, hvalues, hstate⟩
      exact ⟨values, state, hvalue.trans hvalues, hstate⟩
    by_cases hji : j = i
    · subst hji
      rw [Function.update_self] at hj
      rcases hadv.uncached hj with hφ | hx
      · exact hkept (h.current j p hφ e' he')
      · -- it has just found or left an empty hash, which shows any state
        obtain ⟨hsome, v, -, values, state, hvalues, -, -⟩ := h.snapshots p e' he'
        obtain ⟨state, hstate⟩ := Option.isSome_iff_exists.mp hsome
        obtain rfl := empty_of_uncached hp hx he (hvalue.trans hvalues)
        exact ⟨[], state, hvalue.trans hvalues, hstate, .nil _⟩
    · rw [Function.update_of_ne hji] at hj
      exact hkept (h.current j p hj e' he')
  · rw [(h.loaded hφ).1]
    exact hshows

/-- What a request finds in a snapshot is up to date. -/
theorem Freshness.hit_exec (h : Freshness env ok w₀ w φ)
    (hp : w.store.Performed i none c r store) {values : List (String × String)}
    (hadv : Advance cfg (φ i) c r (.hit p values)) {task : Task} (htask : w.tasks i = some task)
    {state : PlayerState} (hdecode : RedisPlayerCacheRepository.decode values = some state) :
    UpToDate env ok w₀ w task.id p state := by
  rcases hadv.found with hφ | ⟨hne, hcall⟩
  · exact h.hits i task p values state htask hφ hdecode
  · cases hcall
    obtain ⟨e, he, hvalue⟩ := hp.hgetall_values hne
    obtain ⟨-, v, hrecent, values', shown, hvalue', hshown, hsub⟩ := h.snapshots p e he
    obtain rfl := RedisValue.hash.inj (hvalue.symm.trans hvalue')
    obtain rfl := RedisPlayerCacheRepository.decode_of_subHash hsub hdecode
    exact hrecent.upToDate hshown task.id

end Exec

/-- Every command of a request keeps snapshots up to date. -/
theorem Freshness.exec (h : Freshness env ok w₀ w φ) (hr : World.Run env ok w₀ w)
    (hphased : Phased env w φ) (hscoped : Scoped env w) (hrecorded : Recorded w)
    (hcore : Core env w φ) {i : ι} (hok : ok w (.exec i none))
    (hapart : CommitsApart w (.exec i none)) (hs : w.step env (.exec i none) = some w')
    (hmove : Moves env w φ (.exec i none) w' φ')
    (hstep : TableStep env.dungeonConfig w w' φ φ' (.exec i none)) :
    Freshness env ok w₀ w' φ' := by
  have hsteady := fun j p (hj : (φ' j).uncached = some p) =>
    playerState_of_uncached hphased hscoped hapart hstep hj
  have hsome := isSome_playerState_of_step hstep
  cases hmove with
  | exec task performed advance =>
    rename_i id request trail c k r store ψ
    have hself : Function.update φ i ψ i = ψ := Function.update_self ..
    refine ⟨fun p e he => ?_, fun j p hj e he => ?_, fun j => ?_, ?_, ?_⟩
    · obtain ⟨hsome', hshows⟩ := h.snapshots_exec performed advance
        (fun p hp => (hsteady i p (by rw [hself]; exact hp)).1) he
      refine ⟨(hsome p).trans hsome', ?_⟩
      rcases hshows with hshows | ⟨v, hrecent, hshows⟩
      · exact ⟨_, .refl (hr.tail hok hs), hshows⟩
      · refine ⟨v, hrecent.step hok hs fun e hmem hack => ?_, hshows⟩
        exact (List.mem_cons.mp hmem).resolve_left (by rintro rfl; exact hack)
    · rw [(hsteady j p hj).1]
      exact h.current_exec performed advance he hj
    · refine Phase.Reads.congr (t := w.store.mysql.tables) ?_ (hsteady j)
      by_cases hji : j = i
      · subst hji
        rw [hself]
        exact advance.reads performed (fun _ => rfl) (hcore.txn j) (h.reads j)
      · rw [Function.update_of_ne hji]
        exact h.reads j
    · intro j task' p values state hj hhit hdecode
      rcases some_of_update hj with ⟨rfl, heq⟩ | ⟨hji, hj⟩
      · rw [hself] at hhit
        subst hhit
        obtain rfl := Option.some.inj heq
        exact (h.hit_exec performed advance task hdecode).step (hrecorded.given j _ task) hok hs
      · rw [Function.update_of_ne hji] at hhit
        have hgiven := hrecorded.given j task' hj
        exact (h.hits j task' p values state hj hhit hdecode).step hgiven hok hs
    · intro id' request' response hmem hsuccess
      have hbefore := (List.mem_cons.mp hmem).resolve_left nofun
      obtain ⟨state, hstate, huptodate⟩ := h.answers id' request' response hbefore hsuccess
      exact ⟨state, hstate, huptodate.step (hrecorded.older _ hbefore) hok hs⟩

omit [DecidableEq ι] in
/-- A deed is answered by a request that has deleted the snapshot. -/
theorem uncached_of_ends {request : Request} {response : Response} {ψ : Phase}
    (hends : Ends cfg request response ψ) (hlocks : request.locks = some p)
    (hsuccess : response.success = true) : ψ.uncached = some p := by
  cases request <;> cases response <;> try exact hends.elim
  case enterDungeon.enterDungeon => exact hends.1 hsuccess ▸ hlocks
  case settleDungeon.settleDungeon => exact hends.1 hsuccess ▸ hlocks
  case login.login => cases hlocks
  case loadPlayer.loadPlayer => cases hlocks
  case restoreBinding.restoreBinding => cases hlocks

/-- A `LoadPlayer` that succeeds returns an up to date state. -/
theorem Freshness.upToDate_of_ends (h : Freshness env ok w₀ w φ) (hr : World.Run env ok w₀ w)
    {i : ι} {task : Task} (hi : w.tasks i = some task) {request : LoadPlayerRequest}
    {response : LoadPlayerResponse}
    (hends : Ends cfg (.loadPlayer request) (.loadPlayer response) (φ i))
    (hsuccess : response.success = true) : ∃ state, response.playerState = some state ∧
      UpToDate env ok w₀ w task.id request.playerId state := by
  -- the state was read from MySQL, or found in the snapshot
  obtain ⟨state, hstate, hφ | ⟨values, hφ, hdecode⟩⟩ := hends.2.2 hsuccess
  · exact ⟨state, hstate, (Recent.refl hr).upToDate (h.loaded hφ).1 task.id⟩
  · exact ⟨state, hstate, h.hits i task _ values state hi hφ hdecode⟩

/-- Every step keeps snapshots up to date. -/
theorem Freshness.step (h : Freshness env ok w₀ w φ) (hr : World.Run env ok w₀ w)
    (hphased : Phased env w φ) (hscoped : Scoped env w) (hrecorded : Recorded w)
    (hcore : Core env w φ) (hok : ok w l) (hfaultless : l.faultless = true)
    (hapart : CommitsApart w l) (hs : w.step env l = some w') (hmove : Moves env w φ l w' φ')
    (hstep : TableStep env.dungeonConfig w w' φ φ' l) : Freshness env ok w₀ w' φ' := by
  have hmove' := hmove
  -- a process that goes back to rest
  have hrest : ∀ {i : ι} (j : ι), Function.update φ i .outside j = .outside ∨
      (Function.update φ i .outside j = φ j ∧ Function.update w.tasks i none j = w.tasks j) := by
    intro i j
    by_cases hj : j = i
    · exact .inl (by rw [hj, Function.update_self])
    · exact .inr ⟨Function.update_of_ne hj .., Function.update_of_ne hj ..⟩
  cases hmove with
  | start idle =>
    rename_i i request
    refine h.keep hr hrecorded hok hs rfl (fun _ _ he => he) (fun j => ?_)
      (fun e hmem p hack => ?_) ?_
    · by_cases hj : j = i
      · exact .inl (hj ▸ hphased.idle i idle)
      · exact .inr ⟨rfl, Function.update_of_ne hj ..⟩
    · exact .inl ((List.mem_cons.mp hmem).resolve_left (by rintro rfl; exact hack))
    · exact fun id request response hmem _ => .inl ((List.mem_cons.mp hmem).resolve_left nofun)
  | exec task performed advance =>
    rename_i i fault id request trail c k r store ψ
    cases fault with
    | none => exact h.exec hr hphased hscoped hrecorded hcore hok hapart hs hmove' hstep
    | some message => cases hfaultless
  | finish task ends =>
    -- a deed is acknowledged while its request still counts as having seen the snapshot missing
    rename_i i id request trail response
    refine h.keep hr hrecorded hok hs rfl (fun _ _ he => he) hrest (fun e hmem p hack => ?_) ?_
    · rcases List.mem_cons.mp hmem with rfl | hmem
      · exact .inr ⟨i, uncached_of_ends ends hack.1 hack.2⟩
      · exact .inl hmem
    · intro id' request' response' hmem hsuccess
      rcases List.mem_cons.mp hmem with heq | hmem
      · cases heq
        obtain ⟨state, hstate, huptodate⟩ := h.upToDate_of_ends hr task ends hsuccess
        exact .inr ⟨state, hstate, hrecorded.given i _ task, huptodate⟩
      · exact .inl hmem
  | crash noted =>
    rename_i i history
    have hhistory : ∀ e ∈ history, e ∈ w.history ∨ ∃ id, e = .stop id := by
      intro e hmem
      rcases noted with rfl | ⟨task, -, rfl⟩
      · exact .inl hmem
      · exact (List.mem_cons.mp hmem).symm.imp_right fun he => ⟨_, he⟩
    refine h.keep hr hrecorded hok hs rfl (fun _ _ he => he) hrest (fun e hmem p hack => ?_) ?_
    · refine .inl ((hhistory e hmem).resolve_right ?_)
      rintro ⟨id, rfl⟩
      exact hack
    · intro id request response hmem _
      refine .inl ((hhistory _ hmem).resolve_right ?_)
      rintro ⟨id', heq⟩
      cases heq
  | tick =>
    exact h.keep hr hrecorded hok hs rfl (fun _ _ he => Redis.live_of_tick he)
      (fun _ => .inr ⟨rfl, rfl⟩) (fun _ hmem _ _ => .inl hmem) fun _ _ _ hmem _ => .inl hmem
  | evict =>
    rename_i k
    refine h.keep hr hrecorded hok hs rfl (fun p e he => ?_) (fun _ => .inr ⟨rfl, rfl⟩)
      (fun _ hmem _ _ => .inl hmem) fun _ _ _ hmem _ => .inl hmem
    by_cases hk : RedisKey.playerSnapshot p = k
    · subst hk
      exact absurd (Redis.entries_of_live he) (by simp [Store.evict])
    · rwa [Store.evict, Redis.live_put_ne hk] at he

theorem World.Run.freshness (hw₀ : w₀.Fresh)
    (hsnapshots : ∀ p e, w₀.store.redis.live (.playerSnapshot p) = some e →
      e.Shows (w₀.store.mysql.tables.playerState p))
    (h : World.Run env (fun w l => l.faultless = true ∧ CommitsApart w l) w₀ w) :
    ∃ φ, Phased env w φ ∧ Core env w φ ∧
      Freshness env (fun w l => l.faultless = true ∧ CommitsApart w l) w₀ w φ := by
  refine h.invariant (I := fun w => ∃ φ, Phased env w φ ∧ Core env w φ ∧
    Freshness env (fun w l => l.faultless = true ∧ CommitsApart w l) w₀ w φ)
    ⟨_, .rest hw₀.tasks, .init hw₀, .init hw₀.history hsnapshots⟩ ?_
  rintro w l w' hr ⟨φ, hphased, hcore, hfresh⟩ hok hs
  obtain ⟨φ', hmove, hphased'⟩ := hphased.step hs
  obtain ⟨hcore', hstep⟩ := hcore.step (Label.not_fails hok.1 _) hmove
  exact ⟨φ', hphased', hcore', hfresh.step hr hphased (World.Run.scoped hw₀ hr)
    (World.Run.recorded hw₀ hr) hcore hok hok.1 hok.2 hs hmove hstep⟩

/-- **Fresh profiles.** In every run that starts with snapshots of the committed states, in
which no command fails, and in which no deed of a player is committed while another request
is running that has found the snapshot of the player missing or has deleted it: the state
that a successful `LoadPlayer` returns is up to date. Requests of any processes interleave
command by command, processes stop, time passes and keys are evicted. -/
theorem load_player_up_to_date (hw₀ : w₀.Fresh)
    (hsnapshots : ∀ p e, w₀.store.redis.live (.playerSnapshot p) = some e →
      e.Shows (w₀.store.mysql.tables.playerState p))
    (h : World.Run env (fun w l => l.faultless = true ∧ CommitsApart w l) w₀ w) {id : ℕ}
    {request : LoadPlayerRequest} {response : LoadPlayerResponse}
    (hreturned : Event.finish id (.loadPlayer request) (.loadPlayer response) ∈ w.history)
    (hsuccess : response.success = true) : ∃ state, response.playerState = some state ∧
      UpToDate env (fun w l => l.faultless = true ∧ CommitsApart w l) w₀ w id request.playerId
        state := by
  obtain ⟨φ, -, -, hfresh⟩ := h.freshness hw₀ hsnapshots
  exact hfresh.answers id request response hreturned hsuccess

/-- The newest event returns a state with this gold to a `LoadPlayer` of the demo player that
found it in the cache; the event before the request began returns success to a settlement. -/
def demoReturns (gold : ℤ) : List Event → Bool
  | .finish id (.loadPlayer request) (.loadPlayer response) :: .call _ _ _ :: .call _ _ _ ::
      .start id' _ :: .finish _ (.settleDungeon settled) (.settleDungeon answer) :: _ =>
    decide (id' = id ∧ request.playerId = 20001 ∧ settled.playerId = 20001 ∧
      response.success = true ∧ answer.success = true ∧ response.loadedFromCache = true ∧
      response.playerState.map (fun state => state.profile.gold) = some gold)
  | _ => false

/-- What the test shows. -/
theorem of_demoReturns {gold : ℤ} {history : List Event} (h : demoReturns gold history = true) :
    ∃ id request response id' settled answer calls begun before,
      history = .finish id (.loadPlayer request) (.loadPlayer response) ::
        (calls ++ .start id begun ::
          .finish id' (.settleDungeon settled) (.settleDungeon answer) :: before) ∧
      request.playerId = 20001 ∧ settled.playerId = 20001 ∧ response.success = true ∧
      answer.success = true ∧
      response.playerState.map (fun state => state.profile.gold) = some gold := by
  unfold demoReturns at h
  split at h
  · obtain ⟨rfl, hp, hp', hsuccess, hsuccess', -, hgold⟩ := of_decide_eq_true h
    exact ⟨_, _, _, _, _, _, [_, _], _, _, rfl, hp, hp', hsuccess, hsuccess', hgold⟩
  · cases h

/-- No command fails, and the other process is idle when one commits. -/
def demoApart (w : World Bool) (l : Label Bool) : Bool :=
  l.faultless && match l with
    | .exec i _ =>
      match w.next i with
      | some (.sql .commit) => (w.tasks (!i)).isNone
      | _ => true
    | _ => true

theorem apart_of_demoApart {w : World Bool} {l : Label Bool} (h : demoApart w l = true) :
    l.faultless = true ∧ CommitsApart w l := by
  obtain ⟨hfaultless, hidle⟩ := Bool.and_eq_true_iff.mp h
  refine ⟨hfaultless, ?_⟩
  cases l with
  | exec i fault =>
    intro hnext task p _ _ j other hj hother
    obtain rfl : j = !i := Bool.eq_not.mpr hj
    simp only [hnext, hother] at hidle
    cases hidle
  | _ => trivial

/-- A `LoadPlayer` reads the old state between the commit of an `EnterDungeon` and the
deletion of the snapshot; another one writes the snapshot back before a settlement is
answered, and the last one finds it. -/
theorem load_player_up_to_date_demo :
    ∃ (w : World Bool) (id : ℕ) (request : LoadPlayerRequest) (response : LoadPlayerResponse),
      World.Run demoEnv (fun w l => l.faultless = true ∧ CommitsApart w l) emptyWorld w ∧
      w.store.mysql.binlog.length = 2 ∧ response.success = true ∧
      ∃ state, response.playerState = some state ∧ state.profile.gold = 1100 ∧
        UpToDate demoEnv (fun w l => l.faultless = true ∧ CommitsApart w l) emptyWorld w id
          request.playerId state := by
  have hrun : (replay (World.step demoEnv) demoApart emptyWorld
      (Label.alone false (.login ⟨"demo", "demo"⟩) 9 ++
        Label.alone false (.loadPlayer ⟨"sess-10001-20001-1", 20001⟩) 13 ++
        .start true (.enterDungeon ⟨"sess-10001-20001-1", 20001, 1001⟩) ::
          List.replicate 10 (.exec true none) ++
        Label.alone false (.loadPlayer ⟨"sess-10001-20001-1", 20001⟩) 2 ++
        List.replicate 8 (.exec true none) ++ .finish true ::
        .start true (.settleDungeon demoSettlement) :: List.replicate 13 (.exec true none) ++
        Label.alone false (.loadPlayer ⟨"sess-10001-20001-1", 20001⟩) 13 ++
        [.exec true none, .finish true] ++
        Label.alone true (.loadPlayer ⟨"sess-10001-20001-1", 20001⟩) 2)).any
      (fun w => demoReturns 1100 w.history && decide (w.store.mysql.binlog.length = 2)) = true := by
    decide +kernel
  obtain ⟨w, hreach, hend⟩ := Reach.of_replay_any (fun _ _ => apart_of_demoApart) hrun
  obtain ⟨hreturns, hlength⟩ := Bool.and_eq_true_iff.mp hend
  obtain ⟨id, request, response, _, _, _, _, _, _, hhistory, -, -, hsuccess, -, hgold⟩ :=
    of_demoReturns hreturns
  obtain ⟨state, hstate, huptodate⟩ := load_player_up_to_date
    (World.fresh_boot rfl fun _ => rfl) (fun _ _ he => by cases he) hreach
    (hhistory ▸ List.mem_cons_self) hsuccess
  rw [hstate] at hgold
  exact ⟨w, id, request, response, hreach, of_decide_eq_true hlength, hsuccess, state, hstate,
    Option.some.inj hgold, huptodate⟩

/-- The gold of a state is the gold of the assets. -/
theorem gold_of_playerState {t : Tables} {state : PlayerState} {a : AssetRow}
    (h : t.playerState p = some state) (ha : t.playerAsset.find p = some a) :
    state.profile.gold = a.gold := by
  simp only [Tables.playerState, Query.rows, Option.head?_toList, Option.map_map,
    Option.map_eq_some_iff] at h
  obtain ⟨row, -, rfl⟩ := h
  simp [stateOf, ha]

/-- **A stale profile.** A `LoadPlayer` misses the snapshot and reads MySQL; a settlement is
committed and deletes the snapshot; the `LoadPlayer` writes back what it has read, and the
settlement is answered. The next `LoadPlayer` returns the gold from before it. -/
theorem load_player_stale :
    ¬∀ (w : World Bool) (id : ℕ) (request : LoadPlayerRequest) (response : LoadPlayerResponse),
      World.Run demoEnv (fun _ l => l.faultless = true) emptyWorld w →
      Event.finish id (.loadPlayer request) (.loadPlayer response) ∈ w.history →
      response.success = true → ∃ state, response.playerState = some state ∧
        UpToDate demoEnv (fun _ l => l.faultless = true) emptyWorld w id request.playerId
          state := by
  intro hall
  have hrun : (replay (World.step demoEnv) (fun _ l => l.faultless) emptyWorld
      (Label.alone false (.login ⟨"demo", "demo"⟩) 9 ++
        Label.alone true (.enterDungeon ⟨"sess-10001-20001-1", 20001, 1001⟩) 18 ++
        .start false (.loadPlayer ⟨"sess-10001-20001-1", 20001⟩) ::
          List.replicate 4 (.exec false none) ++
        .start true (.settleDungeon demoSettlement) :: List.replicate 13 (.exec true none) ++
        List.replicate 9 (.exec false none) ++ [.finish false, .exec true none, .finish true] ++
        Label.alone true (.loadPlayer ⟨"sess-10001-20001-1", 20001⟩) 2)).any
      (fun w => demoReturns 1000 w.history) = true := by
    decide +kernel
  obtain ⟨w, hreach, hreturns⟩ : ∃ w, World.Run demoEnv (fun _ l => l.faultless = true)
      emptyWorld w ∧ demoReturns 1000 w.history = true :=
    Reach.of_replay_any (fun _ _ h => h) hrun
  obtain ⟨id, request, response, id', settled, answer, calls, begun, before, hhistory, hp, hp',
    hsuccess, hsuccess', hgold⟩ := of_demoReturns hreturns
  obtain ⟨state, hstate, v, hpast, -, hv, hbefore⟩ := hall w id request response hreach
    (hhistory ▸ List.mem_cons_self) hsuccess
  rw [hstate, Option.map_some, Option.some.injEq] at hgold
  have hroll : ∀ (w : World Bool) l, Label.faultless l = true → ¬w.Fails l (.sql .rollback) :=
    fun _ _ hl => Label.not_fails hl _
  have hfresh : emptyWorld.Fresh := World.fresh_boot rfl fun _ => rfl
  -- the settlement was answered at that instant, so its gold was paid
  have hacked := hbefore (_ :: calls) begun _ hhistory _ List.mem_cons_self
    ⟨congrArg some (hp'.trans hp.symm), hsuccess'⟩
  obtain ⟨_, -, -, hcustody⟩ := World.Run.custody hfresh (fun _ => rfl) (fun _ => rfl) hroll hpast
  obtain ⟨⟨row, hrow, hstatus, hplayer⟩, -⟩ := (hcustody.vouched _ _ _ hacked hsuccess').belongs
  obtain ⟨deeds, -, hledger⟩ := World.Run.books hfresh hroll hpast
  obtain ⟨a, ha, -, hpaid⟩ := hledger.balance hfresh.battles
    (show demoTables.playerAsset.find 20001 = some ⟨20001, 120, 1000, 100⟩ from rfl)
  rw [hp] at hv
  have hsettled : 0 < v.store.mysql.tables.settledBattles 20001 :=
    List.countP_pos_iff.mpr ⟨row, Table.mem_of_find hrow,
      decide_eq_true ⟨hplayer.trans hp', hstatus⟩⟩
  have hsame := gold_of_playerState hv ha
  have hreward : demoEnv.dungeonConfig.normalGoldReward = 100 := rfl
  rw [hreward] at hpaid
  dsimp only at hpaid
  omega

end GameBackend
