import GameBackend.HashCompleteness

/-!
# Requests one after the other

The backend when every request is processed alone: `Store.serve` runs a request
from its first command to its response. Of its commands the ones that open a
transaction, write and commit may fail, in any choice. Between such requests time
passes, servers are restarted, keys are evicted (`Store.work`), and requests may
also be served together (`Store.Reached`).

`Store.AtRest` is the invariant between two requests. A request processed alone
always returns and leaves the store at rest (`Store.AtRest.serve`): no statement
waits for a lock, and every hash it reads decodes.
-/

namespace GameBackend

variable {ι : Type} [DecidableEq ι] {env : Env} {s s' s₀ : Store ι} {i : ι}

/-! ## The machine -/

/-- The statements that may fail: `START TRANSACTION`, the writes and `COMMIT`. -/
def Cmd.mayFail : Cmd → Bool
  | .sql .startTransaction => true
  | .sql (.write _) => true
  | .sql .commit => true
  | _ => false

namespace Store

/-- Execute a command of process `i`; with a `fault` it fails if it may. -/
def attempt (s : Store ι) (i : ι) (fault : Option String) (c : Cmd) :
    Option (c.Reply × Store ι) :=
  s.perform i (if c.mayFail then fault else none) c

/-- Process `i` serves a request alone; `faults n` is the fault of its `n`th
command. -/
def serve (env : Env) (s : Store ι) (i : ι) (request : Request) (faults : ℕ → Option String) :
    Option (Response × Store ι) :=
  (GameBackend.serve env request).run (fun s fault c => s.attempt i fault c) faults s

end Store

/-- What happens to a backend that serves one request after the other. -/
inductive Job (ι : Type) where
  | serve (i : ι) (request : Request) (faults : ℕ → Option String)
  | tick (ms : ℕ)
  | restart (i : ι)
  | evict (k : RedisKey)

namespace Store

/-- Do a job. -/
def work (env : Env) (s : Store ι) : Job ι → Option (Store ι)
  | .serve i request faults => (s.serve env i request faults).map Prod.snd
  | .tick ms => some (s.tick ms)
  | .restart i => some (s.crash i)
  | .evict k => some (s.evict k)

/-! ## At rest -/

/-- The servers before their first dungeon: no transaction is open, there are
neither battles nor battle contexts, and the sessions and snapshots are as their
writers leave them. -/
structure Fresh (env : Env) (s : Store ι) : Prop where
  txns : ∀ i, s.mysql.txns i = none
  locks : ∀ k, s.mysql.locks k = none
  battles : s.mysql.tables.dungeonBattle.rows = []
  contexts : ∀ b, s.redis.entries (.battleCtx b) = none
  hashes : s.redis.Tidy env

/-- Between two requests: row locking is sound and no transaction is open, the
player of a battle has assets, battle contexts agree with their rows, and all
hashes are whole. -/
structure AtRest (env : Env) (s : Store ι) : Prop where
  sound : s.mysql.Sound
  txns : ∀ i, s.mysql.txns i = none
  asset : ∀ b row, s.mysql.tables.dungeonBattle.find b = some row →
    (s.mysql.tables.playerAsset.find row.playerId).isSome = true
  contexts : ∀ b e, s.redis.entries (.battleCtx b) = some e →
    ContextOk env.dungeonConfig s.mysql.tables b e
  filled : Filled env s.redis fun _ : ι => .outside

omit [DecidableEq ι] in
theorem Fresh.atRest (h : s.Fresh env) : s.AtRest env where
  sound := .of_idle h.txns h.locks
  txns := h.txns
  asset b row hrow := by
    have := Table.mem_of_find hrow
    rw [h.battles] at this
    cases this
  contexts b e he := by
    rw [h.contexts b] at he
    cases he
  filled := .init h.hashes

theorem fresh_emptyWorld : emptyWorld.store.Fresh demoEnv :=
  ⟨fun _ => rfl, fun _ => rfl, rfl, fun _ => rfl, emptyWorld_tidy⟩

/-! ## During a request -/

/-- Process `i` serves a request alone and is in these phases of the two
protocols. -/
structure Steady (env : Env) (i : ι) (s : Store ι) (φ : Phase) (β : Filling) : Prop where
  sound : s.mysql.Sound
  txn : φ.Txn (s.mysql.txns i)
  others : ∀ j, j ≠ i → s.mysql.txns j = none
  knows : φ.Knows env.dungeonConfig s.mysql.tables
  asset : ∀ b row, s.mysql.tables.dungeonBattle.find b = some row →
    (s.mysql.tables.playerAsset.find row.playerId).isSome = true
  contexts : ∀ b e, s.redis.entries (.battleCtx b) = some e →
    ContextOk env.dungeonConfig s.mysql.tables b e
  filled : Filled env s.redis (Function.update (fun _ : ι => .outside) i β)

variable {φ ψ : Phase} {β γ : Filling} {fault : Option String} {c : Cmd} {r : c.Reply}

theorem AtRest.steady (h : s.AtRest env) (i : ι) : Steady env i s .outside .outside where
  sound := h.sound
  txn := h.txns i
  others j _ := h.txns j
  knows := trivial
  asset := h.asset
  contexts := h.contexts
  filled := by
    rw [Function.update_eq_self]
    exact h.filled

/-- A request that holds no lock has nothing open. -/
theorem Steady.atRest (h : Steady env i s φ .outside) (hlock : φ.lock = none) : s.AtRest env where
  sound := h.sound
  txns j := by
    by_cases hj : j = i
    · subst hj
      exact Phase.txn_of_lock hlock h.txn
    · exact h.others j hj
  asset := h.asset
  contexts := h.contexts
  filled := by
    have hfilled := h.filled
    rwa [Function.update_eq_self] at hfilled

/-- No command of a request that is processed alone waits for a lock. -/
theorem Steady.perform (h : Steady env i s φ β) (fault : Option String) (c : Cmd) :
    ∃ r s', s.perform i fault c = some (r, s') := by
  cases c with
  | redis c => cases fault <;> exact ⟨_, _, rfl⟩
  | fetchAddSequence => exact ⟨_, _, rfl⟩
  | epochSeconds => exact ⟨_, _, rfl⟩
  | sql c =>
    cases fault with
    | some message => exact ⟨_, _, rfl⟩
    | none =>
      cases c with
      | startTransaction | commit | rollback | select q => exact ⟨_, _, rfl⟩
      | write w =>
        have hfree : s.mysql.locks w.key = none ∨ s.mysql.locks w.key = some i := by
          rcases hlock : s.mysql.locks w.key with _ | j
          · exact .inl rfl
          · by_cases hj : j = i
            · exact .inr (congrArg some hj)
            · have hopen := h.sound.held _ j hlock
              rw [h.others j hj] at hopen
              cases hopen
        simp only [Store.perform, Mysql.execute, if_pos hfree]
        split
        · exact ⟨_, _, rfl⟩
        · exact ⟨_, _, rfl⟩
        · split
          · exact ⟨_, _, rfl⟩
          · exact ⟨_, _, rfl⟩

/-- Every hash it reads decodes. -/
theorem Steady.readable (h : Steady env i s φ β) (hp : s.Performed i fault c r s')
    (hplain : c.ofHSet = false → β = .outside) : c.Readable r := by
  refine h.filled.readable hp ?_
  rintro k rfl - j written left hj
  rw [hplain rfl, Function.update_eq_self] at hj
  cases hj

/-- The faults a request alone can bear: no `ROLLBACK` fails, and no command of a
write of a hash but its first one. -/
structure Bearable (s : Store ι) (c : Cmd) (fault : Option String) : Prop where
  rollback : c = .sql .rollback → fault = none
  writes : ∀ d, c = .redis d → c.ofHSet = true → s.redis.live d.key ≠ none → fault = none

omit [DecidableEq ι] in
theorem bearable_of_mayFail (hfault : c.mayFail = false → fault = none) : Bearable s c fault where
  rollback hc := hfault (hc ▸ rfl)
  writes _ hd _ _ := hfault (hd ▸ rfl)

/-- Only the first command of a write is sent while its hash may be absent. -/
theorem Steady.outside_of_fault (h : Steady env i s φ β) {d : RedisCmd} {r : d.Reply}
    {message : String} (hbear : Bearable s (.redis d) (some message))
    (hfills : Fills env β (.redis d) r γ) : β = .outside := by
  rcases hβ : β with _ | ⟨k, written, left⟩
  · rfl
  · subst hβ
    obtain ⟨e, he, -⟩ := (h.filled.begun i k written left (Function.update_self ..)).live
    have hkey : d.key = k := by
      cases hfills with
      | next | nextFails | expire _ => rfl
    have hlive : s.redis.live d.key ≠ none := by
      rw [hkey, he]
      exact Option.some_ne_none e
    exact absurd (hbear.writes d rfl hfills.ofHSet hlive) (Option.some_ne_none message)

/-- A command the protocols allow keeps the invariant, whatever bearable fault it
meets. -/
theorem Steady.bear (h : Steady env i s φ β) (hp : s.Performed i fault c r s')
    (hadv : Advance env.dungeonConfig φ c r ψ) (hfills : Fills env β c r γ)
    (hbear : Bearable s c fault) :
    Steady env i s' ψ γ ∧ DbStep env.dungeonConfig s.mysql s'.mysql φ ψ := by
  have hgood := hadv.dbStep hp hbear.rollback h.sound h.txn h.knows h.asset
  have hknows := hadv.knows hp h.txn h.knows h.contexts hgood.step
  have hcontexts := hadv.contexts hp h.knows h.contexts
  refine ⟨⟨hgood.sound, hgood.txn, fun j hj => (hgood.others j hj).trans (h.others j hj), hknows,
    ?_, ?_, ?_⟩, hgood.step⟩
  · rcases hgood.step with ⟨htables, -⟩ | ⟨-, -, htransacts, -⟩
    · exact htables ▸ h.asset
    · exact asset_mono htransacts h.asset
  · rcases hgood.step with ⟨htables, -⟩ | ⟨-, -, htransacts, -⟩
    · exact htables ▸ hcontexts
    · exact fun b e he => (hcontexts b e he).mono htransacts
  · have hself : Function.update (fun _ : ι => Filling.outside) i β i = β := Function.update_self ..
    have hfilled : Filled env s'.redis
        (Function.update (Function.update (fun _ : ι => .outside) i β) i γ) := by
      refine h.filled.performed hp (hself.symm ▸ hfills) ?_ ?_
      · rintro d message rfl rfl k written left hmid
        rw [hself, h.outside_of_fault hbear hfills] at hmid
        cases hmid
      · intro k _ _ j written left hj hmid
        rw [Function.update_of_ne hj] at hmid
        cases hmid
    rwa [Function.update_idem] at hfilled

/-! ## Every request -/

/-- **A request processed alone** by an executor with bearable faults returns a
response that tells its phase, leaves the store at rest, and keeps whatever its
commands keep. -/
theorem AtRest.run {X : Type} {exec : Store ι → X → (c : Cmd) → Option (c.Reply × Store ι)}
    {P : Store ι → Cmd → Option String → Prop} {J : Store ι → Phase → Prop}
    (hexec : ∀ s x c, ∃ fault, exec s x c = s.perform i fault c ∧ P s c fault)
    (hP : ∀ s c fault, P s c fault → Bearable s c fault) (h : s.AtRest env) (hJ : J s .outside)
    (hstep : ∀ {s s' : Store ι} {φ ψ : Phase} {β : Filling} {fault : Option String} {c : Cmd}
      {r : c.Reply}, Steady env i s φ β → J s φ → s.Performed i fault c r s' →
      Advance env.dungeonConfig φ c r ψ → P s c fault →
      DbStep env.dungeonConfig s.mysql s'.mysql φ ψ → J s' ψ)
    (request : Request) (x : ℕ → X) :
    ∃ response s' φ, (GameBackend.serve env request).run exec x s = some (response, s') ∧
      Ends env.dungeonConfig request response φ ∧ s'.AtRest env ∧ J s' φ := by
  have hexec' : ∀ (s : Store ι) (φ : Phase × Filling) (x : X) (c : Cmd),
      (Steady env i s φ.1 φ.2 ∧ J s φ.1) →
      (∀ r, c.Plausible r ∧ c.Readable r →
        ∃ φ' : Phase × Filling, Advance env.dungeonConfig φ.1 c r φ'.1 ∧ Fills env φ.2 c r φ'.2) →
      ∃ r s', exec s x c = some (r, s') ∧ (c.Plausible r ∧ c.Readable r) ∧
        ∀ φ' : Phase × Filling, Advance env.dungeonConfig φ.1 c r φ'.1 ∧ Fills env φ.2 c r φ'.2 →
          Steady env i s' φ'.1 φ'.2 ∧ J s' φ'.1 := by
    rintro s ⟨φ, β⟩ x c ⟨hsteady, hJ⟩ hallowed
    obtain ⟨fault, hfault, hPs⟩ := hexec s x c
    obtain ⟨r, s', hperform⟩ := hsteady.perform fault c
    have hperformed := performed_of_perform hperform
    refine ⟨r, s', hfault.trans hperform,
      ⟨plausible_of_perform hperform, hsteady.readable hperformed ?_⟩, ?_⟩
    · intro hc
      obtain ⟨r₀, hr₀⟩ := c.exists_answer
      obtain ⟨φ', -, hfills⟩ := hallowed r₀ hr₀
      cases β with
      | outside => rfl
      | midway k written left =>
        rw [hfills.ofHSet] at hc
        cases hc
    · rintro ⟨ψ, γ⟩ ⟨hadv, hfills⟩
      obtain ⟨hsteady', hdb⟩ := hsteady.bear hperformed hadv hfills (hP s c fault hPs)
      exact ⟨hsteady', hstep hsteady hJ hperformed hadv hPs hdb⟩
  obtain ⟨response, s', hrun, ⟨φ, β⟩, ⟨hends, rfl⟩, hsteady, hJ'⟩ :=
    (((serve_obeys env request).both (serve_tidy env request)).ensures (fun _ h => h.2) hexec'
      ⟨h.steady i, hJ⟩).run x
  exact ⟨response, s', φ, hrun, hends, hsteady.atRest hends.lock, hJ'⟩

/-- The same for the statements that may fail. -/
theorem AtRest.serve {J : Store ι → Phase → Prop} (h : s.AtRest env) (hJ : J s .outside)
    (hstep : ∀ {s s' : Store ι} {φ ψ : Phase} {β : Filling} {fault : Option String} {c : Cmd}
      {r : c.Reply}, Steady env i s φ β → J s φ → s.Performed i fault c r s' →
      Advance env.dungeonConfig φ c r ψ → (c.mayFail = false → fault = none) →
      DbStep env.dungeonConfig s.mysql s'.mysql φ ψ → J s' ψ)
    (request : Request) (faults : ℕ → Option String) :
    ∃ response s' φ, s.serve env i request faults = some (response, s') ∧
      Ends env.dungeonConfig request response φ ∧ s'.AtRest env ∧ J s' φ := by
  refine AtRest.run (P := fun _ c fault => c.mayFail = false → fault = none) ?_
    (fun _ _ _ => bearable_of_mayFail) h hJ hstep request faults
  intro s fault c
  refine ⟨if c.mayFail then fault else none, rfl, fun hc => ?_⟩
  rw [hc]
  rfl

/-! ## Between requests -/

omit [DecidableEq ι] in
theorem AtRest.tick (h : s.AtRest env) (ms : ℕ) : (s.tick ms).AtRest env :=
  ⟨h.sound, h.txns, h.asset, h.contexts, h.filled.tick fun _ _ _ _ hβ => nomatch hβ⟩

theorem AtRest.crash (h : s.AtRest env) (i : ι) : (s.crash i).AtRest env := by
  refine ⟨h.sound.rollback, fun j => ?_, h.asset, h.contexts, h.filled⟩
  by_cases hj : j = i
  · subst hj
    simp [Store.crash, Mysql.rollbackTxn]
  · exact (Function.update_of_ne hj ..).trans (h.txns j)

omit [DecidableEq ι] in
theorem AtRest.evict (h : s.AtRest env) (k : RedisKey) : (s.evict k).AtRest env := by
  refine ⟨h.sound, h.txns, h.asset, fun b e he => ?_,
    h.filled.evict fun _ _ _ _ hβ => nomatch hβ⟩
  by_cases hk : RedisKey.battleCtx b = k
  · subst hk
    simp [Store.evict] at he
  · exact h.contexts b e ((Redis.entries_put_ne hk).symm.trans he)

/-- Every job keeps the store at rest. -/
theorem AtRest.work (h : s.AtRest env) {job : Job ι} (hwork : s.work env job = some s') :
    s'.AtRest env := by
  cases job with
  | serve i request faults =>
    obtain ⟨response, s'', φ, hserve, -, hrest, -⟩ := h.serve (i := i) (J := fun _ _ => True)
      trivial (fun _ _ _ _ _ _ => trivial) request faults
    simp only [Store.work, hserve, Option.map_some, Option.some.injEq] at hwork
    exact hwork ▸ hrest
  | tick ms => exact Option.some.inj hwork ▸ h.tick ms
  | restart i => exact Option.some.inj hwork ▸ h.crash i
  | evict k => exact Option.some.inj hwork ▸ h.evict k

/-- Requests that are served together leave the store at rest when the last one
is over, if they leave each other's writes alone. -/
theorem AtRest.together {w : World ι} (h : s.AtRest env)
    (hrun : World.Run env (fun w l => ¬w.Fails l (.sql .rollback) ∧ WritesUndisturbed env w l)
      ⟨s, fun _ => none, []⟩ w) (hidle : ∀ i, w.tasks i = none) : w.store.AtRest env := by
  have hcore : Core env ⟨s, fun _ => none, []⟩ fun _ => .outside :=
    ⟨h.sound, h.txns, fun _ => trivial, h.asset, h.contexts⟩
  obtain ⟨φ, hphased, hcore'⟩ := hrun.phased (I := Core env) (fun _ => rfl) hcore
    fun _ _ _ _ _ _ _ hI hok hmove => (hI.step hok.1 hmove).1
  have htidied : Tidied env ⟨s, fun _ => none, []⟩ fun _ => .outside :=
    ⟨fun _ _ => rfl, fun _ _ hi => (nomatch hi), fun _ _ _ _ _ hi => (nomatch hi), h.filled⟩
  obtain ⟨β, htidied'⟩ := hrun.invariant (I := fun w => ∃ β, Tidied env w β) ⟨_, htidied⟩
    fun _ _ _ _ ⟨_, hI⟩ hok hs => hI.step hok.2 hs
  have hβ : β = fun _ => .outside := funext fun i => htidied'.idle i (hidle i)
  refine ⟨hcore'.sound, fun i => ?_, hcore'.asset, hcore'.contexts, hβ ▸ htidied'.filled⟩
  have htxn := hcore'.txn i
  rwa [hphased.idle i (hidle i)] at htxn

/-- The stores of a backend at rest that has served requests alone, with any
choice of statements that failed, or together, whatever failed but a `ROLLBACK`, as
long as they left each other's writes of hashes alone. -/
inductive Reached (env : Env) (s₀ : Store ι) : Store ι → Prop where
  | start : Reached env s₀ s₀
  | work {s s' : Store ι} {job : Job ι} : Reached env s₀ s → s.work env job = some s' →
      Reached env s₀ s'
  | together {s : Store ι} {w : World ι} : Reached env s₀ s →
      World.Run env (fun w l => ¬w.Fails l (.sql .rollback) ∧ WritesUndisturbed env w l)
        ⟨s, fun _ => none, []⟩ w → (∀ i, w.tasks i = none) → Reached env s₀ w.store

theorem Reached.atRest (hs₀ : s₀.Fresh env) (h : Reached env s₀ s) : s.AtRest env := by
  induction h with
  | start => exact hs₀.atRest
  | work _ hwork ih => exact ih.work hwork
  | together _ hrun hidle ih => exact ih.together hrun hidle

/-- Jobs done one after the other. -/
theorem Reached.of_replay {jobs : List (Job ι)} (h : Reached env s₀ s)
    (hjobs : replay (Store.work env) (fun _ _ => true) s jobs = some s') : Reached env s₀ s' := by
  have hreach : Reach (Store.work env) (fun _ _ => True) s s' :=
    Reach.of_replay (fun _ _ _ => trivial) .refl hjobs
  exact hreach.invariant h fun _ _ _ _ hr _ hwork => hr.work hwork

end Store

end GameBackend
