import GameBackend.Services

/-!
# The servers at work

Any number of server processes share one MySQL server and one Redis server. Each
process serves one request at a time, each command of a request is one step, and
the steps of the processes interleave in any order.

* `Store` — the two servers and the sequence counters; `Store.perform` executes
  one command of one process, or lets it fail without effect. (There is no command
  that takes effect while its reply gets lost.)
* `World` — the store, the request every process is working on and the history
  of what happened, newest event first. The history only records; no step
  depends on it beyond the number it gives to a new request.
* `Label`, `World.step` — the steps: a request arrives, sends its next command,
  returns its response; a process stops; time passes; Redis evicts a key.
* `Does` — the same steps as a relation, one constructor a kind of step. Every
  proof about runs is a case analysis of it.
-/

namespace GameBackend

variable {ι : Type} [DecidableEq ι]

/-! ## The store -/

/-- What the server processes share, and their sequence counters. -/
structure Store (ι : Type) where
  mysql : Mysql ι
  redis : Redis
  sequence : ι → UInt64

namespace Store

/-- Execute a command of process `i`; with a `fault` it fails without effect and
MySQL gives the fault as its message. No result while a statement waits for a
row lock. -/
def perform (s : Store ι) (i : ι) (fault : Option String) :
    (c : Cmd) → Option (c.Reply × Store ι)
  | .sql c =>
    match fault with
    | some message => some (c.failed message, s)
    | none => (s.mysql.execute i c).map fun rm => (rm.1, { s with mysql := rm.2 })
  | .redis c =>
    match fault with
    | some _ => some (c.failed, s)
    | none => some ((s.redis.execute c).1, { s with redis := (s.redis.execute c).2 })
  | .fetchAddSequence =>
    some (s.sequence i, { s with sequence := Function.update s.sequence i (s.sequence i + 1) })
  | .epochSeconds => some ((s.redis.now / 1000 : ℕ), s)

/-- Process `i` stops: MySQL rolls its transaction back, and its counter starts
again. -/
def crash (s : Store ι) (i : ι) : Store ι :=
  { s with mysql := s.mysql.rollbackTxn i, sequence := Function.update s.sequence i 1 }

/-- Time passes. -/
def tick (s : Store ι) (ms : ℕ) : Store ι := { s with redis := s.redis.tick ms }

/-- Redis drops a key to free memory. -/
def evict (s : Store ι) (k : RedisKey) : Store ι := { s with redis := s.redis.put k none }

end Store

/-! ## The world -/

/-- A request being served. -/
structure Task where
  /-- the number of the request -/
  id : ℕ
  request : Request
  /-- the commands sent so far and their answers, newest first -/
  trail : List (Call Cmd Cmd.Reply)
  /-- what is left to do -/
  rest : Program Response

/-- What happened. Requests are named by their number. -/
inductive Event where
  | start (id : ℕ) (request : Request)
  /-- a command got its answer at a time -/
  | call (id : ℕ) (call : Call Cmd Cmd.Reply) (time : ℕ)
  | finish (id : ℕ) (request : Request) (response : Response)
  /-- the process of the request stopped -/
  | stop (id : ℕ)

/-- The state of the whole backend. -/
structure World (ι : Type) where
  store : Store ι
  /-- the request each process is serving -/
  tasks : ι → Option Task
  /-- newest first -/
  history : List Event

/-- The steps. -/
inductive Label (ι : Type) where
  /-- a request arrives at an idle process -/
  | start (i : ι) (request : Request)
  /-- the process sends its next command, which may fail -/
  | exec (i : ι) (fault : Option String)
  /-- the process returns its response -/
  | finish (i : ι)
  /-- the process stops, whatever it was doing, and is started again -/
  | crash (i : ι)
  | tick (ms : ℕ)
  | evict (k : RedisKey)
  deriving DecidableEq, Repr

namespace World

/-- One step. -/
def step (env : Env) (w : World ι) : Label ι → Option (World ι)
  | .start i request =>
    match w.tasks i with
    | some _ => none
    | none =>
      let id := w.history.length
      some { w with
        tasks := Function.update w.tasks i (some ⟨id, request, [], serve env request⟩)
        history := .start id request :: w.history }
  | .exec i fault =>
    match w.tasks i with
    | some ⟨id, request, trail, .call c k⟩ =>
      (w.store.perform i fault c).map fun rs =>
        { store := rs.2
          tasks := Function.update w.tasks i (some ⟨id, request, ⟨c, rs.1⟩ :: trail, k rs.1⟩)
          history := .call id ⟨c, rs.1⟩ w.store.redis.now :: w.history }
    | _ => none
  | .finish i =>
    match w.tasks i with
    | some ⟨id, request, _, .ret response⟩ =>
      some { w with
        tasks := Function.update w.tasks i none
        history := .finish id request response :: w.history }
    | _ => none
  | .crash i =>
    some {
      store := w.store.crash i
      tasks := Function.update w.tasks i none
      history :=
        match w.tasks i with
        | some task => .stop task.id :: w.history
        | none => w.history }
  | .tick ms => some { w with store := w.store.tick ms }
  | .evict k => some { w with store := w.store.evict k }

end World

/-! ## Steps as a relation -/

/-- `Does env w l w'`: the step `l` leads from `w` to `w'`. -/
inductive Does (env : Env) (w : World ι) : Label ι → World ι → Prop where
  | start {i : ι} {request : Request} (idle : w.tasks i = none) :
      Does env w (.start i request) { w with
        tasks := Function.update w.tasks i
          (some ⟨w.history.length, request, [], serve env request⟩)
        history := .start w.history.length request :: w.history }
  | exec {i : ι} {fault : Option String} {id : ℕ} {request : Request}
      {trail : List (Call Cmd Cmd.Reply)} {c : Cmd} {k : c.Reply → Program Response} {r : c.Reply}
      {store : Store ι} (task : w.tasks i = some ⟨id, request, trail, .call c k⟩)
      (performed : w.store.perform i fault c = some (r, store)) :
      Does env w (.exec i fault) {
        store := store
        tasks := Function.update w.tasks i (some ⟨id, request, ⟨c, r⟩ :: trail, k r⟩)
        history := .call id ⟨c, r⟩ w.store.redis.now :: w.history }
  | finish {i : ι} {id : ℕ} {request : Request} {trail : List (Call Cmd Cmd.Reply)}
      {response : Response} (task : w.tasks i = some ⟨id, request, trail, .ret response⟩) :
      Does env w (.finish i) { w with
        tasks := Function.update w.tasks i none
        history := .finish id request response :: w.history }
  | stop {i : ι} {task : Task} (running : w.tasks i = some task) :
      Does env w (.crash i) {
        store := w.store.crash i
        tasks := Function.update w.tasks i none
        history := .stop task.id :: w.history }
  | restart {i : ι} (idle : w.tasks i = none) :
      Does env w (.crash i) {
        store := w.store.crash i
        tasks := Function.update w.tasks i none
        history := w.history }
  | tick {ms : ℕ} : Does env w (.tick ms) { w with store := w.store.tick ms }
  | evict {k : RedisKey} : Does env w (.evict k) { w with store := w.store.evict k }

/-! ## What a step makes fail -/

/-- The command process `i` sends next. -/
def World.next (w : World ι) (i : ι) : Option Cmd :=
  match w.tasks i with
  | some ⟨_, _, _, .call c _⟩ => some c
  | _ => none

/-- The step `l` makes the command `c` fail. -/
def World.Fails (w : World ι) (l : Label ι) (c : Cmd) : Prop :=
  ∃ i message, l = .exec i (some message) ∧ w.next i = some c

variable {env : Env} {w w' : World ι} {l : Label ι}

/-- Every step is one of the listed ones. -/
theorem does_of_step (h : w.step env l = some w') : Does env w l w' := by
  cases l with
  | start i request =>
    rcases hi : w.tasks i with _ | task
    · simp only [World.step, hi, Option.some.injEq] at h
      exact h ▸ .start hi
    · simp [World.step, hi] at h
  | exec i fault =>
    rcases hi : w.tasks i with _ | ⟨id, request, trail, rest⟩
    · simp [World.step, hi] at h
    · cases rest with
      | call c k =>
        simp only [World.step, hi, Option.map_eq_some_iff] at h
        obtain ⟨⟨r, store⟩, hperf, rfl⟩ := h
        exact .exec hi hperf
      | ret response => simp [World.step, hi] at h
      | throw => simp [World.step, hi] at h
  | finish i =>
    rcases hi : w.tasks i with _ | ⟨id, request, trail, rest⟩
    · simp [World.step, hi] at h
    · cases rest with
      | ret response =>
        simp only [World.step, hi, Option.some.injEq] at h
        exact h ▸ .finish hi
      | call c k => simp [World.step, hi] at h
      | throw => simp [World.step, hi] at h
  | crash i =>
    rcases hi : w.tasks i with _ | task
    · simp only [World.step, hi, Option.some.injEq] at h
      exact h ▸ .restart hi
    · simp only [World.step, hi, Option.some.injEq] at h
      exact h ▸ .stop hi
  | tick ms =>
    simp only [World.step, Option.some.injEq] at h
    exact h ▸ .tick
  | evict k =>
    simp only [World.step, Option.some.injEq] at h
    exact h ▸ .evict

/-- The states of the runs from `w₀` whose steps meet `ok`. -/
abbrev World.Run (env : Env) (ok : World ι → Label ι → Prop) (w₀ w : World ι) : Prop :=
  Reach (World.step env) ok w₀ w

/-! ## Where runs start -/

/-- A backend at rest before its first dungeon: no process works on anything, no
transaction is open, and there are neither battles nor battle contexts. Players,
their assets, their progress, sessions, snapshots and locks are arbitrary. -/
structure World.Fresh (w : World ι) : Prop where
  tasks : ∀ i, w.tasks i = none
  txns : ∀ i, w.store.mysql.txns i = none
  locks : ∀ k, w.store.mysql.locks k = none
  binlog : w.store.mysql.binlog = []
  battles : w.store.mysql.tables.dungeonBattle.rows = []
  contexts : ∀ b, w.store.redis.entries (.battleCtx b) = none
  history : w.history = []

/-! ## What performing a command changes -/

namespace Store

variable {s s' : Store ι} {i : ι} {fault : Option String} {c : Cmd} {r : c.Reply}

/-- `Performed s i fault c r s'`: the ways a command can come to an answer. -/
inductive Performed (s : Store ι) (i : ι) : Option String → (c : Cmd) → c.Reply → Store ι → Prop
  | sqlFault {message : String} {c : SqlCmd} :
      Performed s i (some message) (.sql c) (c.failed message) s
  | sql {c : SqlCmd} {r : c.Reply} {m : Mysql ι} (executed : s.mysql.execute i c = some (r, m)) :
      Performed s i none (.sql c) r { s with mysql := m }
  | redisFault {message : String} {c : RedisCmd} :
      Performed s i (some message) (.redis c) c.failed s
  | redis {c : RedisCmd} {r : c.Reply} {d : Redis} (executed : s.redis.execute c = (r, d)) :
      Performed s i none (.redis c) r { s with redis := d }
  | fetchAddSequence {fault : Option String} :
      Performed s i fault .fetchAddSequence (s.sequence i)
        { s with sequence := Function.update s.sequence i (s.sequence i + 1) }
  | epochSeconds {fault : Option String} :
      Performed s i fault .epochSeconds ((s.redis.now / 1000 : ℕ) : ℤ) s

theorem performed_of_perform (h : s.perform i fault c = some (r, s')) :
    Performed s i fault c r s' := by
  cases c with
  | sql c =>
    rcases fault with _ | message
    · simp only [perform, Option.map_eq_some_iff] at h
      obtain ⟨⟨r', m⟩, hexec, heq⟩ := h
      cases heq
      exact .sql hexec
    · cases h
      exact .sqlFault
  | redis c =>
    rcases fault with _ | message
    · cases h
      exact .redis rfl
    · cases h
      exact .redisFault
  | fetchAddSequence =>
    cases h
    exact .fetchAddSequence
  | epochSeconds =>
    cases h
    exact .epochSeconds

/-- Only plausible answers come back. -/
theorem plausible_of_perform (h : s.perform i fault c = some (r, s')) : c.Plausible r := by
  cases performed_of_perform h with
  | sqlFault => exact SqlCmd.plausible_failed _ _
  | sql executed =>
    rename_i c r m
    cases c with
    | select q =>
      simp only [Mysql.execute, Option.some.injEq, Prod.mk.injEq] at executed
      exact executed.1 ▸ Query.plausible_rows _ q
    | _ => trivial
  | redisFault => trivial
  | redis executed => trivial
  | fetchAddSequence => trivial
  | epochSeconds => trivial

end Store

/-! ## The demo deployment

The configuration defaults and the seed data of the repository, with a second
player like the first and a session for each that does not expire. The runs that
show a behaviour start here. -/

/-- The default configuration; fields keep their order. -/
def demoEnv : Env where
  dungeonConfig := { dungeonId := 1001 }
  fieldOrder fields := fields
  fieldOrder_perm _ := .refl _
  verifyPassword password hash := password = hash

/-- Two accounts with one player each. -/
def demoTables : Tables where
  account := ⟨[⟨10001, "demo", "demo", 1⟩, ⟨10002, "demo2", "demo2", 1⟩], by decide⟩
  player := ⟨[⟨20001, 10001, "hero_demo", 10⟩, ⟨20002, 10002, "hero_demo2", 10⟩], by decide⟩
  playerAsset := ⟨[⟨20001, 120, 1000, 100⟩, ⟨20002, 120, 1000, 100⟩], by decide⟩
  playerDungeon := .empty
  dungeonBattle := .empty
  rewardLog := .empty
  fkAssetPlayer := by decide
  fkDungeonPlayer := by decide

/-- Redis with a session of each demo player. -/
def demoRedis : Redis where
  now := 0
  entries
    | .session "s" => some ⟨.hash (RedisSessionRepository.fields ⟨"s", 10001, 20001, 0⟩), none⟩
    | .session "t" => some ⟨.hash (RedisSessionRepository.fields ⟨"t", 10002, 20002, 0⟩), none⟩
    | _ => none

/-- Servers at rest over given tables and a given Redis. -/
def World.boot (t : Tables) (d : Redis) : World ι where
  store := ⟨⟨t, fun _ => none, fun _ => none, []⟩, d, fun _ => 1⟩
  tasks _ := none
  history := []

/-- Two dungeon servers in front of the demo data. -/
def demoWorld : World Bool := .boot demoTables demoRedis

/-- The same without any key in Redis. -/
def emptyWorld : World Bool := .boot demoTables ⟨0, fun _ => none⟩

omit [DecidableEq ι] in
/-- A booted world without battles and contexts is fresh. -/
theorem World.fresh_boot {t : Tables} {d : Redis} (ht : t.dungeonBattle.rows = [])
    (hd : ∀ b, d.entries (.battleCtx b) = none) : (World.boot t d : World ι).Fresh :=
  ⟨fun _ => rfl, fun _ => rfl, fun _ => rfl, rfl, ht, hd, rfl⟩

theorem demoWorld_fresh : demoWorld.Fresh := World.fresh_boot rfl fun _ => rfl

/-- A request that sends `n` commands without being interrupted. -/
def Label.alone (i : ι) (request : Request) (n : ℕ) : List (Label ι) :=
  .start i request :: List.replicate n (.exec i none) ++ [.finish i]

/-- The steps in which no command fails. -/
def Label.faultless : Label ι → Bool
  | .exec _ (some _) => false
  | _ => true

/-- The faultless steps during which no time passes and no key is evicted. -/
def Label.quiet : Label ι → Bool
  | .exec _ (some _) => false
  | .tick _ => false
  | .evict _ => false
  | _ => true

/-- The steps of a backend in which nothing but time goes by: no command fails,
no process stops and no key is evicted. -/
def Label.undisturbed : Label ι → Bool
  | .exec _ (some _) => false
  | .crash _ => false
  | .evict _ => false
  | _ => true

/-- The steps of a run of `EnterDungeon` and `SettleDungeon` requests. -/
def Label.ofDungeon : Label ι → Bool
  | .start _ (.enterDungeon _) => true
  | .start _ (.settleDungeon _) => true
  | .start _ _ => false
  | _ => true

omit [DecidableEq ι] in
theorem Label.faultless_of_quiet {l : Label ι} (h : l.quiet = true) : l.faultless = true := by
  cases l with
  | exec i fault =>
    cases fault with
    | none => rfl
    | some message => cases h
  | _ => rfl

omit [DecidableEq ι] in
theorem Label.not_fails {w : World ι} {l : Label ι} (h : l.faultless = true) (c : Cmd) :
    ¬w.Fails l c := by
  rintro ⟨i, message, rfl, -⟩
  cases h

end GameBackend
