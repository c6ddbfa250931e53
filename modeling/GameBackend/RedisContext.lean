import GameBackend.Computation
import Mathlib.Data.Int.Notation

/-!
# The context under a Redis client

`RedisClient` decides from its pointer `context_` and the error flag behind it
whether to connect. Here its methods are programs over hiredis: `HiredisCall` is one
call of the library (or one look at the context), `RedisLink.call` is what the call
does under the `RedisCircumstance` of the moment. A connection remembers what was
sent on it and what was answered.

`Connect` opens the connection, then sends `AUTH` and `SELECT`. When one of these
gets no reply the context is marked, and the next call connects again. When one gets
an error reply `Connect` fails as well, but the context stays without a mark: the
next `PING` decides whether data commands go over the half-initialised connection.
-/

namespace GameBackend

/-! ## hiredis -/

/-- A reply of the server; of the elements of an array only `str` is looked at. -/
inductive RedisReply where
  | nil
  | error (str : String)
  | status (str : String)
  | string (str : String)
  | integer (value : ℤ)
  | array (elements : List (Option String))
  deriving DecidableEq, Repr

namespace RedisReply

/-- `type == REDIS_REPLY_ERROR` -/
def isError : RedisReply → Bool
  | error _ => true
  | _ => false

/-- `std::string(str, len)`; replies without a text have none. -/
def str : RedisReply → String
  | error s => s
  | status s => s
  | string s => s
  | _ => ""

end RedisReply

/-- A command line for the server. -/
inductive RedisLine where
  | auth (password : String)
  | select (database : ℤ)
  | ping
  | set (key value : String) (ex : Option ℤ)
  | get (key : String)
  | del (key : String)
  | hset (key field value : String)
  | expire (key : String) (ttlSeconds : ℤ)
  | hgetall (key : String)
  | setNx (key value : String) (ttlSeconds : ℤ)
  deriving DecidableEq, Repr

/-- A command that reads or writes keys. -/
def RedisLine.isData : RedisLine → Bool
  | auth _ => false
  | select _ => false
  | ping => false
  | _ => true

/-- A command that initialises a connection. -/
def RedisLine.isInit : RedisLine → Bool
  | auth _ => true
  | select _ => true
  | _ => false

/-- A command line and the reply to it; `none` when the connection failed. -/
abbrev RedisExchange : Type := RedisLine × Option RedisReply

namespace RedisExchange

/-- answered without error -/
def accepted (e : RedisExchange) : Bool := e.2.any fun r => !r.isError

/-- answered with an error -/
def refused (e : RedisExchange) : Bool := e.2.any fun r => r.isError

end RedisExchange

/-- A `redisContext`: the error flag, and the exchanges on its connection, newest
first. -/
structure RedisContext where
  err : Bool
  exchanges : List RedisExchange := []
  deriving DecidableEq, Repr

/-- One call of hiredis, or a look at `context_`. -/
inductive HiredisCall where
  /-- `context_ == nullptr` -/
  | isNull
  /-- `context_->err != 0` -/
  | hasError
  /-- `redisFree`, and `context_ = nullptr` -/
  | free
  /-- `redisConnectWithTimeout`, into `context_` -/
  | connectWithTimeout (host : String) (port tvSec tvUsec : ℤ)
  /-- `redisCommand` -/
  | command (line : RedisLine)
  /-- `context_->errstr` -/
  | errstr
  deriving DecidableEq, Repr

/-- What a call returns. -/
abbrev HiredisCall.Reply : HiredisCall → Type
  | isNull => Bool
  | hasError => Bool
  | free => Unit
  | connectWithTimeout .. => Unit
  | command _ => Option RedisReply
  | errstr => Option String

/-- What the network and the server do at one call. -/
structure RedisCircumstance where
  /-- a new context: none, or one with its error flag -/
  made : Option Bool := some false
  /-- the reply to a command; none when the connection fails -/
  reply : Option RedisReply := none
  /-- the text behind `errstr` -/
  text : Option String := none

/-- `context_`, and the exchanges on the connections given up so far. -/
structure RedisLink where
  context : Option RedisContext := none
  closed : List (List RedisExchange) := []
  deriving DecidableEq, Repr

namespace RedisLink

/-- The exchanges on each connection the client has had. -/
def traces (s : RedisLink) : List (List RedisExchange) :=
  (s.context.map RedisContext.exchanges).toList ++ s.closed

/-- One call of the library. A context with its error flag set sends nothing; a
command that gets no reply sets the flag. -/
def call (s : RedisLink) (x : RedisCircumstance) (c : HiredisCall) :
    Option (c.Reply × RedisLink) :=
  match c with
  | .isNull => some (s.context.isNone, s)
  | .hasError => some (s.context.any RedisContext.err, s)
  | .free => some ((), { context := none, closed := s.traces })
  | .connectWithTimeout .. =>
    some ((), { context := x.made.map fun err => { err }, closed := s.traces })
  | .command line =>
    match s.context with
    | none => some (none, s)
    | some context =>
      if context.err then some (none, s)
      else some (x.reply, { s with
        context := some ⟨x.reply.isNone, (line, x.reply) :: context.exchanges⟩ })
  | .errstr => some (x.text, s)

end RedisLink

/-! ## The client -/

/-- `redis::ConnectionOptions` -/
structure RedisOptions where
  host : String := "127.0.0.1"
  port : ℤ := 6379
  password : String := ""
  database : ℤ := 0
  timeoutMs : ℤ := 2000
  deriving DecidableEq, Repr

namespace RedisContext

/-- A routine of the client. -/
abbrev Routine (α : Type) : Type := Prog HiredisCall HiredisCall.Reply α

/-- Call the library. -/
def lib (c : HiredisCall) : Routine c.Reply := Prog.send (R := HiredisCall.Reply) c

/-- `RedisClient::LastError` -/
def lastError : Routine String := do
  if ← lib .isNull then return "redis context not initialized"
  match ← lib .errstr with
  | none => return "redis unknown error"
  | some text => return text

/-- `redisCommand`, and the check of its reply that every method makes. -/
def command (line : RedisLine) : Routine (Except String RedisReply) := do
  match ← lib (.command line) with
  | none => return .error (← lastError)
  | some reply => if reply.isError then return .error reply.str else return .ok reply

/-- `RedisClient::IsConnected` -/
def isConnected : Routine Bool := do
  if ← lib .isNull then return false else return !(← lib .hasError)

/-- `RedisClient::Connect` -/
def connect (options : RedisOptions) : Routine (Except String Unit) := do
  if !(← lib .isNull) then lib .free
  lib (.connectWithTimeout options.host options.port (options.timeoutMs.tdiv 1000)
    (options.timeoutMs.tmod 1000 * 1000))
  if !(← isConnected) then
    let message ← lastError
    if !(← lib .isNull) then lib .free
    return .error message
  if options.password ≠ "" then
    if let .error message ← command (.auth options.password) then return .error message
  selectDatabase
where
  selectDatabase : Routine (Except String Unit) := do
    if 0 < options.database then
      if let .error message ← command (.select options.database) then return .error message
    return .ok ()

/-- `RedisClient::Ping` -/
def ping (options : RedisOptions) : Routine (Except String Unit) := do
  if !(← isConnected) then
    if let .error message ← connect options then return .error message
  match ← command .ping with
  | .error message => return .error message
  | .ok _ => return .ok ()

/-- A method that sends one command behind a `Ping`. -/
def send (options : RedisOptions) (line : RedisLine) : Routine (Except String RedisReply) := do
  match ← ping options with
  | .error message => return .error message
  | .ok () => command line

/-- `RedisClient::Set` -/
def set (options : RedisOptions) (key value : String) (ttlSeconds : ℤ) :
    Routine (Except String Unit) := do
  return (← send options
    (.set key value (if 0 < ttlSeconds then some ttlSeconds else none))).map fun _ => ()

/-- `RedisClient::Get` -/
def get (options : RedisOptions) (key : String) : Routine (Except String (Option String)) := do
  return (← send options (.get key)).map fun
    | .nil => none
    | reply => some reply.str

/-- `RedisClient::Del` -/
def del (options : RedisOptions) (key : String) : Routine (Except String Unit) := do
  return (← send options (.del key)).map fun _ => ()

/-- The loop of `HSet`: it ends at the first command that fails. -/
def hSetLoop (key : String) : List (String × String) → Routine (Except String Unit)
  | [] => return .ok ()
  | (field, value) :: rest => do
    match ← command (.hset key field value) with
    | .error message => return .error message
    | .ok _ => hSetLoop key rest

/-- `RedisClient::HSet`; the values come in the order of the map. -/
def hSet (options : RedisOptions) (key : String) (values : List (String × String))
    (ttlSeconds : ℤ) : Routine (Except String Unit) := do
  match ← ping options with
  | .error message => return .error message
  | .ok () =>
    match ← hSetLoop key values with
    | .error message => return .error message
    | .ok () =>
      if 0 < ttlSeconds then
        return (← command (.expire key ttlSeconds)).map fun _ => ()
      else return .ok ()

/-- The pairs of an array reply; pairs without a text are skipped. -/
def pairs : List (Option String) → List (String × String)
  | some field :: some value :: rest => (field, value) :: pairs rest
  | _ :: _ :: rest => pairs rest
  | _ => []

/-- `RedisClient::HGetAll` -/
def hGetAll (options : RedisOptions) (key : String) :
    Routine (Except String (Option (List (String × String)))) := do
  return (← send options (.hgetall key)).map fun
    | .array [] => none
    | .array elements => some (pairs elements)
    | _ => none

/-- `RedisClient::SetNxWithExpire`: whether the key was inserted. -/
def setNxWithExpire (options : RedisOptions) (key value : String) (ttlSeconds : ℤ) :
    Routine (Except String Bool) := do
  return (← send options (.setNx key value ttlSeconds)).map fun
    | .nil => false
    | _ => true

end RedisContext

/-- A method of the client with its arguments. -/
inductive RedisMethod where
  | connect
  | ping
  | set (key value : String) (ttlSeconds : ℤ)
  | get (key : String)
  | del (key : String)
  | hSet (key : String) (values : List (String × String)) (ttlSeconds : ℤ)
  | hGetAll (key : String)
  | setNxWithExpire (key value : String) (ttlSeconds : ℤ)
  deriving DecidableEq, Repr

/-- What the method does, its result aside. -/
def RedisMethod.routine (options : RedisOptions) : RedisMethod → RedisContext.Routine Unit
  | connect => do let _ ← RedisContext.connect options
  | ping => do let _ ← RedisContext.ping options
  | set key value ttlSeconds => do let _ ← RedisContext.set options key value ttlSeconds
  | get key => do let _ ← RedisContext.get options key
  | del key => do let _ ← RedisContext.del options key
  | hSet key values ttlSeconds => do let _ ← RedisContext.hSet options key values ttlSeconds
  | hGetAll key => do let _ ← RedisContext.hGetAll options key
  | setNxWithExpire key value ttlSeconds => do
    let _ ← RedisContext.setNxWithExpire options key value ttlSeconds

namespace RedisLink

/-- One call of a method, with the circumstances of its library calls. -/
def perform (options : RedisOptions) (s : RedisLink)
    (l : RedisMethod × (ℕ → RedisCircumstance)) : Option RedisLink :=
  ((l.1.routine options).run call l.2 s).map Prod.snd

/-- The states a client gets into. -/
def Reachable (options : RedisOptions) (s : RedisLink) : Prop :=
  Reach (perform options) (fun _ _ => True) {} s

end RedisLink

/-! ## Initialised connections -/

/-- The database that data commands are meant to run in. -/
def RedisOptions.configured (options : RedisOptions) : ℤ :=
  if 0 < options.database then options.database else 0

section Exchanges

variable {options : RedisOptions} {e : RedisExchange} {earlier : List RedisExchange}

/-- `AUTH`, if a password is configured, and `SELECT`, if a database is, have been
answered without error. -/
def Initialised (options : RedisOptions) (earlier : List RedisExchange) : Prop :=
  (options.password ≠ "" → ∃ e ∈ earlier, e.1 = .auth options.password ∧ e.accepted = true) ∧
    (0 < options.database → ∃ e ∈ earlier, e.1 = .select options.database ∧ e.accepted = true)

/-- `AUTH` or `SELECT` has been answered with an error. -/
def HalfOpen (earlier : List RedisExchange) : Prop :=
  ∃ e ∈ earlier, e.1.isInit = true ∧ e.refused = true

/-- The database a connection is in. -/
def databaseOf : List RedisExchange → ℤ
  | [] => 0
  | (.select database, some reply) :: earlier =>
    if reply.isError then databaseOf earlier else database
  | _ :: earlier => databaseOf earlier

/-- Data commands were sent when the connection was initialised, in the configured
database. -/
def Guarded (options : RedisOptions) : List RedisExchange → Prop
  | [] => True
  | e :: earlier =>
    (e.1.isData = true → Initialised options earlier ∧ databaseOf earlier = options.configured) ∧
      Guarded options earlier

/-- No `PING` was answered without error where `AUTH` or `SELECT` had been answered
with one. -/
def Shut : List RedisExchange → Prop
  | [] => True
  | e :: earlier => (e.1 = .ping → e.accepted = true → ¬HalfOpen earlier) ∧ Shut earlier

/-- Only the configured database is ever selected. -/
def Selects (options : RedisOptions) (earlier : List RedisExchange) : Prop :=
  ∀ e ∈ earlier, ∀ database, e.1 = .select database →
    database = options.database ∧ 0 < options.database

theorem Initialised.cons (h : Initialised options earlier) :
    Initialised options (e :: earlier) := by
  refine ⟨fun hp => ?_, fun hd => ?_⟩
  · obtain ⟨a, ha, hauth⟩ := h.1 hp
    exact ⟨a, List.mem_cons_of_mem e ha, hauth⟩
  · obtain ⟨a, ha, hselect⟩ := h.2 hd
    exact ⟨a, List.mem_cons_of_mem e ha, hselect⟩

theorem HalfOpen.cons (h : HalfOpen earlier) : HalfOpen (e :: earlier) := by
  obtain ⟨a, ha, hinit⟩ := h
  exact ⟨a, List.mem_cons_of_mem e ha, hinit⟩

/-- What an exchange does to the database. -/
theorem databaseOf_cons (e : RedisExchange) (earlier : List RedisExchange) :
    databaseOf (e :: earlier) = databaseOf earlier ∨
      e.1 = .select (databaseOf (e :: earlier)) ∧ e.accepted = true := by
  obtain ⟨line, reply⟩ := e
  cases line with
  | select database =>
    cases reply with
    | none => exact .inl rfl
    | some reply =>
      cases hr : reply.isError with
      | true => simp [databaseOf, hr]
      | false => simp [databaseOf, hr, RedisExchange.accepted]
  | _ => exact .inl rfl

theorem databaseOf_select {database : ℤ} (hline : e.1 = .select database)
    (hacc : e.accepted = true) : databaseOf (e :: earlier) = database := by
  obtain ⟨line, _ | reply⟩ := e
  · cases hacc
  · obtain rfl := hline
    have hr : reply.isError = false := by simpa [RedisExchange.accepted] using hacc
    simp [databaseOf, hr]

/-- An initialised connection is in the configured database. -/
theorem Initialised.database (h : Initialised options earlier) (hsel : Selects options earlier) :
    databaseOf earlier = options.configured := by
  have only : ∀ {es : List RedisExchange}, Selects options es →
      databaseOf es = 0 ∨ databaseOf es = options.database ∧ 0 < options.database := by
    intro es
    induction es with
    | nil => exact fun _ => .inl rfl
    | cons e es ih =>
      intro hsel
      rcases databaseOf_cons e es with heq | ⟨hline, -⟩
      · rw [heq]
        exact ih fun a ha => hsel a (List.mem_cons_of_mem e ha)
      · exact .inr (hsel e List.mem_cons_self _ hline)
  -- no later `SELECT` leads away from the database that was selected
  have selected : ∀ {es : List RedisExchange}, Selects options es →
      (∃ e ∈ es, e.1 = .select options.database ∧ e.accepted = true) →
      databaseOf es = options.database := by
    intro es
    induction es with
    | nil => exact fun _ ⟨_, h, _⟩ => nomatch h
    | cons e es ih =>
      rintro hsel ⟨a, ha, hline, hacc⟩
      rcases databaseOf_cons e es with heq | ⟨hline', -⟩
      · rcases List.mem_cons.mp ha with rfl | ha
        · exact databaseOf_select hline hacc
        · rw [heq]
          exact ih (fun b hb => hsel b (List.mem_cons_of_mem e hb)) ⟨a, ha, hline, hacc⟩
      · exact (hsel e List.mem_cons_self _ hline').1
  unfold RedisOptions.configured
  split
  · rename_i hd
    exact selected hsel (h.2 hd)
  · rename_i hd
    exact (only hsel).resolve_right fun h => hd h.2

/-- What holds of the exchanges on every connection. -/
structure Orderly (options : RedisOptions) (earlier : List RedisExchange) : Prop where
  selects : Selects options earlier
  guarded : Shut earlier → Guarded options earlier

theorem Orderly.nil : Orderly options [] where
  selects := nofun
  guarded := fun _ => trivial

/-- One more exchange: a `SELECT` of the configured database, or a data command where
the connection is initialised. -/
theorem Orderly.cons (h : Orderly options earlier)
    (hsel : ∀ database, e.1 = .select database →
      database = options.database ∧ 0 < options.database)
    (hdata : e.1.isData = true → Shut earlier → Initialised options earlier) :
    Orderly options (e :: earlier) where
  selects := List.forall_mem_cons.mpr ⟨hsel, h.selects⟩
  guarded := by
    rintro ⟨-, hshut⟩
    refine ⟨fun hd => ?_, h.guarded hshut⟩
    have hinit := hdata hd hshut
    exact ⟨hinit, hinit.database h.selects⟩

end Exchanges

/-! ## What the methods keep -/

namespace RedisLink

variable {options : RedisOptions} {s : RedisLink} {earlier : List RedisExchange}

/-- The exchanges on every connection are in order. -/
def Tidy (options : RedisOptions) (s : RedisLink) : Prop :=
  ∀ trace ∈ s.traces, Orderly options trace

/-- The context is usable, with these exchanges on its connection. -/
def Opened (options : RedisOptions) (earlier : List RedisExchange) (s : RedisLink) : Prop :=
  s.Tidy options ∧ s.context = some ⟨false, earlier⟩

/-- Between two calls of its methods: a usable context is initialised or has been
refused to be. -/
def Settled (options : RedisOptions) (s : RedisLink) : Prop :=
  s.Tidy options ∧ ∀ earlier, s.context = some ⟨false, earlier⟩ →
    Initialised options earlier ∨ HalfOpen earlier

/-- After a `Ping` that went well. -/
def Ready (options : RedisOptions) (s : RedisLink) : Prop :=
  s.Settled options ∧ ∃ earlier, s.context = some ⟨false, earlier⟩ ∧
    (Shut earlier → Initialised options earlier)

/-- The state after an exchange. -/
def after (s : RedisLink) (e : RedisExchange) (earlier : List RedisExchange) : RedisLink :=
  { s with context := some ⟨e.2.isNone, e :: earlier⟩ }

theorem Opened.after (h : s.Opened options earlier) {e : RedisExchange}
    (he : Orderly options earlier → Orderly options (e :: earlier)) :
    (s.after e earlier).Tidy options := by
  obtain ⟨htidy, hcontext⟩ := h
  have hnow : earlier ∈ s.traces := by simp [traces, hcontext]
  intro trace htrace
  rcases List.mem_cons.mp htrace with rfl | hclosed
  · exact he (htidy _ hnow)
  · exact htidy trace (List.mem_append_right _ hclosed)

end RedisLink

namespace RedisContext

open RedisLink

variable {options : RedisOptions} {s : RedisLink} {earlier : List RedisExchange}

theorem ensures_lastError (s : RedisLink) : lastError.Ensures call (fun _ s' => s' = s) s := by
  refine fun x => ⟨_, s, rfl, ?_⟩
  change Prog.Ensures call _ (if s.context.isNone then _ else _) s
  split
  · exact rfl
  · refine fun y => ⟨y.text, s, rfl, ?_⟩
    cases y.text with
    | none => exact rfl
    | some text => exact rfl

theorem ensures_isConnected (s : RedisLink) :
    isConnected.Ensures call (fun connected s' => s' = s ∧
      (connected = true ↔ ∃ earlier, s.context = some ⟨false, earlier⟩)) s := by
  refine fun x => ⟨s.context.isNone, s, rfl, ?_⟩
  obtain ⟨_ | ⟨err, exchanges⟩, closed⟩ := s
  · exact ⟨rfl, by simp⟩
  · refine fun y => ⟨err, _, rfl, rfl, ?_⟩
    cases err with
    | true => simp
    | false => simp

/-- What becomes of a command on a usable context. -/
theorem ensures_command (hs : s.context = some ⟨false, earlier⟩) (line : RedisLine) :
    (command line).Ensures call (fun r s' => ∃ reply, s' = s.after (line, reply) earlier ∧
      match r with
      | .ok _ => RedisExchange.accepted (line, reply) = true
      | .error _ => reply = none ∨ RedisExchange.refused (line, reply) = true) s := by
  intro x
  refine ⟨x.reply, s.after (line, x.reply) earlier, by simp [call, hs, after], ?_⟩
  cases hx : x.reply with
  | none =>
    refine (ensures_lastError _).bind ?_
    rintro message _ rfl
    exact ⟨none, rfl, .inl rfl⟩
  | some reply =>
    cases hr : reply.isError with
    | true =>
      change Prog.Ensures call _ (if reply.isError then _ else _) _
      rw [if_pos hr]
      exact ⟨some reply, rfl, .inr (by simp [RedisExchange.refused, hr])⟩
    | false =>
      change Prog.Ensures call _ (if reply.isError then _ else _) _
      rw [if_neg (by simp [hr])]
      exact ⟨some reply, rfl, by simp [RedisExchange.accepted, hr]⟩

/-- `AUTH` and `SELECT` while a connection is opened. -/
theorem ensures_initialise (hs : s.Opened options earlier) (line : RedisLine)
    (hinit : line.isInit = true) (hdata : line.isData = false)
    (hsel : ∀ database, line = .select database →
      database = options.database ∧ 0 < options.database) :
    (command line).Ensures call (fun r s' =>
      match r with
      | .ok _ => ∃ reply, RedisExchange.accepted (line, reply) = true ∧
          s'.Opened options ((line, reply) :: earlier)
      | .error _ => s'.Settled options) s := by
  refine (ensures_command hs.2 line).mono ?_
  rintro r s' ⟨reply, rfl, hr⟩
  have htidy : (s.after (line, reply) earlier).Tidy options :=
    hs.after fun h => h.cons hsel fun hd => by
      rw [hdata] at hd
      cases hd
  cases r with
  | ok _ =>
    refine ⟨reply, hr, htidy, ?_⟩
    cases reply with
    | none => cases hr
    | some reply => rfl
  | error _ =>
    -- without a reply the context is unusable; with an error reply it stays usable
    refine ⟨htidy, fun es hes => ?_⟩
    rcases hr with rfl | hrefused
    · cases hes
    · refine .inr ⟨(line, reply), ?_, hinit, hrefused⟩
      obtain rfl := (congrArg RedisContext.exchanges (Option.some.inj hes)).symm
      exact List.mem_cons_self

/-- With the context given up the exchanges on its connection stay. -/
theorem ensures_free (hs : s.Tidy options) :
    (lib .free).Ensures call (fun _ s' => s'.Tidy options ∧ s'.context = none) s :=
  fun _ => ⟨(), _, rfl, hs, rfl⟩

theorem ensures_isNull (s : RedisLink) :
    (lib .isNull).Ensures call (fun null s' => s' = s ∧ null = s.context.isNone) s :=
  fun _ => ⟨_, s, rfl, rfl, rfl⟩

theorem ensures_connectWithTimeout (hs : s.Tidy options) (host : String) (port sec usec : ℤ) :
    (lib (.connectWithTimeout host port sec usec)).Ensures call (fun _ s' =>
      s'.Tidy options ∧ ∀ earlier, s'.context = some ⟨false, earlier⟩ → earlier = []) s := by
  refine fun x => ⟨(), _, rfl, ?_⟩
  cases hx : x.made with
  | none => exact ⟨hs, nofun⟩
  | some err =>
    refine ⟨List.forall_mem_cons.mpr ⟨.nil, hs⟩, fun earlier h => ?_⟩
    exact (congrArg RedisContext.exchanges (Option.some.inj h)).symm

/-- A context that is given up when there is one. -/
theorem ensures_drop (hs : s.Tidy options) {α : Type} {m : Routine α}
    {Q : α → RedisLink → Prop}
    (hm : ∀ s' : RedisLink, s'.Tidy options → s'.context = none → m.Ensures call Q s') :
    (do
      if !(← lib .isNull) then lib .free
      m).Ensures call Q s := by
  refine (ensures_isNull s).bind ?_
  rintro null s' ⟨rfl, rfl⟩
  cases hcontext : s'.context with
  | none => exact hm s' hs hcontext
  | some context => exact (ensures_free hs).bind fun _ s' ⟨htidy, hnone⟩ => hm s' htidy hnone

theorem settled_of_none (hs : s.Tidy options) (hnone : s.context = none) :
    s.Settled options :=
  ⟨hs, fun _ h => by rw [hnone] at h; cases h⟩

/-- The end of `Connect`, with `AUTH` behind it. -/
theorem ensures_selectDatabase (hs : s.Opened options earlier)
    (hauth : options.password ≠ "" →
      ∃ e ∈ earlier, e.1 = .auth options.password ∧ e.accepted = true) :
    (connect.selectDatabase options).Ensures call (fun r s' => s'.Settled options ∧
      ∀ u, r = .ok u → ∃ earlier, s'.context = some ⟨false, earlier⟩) s := by
  have initialised {s : RedisLink} {earlier : List RedisExchange} (hs : s.Opened options earlier)
      (hinit : Initialised options earlier) : s.Settled options := by
    refine ⟨hs.1, fun es hes => .inl ?_⟩
    obtain rfl := congrArg RedisContext.exchanges (Option.some.inj (hs.2.symm.trans hes))
    exact hinit
  unfold connect.selectDatabase
  by_cases hd : 0 < options.database
  · rw [if_pos hd]
    refine (ensures_initialise hs (.select options.database) rfl rfl ?_).bind fun r s' h => ?_
    · rintro _ ⟨⟩
      exact ⟨rfl, hd⟩
    · cases r with
      | error message => exact ⟨h, nofun⟩
      | ok r =>
        obtain ⟨reply, hacc, hopened⟩ := h
        refine ⟨initialised hopened ⟨fun hp => ?_, fun _ => ?_⟩, fun _ _ => ⟨_, hopened.2⟩⟩
        · obtain ⟨e, he, hline⟩ := hauth hp
          exact ⟨e, List.mem_cons_of_mem _ he, hline⟩
        · exact ⟨_, List.mem_cons_self, rfl, hacc⟩
  · rw [if_neg hd]
    exact ⟨initialised hs ⟨hauth, fun h => absurd h hd⟩, fun _ _ => ⟨earlier, hs.2⟩⟩

/-- `Connect` ends with an initialised connection, with one that the server refused to
initialise, or with none. -/
theorem ensures_connect (hs : s.Tidy options) :
    (connect options).Ensures call (fun r s' => s'.Settled options ∧
      ∀ u, r = .ok u → ∃ earlier, s'.context = some ⟨false, earlier⟩) s := by
  refine ensures_drop hs fun s₁ h₁ _ => ?_
  refine (ensures_connectWithTimeout h₁ _ _ _ _).bind fun _ s₂ ⟨h₂, hnew⟩ => ?_
  refine (ensures_isConnected s₂).bind ?_
  rintro connected _ ⟨rfl, hconnected⟩
  cases connected with
  | false =>
    refine (ensures_lastError _).bind ?_
    rintro message _ rfl
    exact ensures_drop h₂ fun s₃ h₃ hnone => ⟨settled_of_none h₃ hnone, nofun⟩
  | true =>
    obtain ⟨_, hcontext⟩ := hconnected.mp rfl
    obtain rfl := hnew _ hcontext
    by_cases hp : options.password = ""
    · simp only [Bool.not_true, Bool.false_eq_true, if_false, ne_eq, hp, not_true_eq_false]
      exact ensures_selectDatabase ⟨h₂, hcontext⟩ fun h => absurd hp h
    · simp only [Bool.not_true, Bool.false_eq_true, if_false, ne_eq, hp, not_false_eq_true, if_true]
      refine (ensures_initialise ⟨h₂, hcontext⟩ (.auth options.password) rfl rfl nofun).bind
        fun r s₃ h₃ => ?_
      cases r with
      | error message => exact ⟨h₃, nofun⟩
      | ok r =>
        obtain ⟨reply, hacc, hopened⟩ := h₃
        exact ensures_selectDatabase hopened fun _ => ⟨_, List.mem_cons_self, rfl, hacc⟩

/-- A `Ping` that goes well leaves a connection to send data commands on, unless the
server answers pings where it refused `AUTH` or `SELECT`. -/
theorem ensures_ping (hs : s.Settled options) :
    (ping options).Ensures call (fun r s' => s'.Settled options ∧
      ∀ u, r = .ok u → s'.Ready options) s := by
  have pinging {s : RedisLink} {earlier : List RedisExchange} (hs : s.Settled options)
      (hcontext : s.context = some ⟨false, earlier⟩) :
      (do
        match ← command .ping with
        | .error message => return .error message
        | .ok _ => return .ok () : Routine (Except String Unit)).Ensures call
          (fun r s' => s'.Settled options ∧ ∀ u, r = .ok u → s'.Ready options) s := by
    refine (ensures_command hcontext .ping).bind ?_
    rintro r s' ⟨reply, rfl, hr⟩
    have htidy : (s.after (.ping, reply) earlier).Tidy options :=
      Opened.after ⟨hs.1, hcontext⟩ fun h => h.cons nofun nofun
    have hsettled : (s.after (.ping, reply) earlier).Settled options := by
      refine ⟨htidy, fun es hes => ?_⟩
      obtain rfl := congrArg RedisContext.exchanges (Option.some.inj hes)
      exact (hs.2 _ hcontext).imp Initialised.cons HalfOpen.cons
    cases r with
    | error message => exact ⟨hsettled, nofun⟩
    | ok r =>
      refine ⟨hsettled, fun _ _ => ⟨hsettled, (.ping, reply) :: earlier, ?_, ?_⟩⟩
      · cases reply with
        | none => cases hr
        | some reply => rfl
      · -- here the answered `PING` rules out that the initialisation was refused
        rintro ⟨hshut, -⟩
        exact ((hs.2 _ hcontext).resolve_right (hshut rfl hr)).cons
  refine (ensures_isConnected s).bind ?_
  rintro connected _ ⟨rfl, hconnected⟩
  cases connected with
  | true =>
    -- `Connect` is not called, whatever became of `AUTH` and `SELECT`
    obtain ⟨earlier, hcontext⟩ := hconnected.mp rfl
    exact pinging hs hcontext
  | false =>
    refine (ensures_connect hs.1).bind fun r s₁ ⟨h₁, hok⟩ => ?_
    cases r with
    | error message => exact ⟨h₁, nofun⟩
    | ok u =>
      obtain ⟨earlier, hcontext⟩ := hok u rfl
      exact pinging h₁ hcontext

/-- A data command behind a `Ping`. -/
theorem ensures_data (hs : s.Ready options) (line : RedisLine) (hdata : line.isData = true) :
    (command line).Ensures call (fun r s' => s'.Settled options ∧
      ∀ reply, r = .ok reply → s'.Ready options) s := by
  obtain ⟨⟨htidy, hsettled⟩, earlier, hcontext, hinit⟩ := hs
  refine (ensures_command hcontext line).mono ?_
  rintro r s' ⟨reply, rfl, hr⟩
  have hafter : (s.after (line, reply) earlier).Settled options := by
    refine ⟨Opened.after ⟨htidy, hcontext⟩ fun h => h.cons ?_ fun _ => hinit, fun es hes => ?_⟩
    · rintro database rfl
      cases hdata
    · obtain rfl := congrArg RedisContext.exchanges (Option.some.inj hes)
      exact (hsettled _ hcontext).imp Initialised.cons HalfOpen.cons
  refine ⟨hafter, ?_⟩
  rintro _ rfl
  refine ⟨hafter, (line, reply) :: earlier, ?_, fun hshut => (hinit hshut.2).cons⟩
  cases reply with
  | none => cases hr
  | some reply => rfl

theorem ensures_send (hs : s.Settled options) {line : RedisLine} (hdata : line.isData = true) :
    (send options line).Ensures call (fun _ s' => s'.Settled options) s := by
  refine (ensures_ping hs).bind fun r s₁ ⟨h₁, hready⟩ => ?_
  cases r with
  | error message => exact h₁
  | ok u => exact (ensures_data (hready u rfl) line hdata).mono fun _ _ h => h.1

theorem ensures_hSetLoop (key : String) :
    ∀ (values : List (String × String)) {s : RedisLink}, s.Ready options →
      (hSetLoop key values).Ensures call (fun r s' => s'.Settled options ∧
        ∀ u, r = .ok u → s'.Ready options) s := by
  intro values
  induction values with
  | nil => exact fun hs => ⟨hs.1, fun _ _ => hs⟩
  | cons value rest ih =>
    intro s hs
    refine (ensures_data hs (.hset key value.1 value.2) rfl).bind fun r s₁ ⟨h₁, hready⟩ => ?_
    cases r with
    | error message => exact ⟨h₁, nofun⟩
    | ok reply => exact ih (hready reply rfl)

theorem ensures_hSet (hs : s.Settled options) (key : String) (values : List (String × String))
    (ttlSeconds : ℤ) :
    (hSet options key values ttlSeconds).Ensures call (fun _ s' => s'.Settled options) s := by
  refine (ensures_ping hs).bind fun r s₁ ⟨h₁, hready⟩ => ?_
  cases r with
  | error message => exact h₁
  | ok u =>
    refine (ensures_hSetLoop key values (hready u rfl)).bind fun r s₂ ⟨h₂, hready₂⟩ => ?_
    cases r with
    | error message => exact h₂
    | ok u =>
      by_cases httl : 0 < ttlSeconds
      · simp only [httl, if_true]
        exact (ensures_data (hready₂ u rfl) (.expire key ttlSeconds) rfl).bind
          fun _ _ h => h.1
      · simp only [httl, if_false]
        exact h₂

theorem ensures_routine (hs : s.Settled options) (m : RedisMethod) :
    (m.routine options).Ensures call (fun _ s' => s'.Settled options) s := by
  have sent {α : Type} {line : RedisLine} {f : Except String RedisReply → α}
      (hdata : line.isData = true) :
      (do let _ ← (do return f (← send options line) : Routine α) : Routine Unit).Ensures call
        (fun _ s' => s'.Settled options) s := by
    have returned : (do return f (← send options line) : Routine α).Ensures call
        (fun _ s' => s'.Settled options) s := (ensures_send hs hdata).bind fun _ _ h => h
    exact returned.bind fun _ _ h => h
  cases m with
  | connect => exact (ensures_connect hs.1).bind fun _ _ h => h.1
  | ping => exact (ensures_ping hs).bind fun _ _ h => h.1
  | set key value ttlSeconds => exact sent rfl
  | get key => exact sent rfl
  | del key => exact sent rfl
  | hSet key values ttlSeconds => exact (ensures_hSet hs key values ttlSeconds).bind fun _ _ h => h
  | hGetAll key => exact sent rfl
  | setNxWithExpire key value ttlSeconds => exact sent rfl

end RedisContext

namespace RedisLink

variable {options : RedisOptions} {s : RedisLink}

theorem Reachable.settled (h : s.Reachable options) : s.Settled options := by
  refine Reach.invariant (I := Settled options)
    ⟨fun _ h => (by cases h), fun _ h => (by cases h)⟩ ?_ h
  intro s l s' _ hs _ hstep
  obtain ⟨_, s₁, hrun, hQ⟩ := (RedisContext.ensures_routine hs l.1).run l.2
  rw [perform, hrun] at hstep
  obtain rfl := Option.some.inj hstep
  exact hQ

/-- **Data commands run on initialised connections**, in the configured database, in
every run in which no `PING` is answered without error on a connection whose `AUTH` or
`SELECT` was answered with one. -/
theorem data_commands_guarded (h : s.Reachable options) (hshut : ∀ trace ∈ s.traces, Shut trace) :
    ∀ trace ∈ s.traces, Guarded options trace :=
  fun trace htrace => (h.settled.1 trace htrace).guarded (hshut trace htrace)

/-- The options of a server with a password, in database 3. -/
def demoOptions : RedisOptions := { password := "secret", database := 3 }

/-- A value is stored with everything going well, by a client that was not connected. -/
def demoTrace : List RedisExchange :=
  [(.set "k" "v" none, some (.status "OK")), (.ping, some (.status "OK")),
    (.select 3, some (.status "OK")), (.auth "secret", some (.status "OK"))]

theorem data_commands_guarded_demo : Guarded demoOptions demoTrace := by
  have reached : Reachable demoOptions { context := some ⟨false, demoTrace⟩ } :=
    Reach.refl.tail (l := (.set "k" "v" 0, fun _ => { reply := some (.status "OK") })) trivial rfl
  refine data_commands_guarded reached ?_ demoTrace List.mem_cons_self
  simp [demoTrace, traces, Shut, HalfOpen, RedisExchange.refused, RedisReply.isError]

/-- The server refuses `SELECT 99`, so `Connect` fails, but it answers pings: the next
`GET` runs in database 0. -/
theorem data_command_unguarded :
    ¬∀ options : RedisOptions, ∀ s : RedisLink, s.Reachable options →
      ∀ trace ∈ s.traces, Guarded options trace := by
  intro h
  have reached : RedisLink.Reachable { database := 99 }
      { context := some ⟨false, [(.get "k", some .nil), (.ping, some (.status "PONG")),
          (.select 99, some (.error "ERR DB index is out of range"))]⟩ } :=
    (Reach.refl.tail (l := (.connect,
      fun _ => { reply := some (.error "ERR DB index is out of range") })) trivial rfl).tail
      (l := (.get "k", fun n => { reply := if n = 2 then some (.status "PONG") else some .nil }))
      trivial rfl
  have hguarded := (h _ _ reached _ List.mem_cons_self).1 rfl
  exact absurd hguarded.2 (by decide)

end RedisLink

end GameBackend
