import GameBackend.Computation

/-!
# The handle under a MySQL client

`MySqlClient` decides from its pointer `handle_` alone whether to connect, while
the connection behind the pointer can be lost at any time. Here its methods are
programs over the C library: `MysqlCall` is one call of the library (or one look
at the pointer), `MysqlHandle.call` is what the call does to the handle under the
`Circumstance`s of the moment.

A handle whose connection is lost stays: `mysql_ping` fails on it, nothing resets
the pointer, and no method but `Connect` replaces a pointer that is not null.
-/

namespace GameBackend

/-! ## The C library -/

/-- What a pointer to a `MYSQL` structure leads to. -/
inductive MysqlHandle where
  /-- `mysql_init` made it, nothing has been connected -/
  | initialised
  /-- its connection is up -/
  | connected
  /-- its connection has been lost; without `MYSQL_OPT_RECONNECT` it stays so -/
  | lost
  deriving DecidableEq, Repr

/-- A result row: the values of its columns, by name. -/
abbrev MysqlRow : Type := List (String × String)

/-- One call of the C library, or a look at `handle_`. -/
inductive MysqlCall where
  /-- `handle_ == nullptr` -/
  | isNull
  /-- `mysql_init`, into `handle_` -/
  | init
  /-- `mysql_real_connect` -/
  | realConnect
  /-- `mysql_close`, and `handle_ = nullptr` -/
  | close
  /-- `mysql_ping` -/
  | ping
  /-- `mysql_query` -/
  | query (statement : String)
  /-- `mysql_field_count` -/
  | fieldCount
  /-- `mysql_store_result` and the fetching of its rows -/
  | storeResult
  /-- `mysql_affected_rows` -/
  | affectedRows
  /-- `mysql_real_escape_string` -/
  | escapeString (value : String)
  /-- `mysql_error` -/
  | error
  deriving DecidableEq, Repr

/-- What a call returns; `true` stands for success. -/
abbrev MysqlCall.Reply : MysqlCall → Type
  | isNull => Bool
  | init => Bool
  | realConnect => Bool
  | close => Unit
  | ping => Bool
  | query _ => Bool
  | fieldCount => ℕ
  | storeResult => Option (List MysqlRow)
  | affectedRows => ℕ
  | escapeString _ => String
  | error => String

/-- What the network, the server and the library do at one call. -/
structure Circumstance where
  /-- the connection, if there is one, is lost before the call -/
  loss : Bool := false
  /-- a call that can succeed does -/
  success : Bool := true
  /-- what `mysql_field_count` and `mysql_affected_rows` return -/
  count : ℕ := 0
  /-- what `mysql_store_result` returns -/
  result : Option (List MysqlRow) := none
  /-- what `mysql_error` and `mysql_real_escape_string` return -/
  text : String := ""

/-- `handle_`, and how many connections it has led to so far. -/
structure MysqlLink where
  handle : Option MysqlHandle := none
  opened : ℕ := 0
  deriving DecidableEq, Repr

namespace MysqlLink

/-- A connection that is up gets lost. -/
def lose (s : MysqlLink) : MysqlLink :=
  if s.handle = some .connected then { s with handle := some .lost } else s

/-- One call of the library. Only a connection that is up can answer a ping or a
query. -/
def call (s : MysqlLink) (x : Circumstance) (c : MysqlCall) : Option (c.Reply × MysqlLink) :=
  let s := if x.loss then s.lose else s
  match c with
  | .isNull => some (s.handle.isNone, s)
  | .init =>
    if x.success then some (true, { s with handle := some .initialised })
    else some (false, { s with handle := none })
  | .realConnect =>
    if x.success then some (true, { handle := some .connected, opened := s.opened + 1 })
    else some (false, s)
  | .close => some ((), { s with handle := none })
  | .ping => some (s.handle = some .connected && x.success, s)
  | .query _ => some (s.handle = some .connected && x.success, s)
  | .fieldCount => some (x.count, s)
  | .storeResult => some (x.result, s)
  | .affectedRows => some (x.count, s)
  | .escapeString _ => some (x.text, s)
  | .error => some (x.text, s)

end MysqlLink

/-! ## The client -/

namespace MysqlHandle

/-- A routine of the client. -/
abbrev Routine (α : Type) : Type := Prog MysqlCall MysqlCall.Reply α

/-- Call the library. -/
def lib (c : MysqlCall) : Routine c.Reply := Prog.send (R := MysqlCall.Reply) c

/-- `MySqlClient::LastError` -/
def lastError : Routine String := do
  if ← lib .isNull then return "mysql handle not initialized" else lib .error

/-- `MySqlClient::Connect` -/
def connect : Routine (Except String Unit) := do
  if !(← lib .isNull) then lib .close
  fresh
where
  fresh : Routine (Except String Unit) := do
    if !(← lib .init) then return .error "mysql_init failed"
    if ← lib .realConnect then return .ok ()
    let message ← lastError
    lib .close
    return .error message

/-- `MySqlClient::Ping` -/
def ping : Routine (Except String Unit) := do
  if ← lib .isNull then
    match ← connect with
    | .error message => return .error message
    | .ok () => pinged
  else pinged
where
  pinged : Routine (Except String Unit) := do
    if ← lib .ping then return .ok () else return .error (← lastError)

/-- `MySqlClient::Escape` -/
def escape (value : String) : Routine String := do
  if ← lib .isNull then
    match ← connect with
    | .error _ => return value
    | .ok () => lib (.escapeString value)
  else lib (.escapeString value)

/-- `MySqlClient::Execute`: an error message or the affected rows. -/
def execute (statement : String) : Routine (Except String ℕ) := do
  match ← ping with
  | .error message => return .error message
  | .ok () =>
    if ← lib (.query statement) then
      if 0 < (← lib .fieldCount) then
        let _ ← lib .storeResult
      return .ok (← lib .affectedRows)
    else return .error (← lastError)

/-- `MySqlClient::Query`: an error message (with no rows) or the rows. -/
def query (statement : String) : Routine (Except String (List MysqlRow)) := do
  match ← ping with
  | .error message => return .error message
  | .ok () =>
    if ← lib (.query statement) then return .ok ((← lib .storeResult).getD [])
    else return .error (← lastError)

/-- `MySqlClient::BeginTransaction` -/
def beginTransaction : Routine (Except String ℕ) := execute "START TRANSACTION"

/-- `MySqlClient::Commit` -/
def commit : Routine (Except String ℕ) := execute "COMMIT"

/-- `MySqlClient::Rollback` -/
def rollback : Routine (Except String ℕ) := execute "ROLLBACK"

end MysqlHandle

/-- A method of the client with its arguments. -/
inductive MysqlMethod where
  | connect
  | ping
  | escape (value : String)
  | execute (statement : String)
  | query (statement : String)
  deriving DecidableEq, Repr

/-- What the method does, its result aside. -/
def MysqlMethod.routine : MysqlMethod → MysqlHandle.Routine Unit
  | connect => do let _ ← MysqlHandle.connect
  | ping => do let _ ← MysqlHandle.ping
  | escape value => do let _ ← MysqlHandle.escape value
  | execute statement => do let _ ← MysqlHandle.execute statement
  | query statement => do let _ ← MysqlHandle.query statement

namespace MysqlLink

/-- One call of a method, with the circumstances of its library calls. -/
def perform (s : MysqlLink) (l : MysqlMethod × (ℕ → Circumstance)) : Option MysqlLink :=
  (l.1.routine.run call l.2 s).map Prod.snd

/-- The states a client gets into. -/
def Reachable (s : MysqlLink) : Prop := Reach perform (fun _ _ => True) {} s

/-- Under the circumstances `x`, `Ping` fails from `s` and leaves `s₁`, because the
connection is lost. -/
def FailsOnLoss (s : MysqlLink) (x : ℕ → Circumstance) (s₁ : MysqlLink) : Prop :=
  s₁.handle = some .lost ∧
    ∃ message, MysqlHandle.ping.run call x s = some (.error message, s₁)

/-- The server can be reached and answers. -/
def Fair (x : ℕ → Circumstance) : Prop := ∀ n, (x n).loss = false ∧ (x n).success = true

/-- After a `Ping` that fails from `s` because the connection is lost, the next one
opens a new connection and succeeds, if the server can be reached. -/
def Recovers (s : MysqlLink) : Prop :=
  ∀ x s₁, s.FailsOnLoss x s₁ → ∀ y, Fair y →
    ∃ s₂, MysqlHandle.ping.run call y s₁ = some (.ok (), s₂) ∧ s₂.opened = s₁.opened + 1

/-! ## A lost connection -/

theorem lose_lost {s : MysqlLink} (h : s.handle = some .lost) : s.lose = s := by
  simp [lose, h]

/-- What the library does with a lost connection: nothing, unless it is told to
make a new handle or to close this one. -/
theorem call_lost {s : MysqlLink} (h : s.handle = some .lost) (x : Circumstance) :
    s.call x .isNull = some (false, s) ∧ s.call x .ping = some (false, s) ∧
      s.call x .error = some (x.text, s) ∧
      ∀ value, s.call x (.escapeString value) = some (x.text, s) := by
  simp [call, lose_lost h, h]

end MysqlLink

namespace MysqlHandle

open MysqlLink

variable {s : MysqlLink}

theorem ensures_lastError_lost (h : s.handle = some .lost) :
    lastError.Ensures call (fun _ s' => s' = s) s :=
  fun x => ⟨false, s, (call_lost h x).1, fun y => ⟨y.text, s, (call_lost h y).2.2.1, rfl⟩⟩

/-- On a lost connection `Ping` fails and changes nothing. -/
theorem ensures_ping_lost (h : s.handle = some .lost) :
    ping.Ensures call (fun r s' => s' = s ∧ ∃ message, r = .error message) s := by
  refine fun x => ⟨false, s, (call_lost h x).1, fun y => ⟨false, s, (call_lost h y).2.1, ?_⟩⟩
  exact (ensures_lastError_lost h).bind fun message s' hs => ⟨hs, message, rfl⟩

theorem ensures_escape_lost (h : s.handle = some .lost) (value : String) :
    (escape value).Ensures call (fun _ s' => s' = s) s :=
  fun x => ⟨false, s, (call_lost h x).1, fun y => ⟨y.text, s, (call_lost h y).2.2.2 value, rfl⟩⟩

theorem ensures_execute_lost (h : s.handle = some .lost) (statement : String) :
    (execute statement).Ensures call (fun r s' => s' = s ∧ ∃ message, r = .error message) s := by
  refine (ensures_ping_lost h).bind ?_
  rintro _ s' ⟨rfl, message, rfl⟩
  exact ⟨rfl, message, rfl⟩

theorem ensures_query_lost (h : s.handle = some .lost) (statement : String) :
    (query statement).Ensures call (fun r s' => s' = s ∧ ∃ message, r = .error message) s := by
  refine (ensures_ping_lost h).bind ?_
  rintro _ s' ⟨rfl, message, rfl⟩
  exact ⟨rfl, message, rfl⟩

/-- Of all methods only `Connect` gets a client off a lost connection. -/
theorem ensures_routine_lost (h : s.handle = some .lost) {m : MysqlMethod} (hm : m ≠ .connect) :
    m.routine.Ensures call (fun _ s' => s' = s) s := by
  -- none of the others makes a new handle while the pointer is not null
  cases m with
  | connect => exact absurd rfl hm
  | ping => exact (ensures_ping_lost h).bind fun _ _ hs => hs.1
  | escape value => exact (ensures_escape_lost h value).bind fun _ _ hs => hs
  | execute statement => exact (ensures_execute_lost h statement).bind fun _ _ hs => hs.1
  | query statement => exact (ensures_query_lost h statement).bind fun _ _ hs => hs.1

end MysqlHandle

/-! ## The states of a client -/

namespace MysqlLink

/-- Between two calls of its methods a client has no handle without a connection. -/
def Settled (s : MysqlLink) : Prop := s.handle ≠ some .initialised

theorem Settled.lose {s : MysqlLink} (h : s.Settled) : s.lose.Settled := by
  unfold MysqlLink.lose Settled
  split
  · simp
  · exact h

/-- Calls that leave the pointer alone. -/
theorem Settled.call {s : MysqlLink} (h : s.Settled) (x : Circumstance) {c : MysqlCall}
    (hinit : c ≠ .init) (hconnect : c ≠ .realConnect) :
    ∃ r s', s.call x c = some (r, s') ∧ s'.Settled := by
  have hs : (if x.loss then s.lose else s).Settled := by
    split
    · exact h.lose
    · exact h
  cases c with
  | init => exact absurd rfl hinit
  | realConnect => exact absurd rfl hconnect
  | close => exact ⟨_, _, rfl, fun h => by cases h⟩
  | isNull => exact ⟨_, _, rfl, hs⟩
  | ping => exact ⟨_, _, rfl, hs⟩
  | query statement => exact ⟨_, _, rfl, hs⟩
  | fieldCount => exact ⟨_, _, rfl, hs⟩
  | storeResult => exact ⟨_, _, rfl, hs⟩
  | affectedRows => exact ⟨_, _, rfl, hs⟩
  | escapeString value => exact ⟨_, _, rfl, hs⟩
  | error => exact ⟨_, _, rfl, hs⟩

end MysqlLink

namespace MysqlHandle

open MysqlLink

variable {s : MysqlLink}

theorem ensures_lib (c : MysqlCall) (h : s.Settled) (hinit : c ≠ .init)
    (hconnect : c ≠ .realConnect) :
    (lib c).Ensures call (fun _ s' => s'.Settled) s :=
  fun x => h.call x hinit hconnect

theorem ensures_isNull (s : MysqlLink) : (lib .isNull).Ensures call (fun _ _ => True) s :=
  fun _ => ⟨_, _, rfl, trivial⟩

theorem ensures_close (s : MysqlLink) : (lib .close).Ensures call (fun _ s' => s'.Settled) s :=
  fun _ => ⟨(), _, rfl, fun h => by cases h⟩

theorem ensures_init (s : MysqlLink) :
    (lib .init).Ensures call (fun made s' => made = false → s'.Settled) s := by
  intro x
  cases hx : x.success with
  | true => exact ⟨true, _, by simp only [call, hx]; rfl, nofun⟩
  | false => exact ⟨false, _, by simp only [call, hx]; rfl, fun _ h => by cases h⟩

theorem ensures_realConnect (s : MysqlLink) :
    (lib .realConnect).Ensures call (fun done s' => done = true → s'.Settled) s := by
  intro x
  cases hx : x.success with
  | true => exact ⟨true, _, by simp only [call, hx]; rfl, fun _ h => by cases h⟩
  | false => exact ⟨false, _, by simp only [call, hx]; rfl, nofun⟩

theorem ensures_lastError (h : s.Settled) :
    lastError.Ensures call (fun _ s' => s'.Settled) s := by
  refine (ensures_lib .isNull h nofun nofun).bind fun null s' h' => ?_
  cases null with
  | true => exact h'
  | false => exact ensures_lib .error h' nofun nofun

theorem ensures_lastError_answers (s : MysqlLink) :
    lastError.Ensures call (fun _ _ => True) s := by
  refine (ensures_isNull s).bind fun null s' _ => ?_
  cases null with
  | true => exact trivial
  | false => exact fun _ => ⟨_, _, rfl, trivial⟩

/-- `Connect` ends with a connection that is up or with no handle. -/
theorem ensures_connect (s : MysqlLink) :
    connect.Ensures call (fun _ s' => s'.Settled) s := by
  have fresh (s : MysqlLink) : connect.fresh.Ensures call (fun _ s' => s'.Settled) s := by
    refine (ensures_init s).bind fun made s₁ hmade => ?_
    cases made with
    | false => exact hmade rfl
    | true =>
      refine (ensures_realConnect s₁).bind fun done s₂ hdone => ?_
      cases done with
      | true => exact hdone rfl
      | false =>
        -- the handle without a connection is closed again
        refine (ensures_lastError_answers s₂).bind fun message s₃ _ => ?_
        exact (ensures_close s₃).bind fun _ _ h => h
  refine (ensures_isNull s).bind fun null s₁ _ => ?_
  cases null with
  | true => exact fresh s₁
  | false => exact (ensures_close s₁).bind fun _ s₂ _ => fresh s₂

theorem ensures_ping (h : s.Settled) : ping.Ensures call (fun _ s' => s'.Settled) s := by
  have pinged {s : MysqlLink} (h : s.Settled) :
      ping.pinged.Ensures call (fun _ s' => s'.Settled) s := by
    refine (ensures_lib .ping h nofun nofun).bind fun answered s₁ h₁ => ?_
    cases answered with
    | true => exact h₁
    | false => exact (ensures_lastError h₁).bind fun _ _ h₂ => h₂
  refine (ensures_lib .isNull h nofun nofun).bind fun null s₁ h₁ => ?_
  cases null with
  | false => exact pinged h₁
  | true =>
    refine (ensures_connect s₁).bind fun r s₂ h₂ => ?_
    cases r with
    | error message => exact h₂
    | ok => exact pinged h₂

theorem ensures_escape (h : s.Settled) (value : String) :
    (escape value).Ensures call (fun _ s' => s'.Settled) s := by
  refine (ensures_lib .isNull h nofun nofun).bind fun null s₁ h₁ => ?_
  cases null with
  | false => exact ensures_lib (.escapeString value) h₁ nofun nofun
  | true =>
    refine (ensures_connect s₁).bind fun r s₂ h₂ => ?_
    cases r with
    | error message => exact h₂
    | ok => exact ensures_lib (.escapeString value) h₂ nofun nofun

theorem ensures_execute (h : s.Settled) (statement : String) :
    (execute statement).Ensures call (fun _ s' => s'.Settled) s := by
  refine (ensures_ping h).bind fun r s₁ h₁ => ?_
  cases r with
  | error message => exact h₁
  | ok =>
    refine (ensures_lib (.query statement) h₁ nofun nofun).bind fun done s₂ h₂ => ?_
    cases done with
    | false => exact (ensures_lastError h₂).bind fun _ _ h₃ => h₃
    | true =>
      refine (ensures_lib .fieldCount h₂ nofun nofun).bind fun count s₃ h₃ => ?_
      have counted {s : MysqlLink} (h : s.Settled) :
          (do return .ok (← lib .affectedRows) : Routine (Except String ℕ)).Ensures call
            (fun _ s' => s'.Settled) s :=
        (ensures_lib .affectedRows h nofun nofun).bind fun _ _ h' => h'
      split
      · exact (ensures_lib .storeResult h₃ nofun nofun).bind fun _ _ h₄ => counted h₄
      · exact counted h₃

theorem ensures_query (h : s.Settled) (statement : String) :
    (query statement).Ensures call (fun _ s' => s'.Settled) s := by
  refine (ensures_ping h).bind fun r s₁ h₁ => ?_
  cases r with
  | error message => exact h₁
  | ok =>
    refine (ensures_lib (.query statement) h₁ nofun nofun).bind fun done s₂ h₂ => ?_
    cases done with
    | false => exact (ensures_lastError h₂).bind fun _ _ h₃ => h₃
    | true => exact (ensures_lib .storeResult h₂ nofun nofun).bind fun _ _ h₃ => h₃

theorem ensures_routine (h : s.Settled) (m : MysqlMethod) :
    m.routine.Ensures call (fun _ s' => s'.Settled) s := by
  cases m with
  | connect => exact (ensures_connect s).bind fun _ _ hs => hs
  | ping => exact (ensures_ping h).bind fun _ _ hs => hs
  | escape value => exact (ensures_escape h value).bind fun _ _ hs => hs
  | execute statement => exact (ensures_execute h statement).bind fun _ _ hs => hs
  | query statement => exact (ensures_query h statement).bind fun _ _ hs => hs

end MysqlHandle

namespace MysqlLink

variable {s : MysqlLink}

theorem perform_of_ensures {Q : MysqlLink → Prop} {m : MysqlMethod} {x : ℕ → Circumstance}
    {s' : MysqlLink} (h : m.routine.Ensures call (fun _ s' => Q s') s)
    (hs : s.perform (m, x) = some s') : Q s' := by
  obtain ⟨a, s₁, hrun, hQ⟩ := h.run x
  rw [perform, hrun] at hs
  obtain rfl := Option.some.inj hs
  exact hQ

theorem Reachable.settled (h : s.Reachable) : s.Settled :=
  Reach.invariant (I := Settled) (fun h => by cases h)
    (fun _ l _ _ hs _ hstep => perform_of_ensures (MysqlHandle.ensures_routine hs l.1) hstep) h

/-- From every state a client gets into, a `Ping` can fail because the connection
is lost. -/
theorem Settled.failsOnLoss (h : s.Settled) :
    ∃ x s₁, s.FailsOnLoss x s₁ := by
  refine ⟨fun _ => { loss := true }, ?_⟩
  obtain ⟨_ | handle, opened⟩ := s
  -- without a handle `Ping` connects first, and loses that connection
  · exact ⟨_, rfl, "", rfl⟩
  · cases handle with
    | initialised => exact absurd rfl h
    | connected => exact ⟨_, rfl, "", rfl⟩
    | lost => exact ⟨_, rfl, "", rfl⟩

/-- A client that has lost its connection keeps the dead handle until somebody
calls `Connect`. -/
theorem stays_lost {s₁ s₂ : MysqlLink} (h : s₁.handle = some .lost)
    (hr : Reach perform (fun _ l => l.1 ≠ .connect) s₁ s₂) : s₂ = s₁ :=
  hr.invariant (I := fun s => s = s₁) rfl fun _ _ _ _ hs hm hstep => by
    subst hs
    exact perform_of_ensures (Q := fun s => s = _) (MysqlHandle.ensures_routine_lost h hm) hstep

/-- **A lost connection disables the client**: in no state is a `Ping` that failed
because the connection was lost followed by one that opens a new connection. However
many methods other than `Connect` are called, the handle stays and `Ping` fails. -/
theorem lost_connection_never_recovers (h : s.Reachable) :
    ¬s.Recovers ∧ ∀ x s₁, s.FailsOnLoss x s₁ →
      ∀ s₂, Reach perform (fun _ l => l.1 ≠ .connect) s₁ s₂ → s₂ = s₁ ∧
        ∀ y, ∃ message, MysqlHandle.ping.run call y s₂ = some (.error message, s₂) := by
  have fails {s₁ : MysqlLink} (hlost : s₁.handle = some .lost) (y : ℕ → Circumstance) :
      ∃ message, MysqlHandle.ping.run call y s₁ = some (.error message, s₁) := by
    obtain ⟨_, s₂, hrun, rfl, message, rfl⟩ := (MysqlHandle.ensures_ping_lost hlost).run y
    exact ⟨message, hrun⟩
  refine ⟨fun hrec => ?_, ?_⟩
  · obtain ⟨x, s₁, hlost⟩ := h.settled.failsOnLoss
    obtain ⟨s₂, hok, -⟩ := hrec x s₁ hlost (fun _ => {}) fun _ => ⟨rfl, rfl⟩
    obtain ⟨message, herror⟩ := fails hlost.1 fun _ => {}
    rw [hok] at herror
    cases herror
  · rintro x s₁ hlost s₂ hr
    obtain rfl := stays_lost hlost.1 hr
    exact ⟨rfl, fails hlost.1⟩

theorem lost_connection_never_recovers_new : ¬({} : MysqlLink).Recovers :=
  (lost_connection_never_recovers .refl).1

/-- A client connects, the connection is lost, a `Ping` fails, and so does the next
one although the server can be reached. -/
theorem ping_fails_again : ¬∀ s : MysqlLink, s.Reachable → s.Recovers := by
  intro h
  have connected : Reachable ⟨some .connected, 1⟩ :=
    Reach.refl.tail (l := (.connect, fun _ => {})) trivial rfl
  obtain ⟨s₂, hok, -⟩ := h _ connected (fun _ => { loss := true }) ⟨some .lost, 1⟩ ⟨rfl, "", rfl⟩
    (fun _ => {}) fun _ => ⟨rfl, rfl⟩
  cases hok

/-- What the code gets right: where `Connect` has failed, so that there is no handle,
the next `Ping` connects. -/
theorem ping_connects (h : s.handle = none) {y : ℕ → Circumstance} (hy : Fair y) :
    MysqlHandle.ping.run call y s =
      some (.ok (), { handle := some .connected, opened := s.opened + 1 }) := by
  obtain ⟨handle, opened⟩ := s
  obtain rfl := h
  have hfair : y = fun n => { y n with loss := false, success := true } := by
    funext n
    obtain ⟨hloss, hsuccess⟩ := hy n
    rw [← hloss, ← hsuccess]
  rw [hfair]
  rfl

end MysqlLink

end GameBackend
