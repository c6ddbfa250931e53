import GameBackend.Computation
import GameBackend.Mysql
import GameBackend.Redis

/-!
# Commands of a server process and the two client classes

`Cmd` is what a server process sends to the outside: SQL statements over its
MySQL connection, Redis commands over its Redis connection, and two commands to
itself (its sequence counter and the clock). `Program` is a program over these.

The client methods wrap one command each, except `RedisClient.hSet`, which sends
one `HSET` a field and then an `EXPIRE`. The `PING` in front of every method
changes nothing; when it fails the method fails without effect, like a command
that fails.
-/

namespace GameBackend

/-- A command of a server process. -/
inductive Cmd where
  | sql (c : SqlCmd)
  | redis (c : RedisCmd)
  /-- read and advance the process's `sequence_` -/
  | fetchAddSequence
  /-- `system_clock::now` -/
  | epochSeconds
  deriving DecidableEq, Repr

/-- The answer to a command. -/
abbrev Cmd.Reply : Cmd → Type
  | .sql c => c.Reply
  | .redis c => c.Reply
  | .fetchAddSequence => UInt64
  | .epochSeconds => ℤ

/-- The answers a command can get. -/
def Cmd.Plausible : (c : Cmd) → c.Reply → Prop
  | .sql c, r => c.Plausible r
  | _, _ => True

/-- A routine of a server process. -/
abbrev Program (α : Type) : Type := Prog Cmd Cmd.Reply α

/-- Send a statement to MySQL. -/
def sql (c : SqlCmd) : Program c.Reply := Prog.send (R := Cmd.Reply) (Cmd.sql c)

/-- Send a command to Redis. -/
def redis (c : RedisCmd) : Program c.Reply := Prog.send (R := Cmd.Reply) (Cmd.redis c)

/-- `sequence_.fetch_add(1)` -/
def fetchAddSequence : Program UInt64 := Prog.send (R := Cmd.Reply) Cmd.fetchAddSequence

/-- The clock in seconds. -/
def epochSeconds : Program ℤ := Prog.send (R := Cmd.Reply) Cmd.epochSeconds

/-- The value of an `Option`, or an exception. -/
def orThrow {α : Type} (o : Option α) : Program α := Prog.ofOption o

namespace MySqlClient

/-- `Execute` of a write statement: an error message or the affected rows. -/
def execute (s : SqlWrite) : Program (Except String ℕ) := sql (.write s)

/-- `Query`: a query that fails looks like an empty result. -/
def query (q : Query) : Program (List q.Row) := do
  match ← sql (.select q) with
  | none => return []
  | some rows => return rows

/-- `QueryOne`: the first row. -/
def queryOne (q : Query) : Program (Option q.Row) := do
  return (← query q).head?

def beginTransaction : Program (Except String Unit) := sql .startTransaction

def commit : Program (Except String Unit) := sql .commit

def rollback : Program (Except String Unit) := sql .rollback

end MySqlClient

namespace RedisClient

def get (k : RedisKey) : Program (Option String) := do
  match ← redis (.get k) with
  | none => return none
  | some v => return v

def set (k : RedisKey) (v : String) (ttl : ℤ) : Program Bool :=
  redis (.set k v (if 0 < ttl then some ttl.toNat else none))

def del (k : RedisKey) : Program Bool := redis (.del k)

/-- The `HSET` loop of `HSet`: it stops at the first command that fails. -/
def hSetFields (k : RedisKey) : List (String × String) → Program Bool
  | [] => return true
  | (f, v) :: rest => do
    if ← redis (.hset k f v) then hSetFields k rest else return false

def hSet (env : Env) (k : RedisKey) (values : List (String × String)) (ttl : ℤ) :
    Program Bool := do
  if ← hSetFields k (env.fieldOrder values) then
    if 0 < ttl then redis (.expire k ttl.toNat) else return true
  else return false

/-- `HGetAll`: a failure and an absent key look alike. -/
def hGetAll (k : RedisKey) : Program (Option (List (String × String))) := do
  match ← redis (.hgetall k) with
  | none => return none
  | some [] => return none
  | some fields => return some fields

/-- `SetNxWithExpire`: `none` when the command fails, else whether the key was
inserted. -/
def setNxWithExpire (k : RedisKey) (v : String) (ttl : ℤ) : Program (Option Bool) :=
  redis (.setNx k v ttl.toNat)

end RedisClient

end GameBackend
