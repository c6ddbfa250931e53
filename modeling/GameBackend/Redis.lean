import GameBackend.Text
import Mathlib.Logic.Function.Basic
import Mathlib.Data.List.Lookmap

/-!
# The Redis server

Keys, values with an optional expiry date, and the commands the servers send.
A key is present as long as the clock `now` (in milliseconds) has not reached
its expiry date; an entry whose date has passed stays in the map but no command
sees it.

The keys are the five families the repositories build; `RedisKey.text` is the
text that goes over the wire and `RedisKey.text_inj` says that different keys
have different texts, whatever session or battle id a client chooses.
-/

namespace GameBackend

/-! ## Keys -/

/-- The keys of the repositories. -/
inductive RedisKey where
  /-- `session:<id>` -/
  | session (sessionId : String)
  /-- `account:session:<id>` -/
  | accountSession (accountId : ℤ)
  /-- `player:snapshot:<id>` -/
  | playerSnapshot (playerId : ℤ)
  /-- `battle:ctx:<id>` -/
  | battleCtx (battleId : String)
  /-- `player:lock:<id>` -/
  | playerLock (playerId : ℤ)
  deriving DecidableEq, Repr

namespace RedisKey

/-- The text of a key. -/
def text : RedisKey → String
  | session sid => "session:" ++ sid
  | accountSession a => "account:session:" ++ toString a
  | playerSnapshot p => "player:snapshot:" ++ toString p
  | battleCtx b => "battle:ctx:" ++ b
  | playerLock p => "player:lock:" ++ toString p

/-- The text in front of the id, one for each family of keys. -/
private def tag : Fin 5 → List Char
  | 0 => "session:".toList
  | 1 => "account:session:".toList
  | 2 => "player:snapshot:".toList
  | 3 => "battle:ctx:".toList
  | 4 => "player:lock:".toList

private def family : RedisKey → Fin 5
  | session _ => 0
  | accountSession _ => 1
  | playerSnapshot _ => 2
  | battleCtx _ => 3
  | playerLock _ => 4

/-- The id of a key, as text. -/
private def id : RedisKey → String
  | session sid => sid
  | accountSession a => toString a
  | playerSnapshot p => toString p
  | battleCtx b => b
  | playerLock p => toString p

private theorem toList_text (k : RedisKey) : k.text.toList = tag k.family ++ k.id.toList := by
  cases k <;> exact String.toList_append

/-- No tag is a prefix of another one. -/
private theorem tag_inj : ∀ i j, tag i <+: tag j → i = j := by decide

/-- Within a family the id determines the key. -/
private theorem eq_of_id {k k' : RedisKey} (hf : k.family = k'.family) (hid : k.id = k'.id) :
    k = k' := by
  cases k <;> cases k' <;> first
    | exact congrArg _ hid
    | exact congrArg _ (toString_inj hid)
    | simp [family] at hf

/-- Different keys have different texts: client-chosen ids cannot reach the
keys of another family. -/
theorem text_inj {k k' : RedisKey} (h : k.text = k'.text) : k = k' := by
  have hl : tag k.family ++ k.id.toList = tag k'.family ++ k'.id.toList := by
    rw [← toList_text, ← toList_text, h]
  have hf : k.family = k'.family := by
    have hpre : tag k.family <+: tag k'.family ∨ tag k'.family <+: tag k.family := by
      refine List.prefix_or_prefix_of_prefix (List.prefix_append _ k.id.toList) ?_
      rw [hl]
      exact List.prefix_append _ _
    rcases hpre with hpre | hpre
    · exact tag_inj _ _ hpre
    · exact (tag_inj _ _ hpre).symm
  rw [hf] at hl
  exact eq_of_id hf (String.toList_injective (List.append_cancel_left hl))

end RedisKey

/-! ## Values -/

/-- A string or a hash. -/
inductive RedisValue where
  | string (s : String)
  | hash (fields : List (String × String))
  deriving DecidableEq, Repr

/-- A value and the time it expires, if it does. -/
structure RedisEntry where
  value : RedisValue
  expiresAt : Option ℕ := none
  deriving DecidableEq, Repr

/-- The value of a field of a hash. -/
abbrev fieldOf (fields : List (String × String)) (f : String) : Option String := fields.lookup f

/-- Set one field of a hash; other fields keep their place. -/
def setField (f v : String) : List (String × String) → List (String × String)
  | [] => [(f, v)]
  | (g, w) :: rest => if g = f then (f, v) :: rest else (g, w) :: setField f v rest

theorem lookup_setField (f v g : String) :
    ∀ fields, (setField f v fields).lookup g = if g = f then some v else fields.lookup g
  | [] => by
    by_cases h : g = f
    · simp [setField, h]
    · simp [setField, h]
  | (k, w) :: rest => by
    have ih := lookup_setField f v g rest
    by_cases hk : k = f
    · subst hk
      by_cases h : g = k
      · simp [setField, h]
      · simp only [setField, if_true, List.lookup_cons, beq_eq_false_iff_ne.mpr h, if_neg h]
    · by_cases h : g = k
      · have hgf : g ≠ f := fun hgf => hk (h ▸ hgf)
        simp [setField, hk, h]
      · simp only [setField, hk, if_false, List.lookup_cons, beq_eq_false_iff_ne.mpr h, ih]

/-- Every field of `values` has the value it has in `fields`. -/
def SubHash (values fields : List (String × String)) : Prop :=
  ∀ f v, fieldOf values f = some v → fieldOf fields f = some v

theorem SubHash.nil (fields : List (String × String)) : SubHash [] fields :=
  fun _ _ h => nomatch h

/-- Writing one field of `fields` keeps a hash within `fields`. -/
theorem SubHash.setField {values fields : List (String × String)} {f v : String}
    (h : SubHash values fields) (hfv : fieldOf fields f = some v) :
    SubHash (setField f v values) fields := by
  intro g w hw
  rw [fieldOf, lookup_setField] at hw
  split at hw
  · rename_i hg
    rw [hg, hfv, hw]
  · exact h g w hw

/-- A field of a hash without duplicate fields is found. -/
theorem fieldOf_of_mem :
    ∀ {fields : List (String × String)} {f v : String}, (fields.map Prod.fst).Nodup →
      (f, v) ∈ fields → fieldOf fields f = some v
  | (g, w) :: rest, f, v, hnd, h => by
    rw [List.map_cons, List.nodup_cons] at hnd
    rcases List.mem_cons.mp h with heq | hmem
    · obtain ⟨rfl, rfl⟩ := Prod.mk.inj heq
      simp [fieldOf]
    · have hne : f ≠ g := fun hfg => hnd.1 (List.mem_map.mpr ⟨_, hmem, hfg⟩)
      rw [fieldOf, List.lookup_cons, beq_eq_false_iff_ne.mpr hne]
      exact fieldOf_of_mem hnd.2 hmem

/-! ## Commands -/

/-- What a server process can send to Redis. Lifetimes are in seconds. -/
inductive RedisCmd where
  | get (k : RedisKey)
  | set (k : RedisKey) (v : String) (ttl : Option ℕ)
  /-- `SET k v NX EX ttl` -/
  | setNx (k : RedisKey) (v : String) (ttl : ℕ)
  | del (k : RedisKey)
  | hset (k : RedisKey) (f v : String)
  | expire (k : RedisKey) (ttl : ℕ)
  | hgetall (k : RedisKey)
  deriving DecidableEq, Repr

/-- What it gets back: `none` or `false` for an error reply or a lost
connection. -/
abbrev RedisCmd.Reply : RedisCmd → Type
  | get _ => Option (Option String)
  | set _ _ _ => Bool
  | setNx _ _ _ => Option Bool
  | del _ => Bool
  | hset _ _ _ => Bool
  | expire _ _ => Bool
  | hgetall _ => Option (List (String × String))

/-- The answer to a command that fails. -/
def RedisCmd.failed : (c : RedisCmd) → c.Reply
  | get _ => none
  | set _ _ _ => false
  | setNx _ _ _ => none
  | del _ => false
  | hset _ _ _ => false
  | expire _ _ => false
  | hgetall _ => none

/-- The state of the Redis server. -/
structure Redis where
  /-- milliseconds -/
  now : ℕ
  entries : RedisKey → Option RedisEntry

namespace Redis

/-- The entry of a key that is present. -/
def live (d : Redis) (k : RedisKey) : Option RedisEntry :=
  (d.entries k).filter fun e => e.expiresAt.all fun t => d.now < t

/-- Replace the entry of a key. -/
def put (d : Redis) (k : RedisKey) (e : Option RedisEntry) : Redis :=
  { d with entries := Function.update d.entries k e }

/-- The hash at a key: no field when the key is absent, `none` when it holds a
string. -/
def hash? (d : Redis) (k : RedisKey) : Option (List (String × String)) :=
  match d.live k with
  | none => some []
  | some ⟨.hash fields, _⟩ => some fields
  | some ⟨.string _, _⟩ => none

/-- Let `ms` milliseconds pass. -/
def tick (d : Redis) (ms : ℕ) : Redis := { d with now := d.now + ms }

/-- Execute a command. -/
def execute (d : Redis) : (c : RedisCmd) → c.Reply × Redis
  | .get k =>
    match d.live k with
    | none => (some none, d)
    | some ⟨.string s, _⟩ => (some (some s), d)
    | some ⟨.hash _, _⟩ => (none, d)
  | .set k v ttl => (true, d.put k (some ⟨.string v, ttl.map fun s => d.now + 1000 * s⟩))
  | .setNx k v ttl =>
    match d.live k with
    | none => (some true, d.put k (some ⟨.string v, some (d.now + 1000 * ttl)⟩))
    | some _ => (some false, d)
  | .del k => (true, d.put k none)
  | .hset k f v =>
    match d.live k with
    | none => (true, d.put k (some ⟨.hash [(f, v)], none⟩))
    | some ⟨.hash fields, t⟩ => (true, d.put k (some ⟨.hash (setField f v fields), t⟩))
    | some ⟨.string _, _⟩ => (false, d)
  | .expire k ttl =>
    match d.live k with
    | none => (true, d)
    | some e => (true, d.put k (some { e with expiresAt := some (d.now + 1000 * ttl) }))
  | .hgetall k => (d.hash? k, d)

end Redis

/-! ### What commands leave alone -/

/-- The key a command is about. -/
def RedisCmd.key : RedisCmd → RedisKey
  | get k => k
  | set k _ _ => k
  | setNx k _ _ => k
  | del k => k
  | hset k _ _ => k
  | expire k _ => k
  | hgetall k => k

/-- The commands that only read. -/
def RedisCmd.reads : RedisCmd → Bool
  | get _ => true
  | hgetall _ => true
  | _ => false

namespace Redis

variable {d : Redis} {c : RedisCmd}

@[simp] theorem now_execute : (d.execute c).2.now = d.now := by
  cases c <;> simp only [execute] <;> (try split) <;> rfl

theorem execute_reads (h : c.reads = true) : (d.execute c).2 = d := by
  cases c with
  | get k => simp only [execute]; split <;> rfl
  | hgetall k => rfl
  | _ => cases h

theorem entries_put_ne {k k' : RedisKey} {e : Option RedisEntry} (h : k' ≠ k) :
    (d.put k e).entries k' = d.entries k' := Function.update_of_ne h ..

@[simp] theorem entries_put_self {k : RedisKey} {e : Option RedisEntry} :
    (d.put k e).entries k = e := Function.update_self ..

/-- A command changes at most the entry of its key. -/
theorem entries_execute_ne {k : RedisKey} (h : k ≠ c.key) :
    (d.execute c).2.entries k = d.entries k := by
  cases c <;> simp only [execute] <;> (try split) <;>
    first | rfl | exact entries_put_ne h

/-- Presence depends on the stored entry and the clock. -/
theorem live_congr {d' : Redis} {k : RedisKey} (hentries : d'.entries k = d.entries k)
    (hnow : d'.now = d.now) : d'.live k = d.live k := by
  rw [live, live, hentries, hnow]

theorem live_put_ne {k k' : RedisKey} {e : Option RedisEntry} (h : k' ≠ k) :
    (d.put k e).live k' = d.live k' :=
  live_congr (entries_put_ne h) rfl

/-- A present entry is stored and not expired. -/
theorem live_eq_some {k : RedisKey} {e : RedisEntry} :
    d.live k = some e ↔ d.entries k = some e ∧ ∀ t ∈ e.expiresAt, d.now < t := by
  simp only [live, Option.filter_eq_some_iff, Option.all_eq_true, decide_eq_true_eq,
    Option.mem_def]

/-- An entry that is stored with a later expiry date, or none, is present. -/
theorem live_put_self {k : RedisKey} {e : RedisEntry} (h : ∀ t ∈ e.expiresAt, d.now < t) :
    (d.put k (some e)).live k = some e :=
  live_eq_some.mpr ⟨entries_put_self, h⟩

theorem entries_of_live {k : RedisKey} {e : RedisEntry} (h : d.live k = some e) :
    d.entries k = some e := (live_eq_some.mp h).1

/-- An entry that has not expired is still there after a while. -/
theorem live_tick {k : RedisKey} {e : RedisEntry} {t ms : ℕ} (h : d.live k = some e)
    (ht : e.expiresAt = some t) (hlt : d.now + ms < t) : (d.tick ms).live k = some e := by
  refine live_eq_some.mpr ⟨(live_eq_some.mp h).1, ?_⟩
  intro t' ht'
  rw [ht] at ht'
  exact Option.some.inj ht' ▸ hlt

/-- An entry that is there after a while was there before. -/
theorem live_of_tick {k : RedisKey} {e : RedisEntry} {ms : ℕ} (h : (d.tick ms).live k = some e) :
    d.live k = some e := by
  obtain ⟨hentry, hexpires⟩ := live_eq_some.mp h
  refine live_eq_some.mpr ⟨hentry, fun t ht => ?_⟩
  have hlater : d.now + ms < t := hexpires t ht
  omega

/-- `EXPIRE` changes no value. -/
theorem live_of_expire {k k' : RedisKey} {ttl : ℕ} {e : RedisEntry}
    (h : (d.execute (.expire k ttl)).2.live k' = some e) :
    ∃ e', d.live k' = some e' ∧ e.value = e'.value := by
  simp only [execute] at h
  split at h
  · exact ⟨e, h, rfl⟩
  · rename_i e' hlive
    by_cases hk : k' = k
    · subst hk
      have hentry := entries_of_live h
      rw [entries_put_self] at hentry
      exact ⟨e', hlive, by rw [← Option.some.inj hentry]⟩
    · exact ⟨e, (live_put_ne hk).symm.trans h, rfl⟩

/-- What a key that is present after a command holds: what it held before, a string, or
a hash in which `HSET` has set a field. -/
theorem live_execute {k : RedisKey} {e : RedisEntry} (h : (d.execute c).2.live k = some e) :
    (∃ e', d.live k = some e' ∧ e.value = e'.value) ∨ (∃ v, e.value = .string v) ∨
      ∃ f v fields, c = .hset k f v ∧ e.value = .hash (setField f v fields) ∧
        (fields = [] ∨ ∃ expires, d.live k = some ⟨.hash fields, expires⟩) := by
  by_cases hk : k = c.key
  · subst hk
    have hput : ∀ new : Option RedisEntry, (d.put c.key new).live c.key = some e → new = some e :=
      fun new hnew => entries_put_self.symm.trans (entries_of_live hnew)
    cases c with
    | get k => exact .inl ⟨e, by rwa [execute_reads rfl] at h, rfl⟩
    | hgetall k => exact .inl ⟨e, h, rfl⟩
    | set k v ttl => exact .inr (.inl ⟨v, by rw [← Option.some.inj (hput _ h)]⟩)
    | setNx k v ttl =>
      simp only [execute] at h
      split at h
      · exact .inr (.inl ⟨v, by rw [← Option.some.inj (hput _ h)]⟩)
      · exact .inl ⟨e, h, rfl⟩
    | del k => cases hput _ h
    | hset k f v =>
      simp only [execute] at h
      split at h
      · exact .inr (.inr ⟨f, v, [], rfl, by rw [← Option.some.inj (hput _ h)]; rfl, .inl rfl⟩)
      · rename_i fields expires hlive
        exact .inr (.inr ⟨f, v, fields, rfl, by rw [← Option.some.inj (hput _ h)],
          .inr ⟨expires, hlive⟩⟩)
      · exact .inl ⟨e, h, rfl⟩
    | expire k ttl => exact .inl (live_of_expire h)
  · refine .inl ⟨e, ?_, rfl⟩
    rwa [live_congr (entries_execute_ne hk) now_execute] at h

/-- `HSET` on a key that holds no string sets the field and keeps the expiry
date. -/
theorem execute_hset {k : RedisKey} {f v : String}
    (h : ∀ e, d.live k = some e → ∃ fields, e.value = .hash fields) :
    ∃ fields expires,
      d.execute (.hset k f v) = (true, d.put k (some ⟨.hash (setField f v fields), expires⟩)) ∧
      (d.live k = none ∧ fields = [] ∧ expires = none ∨
        d.live k = some ⟨.hash fields, expires⟩) := by
  rcases hlive : d.live k with _ | ⟨value, expires⟩
  · exact ⟨[], none, by simp only [execute, hlive, setField], .inl ⟨rfl, rfl, rfl⟩⟩
  · obtain ⟨fields, hvalue⟩ := h _ hlive
    obtain rfl : value = .hash fields := hvalue
    exact ⟨fields, expires, by simp only [execute, hlive], .inr rfl⟩

end Redis

end GameBackend
