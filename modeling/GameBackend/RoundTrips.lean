import GameBackend.UsableSessions

/-!
# What is saved is found

Snapshots and battle contexts go to Redis as hashes of printed fields, over whatever hash is
at their key. Read back they are what was saved, however much time passes between the
commands, as long as the key does not expire (`saved_is_found`).
-/

namespace GameBackend

variable {ι : Type} [DecidableEq ι] {env : Env} {i : ι} {k : RedisKey} {s s₀ : Store ι}
  {delays : ℕ → ℕ} {n : ℕ} {stuck : Prop} {α : Type}

/-! ## Reading back -/

/-- The fields of a record decode. -/
theorem RedisKey.decodes_record {values : List (String × String)} (h : k.Record values)
    (hnodup : (values.map Prod.fst).Nodup) : k.Decodes values := by
  refine decodes fun f hf => ?_
  obtain ⟨⟨g, v⟩, hmem, rfl⟩ := List.mem_map.mp (h.complete f hf)
  exact ⟨v, fieldOf_of_mem hnodup hmem, h.genuine g v hmem⟩

namespace RedisPlayerCacheRepository

theorem decode_fields (playerState : PlayerState) :
    decode (fields playerState) = some playerState := by
  have hdecodes : (decode (fields playerState)).isSome = true :=
    RedisKey.decodes_record (RedisKey.record_snapshot 0 playerState) (fields_nodup playerState)
  obtain ⟨found, hfound⟩ := Option.isSome_iff_exists.mp hdecodes
  rw [hfound, decode_of_subHash (fun _ _ h => h) hfound]

/-- `FindByPlayerId` looks at its fields only. -/
theorem decode_congr {values values' : List (String × String)}
    (h : ∀ f ∈ (RedisKey.playerSnapshot 0).fieldNames, fieldOf values f = fieldOf values' f) :
    decode values = decode values' := by
  simp only [RedisKey.fieldNames, List.forall_mem_cons] at h
  simp only [decode, h]

end RedisPlayerCacheRepository

namespace RedisBattleContextRepository

theorem decode_fields (battleContext : BattleContext) :
    decode battleContext.battleId (fields battleContext) = some battleContext := by
  have hdecodes : (decode battleContext.battleId (fields battleContext)).isSome = true :=
    RedisKey.decodes_record (RedisKey.record_context battleContext.battleId battleContext)
      (fields_nodup battleContext)
  obtain ⟨found, hfound⟩ := Option.isSome_iff_exists.mp hdecodes
  rw [hfound, decode_of_subHash (fun _ _ h => h) hfound]

theorem decode_congr {battleId : String} {values values' : List (String × String)}
    (h : ∀ f ∈ (RedisKey.battleCtx battleId).fieldNames, fieldOf values f = fieldOf values' f) :
    decode battleId values = decode battleId values' := by
  simp only [RedisKey.fieldNames, List.forall_mem_cons] at h
  simp only [decode, h]

end RedisBattleContextRepository

/-- A record that is written over a hash is what a reader finds of its fields. -/
theorem fieldOf_overwrite_record (old : List (String × String))
    {values values' : List (String × String)} (hperm : values'.Perm values)
    (hnodup : (values.map Prod.fst).Nodup) {f : String} (hf : f ∈ values.map Prod.fst) :
    fieldOf (overwrite old values') f = fieldOf values f := by
  have hnodup' : (values'.map Prod.fst).Nodup := (hperm.map Prod.fst).nodup_iff.mpr hnodup
  obtain ⟨⟨g, v⟩, hmem, rfl⟩ := List.mem_map.mp hf
  rw [fieldOf_overwrite _ _ hnodup', fieldOf_of_mem hnodup hmem,
    fieldOf_of_mem hnodup' (hperm.mem_iff.mpr hmem)]
  rfl

/-! ## Time passes -/

/-- Process `i` executes a command some milliseconds after the last one, by which the key
`k` has not expired. -/
def Store.lasting (i : ι) (k : RedisKey) (s : Store ι) (ms : ℕ) (c : Cmd) :
    Option (c.Reply × Store ι) :=
  if (s.redis.tick ms).live k = s.redis.live k then
    { s with redis := s.redis.tick ms }.perform i none c
  else none

/-- Nothing but the entry of `k` may differ from `s₀`, and `k` holds these fields. -/
structure Store.HoldsAt (s₀ : Store ι) (k : RedisKey) (values : List (String × String))
    (s : Store ι) : Prop where
  mysql : s.mysql = s₀.mysql
  sequence : s.sequence = s₀.sequence
  entries : ∀ k', k' ≠ k → s.redis.entries k' = s₀.redis.entries k'
  hash : s.redis.hash? k = some values

/-- A command on `k` finds the same hash there, a little later. -/
theorem yields_lasting (hlast : ∀ n (d : Redis), (d.tick (delays n)).live k ≠ d.live k → stuck)
    {values : List (String × String)} (hs : s₀.HoldsAt k values s) (c : RedisCmd) :
    (redis c).Yields (Store.lasting i k) delays stuck (fun r n' s' => n' = n + 1 ∧
      ∃ later, s₀.HoldsAt k values later ∧ r = (later.redis.execute c).1 ∧
        s' = { later with redis := (later.redis.execute c).2 }) n s := by
  refine ⟨fun hnone => ?_, fun r s' hexec => ?_⟩
  · rw [Store.lasting] at hnone
    split_ifs at hnone with hlive
    · cases hnone
    · exact hlast n s.redis hlive
  · rw [Store.lasting] at hexec
    split_ifs at hexec with hlive
    obtain ⟨rfl, rfl⟩ := Prod.mk.inj (Option.some.inj hexec)
    have hlater : s₀.HoldsAt k values { s with redis := s.redis.tick (delays n) } :=
      ⟨hs.mysql, hs.sequence, hs.entries, (Redis.hash?_congr hlive).trans hs.hash⟩
    exact ⟨rfl, _, hlater, rfl, rfl⟩

section Lasting

variable (hlast : ∀ n (d : Redis), (d.tick (delays n)).live k ≠ d.live k → stuck)
include hlast

/-- The `HSET` loop goes through and writes every field. -/
theorem yields_hSetFields_lasting :
    ∀ (writes : List (String × String)) {values : List (String × String)} {n : ℕ} {s : Store ι},
      s₀.HoldsAt k values s →
      (RedisClient.hSetFields k writes).Yields (Store.lasting i k) delays stuck
        (fun done _ s' => done = true ∧ s₀.HoldsAt k (overwrite values writes) s') n s
  | [], _, _, _, hs => ⟨rfl, hs⟩
  | (f, v) :: rest, values, n, s, hs => by
    refine (yields_lasting hlast hs (.hset k f v)).bind ?_
    rintro done _ _ ⟨rfl, later, hlater, rfl, rfl⟩
    obtain ⟨hok, hhash⟩ := Redis.hset_hash? later.redis k f v
    rw [hlater.hash] at hok hhash
    rw [hok]
    refine yields_hSetFields_lasting rest ⟨hlater.mysql, hlater.sequence, fun k' hk' => ?_, hhash⟩
    exact (Redis.entries_execute_ne hk').trans (hlater.entries k' hk')

theorem yields_hSet_lasting {values : List (String × String)} (hs : s₀.HoldsAt k values s)
    (writes : List (String × String)) (ttl : ℤ) :
    (RedisClient.hSet env k writes ttl).Yields (Store.lasting i k) delays stuck
      (fun done _ s' => done = true ∧
        s₀.HoldsAt k (overwrite values (env.fieldOrder writes)) s') n s := by
  refine (yields_hSetFields_lasting hlast _ hs).bind ?_
  rintro done n' s' ⟨rfl, hs'⟩
  rw [if_pos rfl]
  split_ifs with httl
  · refine (yields_lasting hlast hs' (.expire k ttl.toNat)).mono ?_
    rintro done _ _ ⟨-, later, hlater, rfl, rfl⟩
    refine ⟨?_, hlater.mysql, hlater.sequence, fun k' hk' => ?_, ?_⟩
    · simp only [Redis.execute]
      split <;> rfl
    · exact (Redis.entries_execute_ne hk').trans (hlater.entries k' hk')
    · exact (Redis.expire_hash? later.redis k (by omega)).trans hlater.hash
  · exact ⟨rfl, hs'⟩

theorem yields_hGetAll_lasting {values : List (String × String)} (hs : s₀.HoldsAt k values s)
    (hne : values ≠ []) :
    (RedisClient.hGetAll k).Yields (Store.lasting i k) delays stuck
      (fun found _ s' => found = some values ∧ s₀.HoldsAt k values s') n s := by
  obtain ⟨field, rest, rfl⟩ := List.exists_cons_of_ne_nil hne
  refine (yields_lasting hlast hs (.hgetall k)).bind ?_
  rintro reply _ _ ⟨-, later, hlater, rfl, rfl⟩
  have hreply : (later.redis.execute (.hgetall k)).1 = some (field :: rest) := hlater.hash
  rw [hreply]
  exact ⟨rfl, hlater⟩

theorem yields_find_lasting {values : List (String × String)} (hs : s₀.HoldsAt k values s)
    (hne : values ≠ []) {decode : List (String × String) → Option α} {a : α}
    (hdecode : decode values = some a) :
    Prog.Yields (Store.lasting i k) delays stuck
      (fun found _ s' => found = some a ∧ s₀.HoldsAt k values s') (do
      match ← RedisClient.hGetAll k with
      | none => return none
      | some values => return some (← orThrow (decode values))) n s := by
  refine (yields_hGetAll_lasting hlast hs hne).bind ?_
  rintro found _ s' ⟨rfl, hs'⟩
  simp only [orThrow, hdecode, Prog.ofOption_some, Prog.ret_bind]
  exact ⟨rfl, hs'⟩

end Lasting

/-! ## Saving and finding -/

/-- Save, then find. -/
def saveAndFind (save : Program Bool) (find : Program (Option α)) :
    Program (Bool × Option α) := do
  let saved ← save
  let found ← find
  return (saved, found)

/-- In every run in which the key does not expire, what is saved is found and nothing but
the key changes; and there is such a run, with no delays. -/
structure Store.RoundTrips (s : Store ι) (i : ι) (k : RedisKey) (save : Program Bool)
    (find : Program (Option α)) (a : α) : Prop where
  found : ∀ delays r s', (saveAndFind save find).run (Store.lasting i k) delays s = some (r, s') →
    r = (true, some a) ∧ s'.mysql = s.mysql ∧ s'.sequence = s.sequence ∧
      ∀ k', k' ≠ k → s'.redis.entries k' = s.redis.entries k'
  runs : ∃ r s', (saveAndFind save find).run (Store.lasting i k) (fun _ => 0) s = some (r, s')

theorem Store.RoundTrips.of_hash {fields old : List (String × String)} {ttl : ℤ}
    {decode : List (String × String) → Option α} {a : α} (hnodup : (fields.map Prod.fst).Nodup)
    (hne : fields ≠ []) (hold : s.redis.hash? k = some old)
    (hdecode : ∀ values, (∀ f ∈ fields.map Prod.fst, fieldOf values f = fieldOf fields f) →
      decode values = some a) :
    s.RoundTrips i k (RedisClient.hSet env k fields ttl) (do
      match ← RedisClient.hGetAll k with
      | none => return none
      | some values => return some (← orThrow (decode values))) a := by
  have hperm := env.fieldOrder_perm fields
  have hholds : s.HoldsAt k old s := ⟨rfl, rfl, fun _ _ => rfl, hold⟩
  have hwritten := hdecode (overwrite old (env.fieldOrder fields)) fun f hf =>
    fieldOf_overwrite_record old hperm hnodup hf
  have hwritten_ne : overwrite old (env.fieldOrder fields) ≠ [] := by
    obtain ⟨⟨f, v⟩, rest, rfl⟩ := List.exists_cons_of_ne_nil hne
    intro hnil
    have hfield := fieldOf_overwrite_record old hperm hnodup List.mem_cons_self
    rw [hnil, fieldOf_of_mem hnodup List.mem_cons_self] at hfield
    cases hfield
  have hyields (delays : ℕ → ℕ) (stuck : Prop)
      (hlast : ∀ n (d : Redis), (d.tick (delays n)).live k ≠ d.live k → stuck) :
      (saveAndFind (RedisClient.hSet env k fields ttl) (do
        match ← RedisClient.hGetAll k with
        | none => return none
        | some values => return some (← orThrow (decode values)))).Yields (Store.lasting i k)
        delays stuck (fun r _ s' => r = (true, some a) ∧
          s.HoldsAt k (overwrite old (env.fieldOrder fields)) s') 0 s := by
    refine (yields_hSet_lasting hlast hholds fields ttl).bind ?_
    rintro saved n s' ⟨rfl, hs'⟩
    refine (yields_find_lasting hlast hs' hwritten_ne hwritten).bind ?_
    rintro found n' s'' ⟨rfl, hs''⟩
    exact ⟨rfl, hs''⟩
  refine ⟨fun delays r s' hrun => ?_, ?_⟩
  · obtain ⟨-, rfl, hs'⟩ := (hyields delays True fun _ _ _ => trivial).run
      (by simpa only [Nat.zero_add] using hrun)
    exact ⟨rfl, hs'.mysql, hs'.sequence, hs'.entries⟩
  · obtain ⟨r, s', hrun⟩ := (hyields (fun _ => 0) False fun _ _ hlive => hlive rfl).returns id
    exact ⟨r, s', hrun⟩

/-- A snapshot and a battle context are found as they were saved, over any hash that was at
their key before. -/
theorem saved_is_found (env : Env) (i : ι) (s : Store ι) :
    (∀ playerState : PlayerState,
      s.redis.hash? (.playerSnapshot playerState.profile.playerId) ≠ none →
      s.RoundTrips i (.playerSnapshot playerState.profile.playerId)
        (RedisPlayerCacheRepository.save env playerState)
        (RedisPlayerCacheRepository.findByPlayerId playerState.profile.playerId) playerState) ∧
    ∀ battleContext : BattleContext,
      s.redis.hash? (.battleCtx battleContext.battleId) ≠ none →
      s.RoundTrips i (.battleCtx battleContext.battleId)
        (RedisBattleContextRepository.save env battleContext)
        (RedisBattleContextRepository.findByBattleId battleContext.battleId) battleContext := by
  refine ⟨fun playerState hhash => ?_, fun battleContext hhash => ?_⟩
  · obtain ⟨old, hold⟩ := Option.ne_none_iff_exists'.mp hhash
    refine .of_hash (RedisPlayerCacheRepository.fields_nodup playerState) (List.cons_ne_nil _ _)
      hold fun values hvalues => ?_
    rw [← RedisPlayerCacheRepository.decode_fields playerState]
    exact RedisPlayerCacheRepository.decode_congr hvalues
  · obtain ⟨old, hold⟩ := Option.ne_none_iff_exists'.mp hhash
    refine .of_hash (RedisBattleContextRepository.fields_nodup battleContext)
      (List.cons_ne_nil _ _) hold fun values hvalues => ?_
    rw [← RedisBattleContextRepository.decode_fields battleContext]
    exact RedisBattleContextRepository.decode_congr hvalues

/-- An old snapshot with a field nobody reads. -/
def staleStore : Store Bool where
  mysql := ⟨demoTables, fun _ => none, fun _ => none, []⟩
  redis := ⟨0, fun k =>
    if k = .playerSnapshot 20001 then some ⟨.hash [("gold", "7"), ("stale", "1")], none⟩ else none⟩
  sequence _ := 1

/-- A player whose name looks like a serialized list. -/
def trickyState : PlayerState :=
  ⟨⟨20001, 10001, "1:2:1;", -10, 120, -1, 100⟩, [⟨1001, -3, true⟩, ⟨-7, 0, false⟩]⟩

theorem saved_is_found_demo :
    staleStore.RoundTrips false (.playerSnapshot 20001)
      (RedisPlayerCacheRepository.save demoEnv trickyState)
      (RedisPlayerCacheRepository.findByPlayerId 20001) trickyState :=
  (saved_is_found demoEnv false staleStore).1 trickyState (by decide)

end GameBackend
