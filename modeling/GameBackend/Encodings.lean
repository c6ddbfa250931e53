import GameBackend.Repositories

/-!
# What the hashes encode

The hashes of the backend read back as what was stored: one that has all the
fields its reader looks up, each as some record has it, decodes
(`RedisKey.decodes`), and one that decodes to anything decodes to the record its
fields are from. The one composite field is the progress of a snapshot,
`dungeon:star:flag` entries joined by semicolons;
`parseProgress_serializeProgress` is its round trip.
-/

namespace GameBackend

/-! ## Reading fields -/

section Reading

variable {values fields : List (String × String)} {f v : String} {α : Type}

/-- A field that is read out of a hash within `fields` has the text it has
there. -/
theorem read_text {g : String → Option α} {a : α} (h : SubHash values fields)
    (hf : fieldOf fields f = some v) (hread : (fieldOf values f >>= g) = some a) :
    g v = some a := by
  obtain ⟨w, hw, hg⟩ := Option.bind_eq_some_iff.mp hread
  obtain rfl := Option.some.inj ((h f w hw).symm.trans hf)
  exact hg

theorem read_int {n : ℤ} {g : ℤ → Option α} {a : α} (h : SubHash values fields)
    (hf : fieldOf fields f = some (toString n))
    (hread : (fieldOf values f >>= fun text => stoll text >>= g) = some a) : g n = some a := by
  have hint := read_text h hf hread
  rwa [stoll_toString] at hint

end Reading

/-! ## The progress text -/

namespace RedisPlayerCacheRepository

/-- Splitting joined parts gives the parts back, if none is empty and none
contains the separator. -/
theorem split_intercalate {parts : List String} {separator : Char}
    (h : ∀ part ∈ parts, part.toList ≠ [] ∧ separator ∉ part.toList) :
    split (String.intercalate (String.singleton separator) parts) separator = parts := by
  rw [split, String.toList_intercalate, String.toList_singleton]
  rcases parts with _ | ⟨part, rest⟩
  · simp [List.splitOn_nil]
  · rw [List.splitOn_intercalate]
    · rw [List.filter_eq_self.mpr, List.map_map]
      · refine (List.map_congr_left fun p _ => ?_).trans (List.map_id _)
        exact String.ofList_toList
      · intro cs hcs
        obtain ⟨p, hp, rfl⟩ := List.mem_map.mp hcs
        simpa using (h p hp).1
    · intro cs hcs
      obtain ⟨p, hp, rfl⟩ := List.mem_map.mp hcs
      exact (h p hp).2
    · exact List.cons_ne_nil _ _

/-- The three parts of an entry. -/
def tokenParts (p : PlayerDungeonProgress) : List String :=
  [toString p.dungeonId, toString p.bestStar, if p.isFirstClear then "1" else "0"]

theorem progressToken_eq (p : PlayerDungeonProgress) :
    progressToken p = String.intercalate (String.singleton ':') (tokenParts p) := by
  refine String.toList_injective ?_
  simp [progressToken, tokenParts]

/-- The characters of the parts. -/
theorem mem_tokenParts {p : PlayerDungeonProgress} {part : String} (h : part ∈ tokenParts p) :
    part.toList ≠ [] ∧ ∀ c ∈ part.toList, c.isDigit = true ∨ c = '-' := by
  simp only [tokenParts, List.mem_cons, List.not_mem_nil, or_false] at h
  rcases h with rfl | rfl | rfl
  · exact ⟨toString_ne_empty _, fun c => mem_toString⟩
  · exact ⟨toString_ne_empty _, fun c => mem_toString⟩
  · cases p.isFirstClear <;> simp

theorem split_progressToken (p : PlayerDungeonProgress) :
    split (progressToken p) ':' = tokenParts p := by
  rw [progressToken_eq]
  refine split_intercalate fun part hpart => ⟨(mem_tokenParts hpart).1, fun hmem => ?_⟩
  exact absurd ((mem_tokenParts hpart).2 _ hmem) (by decide)

/-- An entry contains no semicolon. -/
theorem mem_progressToken {p : PlayerDungeonProgress} {c : Char}
    (h : c ∈ (progressToken p).toList) : c.isDigit = true ∨ c = '-' ∨ c = ':' := by
  have hflag : ∀ c ∈ (if p.isFirstClear then "1" else "0" : String).toList,
      c.isDigit = true ∨ c = '-' := (mem_tokenParts (p := p) (by simp [tokenParts])).2
  simp only [progressToken, String.toList_append, List.mem_append] at h
  rcases h with (((h | h) | h) | h) | h
  · exact (mem_toString h).imp_right .inl
  · exact .inr (.inr (by simpa using h))
  · exact (mem_toString h).imp_right .inl
  · exact .inr (.inr (by simpa using h))
  · exact (hflag c h).imp_right .inl

theorem parseTokens_map (progress : List PlayerDungeonProgress) :
    parseTokens (progress.map progressToken) = some progress := by
  induction progress with
  | nil => rfl
  | cons p rest ih =>
    rw [List.map_cons, parseTokens, split_progressToken, tokenParts]
    simp only [stoll_toString, ih, Option.bind_eq_bind, Option.bind_some, Option.pure_def]
    obtain ⟨d, b, first⟩ := p
    cases first <;> simp

/-- `ParseProgress` reads back what `SerializeProgress` wrote. -/
theorem parseProgress_serializeProgress (playerState : PlayerState) :
    parseProgress (serializeProgress playerState) = some playerState.dungeonProgress := by
  have hsplit : split (serializeProgress playerState) ';' =
      playerState.dungeonProgress.map progressToken := by
    refine split_intercalate fun part hpart => ?_
    obtain ⟨p, -, rfl⟩ := List.mem_map.mp hpart
    refine ⟨?_, fun hmem => absurd (mem_progressToken hmem) (by decide)⟩
    simp [progressToken]
  rw [parseProgress, hsplit, parseTokens_map]

theorem fields_nodup (playerState : PlayerState) :
    ((fields playerState).map Prod.fst).Nodup := by
  simp [fields]

/-- A hash within the fields of a state decodes to this state or not at all. -/
theorem decode_of_subHash {playerState decoded : PlayerState} {values : List (String × String)}
    (h : SubHash values (fields playerState)) (hdecode : decode values = some decoded) :
    decoded = playerState := by
  have h₁ := read_int h rfl hdecode
  have h₂ := read_int h rfl h₁
  have h₃ := read_text h rfl h₂
  have h₄ := read_int h rfl h₃
  have h₅ := read_int h rfl h₄
  have h₆ := read_int h rfl h₅
  have h₇ := read_int h rfl h₆
  have h₈ := read_text h rfl h₇
  rw [parseProgress_serializeProgress] at h₈
  exact (Option.some.inj h₈).symm

end RedisPlayerCacheRepository

/-! ## Complete hashes -/

namespace RedisKey

/-- The fields the reader of a hash looks up; a key of another family has none. -/
def fieldNames : RedisKey → List String
  | session _ => ["account_id", "player_id", "created_at_epoch_seconds"]
  | playerSnapshot _ => ["player_id", "account_id", "player_name", "level", "stamina", "gold",
      "diamond", "dungeon_progress"]
  | battleCtx _ => ["player_id", "dungeon_id", "cost_stamina", "max_star", "settled"]
  | _ => []

/-- Some record has the value `v` in the field `f`. -/
def Field : RedisKey → String → String → Prop
  | session _, f, v => ∃ session, (f, v) ∈ RedisSessionRepository.fields session
  | playerSnapshot _, f, v => ∃ playerState, (f, v) ∈ RedisPlayerCacheRepository.fields playerState
  | battleCtx _, f, v =>
    ∃ battleContext, (f, v) ∈ RedisBattleContextRepository.fields battleContext
  | _, _, _ => False

/-- The reader of the hash gets a record out of it. -/
def Decodes : RedisKey → List (String × String) → Prop
  | session sessionId, values => (RedisSessionRepository.decode sessionId values).isSome = true
  | playerSnapshot _, values => (RedisPlayerCacheRepository.decode values).isSome = true
  | battleCtx battleId, values =>
    (RedisBattleContextRepository.decode battleId values).isSome = true
  | _, _ => True

/-- A complete hash of fields of records decodes; the fields may be those of
different records. -/
theorem decodes {k : RedisKey} {values : List (String × String)}
    (h : ∀ f ∈ k.fieldNames, ∃ v, fieldOf values f = some v ∧ k.Field f v) : k.Decodes values := by
  cases k with
  | session sessionId =>
    simp only [fieldNames, List.forall_mem_cons, Field, RedisSessionRepository.fields] at h
    obtain ⟨⟨v₁, h₁, s₁, m₁⟩, ⟨v₂, h₂, s₂, m₂⟩, ⟨v₃, h₃, s₃, m₃⟩, -⟩ := h
    simp at m₁ m₂ m₃
    simp [Decodes, RedisSessionRepository.decode, h₁, h₂, h₃, m₁, m₂, m₃]
  | playerSnapshot p =>
    simp only [fieldNames, List.forall_mem_cons, Field, RedisPlayerCacheRepository.fields] at h
    obtain ⟨⟨v₁, h₁, s₁, m₁⟩, ⟨v₂, h₂, s₂, m₂⟩, ⟨v₃, h₃, s₃, m₃⟩, ⟨v₄, h₄, s₄, m₄⟩,
      ⟨v₅, h₅, s₅, m₅⟩, ⟨v₆, h₆, s₆, m₆⟩, ⟨v₇, h₇, s₇, m₇⟩, ⟨v₈, h₈, s₈, m₈⟩, -⟩ := h
    simp at m₁ m₂ m₃ m₄ m₅ m₆ m₇ m₈
    simp [Decodes, RedisPlayerCacheRepository.decode, h₁, h₂, h₃, h₄, h₅, h₆, h₇, h₈, m₁, m₂, m₃,
      m₄, m₅, m₆, m₇, m₈, RedisPlayerCacheRepository.parseProgress_serializeProgress]
  | battleCtx battleId =>
    simp only [fieldNames, List.forall_mem_cons, Field, RedisBattleContextRepository.fields] at h
    obtain ⟨⟨v₁, h₁, s₁, m₁⟩, ⟨v₂, h₂, s₂, m₂⟩, ⟨v₃, h₃, s₃, m₃⟩, ⟨v₄, h₄, s₄, m₄⟩,
      ⟨v₅, h₅, s₅, m₅⟩, -⟩ := h
    simp at m₁ m₂ m₃ m₄ m₅
    simp [Decodes, RedisBattleContextRepository.decode, h₁, h₂, h₃, h₄, h₅, m₁, m₂, m₃, m₄, m₅]
  | accountSession a => trivial
  | playerLock p => trivial

end RedisKey

end GameBackend
