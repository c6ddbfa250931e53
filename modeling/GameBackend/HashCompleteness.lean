import GameBackend.Hashes
import GameBackend.Trails

/-!
# Complete hashes

Sessions, snapshots and battle contexts are written field by field and looked up
with `values->at(..)`, so a reader that finds a part of one throws, and no handler
catches. Readers find whole hashes as long as the writes are left alone: nobody
reads or deletes a hash that lacks something while it is being written, no command
of a write fails, no process stops in the middle of one, and the hash does not
vanish underneath (`WritesUndisturbed`). Without this they do not: `HSET` sends
one command a field, and any other command may come between.
-/

namespace GameBackend

variable {ι : Type} [DecidableEq ι] {env : Env} {w w' w₀ : World ι} {l : Label ι}
  {β : ι → Filling}

/-! ## Writes under way -/

/-- The hash an exchange has written a field of. -/
def Exchange.fills : Exchange → Option RedisKey
  | ⟨.redis (.hset k _ _), r⟩ => if r = true then some k else none
  | _ => none

/-- The hash process `i` is in the middle of writing: it has just written a
field, and is to write another one or to set the lifetime. -/
def World.filling (w : World ι) (i : ι) : Option RedisKey :=
  match w.tasks i with
  | some ⟨_, _, e :: _, .call c _⟩ => if c.ofHSet then Exchange.fills e else none
  | _ => none

/-- The hash of `k`, if there is one, is whole already. -/
def World.WholeAt (env : Env) (w : World ι) (k : RedisKey) : Prop :=
  ∀ e ∈ w.store.redis.live k, e.Whole env k

/-- The step `l` leaves the writes alone that are under way: it does not read the
hash while a field is missing, does not delete it, and lets it live; and it does
not break the write off, by a failing command or by stopping the process, before
the hash is whole. -/
def WritesUndisturbed (env : Env) (w : World ι) (l : Label ι) : Prop :=
  ∀ i, ∀ k ∈ w.filling i,
    match l with
    | .exec j none => j = i ∨
        ((w.next j = some (.redis (.hgetall k)) → ∀ e ∈ w.store.redis.live k, e.Complete k) ∧
          w.next j ≠ some (.redis (.del k)))
    | .exec j (some _) => j = i → w.WholeAt env k
    | .crash j => j = i → w.WholeAt env k
    | .tick ms => ((w.store.redis.tick ms).live k).isSome = true
    | .evict k' => k' ≠ k
    | _ => True

/-! ## The promise -/

/-- Every hash that an `HGETALL` has returned so far has all the fields its reader
looks up. -/
def World.Observed (w : World ι) : Prop :=
  ∀ id k values time, .call id ⟨.redis (.hgetall k), some values⟩ time ∈ w.history →
    values ≠ [] → ∀ f ∈ k.fieldNames, (fieldOf values f).isSome = true

/-- What readers rely on. -/
structure HashesComplete (env : Env) (w : World ι) : Prop where
  /-- no hash that was read lacks a field -/
  observed : w.Observed
  /-- no look-up has thrown -/
  decoded : ∀ i task, w.tasks i = some task → task.rest ≠ .throw
  /-- with a lifetime configured, a hash nobody is writing expires -/
  expires : ∀ k e, w.store.redis.live k = some e → 0 < env.ttlOf k →
    (∀ i, w.filling i ≠ some k) → e.expiresAt.isSome = true

/-! ## The invariant -/

/-- The requests are where `β` says in their writes, and so is Redis. -/
structure Tidied (env : Env) (w : World ι) (β : ι → Filling) : Prop where
  idle : ∀ i, w.tasks i = none → β i = .outside
  tidy : ∀ i task, w.tasks i = some task →
    Follows Cmd.Readable (Fills env) (fun _ => False) (fun _ φ => φ = .outside) task.rest (β i)
  last : ∀ i task k written left, w.tasks i = some task → β i = .midway k written left →
    ∃ e trail, task.trail = e :: trail ∧ Exchange.fills e = some k
  filled : Filled env w.store.redis β

/-- Only a field that was written leads into the middle of a write. -/
theorem Fills.fills {φ : Filling} {c : Cmd} {r : c.Reply} {k : RedisKey} {written : List String}
    {left : List (String × String)} (h : Fills env φ c r (.midway k written left)) :
    Exchange.fills ⟨c, r⟩ = some k := by
  generalize hψ : Filling.midway k written left = ψ at h
  have hafter : ∀ {k' : RedisKey} {written' : List String} {left' : List (String × String)},
      Filling.midway k written left = .after env k' written' left' → k' = k := by
    intro k' written' left' h'
    rw [Filling.after] at h'
    split at h'
    · cases h'
    · injection h' with hk _ _
      exact hk.symm
  cases h with
  | plain _ | firstFails _ | nextFails | expire _ => cases hψ
  | first record => simp only [Exchange.fills, if_true, hafter hψ]
  | next => simp only [Exchange.fills, if_true, hafter hψ]

omit [DecidableEq ι] in
/-- A request in the middle of a write can be seen to be. -/
theorem Tidied.filling (h : Tidied env w β) {i : ι} {k : RedisKey} {written : List String}
    {left : List (String × String)} (hi : β i = .midway k written left) :
    w.filling i = some k := by
  rcases htask : w.tasks i with _ | ⟨id, request, trail, rest⟩
  · rw [h.idle i htask] at hi
    cases hi
  · obtain ⟨e, trail', htrail, hfills⟩ := h.last i _ k written left htask hi
    have hfollows := h.tidy i _ htask
    obtain rfl : trail = e :: trail' := htrail
    rw [hi] at hfollows
    cases rest with
    | ret response => cases hfollows
    | throw => exact hfollows.elim
    | call c next =>
      obtain ⟨r, -, hr⟩ := c.exists_answer
      obtain ⟨φ, hadv, -⟩ := hfollows r hr
      simp only [World.filling, htask, hadv.ofHSet, if_true, hfills]

omit [DecidableEq ι] in
theorem Tidied.init (hrest : ∀ i, w.tasks i = none) (hredis : w.store.redis.Tidy env) :
    Tidied env w fun _ => .outside where
  idle _ _ := rfl
  tidy i task hi := by rw [hrest i] at hi; cases hi
  last i task k written left hi := by rw [hrest i] at hi; cases hi
  filled := .init hredis

/-- When one process changes its task, the others stay where they are in their
writes. -/
theorem Tidied.update (h : Tidied env w β) {i : ι} {task : Option Task} {ψ : Filling}
    (htasks : w'.tasks = Function.update w.tasks i task) (hidle : task = none → ψ = .outside)
    (htidy : ∀ t, task = some t →
      Follows Cmd.Readable (Fills env) (fun _ => False) (fun _ φ => φ = .outside) t.rest ψ)
    (hlast : ∀ t k written left, task = some t → ψ = .midway k written left →
      ∃ e trail, t.trail = e :: trail ∧ Exchange.fills e = some k)
    (hfilled : Filled env w'.store.redis (Function.update β i ψ)) :
    Tidied env w' (Function.update β i ψ) := by
  refine ⟨?_, ?_, ?_, hfilled⟩
  all_goals
    intro j
    rw [htasks]
    by_cases hji : j = i
    · subst hji
      simp only [Function.update_self]
      first | exact hidle | exact htidy | exact fun t k written left => hlast t k written left
    · simp only [Function.update_of_ne hji]
      first
        | exact h.idle j
        | exact h.tidy j
        | exact fun t k written left => h.last j t k written left

omit [DecidableEq ι] in
/-- A process that is about to send another command than those of a write is in
the middle of none. -/
theorem Tidied.outside (h : Tidied env w β) {i : ι} {id : ℕ} {request : Request}
    {trail : List Exchange} {c : Cmd} {next : c.Reply → Program Response}
    (task : w.tasks i = some ⟨id, request, trail, .call c next⟩) (hc : c.ofHSet = false) :
    β i = .outside := by
  rcases hβ : β i with _ | ⟨k, written, left⟩
  · rfl
  · have hfollows := h.tidy i _ task
    rw [hβ] at hfollows
    obtain ⟨r, -, hr⟩ := c.exists_answer
    obtain ⟨φ, hadv, -⟩ := hfollows r hr
    rw [hadv.ofHSet] at hc
    cases hc

omit [DecidableEq ι] in
/-- While a process reads a hash that somebody else is writing, all fields are
there. -/
theorem Tidied.complete (h : Tidied env w β) {i : ι}
    (hok : WritesUndisturbed env w (.exec i none)) {id : ℕ} {request : Request}
    {trail : List Exchange} {k : RedisKey}
    {next : Option (List (String × String)) → Program Response}
    (task : w.tasks i = some ⟨id, request, trail, .call (.redis (.hgetall k)) next⟩) {j : ι}
    {written : List String} {left : List (String × String)} (hj : β j = .midway k written left)
    {e : RedisEntry} (hlive : w.store.redis.live k = some e) : e.Complete k := by
  rcases hok j k (h.filling hj) with rfl | ⟨hread, -⟩
  · rw [h.outside task rfl] at hj
    cases hj
  · exact hread (by rw [World.next, task]) e hlive

/-- An exchange keeps the invariant of Redis. -/
theorem Tidied.exec (h : Tidied env w β) {i : ι} {fault : Option String}
    (hok : WritesUndisturbed env w (.exec i fault)) {c : Cmd} {r : c.Reply} {store : Store ι}
    {ψ : Filling} (hnext : w.next i = some c) (performed : w.store.Performed i fault c r store)
    (hfills : Fills env (β i) c r ψ) :
    Filled env store.redis (Function.update β i ψ) := by
  refine h.filled.performed performed hfills ?_ ?_
  · rintro d message - rfl k written left hmid
    exact hok i k (h.filling hmid) rfl
  · -- nobody deletes a hash that somebody else is writing
    rintro k rfl rfl j written left hji hmid
    rcases hok j k (h.filling hmid) with hij | ⟨-, hnot⟩
    · exact hji hij.symm
    · exact hnot hnext

/-- Every step that leaves the writes alone keeps the invariant. -/
theorem Tidied.step (h : Tidied env w β) (hok : WritesUndisturbed env w l)
    (hs : w.step env l = some w') : ∃ β', Tidied env w' β' := by
  have hoff : ∀ {i : ι}, w'.tasks = Function.update w.tasks i none →
      Filled env w'.store.redis (Function.update β i .outside) → ∃ β', Tidied env w' β' :=
    fun htasks hfilled => ⟨_, h.update htasks (fun _ => rfl) (fun t ht => nomatch ht)
      (fun t _ _ _ ht => nomatch ht) hfilled⟩
  cases does_of_step hs with
  | start idle =>
    rename_i i request
    -- a process at rest is in no write
    have hβ : Function.update β i .outside = β := by rw [← h.idle i idle, Function.update_eq_self]
    refine ⟨_, h.update (ψ := .outside) rfl (fun _ => rfl) ?_ (fun _ _ _ _ _ hψ => nomatch hψ)
      (hβ.symm ▸ h.filled)⟩
    intro t ht
    exact Option.some.inj ht ▸ serve_tidy env request
  | exec task performed =>
    rename_i i fault id request trail c next r store
    have hperformed := Store.performed_of_perform performed
    have hreadable : c.Readable r := by
      refine h.filled.readable hperformed ?_
      rintro k rfl rfl j written left hmid e hlive
      exact h.complete hok task hmid hlive
    obtain ⟨ψ, hfills, hrest⟩ := h.tidy i _ task r hreadable
    refine ⟨_, h.update rfl (fun ht => nomatch ht) ?_ ?_
      (h.exec hok (by rw [World.next, task]) hperformed hfills)⟩
    · intro t ht
      exact Option.some.inj ht ▸ hrest
    · rintro t k written left ht rfl
      obtain rfl := Option.some.inj ht
      exact ⟨_, _, rfl, hfills.fills⟩
  | finish task =>
    rename_i i id request trail response
    have hβ : β i = .outside := h.tidy i _ task
    refine hoff rfl ?_
    rw [← hβ, Function.update_eq_self]
    exact h.filled
  | stop running =>
    exact hoff rfl (h.filled.drop fun k written left hmid => hok _ k (h.filling hmid) rfl)
  | restart idle =>
    exact hoff rfl (h.filled.drop fun k written left hmid => hok _ k (h.filling hmid) rfl)
  | tick =>
    exact ⟨β, h.idle, h.tidy, h.last,
      h.filled.tick fun i k written left hmid => hok i k (h.filling hmid)⟩
  | evict =>
    exact ⟨β, h.idle, h.tidy, h.last,
      h.filled.evict fun i k written left hmid => hok i k (h.filling hmid)⟩

/-! ## Every run -/

/-- The next answer of an `HGETALL` is complete, too. -/
theorem Tidied.observed (h : Tidied env w β) (hobserved : w.Observed)
    (hok : WritesUndisturbed env w l) (hs : w.step env l = some w') : w'.Observed := by
  -- an event that is no answer of an `HGETALL`
  have hquiet : ∀ {e : Event},
      (∀ id k values time, e ≠ .call id ⟨.redis (.hgetall k), some values⟩ time) →
      w'.history = e :: w.history → w'.Observed := by
    intro e he hhistory id k values time hmem
    rw [hhistory] at hmem
    rcases List.mem_cons.mp hmem with heq | hmem
    · exact absurd heq.symm (he id k values time)
    · exact hobserved id k values time hmem
  cases does_of_step hs with
  | start idle => exact hquiet (by simp) rfl
  | finish task => exact hquiet (by simp) rfl
  | stop running => exact hquiet (by simp) rfl
  | restart idle => exact hobserved
  | tick => exact hobserved
  | evict => exact hobserved
  | exec task performed =>
    rename_i i fault id request trail c next r store
    intro id' k values time hmem hne f hf
    rcases List.mem_cons.mp hmem with heq | hmem
    · obtain ⟨-, hcall, -⟩ := Event.call.inj heq
      obtain ⟨rfl, hr⟩ := Sigma.mk.inj hcall
      obtain rfl := eq_of_heq hr
      refine (h.filled.reads (Store.performed_of_perform performed) hne (List.ne_nil_of_mem hf)
        ?_).1 f hf
      rintro rfl j written left hmid e hlive
      exact h.complete hok task hmid hlive
    · exact hobserved id' k values time hmem hne f hf

/-- **Complete hashes**, in every run that leaves writes alone. -/
theorem hashes_complete (hrest : ∀ i, w₀.tasks i = none) (hhistory : w₀.history = [])
    (hredis : w₀.store.redis.Tidy env) (h : World.Run env (WritesUndisturbed env) w₀ w) :
    HashesComplete env w := by
  obtain ⟨⟨β, htidied⟩, hobserved⟩ := h.invariant
    (I := fun w => (∃ β, Tidied env w β) ∧ w.Observed) ⟨⟨_, .init hrest hredis⟩, by
      intro id k values time hmem
      rw [hhistory] at hmem
      cases hmem⟩
    fun w l w' _ ⟨⟨β, htidied⟩, hobserved⟩ hok hs =>
      ⟨htidied.step hok hs, htidied.observed hobserved hok hs⟩
  refine ⟨hobserved, ?_, ?_⟩
  · intro i task hi hthrow
    have hfollows := htidied.tidy i task hi
    rw [hthrow] at hfollows
    exact hfollows
  · intro k e hlive httl hnobody
    have hk : k.fieldNames ≠ [] := by
      cases k with
      | session _ | playerSnapshot _ | battleCtx _ => exact List.cons_ne_nil _ _
      | accountSession _ | playerLock _ => exact absurd httl (lt_irrefl _)
    rcases htidied.filled.whole k e hk hlive with hwhole | ⟨i, written, left, hi⟩
    · exact hwhole.2 httl
    · exact absurd (htidied.filling hi) (hnobody i)

theorem emptyWorld_tidy : emptyWorld.store.redis.Tidy env := fun _ _ _ he => nomatch he

/-- A test for undisturbed writes: nothing fails, and nobody reads or deletes a
hash while another server is writing one. -/
def quietWrites (w : World Bool) : Label Bool → Bool
  | .exec j none => decide (∀ i, i = j ∨ w.filling i = none) ||
      match w.next j with
      | some (.redis (.hgetall _)) => false
      | some (.redis (.del _)) => false
      | _ => true
  | .start _ _ => true
  | .finish _ => true
  | _ => false

theorem writesUndisturbed_of_quiet {w : World Bool} {l : Label Bool} (h : quietWrites w l = true) :
    WritesUndisturbed env w l := by
  intro i k hk
  cases l with
  | exec j fault =>
    cases fault with
    | none =>
      rcases Bool.or_eq_true_iff.mp h with halone | hnext
      · rcases of_decide_eq_true halone i with rfl | hnone
        · exact .inl rfl
        · rw [hnone] at hk
          cases hk
      · refine .inr ⟨fun hread => ?_, fun hdel => ?_⟩
        · simp [hread] at hnext
        · simp [hdel] at hnext
    | some message => cases h
  | start j request | finish j => trivial
  | crash j | tick ms | evict k' => cases h

/-- A player logs in, two servers write the same snapshot at once, and a third
request reads it. -/
theorem hashes_complete_demo :
    ∃ w, World.Run demoEnv (WritesUndisturbed demoEnv) emptyWorld w ∧ w.history.length = 45 ∧
      HashesComplete demoEnv w := by
  have hrun : (replay (World.step demoEnv) quietWrites emptyWorld
      (Label.alone false (.login ⟨"demo", "demo"⟩) 9 ++
        .start false (.loadPlayer ⟨"sess-10001-20001-1", 20001⟩) ::
        List.replicate 4 (.exec false none) ++
        .start true (.loadPlayer ⟨"sess-10001-20001-1", 20001⟩) ::
        List.replicate 4 (.exec true none) ++
        (List.replicate 9 [.exec false none, .exec true none]).flatten ++
        [.finish false, .finish true] ++
        Label.alone false (.loadPlayer ⟨"sess-10001-20001-1", 20001⟩) 2)).any
        (fun w => w.history.length = 45) = true := by
    decide +kernel
  have hwrites : ∀ (w : World Bool) l, quietWrites w l = true → WritesUndisturbed demoEnv w l :=
    fun w l hl => writesUndisturbed_of_quiet hl
  obtain ⟨w, hreach, hlength⟩ := Reach.of_replay_any hwrites hrun
  exact ⟨w, hreach, of_decide_eq_true hlength,
    hashes_complete (fun _ => rfl) rfl emptyWorld_tidy hreach⟩

/-- **Partial hashes.** Nothing fails, and a reader throws: it reads a snapshot
whose first three fields are written. And a server that stops in the middle of a
session leaves a part of it without a lifetime. -/
theorem hashes_incomplete :
    (¬∀ w, World.Run demoEnv (fun _ l => l.undisturbed = true) emptyWorld w →
      HashesComplete demoEnv w) ∧
    ¬∀ w, World.Run demoEnv (fun _ l => l.faultless = true) emptyWorld w →
      HashesComplete demoEnv w := by
  refine ⟨fun hall => ?_, fun hall => ?_⟩
  · have hrun : (replay (World.step demoEnv) (fun _ l => l.undisturbed) emptyWorld
        (Label.alone false (.login ⟨"demo", "demo"⟩) 9 ++
          .start false (.loadPlayer ⟨"sess-10001-20001-1", 20001⟩) ::
          List.replicate 7 (.exec false none) ++
          .start true (.loadPlayer ⟨"sess-10001-20001-1", 20001⟩) ::
          List.replicate 2 (.exec true none))).any
          (fun w => (w.tasks true).any fun task => task.rest matches .throw) = true := by
      decide +kernel
    obtain ⟨w, hreach, hthrow⟩ := Reach.of_replay_any (fun _ _ hl => hl) hrun
    obtain ⟨⟨id, request, trail, rest⟩, hi, hmatch⟩ := (Option.any_eq_true _ _).mp hthrow
    refine (hall w hreach).decoded true _ hi ?_
    cases rest with
    | throw => rfl
    | ret response => cases hmatch
    | call c next => cases hmatch
  · have hrun : (replay (World.step demoEnv) (fun _ l => l.faultless) emptyWorld
        (.start false (.login ⟨"demo", "demo"⟩) :: List.replicate 5 (.exec false none) ++
          [.crash false, .tick 3600000])).any
          (fun w => (w.store.redis.live (.session "sess-10001-20001-1")).any fun e =>
            e.expiresAt.isNone && decide (∀ i, (w.tasks i).isNone)) = true := by
      decide +kernel
    obtain ⟨w, hreach, hlives⟩ := Reach.of_replay_any (fun _ _ hl => hl) hrun
    obtain ⟨e, he, hforever⟩ := (Option.any_eq_true _ _).mp hlives
    obtain ⟨hnone, hidle⟩ := Bool.and_eq_true_iff.mp hforever
    have hexpires := (hall w hreach).expires _ e he (by decide) fun i => by
      rw [World.filling, Option.isNone_iff_eq_none.mp (of_decide_eq_true hidle i)]
      simp
    rw [Option.isNone_iff_eq_none.mp hnone] at hexpires
    cases hexpires

end GameBackend
