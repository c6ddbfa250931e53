import GameBackend.BattleNumbers
import GameBackend.Locks
import GameBackend.Waiting
import GameBackend.Workload

/-!
# Waiting for row locks

A statement that writes a row waits while another transaction has written it. Under the
player lock nobody ever waits so (`never_waits`): the rows of a deed belong to its player
(`RowKey.Of`), and no other request is inside of the lock of this player. Gap and next-key
locks, for which a statement may wait without writing a row twice, are not judged here.

* `Mysql.Accounted` — every row lock was taken by a write of the open transaction of its
  holder.
* `World.Waits` — the wait-for graph of the processes.
* `Owning` — the invariant: what a request has written belongs to the player it acts for.
-/

namespace GameBackend

variable {ι : Type} [DecidableEq ι] {env : Env} {cfg : DungeonConfig}

/-! ## Who holds a row lock -/

namespace Mysql

variable {m m' : Mysql ι} {i : ι}

/-- Every row lock was taken by a write of the open transaction of its holder. -/
def Accounted (m : Mysql ι) : Prop :=
  ∀ k i, m.locks k = some i → ∃ ws, m.txns i = some ws ∧ ∃ s ∈ ws, s.key = k

/-- When connection `i` gives up its locks, the others keep their transactions. -/
theorem Accounted.release (hm : m.Accounted) {txn : Option (List SqlWrite)} {k : RowKey} {j : ι}
    (hk : m.release i k = some j) :
    ∃ ws, Function.update m.txns i txn j = some ws ∧ ∃ s ∈ ws, s.key = k := by
  obtain ⟨hji, hk'⟩ := Sound.of_release hk
  obtain ⟨ws, hj, hs⟩ := hm k j hk'
  exact ⟨ws, (Function.update_of_ne hji ..).trans hj, hs⟩

theorem Accounted.rollback (hm : m.Accounted) : (m.rollbackTxn i).Accounted :=
  fun _ _ hk => hm.release hk

theorem Accounted.commit (hm : m.Accounted) : (m.commitTxn i).Accounted := by
  rcases hi : m.txns i with _ | ws
  · rw [commitTxn, hi]
    exact hm
  · intro k j hk
    simp only [commitTxn, hi] at hk ⊢
    exact hm.release hk

/-- After a commit connection `i` holds no lock. -/
theorem Accounted.locks_commitTxn (hm : m.Accounted) {k : RowKey} :
    (m.commitTxn i).locks k ≠ some i := by
  rcases hi : m.txns i with _ | ws
  · rw [commitTxn, hi]
    intro hk
    obtain ⟨ws, hws, -⟩ := hm k i hk
    rw [hi] at hws
    cases hws
  · simp only [commitTxn, hi]
    exact fun hk => (Sound.of_release hk).1 rfl

/-- Every statement accounts for the locks it takes. -/
theorem Accounted.execute (hm : m.Accounted) {c : SqlCmd} {r : c.Reply}
    (h : m.execute i c = some (r, m')) : m'.Accounted := by
  cases c with
  | startTransaction =>
    obtain ⟨-, rfl⟩ := Prod.mk.inj (Option.some.inj h)
    intro k j hk
    obtain ⟨ws, hj, hs⟩ := hm.commit k j hk
    have hji : j ≠ i := by
      rintro rfl
      exact hm.locks_commitTxn hk
    exact ⟨ws, (Function.update_of_ne hji ..).trans hj, hs⟩
  | commit =>
    obtain ⟨-, rfl⟩ := Prod.mk.inj (Option.some.inj h)
    exact hm.commit
  | rollback =>
    obtain ⟨-, rfl⟩ := Prod.mk.inj (Option.some.inj h)
    exact hm.rollback
  | select q =>
    obtain ⟨-, rfl⟩ := Prod.mk.inj (Option.some.inj h)
    exact hm
  | write s =>
    simp only [Mysql.execute] at h
    split at h
    · split at h
      · obtain ⟨-, rfl⟩ := Prod.mk.inj (Option.some.inj h)
        exact hm
      · obtain ⟨-, rfl⟩ := Prod.mk.inj (Option.some.inj h)
        exact hm
      · split at h
        · rename_i ws hi
          obtain ⟨-, rfl⟩ := Prod.mk.inj (Option.some.inj h)
          intro k j hk
          by_cases hks : k = s.key
          · subst hks
            obtain rfl : i = j := by simpa using hk
            exact ⟨ws ++ [s], Function.update_self .., s, by simp, rfl⟩
          · replace hk : m.locks k = some j := by simpa [hks] using hk
            obtain ⟨vs, hj, v, hv, hkey⟩ := hm k j hk
            by_cases hji : j = i
            · subst hji
              obtain rfl := Option.some.inj (hi.symm.trans hj)
              exact ⟨ws ++ [s], Function.update_self .., v, by simp [hv], hkey⟩
            · exact ⟨vs, (Function.update_of_ne hji ..).trans hj, v, hv, hkey⟩
        · obtain ⟨-, rfl⟩ := Prod.mk.inj (Option.some.inj h)
          exact hm
    · cases h

/-- What a transaction has written after a statement it had written before, or writes
now. -/
theorem txns_of_execute {c : SqlCmd} {r : c.Reply} (h : m.execute i c = some (r, m')) {j : ι}
    {ws : List SqlWrite} (hj : m'.txns j = some ws) {s : SqlWrite} (hs : s ∈ ws) :
    (∃ vs, m.txns j = some vs ∧ s ∈ vs) ∨ (j = i ∧ c = .write s) := by
  have hcommit : ∀ {j ws}, (m.commitTxn i).txns j = some ws → m.txns j = some ws := by
    intro j ws hj
    rw [commitTxn] at hj
    split at hj
    · exact hj
    · rcases some_of_update hj with ⟨-, heq⟩ | ⟨-, hj⟩
      · cases heq
      · exact hj
  cases c with
  | startTransaction =>
    obtain ⟨-, rfl⟩ := Prod.mk.inj (Option.some.inj h)
    rcases some_of_update hj with ⟨-, heq⟩ | ⟨-, hj⟩
    · obtain rfl := Option.some.inj heq
      cases hs
    · exact .inl ⟨ws, hcommit hj, hs⟩
  | commit =>
    obtain ⟨-, rfl⟩ := Prod.mk.inj (Option.some.inj h)
    exact .inl ⟨ws, hcommit hj, hs⟩
  | rollback =>
    obtain ⟨-, rfl⟩ := Prod.mk.inj (Option.some.inj h)
    rcases some_of_update hj with ⟨-, heq⟩ | ⟨-, hj⟩
    · cases heq
    · exact .inl ⟨ws, hj, hs⟩
  | select q =>
    obtain ⟨-, rfl⟩ := Prod.mk.inj (Option.some.inj h)
    exact .inl ⟨ws, hj, hs⟩
  | write v =>
    simp only [Mysql.execute] at h
    split at h
    · split at h
      · obtain ⟨-, rfl⟩ := Prod.mk.inj (Option.some.inj h)
        exact .inl ⟨ws, hj, hs⟩
      · obtain ⟨-, rfl⟩ := Prod.mk.inj (Option.some.inj h)
        exact .inl ⟨ws, hj, hs⟩
      · split at h
        · rename_i vs hi
          obtain ⟨-, rfl⟩ := Prod.mk.inj (Option.some.inj h)
          rcases some_of_update hj with ⟨rfl, heq⟩ | ⟨-, hj⟩
          · obtain rfl := Option.some.inj heq
            rcases List.mem_append.mp hs with hs | hs
            · exact .inl ⟨vs, hi, hs⟩
            · exact .inr ⟨rfl, by rw [List.mem_singleton.mp hs]⟩
          · exact .inl ⟨ws, hj, hs⟩
        · obtain ⟨-, rfl⟩ := Prod.mk.inj (Option.some.inj h)
          exact .inl ⟨ws, hj, hs⟩
    · cases h

end Mysql

/-! ## What a process waits for -/

variable {w w' w₀ : World ι} {φ φ' : ι → Phase} {l : Label ι}

/-- The row that the next command of process `i` writes. -/
def World.wants (w : World ι) (i : ι) : Option RowKey :=
  match w.next i with
  | some (.sql (.write s)) => some s.key
  | _ => none

/-- Process `i` waits for a row that process `j` has locked. -/
abbrev World.Waits (w : World ι) (i j : ι) : Prop := WaitsFor w.store.mysql.locks w.wants i j

omit [DecidableEq ι] in
theorem World.wants_eq_some {i : ι} {k : RowKey} :
    w.wants i = some k ↔ ∃ s, w.next i = some (.sql (.write s)) ∧ s.key = k := by
  rw [World.wants]
  constructor
  · intro h
    split at h
    · rename_i s hs
      exact ⟨s, hs, Option.some.inj h⟩
    · cases h
  · rintro ⟨s, hs, rfl⟩
    rw [hs]

/-- A command that waits for no row gets its answer. -/
theorem World.exec_of_not_waits (env : Env) {i : ι} {c : Cmd} (hnext : w.next i = some c)
    (h : ∀ j, ¬w.Waits i j) (fault : Option String) :
    ∃ w', w.step env (.exec i fault) = some w' := by
  have hperform : ∃ rs, w.store.perform i fault c = some rs := by
    cases c with
    | sql c =>
      rcases fault with _ | message
      · cases c with
        | write s =>
          have hfree : w.store.mysql.locks s.key = none ∨ w.store.mysql.locks s.key = some i := by
            rcases hlock : w.store.mysql.locks s.key with _ | j
            · exact .inl rfl
            · by_cases hji : j = i
              · exact .inr (congrArg some hji)
              · exact absurd ⟨Ne.symm hji, s.key, World.wants_eq_some.mpr ⟨s, hnext, rfl⟩, hlock⟩
                  (h j)
          rw [Store.perform]
          simp only [Mysql.execute, if_pos hfree]
          cases s.run (w.store.mysql.view i) with
          | rejected message => exact ⟨_, rfl⟩
          | unmatched => exact ⟨_, rfl⟩
          | hit t n =>
            cases w.store.mysql.txns i with
            | none => exact ⟨_, rfl⟩
            | some ws => exact ⟨_, rfl⟩
        | _ => exact ⟨_, rfl⟩
      · exact ⟨_, rfl⟩
    | redis c => cases fault <;> exact ⟨_, rfl⟩
    | fetchAddSequence => exact ⟨_, rfl⟩
    | epochSeconds => exact ⟨_, rfl⟩
  obtain ⟨rs, hrs⟩ := hperform
  rw [World.next] at hnext
  split at hnext
  · rename_i id request trail c' k task
    obtain rfl := Option.some.inj hnext
    refine ⟨{ store := rs.2
              tasks := Function.update w.tasks i (some ⟨id, request, ⟨c', rs.1⟩ :: trail, k rs.1⟩)
              history := .call id ⟨c', rs.1⟩ w.store.redis.now :: w.history }, ?_⟩
    rw [World.step, task]
    simp only [hrs, Option.map_some]
  · cases hnext

/-- In every run every row lock is accounted for. -/
theorem World.Run.accounted {ok : World ι → Label ι → Prop} (hw₀ : w₀.Fresh)
    (h : World.Run env ok w₀ w) : w.store.mysql.Accounted := by
  refine h.invariant (I := fun w => w.store.mysql.Accounted) ?_ ?_
  · intro k i hk
    rw [hw₀.locks k] at hk
    cases hk
  · intro w l w' _ hI _ hs
    cases does_of_step hs with
    | exec task performed =>
      cases Store.performed_of_perform performed with
      | sql executed => exact hI.execute executed
      | _ => exact hI
    | stop running => exact hI.rollback
    | restart idle => exact hI.rollback
    | _ => exact hI

/-- A write of a request is the next one of its deed. -/
theorem Advance.writes {φ ψ : Phase} {s : SqlWrite} {r : Except String ℕ}
    (h : Advance cfg φ (.sql (.write s)) r ψ) :
    ∃ deed done todo, φ = .writing deed done (s :: todo) := by
  cases h with
  | pass harmless _ => cases harmless
  | write accepted => exact ⟨_, _, _, rfl⟩
  | refuse refused => exact ⟨_, _, _, rfl⟩

omit [DecidableEq ι] in
/-- A process that is about to write a row is in its transaction. -/
theorem Phased.writes (h : Phased env w φ) {i : ι} {s : SqlWrite}
    (hnext : w.next i = some (.sql (.write s))) :
    ∃ deed done todo, φ i = .writing deed done (s :: todo) := by
  rw [World.next] at hnext
  split at hnext
  · rename_i id request trail c k task
    obtain rfl := Option.some.inj hnext
    obtain ⟨ψ, hadv, -⟩ := h.obeys i _ task (.ok 1) trivial
    exact hadv.writes
  · cases hnext

/-! ## Under the player lock -/

/-- A battle id of the player. -/
def BattleFor (p : ℤ) (battleId : String) : Prop :=
  ∃ dungeonId n, battleId = DungeonService.battleIdText p dungeonId n

/-- A battle id tells its player. -/
theorem BattleFor.unique {p q : ℤ} {battleId : String} (hp : BattleFor p battleId)
    (hq : BattleFor q battleId) : p = q := by
  obtain ⟨d, n, rfl⟩ := hp
  obtain ⟨e, m, h⟩ := hq
  exact (DungeonService.battleIdText_inj h).1

/-- The row belongs to the player. -/
def RowKey.Of (p : ℤ) : RowKey → Prop
  | .asset q => q = p
  | .battle b => BattleFor p b
  | .progress q _ => q = p
  | .reward q _ _ => q = p

theorem RowKey.Of.unique {k : RowKey} {p q : ℤ} (hp : k.Of p) (hq : k.Of q) : p = q := by
  cases k with
  | battle b => exact BattleFor.unique hp hq
  | asset r => exact Eq.trans (Eq.symm hp) hq
  | progress r d => exact Eq.trans (Eq.symm hp) hq
  | reward r b t => exact Eq.trans (Eq.symm hp) hq

/-- Every battle bears an id of its player. -/
def Tables.Named (t : Tables) : Prop :=
  ∀ b row, t.dungeonBattle.find b = some row → BattleFor row.playerId b

/-- The battle that is to be inserted bears an id of its player. -/
def Deed.Named : Deed → Prop
  | .enter row => BattleFor row.playerId row.battleId
  | .settle _ => True

/-- The same while a request has not inserted it yet. -/
def Phase.Named : Phase → Prop
  | .numbered row => (Deed.enter row).Named
  | .opened row => (Deed.enter row).Named
  | .writing deed _ _ => deed.Named
  | _ => True

theorem Advance.named {φ ψ : Phase} {c : Cmd} {r : c.Reply} (h : Advance cfg φ c r ψ)
    (hφ : φ.Named) : ψ.Named := by
  cases h with
  | pass _ _ => exact hφ
  | number => exact ⟨_, _, rfl⟩
  | enterBegin => exact hφ
  | noPending empty => exact hφ
  | write accepted => exact hφ
  | unlock exit => trivial
  | _ => trivial

/-- A deed that is transacted keeps the battles named. -/
theorem Tables.Named.step {t t' : Tables} {deed : Deed} (h : t.Named)
    (ht : Transacts cfg deed t t') (hdeed : deed.Named) : t'.Named := by
  intro b row hrow
  rcases ht.battle_from hrow with ⟨row, hold, rfl | rfl⟩ | ⟨rfl, rfl⟩
  · exact h b _ hold
  · exact h b row hold
  · exact hdeed

/-- The rows of a deed belong to its player. -/
theorem key_of_plan {t : Tables} {deed : Deed} (ht : t.Named) (hknown : deed.Known t)
    (hdeed : deed.Named) {s : SqlWrite} (hs : s ∈ deed.plan cfg) :
    s.key.Of deed.player := by
  cases deed with
  | enter row =>
    simp only [Deed.plan, List.mem_cons, List.not_mem_nil, or_false] at hs
    rcases hs with rfl | rfl
    · rfl
    · exact hdeed
  | settle settlement =>
    simp only [Deed.plan, List.mem_cons, List.mem_map] at hs
    rcases hs with rfl | rfl | rfl | ⟨reward, hreward, rfl⟩
    · obtain ⟨row, hrow, hp, -⟩ := hknown
      have hnamed : BattleFor row.playerId settlement.battleId := ht _ _ hrow
      rw [hp] at hnamed
      exact hnamed
    · rfl
    · rfl
    · rw [Settlement.rewardRows] at hreward
      rcases List.mem_cons.mp hreward with rfl | hdiamond
      · rfl
      · split at hdiamond
        · obtain rfl := List.mem_singleton.mp hdiamond
          rfl
        · cases hdiamond

/-- The rows that a request has written belong to the player it acts for. -/
structure Owning (w : World ι) (φ : ι → Phase) : Prop where
  battles : w.store.mysql.tables.Named
  named : ∀ i, (φ i).Named
  rows : ∀ i ws s p, w.store.mysql.txns i = some ws → s ∈ ws → (φ i).lock = some p → s.key.Of p

omit [DecidableEq ι] in
theorem Owning.init (hw : w.Fresh) : Owning w fun _ => .outside where
  battles b row hrow := by
    have hmem := Table.mem_of_find hrow
    rw [hw.battles] at hmem
    cases hmem
  named _ := trivial
  rows i ws s p hi := by rw [hw.txns i] at hi; cases hi

/-- A command of a request goes on under the same lock. -/
theorem Advance.lock_eq {s s' : Store ι} {i : ι} {fault : Option String} {c : Cmd} {r : c.Reply}
    {φ ψ : Phase} {p q : ℤ} (hadv : Advance cfg φ c r ψ) (hp : s.Performed i fault c r s')
    (hφ : φ.lock = some p) (hψ : ψ.lock = some q) : p = q := by
  cases hadv.lockStep hp with
  | keep lock live => exact Option.some.inj (hφ.symm.trans (lock.symm.trans hψ))
  | acquire before after positive free redis =>
    rw [before] at hφ
    cases hφ
  | release before after redis =>
    rw [after] at hψ
    cases hψ

/-- What a request has written after a command it had written before, or it is the next
write of its deed. -/
theorem Store.Performed.wrote {s s' : Store ι} {i j : ι} {fault : Option String} {c : Cmd}
    {r : c.Reply} (h : s.Performed i fault c r s') {ws : List SqlWrite}
    (hj : s'.mysql.txns j = some ws) {v : SqlWrite} (hv : v ∈ ws) :
    (∃ vs, s.mysql.txns j = some vs ∧ v ∈ vs) ∨ (j = i ∧ c = .sql (.write v)) := by
  cases h with
  | sql executed =>
    exact (Mysql.txns_of_execute executed hj hv).imp_right fun ⟨hji, hc⟩ => ⟨hji, congrArg _ hc⟩
  | _ => exact .inl ⟨ws, hj, hv⟩

theorem Owning.step (h : Owning w φ) (hcore : Core env w φ) (hmove : Moves env w φ l w' φ')
    (hstep : TableStep env.dungeonConfig w w' φ φ' l) : Owning w' φ' := by
  have hbattles : w'.store.mysql.tables.Named := by
    rcases hstep with ⟨htables, -⟩ | ⟨-, -, hbefore, -, htransacts, -⟩
    · rw [htables]
      exact h.battles
    · rename_i i fault deed
      refine h.battles.step htransacts ?_
      have hnamed := h.named i
      rw [hbefore] at hnamed
      exact hnamed
  have hnamed : ∀ {i : ι} {ψ : Phase}, ψ.Named → ∀ j, (Function.update φ i ψ j).Named := by
    intro i ψ hψ j
    by_cases hji : j = i
    · rw [hji, Function.update_self]
      exact hψ
    · rw [Function.update_of_ne hji]
      exact h.named j
  cases hmove with
  | start idle => exact ⟨hbattles, h.named, h.rows⟩
  | exec task performed advance =>
    rename_i i fault id request trail c k r store ψ
    refine ⟨hbattles, hnamed (advance.named (h.named i)), fun j ws v p hj hv hp => ?_⟩
    rcases performed.wrote hj hv with ⟨vs, hvs, hv⟩ | ⟨rfl, rfl⟩
    · by_cases hji : j = i
      · subst hji
        rw [Function.update_self] at hp
        -- an open transaction is one under the lock
        rcases hlock : (φ j).lock with _ | q
        · have hnone := Phase.txn_of_lock hlock (hcore.txn j)
          rw [hvs] at hnone
          cases hnone
        · obtain rfl := advance.lock_eq performed hlock hp
          exact h.rows j vs v q hvs hv hlock
      · rw [Function.update_of_ne hji] at hp
        exact h.rows j vs v p hvs hv hp
    · obtain ⟨deed, done, todo, hφ⟩ := advance.writes
      have hknows := hcore.knows j
      have hdeed := h.named j
      rw [hφ] at hknows hdeed
      rw [Function.update_self] at hp
      obtain rfl := advance.lock_eq performed (by rw [hφ]; rfl) hp
      have hmem : v ∈ deed.plan env.dungeonConfig := by
        rw [← hknows.2]
        simp
      exact key_of_plan h.battles hknows.1 hdeed hmem
  | finish task ends =>
    refine ⟨hbattles, hnamed trivial, fun j ws v p hj hv hp => ?_⟩
    exact h.rows j ws v p hj hv (lock_update_outside hp)
  | crash noted =>
    refine ⟨hbattles, hnamed trivial, fun j ws v p hj hv hp => ?_⟩
    rcases some_of_update hj with ⟨-, heq⟩ | ⟨-, hj⟩
    · cases heq
    · exact h.rows j ws v p hj hv (lock_update_outside hp)
  | tick => exact ⟨hbattles, h.named, h.rows⟩
  | evict => exact ⟨hbattles, h.named, h.rows⟩

omit [DecidableEq ι] in
/-- In a step during which no time passes and no key is evicted no lock disappears. -/
theorem keepsLocks_of_quiet (h : l.quiet = true) : KeepsLocks w l := by
  cases l with
  | tick ms => cases h
  | evict k => cases h
  | _ => trivial

/-- **The player lock makes row locks unnecessary.** In every run in which no `ROLLBACK`
fails and no player lock disappears under a request, no statement waits for a row that
another transaction has written: as far as these rows go, the next command of every request
gets its answer. -/
theorem never_waits {ok : World ι → Label ι → Prop} (hw₀ : w₀.Fresh)
    (hroll : ∀ w l, ok w l → ¬w.Fails l (.sql .rollback))
    (hkeep : ∀ w l, ok w l → KeepsLocks w l) (h : World.Run env ok w₀ w) :
    (∀ i j, ¬w.Waits i j) ∧
      ∀ i c fault, w.next i = some c → ∃ w', w.step env (.exec i fault) = some w' := by
  obtain ⟨φ, hphased, hcore, hexclusive, howning⟩ := h.core
    (I := fun w φ => Exclusive w φ ∧ Owning w φ) hw₀ hroll ⟨.init, .init hw₀⟩
    fun w φ l w' φ' _ hphased hcore hI hok hmove _ hstep =>
      ⟨hI.1.step hphased (hkeep w l hok) hmove, hI.2.step hcore hmove hstep⟩
  have hnot : ∀ i j, ¬w.Waits i j := by
    rintro i j ⟨hij, k, hk, hheld⟩
    obtain ⟨s, hnext, rfl⟩ := World.wants_eq_some.mp hk
    obtain ⟨deed, done, todo, hφ⟩ := hphased.writes hnext
    have hknows := hcore.knows i
    have hdeed := howning.named i
    rw [hφ] at hknows hdeed
    have hmem : s ∈ deed.plan env.dungeonConfig := by
      rw [← hknows.2]
      simp
    have hi : s.key.Of deed.player := key_of_plan howning.battles hknows.1 hdeed hmem
    -- the holder of the lock acts for the player of the row as well
    obtain ⟨ws, hws, v, hv, hkey⟩ := World.Run.accounted hw₀ h s.key j hheld
    rcases hlock : (φ j).lock with _ | p
    · have hnone := Phase.txn_of_lock hlock (hcore.txn j)
      rw [hws] at hnone
      cases hnone
    · have hj := howning.rows j ws v p hws hv hlock
      rw [hkey] at hj
      obtain rfl := hi.unique hj
      exact hij (hexclusive.unique i j deed.player (by rw [hφ]; rfl) hlock)
  exact ⟨hnot, fun i c fault hnext => World.exec_of_not_waits env hnext (hnot i) fault⟩

/-- Two players enter the dungeon at the same time, each over its own server: both have
their assets locked, and each goes on to insert its battle. -/
theorem never_waits_demo :
    ∃ w, World.Run demoEnv (fun w l => (∀ c, ¬w.Fails l (.sql c)) ∧ KeepsLocks w l) demoWorld w ∧
      w.store.mysql.locks (.asset 20001) = some true ∧
      w.store.mysql.locks (.asset 20002) = some false ∧
      (∀ i j, ¬w.Waits i j) ∧
      ∀ i c fault, w.next i = some c → ∃ w', w.step demoEnv (.exec i fault) = some w' := by
  have hrun : (replay (World.step demoEnv) (fun _ l => l.quiet) demoWorld
      (.start true (.enterDungeon ⟨"s", 20001, 1001⟩) ::
        .start false (.enterDungeon ⟨"t", 20002, 1001⟩) ::
        List.replicate 8 (.exec true none) ++ List.replicate 8 (.exec false none))).any
      (fun w => w.store.mysql.locks (.asset 20001) = some true ∧
        w.store.mysql.locks (.asset 20002) = some false) = true := by
    decide +kernel
  obtain ⟨w, hreach, hlocks⟩ : ∃ w, World.Run demoEnv
      (fun w l => (∀ c, ¬w.Fails l (.sql c)) ∧ KeepsLocks w l) demoWorld w ∧
      decide (w.store.mysql.locks (.asset 20001) = some true ∧
        w.store.mysql.locks (.asset 20002) = some false) = true :=
    Reach.of_replay_any (fun w l hl => ⟨fun c =>
      Label.not_fails (Label.faultless_of_quiet hl) _, keepsLocks_of_quiet hl⟩) hrun
  obtain ⟨htrue, hfalse⟩ := of_decide_eq_true hlocks
  exact ⟨w, hreach, htrue, hfalse,
    never_waits demoWorld_fresh (fun _ _ h => h.1 _) (fun _ _ h => h.2) hreach⟩

end GameBackend
