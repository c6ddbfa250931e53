import GameBackend.Protocol

/-!
# What a trail shows

The conditions under which the servers keep their promises speak of what a
running request has done so far: whether it holds the player lock, whether its
check for a pending battle has passed, whether it has found no progress row,
whether it is writing a snapshot back. These are read off the trail of the
request, the commands it sent and the answers it got; phases are not needed to
state them. One lemma each connects the reading with the phase.
-/

namespace GameBackend

/-- A command and its answer. -/
abbrev Exchange : Type := Call Cmd Cmd.Reply

variable {cfg : DungeonConfig} {trail : List Exchange} {φ : Phase}

/-! ## The player lock -/

/-- The player lock an exchange acquires. -/
def Exchange.acquires : Exchange → Option ℤ
  | ⟨.redis (.setNx (.playerLock p) _ _), r⟩ => if r = some true then some p else none
  | _ => none

/-- Whether an exchange gives a player lock back. -/
def Exchange.releases : Exchange → Bool
  | ⟨.redis (.del (.playerLock _)), _⟩ => true
  | _ => false

/-- The player lock a request with this trail is inside of: acquired and not
given back. -/
def heldLock : List Exchange → Option ℤ
  | [] => none
  | e :: trail => if e.releases then none else e.acquires <|> heldLock trail

/-! ## The check for a pending battle -/

/-- Whether an exchange concludes a transaction: it is committed, or cannot be
committed any more. -/
def Exchange.concludes : Exchange → Bool
  | ⟨.sql .commit, _⟩ => true
  | ⟨.sql .rollback, _⟩ => true
  | ⟨.sql .startTransaction, r⟩ => !r.isOk
  | ⟨.sql (.write w), r⟩ =>
    match r with
    | .ok n => w.guarded && n ≠ 1
    | .error _ => true
  | _ => false

/-- The player for whom an exchange finds no pending battle. -/
def Exchange.findsNoPending : Exchange → Option ℤ
  | ⟨.sql (.select (.pendingBattle p)), r⟩ => if emptyReply r then some p else none
  | _ => none

/-- The player whose pending battle a request has looked for and not found, as
long as its transaction can be committed. -/
def pendingPassed : List Exchange → Option ℤ
  | [] => none
  | e :: trail =>
    if e.concludes then none else e.findsNoPending <|> pendingPassed trail

/-! ## The first-clear reading -/

/-- The player and dungeon for which an exchange finds no progress row. -/
def Exchange.findsNoProgress : Exchange → Option (ℤ × ℤ)
  | ⟨.sql (.select (.firstClear p d)), r⟩ => if emptyReply r then some (p, d) else none
  | _ => none

/-- The player and dungeon whose progress row a request has looked for and not
found, as long as it can still commit. -/
def firstClearRead : List Exchange → Option (ℤ × ℤ)
  | [] => none
  | e :: trail =>
    if e.concludes then none else e.findsNoProgress <|> firstClearRead trail

/-- The battle an exchange looks up. -/
def Exchange.looksUp : Exchange → Option String
  | ⟨.redis (.hgetall (.battleCtx b)), _⟩ => some b
  | ⟨.sql (.select (.battle b)), _⟩ => some b
  | _ => none

/-- The battle a request has looked up last. -/
def lookedUp : List Exchange → Option String
  | [] => none
  | e :: trail => e.looksUp <|> lookedUp trail

/-! ## Writing a snapshot back -/

/-- The player whose snapshot an exchange looks up in vain. -/
def Exchange.missesSnapshot : Exchange → Option ℤ
  | ⟨.redis (.hgetall (.playerSnapshot p)), r⟩ => if emptyReply r then some p else none
  | _ => none

/-- The player whose snapshot a request has looked up in vain. -/
def missedSnapshot : List Exchange → Option ℤ
  | [] => none
  | e :: trail => e.missesSnapshot <|> missedSnapshot trail

/-! ## Trails and phases -/

/-- The player for whom a phase has passed the check for a pending battle. -/
def Phase.pendingPassed : Phase → Option ℤ
  | .writing (.enter row) _ _ => some row.playerId
  | _ => none

/-- The reading of a phase that found no progress row. -/
def Phase.firstClearRead : Phase → Option (ℤ × ℤ)
  | .decided s => if s.firstClear then some (s.playerId, s.dungeonId) else none
  | .writing (.settle s) _ _ => if s.firstClear then some (s.playerId, s.dungeonId) else none
  | _ => none

/-- The battle a phase is about to settle. -/
def Phase.lookedUp : Phase → Option String
  | .found _ context => some context.battleId
  | .decided s => some s.battleId
  | .writing (.settle s) _ _ => some s.battleId
  | _ => none

/-- The player whose snapshot a phase has missed. -/
def Phase.missedSnapshot : Phase → Option ℤ
  | .missed p => some p
  | .profiled p _ => some p
  | .loaded p _ => some p
  | _ => none

/-- An exchange that none of the readings notices. -/
structure Exchange.Silent (e : Exchange) : Prop where
  acquires : e.acquires = none
  releases : e.releases = false
  concludes : e.concludes = false
  findsNoPending : e.findsNoPending = none
  findsNoProgress : e.findsNoProgress = none
  missesSnapshot : e.missesSnapshot = none
  looksUp : e.looksUp = none

theorem silent_of_harmless {c : Cmd} {r : c.Reply} (h : c.harmless = true) :
    Exchange.Silent ⟨c, r⟩ := by
  cases c with
  | sql c =>
    cases c with
    | select q => cases q <;> first | exact ⟨rfl, rfl, rfl, rfl, rfl, rfl, rfl⟩ | cases h
    | _ => cases h
  | redis c =>
    cases c with
    | get k => exact ⟨rfl, rfl, rfl, rfl, rfl, rfl, rfl⟩
    | setNx k v ttl => cases h
    | hgetall k => cases k <;> first | exact ⟨rfl, rfl, rfl, rfl, rfl, rfl, rfl⟩ | cases h
    | set k v ttl => exact ⟨rfl, rfl, rfl, rfl, rfl, rfl, rfl⟩
    | hset k f v => exact ⟨rfl, rfl, rfl, rfl, rfl, rfl, rfl⟩
    | expire k ttl => exact ⟨rfl, rfl, rfl, rfl, rfl, rfl, rfl⟩
    | del k => cases k <;> first | exact ⟨rfl, rfl, rfl, rfl, rfl, rfl, rfl⟩ | cases h
  | fetchAddSequence => exact ⟨rfl, rfl, rfl, rfl, rfl, rfl, rfl⟩
  | epochSeconds => exact ⟨rfl, rfl, rfl, rfl, rfl, rfl, rfl⟩

/-- The phases in which a request gives the lock back are inside of it. -/
theorem Phase.lock_of_exit {p : ℤ} {deed : Option Deed} (h : φ.exit = some (p, deed)) :
    φ.lock = some p := by
  cases φ <;> first | exact congrArg (Option.map Prod.fst) h | cases h

/-- The trail of a request shows the lock its phase says. -/
theorem heldLock_eq (h : Path (Advance cfg) .outside trail φ) : heldLock trail = φ.lock := by
  induction h with
  | nil => rfl
  | cons path advance ih =>
    rw [heldLock, ih]
    cases advance with
    | pass harmless _ =>
      rw [(silent_of_harmless harmless).releases, (silent_of_harmless harmless).acquires]
      rfl
    | unlock exit => rfl
    | lock positive => rfl
    | busy refused => simp [Exchange.releases, Exchange.acquires, refused, Phase.lock]
    | _ => rfl

theorem concludes_write {w : SqlWrite} {n : ℕ} (h : w.guarded = true → n = 1) :
    Exchange.concludes ⟨.sql (.write w), .ok n⟩ = false := by
  cases hw : w.guarded with
  | false => simp [Exchange.concludes, hw]
  | true => simp [Exchange.concludes, h hw]

theorem concludes_refused {w : SqlWrite} {r : Except String ℕ}
    (h : ∀ n, r = .ok n → w.guarded = true ∧ n ≠ 1) :
    Exchange.concludes ⟨.sql (.write w), r⟩ = true := by
  cases r with
  | error message => rfl
  | ok n => simp [Exchange.concludes, (h n rfl).1, (h n rfl).2]

/-- The trail of a request shows the passed check its phase says. -/
theorem pendingPassed_eq (h : Path (Advance cfg) .outside trail φ) :
    pendingPassed trail = φ.pendingPassed := by
  induction h with
  | nil => rfl
  | cons path advance ih =>
    rw [pendingPassed, ih]
    cases advance with
    | pass harmless _ =>
      rw [(silent_of_harmless harmless).concludes, (silent_of_harmless harmless).findsNoPending]
      rfl
    | noPending empty => simp [Exchange.concludes, Exchange.findsNoPending, empty,
        Phase.pendingPassed]
    | pending nonempty => simp [Exchange.concludes, Exchange.findsNoPending, nonempty,
        Phase.pendingPassed]
    | unlock exit =>
      rename_i φ p deed r
      cases φ <;> first | rfl | cases exit
    | write accepted =>
      rename_i deed done todo w n
      rw [concludes_write accepted]
      cases deed <;> rfl
    | refuse refused => rw [concludes_refused refused]; rfl
    | _ => rfl

/-- The trail of a request shows the reading its phase says. -/
theorem firstClearRead_eq (h : Path (Advance cfg) .outside trail φ) :
    firstClearRead trail = φ.firstClearRead := by
  induction h with
  | nil => rfl
  | cons path advance ih =>
    rw [firstClearRead, ih]
    cases advance with
    | pass harmless _ =>
      rw [(silent_of_harmless harmless).concludes, (silent_of_harmless harmless).findsNoProgress]
      rfl
    | decide player dungeon unsettled =>
      rename_i p star context r
      cases hr : r.getD [] <;>
        simp [Exchange.concludes, Exchange.findsNoProgress, hr, Phase.firstClearRead]
    | unlock exit =>
      rename_i φ p deed r
      cases φ <;> first | rfl | cases exit
    | write accepted =>
      rename_i deed done todo w n
      rw [concludes_write accepted]
      cases deed <;> rfl
    | refuse refused => rw [concludes_refused refused]; rfl
    | settleBegin => simp [Exchange.concludes, Exchange.findsNoProgress, Except.isOk,
        Except.toBool, Phase.firstClearRead]
    | _ => rfl

/-- The trail of a request shows the battle its phase says. -/
theorem lookedUp_of (h : Path (Advance cfg) .outside trail φ) {b : String}
    (hb : φ.lookedUp = some b) : lookedUp trail = some b := by
  induction h with
  | nil => cases hb
  | cons path advance ih =>
    rw [lookedUp]
    cases advance with
    | pass harmless _ =>
      rw [(silent_of_harmless harmless).looksUp]
      exact ih hb
    | findContext decoded =>
      rw [← RedisBattleContextRepository.battleId_decode decoded]
      exact hb
    | findBattle key =>
      rw [← key]
      exact hb
    | decide player dungeon unsettled => exact ih hb
    | settleBegin => exact ih hb
    | write accepted =>
      rename_i deed done todo w n
      cases deed with
      | enter row => cases hb
      | settle s => exact ih hb
    | _ => cases hb

/-- The trail of a request shows the missed snapshot its phase says. -/
theorem missedSnapshot_of (h : Path (Advance cfg) .outside trail φ) {p : ℤ}
    (hp : φ.missedSnapshot = some p) : missedSnapshot trail = some p := by
  induction h with
  | nil => cases hp
  | cons path advance ih =>
    rw [missedSnapshot]
    cases advance with
    | pass harmless _ =>
      rw [(silent_of_harmless harmless).missesSnapshot]
      exact ih hp
    | miss empty =>
      rw [Exchange.missesSnapshot, if_pos empty]
      exact hp
    | profile | progress | fill _ | fillExpire => exact ih hp
    | _ => cases hp

end GameBackend
