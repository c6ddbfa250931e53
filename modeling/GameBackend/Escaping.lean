import GameBackend.MysqlHandle
import GameBackend.Repositories
import GameBackend.SqlLiteral

/-!
# The texts of the statements

The repositories put a string of the caller between quotes as `Escape` returns it, and
send the statement with a call of its own. Both connect when the pointer is null.
`Escape` returns the string as it is when it cannot connect, and relies on the call
after it to fail as well.

`SqlWire.exec` is what a command of the repositories does on the connection, the text it
hands to `mysql_query` included; `LateConnect` is the case in which the reliance fails.
-/

namespace GameBackend

open MysqlHandle (Routine lib)

/-! ## Statements -/

/-- `mysql_real_escape_string`, as the manual of the library describes it. -/
def mysqlRealEscapeString (value : String) : String :=
  String.ofList (SqlLiteral.escape value.toList)

namespace SqlCmd

/-- The string of the caller in a statement. -/
def caller : SqlCmd → Option String
  | select (.account accountName) => some accountName
  | select (.battle battleId) => some battleId
  | write (.insertBattle row) => some row.battleId
  | write (.updateBattle battleId) => some battleId
  | write (.insertRewardLog row) => some row.battleId
  | _ => none

/-- A literal. -/
def quoted (escaped : String) : String := "'" ++ escaped ++ "'"

/-- The text of a statement, `escaped` standing for the string of the caller. -/
def statement (escaped : String) : SqlCmd → String
  | startTransaction => "START TRANSACTION"
  | commit => "COMMIT"
  | rollback => "ROLLBACK"
  | select (.account _) =>
    "SELECT a.account_id, a.account_name, a.password_hash, a.status, " ++
      "COALESCE(MIN(p.player_id), 0) AS default_player_id " ++
      "FROM account a " ++
      "LEFT JOIN player p ON p.account_id = a.account_id " ++
      "WHERE a.account_name = " ++ quoted escaped ++
      " GROUP BY a.account_id, a.account_name, a.password_hash, a.status LIMIT 1"
  | select (.profile playerId) =>
    "SELECT p.player_id, p.account_id, p.name, p.level, " ++
      "COALESCE(a.stamina, 0) AS stamina, COALESCE(a.gold, 0) AS gold, " ++
      "COALESCE(a.diamond, 0) AS diamond " ++
      "FROM player p " ++
      "LEFT JOIN player_asset a ON a.player_id = p.player_id " ++
      "WHERE p.player_id = " ++ toString playerId ++ " LIMIT 1"
  | select (.progress playerId) =>
    "SELECT dungeon_id, best_star, is_first_clear FROM player_dungeon WHERE player_id = " ++
      toString playerId
  | select (.battle _) =>
    "SELECT battle_id, player_id, dungeon_id, cost_stamina, status " ++
      "FROM dungeon_battle WHERE battle_id = " ++ quoted escaped ++ " LIMIT 1"
  | select (.pendingBattle playerId) =>
    "SELECT battle_id FROM dungeon_battle WHERE player_id = " ++ toString playerId ++
      " AND status = 0 LIMIT 1"
  | select (.firstClear playerId dungeonId) =>
    "SELECT is_first_clear FROM player_dungeon WHERE player_id = " ++ toString playerId ++
      " AND dungeon_id = " ++ toString dungeonId ++ " LIMIT 1"
  | write (.updateAssetStamina playerId costStamina) =>
    "UPDATE player_asset SET stamina = stamina - " ++ toString costStamina ++
      " WHERE player_id = " ++ toString playerId ++ " AND stamina >= " ++ toString costStamina
  | write (.insertBattle row) =>
    "INSERT INTO dungeon_battle (battle_id, player_id, dungeon_id, status, cost_stamina) " ++
      "VALUES (" ++ quoted escaped ++ (", " ++ toString row.playerId ++ ", " ++
      toString row.dungeonId ++ ", 0, " ++ toString row.costStamina ++ ")")
  | write (.updateBattle _) =>
    "UPDATE dungeon_battle SET status = 1, finish_at = CURRENT_TIMESTAMP " ++
      "WHERE battle_id = " ++ quoted escaped ++ " AND status = 0"
  | write (.updateAssetReward playerId gold diamond) =>
    "UPDATE player_asset SET gold = gold + " ++ toString gold ++
      (match diamond with
        | some diamond => ", diamond = diamond + " ++ toString diamond
        | none => "") ++
      " WHERE player_id = " ++ toString playerId
  | write (.upsertProgress playerId dungeonId star firstClear) =>
    "INSERT INTO player_dungeon (player_id, dungeon_id, best_star, is_first_clear, " ++
      "last_clear_at) VALUES (" ++ toString playerId ++ ", " ++ toString dungeonId ++ ", " ++
      toString star ++ ", " ++ (if firstClear then "1" else "0") ++ ", CURRENT_TIMESTAMP) " ++
      "ON DUPLICATE KEY UPDATE best_star = GREATEST(best_star, VALUES(best_star)), " ++
      "is_first_clear = GREATEST(is_first_clear, VALUES(is_first_clear)), " ++
      "last_clear_at = CURRENT_TIMESTAMP"
  | write (.insertRewardLog row) =>
    "INSERT INTO reward_log (player_id, battle_id, reward_type, reward_json) VALUES (" ++
      toString row.playerId ++ ", " ++ quoted escaped ++ (", " ++ quoted row.rewardType ++
      ", JSON_OBJECT('amount', " ++ toString row.amount ++ "))")

theorem toList_quoted (escaped : String) :
    (quoted escaped).toList = SqlLiteral.quote :: (escaped.toList ++ [SqlLiteral.quote]) := by
  rw [quoted, String.toList_append, String.toList_append]
  rfl

/-- The text of a statement with a string of the caller is the same around it, whatever
the string is, and no further quote follows the literal. -/
theorem statement_around {c : SqlCmd} {v : String} (hc : c.caller = some v) :
    ∃ front rest : List Char, rest.head? ≠ some SqlLiteral.quote ∧ ∀ escaped : String,
      (c.statement escaped).toList =
        front ++ SqlLiteral.quote :: (escaped.toList ++ SqlLiteral.quote :: rest) := by
  have around (front rest : String) (hrest : rest.toList.head? ≠ some SqlLiteral.quote) :
      ∃ front' rest' : List Char, rest'.head? ≠ some SqlLiteral.quote ∧ ∀ escaped : String,
        (front ++ quoted escaped ++ rest).toList =
          front' ++ SqlLiteral.quote :: (escaped.toList ++ SqlLiteral.quote :: rest') := by
    refine ⟨front.toList, rest.toList, hrest, fun escaped => ?_⟩
    simp only [String.toList_append, toList_quoted, List.append_assoc, List.cons_append,
      List.nil_append]
  have hcomma (rest : List Char) : (", ".toList ++ rest).head? ≠ some SqlLiteral.quote := by
    simp [SqlLiteral.quote]
  cases c with
  | startTransaction => cases hc
  | commit => cases hc
  | rollback => cases hc
  | select q =>
    cases q with
    | account accountName => exact around _ _ (by decide)
    | battle battleId => exact around _ _ (by decide)
    | profile playerId => cases hc
    | progress playerId => cases hc
    | pendingBattle playerId => cases hc
    | firstClear playerId dungeonId => cases hc
  | write w =>
    cases w with
    | insertBattle row =>
      refine around _ _ ?_
      simp only [String.toList_append, List.append_assoc]
      exact hcomma _
    | updateBattle battleId => exact around _ _ (by decide)
    | insertRewardLog row =>
      refine around _ _ ?_
      simp only [String.toList_append, List.append_assoc]
      exact hcomma _
    | updateAssetStamina playerId costStamina => cases hc
    | updateAssetReward playerId gold diamond => cases hc
    | upsertProgress playerId dungeonId star firstClear => cases hc

/-- What is written for the string of the caller can be told from the statement. -/
theorem statement_inj {c : SqlCmd} {v e e' : String} (hc : c.caller = some v)
    (h : c.statement e = c.statement e') : e = e' := by
  obtain ⟨front, rest, -, hstatement⟩ := statement_around hc
  have hlist := congrArg String.toList h
  rw [hstatement, hstatement] at hlist
  have htail := List.tail_eq_of_cons_eq (List.append_cancel_left hlist)
  exact String.toList_inj.mp (List.append_cancel_right htail)

/-- **One structure for all inputs**: the server reads an escaped string of the caller as
one literal with this text, and goes on with what the statement has behind it. -/
theorem read_statement {c : SqlCmd} {v : String} (hc : c.caller = some v) :
    ∃ front rest : List Char, ∀ value : String, ∃ literal : List Char,
      (c.statement (mysqlRealEscapeString value)).toList =
        front ++ SqlLiteral.quote :: literal ∧
      SqlLiteral.read literal = some (value.toList, rest) := by
  obtain ⟨front, rest, hrest, hstatement⟩ := statement_around hc
  refine ⟨front, rest, fun value => ⟨_, hstatement _, ?_⟩⟩
  rw [mysqlRealEscapeString, String.toList_ofList]
  exact SqlLiteral.read_escape value.toList hrest

end SqlCmd

/-! ## The connection -/

/-- A client, and what it has handed to `mysql_query`. -/
structure SentLink where
  link : MysqlLink := {}
  sent : List String := []

namespace SentLink

/-- One call of the library, for which a string is escaped by `esc`. -/
def call (esc : String → String) (s : SentLink) (x : Circumstance) (c : MysqlCall) :
    Option (c.Reply × SentLink) :=
  match c with
  | .query statement =>
    (s.link.call x (.query statement)).map fun r => (r.1, ⟨r.2, s.sent ++ [statement]⟩)
  | .escapeString value =>
    (s.link.call x (.escapeString value)).map fun r => (esc value, ⟨r.2, s.sent⟩)
  | c => (s.link.call x c).map fun r => (r.1, ⟨r.2, s.sent⟩)

end SentLink

/-- What happens while a statement is prepared and sent. -/
structure Delivery where
  /-- in `Escape` -/
  escaping : ℕ → Circumstance := fun _ => {}
  /-- in `Query` or `Execute` -/
  sending : ℕ → Circumstance := fun _ => {}
  /-- the rows a `SELECT` finds -/
  rows : (q : Query) → List q.Row := fun _ => []

namespace SqlCmd

/-- The string of the caller as the repository writes it into the statement. -/
def written (c : SqlCmd) : Routine String :=
  match c.caller with
  | some value => MysqlHandle.escape value
  | none => return ""

/-- The method that sends the statement. -/
def send (rows : (q : Query) → List q.Row) (text : String) : (c : SqlCmd) → Routine c.Reply
  | startTransaction => do return (← MysqlHandle.execute text).map fun _ => ()
  | commit => do return (← MysqlHandle.execute text).map fun _ => ()
  | rollback => do return (← MysqlHandle.execute text).map fun _ => ()
  | write _ => MysqlHandle.execute text
  | select q => do
    match ← MysqlHandle.query text with
    | .error _ => return none
    | .ok _ => return some (rows q)

end SqlCmd

/-- The connection of a server process, and the statements it has handed to the
library, each with the command it was written for. -/
structure SqlWire where
  link : MysqlLink := {}
  log : List (SqlCmd × String) := []

namespace SqlWire

/-- A command over the connection. The commands that do not go to MySQL leave it
alone. -/
def exec (esc : String → String) (s : SqlWire) (x : Delivery) :
    (c : Cmd) → Option (c.Reply × SqlWire)
  | .sql c => do
    let (escaped, s₁) ← c.written.run (SentLink.call esc) x.escaping ⟨s.link, []⟩
    let (reply, s₂) ← (c.send x.rows (c.statement escaped)).run (SentLink.call esc) x.sending s₁
    return (reply, ⟨s₂.link, s.log ++ s₂.sent.map fun text => (c, text)⟩)
  | .redis c => some (c.failed, s)
  | .fetchAddSequence => some (0, s)
  | .epochSeconds => some (0, s)

/-- In a method that starts without a handle `mysql_init` and `mysql_real_connect`, the
library calls after two looks at the pointer, succeed. -/
def Connects (x : ℕ → Circumstance) : Prop := (x 2).success = true ∧ (x 3).success = true

/-- So does the `mysql_ping` after them. -/
def Answers (x : ℕ → Circumstance) : Prop :=
  Connects x ∧ (x 4).loss = false ∧ (x 4).success = true

/-- There is no handle, `Escape` cannot connect, and the method that sends the statement
can. -/
def LateConnect (link : MysqlLink) (x : Delivery) : Prop :=
  link.handle = none ∧ ¬Connects x.escaping ∧ Answers x.sending

/-- Every statement handed to the library has the string of the caller as `esc` returns
it. -/
def Escaped (esc : String → String) (log : List (SqlCmd × String)) : Prop :=
  ∀ c text, (c, text) ∈ log → ∀ value, c.caller = some value → text = c.statement (esc value)

/-- Run on a connection, the program comes to an end, and what it has sent is escaped. -/
def SendsEscaped {α : Type} (esc : String → String) (m : Program α) (x : ℕ → Delivery)
    (link : MysqlLink) : Prop :=
  ∃ a s, m.run (SqlWire.exec esc) x ⟨link, []⟩ = some (a, s) ∧ Escaped esc s.log

end SqlWire

/-! ## The methods of the client -/

namespace SentLink

variable {esc : String → String} {x : ℕ → Circumstance} {s : SentLink} {n : ℕ} {stuck : Prop}

theorem yields_lib {c : MysqlCall} {r : c.Reply} {s' : SentLink} {Q : c.Reply → ℕ → SentLink → Prop}
    (h : s.call esc (x n) c = some (r, s')) (hQ : Q r (n + 1) s') :
    (lib c).Yields (call esc) x stuck Q n s := by
  refine ⟨fun hnone => ?_, fun r' s'' hs => ?_⟩
  · rw [h] at hnone
    cases hnone
  · obtain ⟨rfl, rfl⟩ := Prod.mk.inj (Option.some.inj (h.symm.trans hs))
    exact hQ

/-- Nothing is sent, and a handle stays. -/
def Keeps (s s' : SentLink) : Prop :=
  s'.sent = s.sent ∧ (s.link.handle ≠ none → s'.link.handle ≠ none)

theorem Keeps.trans {s₁ s₂ s₃ : SentLink} (h : s₁.Keeps s₂) (h' : s₂.Keeps s₃) : s₁.Keeps s₃ :=
  ⟨h'.1.trans h.1, fun hs => h'.2 (h.2 hs)⟩

theorem lose_ne_none {link : MysqlLink} (h : link.handle ≠ none) : link.lose.handle ≠ none := by
  unfold MysqlLink.lose
  split
  · exact Option.some_ne_none _
  · exact h

theorem keeps_lose (s : SentLink) (y : Circumstance) :
    s.Keeps ⟨if y.loss then s.link.lose else s.link, s.sent⟩ := by
  refine ⟨rfl, fun h => ?_⟩
  split
  · exact lose_ne_none h
  · exact h

/-- Calls that neither send a statement nor drop the handle. -/
theorem call_keeps (esc : String → String) (s : SentLink) (y : Circumstance) {c : MysqlCall}
    (hc : c = .isNull ∨ c = .ping ∨ c = .fieldCount ∨ c = .storeResult ∨ c = .affectedRows ∨
      c = .error) :
    ∃ r s', s.call esc y c = some (r, s') ∧ s.Keeps s' := by
  rcases hc with rfl | rfl | rfl | rfl | rfl | rfl <;> exact ⟨_, _, rfl, s.keeps_lose y⟩

theorem yields_keeps {c : MysqlCall}
    (hc : c = .isNull ∨ c = .ping ∨ c = .fieldCount ∨ c = .storeResult ∨ c = .affectedRows ∨
      c = .error) :
    (lib c).Yields (call esc) x stuck (fun _ n' s' => n' = n + 1 ∧ s.Keeps s') n s := by
  obtain ⟨r, s', hs, hkeeps⟩ := call_keeps esc s (x n) hc
  exact yields_lib hs ⟨rfl, hkeeps⟩

theorem yields_lastError :
    MysqlHandle.lastError.Yields (call esc) x stuck (fun _ _ s' => s.Keeps s') n s := by
  refine (yields_keeps (by simp)).bind fun null n₁ s₁ ⟨_, h₁⟩ => ?_
  cases null with
  | true => exact h₁
  | false => exact (yields_keeps (by simp)).mono fun _ _ s₂ ⟨_, h₂⟩ => h₁.trans h₂

/-- Without a handle there is no connection to lose. -/
theorem call_isNull (h : s.link.handle = none) (y : Circumstance) :
    s.call esc y .isNull = some (true, s) := by
  obtain ⟨⟨handle, opened⟩, sent⟩ := s
  obtain rfl := h
  cases hloss : y.loss <;> simp [call, MysqlLink.call, MysqlLink.lose, hloss]

/-- The first look at the pointer when there is no handle. -/
theorem yields_isNull (h : s.link.handle = none) :
    (lib .isNull).Yields (call esc) x stuck
      (fun r n' s' => r = true ∧ n' = n + 1 ∧ s' = s) n s :=
  yields_lib (call_isNull h _) ⟨rfl, rfl, rfl⟩

theorem yields_isNull_some (h : s.link.handle ≠ none) :
    (lib .isNull).Yields (call esc) x stuck
      (fun r n' s' => r = false ∧ n' = n + 1 ∧ s.Keeps s') n s := by
  have hkeeps := s.keeps_lose (x n)
  refine yields_lib rfl ⟨?_, rfl, hkeeps⟩
  rw [Option.isNone_eq_false_iff]
  exact Option.isSome_iff_ne_none.mpr (hkeeps.2 h)

theorem yields_close :
    (lib .close).Yields (call esc) x stuck
      (fun _ _ s' => s'.sent = s.sent ∧ s'.link.handle = none) n s :=
  yields_lib rfl ⟨rfl, rfl⟩

theorem call_init (esc : String → String) (s : SentLink) (y : Circumstance) :
    ∃ s', s.call esc y .init = some (y.success, s') ∧ s'.sent = s.sent ∧
      (y.success = false → s'.link.handle = none) := by
  cases hsuccess : y.success with
  | true =>
    refine ⟨⟨{ (if y.loss then s.link.lose else s.link) with handle := some .initialised },
      s.sent⟩, ?_, rfl, fun h => absurd h.symm Bool.false_ne_true⟩
    simp only [call, MysqlLink.call, hsuccess, if_pos, Option.map_some]
  | false =>
    refine ⟨⟨{ (if y.loss then s.link.lose else s.link) with handle := none }, s.sent⟩, ?_, rfl,
      fun _ => rfl⟩
    simp only [call, MysqlLink.call, hsuccess, Bool.false_eq_true, if_false, Option.map_some]

theorem call_realConnect (esc : String → String) (s : SentLink) (y : Circumstance) :
    ∃ s', s.call esc y .realConnect = some (y.success, s') ∧ s'.sent = s.sent ∧
      (y.success = true → s'.link.handle = some .connected) := by
  cases hsuccess : y.success with
  | true =>
    refine ⟨⟨⟨some .connected, (if y.loss then s.link.lose else s.link).opened + 1⟩, s.sent⟩, ?_,
      rfl, fun _ => rfl⟩
    simp only [call, MysqlLink.call, hsuccess, if_pos, Option.map_some]
  | false =>
    refine ⟨⟨if y.loss then s.link.lose else s.link, s.sent⟩, ?_, rfl,
      fun h => absurd h Bool.false_ne_true⟩
    simp only [call, MysqlLink.call, hsuccess, Bool.false_eq_true, if_false, Option.map_some]

theorem yields_init :
    (lib .init).Yields (call esc) x stuck (fun r n' s' => r = (x n).success ∧ n' = n + 1 ∧
      s'.sent = s.sent ∧ (r = false → s'.link.handle = none)) n s := by
  obtain ⟨s', hs, hsent, hnone⟩ := call_init esc s (x n)
  exact yields_lib hs ⟨rfl, rfl, hsent, hnone⟩

theorem yields_realConnect :
    (lib .realConnect).Yields (call esc) x stuck (fun r n' s' => r = (x n).success ∧
      n' = n + 1 ∧ s'.sent = s.sent ∧ (r = true → s'.link.handle = some .connected)) n s := by
  obtain ⟨s', hs, hsent, hconnected⟩ := call_realConnect esc s (x n)
  exact yields_lib hs ⟨rfl, rfl, hsent, hconnected⟩

/-- `Connect` without a handle, as the second call of a method. -/
theorem yields_connect (h : s.link.handle = none) :
    MysqlHandle.connect.Yields (call esc) x stuck (fun r n s' => s'.sent = s.sent ∧
      (SqlWire.Connects x → r = .ok () ∧ n = 4 ∧ s'.link.handle = some .connected) ∧
      (¬SqlWire.Connects x → (∃ message, r = .error message) ∧ s'.link.handle = none)) 1 s := by
  refine (yields_isNull h).bind ?_
  rintro _ _ _ ⟨rfl, rfl, rfl⟩
  refine yields_init.bind ?_
  rintro made _ s₁ ⟨hmade, rfl, hsent₁, hnone⟩
  cases made with
  | false =>
    have hconnects : ¬SqlWire.Connects x := fun hc => Bool.false_ne_true (hmade.trans hc.1)
    exact ⟨hsent₁, fun hc => absurd hc hconnects, fun _ => ⟨⟨_, rfl⟩, hnone rfl⟩⟩
  | true =>
    refine yields_realConnect.bind ?_
    rintro done _ s₂ ⟨hdone, rfl, hsent₂, hconnected⟩
    cases done with
    | true =>
      exact ⟨hsent₂.trans hsent₁, fun _ => ⟨rfl, rfl, hconnected rfl⟩,
        fun hc => absurd ⟨hmade.symm, hdone.symm⟩ hc⟩
    | false =>
      have hconnects : ¬SqlWire.Connects x := fun hc => Bool.false_ne_true (hdone.trans hc.2)
      refine yields_lastError.bind fun message _ s₃ h₃ => ?_
      refine yields_close.bind fun _ _ s₄ ⟨hsent₄, hnone₄⟩ => ?_
      exact ⟨hsent₄.trans (h₃.1.trans (hsent₂.trans hsent₁)), fun hc => absurd hc hconnects,
        fun _ => ⟨⟨_, rfl⟩, hnone₄⟩⟩

/-- `Escape` gives up only when it can neither find a handle nor make one. -/
theorem yields_escape (value : String) :
    (MysqlHandle.escape value).Yields (call esc) x stuck (fun r _ s' => s'.sent = s.sent ∧
      (s.link.handle ≠ none ∨ SqlWire.Connects x → r = esc value ∧ s'.link.handle ≠ none) ∧
      (s.link.handle = none ∧ ¬SqlWire.Connects x → r = value ∧ s'.link.handle = none)) 0 s := by
  have yields_escapeString {n : ℕ} {s₁ : SentLink} (h : s₁.link.handle ≠ none) :
      (lib (.escapeString value)).Yields (call esc) x stuck (fun r _ s' =>
        s'.sent = s₁.sent ∧ r = esc value ∧ s'.link.handle ≠ none) n s₁ := by
    exact yields_lib rfl ⟨rfl, rfl, (s₁.keeps_lose (x n)).2 h⟩
  by_cases hnone : s.link.handle = none
  · refine (yields_isNull hnone).bind ?_
    rintro _ _ _ ⟨rfl, rfl, rfl⟩
    refine (yields_connect hnone).bind fun r _ s₁ ⟨hsent₁, hdone, hfailed⟩ => ?_
    by_cases hconnects : SqlWire.Connects x
    · obtain ⟨rfl, -, hconnected⟩ := hdone hconnects
      have hsome : s₁.link.handle ≠ none := by
        rw [hconnected]
        exact Option.some_ne_none _
      refine (yields_escapeString hsome).mono fun r _ s₂ ⟨hsent₂, hr, hsome₂⟩ => ?_
      exact ⟨hsent₂.trans hsent₁, fun _ => ⟨hr, hsome₂⟩, fun h => absurd hconnects h.2⟩
    · obtain ⟨⟨message, rfl⟩, hnone₁⟩ := hfailed hconnects
      refine ⟨hsent₁, fun h => ?_, fun _ => ⟨rfl, hnone₁⟩⟩
      exact h.elim (absurd hnone) fun h => absurd h hconnects
  · refine (yields_isNull_some hnone).bind ?_
    rintro _ _ s₁ ⟨rfl, rfl, h₁⟩
    refine (yields_escapeString (h₁.2 hnone)).mono fun r _ s₂ ⟨hsent₂, hr, hsome₂⟩ => ?_
    exact ⟨hsent₂.trans h₁.1, fun _ => ⟨hr, hsome₂⟩, fun h => absurd h.1 hnone⟩

theorem yields_mysqlPing :
    (lib .ping).Yields (call esc) x stuck (fun r _ s' => s.Keeps s' ∧
      (s.link.handle = some .connected →
        (r = true ↔ (x n).loss = false ∧ (x n).success = true))) n s := by
  refine yields_lib rfl ⟨s.keeps_lose (x n), fun hconnected => ?_⟩
  cases hloss : (x n).loss with
  | true => simp [MysqlLink.lose, hconnected]
  | false => simp [hconnected]

/-- A `Ping` that succeeds leaves a handle. From none it succeeds just if it can connect
and the server answers. -/
theorem yields_ping :
    MysqlHandle.ping.Yields (call esc) x stuck (fun r _ s' => s'.sent = s.sent ∧
      (s.link.handle ≠ none ∨ r = .ok () → s'.link.handle ≠ none) ∧
      (s.link.handle = none → (r = .ok () ↔ SqlWire.Answers x))) 0 s := by
  have yields_pinged {n : ℕ} {s₁ : SentLink} (h : s₁.link.handle ≠ none) :
      MysqlHandle.ping.pinged.Yields (call esc) x stuck (fun r _ s' => s₁.Keeps s' ∧
        (s₁.link.handle = some .connected →
          (r = .ok () ↔ (x n).loss = false ∧ (x n).success = true))) n s₁ := by
    refine yields_mysqlPing.bind fun answered _ s₂ ⟨h₂, hanswered⟩ => ?_
    cases answered with
    | true => exact ⟨h₂, fun hc => by simp [← hanswered hc]⟩
    | false =>
      refine yields_lastError.bind fun message _ s₃ h₃ => ⟨h₂.trans h₃, fun hc => ?_⟩
      simp [← hanswered hc]
  by_cases hnone : s.link.handle = none
  · refine (yields_isNull hnone).bind ?_
    rintro _ _ _ ⟨rfl, rfl, rfl⟩
    refine (yields_connect hnone).bind fun r _ s₁ ⟨hsent₁, hdone, hfailed⟩ => ?_
    by_cases hconnects : SqlWire.Connects x
    · obtain ⟨rfl, rfl, hconnected⟩ := hdone hconnects
      have hsome : s₁.link.handle ≠ none := by
        rw [hconnected]
        exact Option.some_ne_none _
      refine (yields_pinged hsome).mono fun r _ s₂ ⟨h₂, hr⟩ => ?_
      exact ⟨h₂.1.trans hsent₁, fun _ => h₂.2 hsome,
        fun _ => (hr hconnected).trans (and_iff_right hconnects).symm⟩
    · obtain ⟨⟨message, rfl⟩, hnone₁⟩ := hfailed hconnects
      exact ⟨hsent₁, fun h => h.elim (absurd hnone) nofun,
        fun _ => ⟨nofun, fun h => absurd h.1 hconnects⟩⟩
  · refine (yields_isNull_some hnone).bind ?_
    rintro _ _ s₁ ⟨rfl, rfl, h₁⟩
    refine (yields_pinged (h₁.2 hnone)).mono fun r _ s₂ ⟨h₂, _⟩ => ?_
    exact ⟨h₂.1.trans h₁.1, fun _ => h₂.2 (h₁.2 hnone), fun h => absurd h hnone⟩

/-- What a method that sends a statement does to the connection. -/
def Sends (x : ℕ → Circumstance) (text : String) (s s' : SentLink) : Prop :=
  (s'.sent = s.sent ∨ s'.sent = s.sent ++ [text]) ∧
    (s.link.handle ≠ none → s'.link.handle ≠ none) ∧
    (s.link.handle = none → (SqlWire.Answers x → s'.sent = s.sent ++ [text]) ∧
      (¬SqlWire.Answers x → s'.sent = s.sent))

theorem yields_mysqlQuery (text : String) :
    (lib (.query text)).Yields (call esc) x stuck (fun _ _ s' => s'.sent = s.sent ++ [text] ∧
      (s.link.handle ≠ none → s'.link.handle ≠ none)) n s :=
  yields_lib rfl ⟨rfl, (s.keeps_lose (x n)).2⟩

/-- After a `Ping` that succeeds the statement is sent, and the calls after it keep what
was sent. -/
theorem yields_pinged {α : Type} (text : String) {k : Bool → Routine (Except String α)}
    (hk : ∀ done n s₁, (k done).Yields (call esc) x stuck (fun _ _ s' => s₁.Keeps s') n s₁) :
    (do
      match ← MysqlHandle.ping with
      | .error message => return .error message
      | .ok () => lib (.query text) >>= k : Routine (Except String α)).Yields (call esc) x stuck
      (fun r _ s' => s.Sends x text s' ∧
        (s'.link.handle = none → ∃ message, r = .error message)) 0 s := by
  refine yields_ping.bind fun r _ s₁ ⟨hsent₁, hsome, hanswers⟩ => ?_
  cases r with
  | error message =>
    refine ⟨⟨.inl hsent₁, fun h => hsome (.inl h), fun h => ⟨fun ha => ?_, fun _ => hsent₁⟩⟩,
      fun _ => ⟨message, rfl⟩⟩
    exact nomatch (hanswers h).mpr ha
  | ok u =>
    have hsome₁ := hsome (.inr rfl)
    refine (yields_mysqlQuery text).bind fun done n₂ s₂ ⟨hsent₂, hsome₂⟩ => ?_
    refine (hk done n₂ s₂).mono fun r _ s₃ ⟨hsent₃, hsome₃⟩ => ?_
    have hsent : s₃.sent = s.sent ++ [text] := by rw [hsent₃, hsent₂, hsent₁]
    refine ⟨⟨.inr hsent, fun _ => hsome₃ (hsome₂ hsome₁), fun h => ⟨fun _ => hsent, fun ha => ?_⟩⟩,
      fun h => absurd h (hsome₃ (hsome₂ hsome₁))⟩
    exact absurd ((hanswers h).mp rfl) ha

theorem yields_query (text : String) :
    (MysqlHandle.query text).Yields (call esc) x stuck (fun r _ s' => s.Sends x text s' ∧
      (s'.link.handle = none → ∃ message, r = .error message)) 0 s := by
  refine yields_pinged text fun done n₁ s₁ => ?_
  cases done with
  | true => exact (yields_keeps (by simp)).bind fun _ _ _ ⟨_, h⟩ => h
  | false => exact yields_lastError.bind fun _ _ _ h => h

theorem yields_execute (text : String) :
    (MysqlHandle.execute text).Yields (call esc) x stuck (fun r _ s' => s.Sends x text s' ∧
      (s'.link.handle = none → ∃ message, r = .error message)) 0 s := by
  refine yields_pinged text fun done n₁ s₁ => ?_
  cases done with
  | true =>
    refine (yields_keeps (by simp)).bind fun count n₂ s₂ ⟨_, h₂⟩ => ?_
    have counted {n : ℕ} {s₃ : SentLink} (h₃ : s₁.Keeps s₃) :
        (do return .ok (← lib .affectedRows) : Routine (Except String ℕ)).Yields (call esc) x stuck
          (fun _ _ s' => s₁.Keeps s') n s₃ :=
      (yields_keeps (by simp)).bind fun _ _ _ ⟨_, h₄⟩ => h₃.trans h₄
    split
    · exact (yields_keeps (by simp)).bind fun _ _ s₃ ⟨_, h₃⟩ => counted (h₂.trans h₃)
    · exact counted h₂
  | false => exact yields_lastError.bind fun _ _ _ h => h

/-- A reply to a command that leaves no handle is a failure. -/
theorem yields_send (esc : String → String) (rows : (q : Query) → List q.Row) (text : String)
    (c : SqlCmd) :
    (c.send rows text).Yields (call esc) x stuck (fun r _ s' => s.Sends x text s' ∧
      (s'.link.handle = none → ∃ message, r = c.failed message)) 0 s := by
  have yields_unit : (do return (← MysqlHandle.execute text).map fun _ => () :
      Routine (Except String Unit)).Yields (call esc) x stuck (fun r _ s' => s.Sends x text s' ∧
        (s'.link.handle = none → ∃ message, r = .error message)) 0 s := by
    refine (yields_execute text).bind fun r _ s₁ ⟨hsends, hfailed⟩ => ⟨hsends, fun h => ?_⟩
    obtain ⟨message, rfl⟩ := hfailed h
    exact ⟨message, rfl⟩
  cases c with
  | startTransaction => exact yields_unit
  | commit => exact yields_unit
  | rollback => exact yields_unit
  | write w => exact yields_execute text
  | select q =>
    refine (yields_query text).bind fun r _ s₁ ⟨hsends, hfailed⟩ => ?_
    cases r with
    | error message => exact ⟨hsends, fun _ => ⟨message, rfl⟩⟩
    | ok rows' =>
      refine ⟨hsends, fun h => ?_⟩
      obtain ⟨message, hmessage⟩ := hfailed h
      cases hmessage

/-- What `Escape` does for a command. -/
theorem yields_written (esc : String → String) {c : SqlCmd} {value : String}
    (hc : c.caller = some value) :
    c.written.Yields (call esc) x stuck (fun r _ s' => s'.sent = s.sent ∧
      (s.link.handle ≠ none ∨ SqlWire.Connects x → r = esc value ∧ s'.link.handle ≠ none) ∧
      (s.link.handle = none ∧ ¬SqlWire.Connects x → r = value ∧ s'.link.handle = none)) 0 s := by
  simp only [SqlCmd.written, hc]
  exact yields_escape value

end SentLink

/-! ## Commands -/

namespace SqlWire

variable {esc : String → String} {x : Delivery} {s : SqlWire} {c : SqlCmd}

/-- The two halves of a command: writing its text and sending it. -/
theorem exec_sql {P : String → SentLink → Prop}
    (hwritten : c.written.Yields (SentLink.call esc) x.escaping False (fun r _ s' => P r s') 0
      ⟨s.link, []⟩) :
    ∃ escaped s₁ r s₂, P escaped s₁ ∧ s₁.Sends x.sending (c.statement escaped) s₂ ∧
      (s₂.link.handle = none → ∃ message, r = c.failed message) ∧
      s.exec esc x (.sql c) =
        some (r, ⟨s₂.link, s.log ++ s₂.sent.map fun text => (c, text)⟩) := by
  obtain ⟨escaped, s₁, hrun₁⟩ := hwritten.returns not_false
  obtain ⟨_, hP⟩ := hwritten.run hrun₁
  have hsend : (c.send x.rows (c.statement escaped)).Yields (SentLink.call esc) x.sending False _ 0
      s₁ := SentLink.yields_send esc x.rows (c.statement escaped) c
  obtain ⟨r, s₂, hrun₂⟩ := hsend.returns not_false
  obtain ⟨_, hsends, hfailed⟩ := hsend.run hrun₂
  simp only [Nat.zero_add] at hrun₁ hrun₂
  exact ⟨escaped, s₁, r, s₂, hP, hsends, hfailed, by simp [exec, hrun₁, hrun₂]⟩

theorem Escaped.append {log : List (SqlCmd × String)} {sent : List String} (h : Escaped esc log)
    (hsent : ∀ text ∈ sent, ∀ value, c.caller = some value → text = c.statement (esc value)) :
    Escaped esc (log ++ sent.map fun text => (c, text)) := by
  intro c' text hmem value hvalue
  rcases List.mem_append.mp hmem with hlog | hnew
  · exact h c' text hlog value hvalue
  · obtain ⟨text', htext, heq⟩ := List.mem_map.mp hnew
    obtain ⟨rfl, rfl⟩ := Prod.mk.inj heq
    exact hsent _ htext value hvalue

/-- Where `Escape` finds or makes a handle, or has nothing to do, a command sends what it
should. It leaves no handle only if it found none and failed. -/
theorem exec_escaped (esc : String → String)
    (h : c.caller = none ∨ s.link.handle ≠ none ∨ Connects x.escaping) :
    ∃ r s', s.exec esc x (.sql c) = some (r, s') ∧ (Escaped esc s.log → Escaped esc s'.log) ∧
      (s'.link.handle = none → s.link.handle = none ∧ ∃ message, r = c.failed message) := by
  cases hc : c.caller with
  | none =>
    have hwritten : c.written.Yields (SentLink.call esc) x.escaping False
        (fun _ _ s' => s' = ⟨s.link, []⟩) 0 ⟨s.link, []⟩ := by
      simp only [SqlCmd.written, hc]
      rfl
    obtain ⟨_, _, r, s₂, rfl, hsends, hfailed, hexec⟩ := exec_sql hwritten
    refine ⟨r, _, hexec, fun hlog => hlog.append fun text _ value hvalue => ?_, fun hnone =>
      ⟨?_, hfailed hnone⟩⟩
    · rw [hc] at hvalue
      cases hvalue
    · by_contra hsome
      exact hsends.2.1 hsome hnone
  | some value =>
    have hhandle : s.link.handle ≠ none ∨ Connects x.escaping := by
      rcases h with h | h
      · rw [hc] at h
        cases h
      · exact h
    obtain ⟨_, s₁, r, s₂, ⟨hsent₁, hok, -⟩, hsends, hfailed, hexec⟩ :=
      exec_sql (SentLink.yields_written esc hc)
    obtain ⟨rfl, hsome₁⟩ := hok hhandle
    refine ⟨r, _, hexec, fun hlog => hlog.append fun text htext value' hvalue => ?_, fun hnone =>
      absurd hnone (hsends.2.1 hsome₁)⟩
    obtain rfl := Option.some.inj (hc.symm.trans hvalue)
    -- one statement at most has been sent
    rcases hsends.1 with hsent | hsent
    · rw [hsent, hsent₁] at htext
      cases htext
    · rw [hsent, hsent₁] at htext
      exact List.mem_singleton.mp htext

/-- Where `Escape` gives up, the command sends the string as it is, if it can connect. -/
theorem exec_raw (esc : String → String) {value : String} (hc : c.caller = some value)
    (hnone : s.link.handle = none) (hconnects : ¬Connects x.escaping) :
    ∃ r s', s.exec esc x (.sql c) = some (r, s') ∧
      (Answers x.sending → s'.log = s.log ++ [(c, c.statement value)]) ∧
      (¬Answers x.sending → s'.log = s.log) := by
  obtain ⟨_, s₁, r, s₂, ⟨hsent₁, -, hraw⟩, ⟨-, -, hsends⟩, -, hexec⟩ :=
    exec_sql (SentLink.yields_written esc hc)
  obtain ⟨rfl, hnone₁⟩ := hraw ⟨hnone, hconnects⟩
  obtain ⟨hanswers, hfails⟩ := hsends hnone₁
  refine ⟨r, _, hexec, fun ha => ?_, fun ha => ?_⟩
  · simp [hanswers ha, hsent₁]
  · simp [hfails ha, hsent₁]

/-! ## Lookups -/

theorem queryOne_eq (q : Query) :
    MySqlClient.queryOne q = sql (.select q) >>= fun r => .ret (r.getD []).head? := by
  refine congrArg (Prog.call (Cmd.sql (.select q))) (funext fun r => ?_)
  cases r with
  | none => rfl
  | some rows => rfl

/-- A lookup by a string of the caller is escaped unless the connection is late. -/
theorem lookup_escaped_iff {α : Type} {x : ℕ → Delivery} {link : MysqlLink} {q : Query}
    {value : String} (hq : (SqlCmd.select q).caller = some value) (f : Option q.Row → α) :
    SendsEscaped esc (MySqlClient.queryOne q >>= fun row => .ret (f row)) x link ↔
      (LateConnect link (x 0) → esc value = value) := by
  have hrun {r : (SqlCmd.select q).Reply} {s' : SqlWire}
      (hs : (⟨link, []⟩ : SqlWire).exec esc (x 0) (.sql (.select q)) = some (r, s')) :
      SendsEscaped esc (MySqlClient.queryOne q >>= fun row => .ret (f row)) x link ↔
        Escaped esc s'.log := by
    have heq : (MySqlClient.queryOne q >>= fun row => .ret (f row)).run (SqlWire.exec esc) x
        ⟨link, []⟩ = some (f (r.getD []).head?, s') := by
      rw [queryOne_eq]
      exact congrArg (Option.bind · _) hs
    simp [SendsEscaped, heq]
  by_cases hraw : link.handle = none ∧ ¬Connects (x 0).escaping
  · obtain ⟨r, s', hs, hsent, hunsent⟩ := exec_raw esc (s := ⟨link, []⟩) hq hraw.1 hraw.2
    rw [hrun hs]
    by_cases ha : Answers (x 0).sending
    · have hlate : LateConnect link (x 0) := ⟨hraw.1, hraw.2, ha⟩
      rw [hsent ha]
      refine ⟨fun h _ => ?_, fun h c text hmem v hv => ?_⟩
      · exact (SqlCmd.statement_inj hq (h _ _ (List.mem_singleton_self _) value hq)).symm
      · obtain ⟨rfl, rfl⟩ := Prod.mk.inj (List.mem_singleton.mp hmem)
        obtain rfl := Option.some.inj (hq.symm.trans hv)
        rw [h hlate]
    · rw [hunsent ha]
      exact ⟨fun _ h => absurd h.2.2 ha, fun _ _ _ h => nomatch h⟩
  · have hhandle : link.handle ≠ none ∨ Connects (x 0).escaping := by
      rcases not_and_or.mp hraw with h | h
      · exact .inl h
      · exact .inr (not_not.mp h)
    obtain ⟨r, s', hs, hescaped, -⟩ := exec_escaped esc (s := ⟨link, []⟩) (.inr hhandle)
    rw [hrun hs]
    exact ⟨fun _ h => absurd ⟨h.1, h.2.1⟩ hraw, fun _ => hescaped fun _ _ h => nomatch h⟩

theorem findByName_escaped_iff (x : ℕ → Delivery) (link : MysqlLink) (accountName : String) :
    SendsEscaped esc (MySqlAccountRepository.findByName accountName) x link ↔
      (LateConnect link (x 0) → esc accountName = accountName) := by
  have heq : MySqlAccountRepository.findByName accountName =
      MySqlClient.queryOne (.account accountName) >>= fun row => .ret row := by
    rw [MySqlAccountRepository.findByName, queryOne_eq, Prog.bind_assoc]
    rfl
  rw [heq]
  exact lookup_escaped_iff rfl id

theorem findBattleById_escaped_iff (x : ℕ → Delivery) (link : MysqlLink) (battleId : String) :
    SendsEscaped esc (MySqlDungeonRepository.findBattleById battleId) x link ↔
      (LateConnect link (x 0) → esc battleId = battleId) :=
  lookup_escaped_iff (q := .battle battleId) rfl (Option.map MySqlDungeonRepository.contextOf)

/-! ## Transactions -/

/-- Nothing unescaped has been sent, and there is a handle. -/
def Safe (esc : String → String) (s : SqlWire) : Prop := s.link.handle ≠ none ∧ Escaped esc s.log

/-- With a handle every command is escaped and leaves a handle. -/
theorem Safe.ensures_sql {s : SqlWire} (h : s.Safe esc) (c : SqlCmd) :
    (sql c).Ensures (SqlWire.exec esc) (fun _ s' => s'.Safe esc) s := by
  intro x
  obtain ⟨r, s', hs, hescaped, hnone⟩ := exec_escaped esc (x := x) (c := c) (.inr (.inl h.1))
  exact ⟨r, s', hs, fun h' => h.1 (hnone h').1, hescaped h.2⟩

theorem Safe.ensures_queryOne {s : SqlWire} (h : s.Safe esc) (q : Query) :
    (MySqlClient.queryOne q).Ensures (SqlWire.exec esc) (fun _ s' => s'.Safe esc) s := by
  rw [queryOne_eq]
  exact (h.ensures_sql (.select q)).bind fun _ _ h' => h'

/-- A transaction that begins has a handle. -/
theorem ensures_beginTransaction {s : SqlWire} (h : Escaped esc s.log) :
    MySqlClient.beginTransaction.Ensures (SqlWire.exec esc) (fun r s' => Escaped esc s'.log ∧
      (r = .ok () → s'.Safe esc)) s := by
  intro x
  obtain ⟨r, s', hs, hescaped, hnone⟩ := exec_escaped esc (x := x)
    (c := .startTransaction) (.inl rfl)
  refine ⟨r, s', hs, hescaped h, ?_⟩
  rintro rfl
  refine ⟨fun h' => ?_, hescaped h⟩
  obtain ⟨-, message, hmessage⟩ := hnone h'
  cases hmessage

theorem Safe.ensures_finishTransaction {s : SqlWire} (h : s.Safe esc)
    (transaction : Except String Unit) :
    (MySqlDungeonRepository.finishTransaction transaction).Ensures (SqlWire.exec esc)
      (fun _ s' => s'.Safe esc) s := by
  cases transaction with
  | error message => exact (h.ensures_sql .rollback).bind fun _ _ h' => h'
  | ok =>
    refine (h.ensures_sql .commit).bind fun r s₁ h₁ => ?_
    cases r with
    | error message => exact (h₁.ensures_sql .rollback).bind fun _ _ h' => h'
    | ok => exact h₁

theorem Safe.ensures_enterStatements {s : SqlWire} (h : s.Safe esc) (profile : PlayerProfile)
    (config : DungeonConfig) (battleId : String) :
    (MySqlDungeonRepository.enterStatements profile config battleId).Ensures (SqlWire.exec esc)
      (fun _ s' => s'.Safe esc) s := by
  refine (h.ensures_queryOne (.pendingBattle profile.playerId)).bind fun pending s₁ h₁ => ?_
  split
  · exact h₁
  · refine (h₁.ensures_sql (.write _)).bind fun spent s₂ h₂ => ?_
    split
    · exact h₂
    · refine (h₂.ensures_sql (.write _)).bind fun inserted s₃ h₃ => ?_
      split
      · exact h₃
      · exact h₃

theorem Safe.ensures_settleStatements {s : SqlWire} (h : s.Safe esc) (context : BattleContext)
    (config : DungeonConfig) (star : ℤ) (firstClear : Bool) :
    (MySqlDungeonRepository.settleStatements context config star firstClear).Ensures
      (SqlWire.exec esc) (fun _ s' => s'.Safe esc) s := by
  refine (h.ensures_sql (.write _)).bind fun updated s₁ h₁ => ?_
  split
  · exact h₁
  refine (h₁.ensures_sql (.write _)).bind fun rewarded s₂ h₂ => ?_
  split
  · exact h₂
  refine (h₂.ensures_sql (.write _)).bind fun recorded s₃ h₃ => ?_
  split
  · exact h₃
  refine (h₃.ensures_sql (.write _)).bind fun gold s₄ h₄ => ?_
  split
  · exact h₄
  split
  · refine (h₄.ensures_sql (.write _)).bind fun diamond s₅ h₅ => ?_
    split
    · exact h₅
    · exact h₅
  · exact h₄

/-- A transaction whose body and end are safe: a beginning that fails has sent nothing of
the caller. -/
theorem ensures_transaction {α : Type} {s : SqlWire} (h : Escaped esc s.log)
    {failed : String → α} {body : Program α}
    (hbody : ∀ s' : SqlWire, s'.Safe esc →
      body.Ensures (SqlWire.exec esc) (fun _ s'' => s''.Safe esc) s') :
    (do
      match ← MySqlClient.beginTransaction with
      | .error message => return failed message
      | .ok () => body : Program α).Ensures (SqlWire.exec esc)
        (fun _ s' => Escaped esc s'.log) s := by
  refine (ensures_beginTransaction h).bind fun r s₁ ⟨hescaped, hsafe⟩ => ?_
  cases r with
  | error message => exact hescaped
  | ok => exact (hbody s₁ (hsafe rfl)).mono fun _ _ h' => h'.2

theorem ensures_enterDungeon {s : SqlWire} (h : Escaped esc s.log) (playerState : PlayerState)
    (config : DungeonConfig) (battleId : String) :
    (MySqlDungeonRepository.enterDungeon playerState config battleId).Ensures (SqlWire.exec esc)
      (fun _ s' => Escaped esc s'.log) s := by
  refine ensures_transaction h fun s₁ h₁ => ?_
  refine (h₁.ensures_enterStatements _ _ _).bind fun transaction s₂ h₂ => ?_
  refine (h₂.ensures_finishTransaction transaction).bind fun r s₃ h₃ => ?_
  cases r with
  | error message => exact h₃
  | ok => exact h₃

theorem ensures_settleDungeon {s : SqlWire} (h : Escaped esc s.log) (context : BattleContext)
    (config : DungeonConfig) (star : ℤ) :
    (MySqlDungeonRepository.settleDungeon context config star).Ensures (SqlWire.exec esc)
      (fun _ s' => Escaped esc s'.log) s := by
  have hquery : (MySqlClient.queryOne (.firstClear context.playerId config.dungeonId)).Ensures
      (SqlWire.exec esc) (fun _ s' => Escaped esc s'.log) s := by
    rw [queryOne_eq]
    intro x
    obtain ⟨r, s', hs, hescaped, -⟩ := exec_escaped esc (x := x)
      (c := .select (.firstClear context.playerId config.dungeonId)) (.inl rfl)
    exact ⟨r, s', hs, hescaped h⟩
  refine hquery.bind fun row s₁ h₁ => ensures_transaction h₁ fun s₂ h₂ => ?_
  refine (h₂.ensures_settleStatements _ _ _ _).bind fun transaction s₃ h₃ => ?_
  refine (h₃.ensures_finishTransaction transaction).bind fun r s₄ h₄ => ?_
  cases r with
  | error message => exact h₄
  | ok => exact h₄

theorem sendsEscaped_of_ensures {α : Type} {m : Program α} {link : MysqlLink}
    (h : m.Ensures (SqlWire.exec esc) (fun _ s' => Escaped esc s'.log) ⟨link, []⟩)
    (x : ℕ → Delivery) : SendsEscaped esc m x link :=
  h.run x

/-- **When a string of the caller is escaped**: in the two transactions always, since a
transaction that has begun has a handle, which `Escape` finds. In the two lookups unless
`Escape` finds no handle and cannot connect, the lookup then can, and the string is not
its own escape. -/
theorem client_strings_escaped_iff (esc : String → String) (x : ℕ → Delivery)
    (link : MysqlLink) :
    (∀ accountName, SendsEscaped esc (MySqlAccountRepository.findByName accountName) x link ↔
        (LateConnect link (x 0) → esc accountName = accountName)) ∧
      (∀ battleId, SendsEscaped esc (MySqlDungeonRepository.findBattleById battleId) x link ↔
        (LateConnect link (x 0) → esc battleId = battleId)) ∧
      (∀ playerState config battleId, SendsEscaped esc
        (MySqlDungeonRepository.enterDungeon playerState config battleId) x link) ∧
      ∀ context config star, SendsEscaped esc
        (MySqlDungeonRepository.settleDungeon context config star) x link := by
  have hnil : Escaped esc [] := fun _ _ h => nomatch h
  refine ⟨findByName_escaped_iff x link, findBattleById_escaped_iff x link, ?_, ?_⟩
  · exact fun playerState config battleId =>
      sendsEscaped_of_ensures (ensures_enterDungeon hnil playerState config battleId) x
  · exact fun context config star =>
      sendsEscaped_of_ensures (ensures_settleDungeon hnil context config star) x

/-- A client that has never been connected: `Escape` fails to connect, the lookup
connects, and the name closes the literal. -/
theorem raw_name_sent :
    ¬∀ accountName x link, SendsEscaped mysqlRealEscapeString
      (MySqlAccountRepository.findByName accountName) x link := by
  intro h
  have hlate : LateConnect {} { escaping := fun _ => { success := false } } :=
    ⟨rfl, fun hconnects => (Bool.false_ne_true hconnects.1), ⟨rfl, rfl⟩, rfl, rfl⟩
  have hname := (findByName_escaped_iff (fun _ => { escaping := fun _ => { success := false } })
    {} "' OR '1'='1").mp (h _ _ _) hlate
  exact absurd hname (by decide)

end SqlWire

end GameBackend
