import Newsfeed.MariadbExtract
import Mathlib.Logic.Function.Basic

/-! # MariaDB: what a pooled connection remembers

User variables, the prepared statement and the temporary tables outlive a call. The
procedures are written here on the whole session, the dynamic query as the text it is.
-/
namespace MariadbSessions

open TextOperations SqlLogic FeedModels CudHandlers ExtractFilters StatementInterleaving
open MariadbProcedures MariadbExtract

inductive Variable where
  | dSQL
  | dSQLWhere
  | title
  | imageurl
  | feedurl
  | actualurl
  | limit
  | sort
  deriving DecidableEq, Repr

inductive Value where
  | null
  | text (t : Text)
  | int (n : ℤ)
  | number (spelling : Text)
  deriving DecidableEq, Repr

def Value.ofText : Option Text → Value
  | none => .null
  | some t => .text t

def Value.asText : Value → Option Text
  | .null => none
  | .text t => some t
  | .int n => some (toString n).toList
  | .number spelling => some spelling

def Value.asInt : Value → Option ℤ
  | .int n => some n
  | _ => none

abbrev Variables := Variable → Value

/-- `SET @x = v`. -/
def Variables.set (vars : Variables) (x : Variable) (v : Value) : Variables :=
  Function.update vars x v

/-- The state of a connection between two calls; the prepared statement is kept as its text. -/
structure Session where
  userVariables : Variables
  queryStatement : Option Text
  tempBulkResults : Option (List (Option Text))
  tmpParsedInput : Option (List ParsedItem)

/-- The temporary tables as a batch finds them. `GROUP_CONCAT` would skip a `NULL` status. -/
def Session.connection (s : Session) : Connection :=
  ⟨s.tempBulkResults.map List.reduceOption, s.tmpParsedInput, []⟩

/-- `PREPARE` and `EXECUTE` of a statement text, which may be `NULL`, on the table. -/
abbrev StatementEngine :=
  Option Text → List Argument → List Row → Except SqlError (List Row)

section Extract

variable (sv : Server)

def resetVariables (vars : Variables) : Variables :=
  (((((((vars.set .dSQL (.text [])).set .dSQLWhere (.text [])).set .title .null).set
    .imageurl .null).set .feedurl .null).set .actualurl .null).set .limit .null).set .sort .null

/-- `CONCAT` is `NULL` when one of its arguments is. -/
def concat (values : List Value) : Value := .ofText ((values.mapM Value.asText).map List.flatten)

/-- `TRIM(x) <> ''`. -/
def isNotBlank (v : Value) : Bool :=
  (sqlEq sv.coll.eq (v.asText.map trimSpaces) (some [])).not.holds

def addCondition (condition : String) (vars : Variables) : Variables :=
  vars.set .dSQLWhere
    (if isNotBlank sv (vars .dSQLWhere) then
      concat [vars .dSQLWhere, .text " AND ".toList, .text condition.toList]
    else .text condition.toList)

def addTitle (title : Option Text) (vars : Variables) : Variables :=
  match title with
  | none => vars
  | some t => (vars.set .dSQLWhere (.text "nf.title = ?".toList)).set .title (.text t)

def addImageurl (imageurl : Option Text) (vars : Variables) : Variables :=
  match imageurl with
  | none => vars
  | some t =>
    if asksNull sv t then addCondition sv "nf.imageurl is null" vars
    else (addCondition sv "nf.imageurl = ?" vars).set .imageurl (.text t)

def addFeedurl (feedurl : Option Text) (vars : Variables) : Variables :=
  match feedurl with
  | none => vars
  | some t => (addCondition sv "nf.feedurl = ?" vars).set .feedurl (.text t)

def addActualurl (actualurl : Option Text) (vars : Variables) : Variables :=
  match actualurl with
  | none => vars
  | some t =>
    if asksNull sv t then addCondition sv "nf.actualurl is null" vars
    else (addCondition sv "nf.actualurl = ?" vars).set .actualurl (.text t)

def selectText : Text :=
  ("select\n      nf.title as `Title`,\n      nf.imageurl as `Image URL`,\n" ++
    "      nf.feedurl as `Feed URL`,\n      nf.actualurl as `Acutal URL`,\n" ++
    "      date_format(nf.publishdate, '%Y-%m-%d %H:%i:%s.%f') as `Publish Date`\n" ++
    "      from newsfeed nf").toList

def orderText : SortOrder → Text
  | .desc => (" order by nf.publishdate desc, nf.title desc, nf.imageurl desc, " ++
      "nf.feedurl desc, nf.actualurl desc limit ?").toList
  | .asc => (" order by nf.publishdate asc, nf.title asc, nf.imageurl asc, " ++
      "nf.feedurl asc, nf.actualurl asc limit ?").toList

def includeWhere (vars : Variables) : Variables :=
  if isNotBlank sv (vars .dSQLWhere) then
    vars.set .dSQLWhere (concat [.text " WHERE ".toList, vars .dSQLWhere])
  else vars

def includeOrder (vars : Variables) : Variables :=
  vars.set .dSQL (concat [vars .dSQL, vars .dSQLWhere,
    .text (orderText (if (equalsText sv (vars .sort).asText "desc").holds then .desc else .asc))])

/-- What the branches of the `EXECUTE` read of the variables. -/
def view (vars : Variables) : UserVariables where
  dSQL := none
  dSQLWhere := []
  title := (vars .title).asText
  imageurl := (vars .imageurl).asText
  feedurl := (vars .feedurl).asText
  actualurl := (vars .actualurl).asText
  limit := (vars .limit).asInt
  sort := (vars .sort).asText
  queryStatement := none

variable (engine : StatementEngine)

/-- `extractnewsfeed` on a session, which it leaves changed. -/
def extractnewsfeed (optionMode title imageurl feedurl actualurl limit sort : Option Text)
    (s : Session) (rows : List Row) : Session × Except SqlError (List Row) :=
  match [("optionMode", optionMode), ("title", title), ("imageurl", imageurl), ("feedurl", feedurl),
      ("actualurl", actualurl), ("limit", limit), ("sort", sort)].find? isTooLong with
  | some (column, _) => (s, .error (.dataTooLong column))
  | none =>
    let vars := resetVariables s.userVariables
    let optionMode := optionMode.bind (sanitise sv letters 255)
    let title := title.bind (sanitise sv filterClass 255)
    let imageurl := imageurl.bind (sanitise sv filterClass 255)
    let feedurl := feedurl.bind (sanitise sv filterClass 768)
    let actualurl := actualurl.bind (sanitise sv filterClass 255)
    let limit := limit.bind (sanitiseLimit sv)
    let sort := sort.bind (sanitise sv letters 255)
    if (equalsText sv optionMode "extractNewsFeed").holds then
      let vars := vars.set .limit (.int (effectiveLimit limit))
      let vars := vars.set .sort (.text (effectiveSort sv sort))
      let vars := vars.set .dSQL (.text selectText)
      let vars := addActualurl sv actualurl <| addFeedurl sv feedurl <|
        addImageurl sv imageurl <| addTitle title vars
      let vars := includeOrder sv (includeWhere sv vars)
      let s := { s with userVariables := vars, queryStatement := (vars .dSQL).asText }
      (s, engine s.queryStatement (usingArguments sv (view vars) imageurl actualurl) rows)
    else ({ s with userVariables := vars }, .ok [])

end Extract

section Batch

variable (coll : Collation)

/-- The branch of `cud_bulk_json_newsfeed` for an `optionMode` of any text. -/
def optionModeOf (optionMode : Option Text) : OptionMode :=
  let is (s : String) : Truth := sqlEq coll.eq optionMode (some s.toList)
  if ((is "insertFeed").or (is "insertNewsFeed")).holds then .insertFeed
  else if ((is "updateFeed").or (is "updateNewsFeed")).holds then .updateFeed
  else if ((is "deleteFeed").or (is "deleteNewsFeed")).holds then .deleteFeed
  else .extractFeed

/-- `JSON_TABLE` has no rows for a payload that is `NULL`. -/
def payloadText (payload : Option Text) : Text := payload.getD "[]".toList

def cudBulkJsonNewsfeed (now : Timestamp) (optionMode payload : Option Text) (s : Session)
    (rows : List Row) : List Row × Except SqlError (List (Option Text)) :=
  if isTooLong ("optionMode", optionMode) then (rows, .error (.dataTooLong "optionMode"))
  else
    let program := MariadbProcedures.cudBulkJsonNewsfeed coll now (optionModeOf coll optionMode)
      (payloadText payload)
    let (rows', c) := runProgram program rows (.ok s.connection)
    (rows', c.map Connection.resultSet)

end Batch

inductive Call where
  | extract (optionMode title imageurl feedurl actualurl limit sort : Option Text)
  | cud (optionMode payload : Option Text)

inductive ResultSet where
  | feed (rows : List Row)
  | status (rows : List (Option Text))
  deriving DecidableEq, Repr

section Pool

variable (sv : Server) (engine : StatementEngine)

/-- The table after a call, and its result set. -/
def Call.run (call : Call) (now : Timestamp) (s : Session) (rows : List Row) :
    List Row × Except SqlError ResultSet :=
  match call with
  | .extract optionMode title imageurl feedurl actualurl limit sort =>
    (rows, (extractnewsfeed sv engine optionMode title imageurl feedurl actualurl limit sort s
      rows).2.map .feed)
  | .cud optionMode payload =>
    let (rows', answer) := cudBulkJsonNewsfeed sv.coll now optionMode payload s rows
    (rows', answer.map .status)

theorem resetVariables_eq (vars vars' : Variables) :
    resetVariables vars = resetVariables vars' := by
  funext x
  cases x <;> rfl

/-- After the reset nothing of the session is read. -/
theorem extractnewsfeed_independent
    (optionMode title imageurl feedurl actualurl limit sort : Option Text) (s s' : Session)
    (rows : List Row) :
    (extractnewsfeed sv engine optionMode title imageurl feedurl actualurl limit sort s rows).2 =
      (extractnewsfeed sv engine optionMode title imageurl feedurl actualurl limit sort s'
        rows).2 := by
  unfold extractnewsfeed
  split
  · rfl
  · dsimp only
    rw [resetVariables_eq s.userVariables s'.userVariables]
    split
    · rfl
    · rfl

theorem runProgram_reset (rows : List Row) (c : Connection) :
    runProgram [createResults, truncateResults, createParsed, truncateParsed] rows (.ok c) =
      (rows, .ok ⟨some [], some [], c.resultSet⟩) := rfl

theorem cud_independent (now : Timestamp) (optionMode payload : Option Text) (s s' : Session)
    (rows : List Row) :
    cudBulkJsonNewsfeed sv.coll now optionMode payload s rows =
      cudBulkJsonNewsfeed sv.coll now optionMode payload s' rows := by
  unfold cudBulkJsonNewsfeed
  split
  · rfl
  · have hprogram : ∀ mode payload, MariadbProcedures.cudBulkJsonNewsfeed sv.coll now mode payload =
        [createResults, truncateResults, createParsed, truncateParsed] ++
          insertParsed sv.coll payload :: (modeStatements sv.coll now mode ++ [selectStatus]) :=
      fun _ _ => rfl
    simp only [hprogram, runProgram_append, runProgram_reset]
    rfl

/-- A call gives one answer, and leaves one table, on every connection: whatever values the
user variables have, whatever statement is prepared, whatever is in the temporary tables. -/
theorem call_independent (call : Call) (now : Timestamp) (s s' : Session) (rows : List Row) :
    call.run sv engine now s rows = call.run sv engine now s' rows := by
  cases call with
  | extract optionMode title imageurl feedurl actualurl limit sort =>
    simp only [Call.run]
    rw [extractnewsfeed_independent sv engine optionMode title imageurl feedurl actualurl limit
      sort s s' rows]
  | cud optionMode payload =>
    simp only [Call.run]
    rw [cud_independent sv now optionMode payload s s' rows]

/-- Calls one after another, each on a connection of the pool in any state. -/
inductive Runs : List Row → List (Timestamp × Call) → List (Except SqlError ResultSet) →
    List Row → Prop where
  | done (rows : List Row) : Runs rows [] [] rows
  | call {rows rows' : List Row} {now : Timestamp} {call : Call}
      {calls : List (Timestamp × Call)} {answers : List (Except SqlError ResultSet)} (s : Session)
      (rest : Runs (call.run sv engine now s rows).1 calls answers rows') :
      Runs rows ((now, call) :: calls) ((call.run sv engine now s rows).2 :: answers) rows'

/-- Which connections the pool hands out makes no difference to a run. -/
theorem runs_deterministic {rows rows₁ rows₂ : List Row} {calls : List (Timestamp × Call)}
    {answers₁ answers₂ : List (Except SqlError ResultSet)}
    (h₁ : Runs sv engine rows calls answers₁ rows₁)
    (h₂ : Runs sv engine rows calls answers₂ rows₂) :
    answers₁ = answers₂ ∧ rows₁ = rows₂ := by
  induction h₁ generalizing answers₂ rows₂ with
  | done rows =>
    cases h₂
    exact ⟨rfl, rfl⟩
  | @call rows rows' now call calls answers s _ ih =>
    cases h₂ with
    | call s' rest' =>
      rw [call_independent sv engine call now s' s rows] at rest' ⊢
      obtain ⟨hanswers, hrows⟩ := ih rest'
      exact ⟨congrArg _ hanswers, hrows⟩

end Pool

def conditionText : Condition → String
  | .titleIs => "nf.title = ?"
  | .imageurlIs => "nf.imageurl = ?"
  | .imageurlNull => "nf.imageurl is null"
  | .feedurlIs => "nf.feedurl = ?"
  | .actualurlIs => "nf.actualurl = ?"
  | .actualurlNull => "nf.actualurl is null"

def clauseText : List Condition → Text
  | [] => []
  | c :: cs =>
    (conditionText c).toList ++ cs.flatMap fun c => " AND ".toList ++ (conditionText c).toList

def whereText (cs : List Condition) : Text :=
  if cs.isEmpty then [] else " WHERE ".toList ++ clauseText cs

def queryText (q : Query) : Text := selectText ++ (whereText q.conditions ++ orderText q.sort)

section Spelling

variable (sv : Server)

theorem clauseText_append (cs : List Condition) (c : Condition) :
    clauseText (cs ++ [c]) =
      if cs.isEmpty then (conditionText c).toList
      else clauseText cs ++ (" AND ".toList ++ (conditionText c).toList) := by
  cases cs with
  | nil => exact List.append_nil _
  | cons d ds =>
    rw [List.cons_append, clauseText, clauseText, List.flatMap_append, List.flatMap_singleton,
      List.append_assoc]
    rfl

theorem isNotBlank_clauseText (cs : List Condition) :
    isNotBlank sv (.text (clauseText cs)) = !cs.isEmpty := by
  have hvalue : isNotBlank sv (.text (clauseText cs)) =
      !sv.coll.eq (trimSpaces (clauseText cs)) [] := by
    rw [isNotBlank, Value.asText, Option.map_some, sqlEq_some_some]
    cases sv.coll.eq (trimSpaces (clauseText cs)) [] <;> rfl
  rw [hvalue]
  cases cs with
  | nil => rw [clauseText, show trimSpaces [] = [] from rfl, Collation.eq_refl]; rfl
  | cons c cs =>
    have hn : 'n' ∈ clauseText (c :: cs) := by
      apply List.mem_append_left _
      cases c <;> decide
    have htrimmed : 'n' ∈ trimSpaces (clauseText (c :: cs)) := mem_trimBy hn (by decide)
    have hvisible := sv.letters_visible _ ⟨'n', htrimmed, by decide⟩
    have heq : sv.coll.eq (trimSpaces (clauseText (c :: cs))) [] = false := by
      rw [← Bool.not_eq_true, Collation.eq_iff]
      exact hvisible
    rw [heq]
    rfl

/-- The session variables spell the clause, and have the values, of the typed ones. -/
structure Spells (vars : Variables) (v : UserVariables) : Prop where
  dSQL : vars .dSQL = .text selectText
  dSQLWhere : vars .dSQLWhere = .text (clauseText v.dSQLWhere)
  title : (vars .title).asText = v.title
  imageurl : (vars .imageurl).asText = v.imageurl
  feedurl : (vars .feedurl).asText = v.feedurl
  actualurl : (vars .actualurl).asText = v.actualurl
  limit : (vars .limit).asInt = v.limit
  sort : (vars .sort).asText = v.sort

variable {sv} {vars : Variables} {v : UserVariables}

variable (sv) in
theorem Spells.addCondition (h : Spells vars v) (c : Condition) :
    Spells (addCondition sv (conditionText c) vars) { v with dSQLWhere := v.dSQLWhere ++ [c] } := by
  have hclause : MariadbSessions.addCondition sv (conditionText c) vars =
      vars.set .dSQLWhere (.text (clauseText (v.dSQLWhere ++ [c]))) := by
    rw [MariadbSessions.addCondition, h.dSQLWhere, isNotBlank_clauseText, clauseText_append]
    cases v.dSQLWhere.isEmpty with
    | true => rfl
    | false => simp [concat, Value.asText, Value.ofText]
  rw [hclause]
  exact ⟨h.dSQL, rfl, h.title, h.imageurl, h.feedurl, h.actualurl, h.limit, h.sort⟩

theorem Spells.addTitle (h : Spells vars v) (title : Option Text) :
    Spells (addTitle title vars) (MariadbExtract.addTitle title v) := by
  cases title with
  | none => exact h
  | some t => exact ⟨h.dSQL, rfl, rfl, h.imageurl, h.feedurl, h.actualurl, h.limit, h.sort⟩

variable (sv) in
theorem Spells.addImageurl (h : Spells vars v) (imageurl : Option Text) :
    Spells (addImageurl sv imageurl vars) (MariadbExtract.addImageurl sv imageurl v) := by
  cases imageurl with
  | none => exact h
  | some t =>
    rw [MariadbSessions.addImageurl, MariadbExtract.addImageurl]
    cases asksNull sv t with
    | true => exact h.addCondition sv .imageurlNull
    | false =>
      have hadded := h.addCondition sv .imageurlIs
      exact ⟨hadded.dSQL, hadded.dSQLWhere, hadded.title, rfl, hadded.feedurl, hadded.actualurl,
        hadded.limit, hadded.sort⟩

variable (sv) in
theorem Spells.addFeedurl (h : Spells vars v) (feedurl : Option Text) :
    Spells (addFeedurl sv feedurl vars) (MariadbExtract.addFeedurl feedurl v) := by
  cases feedurl with
  | none => exact h
  | some t =>
    have hadded := h.addCondition sv .feedurlIs
    exact ⟨hadded.dSQL, hadded.dSQLWhere, hadded.title, hadded.imageurl, rfl, hadded.actualurl,
      hadded.limit, hadded.sort⟩

variable (sv) in
theorem Spells.addActualurl (h : Spells vars v) (actualurl : Option Text) :
    Spells (addActualurl sv actualurl vars) (MariadbExtract.addActualurl sv actualurl v) := by
  cases actualurl with
  | none => exact h
  | some t =>
    rw [MariadbSessions.addActualurl, MariadbExtract.addActualurl]
    cases asksNull sv t with
    | true => exact h.addCondition sv .actualurlNull
    | false =>
      have hadded := h.addCondition sv .actualurlIs
      exact ⟨hadded.dSQL, hadded.dSQLWhere, hadded.title, hadded.imageurl, hadded.feedurl, rfl,
        hadded.limit, hadded.sort⟩

theorem includeWhere_of_ne {x : Variable} (hx : x ≠ .dSQLWhere) :
    includeWhere sv vars x = vars x := by
  rw [includeWhere]
  split
  · exact Function.update_of_ne hx _ _
  · rfl

theorem Spells.includeWhere (h : Spells vars v) :
    includeWhere sv vars .dSQLWhere = .text (whereText v.dSQLWhere) := by
  rw [MariadbSessions.includeWhere, h.dSQLWhere, isNotBlank_clauseText, whereText]
  cases hempty : v.dSQLWhere.isEmpty with
  | true =>
    have hclause : clauseText v.dSQLWhere = [] := by rw [List.isEmpty_iff.mp hempty, clauseText]
    exact h.dSQLWhere.trans (congrArg Value.text hclause)
  | false => simp [concat, Value.asText, Value.ofText, Variables.set]

theorem Spells.prepared (h : Spells vars v) :
    (includeOrder sv (MariadbSessions.includeWhere sv vars) .dSQL).asText =
      (prepare sv v).queryStatement.map queryText := by
  rw [includeOrder, Variables.set, Function.update_self, h.includeWhere,
    includeWhere_of_ne (by decide), includeWhere_of_ne (by decide), h.dSQL, h.sort]
  simp [concat, Value.asText, Value.ofText, prepare, queryText]

theorem Spells.usingArguments (h : Spells vars v) (imageurl actualurl : Option Text) :
    usingArguments sv (view (includeOrder sv (MariadbSessions.includeWhere sv vars))) imageurl
        actualurl =
      MariadbExtract.usingArguments sv (prepare sv v) imageurl actualurl := by
  have hkept : ∀ x, x ≠ .dSQL → x ≠ .dSQLWhere →
      includeOrder sv (MariadbSessions.includeWhere sv vars) x = vars x := by
    intro x hdSQL hwhere
    rw [includeOrder, Variables.set, Function.update_of_ne hdSQL, includeWhere_of_ne hwhere]
  have hview : view (includeOrder sv (MariadbSessions.includeWhere sv vars)) =
      { v with
        dSQL := none
        dSQLWhere := []
        queryStatement := none } := by
    rw [view, hkept _ (by decide) (by decide), hkept _ (by decide) (by decide),
      hkept _ (by decide) (by decide), hkept _ (by decide) (by decide),
      hkept _ (by decide) (by decide), hkept _ (by decide) (by decide), h.title, h.imageurl,
      h.feedurl, h.actualurl, h.limit, h.sort]
  rw [hview]
  rfl

/-- `PREPARE` understands the texts of the procedure's queries. -/
def Understands (sv : Server) (engine : StatementEngine) : Prop :=
  ∀ q args rows, engine (some (queryText q)) args rows = execute sv q args rows

theorem Understands.prepared {engine : StatementEngine} (h : Understands sv engine)
    (v : UserVariables) (args : List Argument) (rows : List Row) :
    ∃ q, (prepare sv v).queryStatement = some q ∧
      engine ((prepare sv v).queryStatement.map queryText) args rows = execute sv q args rows :=
  ⟨_, rfl, h _ args rows⟩

/-- The procedure on the whole session answers as the one on typed queries. -/
theorem extractnewsfeed_refines {engine : StatementEngine} (hengine : Understands sv engine)
    (optionMode title imageurl feedurl actualurl limit sort : Option Text) (s : Session)
    (v : UserVariables) (rows : List Row) :
    (extractnewsfeed sv engine optionMode title imageurl feedurl actualurl limit sort s rows).2 =
      (MariadbExtract.extractnewsfeed sv optionMode title imageurl feedurl actualurl limit sort v
        rows).2 := by
  unfold extractnewsfeed MariadbExtract.extractnewsfeed
  cases [("optionMode", optionMode), ("title", title), ("imageurl", imageurl),
      ("feedurl", feedurl), ("actualurl", actualurl), ("limit", limit),
      ("sort", sort)].find? isTooLong with
  | some long => rfl
  | none =>
    dsimp only
    split
    · have hstart : ∀ limit sort, Spells
          ((((resetVariables s.userVariables).set .limit (.int limit)).set .sort (.text sort)).set
            .dSQL (.text selectText))
          { reset v with
            limit := some limit
            sort := some sort } :=
        fun _ _ => ⟨rfl, rfl, rfl, rfl, rfl, rfl, rfl, rfl⟩
      have hspells := ((((hstart (effectiveLimit (limit.bind (sanitiseLimit sv)))
        (effectiveSort sv (sort.bind (sanitise sv letters 255)))).addTitle
          (title.bind (sanitise sv filterClass 255))).addImageurl sv
          (imageurl.bind (sanitise sv filterClass 255))).addFeedurl sv
          (feedurl.bind (sanitise sv filterClass 768))).addActualurl sv
          (actualurl.bind (sanitise sv filterClass 255))
      rw [hspells.prepared, hspells.usingArguments]
      obtain ⟨q, hq, hexecute⟩ := hengine.prepared _ _ rows
      rw [hexecute, hq]
    · rfl

/-- A batch call is the one on the temporary tables of the session. -/
theorem cudBulkJsonNewsfeed_refines (coll : Collation) (now : Timestamp) (mode : OptionMode)
    (hmode : optionModeOf coll (some mode.asStr.toList) = mode) (payload : Text) (s : Session)
    (rows : List Row) :
    cudBulkJsonNewsfeed coll now (some mode.asStr.toList) (some payload) s rows =
      (mariadb coll now s.connection).call mode payload rows := by
  have hfits : isTooLong ("optionMode", some mode.asStr.toList) = false := by
    cases mode <;> decide
  rw [cudBulkJsonNewsfeed, hfits, hmode]
  rfl

end Spelling

end MariadbSessions
