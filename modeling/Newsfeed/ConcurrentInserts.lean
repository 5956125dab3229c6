import Newsfeed.InsertRaces
import Newsfeed.MariadbRaces

/-! # Concurrent inserts of one title

Clients insert one item each, all with the same title. On PostgreSQL and SQL Server the
status comes from the insert itself; on MariaDB it is older than the insert.
-/
namespace ConcurrentInserts

open TextOperations FallibleOperations SqlLogic StatementInterleaving FeedModels CudHandlers
open InsertRaces MariadbRaces

/-- The engine, its table and what the clients' calls do not share. -/
inductive Race (n : Nat) where
  | postgres (sv : PostgresProcedures.Server) (table : PostgresProcedures.Newsfeed sv)
      (now : Fin (n + 1) → PostgresProcedures.Timestamp)
  | mariadb (coll : Collation) (rows : List MariadbProcedures.Row)
      (now : Fin (n + 1) → MariadbProcedures.Timestamp)
      (connections : Fin (n + 1) → MariadbProcedures.Connection)
  | mssql (sv : MssqlProcedures.Server) (table : MssqlProcedures.NewsFeed sv)
      (now : Fin (n + 1) → MssqlProcedures.Timestamp)

namespace Race

variable {n : Nat} (race : Race n) (isRfc3339 : Text → Bool)
  (items : Fin (n + 1) → AcceptedItem) (t : Text) (schedule : List (Fin (n + 1)))

def Executes : Prop :=
  match race with
  | postgres sv _ now => Interleaves (fun i => postgresProgram sv (now i) (items i).val) schedule
  | mariadb coll _ now _ =>
    Interleaves (fun i => mariadbProgram coll (now i) (items i).val) schedule
  | mssql sv _ now => Interleaves (fun i => mssqlProgram sv (now i) (items i).val) schedule

def received (i : Fin (n + 1)) : Except DbError (List CudResult) :=
  match race with
  | postgres sv table now =>
    readAnswer isRfc3339
      ((run (fun i => postgresProgram sv (now i) (items i).val) (start table fun _ => [])
        schedule).session i)
  | mariadb coll rows now connections =>
    mariadbAnswer isRfc3339 ((after coll now items rows connections schedule).session i)
  | mssql sv table now =>
    mssqlAnswer isRfc3339
      ((run (fun i => mssqlProgram sv (now i) (items i).val)
        (start table.rows fun _ => MssqlProcedures.noVariables) schedule).session i)

def titleCount : Nat :=
  match race with
  | postgres sv table now =>
    (run (fun i => postgresProgram sv (now i) (items i).val) (start table fun _ => [])
      schedule).shared.rows.countP fun r => r.title == t
  | mariadb coll rows now connections =>
    (after coll now items rows connections schedule).shared.countP fun r => r.title == some t
  | mssql sv table now =>
    (run (fun i => mssqlProgram sv (now i) (items i).val)
      (start table.rows fun _ => MssqlProcedures.noVariables) schedule).shared.countP
        fun r => r.title == t

/-- No row at the start has the title, as the engine compares titles. -/
def TitleMissing : Prop :=
  match race with
  | postgres sv table _ => TitleFree sv table.rows t
  | mariadb coll rows _ _ => TitleUnused coll rows t
  | mssql sv table _ => NoTitle sv table.rows t

/-- The engine can take the items: all of them, or on SQL Server the date of the first one
that gets to its insert. -/
def ItemsTaken : Prop :=
  match race with
  | postgres sv _ _ => ∀ i, Storable sv (items i).val
  | mariadb coll _ _ _ =>
    ∀ i, MariadbProcedures.isParsed coll (MariadbProcedures.readItem (items i).val) = true
  | mssql sv _ _ => (∀ i, Readable sv (items i).val) ∧
      ∀ w ∈ (orderOf (fun _ => 1) schedule).head?, Castable sv (items w).val

/-- On MariaDB: exactly one client puts its statuses together before the first insert. -/
def OneLooksFirst : Prop :=
  match race with
  | mariadb .. => ∃! w, LooksFirst schedule w
  | _ => True

end Race

/-- In every interleaving there is exactly one winner exactly when the title is missing at
the start, the items are taken and, on MariaDB, only one client looks before the first
insert. -/
theorem one_winner_iff {n : Nat} (race : Race n) (isRfc3339 : Text → Bool)
    (items : Fin (n + 1) → AcceptedItem) (t : Text) (ht : ∀ i, (items i).val.title = some t)
    (schedule : List (Fin (n + 1))) (h : race.Executes items schedule) :
    OneWinner (race.received isRfc3339 items schedule) (race.titleCount items t schedule) ↔
      race.TitleMissing t ∧ race.ItemsTaken items schedule ∧ race.OneLooksFirst schedule := by
  cases race with
  | postgres sv table now =>
    have hiff := postgres_oneWinner sv isRfc3339 ht table h
    constructor
    · intro hwinner
      obtain ⟨hfree, hstore⟩ := hiff.mp hwinner
      exact ⟨hfree, hstore, trivial⟩
    · rintro ⟨hfree, hstore, _⟩
      exact hiff.mpr ⟨hfree, hstore⟩
  | mariadb coll rows now connections =>
    exact mariadb_oneWinner coll isRfc3339 ht rows connections h
  | mssql sv table now =>
    have hiff := mssql_oneWinner sv isRfc3339 ht table.rows h
    constructor
    · intro hwinner
      obtain ⟨hfree, htaken⟩ := hiff.mp hwinner
      exact ⟨hfree, htaken, trivial⟩
    · rintro ⟨hfree, htaken, _⟩
      exact hiff.mpr ⟨hfree, htaken⟩

/-- Two clients with new connections insert `Hello` into an empty table. -/
def twoClients : Race 1 :=
  .mariadb Collation.ascii [] (fun _ => 0) fun _ => MariadbProcedures.newConnection

def helloItems : Fin 2 → AcceptedItem := fun _ => helloItem

/-- The second client calls after the first. -/
def oneAfterTheOther : List (Fin 2) := List.replicate 8 0 ++ List.replicate 8 1

/-- Both put their statuses together before either inserts. -/
def bothLookFirst : List (Fin 2) := List.replicate 6 0 ++ List.replicate 6 1 ++ [0, 0, 1, 1]

theorem executes_of_counts {schedule : List (Fin 2)}
    (h : schedule.count 0 = 8 ∧ schedule.count 1 = 8) :
    twoClients.Executes helloItems schedule :=
  Fin.forall_fin_two.mpr ⟨h.1, h.2⟩

theorem hello_parsed : MariadbProcedures.isParsed Collation.ascii
    (MariadbProcedures.readItem (sampleItem "Hello")) = true := by
  decide

theorem hello_one_winner :
    OneWinner (twoClients.received sampleRfc3339 helloItems oneAfterTheOther)
      (twoClients.titleCount helloItems "Hello".toList oneAfterTheOther) := by
  have hunused : TitleUnused Collation.ascii [] "Hello".toList := fun r hr => by cases hr
  have hfirst : LooksFirst oneAfterTheOther 0 := by decide
  refine (one_winner_iff twoClients sampleRfc3339 helloItems "Hello".toList (fun _ => rfl)
    oneAfterTheOther (executes_of_counts ⟨by decide, by decide⟩)).mpr
      ⟨hunused, fun _ => hello_parsed, 0, hfirst, ?_⟩
  decide

/-- Both clients are told `Success`, although only one row is written. -/
theorem hello_two_winners :
    twoClients.TitleMissing "Hello".toList ∧ twoClients.Executes helloItems bothLookFirst ∧
      (∀ i, Receives .success (twoClients.received sampleRfc3339 helloItems bothLookFirst i)) ∧
      ¬ OneWinner (twoClients.received sampleRfc3339 helloItems bothLookFirst)
        (twoClients.titleCount helloItems "Hello".toList bothLookFirst) := by
  have hunused : TitleUnused Collation.ascii [] "Hello".toList := fun r hr => by cases hr
  have hexecutes := executes_of_counts (show bothLookFirst.count 0 = 8 ∧
    bothLookFirst.count 1 = 8 by decide)
  have hlook : ∀ i, LooksFirst bothLookFirst i := by decide
  have hsuccess : ∀ i,
      Receives .success (twoClients.received sampleRfc3339 helloItems bothLookFirst i) := by
    intro i
    have hreceives := receives_of_unused sampleRfc3339 (fun _ => 0)
      (fun _ => MariadbProcedures.newConnection) (fun _ => rfl) hunused
      (fun _ => hello_parsed) hexecutes i
    rw [if_pos (hlook i)] at hreceives
    exact hreceives
  refine ⟨hunused, hexecutes, hsuccess, ?_⟩
  rintro ⟨⟨w, _, hothers⟩, _⟩
  have hother : ∀ v : Fin 2, v + 1 ≠ v := by decide
  exact absurd ((hsuccess (w + 1)).unique (hothers (w + 1) (hother w))) (by decide)

end ConcurrentInserts
