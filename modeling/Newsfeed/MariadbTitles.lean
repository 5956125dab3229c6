import Newsfeed.MariadbProcedures

/-! # MariaDB: is the title a key?

No constraint keeps titles apart. An insert leaves out what the table has, by the
collation, and takes everything else of the batch, whose titles the server has only
checked to be different texts.
-/
namespace MariadbTitles

open TextOperations SqlLogic RelationalTables FeedModels CudHandlers MariadbProcedures

variable (coll : Collation) (isRfc3339 : Text → Bool)

/-- `a.title = b.title`. -/
def sameTitle (a b : Option Text) : Bool := (sqlEq coll.eq a b).holds

def TitleKey (rows : List Row) : Prop :=
  rows.Pairwise fun a b => sameTitle coll a.title b.title = false

instance (rows : List Row) : Decidable (TitleKey coll rows) :=
  inferInstanceAs (Decidable (rows.Pairwise _))

structure Step where
  now : Timestamp
  connection : Connection
  batch : AcceptedBatch

def afterStep (rows : List Row) (b : Step) : List Row :=
  (cudFeed isRfc3339 (mariadb coll b.now b.connection) b.batch.mode.optionMode b.batch.body.items
    rows).1

def afterSteps (steps : List Step) (rows : List Row) : List Row :=
  steps.foldl (afterStep coll isRfc3339) rows

def newItems (items : List CudParams) (rows : List Row) : List ParsedItem :=
  (parsedItems coll items).filter (isNew coll rows)

def NoTwins (rows : List Row) (batch : AcceptedBatch) : Prop :=
  batch.mode = .insert → (newItems coll batch.body.items rows).Pairwise fun s t =>
    sameTitle coll s.title t.title = false

theorem updateRow_title (now : Timestamp) (parsed : List ParsedItem) (n : Row) :
    (updateRow coll now parsed n).title = n.title := by
  unfold updateRow
  split <;> rfl

theorem titleKey_insertRows {rows : List Row} (h : TitleKey coll rows) (now : Timestamp)
    (parsed : List ParsedItem) :
    TitleKey coll (insertRows coll now parsed rows) ↔
      (parsed.filter (isNew coll rows)).Pairwise fun s t =>
        sameTitle coll s.title t.title = false := by
  unfold TitleKey insertRows
  rw [List.pairwise_append, List.pairwise_map]
  constructor
  · rintro ⟨_, hnew, _⟩
    exact hnew
  · intro hnew
    refine ⟨h, hnew, ?_⟩
    intro a ha b hb
    obtain ⟨t, ht, rfl⟩ := List.mem_map.mp hb
    have hfree := (List.mem_filter.mp ht).2
    rw [isNew, existsRow, Bool.not_eq_true', List.any_eq_false] at hfree
    exact Bool.eq_false_iff.mpr (hfree a ha)

theorem titleKey_afterStep {rows : List Row} (h : TitleKey coll rows) (b : Step) :
    TitleKey coll (afterStep coll isRfc3339 rows b) ↔ NoTwins coll rows b.batch := by
  rw [afterStep, cudFeed_rows, NoTwins]
  cases hmode : b.batch.mode with
  | insert =>
    rw [written, titleKey_insertRows coll h]
    exact ⟨fun hnew _ => hnew, fun hnew => hnew rfl⟩
  | update =>
    refine iff_of_true ?_ fun hno => by cases hno
    refine List.pairwise_map.mpr (List.Pairwise.imp ?_ h)
    intro a b hab
    rw [updateRow_title, updateRow_title]
    exact hab
  | delete =>
    refine iff_of_true ?_ fun hno => by cases hno
    exact List.Pairwise.sublist List.filter_sublist h

theorem afterSteps_append (steps : List Step) (b : Step) (rows : List Row) :
    afterSteps coll isRfc3339 (steps ++ [b]) rows =
      afterStep coll isRfc3339 (afterSteps coll isRfc3339 steps rows) b := List.foldl_append ..

/-- In a run from the empty table the title is a key in every state exactly when no
insert of the run brings two new titles that the collation takes for the same. -/
theorem title_key_in_every_state_iff (coll : Collation) (isRfc3339 : Text → Bool)
    (steps : List Step) :
    (∀ before, before <+: steps → TitleKey coll (afterSteps coll isRfc3339 before [])) ↔
      ∀ before b, before ++ [b] <+: steps →
        NoTwins coll (afterSteps coll isRfc3339 before []) b.batch := by
  constructor
  · intro hkey before b hsteps
    have hbefore := hkey before ((List.prefix_append before [b]).trans hsteps)
    have hafter := hkey (before ++ [b]) hsteps
    rw [afterSteps_append] at hafter
    exact (titleKey_afterStep coll isRfc3339 hbefore b).mp hafter
  · intro hsafe before
    induction before using List.reverseRecOn with
    | nil => exact fun _ => List.Pairwise.nil
    | append_singleton before b ih =>
      intro hsteps
      have hbefore := ih ((List.prefix_append before [b]).trans hsteps)
      rw [afterSteps_append]
      exact (titleKey_afterStep coll isRfc3339 hbefore b).mpr (hsafe before b hsteps)

def bothSpellings : AcceptedBatch where
  mode := .insert
  body :=
    { items := [sampleItem "A", sampleItem "a"]
      nonempty := List.cons_ne_nil _ _
      bounded := by decide
      accepted := by decide }
  accepted := ⟨rfl, by decide⟩

theorem both_spellings_inserted :
    (afterSteps Collation.ascii sampleRfc3339 [⟨0, newConnection, bothSpellings⟩] []).map
        Row.title = [some "A".toList, some "a".toList] ∧
      ¬ TitleKey Collation.ascii
        (afterSteps Collation.ascii sampleRfc3339 [⟨0, newConnection, bothSpellings⟩] []) := by
  have hrows : afterSteps Collation.ascii sampleRfc3339 [⟨0, newConnection, bothSpellings⟩] [] =
      insertRows Collation.ascii 0 (parsedItems Collation.ascii bothSpellings.body.items) [] :=
    cudFeed_rows Collation.ascii sampleRfc3339 0 newConnection .insert
      bothSpellings.body.items []
  rw [hrows]
  decide

end MariadbTitles
