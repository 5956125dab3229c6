import Newsfeed.InsertRaces
import Newsfeed.MariadbProcedures
import Mathlib.Data.List.Infix

/-! # Concurrent inserts of one title: MariaDB

The statuses are put together in a statement of their own, before the insert. A client is
told `Success` when it looks before the first insert, whoever inserts.
-/
namespace MariadbRaces

open TextOperations FallibleOperations SqlLogic RelationalTables StatementInterleaving FeedModels
open CudHandlers MariadbProcedures InsertRaces

/-- The call of a client; its status statement has number 5, its insert number 6. -/
def mariadbProgram (coll : Collation) (now : Timestamp) (item : CudParams) : List Stmt :=
  cudBulkJsonNewsfeed coll now .insertFeed (payloadText [item])

def mariadbAnswer (isRfc3339 : Text → Bool) (session : Session Connection SqlError) :
    Except DbError (List CudResult) :=
  readAnswer isRfc3339 (session.map Connection.resultSet)

def TitleUnused (coll : Collation) (rows : List Row) (t : Text) : Prop :=
  ∀ r ∈ rows, ∀ title, r.title = some title → coll.key title ≠ coll.key t

def LooksFirst {n : Nat} (schedule : List (Fin n)) (i : Fin n) : Prop :=
  ∃ q ∈ schedule.inits, 5 < q.count i ∧ ∀ j, q.count j ≤ 6

instance {n : Nat} (schedule : List (Fin n)) (i : Fin n) : Decidable (LooksFirst schedule i) :=
  inferInstanceAs (Decidable (∃ q ∈ schedule.inits, _))

section Call

variable {coll : Collation} (isRfc3339 : Text → Bool) {now : Timestamp} {item : CudParams}
  {t : Text} {rows : List Row}

theorem mariadbProgram_oneLook (coll : Collation) (now : Timestamp) (item : CudParams) :
    OneLook (mariadbProgram coll now item) 5 where
  lt := by
    show 5 < 8
    omega
  before := by
    intro st hst
    have hst' : st ∈ [createResults, truncateResults, createParsed, truncateParsed,
      insertParsed coll (payloadText [item])] := hst
    simp only [List.mem_cons, List.not_mem_nil, or_false] at hst'
    rcases hst' with rfl | rfl | rfl | rfl | rfl <;> exact fun _ _ _ => ⟨rfl, rfl⟩
  after := by
    intro st hst
    have hst' : st ∈ [write coll now .insert, selectStatus] := hst
    simp only [List.mem_cons, List.not_mem_nil, or_false] at hst'
    rcases hst' with rfl | rfl <;> exact fun _ _ _ => rfl

theorem shared_of_ne_write {c : Nat} {st : Stmt} (h : (mariadbProgram coll now item)[c]? = some st)
    (hc : c ≠ 6) (session : Session Connection SqlError) : (exec st rows session).1 = rows := by
  have hkeeps : ∀ connection, (st rows connection).1 = rows := by
    have hlt : c < 8 := (List.getElem?_eq_some_iff.mp h).1
    interval_cases c <;> first
      | exact absurd rfl hc
      | (obtain rfl := Option.some.inj h; exact fun _ => rfl)
  cases session with
  | error e => rfl
  | ok connection => exact hkeeps connection

theorem session_before_write (coll : Collation) (now : Timestamp) (item : CudParams)
    (rows : List Row) (c : Connection) :
    ∃ results resultSet, (runProgram ((mariadbProgram coll now item).take 6) rows (.ok c)).2 =
      .ok ⟨some results, some (parsedItems coll [item]), resultSet⟩ := by
  have htake : (mariadbProgram coll now item).take 6 =
      [createResults, truncateResults, createParsed, truncateParsed,
        insertParsed coll (payloadText [item])] ++ [insertStatuses coll .insert] := rfl
  rw [htake, runProgram_append, runProgram_parse]
  exact ⟨_, _, rfl⟩

theorem mariadbAnswer_eq (rows : List Row) (c : Connection) :
    mariadbAnswer isRfc3339 (runProgram (mariadbProgram coll now item) rows (.ok c)).2 =
      parseStatusRows isRfc3339
        [some (statusText (statuses coll .insert (parsedItems coll [item]) rows))] := by
  have hcall := congrArg Prod.snd (call_eq coll now c .insert [item] rows)
  unfold mariadb at hcall
  unfold mariadbAnswer mariadbProgram
  dsimp only [CudMode.optionMode] at hcall
  rw [hcall]
  rfl

theorem titleMatches_iff (ht : item.title = some t) {r : Row} :
    titleMatches coll (readItem item) r = true ↔
      ∃ title, r.title = some title ∧ coll.key title = coll.key t := by
  rw [titleMatches, readItem, ht]
  cases r.title <;> simp

theorem isNew_of_unused (ht : item.title = some t) (hunused : TitleUnused coll rows t) :
    isNew coll rows (readItem item) = true := by
  rw [isNew, existsRow, Bool.not_eq_true', List.any_eq_false]
  intro r hr hmatch
  obtain ⟨title, htitle, hkey⟩ := (titleMatches_iff ht).mp hmatch
  exact hunused r hr title htitle hkey

theorem parsedItems_of_parsed (hparsed : isParsed coll (readItem item) = true) :
    parsedItems coll [item] = [readItem item] := by
  rw [parsedItems, List.map_singleton, List.filter_cons, if_pos hparsed, List.filter_nil]

theorem insertRows_unused (ht : item.title = some t)
    (hparsed : isParsed coll (readItem item) = true) (hunused : TitleUnused coll rows t) :
    insertRows coll now (parsedItems coll [item]) rows =
      rows ++ [newRow coll now (readItem item)] := by
  rw [insertRows, parsedItems_of_parsed hparsed, List.filter_cons,
    if_pos (isNew_of_unused ht hunused), List.filter_nil, List.map_singleton]

theorem insertRows_used (ht : item.title = some t)
    (hparsed : isParsed coll (readItem item) = true) {r : Row} (hr : r.title = some t) :
    insertRows coll now (parsedItems coll [item]) (rows ++ [r]) = rows ++ [r] := by
  have hold : ¬ isNew coll (rows ++ [r]) (readItem item) = true := by
    rw [isNew, Bool.not_eq_true', Bool.not_eq_false, existsRow, List.any_eq_true]
    exact ⟨r, List.mem_append_right _ List.mem_cons_self, (titleMatches_iff ht).mpr ⟨t, hr, rfl⟩⟩
  rw [insertRows, parsedItems_of_parsed hparsed, List.filter_cons, if_neg hold, List.filter_nil,
    List.map_nil, List.append_nil]

theorem insertStatus_of_title {r : Row} {title : Text} (h : r.title = some title) :
    insertStatus (some r) = ⟨"Skipped".toList, "SKIPPED_EXISTS".toList⟩ := by
  rw [insertStatus, Option.bind_some, h]
  rfl

theorem answer_unused (ht : item.title = some t)
    (hparsed : isParsed coll (readItem item) = true) (hunused : TitleUnused coll rows t)
    (c : Connection) :
    Receives .success
      (mariadbAnswer isRfc3339 (runProgram (mariadbProgram coll now item) rows (.ok c)).2) := by
  have hnone : rows.filter (titleMatches coll (readItem item)) = [] := by
    have hnew := isNew_of_unused ht hunused
    rw [isNew, existsRow, Bool.not_eq_true', List.any_eq_false] at hnew
    exact List.filter_eq_nil_iff.mpr hnew
  have hstatuses : statuses coll .insert (parsedItems coll [item]) rows = [insertStatus none] := by
    rw [statuses, parsedItems_of_parsed hparsed, leftJoin, List.flatMap_singleton, hnone]
    rfl
  rw [mariadbAnswer_eq, hstatuses, parseStatusRows_singleton isRfc3339 (insertStatus_short none)]
  exact ⟨_, rfl, rfl⟩

theorem answer_used (ht : item.title = some t) (hparsed : isParsed coll (readItem item) = true)
    (hunused : TitleUnused coll rows t) {r : Row} (hr : r.title = some t) (c : Connection) :
    Receives .skipped (mariadbAnswer isRfc3339
      (runProgram (mariadbProgram coll now item) (rows ++ [r]) (.ok c)).2) := by
  have hone : (rows ++ [r]).filter (titleMatches coll (readItem item)) = [r] := by
    have hnew := isNew_of_unused ht hunused
    rw [isNew, existsRow, Bool.not_eq_true', List.any_eq_false] at hnew
    rw [List.filter_append, List.filter_eq_nil_iff.mpr hnew, List.nil_append, List.filter_cons,
      if_pos ((titleMatches_iff ht).mpr ⟨t, hr, rfl⟩), List.filter_nil]
  have hstatuses : statuses coll .insert (parsedItems coll [item]) (rows ++ [r]) =
      [insertStatus (some r)] := by
    rw [statuses, parsedItems_of_parsed hparsed, leftJoin, List.flatMap_singleton, hone]
    rfl
  rw [mariadbAnswer_eq, hstatuses, parseStatusRows_singleton isRfc3339 (insertStatus_short _),
    insertStatus_of_title hr]
  exact ⟨_, rfl, rfl⟩

theorem status_of_receives {c : Connection} {status : CudStatus} (h : Receives status
      (mariadbAnswer isRfc3339 (runProgram (mariadbProgram coll now item) rows (.ok c)).2)) :
    ∃ s ∈ statuses coll .insert (parsedItems coll [item]) rows, s.result.status = status := by
  obtain ⟨r, hr, rfl⟩ := h
  rw [mariadbAnswer_eq] at hr
  rcases parseStatusRows_statusText isRfc3339 (statuses_short coll .insert _ rows) hr with
    hresults | ⟨hlong, _⟩
  · have hmem : r ∈ [r] := List.mem_cons_self
    rw [hresults] at hmem
    obtain ⟨s, hs, rfl⟩ := List.mem_map.mp hmem
    exact ⟨s, hs, rfl⟩
  · rw [List.length_singleton, maxBatchItems] at hlong
    omega

theorem parsed_of_receives {c : Connection} {status : CudStatus} (h : Receives status
      (mariadbAnswer isRfc3339 (runProgram (mariadbProgram coll now item) rows (.ok c)).2)) :
    isParsed coll (readItem item) = true := by
  obtain ⟨s, hs, _⟩ := status_of_receives isRfc3339 h
  by_contra hdropped
  have hnone : parsedItems coll [item] = [] := by
    rw [parsedItems, List.map_singleton, List.filter_cons, if_neg hdropped, List.filter_nil]
  rw [hnone] at hs
  cases hs

theorem not_success_of_used (ht : item.title = some t) {r : Row} (hr : r ∈ rows)
    {title : Text} (htitle : r.title = some title) (hkey : coll.key title = coll.key t)
    (c : Connection) :
    ¬ Receives .success
      (mariadbAnswer isRfc3339 (runProgram (mariadbProgram coll now item) rows (.ok c)).2) := by
  intro h
  have hparsed := parsed_of_receives isRfc3339 h
  obtain ⟨s, hs, hsuccess⟩ := status_of_receives isRfc3339 h
  rw [statuses, parsedItems_of_parsed hparsed, leftJoin, List.flatMap_singleton] at hs
  have hmatch : r ∈ rows.filter (titleMatches coll (readItem item)) :=
    List.mem_filter.mpr ⟨hr, (titleMatches_iff ht).mpr ⟨title, htitle, hkey⟩⟩
  cases hrows : rows.filter (titleMatches coll (readItem item)) with
  | nil =>
    rw [hrows] at hmatch
    cases hmatch
  | cons b rest =>
    rw [hrows] at hs
    obtain ⟨⟨t', n⟩, hn, rfl⟩ := List.mem_map.mp hs
    obtain ⟨b', hb', hpair⟩ := List.mem_map.mp hn
    obtain ⟨-, rfl⟩ := Prod.mk.inj hpair
    rw [← hrows] at hb'
    obtain ⟨title', htitle', _⟩ := (titleMatches_iff ht).mp (List.mem_filter.mp hb').2
    have hstatus : (insertStatus (some b')).result.status = .success := hsuccess
    rw [insertStatus_of_title htitle'] at hstatus
    exact absurd hstatus (by decide)

end Call

section Race

variable {n : Nat} {coll : Collation} {now : Fin n → Timestamp} {items : Fin n → AcceptedItem}
  {t : Text} {rows : List Row} {connections : Fin n → Connection} {p : List (Fin n)} {j : Fin n}

def after (coll : Collation) (now : Fin n → Timestamp) (items : Fin n → AcceptedItem)
    (rows : List Row) (connections : Fin n → Connection) (p : List (Fin n)) :
    System (Fin n) (List Row) Connection SqlError :=
  run (fun i => mariadbProgram coll (now i) (items i).val) (start rows connections) p

theorem count_le_of_append (h : ∀ i, (p ++ [j]).count i ≤ 8) (i : Fin n) : p.count i ≤ 8 :=
  Nat.le_trans ((List.sublist_append_left p [j]).count_le i) (h i)

theorem parsed_at_write (h : ∀ i, p.count i ≤ 8) (hcount : p.count j = 6) :
    ∃ results resultSet, (after coll now items rows connections p).session j =
      .ok ⟨some results, some (parsedItems coll [(items j).val]), resultSet⟩ := by
  have hlooked : Looked (fun i => mariadbProgram coll (now i) (items i).val) (fun _ => 5) rows
      connections p (after coll now items rows connections p) :=
    looked rows connections (fun i => mariadbProgram_oneLook coll (now i) (items i).val) h
  obtain ⟨q, _, _, hsession⟩ := hlooked.looked j (by omega)
  rw [hsession, hcount]
  exact session_before_write coll (now j) (items j).val _ (connections j)

theorem shared_step (h : ∀ i, (p ++ [j]).count i ≤ 8) :
    (after coll now items rows connections (p ++ [j])).shared =
      if p.count j = 6 then
        insertRows coll (now j) (parsedItems coll [(items j).val])
          (after coll now items rows connections p).shared
      else (after coll now items rows connections p).shared := by
  obtain ⟨st, hst⟩ : ∃ st, Steps (fun i => mariadbProgram coll (now i) (items i).val) p
      (after coll now items rows connections p) j st
      (after coll now items rows connections (p ++ [j])) := steps_run rows connections h
  by_cases hcount : p.count j = 6
  · rw [if_pos hcount]
    obtain ⟨results, resultSet, hsession⟩ := parsed_at_write (count_le_of_append h) hcount
    have hwrite : st = write coll (now j) .insert := by
      have hnext := hst.next
      rw [hcount] at hnext
      exact (Option.some.inj hnext).symm
    rw [hst.shared, hsession, hwrite]
    rfl
  · rw [if_neg hcount]
    exact hst.shared.trans (shared_of_ne_write hst.next hcount _)

theorem table_grows (coll : Collation) (now : Fin n → Timestamp) (items : Fin n → AcceptedItem)
    (rows : List Row) (connections : Fin n → Connection) (h : ∀ i, p.count i ≤ 8) :
    rows <+: (after coll now items rows connections p).shared := by
  induction p using List.reverseRecOn with
  | nil => exact List.prefix_rfl
  | append_singleton p j ih =>
    refine (ih (count_le_of_append h)).trans ?_
    rw [shared_step h]
    split
    · exact List.prefix_append _ _
    · exact List.prefix_rfl

theorem table_once (now : Fin n → Timestamp) (connections : Fin n → Connection)
    (ht : ∀ i, (items i).val.title = some t)
    (hparsed : ∀ i, isParsed coll (readItem (items i).val) = true)
    (hunused : TitleUnused coll rows t) (h : ∀ i, p.count i ≤ 8) :
    ((∀ i, p.count i ≤ 6) → (after coll now items rows connections p).shared = rows) ∧
      ((∃ i, 6 < p.count i) → ∃ r, r.title = some t ∧
        (after coll now items rows connections p).shared = rows ++ [r]) := by
  induction p using List.reverseRecOn with
  | nil => exact ⟨fun _ => rfl, fun ⟨i, hi⟩ => by simp at hi⟩
  | append_singleton p j ih =>
    obtain ⟨hnone, hsome⟩ := ih (count_le_of_append h)
    rw [shared_step h]
    by_cases hcount : p.count j = 6
    · rw [if_pos hcount]
      refine ⟨fun hlow => ?_, fun _ => ?_⟩
      · have hj := hlow j
        rw [count_append_singleton, if_pos rfl] at hj
        omega
      · by_cases hfirst : ∀ i, p.count i ≤ 6
        · rw [hnone hfirst, insertRows_unused (ht j) (hparsed j) hunused]
          exact ⟨_, ht j, rfl⟩
        · push Not at hfirst
          obtain ⟨r, hr, hrows⟩ := hsome hfirst
          rw [hrows, insertRows_used (ht j) (hparsed j) hr]
          exact ⟨r, hr, rfl⟩
    · rw [if_neg hcount]
      have hsame : ∀ i, (p ++ [j]).count i ≤ 6 ↔ p.count i ≤ 6 := by
        intro i
        rw [count_append_singleton]
        split
        · next hij =>
          rw [hij]
          omega
        · exact Iff.rfl
      refine ⟨fun hlow => hnone fun i => (hsame i).mp (hlow i), fun ⟨i, hi⟩ => hsome ⟨i, ?_⟩⟩
      have hi' := mt (hsame i).mpr (Nat.not_le.mpr hi)
      omega

theorem looksFirst_iff {schedule : List (Fin n)} {q : List (Fin n)} {i : Fin n}
    (hq : q ++ [i] <+: schedule) (hcount : q.count i = 5) :
    LooksFirst schedule i ↔ ∀ j, q.count j ≤ 6 := by
  have hcount' : (q ++ [i]).count i = 6 := by rw [count_append_singleton, if_pos rfl, hcount]
  constructor
  · rintro ⟨q', hq', hlook, hlow⟩ j
    rw [List.mem_inits] at hq'
    rcases List.prefix_or_prefix_of_prefix ((List.prefix_append q [i]).trans hq) hq' with
      hbefore | hafter
    · exact Nat.le_trans (hbefore.sublist.count_le j) (hlow j)
    · have hle := hafter.sublist.count_le i
      omega
  · intro hlow
    refine ⟨q ++ [i], (List.mem_inits ..).mpr hq, by omega, fun j => ?_⟩
    rw [count_append_singleton]
    split
    · next hji => rw [hji]; omega
    · exact hlow j

theorem session_at_look {schedule : List (Fin n)}
    (h : Interleaves (fun i => mariadbProgram coll (now i) (items i).val) schedule) (i : Fin n) :
    ∃ q, q ++ [i] <+: schedule ∧ q.count i = 5 ∧ (∀ j, q.count j ≤ 8) ∧
      (after coll now items rows connections schedule).session i =
        (runProgram (mariadbProgram coll (now i) (items i).val)
          (after coll now items rows connections q).shared (.ok (connections i))).2 := by
  obtain ⟨q, hq, hcount, hsession⟩ := session_of_look rows connections
    (fun i => mariadbProgram_oneLook coll (now i) (items i).val) h i
  refine ⟨q, hq, hcount, fun j => ?_, hsession⟩
  have hschedule : schedule.count j = 8 := h j
  have hle := ((List.prefix_append q [i]).trans hq).sublist.count_le j
  omega

theorem receives_of_unused (isRfc3339 : Text → Bool) (now : Fin n → Timestamp)
    (connections : Fin n → Connection) (ht : ∀ i, (items i).val.title = some t)
    (hunused : TitleUnused coll rows t)
    (hparsed : ∀ i, isParsed coll (readItem (items i).val) = true) {schedule : List (Fin n)}
    (h : Interleaves (fun i => mariadbProgram coll (now i) (items i).val) schedule) (i : Fin n) :
    Receives (if LooksFirst schedule i then .success else .skipped)
      (mariadbAnswer isRfc3339
        ((after coll now items rows connections schedule).session i)) := by
  obtain ⟨q, hq, hcount, hlow, hsession⟩ := session_at_look h i
  obtain ⟨hnone, hsome⟩ := table_once now connections ht hparsed hunused hlow
  rw [hsession]
  by_cases hfirst : ∀ j, q.count j ≤ 6
  · rw [if_pos ((looksFirst_iff hq hcount).mpr hfirst), hnone hfirst]
    exact answer_unused isRfc3339 (ht i) (hparsed i) hunused (connections i)
  · rw [if_neg (mt (looksFirst_iff hq hcount).mp hfirst)]
    push Not at hfirst
    obtain ⟨r, hr, hrows⟩ := hsome hfirst
    rw [hrows]
    exact answer_used isRfc3339 (ht i) (hparsed i) hunused hr (connections i)

/-- On MariaDB there is exactly one winner when the title is unused, every item is parsed
and exactly one client looks before the first insert, and only then. -/
theorem mariadb_oneWinner {n : Nat} (coll : Collation) (isRfc3339 : Text → Bool)
    {now : Fin (n + 1) → Timestamp} {items : Fin (n + 1) → AcceptedItem} {t : Text}
    (ht : ∀ i, (items i).val.title = some t) (rows : List Row)
    (connections : Fin (n + 1) → Connection) {schedule : List (Fin (n + 1))}
    (h : Interleaves (fun i => mariadbProgram coll (now i) (items i).val) schedule) :
    OneWinner
        (fun i => mariadbAnswer isRfc3339
          ((after coll now items rows connections schedule).session i))
        ((after coll now items rows connections schedule).shared.countP fun r =>
          r.title == some t) ↔
      TitleUnused coll rows t ∧ (∀ i, isParsed coll (readItem (items i).val) = true) ∧
        ∃! w, LooksFirst schedule w := by
  constructor
  · intro hwinner
    have hparsed : ∀ i, isParsed coll (readItem (items i).val) = true := by
      intro i
      obtain ⟨status, hstatus⟩ := hwinner.receives i
      obtain ⟨q, _, _, _, hsession⟩ := session_at_look h i
      rw [hsession] at hstatus
      exact parsed_of_receives isRfc3339 hstatus
    obtain ⟨⟨w, hw, hothers⟩, _⟩ := hwinner
    have hunused : TitleUnused coll rows t := by
      intro r hr title htitle hkey
      obtain ⟨q, _, _, hlow, hsession⟩ := session_at_look h w
      have hw' := hw
      dsimp only at hw'
      rw [hsession] at hw'
      have hmem := (table_grows coll now items rows connections hlow).subset hr
      exact not_success_of_used isRfc3339 (ht w) hmem htitle hkey (connections w) hw'
    refine ⟨hunused, hparsed, w, ?_, ?_⟩
    · by_contra hlate
      have hskipped := receives_of_unused isRfc3339 now connections ht hunused hparsed h w
      rw [if_neg hlate] at hskipped
      exact absurd (hw.unique hskipped) (by decide)
    · intro i hi
      by_contra hiw
      have hsuccess := receives_of_unused isRfc3339 now connections ht hunused hparsed h i
      rw [if_pos hi] at hsuccess
      exact absurd (hsuccess.unique (hothers i hiw)) (by decide)
  · rintro ⟨hunused, hparsed, w, hw, hunique⟩
    refine ⟨⟨w, ?_, fun i hi => ?_⟩, ?_⟩
    · have hsuccess := receives_of_unused isRfc3339 now connections ht hunused hparsed h w
      rwa [if_pos hw] at hsuccess
    · have hskipped := receives_of_unused isRfc3339 now connections ht hunused hparsed h i
      rwa [if_neg (mt (hunique i) hi)] at hskipped
    · have hlast : 6 < schedule.count 0 := by
        have hlength : schedule.count 0 = 8 := h 0
        omega
      obtain ⟨r, hr, hrows⟩ := (table_once now connections ht hparsed hunused
        fun i => Nat.le_of_eq (h i)).2 ⟨0, hlast⟩
      rw [hrows]
      exact countP_appended (fun q hq heq => hunused q hq t heq rfl) hr

end Race

end MariadbRaces
