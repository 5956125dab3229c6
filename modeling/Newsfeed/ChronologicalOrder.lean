import Newsfeed.Rfc3339Dates
import Newsfeed.PostgresBatchOrder
import Newsfeed.PostgresExtract
import Newsfeed.MariadbExtract

/-! # Listing the items of a batch by date

PostgreSQL orders by the local time of a date, MariaDB by its text. Neither is the instant
that the date denotes.
-/
namespace ChronologicalOrder

open TextOperations SqlLogic FeedModels CudHandlers RelationalTables OrderedSelection Rfc3339Dates
open PostgresConstraints

variable {items : List CudParams} {isRfc3339 : Text → Bool}

def dateOf (item : CudParams) : Option DateTime := item.publishDate.bind parseRfc3339

def Earlier (a b : CudParams) : Prop := ∃ d ∈ dateOf a, ∃ e ∈ dateOf b, d.instant < e.instant

/-- The dates of the items denote pairwise different instants. -/
structure Dated (items : List CudParams) : Prop where
  dates : ∀ item ∈ items, (dateOf item).isSome = true
  instants : (items.map fun item => (dateOf item).map DateTime.instant).Nodup

instance (a b : CudParams) : Decidable (Earlier a b) :=
  inferInstanceAs (Decidable (∃ d ∈ dateOf a, ∃ e ∈ dateOf b, d.instant < e.instant))

def ShowsEarlier (items : List CudParams) (r s : NewsFeedRow) : Prop :=
  ∃ a ∈ items, ∃ b ∈ items, r.titlereturn = a.title ∧ s.titlereturn = b.title ∧ Earlier a b

def Chronological (items : List CudParams) (listed : List NewsFeedRow) : Prop :=
  listed.Pairwise (ShowsEarlier items)

/-- The answer lists all the rows, by the instants of their dates. -/
def ListsByDate (items : List CudParams) (rows : List NewsFeedRow)
    (answer : Except SqlError (List NewsFeedRow)) : Prop :=
  ∃ listed, answer = .ok listed ∧ listed.Perm rows ∧ Chronological items listed

def ascending (limit : Option Nat) : ExtractParams := ⟨none, none, none, none, limit, some .asc⟩

theorem Earlier.asymm {a b : CudParams} (h : Earlier a b) : ¬ Earlier b a := by
  rcases h with ⟨d, hd, e, he, hlt⟩
  rintro ⟨e', he', d', hd', hlt'⟩
  cases hd.symm.trans hd'
  cases he.symm.trans he'
  exact lt_asymm hlt hlt'

theorem Dated.total (h : Dated items) {a b : CudParams} (ha : a ∈ items) (hb : b ∈ items)
    (hne : a ≠ b) : Earlier a b ∨ Earlier b a := by
  obtain ⟨d, hd⟩ := Option.isSome_iff_exists.mp (h.dates a ha)
  obtain ⟨e, he⟩ := Option.isSome_iff_exists.mp (h.dates b hb)
  have hinstant : d.instant ≠ e.instant := by
    intro heq
    refine hne (List.inj_on_of_nodup_map h.instants ha hb ?_)
    simp only [hd, he, Option.map_some, heq]
  rcases lt_or_gt_of_ne hinstant with hlt | hgt
  · exact Or.inl ⟨d, hd, e, he, hlt⟩
  · exact Or.inr ⟨e, he, d, hd, hgt⟩

theorem showsEarlier_iff (htitles : (items.filterMap CudParams.title).Nodup) {a b : CudParams}
    (ha : a ∈ items) (hb : b ∈ items) {t u : Text} (hat : a.title = some t)
    (hbu : b.title = some u) {r s : NewsFeedRow} (hr : r.titlereturn = some t)
    (hs : s.titlereturn = some u) : ShowsEarlier items r s ↔ Earlier a b := by
  constructor
  · rintro ⟨a', ha', b', hb', hra, hsb, h⟩
    rw [eq_of_title htitles ha ha' hat (hra.symm.trans hr),
      eq_of_title htitles hb hb' hbu (hsb.symm.trans hs)]
    exact h
  · intro h
    exact ⟨a, ha, b, hb, hr.trans hat.symm, hs.trans hbu.symm, h⟩

theorem titled {body : CudPayload} (hacc : Accepts body .insertFeed) :
    ∀ item ∈ body.items, ∃ t, item.title = some t := by
  intro item hitem
  exact required_title .insert (hacc.required item hitem)

theorem ShowsEarlier.asymm (htitles : (items.filterMap CudParams.title).Nodup)
    (htitled : ∀ item ∈ items, ∃ t, item.title = some t) {r s : NewsFeedRow}
    (h : ShowsEarlier items r s) : ¬ ShowsEarlier items s r := by
  rcases h with ⟨a, ha, b, hb, hra, hsb, hlt⟩
  obtain ⟨t, ht⟩ := htitled a ha
  obtain ⟨u, hu⟩ := htitled b hb
  rw [showsEarlier_iff htitles hb ha hu ht (hsb.trans hu) (hra.trans ht)]
  exact hlt.asymm

theorem listsByDate_iff {rows listed : List NewsFeedRow}
    {answer : Except SqlError (List NewsFeedRow)} (h : answer = .ok listed)
    (hperm : listed.Perm rows) :
    ListsByDate items rows answer ↔ Chronological items listed := by
  constructor
  · rintro ⟨listed', h', _, hchron⟩
    rw [h] at h'
    cases h'
    exact hchron
  · intro hchron
    exact ⟨listed, h, hperm, hchron⟩

section Postgres

open PostgresProcedures PostgresResponses PostgresBatchOrder PostgresExtract

/-- What a `timestamp` keeps of a date, with its fraction in microseconds. -/
def localTime (micros : Text → ℤ) (d : DateTime) : ℤ :=
  (d.localMinutes * 60 + d.second) * 1000000 + micros d.fraction

/-- `CAST(x AS timestamp)` ignores the offset in the string. -/
structure IgnoresOffset (sv : Server) (micros : Text → ℤ) : Prop where
  cast : ∀ t d, parseRfc3339 t = some d → ∀ z, sv.castTimestamp t = some z → z = localTime micros d

/-- The item has the earlier local time, or the same one and the title that sorts first. -/
def SortsFirst (sv : Server) (micros : Text → ℤ) (a b : CudParams) : Prop :=
  ∃ d ∈ dateOf a, ∃ e ∈ dateOf b, ∃ t ∈ a.title, ∃ u ∈ b.title,
    localTime micros d < localTime micros e ∨
      localTime micros d = localTime micros e ∧ compareText sv t u = .lt

instance (sv : Server) (micros : Text → ℤ) (a b : CudParams) :
    Decidable (SortsFirst sv micros a b) :=
  inferInstanceAs (Decidable (∃ d ∈ dateOf a, ∃ e ∈ dateOf b, ∃ t ∈ a.title, ∃ u ∈ b.title, _))

def newTable (sv : Server) : Newsfeed sv := ⟨[], List.Pairwise.nil⟩

variable {sv : Server} {micros : Text → ℤ} {now : Timestamp}

structure Stores (sv : Server) (item : CudParams) (r : Row) : Prop where
  title : item.title = some r.title
  date : item.publishDate.bind sv.castTimestamp = some r.publishDate

theorem stores_of_written {item : CudParams} {p : ParsedItem} {r : Row} (h : Reads sv item p)
    (hr : WrittenFor now p r) : Stores sv item r := by
  rcases hr with ⟨title, feedurl, date, ht, _, hd, rfl⟩
  refine ⟨h.title.symm.trans ht, ?_⟩
  have hcast := h.publishDate
  rw [hd] at hcast
  cases hs : item.publishDate with
  | none =>
    rw [hs, castDate] at hcast
    cases hcast
  | some s =>
    rw [hs, castDate] at hcast
    split at hcast
    · cases hcast
    · next z hz =>
      cases hcast
      exact hz

theorem Stores.localTime (h : IgnoresOffset sv micros) {item : CudParams} {r : Row}
    (hr : Stores sv item r) {d : DateTime} (hd : dateOf item = some d) :
    r.publishDate = localTime micros d := by
  have hdate := hr.date
  cases hs : item.publishDate with
  | none =>
    rw [hs] at hdate
    cases hdate
  | some s =>
    rw [hs] at hdate
    rw [dateOf, hs] at hd
    exact h.cast s d hd _ hdate

theorem rowOrder_iff_sortsFirst (h : IgnoresOffset sv micros) {a b : CudParams} {r s : Row}
    (hr : Stores sv a r) (hs : Stores sv b s) {d e : DateTime} (hd : dateOf a = some d)
    (he : dateOf b = some e) (hkey : titleKey sv r ≠ titleKey sv s) :
    rowOrder sv .asc r s ↔ SortsFirst sv micros a b := by
  have htitle : compareText sv r.title s.title ≠ .eq := fun heq => hkey (sv.collate_eq _ _ heq)
  have hfirst : SortsFirst sv micros a b ↔ r.publishDate < s.publishDate ∨
      r.publishDate = s.publishDate ∧ compareText sv r.title s.title = .lt := by
    simp [SortsFirst, hd, he, hr.title, hs.title, hr.localTime h hd, hs.localTime h he]
  have hcompare : (compareRows sv r s).isLE = true ↔ compare r.publishDate s.publishDate = .lt ∨
      compare r.publishDate s.publishDate = .eq ∧ compareText sv r.title s.title = .lt := by
    rw [compareRows, Ordering.isLE_then_iff_or]
    refine or_congr_right (and_congr_right fun _ => ?_)
    rw [Ordering.isLE_then_iff_or]
    exact or_iff_left fun heq => htitle heq.1
  rw [hfirst, rowOrder, hcompare, compare_lt_iff_lt, compare_eq_iff_eq]

structure StoresWinners (items : List CudParams) (t : Newsfeed sv) : Prop where
  stores : ∀ r ∈ t.rows, ∃ item, Wins sv [] items item ∧ Stores sv item r
  stored : ∀ item, Wins sv [] items item → ∃ r ∈ t.rows, Stores sv item r

/-- A batch inserted into the empty table leaves a row for every item that is the first with
its title. -/
theorem insert_stores {body : CudPayload} (hacc : Accepts body .insertFeed)
    {results : List CudResult}
    (h : (cudFeed isRfc3339 (postgres sv now) .insertFeed body.items (newTable sv)).2 =
      .ok results) :
    StoresWinners body.items
      (cudFeed isRfc3339 (postgres sv now) .insertFeed body.items (newTable sv)).1 := by
  have htitles := checkDuplicates_ok.mp hacc.duplicates
  obtain ⟨statuses, hst, _⟩ := statement_of_cudFeed sv isRfc3339 h
  obtain ⟨new, hrows, _, hmem, _, hfind⟩ :=
    insert_wins body.accepted htitles (newTable sv).primaryKey hst
  have hstores : ∀ r ∈ new, ∃ item, Wins sv [] body.items item ∧ Stores sv item r := by
    intro r hr
    obtain ⟨item, p, hwin, hread, hwritten⟩ := (hmem r).mp hr
    exact ⟨item, hwin, stores_of_written hread hwritten⟩
  refine ⟨by rwa [hrows], fun item hwin => ?_⟩
  rw [hrows]
  have hfound := (hfind item hwin.mem).mpr hwin
  rw [find?_joinsTitle_isSome] at hfound
  rcases hfound with ⟨t, ht, htitle⟩
  obtain ⟨r, hr, rfl⟩ := List.mem_map.mp ht
  obtain ⟨winner, hwinner, hr'⟩ := hstores r hr
  rw [eq_of_title htitles hwin.mem hwinner.mem htitle hr'.title]
  exact ⟨r, hr, hr'⟩

theorem satisfies_nothing (r : Row) : satisfies sv ⟨none, none, none, none⟩ r = true := rfl

theorem extractRows_ascending {limit : Option Nat} (hlimit : ∀ n ∈ limit, 1 ≤ n ∧ n ≤ 100)
    {rows : List Row} (hcovers : rows.length ≤ limit.getD 25) :
    extractRows sv (ascending limit) rows = .ok (rows.insertionSort (rowOrder sv .asc)) := by
  have hnul : nulFree (ascending limit) := by
    intro x hx t ht
    simp only [ascending, List.mem_cons, List.not_mem_nil, or_false, or_self] at hx
    rw [hx] at ht
    cases ht
  have heff : effectiveLimit ((ascending limit).limit.map (Nat.toDigits 10)) =
      .ok (limit.getD 25) := by
    cases hl : limit with
    | none => rfl
    | some n =>
      obtain ⟨h1, h100⟩ := hlimit n hl
      exact effectiveLimit_of_range ⟨n, by omega⟩ h1
  have hsort : effectiveSort sv ((ascending limit).sort.map SortOrder.asStr) = .asc := by
    have hasc : sv.lower "asc".toList = "asc".toList :=
      sv.lower_letters _ (List.all_iff_forall_prop.mp (by decide))
    have hkept : ((ascending limit).sort.map SortOrder.asStr).bind (sanitise isLetter 255) =
        some "asc".toList := by
      show (some "asc".toList).bind (sanitise isLetter 255) = some "asc".toList
      decide
    rw [effectiveSort, hkept]
    dsimp only
    rw [hasc]
    decide
  rw [extractRows_of_regular sv hnul heff rfl rfl, hsort]
  have hall : rows.filter (satisfies sv (paramFilters (ascending limit))) = rows :=
    List.filter_eq_self.mpr fun r _ => satisfies_nothing r
  rw [hall, List.take_of_length_le (by rwa [List.length_insertionSort])]

theorem Stores.shows (htitles : (items.filterMap CudParams.title).Nodup) {a b : CudParams}
    (ha : a ∈ items) (hb : b ∈ items) {r s : Row} (hr : Stores sv a r) (hs : Stores sv b s) :
    ShowsEarlier items (selectRow sv r) (selectRow sv s) ↔ Earlier a b :=
  showsEarlier_iff htitles ha hb hr.title hs.title rfl rfl

theorem Stores.ordered (hcast : IgnoresOffset sv micros)
    (htitles : (items.filterMap CudParams.title).Nodup) (hdated : Dated items) {t : Newsfeed sv}
    {a b : CudParams} (ha : a ∈ items) (hb : b ∈ items) {r s : Row} (hr : r ∈ t.rows)
    (hs : s ∈ t.rows) (hra : Stores sv a r) (hsb : Stores sv b s) (hlt : Earlier a b) :
    r ≠ s ∧ (rowOrder sv .asc r s ↔ SortsFirst sv micros a b) := by
  have hne : r ≠ s := by
    rintro rfl
    rw [eq_of_title htitles ha hb hra.title hsb.title] at hlt
    exact hlt.asymm hlt
  obtain ⟨d, hd⟩ := Option.isSome_iff_exists.mp (hdated.dates a ha)
  obtain ⟨e, he⟩ := Option.isSome_iff_exists.mp (hdated.dates b hb)
  refine ⟨hne, rowOrder_iff_sortsFirst hcast hra hsb hd he fun hkey => ?_⟩
  exact hne (t.primaryKey.eq_of_mem hr hs hkey)

theorem StoresWinners.total {t : Newsfeed sv} (h : StoresWinners items t)
    (htitles : (items.filterMap CudParams.title).Nodup) (hdated : Dated items) {r s : Row}
    (hr : r ∈ t.rows) (hs : s ∈ t.rows) (hne : r ≠ s) :
    ShowsEarlier items (selectRow sv r) (selectRow sv s) ∨
      ShowsEarlier items (selectRow sv s) (selectRow sv r) := by
  obtain ⟨a, ha, hra⟩ := h.stores r hr
  obtain ⟨b, hb, hsb⟩ := h.stores s hs
  have hdiff : a ≠ b := by
    rintro rfl
    refine hne (t.primaryKey.eq_of_mem hr hs ?_)
    rw [titleKey, titleKey, Option.some.inj (hra.title.symm.trans hsb.title)]
  rw [hra.shows htitles ha.mem hb.mem hsb, hsb.shows htitles hb.mem ha.mem hra]
  exact hdated.total ha.mem hb.mem hdiff

theorem StoresWinners.sorted_iff {t : Newsfeed sv} (h : StoresWinners items t)
    (hcast : IgnoresOffset sv micros) (htitles : (items.filterMap CudParams.title).Nodup)
    (htitled : ∀ item ∈ items, ∃ u, item.title = some u) (hdated : Dated items) :
    Chronological items ((t.rows.insertionSort (rowOrder sv .asc)).map (selectRow sv)) ↔
      ∀ a b, Wins sv [] items a → Wins sv [] items b → Earlier a b →
        SortsFirst sv micros a b := by
  rw [Chronological, List.pairwise_map, insertionSort_ordered_iff t.primaryKey.nodup
    (fun r s => ShowsEarlier.asymm htitles htitled)
    fun r hr s hs => h.total htitles hdated hr hs]
  constructor
  · intro hsorted a b ha hb hlt
    obtain ⟨r, hr, hra⟩ := h.stored a ha
    obtain ⟨s, hs, hsb⟩ := h.stored b hb
    obtain ⟨_, horder⟩ := Stores.ordered hcast htitles hdated ha.mem hb.mem hr hs hra hsb hlt
    rw [← horder]
    exact (hsorted r hr s hs ((hra.shows htitles ha.mem hb.mem hsb).mpr hlt)).1
  · intro hfirst r hr s hs hshown
    obtain ⟨a, ha, hra⟩ := h.stores r hr
    obtain ⟨b, hb, hsb⟩ := h.stores s hs
    have hlt := (hra.shows htitles ha.mem hb.mem hsb).mp hshown
    obtain ⟨hne, horder⟩ := Stores.ordered hcast htitles hdated ha.mem hb.mem hr hs hra hsb hlt
    have hrs := horder.mpr (hfirst a b ha hb hlt)
    exact ⟨hrs, fun hsr => absurd (rowOrder_discerns sv .asc t r hr s hs hrs hsr) hne⟩

/-- The batch is listed by date exactly when every inserted item sorts before those that
denote later instants. -/
theorem postgres_chronological_iff (hcast : IgnoresOffset sv micros) {body : CudPayload}
    (hacc : Accepts body .insertFeed) (hdated : Dated body.items) {results : List CudResult}
    (hinsert : (cudFeed isRfc3339 (postgres sv now) .insertFeed body.items (newTable sv)).2 =
      .ok results)
    {limit : Option Nat} (hlimit : ∀ n ∈ limit, 1 ≤ n ∧ n ≤ 100)
    (hcovers : (cudFeed isRfc3339 (postgres sv now) .insertFeed body.items
      (newTable sv)).1.rows.length ≤ limit.getD 25) :
    ListsByDate body.items
        ((cudFeed isRfc3339 (postgres sv now) .insertFeed body.items (newTable sv)).1.rows.map
          (selectRow sv))
        (extractFeed sv (ascending limit)
          (cudFeed isRfc3339 (postgres sv now) .insertFeed body.items (newTable sv)).1.rows) ↔
      ∀ a b, Wins sv [] body.items a → Wins sv [] body.items b → Earlier a b →
        SortsFirst sv micros a b := by
  have htitles := checkDuplicates_ok.mp hacc.duplicates
  have hstores := insert_stores hacc hinsert
  generalize (cudFeed isRfc3339 (postgres sv now) .insertFeed body.items (newTable sv)).1 = t at *
  have hanswer : extractFeed sv (ascending limit) t.rows =
      .ok ((t.rows.insertionSort (rowOrder sv .asc)).map (selectRow sv)) := by
    rw [extractFeed, extractRows_ascending hlimit hcovers]
    rfl
  rw [listsByDate_iff hanswer ((List.perm_insertionSort _ _).map _)]
  exact hstores.sorted_iff hcast htitles (titled hacc) hdated

/-- Dates of one zone, with no leap second and no more digits than a `timestamp` keeps. -/
structure OneZone (micros : Text → ℤ) (items : List CudParams) : Prop where
  offset : ∀ a ∈ items, ∀ b ∈ items, ∀ d ∈ dateOf a, ∀ e ∈ dateOf b, d.offset = e.offset
  second : ∀ item ∈ items, ∀ d ∈ dateOf item, d.second < 60
  exact : ∀ item ∈ items, ∀ d ∈ dateOf item, (micros d.fraction : ℚ) = d.fractionValue * 1000000

theorem OneZone.sortsFirst (h : OneZone micros items)
    (htitled : ∀ item ∈ items, ∃ t, item.title = some t) {a b : CudParams} (ha : a ∈ items)
    (hb : b ∈ items) (hlt : Earlier a b) : SortsFirst sv micros a b := by
  rcases hlt with ⟨d, hd, e, he, hinstant⟩
  obtain ⟨t, ht⟩ := htitled a ha
  obtain ⟨u, hu⟩ := htitled b hb
  refine ⟨d, hd, e, he, t, ht, u, hu, Or.inl ?_⟩
  have hlocal := DateTime.localSeconds_lt (h.offset a ha b hb d hd e he) (h.second a ha d hd)
    hinstant
  rw [DateTime.localSeconds, DateTime.localSeconds] at hlocal
  have hrat : (localTime micros d : ℚ) < localTime micros e := by
    rw [localTime, localTime]
    push_cast
    rw [h.exact a ha d hd, h.exact b hb e he]
    linarith
  exact_mod_cast hrat

/-- A batch of one zone is listed by date. -/
theorem postgres_one_zone (hcast : IgnoresOffset sv micros) {body : CudPayload}
    (hacc : Accepts body .insertFeed) (hdated : Dated body.items)
    (hzone : OneZone micros body.items) {results : List CudResult}
    (hinsert : (cudFeed isRfc3339 (postgres sv now) .insertFeed body.items (newTable sv)).2 =
      .ok results)
    {limit : Option Nat} (hlimit : ∀ n ∈ limit, 1 ≤ n ∧ n ≤ 100)
    (hcovers : (cudFeed isRfc3339 (postgres sv now) .insertFeed body.items
      (newTable sv)).1.rows.length ≤ limit.getD 25) :
    ListsByDate body.items
      ((cudFeed isRfc3339 (postgres sv now) .insertFeed body.items (newTable sv)).1.rows.map
        (selectRow sv))
      (extractFeed sv (ascending limit)
        (cudFeed isRfc3339 (postgres sv now) .insertFeed body.items (newTable sv)).1.rows) := by
  rw [postgres_chronological_iff hcast hacc hdated hinsert hlimit hcovers]
  intro a b ha hb hlt
  exact hzone.sortsFirst (titled hacc) ha.mem hb.mem hlt

end Postgres

section Mariadb

open MariadbProcedures MariadbExtract

variable (sv : Server)

/-- The items that the parsing statement keeps, which are all inserted. -/
def kept (items : List CudParams) : List CudParams :=
  items.filter fun item => isParsed sv.coll (readItem item)

def compareItems (a b : CudParams) : Ordering :=
  (compareNullable sv a.publishDate b.publishDate).then <|
    (compareNullable sv a.title b.title).then <|
      (compareNullable sv (nullifBlank sv.coll a.imageUrl) (nullifBlank sv.coll b.imageUrl)).then <|
        (compareNullable sv a.feedUrl b.feedUrl).then
          (compareNullable sv (nullifBlank sv.coll a.actualUrl) (nullifBlank sv.coll b.actualUrl))

/-- The text of the date, or else what else the rows are ordered by, comes first. -/
def ListedFirst (items : List CudParams) (a b : CudParams) : Prop :=
  compareItems sv a b = .lt ∨ compareItems sv a b = .eq ∧ [a, b].Sublist items

instance (items : List CudParams) (a b : CudParams) : Decidable (ListedFirst sv items a b) :=
  inferInstanceAs (Decidable (_ ∨ _ ∧ _))

def itemOrder (a b : CudParams) : Prop := (compareItems sv a b).isLE = true

instance : DecidableRel (itemOrder sv) := fun _ _ => inferInstanceAs (Decidable (_ = true))

theorem compareItems_trans : Std.TransCmp (compareItems sv) :=
  transCmp_comap (compareRows_trans sv) fun item => newRow sv.coll 0 (readItem item)

instance : Std.Total (itemOrder sv) where
  total := fun a b => Std.Total.total (r := rowOrder sv .asc) (newRow sv.coll 0 (readItem a))
    (newRow sv.coll 0 (readItem b))

instance : IsTrans CudParams (itemOrder sv) where
  trans := fun _ _ _ hab hbc => (compareItems_trans sv).isLE_trans hab hbc

theorem pair_sublist_kept {a b : CudParams} (ha : a ∈ kept sv items) (hb : b ∈ kept sv items) :
    [a, b].Sublist (kept sv items) ↔ [a, b].Sublist items := by
  refine ⟨fun h => h.trans List.filter_sublist, fun h => ?_⟩
  have hfilter := h.filter fun item => isParsed sv.coll (readItem item)
  rwa [List.filter_eq_self.mpr (by simp [List.of_mem_filter ha, List.of_mem_filter hb])] at hfilter

theorem itemOrder_iff_listedFirst {a b : CudParams} :
    (itemOrder sv a b ∧ (itemOrder sv b a → [a, b].Sublist items)) ↔ ListedFirst sv items a b := by
  have hswap : compareItems sv b a = (compareItems sv a b).swap := (compareItems_trans sv).eq_swap
  simp only [itemOrder, ListedFirst, hswap]
  cases compareItems sv a b <;> simp

theorem insert_kept (now : Timestamp) (c : Connection) (items : List CudParams) :
    (cudFeed isRfc3339 (mariadb sv.coll now c) .insertFeed items []).1 =
      (kept sv items).map fun item => newRow sv.coll now (readItem item) := by
  have hrows := cudFeed_rows sv.coll isRfc3339 now c .insert items []
  rw [CudMode.optionMode] at hrows
  have hnew : (parsedItems sv.coll items).filter (isNew sv.coll []) = parsedItems sv.coll items :=
    List.filter_eq_self.mpr fun _ _ => rfl
  rw [hrows, written, insertRows, List.nil_append, hnew, parsedItems, List.filter_map, List.map_map]
  rfl

theorem callSort_ascending (hasc : sv.coll.eq "asc".toList "desc".toList = false)
    (limit : Option Nat) : callSort sv (ascending limit) = .asc := by
  have hkept : sanitise sv letters 255 "asc".toList = some "asc".toList :=
    sanitise_word (List.all_iff_forall_prop.mp (by decide)) (by decide)
      ⟨'a', by decide, by decide⟩
  have hsort : effectiveSort sv (some "asc".toList) = "asc".toList := by
    rw [effectiveSort]
    split
    · rfl
    · rfl
  have hbind : ((ascending limit).sort.map SortOrder.asStr).bind (sanitise sv letters 255) =
      some "asc".toList := hkept
  rw [callSort, hbind, hsort, orderOfSort, equalsText, sqlEq_some_some, hasc]
  rfl

theorem limit_fits : ∀ n : Fin 101, isTooLong ("limit", some (Nat.toDigits 10 n)) = false := by
  decide

theorem tooLong_ascending {limit : Option Nat} (hlimit : ∀ n ∈ limit, 1 ≤ n ∧ n ≤ 100) :
    tooLong (ascending limit) = none := by
  have hnumber : isTooLong ("limit", limit.map (Nat.toDigits 10)) = false := by
    cases hl : limit with
    | none => rfl
    | some n => exact limit_fits ⟨n, by have := hlimit n hl; omega⟩
  rw [tooLong, List.find?_eq_none]
  intro p hp
  simp only [ascending, List.mem_cons, List.not_mem_nil, or_false] at hp
  rcases hp with rfl | rfl | rfl | rfl | rfl | rfl | rfl
  · decide
  · decide
  · decide
  · decide
  · decide
  · simpa using hnumber
  · decide

theorem mariadb_ascending (hasc : sv.coll.eq "asc".toList "desc".toList = false)
    {limit : Option Nat} (hlimit : ∀ n ∈ limit, 1 ≤ n ∧ n ≤ 100) {rows : List Row}
    (hcovers : rows.length ≤ (callLimit sv (ascending limit)).toNat) (v : UserVariables) :
    (extractRows sv (ascending limit) v rows).2 = .ok (rows.insertionSort (rowOrder sv .asc)) := by
  have hmissing : (wholePart sv (paramFilters sv (ascending limit))).missing = 0 := rfl
  rw [extractRows_of_fits sv (tooLong_ascending hlimit), if_pos hmissing,
    callSort_ascending sv hasc]
  have hall : rows.filter (satisfies sv (paramFilters sv (ascending limit))) = rows :=
    List.filter_eq_self.mpr fun r _ => rfl
  rw [select, hall, List.take_of_length_le (by rwa [List.length_insertionSort])]

/-- The batch is listed by date exactly when every inserted item is listed before those that
denote later instants, by the texts of their dates first. -/
theorem mariadb_chronological_iff (hasc : sv.coll.eq "asc".toList "desc".toList = false)
    {body : CudPayload} (hacc : Accepts body .insertFeed) (hdated : Dated body.items)
    (now : Timestamp) (c : Connection) (v : UserVariables) {limit : Option Nat}
    (hlimit : ∀ n ∈ limit, 1 ≤ n ∧ n ≤ 100)
    (hcovers : (cudFeed isRfc3339 (mariadb sv.coll now c) .insertFeed body.items []).1.length ≤
      (callLimit sv (ascending limit)).toNat) :
    ListsByDate body.items
        ((cudFeed isRfc3339 (mariadb sv.coll now c) .insertFeed body.items []).1.map (selectRow sv))
        (extractFeed sv (ascending limit) v
          (cudFeed isRfc3339 (mariadb sv.coll now c) .insertFeed body.items []).1) ↔
      ∀ a ∈ kept sv body.items, ∀ b ∈ kept sv body.items, Earlier a b →
        ListedFirst sv body.items a b := by
  have htitles := checkDuplicates_ok.mp hacc.duplicates
  have hrows : (cudFeed isRfc3339 (mariadb sv.coll now c) .insertFeed body.items []).1 = _ :=
    insert_kept sv now c body.items
  have hanswer : extractFeed sv (ascending limit) v
      (cudFeed isRfc3339 (mariadb sv.coll now c) .insertFeed body.items []).1 =
        .ok (((cudFeed isRfc3339 (mariadb sv.coll now c) .insertFeed body.items
          []).1.insertionSort (rowOrder sv .asc)).map (selectRow sv)) := by
    rw [extractFeed, mariadb_ascending sv hasc hlimit hcovers]
    rfl
  rw [listsByDate_iff hanswer ((List.perm_insertionSort _ _).map _)]
  let row (item : CudParams) : Row := newRow sv.coll now (readItem item)
  have hsorted : ((kept sv body.items).map row).insertionSort (rowOrder sv .asc) =
      ((kept sv body.items).insertionSort (itemOrder sv)).map row :=
    (List.map_insertionSort (itemOrder sv) (rowOrder sv .asc) row _ fun a _ b _ => Iff.rfl).symm
  rw [hrows, hsorted, List.map_map, Chronological, List.pairwise_map]
  have hshows : ∀ {a b : CudParams}, a ∈ body.items → b ∈ body.items →
      (ShowsEarlier body.items (selectRow sv (row a)) (selectRow sv (row b)) ↔ Earlier a b) := by
    intro a b ha hb
    obtain ⟨t, ht⟩ := titled hacc a ha
    obtain ⟨u, hu⟩ := titled hacc b hb
    exact showsEarlier_iff htitles ha hb ht hu ht hu
  have hpairs : ((kept sv body.items).insertionSort (itemOrder sv)).Pairwise
      (fun a b => ShowsEarlier body.items (selectRow sv (row a)) (selectRow sv (row b))) ↔
      ((kept sv body.items).insertionSort (itemOrder sv)).Pairwise Earlier := by
    refine List.Pairwise.iff_of_mem fun {a b} ha hb => hshows ?_ ?_
    · exact List.mem_of_mem_filter ((List.mem_insertionSort _).mp ha)
    · exact List.mem_of_mem_filter ((List.mem_insertionSort _).mp hb)
  have hnodup : (kept sv body.items).Nodup := (hdated.instants.of_map _).filter _
  refine hpairs.trans ((insertionSort_ordered_iff hnodup (fun a b h => h.asymm) ?_).trans ?_)
  · intro a ha b hb hne
    exact hdated.total (List.mem_of_mem_filter ha) (List.mem_of_mem_filter hb) hne
  · refine forall₂_congr fun a ha => forall₂_congr fun b hb => imp_congr_right fun _ => ?_
    rw [pair_sublist_kept sv ha hb]
    exact itemOrder_iff_listedFirst sv

end Mariadb

open PostgresProcedures PostgresBatchOrder in
/-- `sort=asc` lists an inserted batch by the instants of its dates exactly when the local times,
on PostgreSQL, and the texts, on MariaDB, of the dates are in this order. On PostgreSQL they are
for dates of one zone (`postgres_one_zone`). -/
theorem chronological_iff (pg : Server) {micros : Text → ℤ} (hcast : IgnoresOffset pg micros)
    (my : MariadbExtract.Server) (hasc : my.coll.eq "asc".toList "desc".toList = false)
    (isRfc3339 : Text → Bool) {body : CudPayload} (hacc : Accepts body .insertFeed)
    (hdated : Dated body.items) (pgNow : Timestamp) (myNow : MariadbProcedures.Timestamp)
    (c : MariadbProcedures.Connection) (v : MariadbExtract.UserVariables) {limit : Option Nat}
    (hlimit : ∀ n ∈ limit, 1 ≤ n ∧ n ≤ 100) :
    (∀ results, (cudFeed isRfc3339 (postgres pg pgNow) .insertFeed body.items (newTable pg)).2 =
        .ok results →
      (cudFeed isRfc3339 (postgres pg pgNow) .insertFeed body.items (newTable pg)).1.rows.length ≤
        limit.getD 25 →
      (ListsByDate body.items
          ((cudFeed isRfc3339 (postgres pg pgNow) .insertFeed body.items
            (newTable pg)).1.rows.map (PostgresExtract.selectRow pg))
          (PostgresExtract.extractFeed pg (ascending limit)
            (cudFeed isRfc3339 (postgres pg pgNow) .insertFeed body.items
              (newTable pg)).1.rows) ↔
        ∀ a b, Wins pg [] body.items a → Wins pg [] body.items b → Earlier a b →
          SortsFirst pg micros a b)) ∧
    ((cudFeed isRfc3339 (MariadbProcedures.mariadb my.coll myNow c) .insertFeed
        body.items []).1.length ≤ (MariadbExtract.callLimit my (ascending limit)).toNat →
      (ListsByDate body.items
          ((cudFeed isRfc3339 (MariadbProcedures.mariadb my.coll myNow c) .insertFeed body.items
            []).1.map (MariadbExtract.selectRow my))
          (MariadbExtract.extractFeed my (ascending limit) v
            (cudFeed isRfc3339 (MariadbProcedures.mariadb my.coll myNow c) .insertFeed body.items
              []).1) ↔
        ∀ a ∈ kept my body.items, ∀ b ∈ kept my body.items, Earlier a b →
          ListedFirst my body.items a b)) := by
  constructor
  · intro results hinsert hcovers
    exact postgres_chronological_iff hcast hacc hdated hinsert hlimit hcovers
  · intro hcovers
    exact mariadb_chronological_iff my hasc hacc hdated myNow c v hlimit hcovers

def roundedMicros (fraction : Text) : ℤ :=
  (2 * Nat.ofDigitChars 10 fraction 0 * 10 ^ 6 + 10 ^ fraction.length : Nat) /
    (2 * 10 ^ fraction.length : Nat)

def samplePostgres : PostgresProcedures.Server :=
  { PostgresProcedures.sampleServer with
    castTimestamp := fun t => (parseRfc3339 t).map (localTime roundedMicros) }

theorem samplePostgres_ignoresOffset : IgnoresOffset samplePostgres roundedMicros where
  cast := by
    intro t d hd z hz
    have hcast : (parseRfc3339 t).map (localTime roundedMicros) = some z := hz
    rw [hd] at hcast
    exact (Option.some.inj hcast).symm

theorem ascii_letters_visible (t : Text) (h : ∃ c ∈ t, Char.isAlpha c = true) :
    Collation.ascii.key t ≠ Collation.ascii.key [] := Collation.ascii_letters_visible t h

theorem sameLower_refl (c : Char) : (c.toLower == c.toLower) = true := beq_self_eq_true _

def sampleMariadb : MariadbExtract.Server where
  coll := Collation.ascii
  letters_visible := ascii_letters_visible
  lower := lowerAscii
  sameLetter := fun a b => a.toLower == b.toLower
  sameLetter_refl := sameLower_refl
  dateFormat := fun t =>
    some (t.take 10 ++ ' ' :: (t.drop 11).take 8 ++ ".000000".toList)

def datedItem (title date : String) : CudParams :=
  { sampleItem title with publishDate := some date.toList }

def sampleConnection : MariadbProcedures.Connection := ⟨none, none, []⟩

/-- Eight o'clock and noon, in UTC. -/
def oneZone : CudPayload :=
  PostgresBatchOrder.bodyOf
    [datedItem "Noon" "2026-08-01T12:00:00Z", datedItem "Eight" "2026-08-01T08:00:00Z"] (by decide)

/-- Eight o'clock in UTC, and noon five hours east of it, which is seven o'clock. -/
def twoZones : CudPayload :=
  PostgresBatchOrder.bodyOf
    [datedItem "Noon" "2026-08-01T12:00:00+05:00", datedItem "Eight" "2026-08-01T08:00:00Z"]
    (by decide)

theorem oneZone_accepted : Accepts oneZone .insertFeed := ⟨rfl, by decide⟩

theorem twoZones_accepted : Accepts twoZones .insertFeed := ⟨rfl, by decide⟩

theorem oneZone_dated : Dated oneZone.items := ⟨by decide, by decide⟩

theorem twoZones_dated : Dated twoZones.items := ⟨by decide, by decide⟩

section Sample

open PostgresProcedures PostgresBatchOrder

def sampleStatuses : List StatusRow := [insertStatus (some []), insertStatus (some [])]

theorem sample_inserted {rows : List Row} {items : List CudParams}
    (h : cudStatement samplePostgres noon .insertFeed (items.map CudParams.toJson) [] =
      .ok (rows, sampleStatuses)) :
    (cudFeed sampleRfc3339 (postgres samplePostgres noon) .insertFeed items
        (newTable samplePostgres)).1.rows = rows ∧
      (cudFeed sampleRfc3339 (postgres samplePostgres noon) .insertFeed items
        (newTable samplePostgres)).2 = .ok (sampleStatuses.map StatusRow.result) :=
  cudFeed_of_statement samplePostgres sampleRfc3339 (t := newTable samplePostgres) _ h

theorem oneZone_inserted : ∃ rows, rows.length = 2 ∧ cudStatement samplePostgres noon .insertFeed
    (oneZone.items.map CudParams.toJson) [] = .ok (rows, sampleStatuses) :=
  ⟨_, rfl, rfl⟩

theorem twoZones_inserted : ∃ rows, rows.length = 2 ∧ cudStatement samplePostgres noon .insertFeed
    (twoZones.items.map CudParams.toJson) [] = .ok (rows, sampleStatuses) :=
  ⟨_, rfl, rfl⟩

theorem sample_covers {items : List CudParams} (h : items.length ≤ 25) :
    (cudFeed sampleRfc3339 (MariadbProcedures.mariadb sampleMariadb.coll 0 sampleConnection)
      .insertFeed items []).1.length ≤
        (MariadbExtract.callLimit sampleMariadb (ascending none)).toNat := by
  have hlimit : (MariadbExtract.callLimit sampleMariadb (ascending none)).toNat = 25 := rfl
  rw [insert_kept, List.length_map, hlimit]
  exact (List.length_filter_le _ _).trans h

def sampleVariables : MariadbExtract.UserVariables :=
  ⟨none, [], none, none, none, none, none, none, none⟩

/-- Both engines list the batch of one zone by date. -/
theorem one_zone_listed :
    ListsByDate oneZone.items
        ((cudFeed sampleRfc3339 (postgres samplePostgres noon) .insertFeed oneZone.items
          (newTable samplePostgres)).1.rows.map (PostgresExtract.selectRow samplePostgres))
        (PostgresExtract.extractFeed samplePostgres (ascending none)
          (cudFeed sampleRfc3339 (postgres samplePostgres noon) .insertFeed oneZone.items
            (newTable samplePostgres)).1.rows) ∧
      ListsByDate oneZone.items
        ((cudFeed sampleRfc3339 (MariadbProcedures.mariadb sampleMariadb.coll 0 sampleConnection)
          .insertFeed oneZone.items []).1.map (MariadbExtract.selectRow sampleMariadb))
        (MariadbExtract.extractFeed sampleMariadb (ascending none) sampleVariables
          (cudFeed sampleRfc3339 (MariadbProcedures.mariadb sampleMariadb.coll 0 sampleConnection)
            .insertFeed oneZone.items []).1) := by
  rcases oneZone_inserted with ⟨rows, hlength, hst⟩
  obtain ⟨hrows, hresults⟩ := sample_inserted hst
  have hcovers : (cudFeed sampleRfc3339 (postgres samplePostgres noon) .insertFeed oneZone.items
      (newTable samplePostgres)).1.rows.length ≤ (none : Option Nat).getD 25 := by
    rw [hrows, hlength]
    decide
  obtain ⟨hpg, hmy⟩ := chronological_iff samplePostgres samplePostgres_ignoresOffset sampleMariadb
    (by decide) sampleRfc3339 oneZone_accepted oneZone_dated noon 0 sampleConnection
    sampleVariables (show ∀ n ∈ (none : Option Nat), 1 ≤ n ∧ n ≤ 100 by simp)
  refine ⟨(hpg _ hresults hcovers).mpr fun a b ha hb => ?_,
    (hmy (sample_covers (by decide))).mpr (by decide +kernel)⟩
  have hall : ∀ a ∈ oneZone.items, ∀ b ∈ oneZone.items, Earlier a b →
      SortsFirst samplePostgres roundedMicros a b := by decide +kernel
  exact hall a ha.mem b hb.mem

/-- Neither engine lists the batch of two zones by date. -/
theorem two_zones_misordered :
    Accepts twoZones .insertFeed ∧ Dated twoZones.items ∧
      ¬ ListsByDate twoZones.items
        ((cudFeed sampleRfc3339 (postgres samplePostgres noon) .insertFeed twoZones.items
          (newTable samplePostgres)).1.rows.map (PostgresExtract.selectRow samplePostgres))
        (PostgresExtract.extractFeed samplePostgres (ascending none)
          (cudFeed sampleRfc3339 (postgres samplePostgres noon) .insertFeed twoZones.items
            (newTable samplePostgres)).1.rows) ∧
      ¬ ListsByDate twoZones.items
        ((cudFeed sampleRfc3339 (MariadbProcedures.mariadb sampleMariadb.coll 0 sampleConnection)
          .insertFeed twoZones.items []).1.map (MariadbExtract.selectRow sampleMariadb))
        (MariadbExtract.extractFeed sampleMariadb (ascending none) sampleVariables
          (cudFeed sampleRfc3339 (MariadbProcedures.mariadb sampleMariadb.coll 0 sampleConnection)
            .insertFeed twoZones.items []).1) := by
  rcases twoZones_inserted with ⟨rows, hlength, hst⟩
  obtain ⟨hrows, hresults⟩ := sample_inserted hst
  have hcovers : (cudFeed sampleRfc3339 (postgres samplePostgres noon) .insertFeed twoZones.items
      (newTable samplePostgres)).1.rows.length ≤ (none : Option Nat).getD 25 := by
    rw [hrows, hlength]
    decide
  refine ⟨twoZones_accepted, twoZones_dated, ?_, ?_⟩
  · rw [postgres_chronological_iff samplePostgres_ignoresOffset twoZones_accepted twoZones_dated
      hresults (by simp) hcovers]
    intro hall
    have hfirst := hall (datedItem "Noon" "2026-08-01T12:00:00+05:00")
      (datedItem "Eight" "2026-08-01T08:00:00Z") ⟨"noon".toList, by simp, rfl⟩
      ⟨"eight".toList, by simp, rfl⟩ (by decide)
    exact absurd hfirst (by decide)
  · rw [mariadb_chronological_iff sampleMariadb (by decide) twoZones_accepted twoZones_dated 0
      sampleConnection sampleVariables (by simp) (sample_covers (by decide))]
    intro hall
    have hfirst := hall (datedItem "Noon" "2026-08-01T12:00:00+05:00") (by decide)
      (datedItem "Eight" "2026-08-01T08:00:00Z") (by decide) (by decide)
    exact absurd hfirst (by decide)

end Sample

end ChronologicalOrder
