import Newsfeed.FeedPages
import Newsfeed.MariadbQueries
import Newsfeed.MariadbStatuses
import Newsfeed.MariadbStore
import Newsfeed.MssqlStore
import Newsfeed.OnePassOmission
import Newsfeed.PostgresStore
import Newsfeed.SuppliedFilters

/-! # Each engine returns the page of the store -/
namespace EnginePages

open TextOperations SqlLogic RelationalTables FeedModels CudHandlers ExtractFilters OrderedSelection
open ExtractPages FeedStore FeedPages
open SuppliedFilters (isNullable)

variable {U : Set Entry} {map : QueryMap} {es : List Entry}

section Postgres

open PostgresProcedures PostgresExtract PostgresStore

variable {sv : PostgresProcedures.Server}

abbrev PostgresGiven (sv : PostgresProcedures.Server) : Set Entry → ExtractParams → Prop :=
  Given (fun f => PostgresExtract.sanitise isKept f.maxLength)
    (fun t => decide (sv.lower t = "null".toList)) (citextEq sv)

def postgresRanking (sv : PostgresProcedures.Server) : Ranking where
  dates := fun a b => compare (sv.castTimestamp a) (sv.castTimestamp b)
  titles := PostgresExtract.compareText sv

def postgresDate (sv : PostgresProcedures.Server) (d : Text) : Option Text :=
  (sv.castTimestamp d).map sv.toChar

theorem postgres_answerable (h : PostgresGiven sv U (.fromMap map)) :
    Answerable sv (.fromMap map) := by
  have hfilters := h.filters fun f => SuppliedFilters.postgres_rewritten f (.fromMap map)
  have hnone : ∀ f : FilterField, isNullable f = true →
      misspelledNulls sv (f.supplied (.fromMap map)) = 0 := by
    intro f hf
    cases ht : f.supplied (.fromMap map) with
    | none => rfl
    | some t => exact if_neg fun hnull => of_decide_eq_false (h.notNull f hf t ht) hnull.1
  have hnul : ∀ f : FilterField, ∀ t ∈ f.supplied (.fromMap map), '\x00' ∉ t := by
    intro f t ht hmem
    have hkept := sanitise_fixed isKept_blank (h.kept f t ht) _ hmem
    rw [isKept_nul] at hkept
    cases hkept
  refine ⟨?_, ?_, ?_⟩
  · intro x hx
    simp only [List.mem_cons, List.not_mem_nil, or_false] at hx
    rcases hx with rfl | rfl | rfl | rfl
    · exact hnul .title
    · exact hnul .imageUrl
    · exact hnul .feedUrl
    · exact hnul .actualUrl
  · rw [hfilters]
    exact hnone .imageUrl rfl
  · rw [hfilters]
    exact hnone .actualUrl rfl

theorem postgres_satisfies (h : PostgresGiven sv U (.fromMap map)) {r : PostgresProcedures.Row}
    {e : Entry} (hr : Stands (PostgresStore.Represents sv) U r e) :
    satisfies sv (PostgresExtract.paramFilters (.fromMap map)) r = asked (.fromMap map) e := by
  rw [h.filters fun f => SuppliedFilters.postgres_rewritten f (.fromMap map)]
  unfold satisfies given
  rw [hr.1.title, hr.1.imageurl, hr.1.feedurl, hr.1.actualurl]
  refine asked_of_tests (fun f t ht => h.holds hr.2 ht) (fun f hf t ht => ?_) (fun _ => rfl)
    fun _ => rfl
  exact (if_neg (of_decide_eq_false (h.notNull f hf t ht))).trans (h.holds hr.2 ht)

theorem postgres_ranked (hU : PostgresStore.Faithful sv U) {r r' : PostgresProcedures.Row}
    {e e' : Entry} (hr : Stands (PostgresStore.Represents sv) U r e)
    (hr' : Stands (PostgresStore.Represents sv) U r' e') (hkey : e.title = e'.title → e = e') :
    PostgresExtract.compareRows sv r r' = (postgresRanking sv).compare e e' := by
  have hdates : compare r.publishDate r'.publishDate =
      compare (sv.castTimestamp e.publishDate) (sv.castTimestamp e'.publishDate) := by
    rw [hr.1.publishDate, hr'.1.publishDate]
    rfl
  rw [PostgresExtract.compareRows, hdates, hr.1.title, hr'.1.title, hr.1.imageurl, hr'.1.imageurl,
    hr.1.feedurl, hr'.1.feedurl, hr.1.actualurl, hr'.1.actualurl]
  refine then_titles fun htitles => ?_
  have hsame := hkey ((titles_eq hU hr.2 hr'.2).mp (sv.collate_eq _ _ htitles))
  rw [hsame, compare_self (compareNullable_trans sv), compare_self (compareText_trans sv),
    compare_self (compareNullable_trans sv)]
  rfl

/-- PostgreSQL returns the page of the store. -/
theorem postgres_page (hU : PostgresStore.Faithful sv U) (h : PostgresGiven sv U (.fromMap map))
    {rows : List PostgresProcedures.Row} (hholds : Holds (PostgresStore.Represents sv) U rows es) :
    PostgresExtract.extractFeed sv (.fromMap map) rows =
      .ok ((page (postgresRanking sv) map es).map (shown (postgresDate sv))) := by
  have hsort : pageOrder sv (.fromMap map) = askedOrder (.fromMap map) := by
    unfold askedOrder
    cases hs : (ExtractParams.fromMap map).sort with
    | none => exact pageOrder_asc (by simp [hs])
    | some order =>
      cases order with
      | asc => exact pageOrder_asc (by simp [hs])
      | desc => exact pageOrder_desc hs
  have hselect := select_holds hholds (k := postgresRanking sv) (n := pageLimit map)
    (p := satisfies sv (PostgresExtract.paramFilters (.fromMap map))) (q := asked (.fromMap map))
    (o := rowOrder sv) (fun _ _ => Iff.rfl) (fun _ _ => Iff.rfl)
    (fun r e hr => postgres_satisfies h hr) (fun r e r' e' hr hr' => postgres_ranked hU hr hr')
    (askedOrder (.fromMap map))
  rw [PostgresExtract.extractFeed, extractRows_of_answerable (postgres_answerable h), hsort]
  refine congrArg Except.ok (rows_shown hselect fun r e hr => ?_)
  rw [PostgresExtract.selectRow, shown, postgresDate, hr.title, hr.imageurl, hr.feedurl,
    hr.actualurl, hr.publishDate, Option.map_some]

end Postgres

/-- A collation ignores the case of ASCII letters, takes no text with a digit for empty, and
neither a letter nor a digit for a blank. -/
structure PlainCollation (coll : Collation) (lower : Text → Text) : Prop where
  lower : ∀ t, coll.key (lower t) = coll.key t
  letters : ∀ a b : Text, (∀ c ∈ a ++ b, Char.isAlpha c = true) →
    (coll.key a = coll.key b ↔ lowerAscii a = lowerAscii b)
  digits : ∀ t, (∃ c ∈ t, Char.isDigit c = true) → coll.key t ≠ coll.key []
  solid : ∀ c, Char.isAlphanum c = true → coll.key ['a', c, 'b'] ≠ coll.key ['a', ' ', 'b']

section Mariadb

open MariadbProcedures MariadbExtract MariadbStore MariadbQueries

variable {sv : MariadbExtract.Server}

abbrev MariadbGiven (sv : MariadbExtract.Server) : Set Entry → ExtractParams → Prop :=
  Given (fun f => MariadbExtract.sanitise sv filterClass f.maxLength) (MariadbExtract.asksNull sv)
    sv.coll.eq

def mariadbRanking (sv : MariadbExtract.Server) : Ranking where
  dates := MariadbExtract.compareText sv
  titles := MariadbExtract.compareText sv

theorem caseInsensitive (h : PlainCollation sv.coll sv.lower) : CaseInsensitive sv :=
  ⟨h.lower, h.letters⟩

theorem limit_digits : ∀ n : Fin 101,
    (Nat.toDigits 10 n).all (fun c => decide (c ∈ limitClass)) = true ∧
      trimSpaces (collapseRuns (Nat.toDigits 10 n)) = Nat.toDigits 10 n ∧
      castSigned (Nat.toDigits 10 n) = n ∧ (Nat.toDigits 10 n).any Char.isDigit = true ∧
      utf8Len (Nat.toDigits 10 n) ≤ maxTextBytes := by
  decide

theorem mariadb_limit (h : PlainCollation sv.coll sv.lower) :
    callLimit sv (.fromMap map) = pageLimit map := by
  have hrange := pageLimit_range map
  obtain ⟨hdigits, htrimmed, hcast, hdigit, _⟩ :=
    limit_digits ⟨pageLimit map, Nat.lt_succ_of_le hrange.2⟩
  simp only at hdigits htrimmed hcast hdigit
  have hkept : replaceEach (fun c => !inClass sv limitClass c) ' '
      (Nat.toDigits 10 (pageLimit map)) = Nat.toDigits 10 (pageLimit map) := by
    refine (List.map_congr_left fun c hc => ?_).trans (List.map_id _)
    have hmem := inClass_of_mem sv (of_decide_eq_true (List.all_eq_true.mp hdigits c hc))
    simp only [hmem, Bool.not_true, Bool.false_eq_true, ↓reduceIte, id_eq]
  have hvisible : sv.coll.eq (Nat.toDigits 10 (pageLimit map)) [] = false := by
    rw [← Bool.not_eq_true, Collation.eq_iff]
    exact h.digits _ (List.any_eq_true.mp hdigit)
  have hlimit : sanitiseLimit sv (Nat.toDigits 10 (pageLimit map)) =
      some (Nat.toDigits 10 (pageLimit map)) := by
    rw [sanitiseLimit, omitEach, hkept, htrimmed, nullIfBlank, hvisible]
    rfl
  rw [callLimit, fromMap_limit, Option.map_some, Option.bind_some, hlimit, effectiveLimit, hcast,
    if_pos (by omega)]

theorem mariadb_order (h : PlainCollation sv.coll sv.lower) (params : ExtractParams) :
    callSort sv params = askedOrder params := by
  have hword : ∀ t : Text, t = "asc".toList ∨ t = "desc".toList →
      MariadbExtract.sanitise sv letters 255 t = some t := by
    rintro t (rfl | rfl)
    · exact sanitise_word (List.all_iff_forall_prop.mp (by decide)) (by decide)
        ⟨'a', by decide, by decide⟩
    · exact sanitise_word (List.all_iff_forall_prop.mp (by decide)) (by decide)
        ⟨'d', by decide, by decide⟩
  have hplain : ∀ t : Text, plainOrder sv (some t) =
      if sv.coll.eq t "desc".toList then .desc else .asc := fun _ => rfl
  rw [callSort, orderOfSort_effectiveSort (caseInsensitive h), askedOrder]
  cases params.sort with
  | none => rfl
  | some order =>
    cases order with
    | asc =>
      have hasc : (some SortOrder.asc.asStr).bind (MariadbExtract.sanitise sv letters 255) =
          some "asc".toList := hword _ (Or.inl rfl)
      rw [Option.map_some, hasc, hplain, asc_ne_desc (caseInsensitive h)]
      rfl
    | desc =>
      have hdesc : (some SortOrder.desc.asStr).bind (MariadbExtract.sanitise sv letters 255) =
          some "desc".toList := hword _ (Or.inr rfl)
      rw [Option.map_some, hdesc, hplain, Collation.eq_refl]
      rfl

theorem mariadb_satisfies (h : MariadbGiven sv U (.fromMap map)) {r : MariadbProcedures.Row}
    {e : Entry} (hr : Stands MariadbStore.Represents U r e) :
    MariadbExtract.satisfies sv (MariadbExtract.paramFilters sv (.fromMap map)) r =
      asked (.fromMap map) e := by
  rw [h.filters fun f => SuppliedFilters.mariadb_rewritten sv f (.fromMap map)]
  unfold MariadbExtract.satisfies given
  rw [hr.1.title, hr.1.imageurl, hr.1.feedurl, hr.1.actualurl]
  refine asked_of_tests (fun f t ht => h.holds hr.2 ht) (fun f hf t ht => ?_) (fun _ => rfl)
    fun _ => rfl
  exact (if_neg (by simp [h.notNull f hf t ht])).trans (h.holds hr.2 ht)

theorem utf8Len_le (t : Text) : utf8Len t ≤ 4 * t.length := by
  induction t with
  | nil => exact Nat.zero_le _
  | cons c t ih =>
    have hc := c.utf8Size_le_four
    rw [MariadbStatuses.utf8Len_cons, List.length_cons]
    omega

theorem kept_fits {t : Text} {maxLength : ℕ} (hmax : maxLength ≤ 768)
    (h : MariadbExtract.sanitise sv filterClass maxLength t = some t) :
    utf8Len t ≤ maxTextBytes := by
  have hlength : t.length ≤ maxLength := by
    unfold MariadbExtract.sanitise MariadbExtract.nullIfBlank at h
    split at h
    · cases h
    · have hsub := (trimBy_sublist isSpace ((omitEach sv filterClass t).take maxLength)).length_le
      have heq := congrArg List.length (Option.some.inj h)
      rw [trimSpaces] at heq
      have htake := List.length_take_le maxLength (omitEach sv filterClass t)
      omega
  have hbytes := utf8Len_le t
  unfold maxTextBytes
  omega

theorem mariadb_fits (h : MariadbGiven sv U (.fromMap map)) :
    tooLong (.fromMap map) = none := by
  have hfilter : ∀ (f : FilterField) (name : String),
      isTooLong (name, f.supplied (.fromMap map)) = false := by
    intro f name
    cases ht : f.supplied (.fromMap map) with
    | none => rfl
    | some t =>
      have hmax : f.maxLength ≤ 768 := by cases f <;> decide
      have hfits := kept_fits hmax (h.kept f t ht)
      simpa [isTooLong] using hfits
  have hlimit : isTooLong ("limit", some (Nat.toDigits 10 (pageLimit map))) = false := by
    obtain ⟨_, _, _, _, hfits⟩ :=
      limit_digits ⟨pageLimit map, Nat.lt_succ_of_le (pageLimit_range map).2⟩
    simpa [isTooLong] using hfits
  have hsort :
      isTooLong ("sort", (ExtractParams.fromMap map).sort.map SortOrder.asStr) = false := by
    cases (ExtractParams.fromMap map).sort with
    | none => rfl
    | some order => cases order <;> decide
  have htitle := hfilter .title "title"
  have himage := hfilter .imageUrl "imageurl"
  have hfeed := hfilter .feedUrl "feedurl"
  have hactual := hfilter .actualUrl "actualurl"
  unfold FilterField.supplied at htitle himage hfeed hactual
  rw [tooLong, List.find?_eq_none]
  intro p hp
  simp only [List.mem_cons, List.not_mem_nil, or_false] at hp
  rcases hp with rfl | rfl | rfl | rfl | rfl | rfl | rfl
  · decide
  · simpa using htitle
  · simpa using himage
  · simpa using hfeed
  · simpa using hactual
  · rw [fromMap_limit]
    simpa using hlimit
  · simpa using hsort

theorem mariadb_ranked (hU : MariadbStore.Faithful sv.coll U) {r r' : MariadbProcedures.Row}
    {e e' : Entry} (hr : Stands MariadbStore.Represents U r e)
    (hr' : Stands MariadbStore.Represents U r' e') (hkey : e.title = e'.title → e = e') :
    MariadbExtract.compareRows sv r r' = (mariadbRanking sv).compare e e' := by
  rw [MariadbExtract.compareRows, hr.1.publishdate, hr'.1.publishdate, hr.1.title, hr'.1.title,
    hr.1.imageurl, hr'.1.imageurl, hr.1.feedurl, hr'.1.feedurl, hr.1.actualurl, hr'.1.actualurl]
  refine then_titles fun htitles => ?_
  have hkeys : sv.coll.key e.title = sv.coll.key e'.title := Std.LawfulEqCmp.eq_of_compare htitles
  have htitle := hU.titles (Set.mem_insert_of_mem _ (title_mem hr.2))
    (Set.mem_insert_of_mem _ (title_mem hr'.2)) hkeys
  rw [hkey htitle, compare_self (MariadbExtract.compareNullable_trans sv),
    compare_self (MariadbExtract.compareNullable_trans sv),
    compare_self (MariadbExtract.compareNullable_trans sv)]
  rfl

/-- MariaDB returns the page of the store, whatever the connection has been used for. -/
theorem mariadb_page (hU : MariadbStore.Faithful sv.coll U)
    (hplain : PlainCollation sv.coll sv.lower) (h : MariadbGiven sv U (.fromMap map))
    (v : UserVariables)
    {rows : List MariadbProcedures.Row} (hholds : Holds MariadbStore.Represents U rows es) :
    MariadbExtract.extractFeed sv (.fromMap map) v rows =
      .ok ((page (mariadbRanking sv) map es).map (shown sv.dateFormat)) := by
  have hselect := select_holds hholds (k := mariadbRanking sv) (n := pageLimit map)
    (p := MariadbExtract.satisfies sv (MariadbExtract.paramFilters sv (.fromMap map)))
    (q := asked (.fromMap map)) (o := MariadbExtract.rowOrder sv) (fun _ _ => Iff.rfl)
    (fun _ _ => Iff.rfl) (fun r e hr => mariadb_satisfies h hr)
    (fun r e r' e' hr hr' => mariadb_ranked hU hr hr') (askedOrder (.fromMap map))
  rw [MariadbExtract.extractFeed, extractRows_of_fits sv (mariadb_fits h),
    if_pos (wholePart_missing (caseInsensitive hplain) _), mariadb_order hplain,
    mariadb_limit hplain, Int.toNat_natCast]
  refine congrArg Except.ok (rows_shown hselect fun r e hr => ?_)
  rw [MariadbExtract.selectRow, shown, hr.title, hr.imageurl, hr.feedurl, hr.actualurl,
    hr.publishdate, Option.bind_some]

end Mariadb

section Mssql

open MssqlProcedures MssqlExtract MssqlStore OmitCharacters OnePassOmission FallibleOperations

variable {sv : ReadingServer}

def mssqlSanitise (sv : ReadingServer) (f : FilterField) (t : Text) : Option Text :=
  match MssqlExtract.sanitise sv omitTitle f.maxLength (some t) with
  | .error _ => none
  | .ok u => u.map decode

abbrev MssqlGiven (sv : ReadingServer) : Set Entry → ExtractParams → Prop :=
  Given (mssqlSanitise sv) (fun t => MssqlExtract.asksNull sv (some t))
    (MssqlProcedures.textEq sv.toServer)

def mssqlRanking (sv : ReadingServer) : Ranking where
  dates := fun a b => compare (sv.tryCast a) (sv.tryCast b)
  titles := MssqlExtract.compareText sv

def mssqlDate (sv : ReadingServer) (d : Text) : Option Text := (sv.tryCast d).map sv.format

def isAlphanumeric (u : CodeUnit) : Bool :=
  decide (decode [u] = [Char.ofNat u.toNat]) && (Char.ofNat u.toNat).isAlphanum

/-- A text of listed letters and digits, as the function sees it. -/
abbrev Listed (t : Text) (characters : NVarChar) : Prop :=
  (∃ u ∈ encode t, isBlank u = false) ∧ decode (encode t) = t ∧
    len (encode t) ≤ maxAggregate ∧ onePass (encode t) characters = encode t ∧
    (keptInput (encode t) characters).all isAlphanumeric = true

theorem noPair_of_alphanumeric (h : PlainCollation sv.coll sv.lower) {s : NVarChar}
    (hs : s.all isAlphanumeric = true) : hasOtherPair sv.coll s = false := by
  have hsolid : ∀ u, isAlphanumeric u = true → matchesBlank sv.coll u = false := by
    intro u hu
    rw [isAlphanumeric, Bool.and_eq_true, decide_eq_true_eq] at hu
    rw [matchesBlank, hu.1, ← Bool.not_eq_true, Collation.eq_iff]
    exact h.solid _ hu.2
  induction s with
  | nil => rfl
  | cons u us ih =>
    rw [List.all_cons, Bool.and_eq_true] at hs
    rw [hasOtherPair, hsolid u hs.1, ih hs.2]
    rfl

theorem omitted_kept (h : PlainCollation sv.coll sv.lower) {t : Text} {characters : NVarChar}
    (hlist : sv.coll.eq (decode characters) [] = false) (htext : sv.coll.eq t [] = false)
    (hlisted : Listed t characters) :
    omitCharacters sv.coll (encode t) characters = .ok (some (encode t)) := by
  obtain ⟨hblank, hdecode, hlen, hone, hall⟩ := hlisted
  rw [omitCharacters_eq hblank (by rw [hdecode, htext]) hlist (noPair_of_alphanumeric h hall),
    if_neg (Nat.not_lt.mpr hlen), hone]

theorem mssql_word (h : PlainCollation sv.coll sv.lower) {t : Text} {characters : NVarChar}
    (hlist : ∃ c ∈ decode characters, Char.isAlpha c = true)
    (htext : ∃ c ∈ t, Char.isAlpha c = true) (hlisted : Listed t characters)
    (htrim : trimBlanks (substring (encode t) 1 255) = encode t) :
    MssqlExtract.sanitise sv characters 255 (some t) = .ok (some (encode t)) := by
  have hvisible : ∀ u : Text, (∃ c ∈ u, Char.isAlpha c = true) → sv.coll.eq u [] = false := by
    intro u hu
    rw [← Bool.not_eq_true, Collation.eq_iff]
    exact sv.letters_visible u hu
  have hkept := omitted_kept h (hvisible _ hlist) (hvisible t htext) hlisted
  simp only [MssqlExtract.sanitise, hkept, Except.map, Option.bind_some, htrim,
    OmitCharacters.nullIfBlank, hlisted.2.1, hvisible t htext, Bool.false_eq_true, ↓reduceIte]

theorem mssql_optionMode (h : PlainCollation sv.coll sv.lower) :
    MssqlExtract.sanitise sv omitOptionMode 255 (some OptionMode.extractFeed.asStr.toList) =
      .ok (some (encode "extractNewsFeed".toList)) :=
  mssql_word h ⟨'a', by decide, by decide⟩ ⟨'e', by decide, by decide⟩ (by decide) (by decide)

theorem mssql_digits : ∀ n : Fin 101, 1 ≤ n.val →
    Listed (Nat.toDigits 10 n) omitLimit ∧
    (Nat.toDigits 10 n).any Char.isDigit = true ∧
    trimBlanks (encode (Nat.toDigits 10 n)) = encode (Nat.toDigits 10 n) ∧
    castInt (encode (Nat.toDigits 10 n)) = .ok n := by
  decide

theorem mssql_limit (h : PlainCollation sv.coll sv.lower) {n : ℕ} (hn : 1 ≤ n ∧ n ≤ 100) :
    ∃ s, MssqlExtract.sanitiseLimit sv (some (Nat.toDigits 10 n)) = .ok s ∧
      MssqlExtract.effectiveLimit s = .ok n := by
  obtain ⟨hlisted, hdigit, htrim, hcast⟩ := mssql_digits ⟨n, Nat.lt_succ_of_le hn.2⟩ hn.1
  simp only at hdigit htrim hcast
  have hvisible : ∀ u : Text, (∃ c ∈ u, Char.isDigit c = true) → sv.coll.eq u [] = false := by
    intro u hu
    rw [← Bool.not_eq_true, Collation.eq_iff]
    exact h.digits u hu
  have hdigits := hvisible _ (List.any_eq_true.mp hdigit)
  have hkept := omitted_kept h (hvisible (decode omitLimit) ⟨'0', by decide, by decide⟩) hdigits
    hlisted
  refine ⟨some (encode (Nat.toDigits 10 n)), ?_, ?_⟩
  · simp only [MssqlExtract.sanitiseLimit, hkept, Except.map, Option.bind_some, htrim,
      OmitCharacters.nullIfBlank, hlisted.2.1, hdigits, Bool.false_eq_true, ↓reduceIte]
  · simp only [MssqlExtract.effectiveLimit, hcast, Except.map, Nat.one_le_cast, Nat.cast_le_ofNat,
      hn, and_self, ↓reduceIte, Int.toNat_natCast]

theorem mssql_order (h : PlainCollation sv.coll sv.lower) (params : ExtractParams) :
    ∃ s, MssqlExtract.sanitise sv omitSort 255 (params.sort.map SortOrder.asStr) = .ok s ∧
      MssqlExtract.effectiveSort sv s = askedOrder params := by
  have hlist : ∃ c ∈ decode omitSort, Char.isAlpha c = true := ⟨'a', by decide, by decide⟩
  have hapart : sv.coll.eq "asc".toList "desc".toList = false := by
    have hkeys := h.letters "asc".toList "desc".toList (List.all_iff_forall_prop.mp (by decide))
    rw [← Bool.not_eq_true, Collation.eq_iff, hkeys]
    decide
  have hlower : ∀ t u : Text, sv.coll.eq (sv.lower t) u = sv.coll.eq t u := by
    intro t u
    rw [Collation.eq, h.lower, Collation.eq]
  have hsort : ∀ t : Text, decode (encode t) = t → sv.coll.eq t "asc".toList = true ∨
      sv.coll.eq t "desc".toList = true → MssqlExtract.effectiveSort sv (some (encode t)) =
        if sv.coll.eq t "desc".toList then .desc else .asc := by
    intro t hdecode hknown
    have hequals : ∀ (u : Text) (w : String), MssqlExtract.equalsText sv (some u) w =
        Truth.ofBool (sv.coll.eq u w.toList) := fun _ _ => rfl
    simp only [MssqlExtract.effectiveSort, Option.map_some, hdecode, hequals, hlower]
    cases hdesc : sv.coll.eq t "desc".toList with
    | true => cases sv.coll.eq t "asc".toList <;> rfl
    | false =>
      rw [hknown.resolve_right (by rw [hdesc]; exact Bool.false_ne_true)]
      rfl
  unfold askedOrder
  cases params.sort with
  | none => exact ⟨none, rfl, rfl⟩
  | some order =>
    cases order with
    | asc =>
      refine ⟨_, mssql_word h hlist ⟨'a', by decide, by decide⟩ (by decide) (by decide), ?_⟩
      exact (hsort SortOrder.asc.asStr (by decide) (Or.inl (Collation.eq_refl _ _))).trans
        (if_neg (by rw [SortOrder.asStr, hapart]; exact Bool.false_ne_true))
    | desc =>
      refine ⟨_, mssql_word h hlist ⟨'d', by decide, by decide⟩ (by decide) (by decide), ?_⟩
      exact (hsort SortOrder.desc.asStr (by decide) (Or.inr (Collation.eq_refl _ _))).trans
        (if_pos (Collation.eq_refl _ _))

theorem mssql_filters (h : MssqlGiven sv U (.fromMap map)) :
    MssqlExtract.paramFilters sv (.fromMap map) = .ok (given (.fromMap map)) := by
  have hone : ∀ f : FilterField, (MssqlExtract.sanitise sv omitTitle f.maxLength
      (f.supplied (.fromMap map))).map (Option.map decode) = .ok (f.supplied (.fromMap map)) := by
    intro f
    cases ht : f.supplied (.fromMap map) with
    | none => rfl
    | some t =>
      have hkept := h.kept f t ht
      unfold mssqlSanitise at hkept
      cases hs : MssqlExtract.sanitise sv omitTitle f.maxLength (some t) with
      | error e =>
        rw [hs] at hkept
        cases hkept
      | ok u =>
        rw [hs] at hkept
        exact congrArg Except.ok hkept
  exact filters_eq_ok.mpr ⟨hone .title, hone .imageUrl, hone .feedUrl, hone .actualUrl⟩

theorem mssql_matches (h : MssqlGiven sv U (.fromMap map)) {r : MssqlProcedures.Row} {e : Entry}
    (hr : Stands (MssqlStore.Represents sv.toServer) U r e) :
    MssqlExtract.matchesWhere sv (given (.fromMap map)) r = asked (.fromMap map) e := by
  have htests : ∀ f : FilterField, ∀ t ∈ f.supplied (.fromMap map), f.value e.item = some t ↔
      ∃ u, f.value e.item = some u ∧ MssqlProcedures.textEq sv.toServer u t = true := by
    intro f t ht
    constructor
    · intro hu
      exact ⟨t, hu, by rw [h.exact f t ht e hr.2 t hu, decide_eq_true_eq]⟩
    · rintro ⟨u, hu, heq⟩
      rw [h.exact f t ht e hr.2 u hu, decide_eq_true_eq] at heq
      rw [hu, heq]
  have hnull : MssqlExtract.asksNull sv (ExtractParams.fromMap map).imageUrl = false := by
    cases ht : (ExtractParams.fromMap map).imageUrl with
    | none => rfl
    | some t => exact h.notNull .imageUrl rfl t ht
  rw [Bool.eq_iff_iff, MssqlExtract.matchesWhere_iff, asked_iff, hr.1.title, hr.1.imageurl,
    hr.1.feedurl, hr.1.actualurl]
  have hasks : MssqlExtract.asksNull sv (given (.fromMap map)).imageurl = false := hnull
  simp only [hasks, Bool.false_eq_true, ↓reduceIte]
  constructor
  · rintro ⟨htitle, himage, hfeed, hactual⟩ f t ht
    rw [htests f t ht]
    cases f with
    | title => exact ⟨e.title, rfl, htitle t ht⟩
    | imageUrl => exact himage t ht
    | feedUrl => exact ⟨e.feedUrl, rfl, hfeed t ht⟩
    | actualUrl => exact hactual t ht
  · intro h
    refine ⟨fun t ht => ?_, fun t ht => (htests .imageUrl t ht).mp (h .imageUrl t ht),
      fun t ht => ?_, fun t ht => (htests .actualUrl t ht).mp (h .actualUrl t ht)⟩
    · obtain ⟨u, hu, heq⟩ := (htests .title t ht).mp (h .title t ht)
      rwa [← Option.some.inj hu] at heq
    · obtain ⟨u, hu, heq⟩ := (htests .feedUrl t ht).mp (h .feedUrl t ht)
      rwa [← Option.some.inj hu] at heq

theorem mssql_ranked (hU : MssqlStore.Faithful sv.toServer U) {r r' : MssqlProcedures.Row}
    {e e' : Entry} (hr : Stands (MssqlStore.Represents sv.toServer) U r e)
    (hr' : Stands (MssqlStore.Represents sv.toServer) U r' e')
    (hkey : e.title = e'.title → e = e') :
    MssqlExtract.compareRows sv r r' = (mssqlRanking sv).compare e e' := by
  have hdates : compare r.publishDate r'.publishDate =
      compare (sv.tryCast e.publishDate) (sv.tryCast e'.publishDate) := by
    rw [hr.1.publishDate, hr'.1.publishDate]
    rfl
  have htext : ∀ t : Text, MssqlExtract.compareText sv t t = .eq :=
    compare_self (transCmp_comap (c := compare) inferInstance sv.coll.key)
  have hnullable : ∀ x : Option Text, MssqlExtract.compareNullable sv x x = .eq := by
    intro x
    cases x with
    | none => rfl
    | some t => exact htext t
  rw [MssqlExtract.compareRows, hdates, hr.1.title, hr'.1.title, hr.1.imageurl, hr'.1.imageurl,
    hr.1.feedurl, hr'.1.feedurl, hr.1.actualurl, hr'.1.actualurl]
  refine then_titles fun htitles => ?_
  have hkeys : sv.coll.key e.title = sv.coll.key e'.title := Std.LawfulEqCmp.eq_of_compare htitles
  rw [hkey ((MssqlStore.titles_eq hU hr.2 hr'.2).mp hkeys), hnullable, htext, hnullable]
  rfl

/-- SQL Server returns the page of the store. -/
theorem mssql_page (hU : MssqlStore.Faithful sv.toServer U)
    (hplain : PlainCollation sv.coll sv.lower) (h : MssqlGiven sv U (.fromMap map))
    {rows : List MssqlProcedures.Row}
    (hholds : Holds (MssqlStore.Represents sv.toServer) U rows es) :
    MssqlExtract.extractFeed sv (.fromMap map) rows =
      .ok ((page (mssqlRanking sv) map es).map (shown (mssqlDate sv))) := by
  have hselect := select_holds hholds (k := mssqlRanking sv) (n := pageLimit map)
    (p := MssqlExtract.matchesWhere sv (given (.fromMap map))) (q := asked (.fromMap map))
    (o := MssqlExtract.rowOrder sv) (fun _ _ => Iff.rfl) (fun _ _ => Iff.rfl)
    (fun r e hr => mssql_matches h hr) (fun r e r' e' hr hr' => mssql_ranked hU hr hr')
    (askedOrder (.fromMap map))
  obtain ⟨limit, hlimit, htop⟩ := mssql_limit hplain (pageLimit_range map)
  obtain ⟨sort, hsort, horder⟩ := mssql_order hplain (.fromMap map)
  have hmode : (MssqlExtract.equalsText sv ((some (encode "extractNewsFeed".toList)).map decode)
      "extractNewsFeed").holds = true := by
    have hdecode : decode (encode "extractNewsFeed".toList) = "extractNewsFeed".toList := by decide
    have hequal : MssqlProcedures.textEq sv.toServer "extractNewsFeed".toList
        "extractNewsFeed".toList = true := Collation.eq_refl _ _
    rw [Option.map_some, hdecode, MssqlExtract.equalsText, sqlEq_some_some, hequal]
    rfl
  have hrows : MssqlExtract.extractRows sv (.fromMap map) rows =
      .ok (select (MssqlExtract.rowOrder sv (askedOrder (.fromMap map)))
        (MssqlExtract.matchesWhere sv (given (.fromMap map))) (pageLimit map) rows) := by
    have hfilters := mssql_filters h
    unfold MssqlExtract.paramFilters at hfilters
    unfold MssqlExtract.extractRows extractNewsFeed
    rw [mssql_optionMode hplain, hfilters, fromMap_limit, Option.map_some, hlimit, hsort]
    simp only [bind, Except.bind, hmode, ↓reduceIte, htop, horder, pure, Except.pure]
  rw [MssqlExtract.extractFeed, hrows]
  refine congrArg Except.ok (rows_shown hselect fun r e hr => ?_)
  rw [MssqlExtract.selectRow, shown, mssqlDate, hr.title, hr.imageurl, hr.feedurl, hr.actualurl,
    hr.publishDate, Option.map_some]

end Mssql

end EnginePages
