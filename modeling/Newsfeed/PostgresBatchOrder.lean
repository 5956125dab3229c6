import Newsfeed.PostgresRetries

/-! # PostgreSQL: the order of a batch

Items of an accepted batch have different titles, but an insert conflicts on titles that differ
in case only. Of such items the first one in the batch is inserted.
-/
namespace PostgresBatchOrder

open TextOperations FallibleOperations JsonText RelationalTables FeedModels CudHandlers
open PayloadRows PostgresProcedures PostgresResponses PostgresConstraints PostgresRetries

variable {sv : Server} {now now' : Timestamp} {items items' : List CudParams}
  {rows rows' rows'' : List Row} {statuses statuses' : List StatusRow}

/-- The first item, or parsed row, whose title the primary key compares as `key`. -/
def firstOfKey {α : Type} (sv : Server) (key : Text) (title : α → Option Text) (xs : List α) :
    Option α :=
  xs.find? fun x => (title x).map sv.lower == some key

theorem firstOfKey_cons {α : Type} {key : Text} {title : α → Option Text} {x : α} {xs : List α}
    {t : Text} (ht : title x = some t) : firstOfKey sv key title (x :: xs) =
      if sv.lower t = key then some x else firstOfKey sv key title xs := by
  rw [firstOfKey, List.find?_cons, ht]
  split
  · next h => rw [if_pos (by simpa using h)]
  · next h => rw [if_neg (by simpa using h), firstOfKey]

/-- The item is the first one with its key, and no row has it. -/
def Wins (sv : Server) (rows : List Row) (items : List CudParams) (item : CudParams) : Prop :=
  ∃ key, (∀ r ∈ rows, titleKey sv r ≠ key) ∧ firstOfKey sv key CudParams.title items = some item

/-- The row `r` is written for the parsed row `p`. -/
def WrittenFor (now : Timestamp) (p : ParsedItem) (r : Row) : Prop :=
  ∃ title feedurl date, p.title = some title ∧ p.feedurl = some feedurl ∧
    p.publishDate = some date ∧ r = newRow now title feedurl date p

theorem WrittenFor.unique {p : ParsedItem} {r r' : Row} (h : WrittenFor now p r)
    (h' : WrittenFor now p r') : r = r' := by
  rcases h with ⟨title, feedurl, date, ht, hf, hd, rfl⟩
  rcases h' with ⟨title', feedurl', date', ht', hf', hd', rfl⟩
  cases Option.some.inj (ht.symm.trans ht')
  cases Option.some.inj (hf.symm.trans hf')
  cases Option.some.inj (hd.symm.trans hd')
  rfl

theorem insertItems_first {ps : List ParsedItem} {returned : List Text}
    (h : insertItems sv now rows ps = .ok (rows', returned)) :
    ∃ new, rows' = rows ++ new ∧ ∀ r, r ∈ new ↔ (∀ q ∈ rows, titleKey sv q ≠ titleKey sv r) ∧
      ∃ p, firstOfKey sv (titleKey sv r) ParsedItem.title ps = some p ∧ WrittenFor now p r := by
  induction ps generalizing rows rows' returned with
  | nil =>
    cases h
    exact ⟨[], (List.append_nil rows).symm, by simp [firstOfKey]⟩
  | cons p ps ih =>
    obtain ⟨⟨rows₁, ret₁⟩, h₁, h⟩ := bind_ok h
    obtain ⟨⟨rows₂, ret₂⟩, h₂, h⟩ := bind_ok h
    cases h
    obtain ⟨new, rfl, hnew⟩ := ih h₂
    obtain ⟨title, feedurl, date, ht, hf, hd, hcase⟩ := insertItem_ok sv h₁
    rcases hcase with ⟨⟨r₀, hr₀, heq⟩, rfl, rfl⟩ | ⟨hfree, rfl, rfl⟩
    · refine ⟨new, rfl, fun r => ?_⟩
      rw [hnew, firstOfKey_cons ht]
      refine and_congr_right fun hfresh => ?_
      rw [if_neg fun hkey => hfresh r₀ hr₀ (heq.trans hkey)]
    · have hwritten : WrittenFor now p (newRow now title feedurl date p) :=
        ⟨title, feedurl, date, ht, hf, hd, rfl⟩
      refine ⟨newRow now title feedurl date p :: new, by simp, fun r => ?_⟩
      rw [List.mem_cons, hnew, firstOfKey_cons ht, List.forall_mem_append,
        List.forall_mem_singleton]
      by_cases hkey : sv.lower title = titleKey sv r
      · rw [if_pos hkey]
        constructor
        · rintro (rfl | ⟨⟨_, hfresh⟩, _⟩)
          · exact ⟨hfree, p, rfl, hwritten⟩
          · exact absurd hkey hfresh
        · rintro ⟨_, q, hq, hr⟩
          cases hq
          exact Or.inl (hr.unique hwritten)
      · rw [if_neg hkey]
        constructor
        · rintro (rfl | ⟨⟨hfresh, _⟩, hfirst⟩)
          · exact absurd rfl hkey
          · exact ⟨hfresh, hfirst⟩
        · rintro ⟨hfresh, hfirst⟩
          exact Or.inr ⟨⟨hfresh, hkey⟩, hfirst⟩

theorem firstOfKey_reads {parsed : List ParsedItem} (h : List.Forall₂ (Reads sv) items parsed)
    {key : Text} {p : ParsedItem} : firstOfKey sv key ParsedItem.title parsed = some p ↔
      ∃ item, firstOfKey sv key CudParams.title items = some item ∧ Reads sv item p := by
  induction h with
  | nil => simp [firstOfKey]
  | @cons item q items parsed hq _ ih =>
    simp only [firstOfKey, List.find?_cons, hq.title]
    split
    · constructor
      · intro hp
        cases hp
        exact ⟨item, rfl, hq⟩
      · rintro ⟨item', hitem, hp⟩
        cases hitem
        rw [reads_unique hp hq]
    · exact ih

/-- What a row holds besides its number and its timestamps. -/
def content (r : Row) : Text × Option Text × Text × Option Text × Timestamp :=
  (r.title, r.imageurl, r.feedurl, r.actualurl, r.publishDate)

theorem WrittenFor.at {p : ParsedItem} {r : Row} (h : WrittenFor now p r) (now' : Timestamp) :
    ∃ r', WrittenFor now' p r' ∧ content r' = content r := by
  rcases h with ⟨title, feedurl, date, ht, hf, hd, rfl⟩
  exact ⟨_, ⟨title, feedurl, date, ht, hf, hd, rfl⟩, rfl⟩

theorem Wins.mem {item : CudParams} (h : Wins sv rows items item) : item ∈ items := by
  rcases h with ⟨key, _, hfirst⟩
  exact List.mem_of_find?_eq_some hfirst

theorem lower_of_firstOfKey {key : Text} {item : CudParams} {p : ParsedItem} {t : Text}
    (hfirst : firstOfKey sv key CudParams.title items = some item) (hread : Reads sv item p)
    (ht : p.title = some t) : sv.lower t = key := by
  have hhas := List.find?_some hfirst
  rw [← hread.title, ht] at hhas
  simpa using hhas

theorem mem_iff_wins {parsed : List ParsedItem} {new : List Row}
    (hreads : List.Forall₂ (Reads sv) items parsed)
    (hmem : ∀ r, r ∈ new ↔ (∀ q ∈ rows, titleKey sv q ≠ titleKey sv r) ∧
      ∃ p, firstOfKey sv (titleKey sv r) ParsedItem.title parsed = some p ∧ WrittenFor now p r)
    (r : Row) :
    r ∈ new ↔ ∃ item p, Wins sv rows items item ∧ Reads sv item p ∧ WrittenFor now p r := by
  rw [hmem]
  constructor
  · intro h
    rcases h with ⟨hfresh, p, hfirst, hwritten⟩
    obtain ⟨item, hitem, hread⟩ := (firstOfKey_reads hreads).mp hfirst
    exact ⟨item, p, ⟨_, hfresh, hitem⟩, hread, hwritten⟩
  · intro h
    rcases h with ⟨item, p, ⟨key, hfresh, hfirst⟩, hread, hwritten⟩
    have hkeyr : titleKey sv r = key := by
      rcases hwritten with ⟨title, feedurl, date, ht, _, _, rfl⟩
      exact lower_of_firstOfKey hfirst hread ht
    rw [hkeyr]
    exact ⟨hfresh, p, (firstOfKey_reads hreads).mpr ⟨item, hfirst, hread⟩, hwritten⟩

theorem insert_wins (hacc : ∀ item ∈ items, item.Accepted)
    (htitles : (items.filterMap CudParams.title).Nodup) (hkey : DistinctOn (titleKey sv) rows)
    (h : cudStatement sv now .insertFeed (items.map CudParams.toJson) rows =
      .ok (rows', statuses)) :
    ∃ new, rows' = rows ++ new ∧ DistinctOn (titleKey sv) (rows ++ new) ∧
      (∀ r, r ∈ new ↔ ∃ item p, Wins sv rows items item ∧ Reads sv item p ∧ WrittenFor now p r) ∧
      statuses = items.map (fun item =>
        insertStatus ((new.map Row.title).find? (joinsTitle item.title))) ∧
      ∀ item ∈ items, ((new.map Row.title).find? (joinsTitle item.title)).isSome = true ↔
        Wins sv rows items item := by
  have hstatement := h
  simp only [cudStatement] at h
  obtain ⟨parsed, hparsed, h⟩ := bind_ok h
  obtain ⟨⟨rows₁, returned⟩, hins, h⟩ := bind_ok h
  cases h
  have hreads := (parsed_ok sv hacc).mp hparsed
  obtain ⟨parsed', new, hreads', hnew, hrows, hstatuses⟩ := insert_ok sv hacc hkey hstatement
  obtain ⟨new', hrows', hmem⟩ := insertItems_first hins
  obtain rfl : new' = new := List.append_cancel_left (hrows'.symm.trans hrows)
  have hwins := mem_iff_wins hreads hmem
  refine ⟨new', hrows, hnew.fresh hkey, hwins, hstatuses, ?_⟩
  intro item hitem
  rw [find?_joinsTitle_isSome]
  constructor
  · rintro ⟨t, ht, heq⟩
    obtain ⟨r, hr, rfl⟩ := List.mem_map.mp ht
    obtain ⟨winner, p, hwin, hread, title, feedurl, date, hpt, _, _, rfl⟩ := (hwins r).mp hr
    rwa [eq_of_title htitles hitem hwin.mem heq (hread.title.symm.trans hpt)]
  · intro hwin
    rcases hwin with ⟨key, hfresh, hfirst⟩
    obtain ⟨p, hp, hread⟩ := forall₂_left hreads hitem
    obtain ⟨r, hr, title, ht, hlower⟩ := hnew.covered p (parsed_unique hreads hreads' ▸ hp)
    have hkeyr : titleKey sv r = key := hlower.trans (lower_of_firstOfKey hfirst hread ht)
    have hr' : r ∈ new' := (List.mem_append.mp hr).resolve_left fun hold => hfresh r hold hkeyr
    obtain ⟨_, q, hq, title', _, _, hqt, _, _, rfl⟩ := (hmem r).mp hr'
    obtain ⟨winner, hwinner, hreadq⟩ := (firstOfKey_reads hreads).mp hq
    rw [hkeyr, hfirst, Option.some.injEq] at hwinner
    refine ⟨title', List.mem_map.mpr ⟨_, hr', rfl⟩, ?_⟩
    rw [hwinner, ← hreadq.title, hqt]

theorem checkDuplicates_perm (h : items.Perm items') (hdup : checkDuplicates items = .ok ()) :
    checkDuplicates items' = .ok () := by
  rw [checkDuplicates_ok] at hdup ⊢
  exact (h.filterMap CudParams.title).nodup hdup

theorem accepts_perm {body body' : CudPayload} {mode : OptionMode}
    (h : body.items.Perm body'.items) (hacc : Accepts body mode) : Accepts body' mode :=
  ⟨checkDuplicates_perm h hacc.duplicates,
    fun item hitem => hacc.required item (h.mem_iff.mpr hitem)⟩

/-- Statuses computed item by item are the same in both orders when they are the same for
every item. -/
theorem zip_perm_iff {β : Type} (h : items.Perm items') {f f' : CudParams → β} :
    (items.zip (items.map f)).Perm (items'.zip (items'.map f')) ↔
      ∀ item ∈ items, f item = f' item := by
  have hzip : ∀ (xs : List CudParams) (g : CudParams → β),
      xs.zip (xs.map g) = xs.map fun x => (x, g x) := by
    intro xs g
    have hmap := List.zip_map' (f := id) (g := g) (l := xs)
    rwa [List.map_id] at hmap
  rw [hzip, hzip]
  constructor
  · intro hperm item hitem
    obtain ⟨item', _, heq⟩ := List.mem_map.mp (hperm.subset (List.mem_map_of_mem hitem))
    obtain ⟨rfl, hvalue⟩ := Prod.mk.injEq _ _ _ _ ▸ heq
    exact hvalue.symm
  · intro hall
    have hsame : (items.map fun x => (x, f x)) = items.map fun x => (x, f' x) :=
      List.map_congr_left fun item hitem => by rw [hall item hitem]
    rw [hsame]
    exact h.map _

theorem zip_results (h : (items.zip statuses).Perm (items'.zip statuses')) :
    (items.zip (statuses.map StatusRow.result)).Perm
      (items'.zip (statuses'.map StatusRow.result)) := by
  rw [List.zip_map_right, List.zip_map_right]
  exact h.map _

theorem insertStatus_congr {o o' : Option Text} :
    (insertStatus o).result = (insertStatus o').result ↔ (o.isSome = true ↔ o'.isSome = true) := by
  cases o with
  | none =>
    cases o' with
    | none => simp
    | some t => simp [insertStatus, StatusRow.result]
  | some t =>
    cases o' with
    | none => simp [insertStatus, StatusRow.result]
    | some t' => simp [insertStatus]

/-- Both calls raise, or both leave the same rows up to their timestamps and give each item
the same status. -/
def SameOutcome (items items' : List CudParams)
    (a b : Newsfeed sv × Except DbError (List CudResult)) : Prop :=
  match a.2, b.2 with
  | .error _, .error _ => True
  | .ok results, .ok results' =>
    (a.1.rows.map content).Perm (b.1.rows.map content) ∧
      (items.zip results).Perm (items'.zip results')
  | _, _ => False

variable (sv) in
theorem firstOfKey_isSome (h : items.Perm items') (key : Text) :
    (firstOfKey sv key CudParams.title items).isSome = true ↔
      (firstOfKey sv key CudParams.title items').isSome = true := by
  rw [firstOfKey, firstOfKey, List.find?_isSome, List.find?_isSome]
  exact exists_congr fun item => and_congr_left fun _ => h.mem_iff

theorem wins_iff_first (h : items.Perm items') :
    (∀ item ∈ items, Wins sv rows items item ↔ Wins sv rows items' item) ↔
      ∀ key, (∀ r ∈ rows, titleKey sv r ≠ key) →
        firstOfKey sv key CudParams.title items = firstOfKey sv key CudParams.title items' := by
  constructor
  · intro hwins key hfree
    cases hfirst : firstOfKey sv key CudParams.title items with
    | none =>
      have hno := (firstOfKey_isSome sv h key).not
      rw [hfirst] at hno
      have hnone : firstOfKey sv key CudParams.title items' = none := by simpa using hno
      rw [hnone]
    | some item =>
      obtain ⟨key', _, hfirst'⟩ :=
        (hwins item (List.mem_of_find?_eq_some hfirst)).mp ⟨key, hfree, hfirst⟩
      have hkey : key' = key := by
        have hhas := List.find?_some hfirst
        have hhas' := List.find?_some hfirst'
        simp only [beq_iff_eq] at hhas hhas'
        exact Option.some.inj (hhas'.symm.trans hhas)
      rw [← hkey, hfirst']
  · intro hall item _
    refine exists_congr fun key => and_congr_right fun hfree => ?_
    rw [hall key hfree]

theorem parsed_mem_perm {parsed parsed' : List ParsedItem} (h : items.Perm items')
    (hreads : List.Forall₂ (Reads sv) items parsed)
    (hreads' : List.Forall₂ (Reads sv) items' parsed') {p : ParsedItem} (hp : p ∈ parsed) :
    p ∈ parsed' := by
  obtain ⟨item, hitem, hread⟩ := forall₂_right hreads hp
  obtain ⟨q, hq, hread'⟩ := forall₂_left hreads' (h.subset hitem)
  rwa [reads_unique hread hread']

theorem updates_content {parsed : List ParsedItem} {r r' r'' : Row}
    (htitles : (items.filterMap CudParams.title).Nodup)
    (hreads : List.Forall₂ (Reads sv) items parsed) (h : Updates now parsed r r')
    (h' : Updates now' parsed r r'') : content r' = content r'' := by
  rcases h with ⟨hall, rfl⟩ | ⟨p, hp, ht, hne, feedurl, date, hf, hd, rfl⟩
  · rcases h' with ⟨_, rfl⟩ | ⟨q, hq, hqt, hqne, _⟩
    · rfl
    · exact absurd (hall q hq hqt) hqne
  · rcases h' with ⟨hall, rfl⟩ | ⟨q, hq, hqt, _, feedurl', date', hf', hd', rfl⟩
    · exact absurd (hall p hp ht) hne
    · obtain rfl := parsed_of_title htitles hreads hp hq ht hqt
      cases Option.some.inj (hf.symm.trans hf')
      cases Option.some.inj (hd.symm.trans hd')
      rfl

theorem map_content {parsed : List ParsedItem} (htitles : (items.filterMap CudParams.title).Nodup)
    (hreads : List.Forall₂ (Reads sv) items parsed)
    (h : List.Forall₂ (Updates now parsed) rows rows')
    (h' : List.Forall₂ (Updates now' parsed) rows rows'') :
    rows'.map content = rows''.map content := by
  induction h generalizing rows'' with
  | nil =>
    cases h'
    rfl
  | cons hr _ ih =>
    cases h' with
    | cons hr' hrest =>
      rw [List.map_cons, List.map_cons, updates_content htitles hreads hr hr', ih hrest]

theorem updates_congr {parsed parsed' : List ParsedItem} {r r' : Row}
    (hsame : ∀ p, p ∈ parsed ↔ p ∈ parsed') (h : Updates now parsed r r') :
    Updates now parsed' r r' := by
  simpa only [Updates, hsame] using h

theorem changed_iff {parsed : List ParsedItem} {r r' : Row} (h : Updates now parsed r r') :
    r ≠ r' ↔ ∃ p ∈ parsed, p.title = some r.title ∧ ¬ SameValues r p := by
  rcases h with ⟨hall, rfl⟩ | ⟨p, hp, ht, hne, feedurl, date, hf, hd, rfl⟩
  · apply iff_of_false (fun hne => hne rfl)
    rintro ⟨p, hp, ht, hne⟩
    exact hne (hall p hp ht)
  · exact iff_of_true (updatedRow_ne hne hf hd).symm ⟨p, hp, ht, hne⟩

theorem exists_changed_iff {parsed : List ParsedItem} {t : Text}
    (h : List.Forall₂ (Updates now parsed) rows rows') :
    (∃ rr ∈ rows.zip rows', rr.1 ≠ rr.2 ∧ rr.1.title = t) ↔
      ∃ r ∈ rows, r.title = t ∧ ∃ p ∈ parsed, p.title = some r.title ∧ ¬ SameValues r p := by
  constructor
  · rintro ⟨rr, hrr, hne, ht⟩
    exact ⟨rr.1, (List.of_mem_zip hrr).1, ht,
      (changed_iff ((List.forall₂_iff_zip.mp h).2 hrr)).mp hne⟩
  · rintro ⟨r, hr, ht, hchanged⟩
    obtain ⟨r', hrr⟩ := forall₂_zip_left h hr
    exact ⟨(r, r'), hrr, (changed_iff ((List.forall₂_iff_zip.mp h).2 hrr)).mpr hchanged, ht⟩

theorem updateStatus_congr {o o' : Option Text} {r : Option Row}
    (h : o.isSome = true ↔ o'.isSome = true) : updateStatus o r = updateStatus o' r := by
  rw [updateStatus, updateStatus, Bool.eq_iff_iff.mpr h]

theorem update_order (hperm : items.Perm items') (hacc : ∀ item ∈ items, item.Accepted)
    (htitles : (items.filterMap CudParams.title).Nodup) (hkey : DistinctOn (titleKey sv) rows)
    (h : cudStatement sv now .updateFeed (items.map CudParams.toJson) rows = .ok (rows', statuses))
    (h' : cudStatement sv now' .updateFeed (items'.map CudParams.toJson) rows =
      .ok (rows'', statuses')) :
    rows'.map content = rows''.map content ∧ (items.zip statuses).Perm (items'.zip statuses') := by
  have hacc' : ∀ item ∈ items', item.Accepted :=
    fun item hitem => hacc item (hperm.mem_iff.mpr hitem)
  obtain ⟨parsed, updated, hreads, hrows, _, hmem, rfl⟩ := update_ok sv hacc hkey h
  obtain ⟨parsed', updated', hreads', hrows', _, hmem', rfl⟩ := update_ok sv hacc' hkey h'
  have hparsed : ∀ p, p ∈ parsed ↔ p ∈ parsed' := fun p =>
    ⟨parsed_mem_perm hperm hreads hreads', parsed_mem_perm hperm.symm hreads' hreads⟩
  constructor
  · have hagain : List.Forall₂ (Updates now' parsed) rows rows'' :=
      hrows'.imp fun _ _ hr => updates_congr (fun p => (hparsed p).symm) hr
    exact map_content htitles hreads hrows hagain
  · rw [zip_perm_iff hperm]
    intro item _
    apply updateStatus_congr
    rw [find?_joinsTitle_isSome, find?_joinsTitle_isSome]
    refine exists_congr fun t => and_congr_left fun _ => ?_
    rw [hmem, hmem', exists_changed_iff hrows, exists_changed_iff hrows']
    simp only [hparsed]

theorem delete_order (hperm : items.Perm items') (hkey : DistinctOn (titleKey sv) rows)
    (h : cudStatement sv now .deleteFeed (items.map CudParams.toJson) rows = .ok (rows', statuses))
    (h' : cudStatement sv now' .deleteFeed (items'.map CudParams.toJson) rows =
      .ok (rows'', statuses')) :
    rows' = rows'' ∧ (items.zip statuses).Perm (items'.zip statuses') := by
  obtain ⟨_, hrows, rfl⟩ := delete_ok sv hkey h
  obtain ⟨_, hrows', rfl⟩ := delete_ok sv hkey h'
  have hmatches : deleteMatches (items.map CudParams.title) =
      deleteMatches (items'.map CudParams.title) := by
    funext r
    rw [Bool.eq_iff_iff, deleteMatches_iff, deleteMatches_iff]
    exact (hperm.map CudParams.title).mem_iff
  constructor
  · rw [hrows, hrows', hmatches]
  · rw [zip_perm_iff hperm, hmatches]
    exact fun _ _ => rfl

theorem content_subset {new new' : List Row}
    (hmem : ∀ r, r ∈ new ↔ ∃ item p, Wins sv rows items item ∧ Reads sv item p ∧ WrittenFor now p r)
    (hmem' : ∀ r, r ∈ new' ↔
      ∃ item p, Wins sv rows items' item ∧ Reads sv item p ∧ WrittenFor now' p r)
    (hwins : ∀ item, Wins sv rows items item → Wins sv rows items' item) :
    new.map content ⊆ new'.map content := by
  intro c hc
  obtain ⟨r, hr, rfl⟩ := List.mem_map.mp hc
  obtain ⟨item, p, hwin, hread, hwritten⟩ := (hmem r).mp hr
  obtain ⟨r', hwritten', hcontent⟩ := hwritten.at now'
  rw [← hcontent]
  exact List.mem_map_of_mem ((hmem' r').mpr ⟨item, p, hwins item hwin, hread, hwritten'⟩)

theorem insert_order (hperm : items.Perm items') (hacc : ∀ item ∈ items, item.Accepted)
    (htitles : (items.filterMap CudParams.title).Nodup) (hkey : DistinctOn (titleKey sv) rows)
    (h : cudStatement sv now .insertFeed (items.map CudParams.toJson) rows = .ok (rows', statuses))
    (h' : cudStatement sv now' .insertFeed (items'.map CudParams.toJson) rows =
      .ok (rows'', statuses')) :
    ((rows'.map content).Perm (rows''.map content) ∧
        (items.zip (statuses.map StatusRow.result)).Perm
          (items'.zip (statuses'.map StatusRow.result))) ↔
      ∀ item ∈ items, Wins sv rows items item ↔ Wins sv rows items' item := by
  have hacc' : ∀ item ∈ items', item.Accepted :=
    fun item hitem => hacc item (hperm.mem_iff.mpr hitem)
  have htitles' := (hperm.filterMap CudParams.title).nodup htitles
  obtain ⟨new, rfl, hnew, hmem, rfl, hwins⟩ := insert_wins hacc htitles hkey h
  obtain ⟨new', rfl, hnew', hmem', rfl, hwins'⟩ := insert_wins hacc' htitles' hkey h'
  have hstatus : (items.zip ((items.map fun item =>
      insertStatus ((new.map Row.title).find? (joinsTitle item.title))).map
        StatusRow.result)).Perm (items'.zip ((items'.map fun item =>
      insertStatus ((new'.map Row.title).find? (joinsTitle item.title))).map
        StatusRow.result)) ↔
      ∀ item ∈ items, Wins sv rows items item ↔ Wins sv rows items' item := by
    rw [List.map_map, List.map_map, zip_perm_iff hperm]
    refine forall₂_congr fun item hitem => ?_
    rw [Function.comp, Function.comp, insertStatus_congr, hwins item hitem,
      hwins' item (hperm.subset hitem)]
  rw [hstatus, and_iff_right_iff_imp]
  intro hsame
  rw [List.map_append, List.map_append]
  apply List.Perm.append_left _
  have hdistinct : ∀ {rows new : List Row}, DistinctOn (titleKey sv) (rows ++ new) →
      (new.map content).Nodup := by
    intro rows new hd
    have hsub := hd.sublist (List.sublist_append_right rows new)
    refine List.pairwise_map.mpr (hsub.imp fun hne heq => hne ?_)
    exact congrArg sv.lower (congrArg Prod.fst heq)
  rw [List.perm_ext_iff_of_nodup (hdistinct hnew) (hdistinct hnew')]
  have hforth : ∀ item, Wins sv rows items item → Wins sv rows items' item :=
    fun item hwin => (hsame item hwin.mem).mp hwin
  have hback : ∀ item, Wins sv rows items' item → Wins sv rows items item :=
    fun item hwin => (hsame item (hperm.mem_iff.mpr hwin.mem)).mpr hwin
  exact fun c => ⟨fun hc => content_subset hmem hmem' hforth hc,
    fun hc => content_subset hmem' hmem hback hc⟩

variable (now now') in
theorem raises_perm (batch : AcceptedBatch) {body' : CudPayload}
    (hperm : batch.body.items.Perm body'.items) (t : Newsfeed sv) :
    (∃ e, cudStatement sv now batch.mode.optionMode (batch.body.items.map CudParams.toJson)
        t.rows = .error e) ↔
      ∃ e, cudStatement sv now' batch.mode.optionMode (body'.items.map CudParams.toJson) t.rows =
        .error e := by
  have hraises' := statement_raises now' ⟨batch.mode, body', accepts_perm hperm batch.accepted⟩ t
  rw [statement_raises now batch t, hraises']
  simp only [hperm.mem_iff]

variable (now) in
theorem insert_raises {batch : AcceptedBatch} (hmode : batch.mode = .insert) (t : Newsfeed sv) :
    (∃ e, cudStatement sv now batch.mode.optionMode (batch.body.items.map CudParams.toJson)
      t.rows = .error e) ↔ ¬ ∀ item ∈ batch.body.items, Storable sv item := by
  rw [statement_raises now batch t, hmode]
  simp [Readable]

theorem completed_order_iff (batch : AcceptedBatch) {body' : CudPayload}
    (hperm : batch.body.items.Perm body'.items) {t t₁ t₂ : Newsfeed sv}
    (h : cudStatement sv now batch.mode.optionMode (batch.body.items.map CudParams.toJson) t.rows =
      .ok (t₁.rows, statuses))
    (h' : cudStatement sv now' batch.mode.optionMode (body'.items.map CudParams.toJson) t.rows =
      .ok (t₂.rows, statuses')) :
    ((t₁.rows.map content).Perm (t₂.rows.map content) ∧
        (batch.body.items.zip (statuses.map StatusRow.result)).Perm
          (body'.items.zip (statuses'.map StatusRow.result))) ↔
      (batch.mode = .insert → ∀ key, (∀ r ∈ t.rows, titleKey sv r ≠ key) →
        firstOfKey sv key CudParams.title batch.body.items =
          firstOfKey sv key CudParams.title body'.items) := by
  have htitles := checkDuplicates_ok.mp batch.accepted.duplicates
  rcases batch with ⟨mode, body, hacc⟩
  cases mode with
  | insert =>
    rw [insert_order hperm body.accepted htitles t.primaryKey h h', wins_iff_first hperm]
    exact ⟨fun h _ => h, fun h => h rfl⟩
  | update =>
    obtain ⟨hcontent, hstatuses⟩ := update_order hperm body.accepted htitles t.primaryKey h h'
    exact iff_of_true ⟨List.Perm.of_eq hcontent, zip_results hstatuses⟩ nofun
  | delete =>
    obtain ⟨hrows, hstatuses⟩ := delete_order hperm t.primaryKey h h'
    exact iff_of_true ⟨List.Perm.of_eq (congrArg (List.map content) hrows), zip_results hstatuses⟩
      nofun

/-- An accepted batch can be sent in another order exactly when it is no insert, or it cannot
be read, or every title key that no row has is first met in the same item. -/
theorem order_irrelevant_iff (sv : Server) (isRfc3339 : Text → Bool) (now now' : Timestamp)
    (batch : AcceptedBatch) (body' : CudPayload) (hperm : batch.body.items.Perm body'.items)
    (t : Newsfeed sv) :
    SameOutcome batch.body.items body'.items
        (cudFeed isRfc3339 (postgres sv now) batch.mode.optionMode batch.body.items t)
        (cudFeed isRfc3339 (postgres sv now') batch.mode.optionMode body'.items t) ↔
      (batch.mode = .insert → (∀ item ∈ batch.body.items, Storable sv item) →
        ∀ key, (∀ r ∈ t.rows, titleKey sv r ≠ key) →
          firstOfKey sv key CudParams.title batch.body.items =
            firstOfKey sv key CudParams.title body'.items) := by
  have hboth := raises_perm now now' batch hperm t
  rcases cudFeed_cases sv isRfc3339 now batch.mode.optionMode batch.body.items t with
    ⟨e, hst, hfeed⟩ | ⟨t₁, statuses, hst, hfeed⟩
  · rcases cudFeed_cases sv isRfc3339 now' batch.mode.optionMode body'.items t with
      ⟨e', hst', hfeed'⟩ | ⟨t₂, statuses', hst', hfeed'⟩
    · rw [hfeed, hfeed', SameOutcome, true_iff]
      intro hmode hall
      exact absurd hall ((insert_raises now hmode t).mp ⟨e, hst⟩)
    · obtain ⟨e', he'⟩ := hboth.mp ⟨e, hst⟩
      rw [hst'] at he'
      cases he'
  · rcases cudFeed_cases sv isRfc3339 now' batch.mode.optionMode body'.items t with
      ⟨e', hst', hfeed'⟩ | ⟨t₂, statuses', hst', hfeed'⟩
    · obtain ⟨e, he⟩ := hboth.mpr ⟨e', hst'⟩
      rw [hst] at he
      cases he
    · rw [hfeed, hfeed', SameOutcome]
      refine (completed_order_iff batch hperm hst hst').trans ?_
      refine imp_congr_right fun hmode => ?_
      -- a batch that completes can be read
      have hstorable : ∀ item ∈ batch.body.items, Storable sv item := by
        by_contra hno
        obtain ⟨e, he⟩ := (insert_raises now hmode t).mpr hno
        rw [hst] at he
        cases he
      exact ⟨fun h _ => h, fun h => h hstorable⟩

def bodyOf (items : List CudParams) (h : items ≠ [] ∧ items.length ≤ maxBatchItems ∧
    ∀ item ∈ items, item.Accepted) : CudPayload := ⟨items, h.1, h.2.1, h.2.2⟩

def upperFirst : AcceptedBatch :=
  ⟨.insert, bodyOf [sampleItem "Hello", sampleItem "hello"] (by decide), ⟨rfl, by decide⟩⟩

def lowerFirst : CudPayload := bodyOf [sampleItem "hello", sampleItem "Hello"] (by decide)

/-- Where the table has the title already, both spellings are skipped in either order. -/
theorem spelling_order_irrelevant :
    SameOutcome upperFirst.body.items lowerFirst.items
      (cudFeed sampleRfc3339 (postgres sampleServer noon) upperFirst.mode.optionMode
        upperFirst.body.items sampleTable)
      (cudFeed sampleRfc3339 (postgres sampleServer noon) upperFirst.mode.optionMode
        lowerFirst.items sampleTable) := by
  have hperm : upperFirst.body.items.Perm lowerFirst.items := List.Perm.swap _ _ _
  rw [order_irrelevant_iff sampleServer sampleRfc3339 noon noon upperFirst lowerFirst hperm]
  intro _ _ key hfree
  have hkey : "hello".toList ≠ key := hfree (sampleRow "Hello" noon) List.mem_cons_self
  have hnone : ∀ items : List CudParams, (∀ item ∈ items, item.title.map lowerAscii =
      some "hello".toList) → firstOfKey sampleServer key CudParams.title items = none := by
    intro items hitems
    rw [firstOfKey, List.find?_eq_none]
    intro item hitem
    have htitle : item.title.map sampleServer.lower = some "hello".toList := hitems item hitem
    simpa [htitle] using hkey
  rw [hnone _ (by decide), hnone _ (by decide)]

/-- In an empty table the spelling that comes first is the one that is inserted. -/
theorem spelling_order_matters :
    Accepts upperFirst.body upperFirst.mode.optionMode ∧
      upperFirst.body.items.Perm lowerFirst.items ∧
      ¬ SameOutcome upperFirst.body.items lowerFirst.items
        (cudFeed sampleRfc3339 (postgres sampleServer noon) upperFirst.mode.optionMode
          upperFirst.body.items emptyTable)
        (cudFeed sampleRfc3339 (postgres sampleServer noon) upperFirst.mode.optionMode
          lowerFirst.items emptyTable) := by
  refine ⟨upperFirst.accepted, List.Perm.swap _ _ _, ?_⟩
  have hupper : cudStatement sampleServer noon upperFirst.mode.optionMode
      (upperFirst.body.items.map CudParams.toJson) emptyTable.rows =
      .ok ([sampleRow "Hello" noon], [⟨"Success".toList, "Record(s) inserted".toList⟩,
        ⟨"Skipped".toList, "SKIPPED_EXISTS".toList⟩]) := rfl
  have hlower : cudStatement sampleServer noon upperFirst.mode.optionMode
      (lowerFirst.items.map CudParams.toJson) emptyTable.rows =
      .ok ([sampleRow "hello" noon], [⟨"Success".toList, "Record(s) inserted".toList⟩,
        ⟨"Skipped".toList, "SKIPPED_EXISTS".toList⟩]) := rfl
  obtain ⟨hrows, hresults⟩ := cudFeed_of_statement sampleServer sampleRfc3339 _ hupper
  obtain ⟨hrows', hresults'⟩ := cudFeed_of_statement sampleServer sampleRfc3339 _ hlower
  rw [SameOutcome, hresults, hresults']
  intro h
  rcases h with ⟨hperm, _⟩
  rw [hrows, hrows'] at hperm
  have hmem := hperm.subset List.mem_cons_self
  rw [List.map_singleton, List.mem_singleton] at hmem
  exact absurd (congrArg Prod.fst hmem) (by decide)

end PostgresBatchOrder
