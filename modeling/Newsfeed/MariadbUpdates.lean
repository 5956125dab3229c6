import Newsfeed.MariadbProcedures

/-! # MariaDB: does an update write what it is sent?

The update leaves a row alone when its four columns are equal to the item's under the
collation of the columns. Values that the collation identifies, such as two spellings of a
path, then keep the row as it is, and the item answers `SKIPPED_EXISTS`.
-/
namespace MariadbUpdates

open TextOperations SqlLogic FeedModels CudHandlers MariadbProcedures

structure Values where
  imageurl : Option Text
  feedurl : Option Text
  actualurl : Option Text
  publishdate : Option Text
  deriving DecidableEq, Repr

def rowValues (n : Row) : Values := ⟨n.imageurl, n.feedurl, n.actualurl, n.publishdate⟩

def sentUrl (x : Option Text) : Option Text :=
  x.bind fun s => if trimSpaces s = [] then none else some (trimSpaces s)

def sent (item : CudParams) : Values :=
  ⟨sentUrl item.imageUrl, item.feedUrl, sentUrl item.actualUrl, item.publishDate⟩

section Storing

variable (coll : Collation)

/-- The right-hand sides of the update's `SET`. -/
def stored (t : ParsedItem) : Values :=
  ⟨nullifBlank coll t.imageUrl, t.feedUrl, nullifBlank coll t.actualUrl, t.publishDate⟩

/-- Without the URLs that the collation takes for empty. -/
def shown (v : Values) : Values :=
  { v with
    imageurl := v.imageurl.filter fun s => !coll.eq s []
    actualurl := v.actualurl.filter fun s => !coll.eq s [] }

/-- The four `<=>`. -/
def sameUnder (v w : Values) : Bool :=
  notDistinct coll.eq v.imageurl w.imageurl && notDistinct coll.eq v.feedurl w.feedurl &&
    notDistinct coll.eq v.actualurl w.actualurl && notDistinct coll.eq v.publishdate w.publishdate

variable {coll}

theorem unchanged_eq (n : Row) (t : ParsedItem) :
    unchanged coll n t = sameUnder coll (rowValues n) (stored coll t) := rfl

theorem nullifBlank_eq (x : Option Text) :
    nullifBlank coll x = (sentUrl x).filter fun s => !coll.eq s [] := by
  cases x with
  | none => rfl
  | some s =>
    rw [nullifBlank, sentUrl, Option.bind_some, Option.bind_some]
    by_cases hblank : trimSpaces s = []
    · rw [if_pos hblank, hblank, Collation.eq_refl, if_pos rfl, Option.filter_none]
    · rw [if_neg hblank, Option.filter_some]
      cases coll.eq (trimSpaces s) [] <;> rfl

theorem stored_readItem (item : CudParams) :
    stored coll (readItem item) = shown coll (sent item) := by
  rw [stored, readItem, nullifBlank_eq, nullifBlank_eq]
  rfl

theorem filter_of_notDistinct {x : Option Text} {p : Text → Bool}
    (h : notDistinct coll.eq x (x.filter p) = true) : x.filter p = x := by
  cases x with
  | none => rfl
  | some s =>
    rw [Option.filter_some] at h ⊢
    cases hp : p s with
    | true => rfl
    | false =>
      rw [hp] at h
      cases h

theorem shown_of_same {v : Values} (h : sameUnder coll v (shown coll v) = true) :
    shown coll v = v := by
  simp only [sameUnder, Bool.and_eq_true] at h
  rcases h with ⟨⟨⟨himage, _⟩, hactual⟩, _⟩
  rw [shown]
  rw [filter_of_notDistinct himage, filter_of_notDistinct hactual]

end Storing

section Row

variable {coll : Collation} {now : Timestamp} {items : List CudParams} {n : Row}

def Matches (coll : Collation) (item : CudParams) (n : Row) : Prop :=
  titleMatches coll (readItem item) n = true

instance (coll : Collation) (item : CudParams) (n : Row) : Decidable (Matches coll item n) :=
  inferInstanceAs (Decidable (_ = true))

theorem updateRow_title (parsed : List ParsedItem) (n : Row) :
    (updateRow coll now parsed n).title = n.title := by
  rw [updateRow]
  split
  · rfl
  · rfl

/-- The row is written from an item that differs from it, or left alone because none does. -/
theorem updateRow_cases (now : Timestamp) (items : List CudParams) (n : Row) :
    (∃ item ∈ items, Matches coll item n ∧ isParsed coll (readItem item) = true ∧
        unchanged coll n (readItem item) = false ∧
        rowValues (updateRow coll now (parsedItems coll items) n) =
          stored coll (readItem item)) ∨
      (∀ item ∈ items, Matches coll item n → isParsed coll (readItem item) = true →
          unchanged coll n (readItem item) = true) ∧
        updateRow coll now (parsedItems coll items) n = n := by
  rw [updateRow]
  cases hfind : (parsedItems coll items).find? fun t =>
      titleMatches coll t n && !unchanged coll n t with
  | some t =>
    left
    have hmem := List.mem_of_find?_eq_some hfind
    rw [parsedItems, List.mem_filter, List.mem_map] at hmem
    rcases hmem with ⟨⟨item, hitem, rfl⟩, hparsed⟩
    have htest := List.find?_some hfind
    rw [Bool.and_eq_true, Bool.not_eq_true'] at htest
    exact ⟨item, hitem, htest.1, hparsed, htest.2, rfl⟩
  | none =>
    right
    refine ⟨?_, rfl⟩
    intro item hitem hmatch hparsed
    have hmem : readItem item ∈ parsedItems coll items :=
      List.mem_filter.mpr ⟨List.mem_map_of_mem hitem, hparsed⟩
    have htest := List.find?_eq_none.mp hfind _ hmem
    rw [Bool.and_eq_true, Bool.not_eq_true'] at htest
    by_contra hchanged
    exact htest ⟨hmatch, Bool.eq_false_iff.mpr hchanged⟩

theorem isGiven_congr {a b : Text} (h : coll.key a = coll.key b) :
    isGiven coll (some a) = isGiven coll (some b) := by
  simp only [isGiven, sqlEq_some_some, Collation.eq, h]
  rfl

theorem matches_keys {a b : CudParams} (ha : Matches coll a n) (hb : Matches coll b n) :
    ∃ x y, a.title = some x ∧ b.title = some y ∧ coll.key x = coll.key y := by
  rw [Matches, titleMatches, Truth.holds_iff, sqlEq_eq_true] at ha hb
  rcases ha with ⟨t, x, ht, hx, hkeyx⟩
  rcases hb with ⟨t', y, ht', hy, hkeyy⟩
  rw [ht] at ht'
  cases ht'
  rw [Collation.eq_iff] at hkeyx hkeyy
  exact ⟨x, y, hx, hy, hkeyx.symm.trans hkeyy⟩

theorem isParsed_congr {a b : CudParams} (ha : Matches coll a n) (hb : Matches coll b n)
    (h : sent a = sent b) : isParsed coll (readItem a) = isParsed coll (readItem b) := by
  obtain ⟨x, y, hx, hy, hkeys⟩ := matches_keys ha hb
  have htitle : isGiven coll (readItem a).title = isGiven coll (readItem b).title := by
    rw [readItem, readItem, hx, hy]
    exact isGiven_congr hkeys
  have hfeed : (readItem a).feedUrl = (readItem b).feedUrl := congrArg Values.feedurl h
  have hdate : (readItem a).publishDate = (readItem b).publishDate :=
    congrArg Values.publishdate h
  rw [isParsed, isParsed, htitle, hfeed, hdate]

/-- What an item needs so that a row it matches ends up with its values. -/
structure Exact (coll : Collation) (items : List CudParams) (n : Row) (item : CudParams) :
    Prop where
  /-- Items whose titles the collation identifies ask for the same. -/
  agrees : ∀ other ∈ items, Matches coll other n → sent other = sent item
  /-- No URL is empty to the collation only. -/
  visible : isParsed coll (readItem item) = true → stored coll (readItem item) = sent item
  /-- Values that the collation cannot tell from the row's, or that are dropped, are the
  row's. -/
  same : (isParsed coll (readItem item) = true → unchanged coll n (readItem item) = true) →
    rowValues n = sent item

/-- A row ends up with the values of every item that matches it exactly when each of the
items is exact. -/
theorem row_stores_iff (now : Timestamp) (items : List CudParams) (n : Row) :
    (∀ item ∈ items, Matches coll item n →
        rowValues (updateRow coll now (parsedItems coll items) n) = sent item) ↔
      ∀ item ∈ items, Matches coll item n → Exact coll items n item := by
  constructor
  · intro h item hitem hmatch
    have hvalues := h item hitem hmatch
    have hagrees : ∀ other ∈ items, Matches coll other n → sent other = sent item :=
      fun other hother hmatch' => (h other hother hmatch').symm.trans hvalues
    rcases updateRow_cases now items n with hwritten | hkept
    · rcases hwritten with ⟨other, hother, hmatch', hparsed, hchanged, hrow⟩
      have hsent := hagrees other hother hmatch'
      have hstored : stored coll (readItem item) = stored coll (readItem other) := by
        rw [stored_readItem, stored_readItem, hsent]
      refine ⟨hagrees, ?_, ?_⟩
      · intro _
        rw [hstored, ← hrow, hvalues]
      · intro hsame
        have hunchanged := hsame (isParsed_congr hmatch' hmatch hsent ▸ hparsed)
        rw [unchanged_eq, hstored, ← unchanged_eq, hchanged] at hunchanged
        cases hunchanged
    · rcases hkept with ⟨hsame, hrow⟩
      rw [hrow] at hvalues
      refine ⟨hagrees, ?_, fun _ => hvalues⟩
      intro hparsed
      have hunchanged := hsame item hitem hmatch hparsed
      rw [unchanged_eq, hvalues, stored_readItem] at hunchanged
      rw [stored_readItem, shown_of_same hunchanged]
  · intro h item hitem hmatch
    have hexact := h item hitem hmatch
    rcases updateRow_cases now items n with hwritten | hkept
    · rcases hwritten with ⟨other, hother, hmatch', hparsed, _, hrow⟩
      rw [hrow, (h other hother hmatch').visible hparsed, hexact.agrees other hother hmatch']
    · rw [hkept.2]
      exact hexact.same (hkept.1 item hitem hmatch)

theorem matches_unique (hitems : items.Pairwise fun a b => ∀ t u, a.title = some t →
    b.title = some u → coll.key t ≠ coll.key u) {a b : CudParams} (ha : a ∈ items) (hb : b ∈ items)
    (hma : Matches coll a n) (hmb : Matches coll b n) : a = b := by
  obtain ⟨x, y, hx, hy, hkeys⟩ := matches_keys hma hmb
  by_contra hne
  have hsymm : Std.Symm fun a b : CudParams => (∀ t u, a.title = some t → b.title = some u →
      coll.key t ≠ coll.key u) := ⟨fun _ _ h t u ht hu heq => h u t hu ht heq.symm⟩
  exact hitems.forall ha hb hne x y hx hy hkeys

end Row

/-- After an update every row that an item matches holds, character for character, what the
item asks for, exactly when that is so of all items before: they agree with the other items of
their row, their URLs are not empty to the collation only, and where the collation does not
see a difference from the row, or takes the title or the date for empty, there is none. -/
theorem update_stores_iff (coll : Collation) (isRfc3339 : Text → Bool) (now : Timestamp)
    (c : Connection) (items : List CudParams) (rows : List Row) :
    (∀ n ∈ (cudFeed isRfc3339 (mariadb coll now c) .updateFeed items rows).1, ∀ item ∈ items,
        Matches coll item n → rowValues n = sent item) ↔
      ∀ n ∈ rows, ∀ item ∈ items, Matches coll item n → Exact coll items n item := by
  have hrows : (cudFeed isRfc3339 (mariadb coll now c) .updateFeed items rows).1 =
      rows.map (updateRow coll now (parsedItems coll items)) :=
    cudFeed_rows coll isRfc3339 now c .update items rows
  have htitle : ∀ n item, Matches coll item (updateRow coll now (parsedItems coll items) n) ↔
      Matches coll item n := by
    intro n item
    rw [Matches, titleMatches, updateRow_title]
    rfl
  rw [hrows, List.forall_mem_map]
  apply forall₂_congr
  intro n _
  simp only [htitle]
  exact row_stores_iff now items n

/-- For complete items with titles that the collation tells apart, only a row that the
collation cannot tell from its item goes wrong. -/
theorem complete_stores_iff {coll : Collation} {isRfc3339 : Text → Bool} {now : Timestamp}
    {c : Connection} {items : List CudParams} {rows : List Row}
    (hitems : items.Pairwise fun a b => ∀ t u, a.title = some t → b.title = some u →
      coll.key t ≠ coll.key u)
    (hcomplete : ∀ item ∈ items, isParsed coll (readItem item) = true ∧
      stored coll (readItem item) = sent item) :
    (∀ n ∈ (cudFeed isRfc3339 (mariadb coll now c) .updateFeed items rows).1, ∀ item ∈ items,
        Matches coll item n → rowValues n = sent item) ↔
      ∀ n ∈ rows, ∀ item ∈ items, Matches coll item n →
        unchanged coll n (readItem item) = true → rowValues n = sent item := by
  rw [update_stores_iff]
  apply forall₂_congr
  intro n _
  apply forall₂_congr
  intro item hitem
  apply imp_congr_right
  intro hmatch
  rcases hcomplete item hitem with ⟨hparsed, hstored⟩
  constructor
  · intro h hunchanged
    exact h.same fun _ => hunchanged
  · intro h
    refine ⟨?_, fun _ => hstored, fun hsame => h (hsame hparsed)⟩
    intro other hother hmatch'
    rw [matches_unique hitems hother hitem hmatch' hmatch]

def lowerRow : Row :=
  ⟨some "Hello".toList, none, some "https://example.org/feed".toList, none, some noonText, none,
    none⟩

/-- The same feed under a path that differs in case. -/
def upperItem : CudParams :=
  { sampleItem "Hello" with feedUrl := some "https://example.org/FEED".toList }

/-- The item matches the row, and the row keeps the old path. -/
theorem path_not_stored :
    ¬ ∀ n ∈ (cudFeed sampleRfc3339 (mariadb .ascii 0 newConnection) .updateFeed [upperItem]
      [lowerRow]).1, ∀ item ∈ [upperItem], Matches .ascii item n → rowValues n = sent item := by
  rw [update_stores_iff]
  intro h
  have hexact := h lowerRow List.mem_cons_self upperItem List.mem_cons_self (by decide)
  have hsame := hexact.same fun _ => by decide
  exact absurd hsame (by decide)

end MariadbUpdates
