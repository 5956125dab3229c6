import Newsfeed.FallibleOperations
import Newsfeed.HttpHeaders
import Newsfeed.SeparatedLists

/-! # The grammar of the two headers

What a request with a body should carry, read as a media type with parameters,
against what `validate_headers` reads out of the text.
-/
namespace ContentTypes

open TextOperations FallibleOperations HttpHeaders SeparatedLists

def isHeaderBlank (c : Char) : Bool := c == ' ' || c == '\t'

def strip (t : Text) : Text := trimBy isHeaderBlank t

def valueText (v : HeaderValue) : Text := lowerAscii (v.bytes.map fun b => Char.ofNat b.toNat)

/-- A header that is absent reads like an empty one. -/
def headerText (headers : HeaderMap) (name : String) : Text :=
  ((headers.get name).map valueText).getD []

structure ContentType where
  mediaType : Text
  parameters : List (Text × Text)
  deriving DecidableEq, Repr

/-- `name=value` with blanks around both. -/
def readParameter (t : Text) : Option (Text × Text) :=
  match t.splitOn '=' with
  | [name, value] => some (strip name, strip value)
  | _ => none

/-- A media type and its parameters, each after a `;`. -/
def readContentType (t : Text) : Option ContentType :=
  match t.splitOn ';' with
  | [] => none
  | mediaType :: parameters =>
    (parameters.mapM readParameter).map fun ps => ⟨strip mediaType, ps⟩

def jsonType : Text := "application/json".toList

def charsetUtf8 : Text × Text := ("charset".toList, "utf-8".toList)

structure Conforms (headers : HeaderMap) : Prop where
  accept : headerText headers "accept" = jsonType
  contentType : ∃ ct, readContentType (headerText headers "content-type") = some ct ∧
    ct.mediaType = jsonType ∧ charsetUtf8 ∈ ct.parameters

def isVisibleChar (c : Char) : Bool := (32 ≤ c.toNat && c.toNat < 127) || c.toNat == 9

theorem isVisibleChar_lower (b : UInt8) :
    isVisibleChar (Char.ofNat b.toNat).toLower = isVisibleAscii b := by
  have hall : ∀ n : Fin 256, isVisibleChar (Char.ofNat n.val).toLower =
      isVisibleAscii (UInt8.ofNat n.val) := by decide +kernel
  have hb := hall ⟨b.toNat, b.toNat_lt⟩
  simpa using hb

theorem isHeaderBlank_of_visible {c : Char} (h : isVisibleChar c = true) :
    isHeaderBlank c = isWhitespace c := by
  have hblank : isHeaderBlank c = (c.toNat == 32 || c.toNat == 9) := by
    rw [Bool.eq_iff_iff]
    simp [isHeaderBlank, ← Char.toNat_inj]
  rw [hblank, Bool.eq_iff_iff]
  simp only [isVisibleChar, Bool.or_eq_true, Bool.and_eq_true, decide_eq_true_eq, beq_iff_eq] at h
  simp only [isWhitespace, Bool.or_eq_true, Bool.and_eq_true, decide_eq_true_eq, beq_iff_eq]
  omega

theorem dropWhile_congr {p q : Char → Bool} {t : Text} (h : ∀ c ∈ t, p c = q c) :
    t.dropWhile p = t.dropWhile q := by
  induction t with
  | nil => rfl
  | cons c t ih =>
    rw [List.dropWhile_cons, List.dropWhile_cons, h c List.mem_cons_self,
      ih fun d hd => h d (List.mem_cons_of_mem c hd)]

theorem strip_eq_trim {t : Text} (h : ∀ c ∈ t, isVisibleChar c = true) : strip t = trim t := by
  have hblank : ∀ c ∈ t, isHeaderBlank c = isWhitespace c := fun c hc =>
    isHeaderBlank_of_visible (h c hc)
  rw [strip, trim, trimBy, trimBy, dropWhile_congr hblank, List.rdropWhile, List.rdropWhile]
  congr 1
  apply dropWhile_congr
  intro c hc
  exact hblank c ((List.dropWhile_sublist _).mem (List.mem_reverse.mp hc))

theorem visible_of_text {v : HeaderValue} (h : ∀ c ∈ valueText v, isVisibleChar c = true) :
    v.bytes.all isVisibleAscii = true := by
  rw [List.all_eq_true]
  intro b hb
  rw [← isVisibleChar_lower b]
  apply h
  rw [valueText, lowerAscii, List.map_map]
  exact List.mem_map_of_mem hb

theorem text_visible {v : HeaderValue} (h : v.bytes.all isVisibleAscii = true) :
    ∀ c ∈ valueText v, isVisibleChar c = true := by
  intro c hc
  rw [valueText, lowerAscii, List.map_map] at hc
  obtain ⟨b, hb, rfl⟩ := List.mem_map.mp hc
  rw [Function.comp_apply, isVisibleChar_lower]
  exact List.all_eq_true.mp h b hb

def Visible (headers : HeaderMap) (name : String) : Prop :=
  ∀ v, headers.get name = some v → v.bytes.all isVisibleAscii = true

theorem lowerText_of_visible {headers : HeaderMap} {name : String} (h : Visible headers name) :
    headers.lowerText name = headerText headers name := by
  unfold HeaderMap.lowerText headerText
  cases hv : headers.get name with
  | none => rfl
  | some v =>
    have htext : v.toStr = some (v.bytes.map fun b => Char.ofNat b.toNat) := if_pos (h v hv)
    rw [Option.bind_some, htext]
    rfl

theorem lowerText_of_not_visible {headers : HeaderMap} {name : String}
    (h : ¬ Visible headers name) : headers.lowerText name = [] := by
  unfold HeaderMap.lowerText
  cases hv : headers.get name with
  | none => rfl
  | some v =>
    have hall : ¬ v.bytes.all isVisibleAscii = true := by
      intro hall
      apply h
      intro w hw
      rw [hv] at hw
      cases hw
      exact hall
    have htext : v.toStr = none := if_neg hall
    rw [Option.bind_some, htext]
    rfl

theorem headerText_visible {headers : HeaderMap} {name : String} (h : Visible headers name) :
    ∀ c ∈ headerText headers name, isVisibleChar c = true := by
  unfold headerText
  cases hv : headers.get name with
  | none => simp
  | some v => exact text_visible (h v hv)

theorem visible_of_headerText {headers : HeaderMap} {name : String}
    (h : ∀ c ∈ headerText headers name, isVisibleChar c = true) : Visible headers name := by
  intro v hv
  unfold headerText at h
  rw [hv] at h
  exact visible_of_text h

theorem lowerText_accept (headers : HeaderMap) :
    headers.lowerText "accept" = jsonType ↔ headerText headers "accept" = jsonType := by
  by_cases h : Visible headers "accept"
  · rw [lowerText_of_visible h]
  · rw [lowerText_of_not_visible h]
    constructor
    · intro hempty
      cases hempty
    · intro htext
      apply absurd (visible_of_headerText _) h
      rw [htext]
      exact List.all_eq_true.mp (by decide)

theorem readParameter_eq_some {t name value : Text} :
    readParameter t = some (name, value) ↔
      ∃ a b, t = a ++ '=' :: b ∧ '=' ∉ a ∧ '=' ∉ b ∧ strip a = name ∧ strip b = value := by
  unfold readParameter
  constructor
  · intro h
    split at h
    · next a b hsplit =>
      obtain ⟨ht, ha, hb⟩ := two_pieces.mp hsplit
      cases h
      exact ⟨a, b, ht, ha, hb, rfl, rfl⟩
    · cases h
  · intro hgiven
    rcases hgiven with ⟨a, b, ht, ha, hb, rfl, rfl⟩
    rw [two_pieces.mpr ⟨ht, ha, hb⟩]

theorem readContentType_eq_some {t : Text} {ct : ContentType} :
    readContentType t = some ct ↔
      (';' ∉ t ∧ ct = ⟨strip t, []⟩) ∨
      ∃ m params, t = m ++ ';' :: params ∧ ';' ∉ m ∧ ct.mediaType = strip m ∧
        List.Forall₂ (fun p q => readParameter p = some q) (params.splitOn ';') ct.parameters := by
  unfold readContentType
  by_cases hc : ';' ∈ t
  · obtain ⟨m, params, rfl, hm⟩ := List.eq_append_cons_of_mem hc
    rw [List.splitOn_append_cons_self_of_not_mem hm]
    simp only [hc, not_true_eq_false, false_and, false_or]
    constructor
    · intro h
      obtain ⟨ps, hps, rfl⟩ := Option.map_eq_some_iff.mp h
      exact ⟨m, params, rfl, hm, rfl, mapM_eq_some.mp hps⟩
    · intro hgiven
      rcases hgiven with ⟨m', params', heq, hm', hmedia, hps⟩
      obtain ⟨rfl, rfl⟩ := split_unique hm hm' heq
      rw [mapM_eq_some.mpr hps, Option.map_some, ← hmedia]
  · rw [List.splitOn_eq_singleton hc]
    constructor
    · intro h
      cases h
      exact Or.inl ⟨hc, rfl⟩
    · intro hgiven
      rcases hgiven with ⟨_, rfl⟩ | ⟨m, params, rfl, _, _, _⟩
      · rfl
      · exact absurd (by simp) hc

theorem mediaType_eq {t : Text} {ct : ContentType} (h : readContentType t = some ct) :
    ct.mediaType = strip (t.takeWhile (· != ';')) := by
  rcases readContentType_eq_some.mp h with ⟨hc, rfl⟩ | ⟨m, params, rfl, hm, hmedia, _⟩
  · have hall : t.takeWhile (· != ';') = t := by
      rw [List.takeWhile_eq_self_iff]
      exact ne_of_before hc
    rw [hall]
  · rw [takeWhile_before hm, hmedia]

def HasCharset (t : Text) : Prop :=
  ∃ ct, readContentType t = some ct ∧ charsetUtf8 ∈ ct.parameters

/-- Parameters of the right form, `charset=utf-8` and at least one more. -/
def SeveralParameters (t : Text) : Prop :=
  ∃ ct, readContentType t = some ct ∧ charsetUtf8 ∈ ct.parameters ∧ 2 ≤ ct.parameters.length

/-- The value after the first `=` is read, up to the next one. -/
def Reads (t m a b rest : Text) : Prop :=
  t = m ++ ';' :: (a ++ '=' :: (b ++ rest)) ∧ ';' ∉ m ∧ '=' ∉ a ∧ '=' ∉ b ∧
    (rest = [] ∨ ∃ r, rest = '=' :: r) ∧ strip b = charsetUtf8.2

/-- Nothing but one parameter named `charset` stands before and after the value. -/
def IsOnlyCharset (a rest : Text) : Prop := rest = [] ∧ ';' ∉ a ∧ strip a = charsetUtf8.1

def OneCharset (t : Text) : Prop := ∃ m a b rest, Reads t m a b rest ∧ IsOnlyCharset a rest

/-- The value `utf-8` of something else than a single parameter `charset`. -/
def Misread (t : Text) : Prop := ∃ m a b rest, Reads t m a b rest ∧ ¬ IsOnlyCharset a rest

theorem not_mem_of_strip {c : Char} {t u : Text} (hc : isHeaderBlank c = false)
    (h : strip t = u) (hu : c ∉ u) : c ∉ t := by
  intro ht
  apply hu
  rw [← h]
  exact mem_trimBy ht hc

theorem reads_unique {t m a b rest m' a' b' rest' : Text} (h : Reads t m a b rest)
    (h' : Reads t m' a' b' rest') : a = a' ∧ rest = rest' := by
  rcases h with ⟨ht, hm, ha, hb, hrest, _⟩
  rcases h' with ⟨ht', hm', ha', hb', hrest', _⟩
  obtain ⟨_, hparams⟩ := split_unique hm hm' (ht.symm.trans ht')
  obtain ⟨haa, hvalue⟩ := split_unique ha ha' hparams
  have hsecond : (a ++ '=' :: (b ++ rest)).splitOn '=' =
      (a' ++ '=' :: (b' ++ rest')).splitOn '=' := by
    rw [hparams]
  have h1 := second_piece.mpr ⟨a, rest, rfl, ha, hb, hrest⟩
  have h2 := second_piece.mpr ⟨a', rest', rfl, ha', hb', hrest'⟩
  rw [hsecond, h2, Option.some.injEq] at h1
  subst h1
  exact ⟨haa, List.append_cancel_left hvalue⟩

theorem not_misread_of_oneCharset {t : Text} (h : OneCharset t) : ¬ Misread t := by
  intro hgiven
  rcases hgiven with ⟨m, a, b, rest, hreads, hother⟩
  rcases h with ⟨m', a', b', rest', hreads', honly⟩
  obtain ⟨rfl, rfl⟩ := reads_unique hreads hreads'
  exact hother honly

theorem oneCharset_iff {t : Text} :
    OneCharset t ↔ ∃ ct, readContentType t = some ct ∧ ct.parameters = [charsetUtf8] := by
  constructor
  · intro h
    rcases h with ⟨m, a, b, rest, ⟨ht, hm, ha, hb, _, hvalue⟩, hrest, hac, hname⟩
    subst hrest
    rw [List.append_nil] at ht
    have hbc : ';' ∉ b := not_mem_of_strip (by decide) hvalue (by decide)
    have hparams : ';' ∉ a ++ '=' :: b := by simp [hac, hbc]
    refine ⟨⟨strip m, [charsetUtf8]⟩, ?_, rfl⟩
    apply readContentType_eq_some.mpr
    refine Or.inr ⟨m, _, ht, hm, rfl, ?_⟩
    have hread : readParameter (a ++ '=' :: b) = some charsetUtf8 :=
      readParameter_eq_some.mpr ⟨a, b, rfl, ha, hb, hname, hvalue⟩
    rw [List.splitOn_eq_singleton hparams]
    exact .cons hread .nil
  · intro h
    rcases h with ⟨ct, hct, hps⟩
    rcases readContentType_eq_some.mp hct with ⟨_, rfl⟩ | ⟨m, params, ht, hm, _, hmap⟩
    · cases hps
    · rw [hps] at hmap
      obtain ⟨p, ps, hp, hnil, hsplit⟩ := List.forall₂_cons_right_iff.mp hmap
      rw [List.forall₂_nil_right_iff] at hnil
      subst hnil
      have hpiece : params = p ∧ ';' ∉ p := by
        have hjoin : [';'].intercalate (params.splitOn ';') = params := List.intercalate_splitOn ';'
        rw [← hjoin, hsplit, List.intercalate_singleton]
        exact ⟨rfl, not_mem_of_mem_splitOn (hsplit ▸ List.mem_singleton_self p)⟩
      obtain ⟨a, b, hab, ha, hb, hname, hvalue⟩ := readParameter_eq_some.mp hp
      refine ⟨m, a, b, [], ⟨?_, hm, ha, hb, Or.inl rfl, hvalue⟩, rfl, ?_, hname⟩
      · rw [ht, hpiece.1, hab, List.append_nil]
      · intro hac
        apply hpiece.2
        rw [hab]
        exact List.mem_append_left _ hac

theorem hasCharset_iff {t : Text} : HasCharset t ↔ SeveralParameters t ∨ OneCharset t := by
  constructor
  · intro h
    rcases h with ⟨ct, hct, hmem⟩
    by_cases hlength : 2 ≤ ct.parameters.length
    · exact Or.inl ⟨ct, hct, hmem, hlength⟩
    · right
      apply oneCharset_iff.mpr
      refine ⟨ct, hct, ?_⟩
      have hpos := List.length_pos_of_mem hmem
      obtain ⟨p, hp⟩ := List.length_eq_one_iff.mp (show ct.parameters.length = 1 by omega)
      rw [hp, List.mem_singleton] at hmem
      rw [hp, hmem]
  · intro h
    rcases h with ⟨ct, hct, hmem, _⟩ | hone
    · exact ⟨ct, hct, hmem⟩
    · obtain ⟨ct, hct, hps⟩ := oneCharset_iff.mp hone
      exact ⟨ct, hct, by rw [hps]; exact List.mem_singleton_self _⟩

theorem not_reads_of_several {t m a b rest : Text} (h : SeveralParameters t) :
    ¬ Reads t m a b rest := by
  intro hgiven
  rcases hgiven with ⟨ht, hm, ha, hb, hrest, hvalue⟩
  rcases h with ⟨ct, hct, _, hlength⟩
  rcases readContentType_eq_some.mp hct with ⟨_, rfl⟩ | ⟨m', params, ht', hm', _, hmap⟩
  · simp at hlength
  · obtain ⟨_, hparams⟩ := split_unique hm hm' (ht.symm.trans ht')
    have hc : ';' ∈ params := by
      by_contra hc
      rw [List.splitOn_eq_singleton hc] at hmap
      have hone := hmap.length_eq
      rw [List.length_singleton] at hone
      omega
    obtain ⟨p, q, hpq, hp⟩ := List.eq_append_cons_of_mem hc
    rw [hpq, List.splitOn_append_cons_self_of_not_mem hp] at hmap
    obtain ⟨name, _, hread, _, _⟩ := List.forall₂_cons_left_iff.mp hmap
    obtain ⟨a', b', hab', ha', hb', _, _⟩ := readParameter_eq_some.mp hread
    have hsplit : a ++ '=' :: (b ++ rest) = a' ++ '=' :: (b' ++ ';' :: q) := by
      rw [hparams, hpq, hab', List.append_assoc, List.cons_append]
    obtain ⟨_, hvalues⟩ := split_unique ha ha' hsplit
    have hbc : ';' ∉ b := not_mem_of_strip (by decide) hvalue (by decide)
    rcases hrest with rfl | ⟨r, rfl⟩
    · rw [List.append_nil] at hvalues
      rw [hvalues] at hbc
      exact hbc (List.mem_append_right b' List.mem_cons_self)
    · exact cuts_differ (by decide) hbc hb' hvalues

theorem not_oneCharset_of_several {t : Text} (h : SeveralParameters t) : ¬ OneCharset t := by
  intro hgiven
  rcases hgiven with ⟨m, a, b, rest, hreads, _⟩
  exact not_reads_of_several h hreads

theorem not_misread_of_several {t : Text} (h : SeveralParameters t) : ¬ Misread t := by
  intro hgiven
  rcases hgiven with ⟨m, a, b, rest, hreads, _⟩
  exact not_reads_of_several h hreads

theorem reads_cases {t : Text} :
    (∃ m a b rest, Reads t m a b rest) ↔ Misread t ∨ OneCharset t := by
  constructor
  · intro h
    rcases h with ⟨m, a, b, rest, h⟩
    by_cases honly : IsOnlyCharset a rest
    · exact Or.inr ⟨m, a, b, rest, h, honly⟩
    · exact Or.inl ⟨m, a, b, rest, h, honly⟩
  · intro h
    rcases h with ⟨m, a, b, rest, h, _⟩ | ⟨m, a, b, rest, h, _⟩
    · exact ⟨m, a, b, rest, h⟩
    · exact ⟨m, a, b, rest, h⟩

theorem reads_iff_second {m params : Text} (hm : ';' ∉ m) :
    (∃ m' a b rest, Reads (m ++ ';' :: params) m' a b rest) ↔
      ∃ b, (params.splitOn '=')[1]? = some b ∧ strip b = charsetUtf8.2 := by
  constructor
  · intro h
    rcases h with ⟨m', a, b, rest, heq, hm', ha, hb, hrest, hvalue⟩
    obtain ⟨_, hparams⟩ := split_unique hm hm' heq
    exact ⟨b, second_piece.mpr ⟨a, rest, hparams, ha, hb, hrest⟩, hvalue⟩
  · intro h
    rcases h with ⟨b, hsecond, hvalue⟩
    obtain ⟨a, rest, hparams, ha, hb, hrest⟩ := second_piece.mp hsecond
    exact ⟨m, a, b, rest, by rw [hparams], hm, ha, hb, hrest, hvalue⟩

theorem charsetOf_iff {t : Text} (hvisible : ∀ c ∈ t, isVisibleChar c = true) :
    charsetOf t = charsetUtf8.2 ↔ Misread t ∨ OneCharset t := by
  rw [← reads_cases]
  unfold charsetOf
  by_cases hc : ';' ∈ t
  · obtain ⟨m, params, rfl, hm⟩ := List.eq_append_cons_of_mem hc
    rw [reads_iff_second hm]
    simp only [dropWhile_before hm]
    cases hsecond : (params.splitOn '=')[1]? with
    | none =>
      constructor
      · intro h
        cases h
      · intro h
        rcases h with ⟨_, hnone, _⟩
        cases hnone
    | some b =>
      have hstrip : strip b = trim b := by
        apply strip_eq_trim
        intro c hcb
        obtain ⟨a, rest, hparams, _⟩ := second_piece.mp hsecond
        apply hvisible
        simp [hparams, hcb]
      rw [Option.map_some, Option.getD_some, ← hstrip]
      simp
  · have hdrop : t.dropWhile (· != ';') = [] := by
      rw [List.dropWhile_eq_nil_iff]
      exact ne_of_before hc
    rw [hdrop]
    constructor
    · intro h
      cases h
    · intro h
      rcases h with ⟨m, a, b, rest, rfl, _⟩
      exact absurd (List.mem_append_right m List.mem_cons_self) hc

def JsonRequest (headers : HeaderMap) : Prop :=
  headerText headers "accept" = jsonType ∧
    strip ((headerText headers "content-type").takeWhile (· != ';')) = jsonType

variable {headers : HeaderMap}

theorem conforms_iff :
    Conforms headers ↔ JsonRequest headers ∧ HasCharset (headerText headers "content-type") := by
  constructor
  · intro h
    rcases h with ⟨haccept, ct, hct, hmedia, hcharset⟩
    exact ⟨⟨haccept, (mediaType_eq hct).symm.trans hmedia⟩, ct, hct, hcharset⟩
  · intro h
    rcases h with ⟨⟨haccept, hmedia⟩, ct, hct, hcharset⟩
    exact ⟨haccept, ct, hct, (mediaType_eq hct).trans hmedia, hcharset⟩

theorem visible_of_strip {t u : Text} (h : strip t = u) (hu : ∀ c ∈ u, isVisibleChar c = true) :
    ∀ c ∈ t, isVisibleChar c = true := by
  intro c hc
  cases hblank : isHeaderBlank c with
  | true =>
    simp only [isHeaderBlank, Bool.or_eq_true, beq_iff_eq] at hblank
    rcases hblank with rfl | rfl
    · decide
    · decide
  | false => exact hu c (h ▸ mem_trimBy hc hblank)

theorem visible_of_oneCharset (hjson : JsonRequest headers)
    (h : OneCharset (headerText headers "content-type")) : Visible headers "content-type" := by
  rcases h with ⟨m, a, b, rest, ⟨ht, hm, _, _, _, hvalue⟩, hrest, _, hname⟩
  subst hrest
  have hmedia := hjson.2
  rw [ht, takeWhile_before hm] at hmedia
  apply visible_of_headerText
  rw [ht]
  intro c hc
  simp only [List.append_nil, List.mem_append, List.mem_cons] at hc
  rcases hc with hc | rfl | hc | rfl | hc
  · exact visible_of_strip hmedia (List.all_eq_true.mp (by decide)) c hc
  · decide
  · exact visible_of_strip hname (List.all_eq_true.mp (by decide)) c hc
  · decide
  · exact visible_of_strip hvalue (List.all_eq_true.mp (by decide)) c hc

theorem validateHeaders_ok (headers : HeaderMap) :
    validateHeaders headers true = .ok () ↔ headers.lowerText "accept" = jsonType ∧
      contentTypeOf (headers.lowerText "content-type") = jsonType ∧
      charsetOf (headers.lowerText "content-type") = charsetUtf8.2 := by
  unfold validateHeaders jsonType charsetUtf8
  generalize headers.lowerText "accept" = accept
  generalize headers.lowerText "content-type" = rawCt
  generalize "application/json".toList = json
  generalize "utf-8".toList = utf8
  simp only [ne_eq, ite_not, ↓reduceIte]
  split_ifs with h1 h2 h3
  · exact iff_of_true rfl ⟨h1, h2, h3⟩
  · exact iff_of_false (by simp) fun h => h3 h.2.2
  · exact iff_of_false (by simp) fun h => h2 h.2.1
  · exact iff_of_false (by simp) fun h => h1 h.1

theorem validateHeaders_of_visible (h : Visible headers "content-type") :
    validateHeaders headers true = .ok () ↔
      JsonRequest headers ∧ charsetOf (headerText headers "content-type") = charsetUtf8.2 := by
  have hmedia : contentTypeOf (headerText headers "content-type") =
      strip ((headerText headers "content-type").takeWhile (· != ';')) := by
    rw [contentTypeOf, strip_eq_trim]
    intro c hc
    exact headerText_visible h c ((List.takeWhile_prefix _).mem hc)
  rw [validateHeaders_ok, lowerText_accept, lowerText_of_visible h, hmedia, JsonRequest, and_assoc]

theorem validateHeaders_of_not_visible (h : ¬ Visible headers "content-type") :
    validateHeaders headers true ≠ .ok () := by
  intro hok
  have hmedia := ((validateHeaders_ok headers).mp hok).2.1
  rw [lowerText_of_not_visible h] at hmedia
  cases hmedia

/-- The check decides the grammar unless there are several parameters, or the value it
takes for the charset is the value of something else. -/
theorem validateHeaders_exact_iff (headers : HeaderMap) :
    (validateHeaders headers true = .ok () ↔ Conforms headers) ↔
      (JsonRequest headers → ¬ SeveralParameters (headerText headers "content-type") ∧
        ¬ (Visible headers "content-type" ∧ Misread (headerText headers "content-type"))) := by
  rw [conforms_iff, hasCharset_iff]
  by_cases hjson : JsonRequest headers
  · by_cases hvisible : Visible headers "content-type"
    · rw [validateHeaders_of_visible hvisible, charsetOf_iff (headerText_visible hvisible)]
      have h1 := not_oneCharset_of_several (t := headerText headers "content-type")
      have h2 := not_misread_of_several (t := headerText headers "content-type")
      have h3 := not_misread_of_oneCharset (t := headerText headers "content-type")
      tauto
    · have hfail := validateHeaders_of_not_visible hvisible
      have hone : ¬ OneCharset (headerText headers "content-type") :=
        fun h => hvisible (visible_of_oneCharset hjson h)
      tauto
  · have hfail : validateHeaders headers true ≠ .ok () := by
      intro hok
      by_cases hvisible : Visible headers "content-type"
      · exact hjson ((validateHeaders_of_visible hvisible).mp hok).1
      · exact validateHeaders_of_not_visible hvisible hok
    tauto

def acceptJson : HeaderValue := ⟨asciiBytes jsonType, by decide⟩

/-- The value `utf-8` of a parameter `foo`. -/
def otherName : HeaderMap :=
  [("accept", acceptJson),
    ("content-type", ⟨asciiBytes "application/json; foo=utf-8".toList, by decide⟩)]

def versioned : HeaderMap :=
  [("accept", acceptJson),
    ("content-type", ⟨asciiBytes "application/json; charset=utf-8; version=1".toList, by decide⟩)]

theorem other_name_accepted :
    (validateHeaders otherName true = .ok () ∧ ¬ Conforms otherName) ∧
      validateHeaders versioned true ≠ .ok () ∧ Conforms versioned := by
  have hother : readContentType (headerText otherName "content-type") =
      some ⟨jsonType, [("foo".toList, "utf-8".toList)]⟩ := by decide +kernel
  have hversioned : readContentType (headerText versioned "content-type") =
      some ⟨jsonType, [charsetUtf8, ("version".toList, "1".toList)]⟩ := by decide +kernel
  constructor
  · constructor
    · decide +kernel
    · intro h
      rcases h with ⟨_, ct, hct, _, hcharset⟩
      rw [hother] at hct
      cases hct
      revert hcharset
      decide
  · constructor
    · decide +kernel
    · exact ⟨by decide +kernel, _, hversioned, rfl, List.mem_cons_self⟩

end ContentTypes
