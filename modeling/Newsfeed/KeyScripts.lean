import Mathlib.Data.Finset.Basic
import Newsfeed.ApiKeys
import Newsfeed.SeparatedLists

/-! # The API key scripts

`generate-api-key.sh` and `revoke-api-key.sh` edit the line `API_KEYS=` of the file
`.env` with `grep`, `sed` and `echo`. The server reads a set of digests from that line.
-/
namespace KeyScripts

open TextOperations SeparatedLists ApiKeys

def keysPrefix : Text := "API_KEYS=".toList

/-- `^API_KEYS=`. -/
def isKeysLine (line : Text) : Bool := keysPrefix.isPrefixOf line

/-- The last line is empty when the file ends with a newline. -/
def lines (env : Text) : List Text := env.splitOn '\n'

/-- `grep -E '^API_KEYS=' | sed 's/^API_KEYS=//'`. -/
def keyValues (env : Text) : List Text :=
  ((lines env).filter isKeysLine).map (List.drop keysPrefix.length)

/-- `CURRENT_KEYS`; a command substitution drops the newlines at the end. -/
def currentKeys (env : Text) : Text :=
  (['\n'].intercalate (keyValues env)).rdropWhile (· == '\n')

/-- `sed -i "s/^API_KEYS=.*/API_KEYS=${value}/"`, for a value without `/`, `&` and `\`. -/
def setKeys (value env : Text) : Text :=
  ['\n'].intercalate
    ((lines env).map fun line => if isKeysLine line then keysPrefix ++ value else line)

/-- `tr ',' '\n' | grep -c .` of the values. -/
def keyCount (env : Text) : Nat :=
  ((keyValues env).flatMap fun value => value.splitOn ',').countP fun key => !key.isEmpty

/-- The file after a run whose prompts are answered, and whether its exit status is 0. -/
structure Outcome where
  env : Text
  exitOk : Bool
  deriving DecidableEq, Repr

/-- The new line is written behind whatever the file ends with. Counting the keys fails, and
with it the run, when there is no line to count them in (`generate_unterminated`). -/
def generateApiKey (newHash env : Text) : Outcome :=
  let current := currentKeys env
  let env' :=
    if current.isEmpty then
      if (lines env).any isKeysLine then setKeys newHash env
      else env ++ (keysPrefix ++ newHash ++ ['\n'])
    else setKeys (current ++ ',' :: newHash) env
  ⟨env', keyCount env' != 0⟩

/-- `[:space:]` of `tr`. -/
def isShellSpace (c : Char) : Bool := c == ' ' || (9 ≤ c.toNat && c.toNat ≤ 13)

/-- `KEYS`: the value split on commas, without white space, without empty entries. -/
def keys (env : Text) : List Text :=
  ((((currentKeys env).map fun c => if c = ',' then '\n' else c).splitOn '\n').map
    (List.filter fun c => !isShellSpace c)).filter fun k => !k.isEmpty

/-- `choice` is the value of the number that is entered, 0 to cancel. -/
def revokeApiKey (choice : Nat) (env : Text) : Outcome :=
  let ks := keys env
  if ks.isEmpty then ⟨env, true⟩
  else if choice = 0 then ⟨env, true⟩
  else if ks.length < choice then ⟨env, false⟩
  else ⟨setKeys ([','].intercalate (ks.eraseIdx (choice - 1))) env, true⟩

inductive Run where
  | generate (newHash : Text)
  | revoke (choice : Nat)
  deriving DecidableEq, Repr

def Run.outcome : Run → Text → Outcome
  | .generate newHash, env => generateApiKey newHash env
  | .revoke choice, env => revokeApiKey choice env

def keysValue (env : Text) : Text :=
  (((lines env).find? isKeysLine).map (List.drop keysPrefix.length)).getD []

def acceptedKeys (env : Text) : Finset Text := AppConfig.apiKeysSet ⟨keysValue env, 0⟩

def otherLines (env : Text) : List Text := (lines env).filter fun line => !isKeysLine line

inductive KeyChange where
  | insert (digest : Text)
  | erase (digest : Text)
  | nothing
  deriving DecidableEq, Repr

def KeyChange.apply : KeyChange → Finset Text → Finset Text
  | .insert digest, accepted => Insert.insert digest accepted
  | .erase digest, accepted => accepted.erase digest
  | .nothing, accepted => accepted

/-- What a run is asked to do: a revocation, to remove the digest at a position. -/
def Run.asked : Run → Text → KeyChange
  | .generate newHash, _ => .insert newHash
  | .revoke choice, env =>
    if choice = 0 then .nothing
    else
      match (keys env)[choice - 1]? with
      | none => .nothing
      | some digest => .erase digest

def IsDigest (t : Text) : Prop := t ≠ [] ∧ ∀ c ∈ t, IsHexDigit c

/-- A digest with blanks around it, or blanks alone. -/
def IsKeyEntry (entry : Text) : Prop :=
  ∃ before digest after, entry = before ++ (digest ++ after) ∧
    (∀ c ∈ before, isShellSpace c = true) ∧ (∀ c ∈ digest, IsHexDigit c) ∧
    ∀ c ∈ after, isShellSpace c = true

/-- A file with at most one line for the keys, which holds a list of digests. -/
structure KeyFile (env : Text) : Prop where
  oneLine : ((lines env).filter isKeysLine).length ≤ 1
  entries : ∀ entry ∈ (keysValue env).splitOn ',', IsKeyEntry entry

theorem toNat_of_hexDigit {c : Char} (h : IsHexDigit c) :
    (48 ≤ c.toNat ∧ c.toNat ≤ 57) ∨ (97 ≤ c.toNat ∧ c.toNat ≤ 102) ∨
      (65 ≤ c.toNat ∧ c.toNat ≤ 70) := h

theorem not_shellSpace_of_hexDigit {c : Char} (h : IsHexDigit c) : isShellSpace c = false := by
  have hrange := toNat_of_hexDigit h
  rw [isShellSpace, Bool.or_eq_false_iff, beq_eq_false_iff_ne]
  constructor
  · rintro rfl
    revert hrange
    decide
  · rw [Bool.and_eq_false_iff, decide_eq_false_iff_not, decide_eq_false_iff_not]
    omega

theorem not_whitespace_of_hexDigit {c : Char} (h : IsHexDigit c) : isWhitespace c = false := by
  have hrange := toNat_of_hexDigit h
  rw [← Bool.not_eq_true, isWhitespace]
  simp only [Bool.or_eq_true, Bool.and_eq_true, decide_eq_true_eq, beq_iff_eq]
  omega

theorem whitespace_of_shellSpace {c : Char} (h : isShellSpace c = true) :
    isWhitespace c = true := by
  simp only [isShellSpace, Bool.or_eq_true, Bool.and_eq_true, decide_eq_true_eq, beq_iff_eq,
    ← Char.toNat_inj] at h
  simp only [isWhitespace, Bool.or_eq_true, Bool.and_eq_true, decide_eq_true_eq, beq_iff_eq]
  have hspace : ' '.toNat = 32 := rfl
  omega

theorem hexDigit_ne {c : Char} (h : IsHexDigit c) : c ≠ ',' ∧ c ≠ '\n' := by
  have hrange := toNat_of_hexDigit h
  constructor
  · rintro rfl
    revert hrange
    decide
  · rintro rfl
    revert hrange
    decide

theorem digest_plain {t : Text} (h : ∀ c ∈ t, IsHexDigit c) : ',' ∉ t ∧ '\n' ∉ t :=
  ⟨fun hmem => (hexDigit_ne (h _ hmem)).1 rfl, fun hmem => (hexDigit_ne (h _ hmem)).2 rfl⟩

theorem filter_entry {before digest after : Text} (hbefore : ∀ c ∈ before, isShellSpace c = true)
    (hdigest : ∀ c ∈ digest, IsHexDigit c) (hafter : ∀ c ∈ after, isShellSpace c = true) :
    (before ++ (digest ++ after)).filter (fun c => !isShellSpace c) = digest := by
  have hblank : ∀ {t : Text}, (∀ c ∈ t, isShellSpace c = true) →
      t.filter (fun c => !isShellSpace c) = [] := by
    intro t ht
    rw [List.filter_eq_nil_iff]
    intro c hc
    simp [ht c hc]
  have hkept : digest.filter (fun c => !isShellSpace c) = digest := by
    rw [List.filter_eq_self]
    intro c hc
    rw [not_shellSpace_of_hexDigit (hdigest c hc)]
    rfl
  rw [List.filter_append, List.filter_append, hblank hbefore, hblank hafter, hkept,
    List.nil_append, List.append_nil]

theorem trim_entry {before digest after : Text} (hbefore : ∀ c ∈ before, isShellSpace c = true)
    (hdigest : ∀ c ∈ digest, IsHexDigit c) (hafter : ∀ c ∈ after, isShellSpace c = true) :
    trim (before ++ (digest ++ after)) = digest :=
  trimBy_surrounded (fun c hc => whitespace_of_shellSpace (hbefore c hc))
    (fun c hc => not_whitespace_of_hexDigit (hdigest c hc))
    fun c hc => whitespace_of_shellSpace (hafter c hc)

theorem trim_keyEntry {entry : Text} (h : IsKeyEntry entry) :
    entry.filter (fun c => !isShellSpace c) = trim entry ∧ ∀ c ∈ trim entry, IsHexDigit c := by
  rcases h with ⟨before, digest, after, rfl, hbefore, hdigest, hafter⟩
  rw [filter_entry hbefore hdigest hafter, trim_entry hbefore hdigest hafter]
  exact ⟨rfl, hdigest⟩

theorem keyEntry_of_digest {digest : Text} (h : ∀ c ∈ digest, IsHexDigit c) :
    IsKeyEntry digest :=
  ⟨[], digest, [], by simp, by simp, h, by simp⟩

theorem trim_digest {digest : Text} (h : IsDigest digest) : trim digest = digest := by
  have hnone : ∀ c ∈ ([] : Text), isShellSpace c = true := fun _ hc => absurd hc List.not_mem_nil
  have htrim := trim_entry hnone h.2 hnone
  rwa [List.nil_append, List.append_nil] at htrim

theorem entries_singleton {digest : Text} (h : IsDigest digest) : entries digest = [digest] := by
  rw [entries, List.splitOn_eq_singleton (digest_plain h.2).1, List.map_singleton,
    trim_digest h, List.filter_cons_of_pos (by simpa using h.1), List.filter_nil]

theorem entries_append (value newHash : Text) :
    entries (value ++ ',' :: newHash) = entries value ++ entries newHash := by
  rw [entries, List.splitOn_append_cons_self, List.map_append, List.filter_append, entries,
    entries]

theorem entries_digest {value entry : Text} (h : ∀ e ∈ value.splitOn ',', IsKeyEntry e)
    (hentry : entry ∈ entries value) : IsDigest entry := by
  rw [entries, List.mem_filter, List.mem_map] at hentry
  rcases hentry with ⟨⟨e, he, rfl⟩, hne⟩
  exact ⟨by simpa using hne, (trim_keyEntry (h e he)).2⟩

theorem keyEntries_digest {newHash : Text} (h : IsDigest newHash) :
    ∀ e ∈ newHash.splitOn ',', IsKeyEntry e := by
  intro e he
  rw [List.splitOn_eq_singleton (digest_plain h.2).1, List.mem_singleton] at he
  exact he ▸ keyEntry_of_digest h.2

theorem splitOn_join {ks : List Text} (h : ∀ k ∈ ks, IsDigest k) :
    (∀ e ∈ ([','].intercalate ks).splitOn ',', IsKeyEntry e) ∧
      entries ([','].intercalate ks) = ks := by
  cases ks with
  | nil =>
    constructor
    · intro e he
      rw [List.intercalate_nil, List.splitOn_nil, List.mem_singleton] at he
      exact keyEntry_of_digest (by simp [he])
    · rfl
  | cons k ks =>
    have hsplit : ([','].intercalate (k :: ks)).splitOn ',' = k :: ks :=
      List.splitOn_intercalate ',' (fun e he => (digest_plain (h e he).2).1)
        (List.cons_ne_nil k ks)
    constructor
    · intro e he
      rw [hsplit] at he
      exact keyEntry_of_digest (h e he).2
    · have htrim : (k :: ks).map trim = (k :: ks).map id :=
        List.map_congr_left fun e he => trim_digest (h e he)
      rw [entries, hsplit, htrim, List.map_id, List.filter_eq_self]
      intro e he
      simpa using (h e he).1

theorem join_noNewline {ks : List Text} (h : ∀ k ∈ ks, IsDigest k) :
    '\n' ∉ [','].intercalate ks :=
  not_mem_intercalate (by decide) fun k hk => (digest_plain (h k hk).2).2

theorem isKeysLine_written (value : Text) : isKeysLine (keysPrefix ++ value) = true :=
  List.isPrefixOf_iff_prefix.mpr (List.prefix_append _ _)

theorem not_newline_of_line {env line : Text} (h : line ∈ lines env) : '\n' ∉ line :=
  not_mem_of_mem_splitOn h

theorem keyLines_cases {env : Text} (h : KeyFile env) :
    (lines env).filter isKeysLine = [] ∨ ∃ line, (lines env).filter isKeysLine = [line] := by
  rcases Nat.le_one_iff_eq_zero_or_eq_one.mp h.oneLine with h0 | h1
  · exact Or.inl (List.eq_nil_of_length_eq_zero h0)
  · exact Or.inr (List.length_eq_one_iff.mp h1)

theorem keysValue_of_filter {env : Text} {keyLines : List Text}
    (h : (lines env).filter isKeysLine = keyLines) :
    keysValue env = (keyLines.head?.map (List.drop keysPrefix.length)).getD [] := by
  rw [keysValue, ← List.head?_filter, h]

theorem keysValue_noNewline (env : Text) : '\n' ∉ keysValue env := by
  rw [keysValue]
  cases hfind : (lines env).find? isKeysLine with
  | none => simp
  | some line =>
    have hline := not_newline_of_line (List.mem_of_find?_eq_some hfind)
    exact fun hmem => hline (List.mem_of_mem_drop hmem)

theorem currentKeys_eq {env : Text} (h : KeyFile env) : currentKeys env = keysValue env := by
  have hvalue := keysValue_noNewline env
  rw [currentKeys, keyValues]
  rcases keyLines_cases h with hnone | ⟨line, hline⟩
  · rw [keysValue_of_filter hnone, hnone]
    rfl
  · have hdrop : keysValue env = line.drop keysPrefix.length := keysValue_of_filter hline
    rw [hline, List.map_singleton, List.intercalate_singleton, ← hdrop,
      List.rdropWhile_eq_self_iff]
    intro hne hlast
    have hmem := List.getLast_mem hne
    rw [beq_iff_eq.mp hlast] at hmem
    exact hvalue hmem

theorem keys_eq {env : Text} (h : KeyFile env) : keys env = entries (keysValue env) := by
  have hmap : ((keysValue env).splitOn ',').map (List.filter fun c => !isShellSpace c) =
      ((keysValue env).splitOn ',').map trim :=
    List.map_congr_left fun e he => (trim_keyEntry (h.entries e he)).1
  rw [keys, currentKeys_eq h, splitOn_replace (keysValue_noNewline env), hmap, entries]

theorem keys_digest {env digest : Text} (h : KeyFile env) (hmem : digest ∈ keys env) :
    IsDigest digest := by
  rw [keys_eq h] at hmem
  exact entries_digest h.entries hmem

theorem otherLines_of_none {env : Text} (h : (lines env).filter isKeysLine = []) :
    otherLines env = lines env := by
  rw [otherLines, List.filter_eq_self]
  intro line hline
  simpa using List.filter_eq_nil_iff.mp h line hline

theorem lines_setKeys {value env : Text} (h : '\n' ∉ value) : lines (setKeys value env) =
    (lines env).map fun line => if isKeysLine line then keysPrefix ++ value else line := by
  rw [lines, setKeys]
  apply List.splitOn_intercalate
  · intro piece hpiece
    obtain ⟨line, hline, rfl⟩ := List.mem_map.mp hpiece
    split
    · rw [List.mem_append, not_or]
      exact ⟨by decide, h⟩
    · exact not_newline_of_line hline
  · rw [ne_eq, List.map_eq_nil_iff]
    exact List.splitOn_ne_nil '\n' env

theorem filter_setLine (value : Text) (ls : List Text) :
    (ls.map fun line => if isKeysLine line then keysPrefix ++ value else line).filter isKeysLine =
      (ls.filter isKeysLine).map fun _ => keysPrefix ++ value := by
  induction ls with
  | nil => rfl
  | cons line ls ih =>
    rw [List.map_cons]
    by_cases hline : isKeysLine line = true
    · rw [if_pos hline, List.filter_cons_of_pos (isKeysLine_written value), ih,
        List.filter_cons_of_pos hline, List.map_cons]
    · rw [if_neg hline, List.filter_cons_of_neg hline, ih, List.filter_cons_of_neg hline]

theorem others_setLine (value : Text) (ls : List Text) :
    (ls.map fun line => if isKeysLine line then keysPrefix ++ value else line).filter
      (fun line => !isKeysLine line) = ls.filter fun line => !isKeysLine line := by
  induction ls with
  | nil => rfl
  | cons line ls ih =>
    rw [List.map_cons]
    by_cases hline : isKeysLine line = true
    · rw [if_pos hline, List.filter_cons_of_neg (by simp [isKeysLine_written]), ih,
        List.filter_cons_of_neg (by simp [hline])]
    · rw [if_neg hline, List.filter_cons_of_pos (by simpa using hline), ih,
        List.filter_cons_of_pos (by simpa using hline)]

structure Rewritten (env env' value : Text) : Prop where
  keyFile : KeyFile env'
  value : keysValue env' = value
  others : otherLines env' = otherLines env

theorem rewritten_of_line {env env' value : Text} (hentries : ∀ e ∈ value.splitOn ',', IsKeyEntry e)
    (hline : (lines env').filter isKeysLine = [keysPrefix ++ value])
    (hothers : otherLines env' = otherLines env) : Rewritten env env' value := by
  have hvalue : keysValue env' = value := by
    rw [keysValue_of_filter hline]
    exact List.drop_left
  exact ⟨⟨by rw [hline]; rfl, hvalue ▸ hentries⟩, hvalue, hothers⟩

theorem setKeys_rewritten {env value : Text} (h : KeyFile env)
    (hline : (lines env).filter isKeysLine ≠ []) (hvalue : '\n' ∉ value)
    (hentries : ∀ e ∈ value.splitOn ',', IsKeyEntry e) :
    Rewritten env (setKeys value env) value := by
  apply rewritten_of_line hentries
  · rcases keyLines_cases h with hnone | ⟨line, hone⟩
    · exact absurd hnone hline
    · rw [lines_setKeys hvalue, filter_setLine, hone, List.map_singleton]
  · rw [otherLines, lines_setKeys hvalue, others_setLine, otherLines]

theorem eq_nil_of_keysLine {last value : Text} (hlast : isKeysLine last = false)
    (h : isKeysLine (last ++ (keysPrefix ++ value)) = true) : last = [] := by
  have hletter : 'A' ∉ "PI_KEYS=".toList := by decide
  apply eq_nil_of_word_prefix hletter
  · intro hpre
    have hkey : isKeysLine last = true := List.isPrefixOf_iff_prefix.mpr hpre
    rw [hkey] at hlast
    cases hlast
  · exact List.isPrefixOf_iff_prefix.mp h

theorem noKeysLine_iff {env : Text} :
    ¬ (lines env).any isKeysLine = true ↔ (lines env).filter isKeysLine = [] := by
  rw [Bool.not_eq_true, List.any_eq_false, List.filter_eq_nil_iff]

theorem keyLine_of_count {env : Text} (h : keyCount env ≠ 0) :
    (lines env).filter isKeysLine ≠ [] := by
  intro hnone
  rw [keyCount, keyValues, hnone] at h
  exact h rfl

theorem lines_append (env : Text) {value : Text} (hvalue : '\n' ∉ value) :
    ∃ pieces last, lines env = pieces ++ [last] ∧
      lines (env ++ (keysPrefix ++ value ++ ['\n'])) =
        pieces ++ [last ++ (keysPrefix ++ value), []] := by
  obtain ⟨pieces, last, hsplit, happend⟩ := splitOn_append_last (c := '\n') env
  refine ⟨pieces, last, hsplit, ?_⟩
  apply happend
  rw [List.mem_append, not_or]
  exact ⟨by decide, hvalue⟩

theorem filter_appended {pieces : List Text} {last : Text} (value : Text)
    (h : (pieces ++ [last]).filter isKeysLine = []) :
    (pieces ++ [last ++ (keysPrefix ++ value), []]).filter isKeysLine =
      if last = [] then [keysPrefix ++ value] else [] := by
  rw [List.filter_append, List.append_eq_nil_iff] at h
  obtain ⟨hpieces, hnone⟩ := h
  have hlast : isKeysLine last = false := by
    simpa using List.filter_eq_nil_iff.mp hnone last (List.mem_singleton_self last)
  rw [List.filter_append, hpieces, List.nil_append]
  by_cases hempty : last = []
  · rw [if_pos hempty, hempty, List.nil_append,
      List.filter_cons_of_pos (isKeysLine_written value)]
    rfl
  · rw [if_neg hempty,
      List.filter_cons_of_neg fun hkey => hempty (eq_nil_of_keysLine hlast hkey)]
    rfl

theorem append_rewritten {env newHash : Text} (h : (lines env).filter isKeysLine = [])
    (hnew : IsDigest newHash)
    (hcount : keyCount (env ++ (keysPrefix ++ newHash ++ ['\n'])) ≠ 0) :
    Rewritten env (env ++ (keysPrefix ++ newHash ++ ['\n'])) newHash := by
  obtain ⟨pieces, last, hold, hlines⟩ := lines_append env (digest_plain hnew.2).2
  have hfound := filter_appended newHash (hold ▸ h)
  rw [← hlines] at hfound
  have hlast : last = [] := by
    by_contra hne
    rw [if_neg hne] at hfound
    exact keyLine_of_count hcount hfound
  rw [if_pos hlast] at hfound
  apply rewritten_of_line (keyEntries_digest hnew) hfound
  rw [otherLines, otherLines, hlines, hold, hlast, List.nil_append, List.filter_append,
    List.filter_append, List.filter_cons_of_neg (by simp [isKeysLine_written])]

/-- Without a newline at the end the new key spoils the last line, and the run fails after it
has written the file. -/
theorem generate_unterminated {env newHash : Text} (h : (lines env).filter isKeysLine = [])
    (hnew : IsDigest newHash) (hend : (lines env).getLast? ≠ some []) :
    (generateApiKey newHash env).exitOk = false ∧
      otherLines (generateApiKey newHash env).env ≠ otherLines env := by
  have hcurrent : (currentKeys env).isEmpty = true := by
    rw [currentKeys, keyValues, h]
    rfl
  rw [generateApiKey, if_pos hcurrent, if_neg (noKeysLine_iff.mpr h)]
  obtain ⟨pieces, last, hold, hlines⟩ := lines_append env (digest_plain hnew.2).2
  have hne : last ≠ [] := by
    intro hempty
    rw [hold, hempty] at hend
    exact hend List.getLast?_concat
  have hnone := filter_appended newHash (hold ▸ h)
  rw [← hlines, if_neg hne] at hnone
  constructor
  · rw [bne_eq_false_iff_eq]
    by_contra hcount
    exact keyLine_of_count hcount hnone
  · intro heq
    have hlength := congrArg List.length heq
    rw [otherLines_of_none hnone, otherLines_of_none h, hlines, hold, List.length_append,
      List.length_append] at hlength
    simp at hlength

theorem generate_exitOk (newHash env : Text) : (generateApiKey newHash env).exitOk =
    (keyCount (generateApiKey newHash env).env != 0) := by
  simp only [generateApiKey]

theorem extended_rewritten {newHash env : Text} (h : KeyFile env) (hnew : IsDigest newHash)
    (hcurrent : keysValue env ≠ []) :
    Rewritten env (setKeys (keysValue env ++ ',' :: newHash) env)
      (keysValue env ++ ',' :: newHash) := by
  apply setKeys_rewritten h
  · intro hnone
    exact hcurrent (keysValue_of_filter hnone)
  · rw [List.mem_append, List.mem_cons, not_or, not_or]
    exact ⟨keysValue_noNewline env, by decide, (digest_plain hnew.2).2⟩
  · intro e he
    rw [List.splitOn_append_cons_self, List.mem_append] at he
    rcases he with he | he
    · exact h.entries e he
    · exact keyEntries_digest hnew e he

theorem generate_rewritten {newHash env : Text} (h : KeyFile env) (hnew : IsDigest newHash)
    (hok : (generateApiKey newHash env).exitOk = true) :
    ∃ value, Rewritten env (generateApiKey newHash env).env value ∧
      entries value = entries (keysValue env) ++ [newHash] := by
  rw [generate_exitOk, bne_iff_ne] at hok
  rw [generateApiKey] at hok ⊢
  rw [currentKeys_eq h] at hok ⊢
  by_cases hcurrent : (keysValue env).isEmpty = true
  · have hentries : entries newHash = entries (keysValue env) ++ [newHash] := by
      rw [entries_singleton hnew, List.isEmpty_iff.mp hcurrent]
      rfl
    rw [if_pos hcurrent] at hok ⊢
    apply Exists.intro newHash
    apply And.intro _ hentries
    by_cases hany : (lines env).any isKeysLine = true
    · rw [if_pos hany]
      apply setKeys_rewritten h _ (digest_plain hnew.2).2 (keyEntries_digest hnew)
      exact mt noKeysLine_iff.mpr (not_not.mpr hany)
    · rw [if_neg hany] at hok ⊢
      exact append_rewritten (noKeysLine_iff.mp hany) hnew hok
  · rw [if_neg hcurrent]
    apply Exists.intro (keysValue env ++ ',' :: newHash)
    constructor
    · exact extended_rewritten h hnew (by simpa using hcurrent)
    · rw [entries_append, entries_singleton hnew]

theorem revoke_rewritten {choice : Nat} {env : Text} (h : KeyFile env) (hchoice : choice ≠ 0)
    (hle : choice ≤ (keys env).length) :
    (revokeApiKey choice env).exitOk = true ∧ ∃ value,
      Rewritten env (revokeApiKey choice env).env value ∧
        entries value = (entries (keysValue env)).eraseIdx (choice - 1) := by
  have hne : keys env ≠ [] := List.ne_nil_of_length_pos (by omega)
  have hrest : ∀ k ∈ (keys env).eraseIdx (choice - 1), IsDigest k :=
    fun k hk => keys_digest h (List.mem_of_mem_eraseIdx hk)
  have hline : (lines env).filter isKeysLine ≠ [] := by
    intro hnone
    rw [keys_eq h, keysValue_of_filter hnone] at hne
    exact hne rfl
  rw [revokeApiKey, if_neg (by simpa using hne), if_neg hchoice, if_neg (by omega)]
  apply And.intro rfl
  apply Exists.intro ([','].intercalate ((keys env).eraseIdx (choice - 1)))
  constructor
  · exact setKeys_rewritten h hline (join_noNewline hrest) (splitOn_join hrest).1
  · rw [(splitOn_join hrest).2, keys_eq h]

theorem toFinset_eraseIdx {ks : List Text} {i : Nat} (hi : i < ks.length) :
    (ks.eraseIdx i).toFinset = ks.toFinset.erase ks[i] ↔ ks.count ks[i] = 1 := by
  have hperm := List.getElem_cons_eraseIdx_perm hi
  have hcount : ks.count ks[i] = (ks.eraseIdx i).count ks[i] + 1 := by
    rw [← hperm.count_eq ks[i], List.count_cons_self]
  have hset : ks.toFinset = insert ks[i] (ks.eraseIdx i).toFinset := by
    rw [← List.toFinset_cons]
    exact (List.toFinset_eq_of_perm _ _ hperm).symm
  rw [hcount, Nat.add_eq_right, List.count_eq_zero, hset]
  constructor
  · intro heq hmem
    rw [← List.mem_toFinset, heq] at hmem
    exact Finset.notMem_erase _ _ hmem
  · intro hnot
    rw [Finset.erase_insert (by rwa [List.mem_toFinset])]

/-- The digest that a revocation is asked to remove stands at one position of the list. -/
def Run.ChosenOnce (run : Run) (env : Text) : Prop :=
  ∀ digest, run.asked env = .erase digest → (entries (keysValue env)).count digest = 1

def Run.HasDigest (run : Run) : Prop := ∀ newHash, run = .generate newHash → IsDigest newHash

theorem asked_revoke {choice : Nat} {env : Text} (hchoice : choice ≠ 0)
    (hlt : choice - 1 < (keys env).length) :
    (Run.revoke choice).asked env = .erase (keys env)[choice - 1] := by
  rw [Run.asked, if_neg hchoice, List.getElem?_eq_getElem hlt]

theorem revoke_nothing {choice : Nat} {env : Text}
    (hok : (revokeApiKey choice env).exitOk = true)
    (h : choice = 0 ∨ (keys env).length < choice) :
    (revokeApiKey choice env).env = env ∧ (Run.revoke choice).asked env = .nothing := by
  rw [revokeApiKey] at hok ⊢
  by_cases hempty : (keys env).isEmpty = true
  · have hnil : keys env = [] := List.isEmpty_iff.mp hempty
    rw [if_pos hempty, Run.asked, hnil, List.getElem?_nil, ite_self]
    exact ⟨rfl, rfl⟩
  · rw [if_neg hempty] at hok ⊢
    rcases h with rfl | hlt
    · exact ⟨rfl, rfl⟩
    · have hchoice : choice ≠ 0 := by omega
      rw [if_neg hchoice, if_pos hlt] at hok
      cases hok

theorem generate_step {newHash env : Text} (h : KeyFile env) (hnew : IsDigest newHash)
    (hok : (generateApiKey newHash env).exitOk = true) :
    KeyFile (generateApiKey newHash env).env ∧
      otherLines (generateApiKey newHash env).env = otherLines env ∧
      acceptedKeys (generateApiKey newHash env).env = insert newHash (acceptedKeys env) := by
  obtain ⟨value, hwritten, hentries⟩ := generate_rewritten h hnew hok
  apply And.intro hwritten.keyFile
  apply And.intro hwritten.others
  rw [acceptedKeys, AppConfig.apiKeysSet, hwritten.value, hentries]
  ext digest
  rw [List.mem_toFinset, List.mem_append, List.mem_singleton, or_comm, Finset.mem_insert,
    acceptedKeys, AppConfig.apiKeysSet, List.mem_toFinset]

theorem revoke_step {choice : Nat} {env : Text} (h : KeyFile env)
    (hok : (revokeApiKey choice env).exitOk = true) :
    KeyFile (revokeApiKey choice env).env ∧
      otherLines (revokeApiKey choice env).env = otherLines env ∧
      (acceptedKeys (revokeApiKey choice env).env =
          ((Run.revoke choice).asked env).apply (acceptedKeys env) ↔
        (Run.revoke choice).ChosenOnce env) := by
  by_cases hnothing : choice = 0 ∨ (keys env).length < choice
  · obtain ⟨henv, hasked⟩ := revoke_nothing hok hnothing
    rw [henv, Run.ChosenOnce, hasked]
    apply And.intro h
    apply And.intro rfl
    simp [KeyChange.apply]
  · obtain ⟨hchoice, hle⟩ := not_or.mp hnothing
    obtain ⟨-, value, hwritten, hentries⟩ := revoke_rewritten h hchoice (not_lt.mp hle)
    have hlt : choice - 1 < (keys env).length := by omega
    have hlt' : choice - 1 < (entries (keysValue env)).length := keys_eq h ▸ hlt
    have hget : (keys env)[choice - 1] = (entries (keysValue env))[choice - 1] :=
      List.getElem_of_eq (keys_eq h) hlt
    apply And.intro hwritten.keyFile
    apply And.intro hwritten.others
    rw [Run.ChosenOnce, asked_revoke hchoice hlt, hget, acceptedKeys, AppConfig.apiKeysSet,
      hwritten.value, hentries]
    simp only [KeyChange.erase.injEq, forall_eq']
    exact toFinset_eraseIdx hlt'

theorem run_step {run : Run} {env : Text} (h : KeyFile env) (hash : run.HasDigest)
    (hok : (run.outcome env).exitOk = true) :
    KeyFile (run.outcome env).env ∧ otherLines (run.outcome env).env = otherLines env ∧
      (acceptedKeys (run.outcome env).env = (run.asked env).apply (acceptedKeys env) ↔
        run.ChosenOnce env) := by
  cases run with
  | generate newHash =>
    obtain ⟨hfile, hothers, haccepted⟩ := generate_step h (hash newHash rfl) hok
    apply And.intro hfile
    apply And.intro hothers
    apply iff_of_true haccepted
    intro digest hasked
    cases hasked
  | revoke choice => exact revoke_step h hok

def fileAfter : Text → List Run → Text
  | env, [] => env
  | env, run :: runs => fileAfter (run.outcome env).env runs

def changes : Text → List Run → List KeyChange
  | _, [] => []
  | env, run :: runs => run.asked env :: changes (run.outcome env).env runs

/-- Runs one after the other, all with exit status 0. -/
inductive Session : Text → List Run → Prop where
  | nil (env : Text) : Session env []
  | cons {env : Text} {run : Run} {runs : List Run} (hash : run.HasDigest)
      (ok : (run.outcome env).exitOk = true) (rest : Session (run.outcome env).env runs) :
      Session env (run :: runs)

/-- After every run the accepted keys are the ones that the runs so far were asked for. -/
def ActsOnSet (env : Text) (runs : List Run) : Prop :=
  ∀ before, before <+: runs → acceptedKeys (fileAfter env before) =
    (changes env before).foldl (fun accepted change => change.apply accepted) (acceptedKeys env)

def EachChosenOnce : Text → List Run → Prop
  | _, [] => True
  | env, run :: runs => run.ChosenOnce env ∧ EachChosenOnce (run.outcome env).env runs

theorem actsOnSet_cons {env : Text} {run : Run} {runs : List Run} : ActsOnSet env (run :: runs) ↔
    acceptedKeys (run.outcome env).env = (run.asked env).apply (acceptedKeys env) ∧
      ActsOnSet (run.outcome env).env runs := by
  constructor
  · intro h
    have hstep : acceptedKeys (run.outcome env).env = (run.asked env).apply (acceptedKeys env) :=
      h [run] (List.cons_prefix_cons.mpr ⟨rfl, List.nil_prefix⟩)
    apply And.intro hstep
    intro before hbefore
    have hrun := h (run :: before) (List.cons_prefix_cons.mpr ⟨rfl, hbefore⟩)
    rw [fileAfter, changes, List.foldl_cons, ← hstep] at hrun
    exact hrun
  · rintro ⟨hstep, hrest⟩ before hbefore
    cases before with
    | nil => rfl
    | cons run' before =>
      obtain ⟨rfl, hprefix⟩ := List.cons_prefix_cons.mp hbefore
      rw [fileAfter, changes, List.foldl_cons, ← hstep]
      exact hrest before hprefix

theorem session_otherLines {env : Text} {runs : List Run} (hs : Session env runs) :
    KeyFile env →
      ∀ before, before <+: runs → otherLines (fileAfter env before) = otherLines env := by
  induction hs with
  | nil env =>
    intro _ before hbefore
    rw [List.prefix_nil.mp hbefore]
    rfl
  | cons hash ok rest ih =>
    intro h before hbefore
    cases before with
    | nil => rfl
    | cons run' before =>
      obtain ⟨rfl, hprefix⟩ := List.cons_prefix_cons.mp hbefore
      obtain ⟨hfile, hothers, -⟩ := run_step h hash ok
      rw [fileAfter, ih hfile before hprefix, hothers]

theorem session_acts_iff {env : Text} {runs : List Run} (hs : Session env runs) :
    KeyFile env → (ActsOnSet env runs ↔ EachChosenOnce env runs) := by
  induction hs with
  | nil env =>
    intro _
    rw [EachChosenOnce, iff_true]
    intro before hbefore
    rw [List.prefix_nil.mp hbefore]
    rfl
  | cons hash ok rest ih =>
    intro h
    obtain ⟨hfile, -, hacts⟩ := run_step h hash ok
    rw [actsOnSet_cons, EachChosenOnce, hacts, ih hfile]

/-- The other lines stay, and the accepted keys follow the runs as long as every revoked
digest stands in the list once. -/
theorem keyManagement_iff {env : Text} {runs : List Run} (h : KeyFile env)
    (hs : Session env runs) :
    (∀ before, before <+: runs → otherLines (fileAfter env before) = otherLines env) ∧
      (ActsOnSet env runs ↔ EachChosenOnce env runs) :=
  ⟨session_otherLines hs h, session_acts_iff hs h⟩

def sampleHash (digit : Char) : Text := List.replicate 64 digit

theorem sampleHash_isDigest {digit : Char} (h : 97 ≤ digit.toNat ∧ digit.toNat ≤ 102) :
    IsDigest (sampleHash digit) :=
  ⟨by simp [sampleHash], fun _ hc => List.eq_of_mem_replicate hc ▸ Or.inr (Or.inl h)⟩

def sampleEnv : Text :=
  "APP_PORT=8080\nAPI_KEYS= ".toList ++ (sampleHash 'a' ++ (',' :: sampleHash 'b' ++ ['\n']))

theorem sampleEnv_keyFile : KeyFile sampleEnv where
  oneLine := by decide +kernel
  entries := by
    have hvalue : (keysValue sampleEnv).splitOn ',' = [' ' :: sampleHash 'a', sampleHash 'b'] := by
      decide +kernel
    have ha : ∀ c ∈ sampleHash 'a', IsHexDigit c := (sampleHash_isDigest (by decide)).2
    have hb : ∀ c ∈ sampleHash 'b', IsHexDigit c := (sampleHash_isDigest (by decide)).2
    intro entry hentry
    rw [hvalue, List.mem_cons, List.mem_singleton] at hentry
    rcases hentry with rfl | rfl
    · exact ⟨[' '], sampleHash 'a', [], by simp, List.all_eq_true.mp (by decide), ha, by simp⟩
    · exact keyEntry_of_digest hb

def sampleRuns : List Run := [.generate (sampleHash 'c'), .revoke 1]

theorem sampleRuns_session : Session sampleEnv sampleRuns := by
  have hgenerate : (Run.generate (sampleHash 'c')).HasDigest := by
    intro newHash h
    cases h
    exact sampleHash_isDigest (by decide)
  have hrevoke : (Run.revoke 1).HasDigest := by
    intro newHash h
    cases h
  exact .cons hgenerate (by decide +kernel) (.cons hrevoke (by decide +kernel) (.nil _))

theorem generated_then_revoked :
    ActsOnSet sampleEnv sampleRuns ∧
      otherLines (fileAfter sampleEnv sampleRuns) = otherLines sampleEnv := by
  obtain ⟨hothers, hacts⟩ := keyManagement_iff sampleEnv_keyFile sampleRuns_session
  have hgenerate : (Run.generate (sampleHash 'c')).ChosenOnce sampleEnv := by
    intro digest h
    cases h
  have hrevoke : (Run.revoke 1).ChosenOnce (generateApiKey (sampleHash 'c') sampleEnv).env := by
    have hasked : (Run.revoke 1).asked (generateApiKey (sampleHash 'c') sampleEnv).env =
        .erase (sampleHash 'a') := by decide +kernel
    rw [Run.ChosenOnce, hasked]
    intro digest h
    cases h
    decide +kernel
  exact ⟨hacts.mpr ⟨hgenerate, hrevoke, trivial⟩, hothers sampleRuns (List.prefix_refl sampleRuns)⟩

/-- A list that holds one digest twice. -/
def repeatedEnv : Text :=
  keysPrefix ++ (sampleHash 'a' ++ (',' :: sampleHash 'a' ++ ['\n']))

theorem repeatedEnv_keyFile : KeyFile repeatedEnv where
  oneLine := by decide +kernel
  entries := by
    have hvalue : (keysValue repeatedEnv).splitOn ',' = [sampleHash 'a', sampleHash 'a'] := by
      decide +kernel
    have ha : ∀ c ∈ sampleHash 'a', IsHexDigit c := (sampleHash_isDigest (by decide)).2
    intro entry hentry
    rw [hvalue, List.mem_cons, List.mem_singleton, or_self] at hentry
    exact hentry ▸ keyEntry_of_digest ha

theorem repeated_digest_kept :
    KeyFile repeatedEnv ∧ Session repeatedEnv [.revoke 1] ∧
      (Run.revoke 1).asked repeatedEnv = .erase (sampleHash 'a') ∧
      sampleHash 'a' ∈ acceptedKeys (fileAfter repeatedEnv [.revoke 1]) ∧
      ¬ ActsOnSet repeatedEnv [.revoke 1] := by
  have hdigest : (Run.revoke 1).HasDigest := by
    intro newHash h
    cases h
  have hok : ((Run.revoke 1).outcome repeatedEnv).exitOk = true := by decide +kernel
  have hasked : (Run.revoke 1).asked repeatedEnv = .erase (sampleHash 'a') := by decide +kernel
  have hkept : sampleHash 'a' ∈ acceptedKeys ((Run.revoke 1).outcome repeatedEnv).env := by
    decide +kernel
  have hacts : ¬ ActsOnSet repeatedEnv [.revoke 1] := by
    intro hacts
    have hstep := (actsOnSet_cons.mp hacts).1
    rw [hstep, hasked] at hkept
    exact Finset.notMem_erase _ _ hkept
  exact ⟨repeatedEnv_keyFile, .cons hdigest hok (.nil _), hasked, hkept, hacts⟩

end KeyScripts
