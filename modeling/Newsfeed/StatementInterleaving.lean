import Mathlib.Data.List.Count
import Mathlib.Data.List.Induction
import Mathlib.Data.List.Nodup
import Mathlib.Logic.Function.Basic

/-! # Interleaved statements

Clients run lists of statements on a shared state. Each statement is atomic, and
between two statements of one client any statements of others may run. Over arbitrary
states; a client whose statements are private except for one is served as if alone.
-/
namespace StatementInterleaving

variable {ι S P E : Type*}

/-- What is left of a connection: its private state, or the error that ended its call. -/
abbrev Session (P E : Type*) := Except E P

/-- A statement on the shared state and the private state of one connection. -/
abbrev Statement (S P E : Type*) := S → P → S × Session P E

/-- After an error the remaining statements of the call have no effect. -/
def exec (st : Statement S P E) (s : S) : Session P E → S × Session P E
  | .error e => (s, .error e)
  | .ok p => st s p

def runProgram (program : List (Statement S P E)) (s : S) (p : Session P E) : S × Session P E :=
  program.foldl (fun x st => exec st x.1 x.2) (s, p)

@[simp] theorem exec_ok (st : Statement S P E) (s : S) (p : P) : exec st s (.ok p) = st s p := rfl

@[simp] theorem exec_error (st : Statement S P E) (s : S) (e : E) :
    exec st s (.error e) = (s, .error e) := rfl

@[simp] theorem runProgram_nil (s : S) (p : Session P E) : runProgram [] s p = (s, p) := rfl

theorem runProgram_cons (st : Statement S P E) (program : List (Statement S P E)) (s : S)
    (p : Session P E) :
    runProgram (st :: program) s p = runProgram program (exec st s p).1 (exec st s p).2 := rfl

theorem runProgram_append (program program' : List (Statement S P E)) (s : S) (p : Session P E) :
    runProgram (program ++ program') s p =
      runProgram program' (runProgram program s p).1 (runProgram program s p).2 :=
  List.foldl_append ..

/-- The statement neither reads nor writes the shared state. -/
def Private (st : Statement S P E) : Prop := ∀ s s' p, (st s p).1 = s ∧ (st s p).2 = (st s' p).2

theorem Private.exec {st : Statement S P E} (h : Private st) (s s' : S) (p : Session P E) :
    (exec st s p).1 = s ∧ (exec st s p).2 = (StatementInterleaving.exec st s' p).2 := by
  cases p with
  | error e => exact ⟨rfl, rfl⟩
  | ok p => exact h s s' p

theorem runProgram_private {program : List (Statement S P E)} (h : ∀ st ∈ program, Private st)
    (s s' : S) (p : Session P E) :
    (runProgram program s p).1 = s ∧ (runProgram program s p).2 = (runProgram program s' p).2 := by
  induction program generalizing p with
  | nil => exact ⟨rfl, rfl⟩
  | cons st program ih =>
    obtain ⟨hs, hp⟩ := (h st List.mem_cons_self).exec s s' p
    obtain ⟨hs', _⟩ := (h st List.mem_cons_self).exec s' s p
    rw [runProgram_cons, runProgram_cons, hs, hp, hs']
    exact ih (fun st hst => h st (List.mem_cons_of_mem _ hst)) _

structure System (ι S P E : Type*) where
  shared : S
  session : ι → Session P E
  executed : ι → Nat

variable [DecidableEq ι]

/-- The client `i` executes its next statement. -/
def step (program : ι → List (Statement S P E)) (sys : System ι S P E) (i : ι) : System ι S P E :=
  match (program i)[sys.executed i]? with
  | none => sys
  | some st =>
    { shared := (exec st sys.shared (sys.session i)).1
      session := Function.update sys.session i (exec st sys.shared (sys.session i)).2
      executed := Function.update sys.executed i (sys.executed i + 1) }

def start (s : S) (p : ι → P) : System ι S P E := ⟨s, fun i => .ok (p i), fun _ => 0⟩

def run (program : ι → List (Statement S P E)) (sys : System ι S P E) (schedule : List ι) :
    System ι S P E := schedule.foldl (step program) sys

/-- Every statement of every client is executed exactly once. -/
def Interleaves (program : ι → List (Statement S P E)) (schedule : List ι) : Prop :=
  ∀ i, schedule.count i = (program i).length

variable {program : ι → List (Statement S P E)}

theorem run_append (sys : System ι S P E) (p q : List ι) :
    run program sys (p ++ q) = run program (run program sys p) q := List.foldl_append ..

theorem count_append_singleton (p : List ι) (i j : ι) :
    (p ++ [i]).count j = if j = i then p.count j + 1 else p.count j := by
  rw [List.count_append, List.count_singleton]
  by_cases h : j = i
  · simp [h]
  · simp [h, Ne.symm h]

theorem count_le_of_append {p : List ι} {j : ι}
    (h : ∀ i, (p ++ [j]).count i ≤ (program i).length) (i : ι) :
    p.count i ≤ (program i).length :=
  Nat.le_trans ((List.sublist_append_left p [j]).count_le i) (h i)

theorem step_of_lt {sys : System ι S P E} {i : ι} (h : sys.executed i < (program i).length) :
    step program sys i =
      { shared := (exec (program i)[sys.executed i] sys.shared (sys.session i)).1
        session := Function.update sys.session i
          (exec (program i)[sys.executed i] sys.shared (sys.session i)).2
        executed := Function.update sys.executed i (sys.executed i + 1) } := by
  unfold step
  rw [List.getElem?_eq_getElem h]

theorem executed_run (s : S) (init : ι → P) {schedule : List ι}
    (h : ∀ i, schedule.count i ≤ (program i).length) (i : ι) :
    (run program (start s init) schedule).executed i = schedule.count i := by
  induction schedule using List.reverseRecOn generalizing i with
  | nil => rfl
  | append_singleton p j ih =>
    have hp := count_le_of_append h
    have hj := h j
    rw [count_append_singleton, if_pos rfl] at hj
    have hlt : (run program (start s init) p).executed j < (program j).length := by
      rw [ih hp]
      omega
    rw [run_append, run, List.foldl_cons, List.foldl_nil, step_of_lt hlt, count_append_singleton]
    by_cases hij : i = j
    · subst hij
      simp only [Function.update_self, ↓reduceIte, ih hp]
    · simp only [Function.update_of_ne hij, if_neg hij, ih hp]

/-- After the steps `p` the client `j` executes its next statement, the others wait. -/
structure Steps (program : ι → List (Statement S P E)) (p : List ι) (sys : System ι S P E) (j : ι)
    (st : Statement S P E) (sys' : System ι S P E) : Prop where
  next : (program j)[p.count j]? = some st
  shared : sys'.shared = (exec st sys.shared (sys.session j)).1
  session : sys'.session j = (exec st sys.shared (sys.session j)).2
  others : ∀ i, i ≠ j → sys'.session i = sys.session i

theorem steps_run (s : S) (init : ι → P) {p : List ι} {j : ι}
    (h : ∀ i, (p ++ [j]).count i ≤ (program i).length) :
    ∃ st, Steps program p (run program (start s init) p) j st
      (run program (start s init) (p ++ [j])) := by
  have hp := count_le_of_append h
  have hj := h j
  rw [count_append_singleton, if_pos rfl] at hj
  have hcount := executed_run s init hp j
  have hlt : (run program (start s init) p).executed j < (program j).length := by omega
  refine ⟨(program j)[(run program (start s init) p).executed j], ?_, ?_, ?_, ?_⟩
  · rw [← hcount]
    exact List.getElem?_eq_getElem hlt
  all_goals rw [run_append, run, List.foldl_cons, List.foldl_nil, step_of_lt hlt]
  · exact Function.update_self ..
  · intro i hij
    exact Function.update_of_ne hij ..

section Next

variable {program : ι → List (Statement S P E)} {p : List ι} {sys sys' : System ι S P E} {j : ι}
  {st : Statement S P E}

theorem Steps.mem_take (hs : Steps program p sys j st sys') {k : Nat} (hlow : p.count j < k) :
    st ∈ (program j).take k := by
  obtain ⟨hlt, hget⟩ := List.getElem?_eq_some_iff.mp hs.next
  exact List.mem_take_iff_getElem.mpr ⟨p.count j, by omega, hget⟩

theorem Steps.mem_drop (hs : Steps program p sys j st sys') {k : Nat} (hhigh : k < p.count j) :
    st ∈ (program j).drop (k + 1) := by
  obtain ⟨hlt, hget⟩ := List.getElem?_eq_some_iff.mp hs.next
  refine List.mem_drop_iff_getElem.mpr ⟨p.count j - (k + 1), by omega, ?_⟩
  rw [← hget]
  congr 1
  omega

theorem Steps.take_append (h : Steps program p sys j st sys') :
    (program j).take (p.count j + 1) = (program j).take (p.count j) ++ [st] := by
  rw [List.take_add_one, h.next]
  rfl

theorem Steps.drop_cons (h : Steps program p sys j st sys') :
    (program j).drop (p.count j) = st :: (program j).drop (p.count j + 1) := by
  obtain ⟨hlt, hget⟩ := List.getElem?_eq_some_iff.mp h.next
  rw [List.drop_eq_getElem_cons hlt, hget]

theorem Steps.waiting_self (hs : Steps program p sys j st sys') (hst : Private st)
    {init : ι → P}
    (h : ∀ s', sys.session j = (runProgram ((program j).take (p.count j)) s' (.ok (init j))).2)
    (s' : S) : sys'.session j =
      (runProgram ((program j).take (p.count j + 1)) s' (.ok (init j))).2 := by
  rw [hs.take_append, runProgram_append, runProgram_cons, runProgram_nil, hs.session, h s']
  exact (hst.exec _ _ _).2

theorem Steps.waiting_other (hs : Steps program p sys j st sys') {k : ι → Nat} {init : ι → P}
    (h : ∀ i, p.count i ≤ k i → ∀ s',
      sys.session i = (runProgram ((program i).take (p.count i)) s' (.ok (init i))).2)
    {i : ι} (hij : i ≠ j) (hi : (p ++ [j]).count i ≤ k i) (s' : S) :
    sys'.session i =
      (runProgram ((program i).take ((p ++ [j]).count i)) s' (.ok (init i))).2 := by
  rw [count_append_singleton, if_neg hij] at hi ⊢
  rw [hs.others i hij]
  exact h i hi s'

end Next

/-- The clients of `order` run their calls without interruption, in this order. -/
def serve (program : ι → List (Statement S P E)) (order : List ι) (s : S)
    (session : ι → Session P E) : S × (ι → Session P E) :=
  order.foldl (fun x i =>
    ((runProgram (program i) x.1 (x.2 i)).1,
      Function.update x.2 i (runProgram (program i) x.1 (x.2 i)).2)) (s, session)

theorem serve_cons (i : ι) (order : List ι) (s : S) (session : ι → Session P E) :
    serve program (i :: order) s session =
      serve program order (runProgram (program i) s (session i)).1
        (Function.update session i (runProgram (program i) s (session i)).2) := rfl

theorem serve_append (program : ι → List (Statement S P E)) (order order' : List ι) (s : S)
    (session : ι → Session P E) :
    serve program (order ++ order') s session =
      serve program order' (serve program order s session).1 (serve program order s session).2 :=
  List.foldl_append ..

theorem serve_of_not_mem {order : List ι} {s : S} {session : ι → Session P E} {i : ι}
    (h : i ∉ order) : (serve program order s session).2 i = session i := by
  induction order generalizing s session with
  | nil => rfl
  | cons j order ih =>
    obtain ⟨hij, hi⟩ := not_or.mp (mt List.mem_cons.mpr h)
    rw [serve_cons, ih hi, Function.update_of_ne hij]

theorem serve_unchanged (program : ι → List (Statement S P E)) (s : S)
    (session outcome : ι → Session P E) {order : List ι} (hnodup : order.Nodup)
    (h : ∀ i ∈ order, runProgram (program i) s (session i) = (s, outcome i)) :
    (serve program order s session).1 = s ∧
      ∀ i ∈ order, (serve program order s session).2 i = outcome i := by
  induction order generalizing session with
  | nil => exact ⟨rfl, by simp⟩
  | cons j order ih =>
    obtain ⟨hj, hnodup'⟩ := List.nodup_cons.mp hnodup
    have hrest : ∀ i ∈ order, runProgram (program i) s
        (Function.update session j (outcome j) i) = (s, outcome i) := by
      intro i hi
      have hij : i ≠ j := by
        rintro rfl
        exact hj hi
      rw [Function.update_of_ne hij]
      exact h i (List.mem_cons_of_mem j hi)
    obtain ⟨hs, houtcome⟩ := ih _ hnodup' hrest
    rw [serve_cons, h j List.mem_cons_self]
    refine ⟨hs, fun i hi => ?_⟩
    rcases List.mem_cons.mp hi with rfl | hi
    · rw [serve_of_not_mem hj, Function.update_self]
    · exact houtcome i hi

theorem serve_outcome (program : ι → List (Statement S P E)) (s : S) (session : ι → Session P E)
    {order : List ι} (hnodup : order.Nodup) {i : ι} (hi : i ∈ order) :
    ∃ s', (serve program order s session).2 i = (runProgram (program i) s' (session i)).2 := by
  induction order generalizing s session with
  | nil => cases hi
  | cons j order ih =>
    obtain ⟨hj, hnodup'⟩ := List.nodup_cons.mp hnodup
    rw [serve_cons]
    by_cases hij : i = j
    · subst hij
      exact ⟨s, by rw [serve_of_not_mem hj, Function.update_self]⟩
    · obtain ⟨s', hs'⟩ := ih _ _ hnodup' ((List.mem_cons.mp hi).resolve_left hij)
      exact ⟨s', by rw [hs', Function.update_of_ne hij]⟩

theorem serve_first (program : ι → List (Statement S P E)) (s s' : S)
    (session outcome : ι → Session P E) {w : ι} {order : List ι} (hnodup : (w :: order).Nodup)
    (hw : runProgram (program w) s (session w) = (s', outcome w))
    (h : ∀ i ∈ order, runProgram (program i) s' (session i) = (s', outcome i)) :
    (serve program (w :: order) s session).1 = s' ∧
      ∀ i ∈ w :: order, (serve program (w :: order) s session).2 i = outcome i := by
  obtain ⟨hnew, hnodup'⟩ := List.nodup_cons.mp hnodup
  have hrest : ∀ i ∈ order, runProgram (program i) s'
      (Function.update session w (outcome w) i) = (s', outcome i) := by
    intro i hi
    have hiw : i ≠ w := by
      rintro rfl
      exact hnew hi
    rw [Function.update_of_ne hiw]
    exact h i hi
  obtain ⟨hs, houtcome⟩ := serve_unchanged program s' _ outcome hnodup' hrest
  rw [serve_cons, hw]
  refine ⟨hs, fun i hi => ?_⟩
  rcases List.mem_cons.mp hi with rfl | hi
  · rw [serve_of_not_mem hnew, Function.update_self]
  · exact houtcome i hi

/-- Clients in the order in which they execute their statement number `k i`, counted from 0. -/
def orderOfRev (k : ι → Nat) : List ι → List ι
  | [] => []
  | i :: earlier =>
    if earlier.count i = k i then i :: orderOfRev k earlier else orderOfRev k earlier

def orderOf (k : ι → Nat) (schedule : List ι) : List ι := (orderOfRev k schedule.reverse).reverse

theorem orderOf_append_singleton (k : ι → Nat) (p : List ι) (i : ι) :
    orderOf k (p ++ [i]) = if p.count i = k i then orderOf k p ++ [i] else orderOf k p := by
  rw [orderOf, List.reverse_append, List.reverse_singleton, List.singleton_append, orderOfRev,
    List.count_reverse]
  split
  · rw [List.reverse_cons, orderOf]
  · rw [orderOf]

theorem mem_orderOf (k : ι → Nat) (p : List ι) (i : ι) : i ∈ orderOf k p ↔ k i < p.count i := by
  induction p using List.reverseRecOn with
  | nil => simp [orderOf, orderOfRev]
  | append_singleton p j ih =>
    rw [orderOf_append_singleton, count_append_singleton]
    by_cases hij : i = j
    · subst hij
      rw [if_pos rfl]
      split
      · simp only [List.mem_append, List.mem_singleton, or_true, true_iff]
        omega
      · rw [ih]
        omega
    · rw [if_neg hij]
      split
      · simp [ih, hij]
      · exact ih

theorem orderOf_nodup (k : ι → Nat) (p : List ι) : (orderOf k p).Nodup := by
  induction p using List.reverseRecOn with
  | nil => simp [orderOf, orderOfRev]
  | append_singleton p j ih =>
    rw [orderOf_append_singleton]
    split
    · next hcount =>
      refine List.nodup_append.mpr ⟨ih, List.nodup_singleton j, ?_⟩
      intro a ha b hb
      rw [List.mem_singleton] at hb
      rintro rfl
      rw [mem_orderOf, hb] at ha
      omega
    · exact ih

/-- Only one statement of a program is shared. -/
structure OneShared (program : List (Statement S P E)) (k : Nat) : Prop where
  lt : k < program.length
  before : ∀ st ∈ program.take k, Private st
  after : ∀ st ∈ program.drop (k + 1), Private st

/-- The state after the steps `p`: before its shared statement a client is where its own
statements have taken it, afterwards it is on the way to what it gets when served alone. -/
structure Served (program : ι → List (Statement S P E)) (k : ι → Nat) (s : S) (init : ι → P)
    (p : List ι) (sys : System ι S P E) : Prop where
  shared : sys.shared = (serve program (orderOf k p) s fun i => .ok (init i)).1
  waiting : ∀ i, p.count i ≤ k i → ∀ s',
    sys.session i = (runProgram ((program i).take (p.count i)) s' (.ok (init i))).2
  finishing : ∀ i, k i < p.count i → ∀ s',
    (runProgram ((program i).drop (p.count i)) s' (sys.session i)).2 =
      (serve program (orderOf k p) s fun i => .ok (init i)).2 i

section Served

variable {k : ι → Nat} {s : S} {init : ι → P} {p : List ι} {sys sys' : System ι S P E} {j : ι}
  {st : Statement S P E}

theorem Served.finishing_other (h : Served program k s init p sys)
    (hs : Steps program p sys j st sys') {i : ι} (hij : i ≠ j) (hi : k i < (p ++ [j]).count i)
    (s' : S) : (runProgram ((program i).drop ((p ++ [j]).count i)) s' (sys'.session i)).2 =
      (serve program (orderOf k p) s fun i => .ok (init i)).2 i := by
  rw [count_append_singleton, if_neg hij] at hi ⊢
  rw [hs.others i hij]
  exact h.finishing i hi s'

theorem Served.step_private (h : Served program k s init p sys) (hs : Steps program p sys j st sys')
    (hne : p.count j ≠ k j) (hst : Private st)
    (hwaiting : p.count j + 1 ≤ k j → ∀ s', sys'.session j =
      (runProgram ((program j).take (p.count j + 1)) s' (.ok (init j))).2)
    (hfinishing : k j < p.count j + 1 → ∀ s',
      (runProgram ((program j).drop (p.count j + 1)) s' (sys'.session j)).2 =
        (serve program (orderOf k p) s fun i => .ok (init i)).2 j) :
    Served program k s init (p ++ [j]) sys' := by
  have horder : orderOf k (p ++ [j]) = orderOf k p := by
    rw [orderOf_append_singleton, if_neg hne]
  refine ⟨?_, fun i hi s' => ?_, fun i hi s' => ?_⟩
  · rw [hs.shared, horder, (hst.exec sys.shared sys.shared _).1, h.shared]
  · by_cases hij : i = j
    · subst hij
      rw [count_append_singleton, if_pos rfl] at hi ⊢
      exact hwaiting hi s'
    · exact hs.waiting_other h.waiting hij hi s'
  · rw [horder]
    by_cases hij : i = j
    · subst hij
      rw [count_append_singleton, if_pos rfl] at hi ⊢
      exact hfinishing hi s'
    · exact h.finishing_other hs hij hi s'

theorem Served.step_before (h : Served program k s init p sys) (hs : Steps program p sys j st sys')
    (hlow : p.count j < k j) (hst : Private st) : Served program k s init (p ++ [j]) sys' := by
  apply h.step_private hs (by omega) hst
  · intro _ s'
    exact hs.waiting_self hst (h.waiting j (by omega)) s'
  · intro hi
    omega

theorem Served.step_shared (h : Served program k s init p sys) (hs : Steps program p sys j st sys')
    (heq : p.count j = k j) (hone : OneShared (program j) (k j)) :
    Served program k s init (p ++ [j]) sys' := by
  have horder : orderOf k (p ++ [j]) = orderOf k p ++ [j] := by
    rw [orderOf_append_singleton, if_pos heq]
  have hnew : j ∉ orderOf k p := by
    rw [mem_orderOf]
    omega
  have hbefore : ∀ q ∈ (program j).take (p.count j), Private q := heq ▸ hone.before
  have hafter : ∀ q ∈ (program j).drop (p.count j + 1), Private q := heq ▸ hone.after
  have hsplit : program j =
      (program j).take (p.count j) ++ st :: (program j).drop (p.count j + 1) := by
    rw [← hs.drop_cons, List.take_append_drop]
  have hcall : runProgram (program j) sys.shared (.ok (init j)) =
      runProgram ((program j).drop (p.count j + 1)) sys'.shared (sys'.session j) := by
    conv_lhs => rw [hsplit]
    rw [runProgram_append, runProgram_cons, (runProgram_private hbefore sys.shared sys.shared _).1,
      ← h.waiting j (by omega) sys.shared, ← hs.shared, ← hs.session]
  have hserve := serve_append program (orderOf k p) [j] s fun i => .ok (init i)
  rw [← horder, serve_cons, serve_of_not_mem hnew, ← h.shared, hcall] at hserve
  refine ⟨?_, fun i hi s' => ?_, fun i hi s' => ?_⟩
  · rw [hserve]
    exact (runProgram_private hafter sys'.shared sys'.shared _).1.symm
  · by_cases hij : i = j
    · subst hij
      rw [count_append_singleton, if_pos rfl] at hi
      omega
    · exact hs.waiting_other h.waiting hij hi s'
  · rw [hserve]
    by_cases hij : i = j
    · subst hij
      rw [count_append_singleton, if_pos rfl]
      simp only [serve, List.foldl_nil, Function.update_self]
      exact (runProgram_private hafter s' sys'.shared _).2
    · rw [h.finishing_other hs hij hi s']
      simp only [serve, List.foldl_nil, Function.update_of_ne hij]

theorem Served.step_after (h : Served program k s init p sys) (hs : Steps program p sys j st sys')
    (hhigh : k j < p.count j) (hst : Private st) : Served program k s init (p ++ [j]) sys' := by
  apply h.step_private hs (by omega) hst
  · intro hi
    omega
  · intro _ s'
    rw [← h.finishing j hhigh s', hs.drop_cons, runProgram_cons, (hst.exec s' s' _).1,
      (hst.exec s' sys.shared _).2, hs.session]

theorem served (s : S) (init : ι → P) (hone : ∀ i, OneShared (program i) (k i))
    (h : ∀ i, p.count i ≤ (program i).length) :
    Served program k s init p (run program (start s init) p) := by
  induction p using List.reverseRecOn with
  | nil => exact ⟨rfl, fun i _ s' => rfl, fun i hi => by simp at hi⟩
  | append_singleton p j ih =>
    have hp := count_le_of_append h
    obtain ⟨st, hst⟩ := steps_run s init h
    rcases Nat.lt_trichotomy (p.count j) (k j) with hlow | heq | hhigh
    · exact (ih hp).step_before hst hlow ((hone j).before st (hst.mem_take hlow))
    · exact (ih hp).step_shared hst heq (hone j)
    · exact (ih hp).step_after hst hhigh ((hone j).after st (hst.mem_drop hhigh))

end Served

/-- An interleaving of calls with one shared statement each ends like the same calls one
after another, in the order of their shared statements. -/
theorem run_eq_serve (s : S) (init : ι → P) {k : ι → Nat} {schedule : List ι}
    (hone : ∀ i, OneShared (program i) (k i)) (h : Interleaves program schedule) :
    (run program (start s init) schedule).shared =
        (serve program (orderOf k schedule) s fun i => .ok (init i)).1 ∧
      ∀ i, (run program (start s init) schedule).session i =
        (serve program (orderOf k schedule) s fun i => .ok (init i)).2 i := by
  have hserved := served s init hone fun i => Nat.le_of_eq (h i)
  refine ⟨hserved.shared, fun i => ?_⟩
  have hend := hserved.finishing i (by rw [h i]; exact (hone i).lt) s
  rw [h i, List.drop_length, runProgram_nil] at hend
  exact hend

def Blind (st : Statement S P E) : Prop := ∀ s s' p, (st s p).2 = (st s' p).2

theorem Blind.exec {st : Statement S P E} (h : Blind st) (s s' : S) (p : Session P E) :
    (exec st s p).2 = (StatementInterleaving.exec st s' p).2 := by
  cases p with
  | error e => rfl
  | ok p => exact h s s' p

/-- Only one statement of a program reads the shared state; later ones may write to it. -/
structure OneLook (program : List (Statement S P E)) (k : Nat) : Prop where
  lt : k < program.length
  before : ∀ st ∈ program.take k, Private st
  after : ∀ st ∈ program.drop (k + 1), Blind st

/-- A client is as far as its statements take it alone, on the state at its look. -/
structure Looked (program : ι → List (Statement S P E)) (k : ι → Nat) (s : S) (init : ι → P)
    (p : List ι) (sys : System ι S P E) : Prop where
  waiting : ∀ i, p.count i ≤ k i → ∀ s',
    sys.session i = (runProgram ((program i).take (p.count i)) s' (.ok (init i))).2
  looked : ∀ i, k i < p.count i → ∃ q, q ++ [i] <+: p ∧ q.count i = k i ∧
    sys.session i = (runProgram ((program i).take (p.count i))
      (run program (start s init) q).shared (.ok (init i))).2

section Looked

variable {k : ι → Nat} {s : S} {init : ι → P} {p : List ι} {sys sys' : System ι S P E} {j : ι}
  {st : Statement S P E}

theorem Looked.step (h : Looked program k s init p sys) (hs : Steps program p sys j st sys')
    (hwaiting : p.count j + 1 ≤ k j → ∀ s', sys'.session j =
      (runProgram ((program j).take (p.count j + 1)) s' (.ok (init j))).2)
    (hlooked : k j < p.count j + 1 → ∃ q, q ++ [j] <+: p ++ [j] ∧ q.count j = k j ∧
      sys'.session j = (runProgram ((program j).take (p.count j + 1))
        (run program (start s init) q).shared (.ok (init j))).2) :
    Looked program k s init (p ++ [j]) sys' := by
  refine ⟨fun i hi s' => ?_, fun i hi => ?_⟩
  · by_cases hij : i = j
    · subst hij
      rw [count_append_singleton, if_pos rfl] at hi ⊢
      exact hwaiting hi s'
    · exact hs.waiting_other h.waiting hij hi s'
  · by_cases hij : i = j
    · subst hij
      rw [count_append_singleton, if_pos rfl] at hi ⊢
      exact hlooked hi
    · rw [count_append_singleton, if_neg hij] at hi ⊢
      rw [hs.others i hij]
      obtain ⟨q, hq, hcount, hsession⟩ := h.looked i hi
      exact ⟨q, hq.trans (List.prefix_append p [j]), hcount, hsession⟩

theorem Looked.step_before (h : Looked program k s init p sys) (hs : Steps program p sys j st sys')
    (hlow : p.count j < k j) (hst : Private st) : Looked program k s init (p ++ [j]) sys' := by
  apply h.step hs
  · intro _ s'
    exact hs.waiting_self hst (h.waiting j (by omega)) s'
  · intro hi
    omega

theorem Looked.step_look (h : Looked program k s init p (run program (start s init) p))
    (hs : Steps program p (run program (start s init) p) j st sys')
    (heq : p.count j = k j) (hlook : OneLook (program j) (k j)) :
    Looked program k s init (p ++ [j]) sys' := by
  refine h.step hs (fun hi => by omega) fun _ => ⟨p, List.prefix_rfl, heq, ?_⟩
  have hbefore : ∀ q ∈ (program j).take (p.count j), Private q := heq ▸ hlook.before
  rw [hs.take_append, runProgram_append, runProgram_cons, runProgram_nil,
    (runProgram_private hbefore _ (run program (start s init) p).shared _).1,
    ← h.waiting j (by omega), hs.session]

theorem Looked.step_after (h : Looked program k s init p sys) (hs : Steps program p sys j st sys')
    (hhigh : k j < p.count j) (hst : Blind st) : Looked program k s init (p ++ [j]) sys' := by
  refine h.step hs (fun hi => by omega) fun _ => ?_
  obtain ⟨q, hq, hcount, hsession⟩ := h.looked j hhigh
  refine ⟨q, hq.trans (List.prefix_append p [j]), hcount, ?_⟩
  rw [hs.take_append, runProgram_append, runProgram_cons, runProgram_nil, hs.session, hsession]
  exact hst.exec _ _ _

theorem looked (s : S) (init : ι → P) (hlook : ∀ i, OneLook (program i) (k i))
    (h : ∀ i, p.count i ≤ (program i).length) :
    Looked program k s init p (run program (start s init) p) := by
  induction p using List.reverseRecOn with
  | nil => exact ⟨fun i _ s' => rfl, fun i hi => by simp at hi⟩
  | append_singleton p j ih =>
    have hp := count_le_of_append h
    obtain ⟨st, hst⟩ := steps_run s init h
    rcases Nat.lt_trichotomy (p.count j) (k j) with hlow | heq | hhigh
    · exact (ih hp).step_before hst hlow ((hlook j).before st (hst.mem_take hlow))
    · exact (ih hp).step_look hst heq (hlook j)
    · exact (ih hp).step_after hst hhigh ((hlook j).after st (hst.mem_drop hhigh))

end Looked

/-- In an interleaving a client with one look gets what it would get alone, on the state
at the moment it looked. -/
theorem session_of_look (s : S) (init : ι → P) {k : ι → Nat} {schedule : List ι}
    (hlook : ∀ i, OneLook (program i) (k i)) (h : Interleaves program schedule) (i : ι) :
    ∃ q, q ++ [i] <+: schedule ∧ q.count i = k i ∧
      (run program (start s init) schedule).session i =
        (runProgram (program i) (run program (start s init) q).shared (.ok (init i))).2 := by
  have hlooked := (looked s init hlook fun i => Nat.le_of_eq (h i)).looked i (by
    rw [h i]
    exact (hlook i).lt)
  rw [h i, List.take_length] at hlooked
  exact hlooked

end StatementInterleaving
