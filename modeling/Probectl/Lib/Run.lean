import Mathlib

/-! Finite labelled runs of a partial step function. A label carries every
choice of the environment, so a run is one interleaving and quantifying over
label lists quantifies over all of them. -/
namespace Probectl.Run

open List Option

variable {S : Type u} {A : Type v}

def run (step : S → A → Option S) : S → List A → Option S
  | s, [] => some s
  | s, a :: rest => (step s a).bind (fun t => run step t rest)

/-- Every step the run takes is taken from a state that admits its label. -/
def Along (step : S → A → Option S) (admits : S → A → Prop) : S → List A → Prop
  | _, [] => True
  | s, a :: rest => ∀ t, step s a = some t → admits s a ∧ Along step admits t rest

/-- A property of every state the run visits, the first and the last included. -/
def Visits (step : S → A → Option S) (good : S → Prop) (s : S) (as : List A) : Prop :=
  ∀ pre post, as = pre ++ post → ∀ t, run step s pre = some t → good t

variable {step : S → A → Option S} {s : S} {a : A} {rest : List A}

theorem run_cons (ran : run step s (a :: rest) = some u) :
    ∃ t, step s a = some t ∧ run step t rest = some u :=
  bind_eq_some_iff.mp ran

variable {admits : S → A → Prop} {good : S → Prop} {t : S} {as : List A}

/-- The invariant rule: what holds at the start and is kept by every admitted
step holds at the end of every admitted run. -/
theorem run_invariant (keeps : ∀ s a t, good s → admits s a → step s a = some t → good t)
    (initial : good s) (along : Along step admits s as)
    (ran : run step s as = some t) : good t := by
  induction as generalizing s with
  | nil => exact some.inj ran ▸ initial
  | cons a rest ih =>
    obtain ⟨u, hu, hrest⟩ := run_cons ran
    obtain ⟨admitted, later⟩ := along u hu
    exact ih (keeps s a u initial admitted hu) later hrest

theorem along_of_forall (every : ∀ s a, admits s a) (s : S) (as : List A) : Along step admits s as := by
  induction as generalizing s with
  | nil => trivial
  | cons a rest ih => exact fun t _ => ⟨every s a, ih t⟩

/-- What every step keeps holds at the end of every run. -/
theorem run_kept (good : S → Prop) (keeps : ∀ s a t, good s → step s a = some t → good t) (initial : good s)
    (ran : run step s as = some t) : good t := by
  have along : Along step (fun _ _ => True) s as := along_of_forall (fun _ _ => trivial) s as
  exact run_invariant (fun s a t here _ => keeps s a t here) initial along ran

theorem along_of_mem (every : ∀ a ∈ as, ∀ s, admits s a) (s : S) : Along step admits s as := by
  induction as generalizing s with
  | nil => trivial
  | cons a rest ih =>
    obtain ⟨first, later⟩ := forall_mem_cons.mp every
    exact fun t _ => ⟨first s, ih later t⟩

theorem along_and (along : Along step admits s as) (along' : Along step others s as) :
    Along step (fun s a => admits s a ∧ others s a) s as := by
  induction as generalizing s with
  | nil => trivial
  | cons a rest ih => exact fun t ht => ⟨⟨(along t ht).1, (along' t ht).1⟩, ih (along t ht).2 (along' t ht).2⟩

/-- What an invariant and an admitted label show is shown along every admitted run. -/
theorem along_of_invariant
    (keeps : ∀ s a t, good s → admits s a → step s a = some t → good t) (holds : ∀ s a, good s → admits s a → shows s a)
    (initial : good s) (along : Along step admits s as) : Along step shows s as := by
  induction as generalizing s with
  | nil => trivial
  | cons a rest ih =>
    intro t stepped
    obtain ⟨admitted, later⟩ := along t stepped
    exact ⟨holds s a initial admitted, ih (keeps s a t initial admitted stepped) later⟩

theorem along_front (along : Along step admits s (as ++ bs)) : Along step admits s as := by
  induction as generalizing s with
  | nil => trivial
  | cons a rest ih => exact fun t ht => ⟨(along t ht).1, ih (along t ht).2⟩

theorem visits_of_along (keeps : ∀ s a t, good s → admits s a → step s a = some t → good t)
    (initial : good s) (along : Along step admits s as) :
    Visits step good s as := by
  rintro pre post rfl t ran
  exact run_invariant keeps initial (along_front along) ran

theorem visits_invariant (keeps : ∀ s a t, good s → step s a = some t → good t) (initial : good s) (as : List A) :
    Visits step good s as := by
  have along : Along step (fun _ _ => True) s as := along_of_forall (fun _ _ => trivial) s as
  exact visits_of_along (fun s a t here _ => keeps s a t here) initial along

theorem visits_congr (invs : Visits step inv s as) (same : ∀ t, inv t → (good t ↔ other t)) :
    Visits step good s as ↔ Visits step other s as := by
  constructor
  · intro visits pre post split t ran
    exact (same t (invs pre post split t ran)).mp (visits pre post split t ran)
  · intro visits pre post split t ran
    exact (same t (invs pre post split t ran)).mpr (visits pre post split t ran)

theorem visits_tail (visits : Visits step good s (a :: rest)) (stepped : step s a = some t) :
    Visits step good t rest := by
  rintro pre post rfl u ran
  exact visits (a :: pre) post rfl u (by simpa [run, stepped] using ran)

theorem visits_cons : Visits step good s (a :: rest) ↔ good s ∧ ∀ t, step s a = some t → Visits step good t rest := by
  constructor
  · intro visits
    exact ⟨visits [] (a :: rest) rfl s rfl, fun t stepped => visits_tail visits stepped⟩
  rintro ⟨here, later⟩ pre post split u ran
  cases pre with
  | nil => exact some.inj ran ▸ here
  | cons b pre =>
    cases split
    obtain ⟨t, stepped, ran⟩ := run_cons ran
    exact later t stepped pre post rfl u ran

theorem visits_nil : Visits step good s [] ↔ good s := by
  constructor
  · intro visits
    exact visits [] [] rfl s rfl
  · intro here pre post split t ran
    obtain ⟨rfl, rfl⟩ := append_eq_nil_iff.mp split.symm
    exact some.inj ran ▸ here

theorem visits_append : Visits step good s (as ++ bs) ↔
      Visits step good s as ∧ ∀ t, run step s as = some t → Visits step good t bs := by
  induction as generalizing s with
  | nil =>
    simp only [visits_nil, run, some.injEq, forall_eq']
    exact ⟨fun visits => ⟨visits [] bs rfl s rfl, visits⟩, fun both => both.2⟩
  | cons a rest ih =>
    simp only [cons_append, visits_cons, ih, run, bind_eq_some_iff, and_assoc]
    constructor
    · rintro ⟨here, later⟩
      exact ⟨here, fun t stepped => (later t stepped).1, fun u ⟨t, stepped, ran⟩ => (later t stepped).2 u ran⟩
    · rintro ⟨here, first, second⟩
      exact ⟨here, fun t stepped => ⟨first t stepped, fun u ran => second u ⟨t, stepped, ran⟩⟩⟩

/-- The converse rule: if a good state can only be left to a good state by an
admitted step, a run through good states only is an admitted one. -/
theorem along_of_visits (forced : ∀ s a t, good s → step s a = some t → good t → admits s a)
    (visits : Visits step good s as) : Along step admits s as := by
  induction as generalizing s with
  | nil => trivial
  | cons a rest ih =>
    intro t ht
    have here : good s := visits [] (a :: rest) rfl s rfl
    have next : good t := visits [a] rest rfl t (by simp [run, ht])
    exact ⟨forced s a t here ht next, ih (visits_tail visits ht)⟩

/-- What admitted steps reach, an admitted run reaches. -/
theorem along_of_reaches (reaches : Relation.ReflTransGen (fun s t => ∃ a, admits s a ∧ step s a = some t) s t) :
    ∃ as, Along step admits s as ∧ run step s as = some t := by
  induction reaches using Relation.ReflTransGen.head_induction_on with
  | refl => exact ⟨[], trivial, rfl⟩
  | head first _ ih =>
    obtain ⟨a, admitted, stepped⟩ := first
    obtain ⟨as, along, ran⟩ := ih
    refine ⟨a :: as, ?_, by simp [run, stepped, ran]⟩
    intro u stepped'
    obtain rfl := some.inj (stepped.symm.trans stepped')
    exact ⟨admitted, along⟩

/-- Unwinding: two runs stay related if the first may take the labels that are
not `mine` alone and both take those that are. The relation may speak of the
labels still to come. -/
theorem foldl_unwinding {step : S → A → S} (mine : A → Bool) (related : List A → S → S → Prop)
    (others : ∀ a rest s u, mine a = false → related (a :: rest) s u → related rest (step s a) u)
    (own : ∀ a rest s u, mine a = true → related (a :: rest) s u → related rest (step s a) (step u a)) (start : related as s u) :
    related [] (as.foldl step s) ((as.filter mine).foldl step u) := by
  induction as generalizing s u with
  | nil => exact start
  | cons a rest ih =>
    cases whose : mine a with
    | true =>
      rw [filter_cons_of_pos whose]
      exact ih (own a rest s u whose start)
    | false =>
      rw [filter_cons_of_neg (by simp [whose])]
      exact ih (others a rest s u whose start)

variable {α ε : Type} {β : Type} {b : β}

theorem bind_ok {x : Except ε α} (done : (x >>= f) = .ok b) : ∃ a, x = .ok a ∧ f a = .ok b := by
  cases x with
  | error err => cases done
  | ok a => exact ⟨a, rfl, done⟩

variable {c : Prop}

theorem guard_ok [Decidable c] {rest : Except ε α} {a : α}
    (done : (if c then .error err else rest) = .ok a) : ¬ c ∧ rest = .ok a := by
  split at done
  · cases done
  · rename_i passed
    exact ⟨passed, done⟩

theorem guard_some [Decidable c] {rest : Option α} {a : α}
    (done : (if c then none else rest) = some a) : ¬ c ∧ rest = some a := by
  split at done
  · cases done
  · rename_i passed
    exact ⟨passed, done⟩

theorem foldlM_invariant {step : β → α → Except ε β} {P : β → Prop} {l : List α}
    (keeps : ∀ b a c, a ∈ l → P b → step b a = .ok c → P c) {c : β} (init : P b) (done : l.foldlM step b = .ok c) :
    P c := by
  induction l generalizing b with
  | nil =>
    cases done
    exact init
  | cons a rest ih =>
    obtain ⟨next, first, later⟩ := bind_ok done
    exact ih (fun b' a' c' mem => keeps b' a' c' (mem_cons_of_mem a mem))
      (keeps b a next mem_cons_self init first) later

end Probectl.Run

/-- What holds of every entry of a log, and of the one that comes behind them. -/
theorem Probectl.forall_mem_snoc {p : A → Prop} (old : ∀ x ∈ log, p x) (new : p a) :
    ∀ x ∈ log ++ [a], p x :=
  List.forall_mem_append.mpr ⟨old, List.forall_mem_singleton.mpr new⟩
