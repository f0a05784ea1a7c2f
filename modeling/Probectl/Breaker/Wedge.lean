import Probectl.Breaker.Circuit

/-! One half-open probe at a time, and when the breaker wedges: a probe whose
callback panics leaves the flag up for good. -/
namespace Probectl.Circuit

open Run List Relation Bool Breaker

def start (threshold cooldown : Int) : System := ⟨new threshold cooldown, []⟩

structure Safe (s : System) : Prop where
  single : s.probes ≤ 1
  held : ∀ c ∈ s.calls, c.probes = true → s.breaker.probing = true

/-- With no callback running, a call past the cooldown is let through. -/
def Open (s : System) : Prop :=
  s.idle = true → ∀ now, s.breaker.opened = false ∨ s.breaker.cooling now = false → (s.breaker.enter now).2.isSome = true

def Covered (s : System) : Prop := s.probes ≤ s.breaker.probing.toNat

def Exact (s : System) : Prop := s.probes = s.breaker.probing.toNat

def Wedged (s : System) : Prop := s.breaker.probing = true ∧ s.probes = 0

variable {s t : System} {a : Action}

theorem covered_step (covered : Covered s) (stepped : step s a = some t) : Covered t := by
  have bound : s.breaker.probing.toNat ≤ 1 := toNat_le _
  unfold Covered at covered ⊢
  cases step_moves stepped with
  | keeps _ flag same =>
    rw [flag, same]
    exact covered
  | starts _ free flag more =>
    rw [free, toNat_false] at covered
    rw [flag, toNat_true]
    omega
  | ends _ flag fewer =>
    omega
  | breaks _ flag fewer =>
    omega

theorem exact_step (exact : Exact s) (returns : Returns s a) (stepped : step s a = some t) : Exact t := by
  have bound : s.breaker.probing.toNat ≤ 1 := toNat_le _
  unfold Exact at exact ⊢
  cases step_moves stepped with
  | keeps _ flag same =>
    rw [flag, same]
    exact exact
  | starts _ free flag more =>
    rw [free, toNat_false] at exact
    rw [flag, toNat_true, more, exact]
  | ends _ flag fewer =>
    rw [flag, toNat_false]
    omega
  | breaks panicked => exact absurd returns panicked

theorem wedged_step (wedged : Wedged s) (stepped : step s a = some t) : Wedged t := by
  obtain ⟨up, none_running⟩ := wedged
  cases step_moves stepped with
  | keeps _ flag same => exact ⟨flag.trans up, same.trans none_running⟩
  | starts _ free => simp [up] at free
  | ends _ _ fewer => omega
  | breaks _ _ fewer => omega

theorem wedged_of_panic (exact : Exact s) (panicked : ¬ Returns s a) (stepped : step s a = some t) : Wedged t := by
  unfold Exact at exact
  cases step_moves stepped with
  | keeps returns | starts returns | ends returns => exact absurd returns panicked
  | breaks _ flag fewer =>
    cases up : s.breaker.probing with
    | true =>
      rw [up, toNat_true] at exact
      exact ⟨flag.trans up, by omega⟩
    | false =>
      rw [up, toNat_false] at exact
      omega

theorem probes_pos (mem : c ∈ s.calls) (probes : c.probes = true) : 0 < s.probes :=
  countP_pos_iff.mpr ⟨c, mem, probes⟩

theorem Covered.safe (covered : Covered s) : Safe s where
  single := covered.trans (toNat_le _)
  held c mem probes := by
    have running := probes_pos mem probes
    cases up : s.breaker.probing with
    | true => rfl
    | false =>
      simp only [Covered, up, toNat_false] at covered
      omega

theorem Exact.open (exact : Exact s) : Open s := by
  intro idle now elapsed
  have none_running : s.probes = 0 := by
    apply countP_eq_zero.mpr
    intro c mem probes
    have ended := all_eq_true.mp idle c mem
    simp [Call.probes] at probes ended
    simp [ended] at probes
  have down : s.breaker.probing = false := by
    rw [Exact, none_running] at exact
    simpa using exact.symm
  rcases s.breaker.enter_cases now with ⟨_, entered⟩ | ⟨_, _, _, entered⟩ | ⟨opened, shorted, _⟩
  · simp [entered]
  · simp [entered]
  · simp [opened] at elapsed
    simp [elapsed, down] at shorted

variable {as : List Action}

theorem wedged_run (wedged : Wedged s) (ran : run step s as = some t) : Wedged t := by
  induction as generalizing s with
  | nil => exact Option.some.inj ran ▸ wedged
  | cons a rest ih =>
    obtain ⟨u, stepped, later⟩ := run_cons ran
    exact ih (wedged_step wedged stepped) later

theorem wedged_of_not_along (exact : Exact s) (panicked : ¬ Along step Returns s as)
    (ran : run step s as = some t) : Wedged t := by
  induction as generalizing s with
  | nil => exact absurd trivial panicked
  | cons a rest ih =>
    obtain ⟨u, stepped, later⟩ := run_cons ran
    by_cases returns : Returns s a
    · apply ih (exact_step exact returns stepped) _ later
      intro along
      refine panicked fun u' stepped' => ?_
      obtain rfl := Option.some.inj (stepped.symm.trans stepped')
      exact ⟨returns, along⟩
    · exact wedged_run (wedged_of_panic exact returns stepped) later

/-! From a wedged breaker, calls that all return lead to a refused call past the
cooldown: let the running callbacks return, then trip the breaker. -/

def Continues (s t : System) : Prop := ∃ a, Returns s a ∧ step s a = some t

theorem drains (wedged : Wedged s) : ∃ t, ReflTransGen Continues s t ∧ Wedged t ∧ t.idle = true := by
  induction running : s.calls.countP Call.running generalizing s with
  | zero =>
    refine ⟨s, .refl, wedged, ?_⟩
    apply all_eq_true.mpr
    intro c mem
    simpa using countP_eq_zero.mp running c mem
  | succ n ih =>
    have some_running : 0 < s.calls.countP Call.running := by omega
    obtain ⟨c, mem, runs⟩ := countP_pos_iff.mp some_running
    obtain ⟨i, within, at_i⟩ := getElem_of_mem mem
    obtain ⟨probe, progress⟩ := c
    obtain rfl : progress = .running := by simpa [Call.running] using runs
    have found : s.calls[i]? = some ⟨probe, .running⟩ := List.getElem?_eq_some_iff.mpr ⟨within, at_i⟩
    have stepped : step s (.finish i .neutral none 0) = some ⟨(s.breaker.settle probe .neutral none 0).1,
        s.calls.set i ⟨probe, .returned none⟩⟩ := by
      simp [step, found, settle]
    have fewer : (s.calls.set i ⟨probe, .returned none⟩).countP Call.running = n := by
      rw [countP_set within, at_i]
      simp [Call.running]
      omega
    obtain ⟨t, reaches, drained⟩ := ih (wedged_step wedged stepped) fewer
    exact ⟨t, reaches.head ⟨.finish i .neutral none 0, trivial, stepped⟩, drained⟩

def Nearer (s t : System) : Prop :=
  t.breaker.opened = true ∨ s.breaker.consec + 1 < s.breaker.threshold ∧
    t.breaker.consec = s.breaker.consec + 1 ∧ t.breaker.threshold = s.breaker.threshold

theorem failing_call (wedged : Wedged s) (idle : s.idle = true) (closed : s.breaker.opened = false) :
    ∃ t, ReflTransGen Continues s t ∧ Wedged t ∧ t.idle = true ∧ Nearer s t := by
  have called : step s (.call 0) = some ⟨s.breaker, s.calls ++ [⟨false, .running⟩]⟩ := by
    simp [step, enter, closed]
  have failed : step ⟨s.breaker, s.calls ++ [⟨false, .running⟩]⟩ (.finish s.calls.length .failure none 0) =
      some ⟨s.breaker.fail 0, s.calls ++ [⟨false, .returned none⟩]⟩ := by
    simp [step, settle]
  have first : Continues s ⟨s.breaker, s.calls ++ [⟨false, .running⟩]⟩ := ⟨.call 0, trivial, called⟩
  refine ⟨_, (ReflTransGen.single first).tail ⟨.finish s.calls.length .failure none 0, trivial, failed⟩,
    ?_, ?_, ?_⟩
  · exact wedged_step (wedged_step wedged called) failed
  · simpa [System.idle, Call.running] using idle
  unfold Nearer fail
  by_cases trips : s.breaker.threshold ≤ s.breaker.consec + 1
  · simp [closed, trips]
  · simp [closed, trips]
    omega

theorem trips (wedged : Wedged s) (idle : s.idle = true) (left : s.breaker.threshold ≤ s.breaker.consec + k) :
    ∃ t, ReflTransGen Continues s t ∧ Wedged t ∧ t.idle = true ∧ t.breaker.opened = true := by
  induction k generalizing s with
  | zero =>
    cases opened : s.breaker.opened with
    | true => exact ⟨s, .refl, wedged, idle, opened⟩
    | false =>
      obtain ⟨t, reaches, wedged, idle, opened | ⟨short, _⟩⟩ := failing_call wedged idle opened
      · exact ⟨t, reaches, wedged, idle, opened⟩
      · omega
  | succ k ih =>
    cases opened : s.breaker.opened with
    | true => exact ⟨s, .refl, wedged, idle, opened⟩
    | false =>
      obtain ⟨t, reaches, wedged, idle, opened | ⟨_, consec, threshold⟩⟩ := failing_call wedged idle opened
      · exact ⟨t, reaches, wedged, idle, opened⟩
      · obtain ⟨u, later, found⟩ := ih wedged idle (by omega)
        exact ⟨u, reaches.trans later, found⟩

theorem wedged_refuses (wedged : Wedged s) (idle : s.idle = true) (opened : s.breaker.opened = true) : ¬ Open s := by
  intro isOpen
  have elapsed : ∃ now, s.breaker.cooling now = false := by
    cases until' : s.breaker.openUntil with
    | none => exact ⟨0, by simp [cooling, until']⟩
    | some τ => exact ⟨τ, by simp [cooling, until']⟩
  obtain ⟨now, elapsed⟩ := elapsed
  have admitted := isOpen idle now (.inr elapsed)
  simp [enter, opened, wedged.1] at admitted

theorem wedged_continues (wedged : Wedged s) : ∃ bs t, Along step Returns s bs ∧ run step s bs = some t ∧ ¬ Open t := by
  obtain ⟨u, drained, wedged, idle⟩ := drains wedged
  obtain ⟨t, tripped, wedged, idle, opened⟩ :=
    trips wedged idle (Nat.le_add_left _ _)
  obtain ⟨bs, along, ran⟩ := along_of_reaches (drained.trans tripped)
  exact ⟨bs, t, along, ran, wedged_refuses wedged idle opened⟩

theorem exact_start (threshold cooldown : Int) : Exact (start threshold cooldown) := rfl

/-- Every run keeps to one probe at a time. And a run leaves the breaker open to
calls, then and however it goes on without a probe panicking, exactly if no
half-open probe's callback panicked in it. -/
theorem never_wedges_iff (threshold cooldown : Int) (as : List Action) (t : System)
    (ran : run step (start threshold cooldown) as = some t) :
    Visits step Safe (start threshold cooldown) as ∧
    (Along step Returns (start threshold cooldown) as ↔
      ∀ bs, Along step Returns t bs → Visits step Open (start threshold cooldown) (as ++ bs)) := by
  have exact := exact_start threshold cooldown
  refine ⟨?_, ?_, ?_⟩
  · have covered : Visits step Covered (start threshold cooldown) as :=
      visits_invariant (fun s a t here stepped => covered_step here stepped) (le_of_eq exact) as
    intro pre post split u reached
    exact (covered pre post split u reached).safe
  · intro along bs later
    have keeps s a t here returns
      (stepped : step s a = some t) : Exact t := exact_step here returns stepped
    have first := visits_of_along keeps exact along
    have second := visits_of_along keeps (run_invariant keeps exact along ran) later
    refine visits_append.mpr ⟨?_, ?_⟩
    · intro pre post split u reached
      exact (first pre post split u reached).open
    · intro t' ran' pre post split u reached
      obtain rfl := Option.some.inj (ran.symm.trans ran')
      exact (second pre post split u reached).open
  · intro opens
    by_contra panicked
    obtain ⟨bs, u, along, reached, refuses⟩ := wedged_continues (wedged_of_not_along exact panicked ran)
    have visits := (visits_append.mp (opens bs along)).2 t ran
    exact refuses (visits bs [] (append_nil bs).symm u reached)

def tripAndProbe : List Action := [.call 0, .finish 0 .failure none 0, .call 10]

theorem never_wedges_tripAndProbe :
    (∃ t, run step (start 1 5) tripAndProbe = some t ∧ t.probes = 1) ∧ Visits step Safe (start 1 5) tripAndProbe := by
  refine ⟨⟨_, rfl, rfl⟩, ?_⟩
  exact (never_wedges_iff 1 5 tripAndProbe _ rfl).1

/-- The probe's callback panics: no callback is running and the cooldown is long
over, and the next call is refused. -/
theorem panicked_probe_wedges : ∃ t, run step (start 1 5) (tripAndProbe ++ [.panics 1]) = some t ∧
    t.idle = true ∧ t.breaker.opened = true ∧ t.breaker.cooling 1000000 = false ∧
    (t.breaker.enter 1000000).2 = none :=
  ⟨_, rfl, rfl, rfl, rfl, rfl⟩

end Probectl.Circuit
