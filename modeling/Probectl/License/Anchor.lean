import Probectl.Lib.Run

/-! The time mark of a licence directory (`license.go`) and the processes that keep it. Times are nanoseconds
since the zero time. -/
namespace Probectl.License

open Run List

def anchorPersistInterval : Int := 3600 * 10 ^ 9

def gracePeriod : Int := 30 * 24 * 3600 * 10 ^ 9

/-- The difference of two times, which stops at the bounds of a duration. -/
def sub (t u : Int) : Int := max (-2 ^ 63) (min (t - u) (2 ^ 63 - 1))

structure TimeAnchor where
  hwm : Int
  persisted : Int

/-- Without a readable file the anchor starts at the zero time. -/
def newTimeAnchor (file : Option Int) : TimeAnchor := ⟨file.getD 0, file.getD 0⟩

/-- The anchor and the file behind it; `written` is whether a write succeeds. -/
def TimeAnchor.observe (a : TimeAnchor) (file : Option Int) (now : Int) (written : Bool) : TimeAnchor × Option Int :=
  let hwm := if a.hwm < now then now else a.hwm
  if anchorPersistInterval ≤ sub hwm a.persisted ∧ written then (⟨hwm, hwm⟩, some hwm) else (⟨hwm, a.persisted⟩, file)

inductive State where
  | active | grace | readOnly
  deriving DecidableEq

def State.rank : State → Nat
  | .active => 0
  | .grace => 1
  | .readOnly => 2

structure Manager where
  expiresAt : Int
  anchor : TimeAnchor

/-- What `State` answered at the last reading of the clock: it reads the mark. -/
def Manager.state (m : Manager) : State :=
  if m.anchor.hwm < m.expiresAt then .active
  else if m.anchor.hwm < m.expiresAt + gracePeriod then .grace
  else .readOnly

/-- The file of the directory and the managers loaded over it, one a process. -/
structure Directory where
  file : Option Int
  managers : List Manager := []

inductive Act where
  | load (expiresAt : Int)
  | observe (process : Nat) (now : Int) (written : Bool)

def Directory.step (d : Directory) : Act → Option Directory
  | .load expiresAt => some { d with managers := d.managers ++ [⟨expiresAt, newTimeAnchor d.file⟩] }
  | .observe i now written => d.managers[i]?.map fun m =>
    let (anchor, file) := m.anchor.observe d.file now written
    ⟨file, d.managers.set i { m with anchor }⟩

/-- The mark that a manager loaded over the file starts from. -/
def mark (file : Option Int) : Int := (newTimeAnchor file).hwm

variable {d e : Directory} {m m' : Manager} {a : Act} {as : List Act} {i : Nat}

theorem observe_cases (a : TimeAnchor) (file : Option Int) (now : Int) (written : Bool) :
    a.observe file now written = (⟨max a.hwm now, max a.hwm now⟩, some (max a.hwm now)) ∨
      a.observe file now written = (⟨max a.hwm now, a.persisted⟩, file) ∧
        (written = true → max a.hwm now < a.persisted + anchorPersistInterval) := by
  have hwm : (if a.hwm < now then now else a.hwm) = max a.hwm now := by omega
  unfold TimeAnchor.observe
  dsimp only
  rw [hwm]
  split
  · exact .inl rfl
  rename_i close
  refine .inr ⟨rfl, fun succeeds => ?_⟩
  have short : sub (max a.hwm now) a.persisted < anchorPersistInterval := by
    simpa [succeeds] using close
  unfold sub anchorPersistInterval at *
  omega

/-- The same licence with a mark that has not fallen. -/
def Later (m m' : Manager) : Prop := m'.expiresAt = m.expiresAt ∧ m.anchor.hwm ≤ m'.anchor.hwm

theorem Later.state_rank (later : Later m m') : m.state.rank ≤ m'.state.rank := by
  obtain ⟨same, rose⟩ := later
  unfold Manager.state
  rw [same]
  split_ifs <;> first | decide | omega

theorem step_later (stepped : d.step a = some e) (at_i : d.managers[i]? = some m) :
    ∃ m', e.managers[i]? = some m' ∧ Later m m' := by
  have bound := (List.getElem?_eq_some_iff.mp at_i).1
  cases a with
  | load expiresAt =>
    cases stepped
    exact ⟨m, (getElem?_append_left bound).trans at_i, rfl, Int.le_refl _⟩
  | observe j now written =>
    obtain ⟨n, at_j, rfl⟩ := Option.map_eq_some_iff.mp stepped
    by_cases same : j = i
    · subst same
      cases at_i.symm.trans at_j
      refine ⟨_, getElem?_set_self bound, rfl, ?_⟩
      rcases observe_cases m.anchor d.file now written with wrote | ⟨kept, -⟩
      · rw [wrote]
        exact Int.le_max_left _ _
      · rw [kept]
        exact Int.le_max_left _ _
    · exact ⟨m, (getElem?_set_ne same).trans at_i, rfl, Int.le_refl _⟩

theorem run_later (ran : run Directory.step d as = some e) (at_i : d.managers[i]? = some m) :
    ∃ m', e.managers[i]? = some m' ∧ Later m m' := by
  refine run_kept (fun d => ∃ m', d.managers[i]? = some m' ∧ Later m m') ?_ ⟨m, at_i, rfl, Int.le_refl _⟩ ran
  rintro d a e ⟨m', at_i, same, rose⟩ stepped
  obtain ⟨m'', at_i', same', rose'⟩ := step_later stepped at_i
  exact ⟨m'', at_i', same'.trans same, Int.le_trans rose rose'⟩

/-- The write succeeds, and what it writes is not below the file's mark. -/
def Forward (d : Directory) : Act → Prop
  | .load _ => True
  | .observe i now written => written = true ∧ ∀ m ∈ d.managers[i]?, mark d.file ≤ max m.anchor.hwm now

theorem observe_marked {a : TimeAnchor} (behind : a.persisted ≤ mark file) (above : mark file ≤ max a.hwm now) :
    (a.observe file now true).1.persisted ≤ mark (a.observe file now true).2 ∧
      mark file ≤ mark (a.observe file now true).2 ∧
      now ≤ mark (a.observe file now true).2 + anchorPersistInterval := by
  have bounded (hwm : Int) : mark (some hwm) = hwm := rfl
  rcases observe_cases a file now true with wrote | ⟨kept, near⟩
  · rw [wrote, bounded]
    refine ⟨Int.le_refl _, above, ?_⟩
    unfold anchorPersistInterval
    omega
  · rw [kept]
    have near := near rfl
    refine ⟨behind, Int.le_refl _, ?_⟩
    dsimp only
    omega

/-- No manager has written more than the file holds. -/
def Directory.Sound (d : Directory) : Prop := ∀ m ∈ d.managers, m.anchor.persisted ≤ mark d.file

theorem step_marked (sound : d.Sound) (forward : Forward d a) (stepped : d.step a = some e) :
    e.Sound ∧ mark d.file ≤ mark e.file ∧
      ∀ i now written, a = .observe i now written → now ≤ mark e.file + anchorPersistInterval := by
  cases a with
  | load expiresAt =>
    cases stepped
    exact ⟨forall_mem_snoc sound (Int.le_refl _), Int.le_refl _, nofun⟩
  | observe i now written =>
    obtain ⟨m, at_i, rfl⟩ := Option.map_eq_some_iff.mp stepped
    obtain ⟨rfl, above⟩ := forward
    obtain ⟨kept, rose, near⟩ := observe_marked (sound m (mem_of_getElem? at_i)) (above m at_i)
    refine ⟨fun x mem => ?_, rose, ?_⟩
    · rcases mem_or_eq_of_mem_set mem with old | rfl
      · exact Int.le_trans (sound x old) rose
      · exact kept
    · rintro _ _ _ ⟨⟩
      exact near

theorem run_marked (sound : d.Sound) (forward : Along Directory.step Forward d as) (ran : run Directory.step d as = some e) :
    mark d.file ≤ mark e.file ∧
      ∀ i now written, .observe i now written ∈ as → now ≤ mark e.file + anchorPersistInterval := by
  induction as generalizing d with
  | nil =>
    cases ran
    exact ⟨Int.le_refl _, nofun⟩
  | cons a as ih =>
    obtain ⟨t, stepped, later⟩ := run_cons ran
    obtain ⟨here, rest⟩ := forward t stepped
    obtain ⟨sound, first, near⟩ := step_marked sound here stepped
    obtain ⟨rose, others⟩ := ih sound rest later
    refine ⟨Int.le_trans first rose, fun i now written mem => ?_⟩
    rcases mem_cons.mp mem with same | mem
    · have near := near i now written same.symm
      omega
    · exact others i now written mem

/-- The state of a process never goes back, whatever its clock reads; the mark on disk follows the highest
time read where no process writes a time below it. -/
theorem rollback_harmless (ran : run Directory.step ⟨file, []⟩ as = some d) :
    (∀ bs e (i : Nat) (m m' : Manager), run Directory.step d bs = some e → d.managers[i]? = some m →
        e.managers[i]? = some m' → m.state.rank ≤ m'.state.rank) ∧
      (Along Directory.step Forward ⟨file, []⟩ as → ∀ i now written, .observe i now written ∈ as →
        now - anchorPersistInterval ≤ (newTimeAnchor d.file).hwm) := by
  constructor
  · intro bs e i m m' ran at_i at_i'
    obtain ⟨m'', at_i'', later⟩ := run_later ran at_i
    cases at_i'.symm.trans at_i''
    exact later.state_rank
  · intro forward i now written mem
    have empty : Directory.Sound ⟨file, []⟩ := forall_mem_nil _
    have near := (run_marked empty forward ran).2 i now written mem
    unfold mark at near
    omega

theorem rollback_harmless_rolled :
    7200 * 10 ^ 9 - anchorPersistInterval ≤ (newTimeAnchor (some (7200 * 10 ^ 9))).hwm := by
  have ran : run Directory.step ⟨none, []⟩ [.load 0, .observe 0 (7200 * 10 ^ 9) true, .observe 0 0 true] =
    some ⟨some (7200 * 10 ^ 9), [⟨0, 7200 * 10 ^ 9, 7200 * 10 ^ 9⟩]⟩ := rfl
  refine (rollback_harmless ran).2 ?_ 0 _ true (by simp)
  rintro _ ⟨⟩
  refine ⟨trivial, ?_⟩
  rintro _ ⟨⟩
  refine ⟨⟨rfl, ?_⟩, ?_⟩
  · rintro _ ⟨⟩
    decide
  rintro _ ⟨⟩
  refine ⟨⟨rfl, ?_⟩, trivial⟩
  rintro _ ⟨⟩
  decide

/-- The process with the slower clock takes the mark back. -/
theorem mark_rolled_back : ∃ d, run Directory.step ⟨none, []⟩
      [.load 0, .load 0, .observe 0 (360000 * 10 ^ 9) true, .observe 1 (180000 * 10 ^ 9) true] = some d ∧
    (newTimeAnchor d.file).hwm < 360000 * 10 ^ 9 - anchorPersistInterval :=
  ⟨_, rfl, by decide⟩

/-- A time that the file held at the start or that a clock has read since. -/
def Read (file : Option Int) (as : List Act) (t : Int) : Prop :=
  t = mark file ∨ ∃ i written, .observe i t written ∈ as

def Directory.Real (file : Option Int) (as : List Act) (d : Directory) : Prop :=
  Read file as (mark d.file) ∧ ∀ m ∈ d.managers, Read file as m.anchor.hwm

theorem step_real (real : d.Real file as) (mem : a ∈ as) (stepped : d.step a = some e) : e.Real file as := by
  obtain ⟨held, each⟩ := real
  cases a with
  | load expiresAt =>
    cases stepped
    exact ⟨held, forall_mem_snoc each held⟩
  | observe i now written =>
    obtain ⟨m, at_i, rfl⟩ := Option.map_eq_some_iff.mp stepped
    have mine : Read file as (max m.anchor.hwm now) := by
      obtain same | same := max_choice m.anchor.hwm now <;> rw [same]
      · exact each m (mem_of_getElem? at_i)
      · exact .inr ⟨i, written, mem⟩
    have all {n} (new : Read file as n.anchor.hwm) x (mem : x ∈ d.managers.set i n) : Read file as x.anchor.hwm :=
      (mem_or_eq_of_mem_set mem).elim (each x) (· ▸ new)
    rcases observe_cases m.anchor d.file now written with wrote | ⟨kept, -⟩
    · rw [wrote]
      exact ⟨mine, all mine⟩
    · rw [kept]
      exact ⟨held, all mine⟩

/-- No process judges its licence by a time of its own making. -/
theorem marks_read (ran : run Directory.step ⟨file, []⟩ as = some d) (loaded : m ∈ d.managers) :
    Read file as m.anchor.hwm := by
  have along : Along Directory.step (fun _ a => a ∈ as) ⟨file, []⟩ as := along_of_mem (fun a mem _ => mem) _
  exact (run_invariant (fun _ _ _ => step_real) ⟨.inl rfl, forall_mem_nil _⟩ along ran).2 m loaded

/-- Two processes; a write fails, and the second one starts from the mark of the first. -/
def twoProcesses : List Act :=
  [.load 5, .observe 0 7 true, .load 9, .observe 0 8 false, .observe 1 6 true, .observe 1 11 true]

theorem marks_read_late :
    ∃ d, run Directory.step ⟨none, []⟩ twoProcesses = some d ∧ d.managers.map (·.anchor.hwm) = [8, 11] ∧
      ∀ m ∈ d.managers, Read none twoProcesses m.anchor.hwm :=
  have ran : run Directory.step ⟨none, []⟩ twoProcesses = some _ := rfl
  ⟨_, ran, by decide, fun _ loaded => marks_read ran loaded⟩

end Probectl.License
