import Probectl.Alert.Monitor

/-! Engines that replace one another over the durable rows: which notifications of a
series survive, and where a stale row swallows one. -/
namespace Probectl.Alerts

open Strings Run Engine Monitor SeriesState Option List Episode

variable {num : Numbers}

def Warm (rule : Rule num) (base : Option (Baseline num)) : Prop :=
  rule.type = .baseline → ∃ b, base = some b ∧ b.window ≤ b.buf.length

theorem add_warm {b : Baseline num} (full : b.window ≤ b.buf.length) (v : num.V) :
    (b.add v).window ≤ (b.add v).buf.length := by
  unfold Baseline.add
  dsimp only
  split
  · rw [length_drop, length_append, length_singleton]
    omega
  · rw [length_append]
    omega

theorem breached_warm (rule : Rule num) (st : SeriesState num) (s : Sample num) :
    ((breached rule st s).1.warming = false → Warm rule (breached rule st s).2.base) ∧
      (Warm rule st.base → (breached rule st s).1.warming = false) := by
  unfold Warm breached
  cases type : rule.type with
  | trap | threshold => exact ⟨fun _ => nofun, fun _ => rfl⟩
  | baseline =>
    generalize held : st.base.getD (newBaseline rule.window) = b
    unfold Baseline.evaluate
    by_cases short : b.buf.length < b.window
    · rw [if_pos short]
      refine ⟨nofun, fun warm => ?_⟩
      obtain ⟨b', found, full⟩ := warm rfl
      rw [found, getD_some] at held
      subst held
      omega
    · rw [if_neg short]
      exact ⟨fun _ _ => ⟨_, rfl, add_warm (Nat.le_of_not_lt short) _⟩, fun _ => rfl⟩

structure Followed (rule : Rule num) (v : View num) : Prop where
  told : ∀ c ∈ v.core, c.firing = true → c.lastNotified ≠ 0 → notified v.episode = true
  quiet : ∀ c ∈ v.core, c.firing = false → c.lastNotified = 0
  taken : ∀ c ∈ v.core, c.firing = true → v.restored = none
  restored : v.restored ≠ none → notified v.episode = true
  row : v.row ≠ none → notified v.episode = true ∨ v.deleting ≠ 0
  seen : notified v.episode = true → v.awaited = true ∨ ∃ c ∈ v.core, c.firing = true
  ready : ∀ c ∈ v.core, c.firing = true → max rule.forN 1 ≤ c.breachCount ∧ Warm rule c.base

structure Met (rule : Rule num) (v : View num) (d : Decision) (st : SeriesState num) : Prop where
  told : st.firing = true → st.lastNotified ≠ 0 → notified v.episode = true
  quiet : st.firing = false → st.lastNotified = 0
  taken : st.firing = true → v.restored = none
  seen : notified v.episode = true → v.awaited = true ∨ st.firing = true
  ready : st.firing = true → max rule.forN 1 ≤ st.breachCount ∧ d.warming = false
  warm : d.warming = false → Warm rule st.base

variable {m : Monitor num}

theorem Followed.met
    (before : Followed rule (m.view (rule.key s))) (now : Instant) :
    Met rule (m.view (rule.key s)) (m.engine.evalSample rule s now).decision (m.engine.observed rule s) := by
  obtain ⟨firing, breachCount, lastNotified, -⟩ := observed_keeps m.engine rule s
  obtain ⟨warm, cold⟩ := breached_warm rule (m.engine.stateFor rule (rule.key s)) s
  obtain known | ⟨unknown, still, never⟩ := stateFor_cases m.engine rule (rule.key s)
  · have mem : (m.engine.stateFor rule (rule.key s)).core ∈ (m.view (rule.key s)).core :=
      congrArg (Option.map core) known
    refine ⟨?_, ?_, ?_, ?_, ?_, warm⟩
    · rw [firing, lastNotified]
      exact before.told _ mem
    · rw [firing, lastNotified]
      exact before.quiet _ mem
    · rw [firing]
      exact before.taken _ mem
    · rw [firing]
      intro notified
      rcases before.seen notified with awaited | ⟨c, held, fires⟩
      · exact .inl awaited
      · rw [mem_unique held mem] at fires
        exact .inr fires
    · rw [firing, breachCount]
      intro fires
      obtain ⟨reached, full⟩ := before.ready _ mem fires
      exact ⟨reached, cold full⟩
  · have dark : ¬(m.engine.observed rule s).firing = true := by simp [firing, still]
    refine ⟨fun fires => absurd fires dark, fun _ => lastNotified.trans never, fun fires => absurd fires dark, ?_,
      fun fires => absurd fires dark, warm⟩
    intro notified
    rcases before.seen notified with awaited | ⟨c, held, -⟩
    · exact .inl awaited
    · exact nomatch (congrArg (Option.map core) unknown).symm.trans held

def Owned (rule : Rule num) (key : Bytes) : Act num → Prop
  | .sample r s _ => stateKey r.id s.labels = key → r = rule
  | .sweep r _ => (rulePrefix r).isPrefixOf key = true → r = rule
  | _ => True

/-- An engine is replaced only with no resolve hook of the series running, and one that
took over in a notified episode sees the series fire before it evaluates it as not
breached. -/
def Seamless (key : Bytes) (m : Monitor num) : Act num → Prop
  | .sample rule s now =>
    rule.enabled = true → stateKey rule.id s.labels = key → (m.engine.evalSample rule s now).decision.warming = false →
      (m.engine.evalSample rule s now).decision.breached = false → m.awaited key = false
  | .replace => m.deleting key = 0
  | _ => True

/-- A firing series that is neither silenced nor in maintenance has been notified in its
episode, and a notified episode is resolved where the series is evaluated as not breached. -/
def Transparent (key : Bytes) (m : Monitor num) : Act num → Prop
  | .sample rule s now =>
    rule.enabled = true → stateKey rule.id s.labels = key →
      ((m.engine.evalSample rule s now).decision.breached = true →
        ∀ st ∈ (m.engine.evalSample rule s now).engine.states key, st.firing = true →
          m.engine.activeMaintenance rule s.labels now = none → ¬(now : Time) < st.silencedUntil →
          notified ((m.evaluated rule s now).episodes key) = true) ∧
      ((m.engine.evalSample rule s now).decision.warming = false →
        (m.engine.evalSample rule s now).decision.breached = false → notified (m.episodes key) = true →
        ∃ a, (m.engine.evalSample rule s now).alert = some a ∧ a.state = .resolved)
  | _ => True

theorem notified_continued (episode : Option Episode) (start now : Time) (loud : Bool)
    (told : notified episode = true ∨ loud = true) :
    notified (some ⟨start, if loud then some now else episode.bind last⟩) = true := by
  cases loud with
  | true => rfl
  | false =>
    rcases told with told | impossible
    · exact told
    · cases impossible

section Moves
variable {en : Engine num} {key : Bytes} {rule : Rule num} {v : View num} {st : SeriesState num} {s : Sample num}
  {d : Decision} {now : Instant} {out : Engine.Outcome num}

theorem followed_dark (core : v.core = some c) (dark : c.firing = false) (quiet : c.lastNotified = 0)
    (restored : v.restored ≠ none → notified v.episode = true)
    (row : v.row ≠ none → notified v.episode = true ∨ v.deleting ≠ 0) (seen : notified v.episode = true → v.awaited = true) :
    Followed rule v := by
  have lit c' (mem : c' ∈ v.core) : c' = c := some.inj (mem.symm.trans core)
  have never c' (mem : c' ∈ v.core) : ¬c'.firing = true := by
    rw [lit c' mem, dark]
    exact Bool.false_ne_true
  exact ⟨fun c mem fires => absurd fires (never c mem), fun c mem _ => lit c mem ▸ quiet,
    fun c mem fires => absurd fires (never c mem), restored, row, fun told => .inl (seen told),
    fun c mem fires => absurd fires (never c mem)⟩

theorem followed_still (before : Followed rule v) (met : Met rule v d st) (dark : st.firing = false)
    (core : out.st.firing = false ∧ out.st.lastNotified = st.lastNotified) (restored : out.engine.restoredNotify key = v.restored)
    (silent : out.alert = none ∧ out.resolve = false) (episode : track v.episode d out.st out.alert now = v.episode) :
    Followed rule (afterMove v key d out now) := by
  have row : rowAfter v.row out = v.row := by rw [rowAfter, silent.1]
  have deleting : v.deleting + (if out.resolve then 1 else 0) = v.deleting := by rw [silent.2]; rfl
  have awaited : (v.awaited && !out.st.firing) = v.awaited := by simp [core.1]
  unfold afterMove
  rw [row, deleting, awaited, restored, episode]
  refine followed_dark rfl core.1 (core.2.trans (met.quiet dark)) before.restored before.row fun told => ?_
  rcases met.seen told with awaited | fires
  · exact awaited
  · exact nomatch dark.symm.trans fires

theorem followed_fired (before : Followed rule v) (met : Met rule v d st) (held : en.restoredNotify key = v.restored)
    (cold : d.warming = false) (breach : d.breached = true) (reached : max rule.forN 1 ≤ st.breachCount + 1)
    (fires : Engine.Fired (if st.firing then en else (beginEpisode en key st now).1) rule
      (entered en key st now) s now out) :
    Followed rule (afterMove v key d out now) ∧
      (out.st.lastNotified ≠ 0 → notified (track v.episode d out.st out.alert now) = true) := by
  have known : (entered en key st now).firing = true ∧ (entered en key st now).breachCount = st.breachCount + 1 ∧
      (entered en key st now).base = st.base ∧
      ((entered en key st now).lastNotified ≠ 0 → notified v.episode = true) := by
    cases firing : st.firing with
    | true =>
      rw [entered_again firing]
      exact ⟨firing, rfl, rfl, met.told firing⟩
    | false =>
      have begun : Engine.Begun en key st now _ := entered_first firing
      refine ⟨begun.firing, begun.breachCount, begun.base, ?_⟩
      intro carried
      apply before.restored
      intro none
      rw [begun.lastNotified, held, none] at carried
      exact carried (met.quiet firing)
  obtain ⟨entered, count, base, carried⟩ := known
  have firing : out.st.firing = true := fires.firing.trans entered
  have taken : out.engine.restoredNotify key = none := by
    rw [fires.engine]
    split
    · rename_i lit
      exact held.trans (met.taken lit)
    · exact Function.update_self _ _ _
  have episode : track v.episode d out.st out.alert now =
      some ⟨(v.episode.map start).getD now, if out.alert.isSome then some now else v.episode.bind last⟩ := by
    simp [track, cold, breach, firing]
  have told : out.st.lastNotified ≠ 0 → notified (track v.episode d out.st out.alert now) = true := by
    intro last
    rw [episode]
    apply notified_continued
    rcases fires.alert with ⟨-, same⟩ | ⟨⟨a, loud, -⟩, -⟩
    · exact .inl (carried (same ▸ last))
    · exact .inr (by rw [loud]; rfl)
  have deleting : v.deleting + (if out.resolve then 1 else 0) = v.deleting := by rw [fires.resolve]; rfl
  refine ⟨?_, told⟩
  unfold afterMove
  rw [deleting, taken]
  refine ⟨?_, ?_, fun _ _ _ => rfl, absurd rfl, ?_, ?_, ?_⟩
  · intro c mem _
    rw [← some.inj mem]
    exact told
  · intro c mem dark
    rw [← some.inj mem] at dark
    exact nomatch firing.symm.trans dark
  · rcases fires.alert with ⟨silent, -⟩ | ⟨⟨a, loud, -⟩, last⟩
    · intro some
      rw [rowAfter, silent] at some
      rcases before.row some with earlier | running
      · left
        rw [episode]
        exact notified_continued _ _ _ _ (.inl earlier)
      · exact .inr running
    · intro _
      exact .inl (told (last ▸ now.2))
  · intro _
    exact .inr ⟨_, rfl, firing⟩
  · intro c mem _
    rw [← some.inj mem]
    refine ⟨?_, ?_⟩
    · change _ ≤ out.st.breachCount
      rw [fires.breachCount, count]
      exact reached
    · change Warm rule out.st.base
      rw [fires.base, base]
      exact met.warm cold

theorem followed_ended (cold : d.warming = false) (clear : d.breached = false) (dark : out.st.firing = false)
    (zero : out.st.lastNotified = 0) (taken : out.engine.restoredNotify key = none)
    (row : rowAfter v.row out ≠ none → v.deleting + (if out.resolve then 1 else 0) ≠ 0) :
    Followed rule (afterMove v key d out now) := by
  have ended : track v.episode d out.st out.alert now = none := by simp [track, cold, clear]
  unfold afterMove
  rw [ended, taken]
  exact followed_dark rfl dark zero (absurd rfl) (fun some => .inr (row some)) nofun

theorem followed_moves (before : Followed rule v) (met : Met rule v d st) (held : en.restoredNotify key = v.restored)
    (seamless : d.warming = false → d.breached = false → v.awaited = false) (moves : Engine.Moves en key rule st s d now out) :
    Followed rule (afterMove v key d out now) ∧
      (d.breached = true → out.st.firing = true → en.activeMaintenance rule s.labels now = none →
        ¬(now : Time) < out.st.silencedUntil → notified (track v.episode d out.st out.alert now) = true) ∧
      (d.warming = false → d.breached = false → notified v.episode = true →
        ∃ a, out.alert = some a ∧ a.state = .resolved) := by
  cases moves with
  | warming warm same =>
    subst same
    have dark : st.firing = false := by
      by_contra fires
      exact nomatch warm.symm.trans (met.ready (Bool.not_eq_false _ ▸ fires)).2
    refine ⟨followed_still before met dark ⟨dark, rfl⟩ held ⟨rfl, rfl⟩ (if_pos warm), ?_, ?_⟩
    · intro _ fires
      exact nomatch dark.symm.trans fires
    · intro cold
      exact nomatch warm.symm.trans cold
  | pending cold breach early same =>
    subst same
    have dark : st.firing = false := by
      by_contra fires
      have reached := (met.ready (Bool.not_eq_false _ ▸ fires)).1
      omega
    refine ⟨followed_still before met dark ⟨dark, rfl⟩ held ⟨rfl, rfl⟩ (by simp [track, breach, dark]), ?_, ?_⟩
    · intro _ fires
      exact nomatch dark.symm.trans fires
    · intro _ clear
      exact nomatch breach.symm.trans clear
  | fired cold breach reached fires =>
    obtain ⟨after, told⟩ := followed_fired before met held cold breach reached fires
    refine ⟨after, ?_, ?_⟩
    · intro _ _ open' loud
      refine told (fires.open' ?_ loud)
      split <;> exact open'
    · intro _ clear
      exact nomatch breach.symm.trans clear
  | resolved cold clear firing same =>
    subst same
    refine ⟨followed_ended cold clear rfl rfl (held.trans (met.taken firing)) (fun _ => Nat.succ_ne_zero _), ?_, ?_⟩
    · intro breach
      exact nomatch clear.symm.trans breach
    · exact fun _ _ _ => ⟨_, rfl, rfl⟩
  | normal cold clear dark same =>
    subst same
    have untold : ¬notified v.episode = true := by
      intro told
      rcases met.seen told with awaited | fires
      · exact nomatch (seamless cold clear).symm.trans awaited
      · exact nomatch dark.symm.trans fires
    have taken : en.restoredNotify key = none := by
      by_contra some
      exact untold (before.restored (held ▸ some))
    refine ⟨followed_ended cold clear dark (met.quiet dark) taken ?_, ?_, fun _ _ told => absurd told untold⟩
    · intro some
      rcases before.row some with told | running
      · exact absurd told untold
      · exact running
    · intro breach
      exact nomatch clear.symm.trans breach

end Moves

theorem followed_sample
    (before : Followed rule (m.view (rule.key s)))
    (seamless : (m.engine.evalSample rule s now).decision.warming = false →
      (m.engine.evalSample rule s now).decision.breached = false → m.awaited (rule.key s) = false) :
    Followed rule ((m.evaluated rule s now).view (rule.key s)) ∧
      Transparent (rule.key s) m (.sample rule s now) := by
  obtain ⟨out, moves, alert, held, after⟩ := m.view_own rule s now
  obtain ⟨followed, fires, resolves⟩ := followed_moves before (before.met now) rfl seamless moves
  have episode : (m.evaluated rule s now).episodes (rule.key s) =
      track (m.episodes (rule.key s)) (m.engine.evalSample rule s now).decision out.st out.alert now :=
    congrArg View.episode after
  rw [after]
  refine ⟨followed, fun _ _ => ⟨?_, ?_⟩⟩
  · intro breach st mem
    rw [held] at mem
    rw [episode, ← some.inj mem]
    exact fires breach
  · rw [alert]
    exact resolves

variable {key : Bytes}

theorem followed_step (metric : rule.type ≠ .trap)
    (before : Followed rule (m.view key)) (owned : Owned rule key act) (seamless : Seamless key m act)
    (stepped : m.step act = some m') : Followed rule (m'.view key) := by
  cases step_steps stepped key with
  | same act still =>
    rw [still]
    exact before
  | sample r s now enabled own next =>
    obtain rfl := owned own
    subst own next
    exact (followed_sample before (seamless enabled rfl)).1
  | swept r now due =>
    simp only [Engine.due, Engine.stale, Bool.and_eq_true, decide_eq_true_eq] at due
    obtain rfl := owned due.2.1.1
    exact absurd due.1 metric
  | hook running next =>
    rw [next]
    exact { before with row := fun none => absurd rfl none }
  | replace next =>
    rw [next]
    refine ⟨nofun, nofun, nofun, ?_, before.row, .inl, nofun⟩
    intro some
    rcases before.row some with told | running
    · exact told
    · exact absurd seamless running

theorem transparent_step
    (before : Followed rule (m.view key)) (owned : Owned rule key act) (seamless : Seamless key m act) :
    Transparent key m act := by
  cases act with
  | sample r s now =>
    intro enabled own
    obtain rfl := owned own
    subst own
    exact (followed_sample before (seamless enabled rfl)).2 enabled rfl
  | _ => trivial

/-- Along every run in which each replacement is seamless, every evaluation of a series of
a threshold or baseline rule is transparent. -/
theorem failover_transparent {rule : Rule num} (metric : rule.type ≠ .trap) (labels : Labels) {acts : List (Act num)}
    (owned : ∀ act ∈ acts, Owned rule (stateKey rule.id labels) act)
    (seamless : Along Monitor.step (Seamless (stateKey rule.id labels)) (.start num) acts) :
    Along Monitor.step (Transparent (stateKey rule.id labels)) (.start num) acts := by
  have start : Followed rule ((start num).view (stateKey rule.id labels)) :=
    ⟨nofun, nofun, nofun, absurd rfl, absurd rfl, nofun, nofun⟩
  have alone : Along step (fun _ act => Owned rule (stateKey rule.id labels) act) (.start num) acts :=
    along_of_mem (fun act mem _ => owned act mem) _
  have keeps m act m' (before : Followed rule (m.view (stateKey rule.id labels)))
      (admitted : Owned rule (stateKey rule.id labels) act ∧ Seamless (stateKey rule.id labels) m act)
      (stepped : m.step act = some m') : Followed rule (m'.view (stateKey rule.id labels)) :=
    followed_step metric before admitted.1 admitted.2 stepped
  exact along_of_invariant keeps (fun _ _ before admitted => transparent_step before admitted.1 admitted.2) start
    (along_and alone seamless)

theorem failover_transparent_again :
    Along Monitor.step (Transparent series) (.start whole) [breach 0, .replace, breach 2, clear 3] := by
  have seamless : Along step (Seamless series) (.start whole) [breach 0, .replace, breach 2, clear 3] := by
    refine fun t first => ⟨fun _ _ _ _ => rfl, ?_⟩
    cases first
    refine fun t second => ⟨rfl, ?_⟩
    cases second
    refine fun t third => ⟨fun _ _ _ clear => absurd clear (by decide +kernel), ?_⟩
    cases third
    exact fun t _ => ⟨fun _ _ _ _ => by decide +kernel, trivial⟩
  have owned : ∀ act ∈ [breach 0, .replace, breach 2, clear 3], Owned above series act := by
    simp [breach, clear, Owned]
  have metric : above.type ≠ .trap := by decide
  exact failover_transparent metric [] owned seamless

/-- The first engine notifies, the second one sees the series recovered and says nothing,
and the row it inherited swallows the notification of the next episode. -/
theorem recovery_unseen :
    notified ((after [breach 0, .replace]).episodes series) = true ∧
      ((after [breach 0, .replace]).engine.evalSample above (reading 0) (tick 2)).decision.breached = false ∧
      ((after [breach 0, .replace]).engine.evalSample above (reading 0) (tick 2)).alert.isNone = true ∧
      ((after [breach 0, .replace, clear 2]).engine.evalSample above (reading 250) (tick 3)).decision.breached = true ∧
      ((after [breach 0, .replace, clear 2]).engine.evalSample above (reading 250) (tick 3)).alert.isNone = true ∧
      ((after [breach 0, .replace, clear 2, breach 3]).engine.states series).any (fun st => st.firing && st.silencedUntil = 0) =
        true ∧
      notified ((after [breach 0, .replace, clear 2, breach 3]).episodes series) = false := by
  decide +kernel

end Probectl.Alerts
